namespace PluginAgent

structure Report where
  text : String
  detail : Option String := none
  deriving DecidableEq, Repr

def Report.render (r : Report) : String :=
  r.text ++ r.detail.getD ""

def Report.under (before : String) (r : Report) : Report :=
  { r with text := before ++ r.text }

@[simp] theorem Report.render_under (before : String) (r : Report) :
    (r.under before).render = before ++ r.render := by
  simp [under, render, String.append_assoc]

/-- The levels of a log. Events for debugging, such as the one for each plugin that is discovered,
are below them and part of no log. -/
inductive Level where
  | info
  | warn
  | error
  deriving DecidableEq, Repr

def Level.name : Level → String
  | info => "INFO"
  | warn => "WARN"
  | error => "ERROR"

inductive Field where
  | number (n : Nat)
  | text (s : String)
  | report (r : Report)
  deriving DecidableEq, Repr

structure Event where
  level : Level
  message : String
  fields : List (String × Field) := []
  deriving DecidableEq, Repr

def Field.render : Field → String
  | number n => toString n
  | text s => s
  | report r => r.render

def Event.line (e : Event) : String :=
  e.fields.foldl (fun line f => s!"{line} {f.1}={f.2.render}") s!"{e.level.name} {e.message}"

inductive Outcome (ε α : Type) where
  | ok (a : α)
  | error (e : ε)
  | panic (message : Option String)
  deriving DecidableEq, Repr

namespace Outcome

variable {ε α β : Type}

def ofExcept : Except ε α → Outcome ε α
  | .ok a => .ok a
  | .error e => .error e

def map (f : α → β) : Outcome ε α → Outcome ε β
  | .ok a => .ok (f a)
  | .error e => .error e
  | .panic m => .panic m

end Outcome

def panicText (message : Option String) : String :=
  message.getD "unknown panic"

end PluginAgent
