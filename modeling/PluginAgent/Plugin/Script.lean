import PluginAgent.Plugin.Namespaces

/-!
Code that sets plugins up, as data: what it asks of the agent, step by step, and how it goes on with
each answer. It reaches classes and resources through the injector of its own set-up only; an
injector that an earlier set-up has kept would still act on its namespace, but no step here uses
one. It may look at the disk and change it, may log, and keeps a state of its own.
-/

namespace PluginAgent

structure World (σ : Type) where
  disk : Disk
  spaces : Namespaces := {}
  own : σ
  log : List Event := []
  /-- What others do to the files before a plugin is set up in a namespace. -/
  outside : NamespaceId → ClassName → Disk → Disk := fun _ _ disk => disk

namespace World

variable {σ : Type}

def emit (w : World σ) (events : List Event) : World σ :=
  { w with log := w.log ++ events }

@[simp] theorem disk_emit (w : World σ) (events : List Event) : (w.emit events).disk = w.disk :=
  rfl

@[simp] theorem spaces_emit (w : World σ) (events : List Event) :
    (w.emit events).spaces = w.spaces :=
  rfl

@[simp] theorem log_emit (w : World σ) (events : List Event) :
    (w.emit events).log = w.log ++ events :=
  rfl

def meanwhile (w : World σ) (space : NamespaceId) (type : ClassName) : World σ :=
  { w with disk := w.outside space type w.disk }

end World

inductive Script (σ α : Type) where
  | done (result : Except PluginError α)
  | panic (message : Option String)
  | resolve (space : NamespaceId) (name : ClassName)
      (next : Except PluginError LoadedClass → Script σ α)
  | resource (path : String) (next : Except PluginError ByteArray → Script σ α)
  | inScope (name : String) (next : Bool → Script σ α)
  | look (next : Disk → Script σ α)
  | change (f : Disk → Disk) (next : Script σ α)
  | log (e : Event) (next : Script σ α)
  | own (next : σ → Script σ α)
  | keep (f : σ → σ) (next : Script σ α)

namespace Script

variable {σ α β : Type}

def andThen : Script σ α → (Except PluginError α → Script σ β) → Script σ β
  | done result, f => f result
  | panic m, _ => panic m
  | resolve space name next, f => resolve space name fun r => (next r).andThen f
  | resource path next, f => resource path fun r => (next r).andThen f
  | inScope name next, f => inScope name fun r => (next r).andThen f
  | look next, f => look fun d => (next d).andThen f
  | change g next, f => change g (next.andThen f)
  | log e next, f => log e (next.andThen f)
  | own next, f => own fun s => (next s).andThen f
  | keep g next, f => keep g (next.andThen f)

def run (i : Injector) : Script σ α → World σ → Outcome PluginError α × World σ
  | done result, w => (.ofExcept result, w)
  | panic m, w => (.panic m, w)
  | resolve space name next, w =>
    match i.resolve w.spaces w.disk space name with
    | .error e => run i (next (.error e)) w
    | .ok (c, spaces) => run i (next (.ok c)) { w with spaces }
  | resource path next, w => run i (next (i.resource w.spaces w.disk path)) w
  | inScope name next, w => run i (next (i.inScope w.spaces name)) w
  | look next, w => run i (next w.disk) w
  | change f next, w => run i next { w with disk := f w.disk }
  | log e next, w => run i next (w.emit [e])
  | own next, w => run i (next w.own) w
  | keep f next, w => run i next { w with own := f w.own }

theorem run_andThen (i : Injector) (s : Script σ α) (f : Except PluginError α → Script σ β) :
    ∀ w, run i (s.andThen f) w =
      match run i s w with
      | (.ok a, w') => run i (f (.ok a)) w'
      | (.error e, w') => run i (f (.error e)) w'
      | (.panic m, w') => (.panic m, w') := by
  induction s with
  | done result => intro w; cases result <;> rfl
  | panic m => intro w; rfl
  | resolve space name next ih =>
    intro w
    simp only [andThen, run]
    split <;> exact ih _ _
  | resource path next ih => intro w; simp only [andThen, run]; exact ih _ _
  | inScope name next ih => intro w; simp only [andThen, run]; exact ih _ _
  | look next ih => intro w; simp only [andThen, run]; exact ih _ _
  | change g next ih => intro w; simp only [andThen, run]; exact ih _
  | log e next ih => intro w; simp only [andThen, run]; exact ih _
  | own next ih => intro w; simp only [andThen, run]; exact ih _ _
  | keep g next ih => intro w; simp only [andThen, run]; exact ih _

end Script

end PluginAgent
