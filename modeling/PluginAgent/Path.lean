import PluginAgent.Text.Split

namespace PluginAgent.Path

open Text

inductive Component (α : Type) where
  | root
  | current
  | parent
  | name (part : List α)
  deriving DecidableEq, Repr

section

variable {α : Type} [DecidableEq α]

def componentsOfPart (dot : α) (part : List α) : List (Component α) :=
  if part = [] ∨ part = [dot] then []
  else if part = [dot, dot] then [.parent]
  else [.name part]

def componentsOf (slash dot : α) (path : List α) : List (Component α) :=
  match splitOn slash path with
  | [] => []
  | first :: rest =>
      (if first = [] ∧ rest ≠ [] then [.root]
       else if first = [dot] then [.current]
       else componentsOfPart dot first) ++ rest.flatMap (componentsOfPart dot)

end

def components (path : String) : List (Component Char) :=
  componentsOf '/' '.' path.toList

def fileName? (path : String) : Option String :=
  match (components path).getLast? with
  | some (.name part) => some (String.ofList part)
  | _ => none

def isAbsolute (path : String) : Bool :=
  path.toList.head? == some '/'

def join (base child : String) : String :=
  if isAbsolute child then child
  else if base.isEmpty || base.toList.getLast? == some '/' then base ++ child
  else base ++ "/" ++ child

def parent (path : String) : String :=
  String.ofList (((path.toList.reverse.dropWhile (· != '/')).drop 1).reverse)

def same (p q : String) : Bool :=
  components p == components q

end PluginAgent.Path
