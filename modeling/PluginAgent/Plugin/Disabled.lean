import PluginAgent.ClassName
import PluginAgent.Report

namespace PluginAgent

structure Disabled where
  types : List String := []
  deriving DecidableEq, Repr

namespace Disabled

def add (types : List String) (type : String) : List String :=
  if type ∈ types then types else types ++ [type]

def ofList (types : List String) : Disabled :=
  ⟨types.foldl add []⟩

def size (d : Disabled) : Nat :=
  d.types.length

def contains (d : Disabled) (type : String) : Bool :=
  d.types.contains type

theorem mem_add {types : List String} {type name : String} :
    name ∈ add types type ↔ name ∈ types ∨ name = type := by
  unfold add
  split
  · rename_i h
    constructor
    · exact Or.inl
    · rintro (h' | rfl)
      · exact h'
      · exact h
  · simp

theorem contains_ofList (types : List String) (name : String) :
    (ofList types).contains name = types.contains name := by
  have step : ∀ known : List String,
      name ∈ types.foldl add known ↔ name ∈ known ∨ name ∈ types := by
    induction types with
    | nil => simp
    | cons t rest ih =>
      intro known
      simp [List.foldl_cons, ih, mem_add, or_assoc]
  simp [contains, ofList, List.contains_eq_mem, step]

end Disabled

end PluginAgent
