import PluginAgent.Plugin.Setup

namespace PluginAgent

abbrev Factory : Type :=
  Outcome Empty Plugin

structure Catalog where
  factories : List (ClassName × Factory) := []

namespace Catalog

def contains (c : Catalog) (name : String) : Bool :=
  c.factories.any (·.1.text == name)

def register (c : Catalog) (name : String) (factory : Factory) : Except PluginError Catalog :=
  match ClassName.read name with
  | .error e => .error e
  | .ok type =>
    if c.contains type.text then .error (.alreadyRegistered type)
    else .ok ⟨c.factories ++ [(type, factory)]⟩

def factory? (c : Catalog) (type : ClassName) : Option Factory :=
  c.factories.lookup type

def types (c : Catalog) : List ClassName :=
  ClassName.sort (c.factories.map (·.1))

def size (c : Catalog) : Nat :=
  c.factories.length

def isEmpty (c : Catalog) : Bool :=
  c.factories.isEmpty

end Catalog

end PluginAgent
