import PluginAgent.Plugin.Packages

namespace PluginAgent

structure Scope where
  filters : List (String → Bool)

namespace Scope

def accepts (s : Scope) (name : String) : Bool :=
  s.filters.all (· name)

def skipReserved (name : String) : Bool :=
  !Reserved.isReserved name

def ofPackages (p : Packages) : Scope :=
  ⟨[skipReserved, p.admits]⟩

def asked (name : String) : List (String → Bool) → Nat
  | [] => 0
  | f :: rest => if f name then asked name rest + 1 else 1

def evaluations (s : Scope) (names : List String) : List Nat :=
  (List.range s.filters.length).map fun i => names.countP fun name => i < asked name s.filters

theorem accepts_ofPackages (p : Packages) (name : String) :
    (ofPackages p).accepts name = (!Reserved.isReserved name && p.admits name) := by
  simp [accepts, ofPackages, skipReserved]

end Scope

end PluginAgent
