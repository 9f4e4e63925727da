import PluginAgent.Plugin.Catalog
import PluginAgent.Startup.Identity

namespace PluginAgent

inductive ServiceType where
  | catalog
  | number
  | text
  | other
  deriving DecidableEq, Repr

inductive Service where
  | catalog (c : Catalog)
  | number (n : Int)
  | text (s : String)

def Service.type : Service → ServiceType
  | catalog _ => .catalog
  | number _ => .number
  | text _ => .text

structure Services where
  handles : List Service := []

namespace Services

def insert (s : Services) (service : Service) : Services :=
  ⟨service :: s.handles.filter fun x => decide (x.type ≠ service.type)⟩

def get? (s : Services) (type : ServiceType) : Option Service :=
  s.handles.find? fun x => decide (x.type = type)

def catalog? (s : Services) : Option Catalog :=
  match s.get? .catalog with
  | some (.catalog c) => some c
  | _ => none

def size (s : Services) : Nat :=
  s.handles.length

def isEmpty (s : Services) : Bool :=
  s.handles.isEmpty

@[simp] theorem get?_insert_self (s : Services) (service : Service) :
    (s.insert service).get? service.type = some service := by
  simp [get?, insert]

end Services

structure AgentOption where
  identity : Identity
  args : Args := {}
  config : Config := {}
  plugins : List String := []
  bootArchives : List String := []
  libs : List String := []
  services : Services := {}

end PluginAgent
