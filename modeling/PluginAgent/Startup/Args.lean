import PluginAgent.Text.Blank
import PluginAgent.Text.Split

namespace PluginAgent

open Text

structure Args where
  values : List (String × String) := []
  deriving DecidableEq, Repr

namespace Args

def agentType : String := "AGENT_TYPE"

def agentId : String := "agentId"

def applicationName : String := "applicationName"

def pair? (token : List Char) : Option (String × String) :=
  let (key, value) := (cut? '=' token).getD (token, [])
  if (trim key).isEmpty then none
  else some (String.ofList (trim key), String.ofList (trim value))

def insert (key value : String) : List (String × String) → List (String × String)
  | [] => [(key, value)]
  | (k, v) :: rest =>
      if key < k then (key, value) :: (k, v) :: rest
      else if key = k then (key, value) :: rest
      else (k, v) :: insert key value rest

def parse (raw : String) : Args :=
  ⟨((splitOn ',' raw.toList).filterMap pair?).foldl (fun values p => insert p.1 p.2 values) []⟩

def get? (a : Args) (key : String) : Option String :=
  a.values.lookup key

def size (a : Args) : Nat :=
  a.values.length

def isEmpty (a : Args) : Bool :=
  a.values.isEmpty

def display (a : Args) : String :=
  String.ofList (joinWith [','] (a.values.map fun p => p.1.toList ++ '=' :: p.2.toList))

end Args

inductive AgentType where
  | standard
  | pluginTest
  deriving DecidableEq, Repr

namespace AgentType

def bootClass : AgentType → String
  | standard => "io.probe.profiler.DefaultAgent"
  | pluginTest => "io.probe.test.PluginTestAgent"

def loadsTestLibraries : AgentType → Bool
  | standard => false
  | pluginTest => true

end AgentType

def Args.type (a : Args) : AgentType :=
  match a.get? agentType with
  | some value => if sameIgnoringCase value "PLUGIN_TEST" then .pluginTest else .standard
  | none => .standard

end PluginAgent
