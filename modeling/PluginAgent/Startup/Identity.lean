import PluginAgent.Properties
import PluginAgent.Startup.Args
import PluginAgent.Startup.Error

namespace PluginAgent

open Text

structure Identity where
  agentId : String
  applicationName : String
  deriving DecidableEq, Repr

namespace Identity

def isIdChar (c : Char) : Bool :=
  c.isAlphanum || c == '.' || c == '_' || c == '-'

def flaw? (value : String) : Option IdFlaw :=
  if value.utf8ByteSize > maxIdSize then some (.tooLong value.utf8ByteSize)
  else (value.toList.find? (!isIdChar ·)).map .badCharacter

structure Keys where
  argument : String
  property : String
  deriving DecidableEq, Repr

def idKeys : Keys :=
  ⟨Args.agentId, Properties.agentId⟩

def nameKeys : Keys :=
  ⟨Args.applicationName, Properties.applicationName⟩

def unset (keys : Keys) : Event :=
  ⟨.warn, "Agent identity value not set",
    [("argument", .text keys.argument), ("property", .text keys.property)]⟩

def blank (key : String) : Event :=
  ⟨.warn, "Agent identity value is empty", [("key", .text key)]⟩

def invalid (key value : String) (flaw : IdFlaw) : Event :=
  ⟨.warn, "Invalid agent identity value",
    [("key", .text key), ("value", .text value), ("reason", .text flaw.message)]⟩

def resolved (key value : String) : Event :=
  ⟨.info, "Resolved agent identity value", [("key", .text key), ("value", .text value)]⟩

def check (key value : String) : Except BootError String × Event :=
  let value := trimString value
  if value.isEmpty then (.error (.identityMissing key), blank key)
  else match flaw? value with
    | some flaw => (.error (.identityInvalid key value flaw), invalid key value flaw)
    | none => (.ok value, resolved key value)

def value (keys : Keys) (argument property : Option String) : Except BootError String × Event :=
  match argument, property with
  -- a blank argument is given too, and keeps the property from counting
  | some v, _ => check keys.argument v
  | none, some v => check keys.property v
  | none, none => (.error (.identityMissing keys.property), unset keys)

end Identity

end PluginAgent
