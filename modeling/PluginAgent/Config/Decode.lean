import PluginAgent.Config.Settings
import PluginAgent.Toml.Document

namespace PluginAgent.Config

open Toml

structure Slot (α : Type) where
  key : String
  read : Value → α → Option α

def readSection {α : Type} (slots : List (Slot α)) (initial : α) : Value → Option α
  | .table _ entries => entries.foldlM (fun a (key, v) =>
      match slots.find? (·.key == key) with
      | some slot => slot.read v a
      | none => some a) initial
  | .array items => (slots.zip items).foldlM (fun a (slot, v) => slot.read v a) initial
  -- a date passes for a section without fields
  | .date _ => some initial
  | _ => none

def readText : Value → Option String
  | .text s => some s
  | _ => none

def readTexts : Value → Option (List String)
  | .array items => items.mapM readText
  | _ => none

def readNumber (bound : Nat) : Value → Option Nat
  | .integer n => if 0 ≤ n ∧ n ≤ bound then some n.toNat else none
  | _ => none

def profilerSlots : List (Slot ProfilerSettings) :=
  [⟨"collector_host", fun v s => (readText v).map fun x => { s with collectorHost := x }⟩,
    ⟨"collector_port", fun v s =>
      (readNumber 0xFFFF v).map fun x => { s with collectorPort := x }⟩,
    ⟨"sampling_rate", fun v s =>
      (readNumber 0xFFFFFFFF v).map fun x => { s with samplingRate := x }⟩,
    ⟨"application_server_type", fun v s =>
      (readText v).map fun x => { s with applicationServerType := some x }⟩]

def pluginSlots : List (Slot PluginSettings) :=
  [⟨"disabled", fun v s => (readTexts v).map fun x => { s with disabled := x }⟩]

def loggingSlots : List (Slot LoggingSettings) :=
  [⟨"level", fun v s => (readText v).map fun x => { s with level := x }⟩,
    ⟨"format", fun v s => (readText v).map fun x => { s with format := x }⟩,
    ⟨"directives", fun v s => (readTexts v).map fun x => { s with directives := x }⟩]

def slots : List (Slot Config) :=
  [⟨"profiler", fun v c => (readSection profilerSlots {} v).map fun x => { c with profiler := x }⟩,
    ⟨"plugins", fun v c => (readSection pluginSlots {} v).map fun x => { c with plugins := x }⟩,
    ⟨"logging", fun v c => (readSection loggingSlots {} v).map fun x => { c with logging := x }⟩]

def ofEntries (entries : Entries) : Option Config :=
  readSection slots {} (.table .header entries)

end PluginAgent.Config
