import PluginAgent.Logging.Settings

namespace PluginAgent

inductive Data where
  | null
  | bool (b : Bool)
  | number
  | text (s : String)
  | list (items : List Data)
  | record (fields : List (String × Data))
  deriving Repr, Inhabited

namespace Data

structure Slot (α : Type) where
  name : String
  read : Data → α → Option α

def readRecord {α : Type} (slots : List (Slot α)) (initial : α) : Data → Option α
  | record fields => fields.foldlM (fun a (name, d) =>
      match slots.find? (·.name == name) with
      | some slot => slot.read d a
      | none => some a) initial
  | list items =>
    if items.length > slots.length then none
    else (slots.zip items).foldlM (fun a (slot, d) => slot.read d a) initial
  | _ => none

def readText : Data → Option String
  | text s => some s
  | _ => none

def readBool : Data → Option Bool
  | bool b => some b
  | _ => none

def readTexts : Data → Option (List String)
  | list items => items.mapM readText
  | _ => none

def readChoice : Data → Option (String × Data)
  | text s => some (s, null)
  | record [(name, content)] => some (name, content)
  | _ => none

def readName {α : Type} (name : α → String) (all : List α) (d : Data) : Option α :=
  match d.readChoice with
  | some (s, null) => all.find? (name · == s)
  | _ => none

end Data

open Data

def LogTarget.ofData (d : Data) : Option LogTarget :=
  match d with
  | .record [("file", .text folder)] => some (.file folder)
  | _ => match d.readChoice with
    | some ("stdout", .null) => some .stdout
    | some ("stderr", .null) => some .stderr
    | _ => none

def LogFile.ofData : Data → Option LogFile :=
  readRecord
    [⟨"prefix", fun d f => d.readText.map fun x => { f with stem := x }⟩,
      ⟨"rotation", fun d f =>
        (d.readName Rotation.name Rotation.all).map fun x => { f with rotation := x }⟩] {}

def LogConfig.ofData : Data → Option LogConfig :=
  readRecord
    [⟨"level", fun d c => d.readText.map fun x => { c with level := x }⟩,
      ⟨"format", fun d c =>
        (d.readName LogFormat.name LogFormat.all).map fun x => { c with format := x }⟩,
      ⟨"target", fun d c => (LogTarget.ofData d).map fun x => { c with target := x }⟩,
      ⟨"file", fun d c => (LogFile.ofData d).map fun x => { c with file := x }⟩,
      ⟨"timestamps", fun d c => d.readBool.map fun x => { c with timestamps := x }⟩,
      ⟨"thread_names", fun d c => d.readBool.map fun x => { c with threadNames := x }⟩,
      ⟨"ansi", fun d c => d.readBool.map fun x => { c with ansi := x }⟩,
      ⟨"directives", fun d c => d.readTexts.map fun x => { c with directives := x }⟩] {}

def LoggingSettings.ofData : Data → Option LoggingSettings :=
  readRecord
    [⟨"level", fun d s => d.readText.map fun x => { s with level := x }⟩,
      ⟨"format", fun d s => d.readText.map fun x => { s with format := x }⟩,
      ⟨"directives", fun d s => d.readTexts.map fun x => { s with directives := x }⟩] {}

end PluginAgent
