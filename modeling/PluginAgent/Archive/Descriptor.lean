import PluginAgent.ClassName
import PluginAgent.Text.Blank
import PluginAgent.Text.Utf8

namespace PluginAgent

open Text

structure Descriptor where
  types : List ClassName := []
  deriving DecidableEq, Repr

namespace Descriptor

inductive Flaw where
  | notText (f : Utf8.Fault)
  | badName (line : Nat) (name : String) (flaw : NameFlaw)
  deriving DecidableEq, Repr

def Flaw.message : Flaw → String
  | notText f => s!"not UTF-8: {f.message}"
  | badName line name flaw => s!"line {line}: {flaw.message name}"

def clean (line : List Char) : List Char :=
  trim (match cut? '#' line with
    | some (before, _) => before
    | none => line)

def parseLines : Nat → List ClassName → List (List Char) → Except Flaw Descriptor
  | _, done, [] => .ok ⟨done.reverse⟩
  | n, done, line :: rest =>
    let name := clean line
    if name.isEmpty then parseLines (n + 1) done rest
    else match ClassName.ofString (String.ofList name) with
      | .error flaw => .error (.badName n (String.ofList name) flaw)
      | .ok c => parseLines (n + 1) (if done.contains c then done else c :: done) rest

def parse (text : List Char) : Except Flaw Descriptor :=
  parseLines 1 [] (lines text)

def ofBytes (bytes : ByteArray) : Except Flaw Descriptor :=
  match Utf8.decode bytes with
  | .error f => .error (.notText f)
  | .ok text => parse text

def isEmpty (d : Descriptor) : Bool :=
  d.types.isEmpty

end Descriptor

end PluginAgent
