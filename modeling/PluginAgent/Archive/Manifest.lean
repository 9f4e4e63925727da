import PluginAgent.Text.Blank
import PluginAgent.Text.Split
import PluginAgent.Text.Utf8

namespace PluginAgent

open Text

structure Manifest where
  attributes : List (String × String) := []
  deriving DecidableEq, Repr

namespace Manifest

inductive Flaw where
  | notText (f : Utf8.Fault)
  | orphan (line : Nat)
  | noColon (line : Nat)
  | badName (line : Nat) (name : String)
  deriving DecidableEq, Repr

def Flaw.message : Flaw → String
  | notText f => s!"not UTF-8: {f.message}"
  | orphan line => s!"line {line}: continuation without an attribute"
  | noColon line => s!"line {line}: expected 'Name: value'"
  | badName line name => s!"line {line}: invalid attribute name '{name}'"

def isName (name : List Char) : Bool :=
  !name.isEmpty && !name.any isBlank

def withoutSpace : List Char → List Char
  | ' ' :: r => r
  | s => s

def parseLines : Nat → List (String × String) → List (List Char) → Except Flaw Manifest
  | _, done, [] => .ok ⟨done.reverse⟩
  | _, done, [] :: _ => .ok ⟨done.reverse⟩
  | n, [], (' ' :: _) :: _ => .error (.orphan n)
  | n, (name, value) :: done, (' ' :: more) :: rest =>
      parseLines (n + 1) ((name, value ++ String.ofList more) :: done) rest
  | n, done, line :: rest =>
    match cut? ':' line with
    | none => .error (.noColon n)
    | some (name, value) =>
      if isName (trimEnd name) then
        parseLines (n + 1)
          ((String.ofList (trimEnd name), String.ofList (withoutSpace value)) :: done) rest
      else .error (.badName n (String.ofList (trimEnd name)))

def byteOrderMark : Char := Char.ofNat 0xFEFF

def withoutMark : List Char → List Char
  | c :: r => if c = byteOrderMark then r else c :: r
  | [] => []

def parse (text : List Char) : Except Flaw Manifest :=
  parseLines 1 [] (lines (withoutMark text))

def ofBytes (bytes : ByteArray) : Except Flaw Manifest :=
  match Utf8.decode bytes with
  | .error f => .error (.notText f)
  | .ok text => parse text

def get? (m : Manifest) (name : String) : Option String :=
  (m.attributes.find? fun a => sameIgnoringCase a.1 name).map (·.2)

end Manifest

end PluginAgent
