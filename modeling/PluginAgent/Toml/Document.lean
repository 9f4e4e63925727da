import PluginAgent.Toml.Quote
import PluginAgent.Toml.Word

namespace PluginAgent.Toml

open Quote

def maxDepth : Nat := 79

def skipSpaces (s : List Char) : List Char :=
  s.dropWhile isSpace

def skipBlanks (inComment : Bool) : List Char → Option (List Char)
  | [] => some []
  | c :: r =>
    if c = '\n' then skipBlanks false r
    else if inComment then if isPlain c then skipBlanks true r else none
    else if isSpace c then skipBlanks false r
    else if c = '#' then skipBlanks true r
    else some (c :: r)

def lineEnd? (s : List Char) : Option (List Char) :=
  let rest := match skipSpaces s with
    | '#' :: r => r.dropWhile isPlain
    | r => r
  match rest with
  | [] => some []
  | '\n' :: r => some r
  | _ => none

def isKeyChar (c : Char) : Bool :=
  c.isAlphanum || c == '-' || c == '_'

def simpleKey? (s : List Char) : Option (List Char × List Char) :=
  match s with
  | [] => none
  | c :: _ =>
    if c = '"' || c = '\'' then short? s
    else if isKeyChar c then some (s.span isKeyChar)
    else none

def key? : Nat → List Char → Option (List String × List Char)
  | 0, _ => none
  | parts + 1, s =>
    match simpleKey? (skipSpaces s) with
    | none => none
    | some (part, rest) => match skipSpaces rest with
      | '.' :: rest => (key? parts rest).map fun (path, rest) => (String.ofList part :: path, rest)
      | rest => some ([String.ofList part], rest)

def items? (value? : List Char → Option (Value × List Char)) :
    Nat → List Value → List Char → Option (Value × List Char)
  | 0, _, _ => none
  | fuel + 1, done, s =>
    match skipBlanks false s with
    | some (']' :: rest) => some (.array done.reverse, rest)
    | some s => match value? s with
      | none => none
      | some (v, rest) => match skipBlanks false rest with
        | some (',' :: rest) => items? value? fuel (v :: done) rest
        | some (']' :: rest) => some (.array (v :: done).reverse, rest)
        | _ => none
    | none => none

def pair? (value? : List Char → Option (Value × List Char)) (s : List Char) :
    Option ((List String × Value) × List Char) :=
  match key? maxDepth s with
  | some (path, '=' :: rest) =>
      (value? (skipSpaces rest)).map fun (v, rest) => ((path, v), skipSpaces rest)
  | _ => none

def assignPath (path : List String) (v : Value) (es : Entries) : Option Entries :=
  match path.getLast? with
  | some key => es.assign path.dropLast key v .header
  | none => none

def pairs? (value? : List Char → Option (Value × List Char)) :
    Nat → Entries → List Char → Option (Value × List Char)
  | 0, _, _ => none
  | fuel + 1, done, s =>
    match pair? value? s with
    | none => none
    | some ((path, v), rest) => match assignPath path v done, rest with
      | some done, ',' :: rest => pairs? value? fuel done rest
      | some done, '}' :: rest => some (.table .inline done, rest)
      | _, _ => none

-- `fuel` bounds the items of one array or table, the other number how deep these nest.
def value? (fuel : Nat) : Nat → List Char → Option (Value × List Char)
  | _, [] => none
  | depth, '[' :: r => match depth with
    | 0 => none
    | depth + 1 => items? (value? fuel depth) fuel [] r
  | depth, '{' :: r => match depth, skipSpaces r with
    | 0, _ => none
    | _ + 1, '}' :: rest => some (.table .inline [], rest)
    | depth + 1, r => pairs? (value? fuel depth) fuel [] r
  | _, c :: r =>
    if c = '"' || c = '\'' then
      (any? (c :: r)).map fun (s, rest) => (.text (String.ofList s), rest)
    else
      let (word, rest) := Word.take (c :: r)
      (Word.parse? word).map fun v => (v, rest)

structure Draft where
  entries : Entries := []
  header : List String := []

namespace Draft

def assign (d : Draft) (path : List String) (v : Value) : Option Draft :=
  match path.getLast? with
  | some key =>
      (d.entries.descend .header (Entries.assign path.dropLast key v) d.header .header).map
        fun entries => { d with entries }
  | none => none

def openTable (d : Draft) (path : List String) : Option Draft :=
  match path.getLast? with
  | some key => (d.entries.openTable path.dropLast key).map fun entries => ⟨entries, path⟩
  | none => none

def openRow (d : Draft) (path : List String) : Option Draft :=
  match path.getLast? with
  | some key => (d.entries.openRow path.dropLast key).map fun entries => ⟨entries, path⟩
  | none => none

def header? (brackets : List Char) (add : List String → Option Draft) (s : List Char) :
    Option (Draft × List Char) :=
  match key? maxDepth s with
  | none => none
  | some (path, rest) =>
    if brackets.isPrefixOf rest then
      match add path, lineEnd? (rest.drop brackets.length) with
      | some d, some rest => some (d, rest)
      | _, _ => none
    else none

def line? (fuel : Nat) (d : Draft) : List Char → Option (Draft × List Char)
  | '[' :: '[' :: s => header? [']', ']'] d.openRow s
  | '[' :: s => header? [']'] d.openTable s
  | s => match pair? (value? fuel maxDepth) s with
    | none => none
    | some ((path, v), rest) => match d.assign path v, lineEnd? rest with
      | some d, some rest => some (d, rest)
      | _, _ => none

def read? (limit : Nat) : Nat → Draft → List Char → Option Draft
  | 0, _, _ => none
  | fuel + 1, d, s =>
    match skipBlanks false s with
    | none => none
    | some [] => some d
    | some s => match line? limit d s with
      | none => none
      | some (d, rest) => read? limit fuel d rest

end Draft

def joinLineEnds (done : List Char) : List Char → List Char
  | [] => done.reverse
  -- a CR elsewhere stays, and is no character of any document
  | '\r' :: '\n' :: r => joinLineEnds ('\n' :: done) r
  | c :: r => joinLineEnds (c :: done) r

def withoutMark : List Char → List Char
  | c :: r => if c.toNat = 0xFEFF then r else c :: r
  | [] => []

def parse? (text : List Char) : Option Entries :=
  let s := joinLineEnds [] (withoutMark text)
  (Draft.read? (s.length + 1) (s.length + 1) {} s).map (·.entries)

end PluginAgent.Toml
