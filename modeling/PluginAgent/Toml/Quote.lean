namespace PluginAgent.Toml.Quote

def isPlain (c : Char) : Bool :=
  c == '\t' || (' ' ≤ c && c != '\x7f')

def isSpace (c : Char) : Bool :=
  c == ' ' || c == '\t'

inductive State where
  | plain
  | escape
  | number (left value : Nat)
  | lineEnd
  | margin
  deriving DecidableEq, Repr

def escaped? : Char → Option Char
  | 'b' => some '\x08'
  | 't' => some '\t'
  | 'n' => some '\n'
  | 'f' => some '\x0c'
  | 'r' => some '\r'
  | '"' => some '"'
  | '\\' => some '\\'
  | _ => none

def hexValue? (c : Char) : Option Nat :=
  if c.isDigit then some (c.toNat - 48)
  else if 'a' ≤ c.toLower && c.toLower ≤ 'f' then some (c.toLower.toNat - 87)
  else none

def charOf? (n : Nat) : Option Char :=
  if n.isValidChar then some (Char.ofNat n) else none

def close (quote : Char) (done : List Char) (rest : List Char) : List Char × List Char :=
  let more := (rest.takeWhile (· == quote)).length.min 2
  ((List.replicate more quote ++ done).reverse, rest.drop more)

def double (long : Bool) : State → List Char → List Char → Option (List Char × List Char)
  | _, _, [] => none
  | .escape, done, c :: r =>
    if c = 'u' then double long (.number 4 0) done r
    else if c = 'U' then double long (.number 8 0) done r
    else if long && isSpace c then double long .lineEnd done r
    else if long && c == '\n' then double long .margin done r
    else match escaped? c with
      | some x => double long .plain (x :: done) r
      | none => none
  | .number left value, done, c :: r =>
    match hexValue? c with
    | none => none
    | some d =>
      if left > 1 then double long (.number (left - 1) (value * 16 + d)) done r
      else match charOf? (value * 16 + d) with
        | some x => double long .plain (x :: done) r
        | none => none
  | .lineEnd, done, c :: r =>
    if c = '\n' then double long .margin done r
    else if isSpace c then double long .lineEnd done r
    else none
  | state, done, c :: r =>
    if state = .margin && (isSpace c || c == '\n') then double long .margin done r
    else if c = '\\' then double long .escape done r
    else if c = '"' then
      if !long then some (done.reverse, r)
      else match r with
        | '"' :: '"' :: rest => some (close '"' done rest)
        | _ => double long .plain ('"' :: done) r
    else if isPlain c || (long && c == '\n') then double long .plain (c :: done) r
    else none

def single (long : Bool) : List Char → List Char → Option (List Char × List Char)
  | _, [] => none
  | done, c :: r =>
    if c = '\'' then
      if !long then some (done.reverse, r)
      else match r with
        | '\'' :: '\'' :: rest => some (close '\'' done rest)
        | _ => single long ('\'' :: done) r
    else if isPlain c || (long && c == '\n') then single long (c :: done) r
    else none

def withoutLineEnd : List Char → List Char
  | '\n' :: r => r
  | s => s

def short? : List Char → Option (List Char × List Char)
  | '"' :: r => double false .plain [] r
  | '\'' :: r => single false [] r
  | _ => none

def any? : List Char → Option (List Char × List Char)
  | '"' :: '"' :: '"' :: r => double true .plain [] (withoutLineEnd r)
  | '\'' :: '\'' :: '\'' :: r => single true [] (withoutLineEnd r)
  | s => short? s

end PluginAgent.Toml.Quote
