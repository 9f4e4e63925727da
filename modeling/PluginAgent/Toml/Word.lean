import PluginAgent.Text.Split
import PluginAgent.Toml.Value

namespace PluginAgent.Toml.Word

open Text

def digitValue (c : Char) : Nat :=
  if c.isDigit then c.toNat - 48 else c.toLower.toNat - 87

def isBinary (c : Char) : Bool :=
  c == '0' || c == '1'

def isOctal (c : Char) : Bool :=
  '0' ≤ c && c ≤ '7'

def isHex (c : Char) : Bool :=
  c.isDigit || ('a' ≤ c.toLower && c.toLower ≤ 'f')

def digits? (isDigit : Char → Bool) (word : List Char) : Option (List Char) :=
  let runs := splitOn '_' word
  if runs.all fun r => !r.isEmpty && r.all isDigit then some runs.flatten else none

def value (base : Nat) (digits : List Char) : Nat :=
  digits.foldl (fun n c => n * base + digitValue c) 0

def unsigned : List Char → Bool × List Char
  | '+' :: r => (false, r)
  | '-' :: r => (true, r)
  | r => (false, r)

def decimal? (word : List Char) : Option Nat :=
  match word with
  | '0' :: _ :: _ => none
  | _ => (digits? Char.isDigit word).map (value 10)

def wordBound : Nat := 0x8000000000000000

def bounded (n : Nat) : Option Value :=
  if n < wordBound then some (.integer n) else none

def integer? (word : List Char) : Option Value :=
  match word with
  | '0' :: 'x' :: r => (digits? isHex r).bind fun ds => bounded (value 16 ds)
  | '0' :: 'o' :: r => (digits? isOctal r).bind fun ds => bounded (value 8 ds)
  | '0' :: 'b' :: r => (digits? isBinary r).bind fun ds => bounded (value 2 ds)
  | _ =>
    let (negative, r) := unsigned word
    (decimal? r).bind fun n =>
      if negative then if n ≤ wordBound then some (.integer (-(n : Int))) else none
      else bounded n

def floatBound : Nat :=
  (1 <<< 1024) - (1 <<< 970)

def isFinite (n : Nat) (exponent : Int) : Bool :=
  if n = 0 then true
  else
    let places := exponent + (Nat.toDigits 10 n).length
    if places > 400 then false
    else if places < 0 then true
    else if exponent ≥ 0 then n * Nat.pow 10 exponent.toNat < floatBound
    else n < floatBound * Nat.pow 10 (-exponent).toNat

def exponent? (word : List Char) : Option Int :=
  let (negative, r) := unsigned word
  (digits? Char.isDigit r).map fun ds =>
    if negative then -(value 10 ds : Int) else (value 10 ds : Int)

def floatParts? (word : List Char) : Option (List Char × List Char × Int) :=
  let (mantissa, exponent) := word.span fun c => c != 'e' && c != 'E'
  let exponent := match exponent with
    | [] => some 0
    | _ :: r => exponent? r
  match cut? '.' mantissa, exponent with
  | some (whole, fraction), some e =>
      (digits? Char.isDigit fraction).map fun fraction => (whole, fraction, e)
  | none, some e => if mantissa.length = word.length then none else some (mantissa, [], e)
  | _, none => none

def float? (word : List Char) : Option Value :=
  let written := Value.float (String.ofList word)
  let (negative, r) := unsigned word
  if r = "inf".toList || r = "nan".toList then some written
  else match floatParts? r with
    | none => none
    | some (whole, fraction, e) =>
      (decimal? whole).bind fun n =>
        let digits := n * Nat.pow 10 fraction.length + value 10 fraction
        if negative || isFinite digits (e - fraction.length) then some written else none

def exactly? (count : Nat) (word : List Char) : Option Nat :=
  if word.length = count && word.all Char.isDigit then some (value 10 word) else none

def within? (low high : Nat) (n : Option Nat) : Bool :=
  match n with
  | some n => low ≤ n && n ≤ high
  | none => false

def isLeap (year : Nat) : Bool :=
  year % 4 == 0 && (year % 100 != 0 || year % 400 == 0)

def daysIn (year month : Nat) : Nat :=
  if month = 2 then (if isLeap year then 29 else 28)
  else if month = 4 ∨ month = 6 ∨ month = 9 ∨ month = 11 then 30
  else 31

def isDay (word : List Char) : Bool :=
  match splitOn '-' word with
  | [year, month, day] => match exactly? 4 year, exactly? 2 month with
    | some y, some m =>
        1 ≤ m && m ≤ 12 && within? 1 (daysIn y m) (exactly? 2 day)
    | _, _ => false
  | _ => false

def isSecond (word : List Char) : Bool :=
  match cut? '.' word with
  | none => within? 0 60 (exactly? 2 word)
  | some (whole, fraction) =>
      within? 0 60 (exactly? 2 whole) && !fraction.isEmpty && fraction.all Char.isDigit

def isTime (word : List Char) : Bool :=
  match splitOn ':' word with
  | [hour, minute, second] =>
      within? 0 23 (exactly? 2 hour) && within? 0 59 (exactly? 2 minute) && isSecond second
  | _ => false

def isOffset (word : List Char) : Bool :=
  match splitOn ':' word with
  | [hour, minute] => within? 0 23 (exactly? 2 hour) && within? 0 59 (exactly? 2 minute)
  | _ => false

def isZonedTime (word : List Char) : Bool :=
  let (time, zone) := word.span fun c => c.isDigit || c == ':' || c == '.'
  isTime time && match zone with
    | [] => true
    | 'Z' :: r => r.isEmpty
    | 'z' :: r => r.isEmpty
    | '+' :: r => isOffset r
    | '-' :: r => isOffset r
    | _ => false

def dayWidth : Nat := 10

def isDate (word : List Char) : Bool :=
  isTime word || (isDay (word.take dayWidth) && match word.drop dayWidth with
    | [] => true
    | 'T' :: r => isZonedTime r
    | 't' :: r => isZonedTime r
    | ' ' :: r => isZonedTime r
    | _ => false)

def parse? (word : List Char) : Option Value :=
  if word = "true".toList then some (.boolean true)
  else if word = "false".toList then some (.boolean false)
  else if isDate word then some (.date (String.ofList word))
  else (float? word).or (integer? word)

def isWordChar (c : Char) : Bool :=
  c.isAlphanum || c == '+' || c == '-' || c == '.' || c == ':' || c == '_'

def take (s : List Char) : List Char × List Char :=
  let (word, rest) := s.span isWordChar
  match rest with
  | ' ' :: c :: r =>
    if isDay word && c.isDigit then
      let (time, rest) := (c :: r).span isWordChar
      (word ++ ' ' :: time, rest)
    else (word, rest)
  | _ => (word, rest)

end PluginAgent.Toml.Word
