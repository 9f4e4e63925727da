namespace PluginAgent.Codec

inductive Halt where
  | short
  | corrupt
  deriving DecidableEq, Repr

def bit? (bytes : ByteArray) (pos : Nat) : Option Nat :=
  if h : pos / 8 < bytes.size then some (bytes[pos / 8].toNat >>> (pos % 8) % 2) else none

def bits? (bytes : ByteArray) : Nat → Nat → Option (Nat × Nat)
  | 0, pos => some (0, pos)
  | n + 1, pos => match bit? bytes pos with
    | none => none
    | some b => match bits? bytes n (pos + 1) with
      | none => none
      | some (rest, after) => some (b + 2 * rest, after)

def bits (bytes : ByteArray) (n pos : Nat) : Except Halt (Nat × Nat) :=
  match bits? bytes n pos with
  | some r => .ok r
  | none => .error .short

namespace Huffman

def maxLength : Nat := 15

structure Code where
  counts : Array Nat
  symbols : Array Nat
  deriving Repr

def Code.ofLengths (lengths : Array Nat) : Code where
  counts := (Array.range (maxLength + 1)).map fun n => if n = 0 then 0 else lengths.count n
  symbols := (Array.range (maxLength + 1)).flatMap fun n =>
    if n = 0 then #[] else (Array.range lengths.size).filter fun s => lengths.getD s 0 == n

def Code.covered (c : Code) : Nat :=
  (List.range (maxLength + 1)).foldl (fun sum n => sum + c.counts.getD n 0 <<< (maxLength - n)) 0

def Code.isComplete (c : Code) : Bool :=
  c.covered == 1 <<< maxLength

/-- Codes of at most one word need not be complete. -/
def Code.isUsable (c : Code) : Bool :=
  c.isComplete || c.symbols.size ≤ 1

/-- Reads one more bit of a word of `length` bits so far: `word` is the number they form, `first`
the first word of the next length, `index` the count of the symbols with shorter words. -/
def Code.decodeFrom (c : Code) (bytes : ByteArray) :
    Nat → Nat → Nat → Nat → Nat → Nat → Except Halt (Nat × Nat)
  | 0, _, _, _, _, _ => .error .corrupt
  | fuel + 1, length, word, first, index, pos =>
    match bit? bytes pos with
    | none => .error .short
    | some b =>
      let word := 2 * word + b
      let count := c.counts.getD (length + 1) 0
      if word < first + count then
        match c.symbols[index + (word - first)]? with
        | some s => .ok (s, pos + 1)
        | none => .error .corrupt
      else if index + count ≥ c.symbols.size then .error .corrupt
      else c.decodeFrom bytes fuel (length + 1) word (2 * (first + count)) (index + count) (pos + 1)

def Code.decode (c : Code) (bytes : ByteArray) (pos : Nat) : Except Halt (Nat × Nat) :=
  c.decodeFrom bytes maxLength 0 0 0 0 pos

end Huffman

end PluginAgent.Codec
