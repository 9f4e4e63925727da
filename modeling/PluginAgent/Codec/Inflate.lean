import PluginAgent.Codec.Bytes
import PluginAgent.Codec.Huffman

namespace PluginAgent.Codec.Inflate

open Huffman

def window : Nat := 32768

def lengthBases : Array Nat :=
  #[3, 4, 5, 6, 7, 8, 9, 10, 11, 13, 15, 17, 19, 23, 27, 31, 35, 43, 51, 59, 67, 83, 99, 115, 131,
    163, 195, 227, 258]

def lengthExtras : Array Nat :=
  #[0, 0, 0, 0, 0, 0, 0, 0, 1, 1, 1, 1, 2, 2, 2, 2, 3, 3, 3, 3, 4, 4, 4, 4, 5, 5, 5, 5, 0]

def distanceBases : Array Nat :=
  #[1, 2, 3, 4, 5, 7, 9, 13, 17, 25, 33, 49, 65, 97, 129, 193, 257, 385, 513, 769, 1025, 1537,
    2049, 3073, 4097, 6145, 8193, 12289, 16385, 24577]

def distanceExtras : Array Nat :=
  #[0, 0, 0, 0, 1, 1, 2, 2, 3, 3, 4, 4, 5, 5, 6, 6, 7, 7, 8, 8, 9, 9, 10, 10, 11, 11, 12, 12, 13,
    13]

def copyBack (distance : Nat) : Nat → ByteArray → ByteArray
  | 0, out => out
  | count + 1, out =>
      -- before the first byte all is zero
      copyBack distance count
        (out.push (if distance ≤ out.size then out.get! (out.size - distance) else 0))

def extended (bytes : ByteArray) (bases extras : Array Nat) (i pos : Nat) :
    Except Halt (Nat × Nat) :=
  match bases[i]?, extras[i]? with
  | some base, some extra => match bits bytes extra pos with
    | .ok (n, pos) => .ok (base + n, pos)
    | .error h => .error h
  | _, _ => .error .corrupt

def copyAt (distances : Code) (bytes : ByteArray) (s pos : Nat) :
    Except Halt (Nat × Nat × Nat) := do
  let (length, pos) ← extended bytes lengthBases lengthExtras (s - 257) pos
  let (d, pos) ← distances.decode bytes pos
  let (distance, pos) ← extended bytes distanceBases distanceExtras d pos
  return (length, distance, pos)

abbrev Progress := ByteArray × Except Halt Nat

def symbolsFrom (literals distances : Code) (bytes : ByteArray) : Nat → Nat → ByteArray → Progress
  | 0, _, out => (out, .error .short)
  | fuel + 1, pos, out =>
    match literals.decode bytes pos with
    | .error h => (out, .error h)
    | .ok (s, pos) =>
      if s < 256 then symbolsFrom literals distances bytes fuel pos (out.push (UInt8.ofNat s))
      else if s = 256 then (out, .ok pos)
      else match copyAt distances bytes s pos with
        | .error h => (out, .error h)
        | .ok (length, distance, pos) =>
            symbolsFrom literals distances bytes fuel pos (copyBack distance length out)

def fixedLiterals : Code :=
  .ofLengths (Array.replicate 144 8 ++ Array.replicate 112 9 ++ Array.replicate 24 7 ++
    Array.replicate 8 8)

def fixedDistances : Code :=
  .ofLengths (Array.replicate 32 5)

def storedBlock (bytes : ByteArray) (pos : Nat) (out : ByteArray) : Progress :=
  let start := (pos + 7) / 8
  match readLittleEndian? bytes start 2, readLittleEndian? bytes (start + 2) 2 with
  | some length, some complement =>
    if length + complement ≠ 0xFFFF then (out, .error .corrupt)
    else
      let after := out ++ bytes.extract (start + 4) (start + 4 + length)
      if start + 4 + length ≤ bytes.size then (after, .ok (8 * (start + 4 + length)))
      else (after, .error .short)
  | _, _ => (out, .error .short)

def lengthOrder : List Nat :=
  [16, 17, 18, 0, 8, 7, 9, 6, 10, 5, 11, 4, 12, 3, 13, 2, 14, 1, 15]

def lengthsOfLengths (bytes : ByteArray) : List Nat → Nat → Array Nat →
    Except Halt (Array Nat × Nat)
  | [], pos, lengths => .ok (lengths, pos)
  | s :: rest, pos, lengths =>
    match bits bytes 3 pos with
    | .error h => .error h
    | .ok (n, pos) => lengthsOfLengths bytes rest pos (lengths.setIfInBounds s n)

def wordLengths (code : Code) (bytes : ByteArray) (wanted : Nat) :
    Nat → Nat → Array Nat → Except Halt (Array Nat × Nat)
  | 0, _, _ => .error .short
  | fuel + 1, pos, lengths =>
    if lengths.size = wanted then .ok (lengths, pos)
    else if lengths.size > wanted then .error .corrupt
    else match code.decode bytes pos with
      | .error h => .error h
      | .ok (s, pos) =>
        if s < 16 then wordLengths code bytes wanted fuel pos (lengths.push s)
        else if s = 16 then
          match lengths.back?, bits bytes 2 pos with
          | none, _ => .error .corrupt
          | _, .error h => .error h
          | some last, .ok (n, pos) =>
              wordLengths code bytes wanted fuel pos (lengths ++ Array.replicate (3 + n) last)
        else
          let (width, base) := if s = 17 then (3, 3) else (7, 11)
          match bits bytes width pos with
          | .error h => .error h
          | .ok (n, pos) =>
              wordLengths code bytes wanted fuel pos (lengths ++ Array.replicate (base + n) 0)

def describedCodes (bytes : ByteArray) (pos : Nat) : Except Halt (Code × Code × Nat) := do
  let (literalCount, pos) ← bits bytes 5 pos
  let (distanceCount, pos) ← bits bytes 5 pos
  let (lengthCount, pos) ← bits bytes 4 pos
  if literalCount + 257 > 286 ∨ distanceCount + 1 > 30 then throw .corrupt
  let (lengths, pos) ←
    lengthsOfLengths bytes (lengthOrder.take (lengthCount + 4)) pos (Array.replicate 19 0)
  let code := Code.ofLengths lengths
  if !code.isComplete then throw .corrupt
  let wanted := literalCount + 257 + (distanceCount + 1)
  let (lengths, pos) ← wordLengths code bytes wanted (wanted + 1) pos #[]
  let literals := Code.ofLengths (lengths.extract 0 (literalCount + 257))
  let distances := Code.ofLengths (lengths.extract (literalCount + 257) wanted)
  if !distances.isUsable || !literals.isUsable then throw .corrupt
  return (literals, distances, pos)

def blockAt (bytes : ByteArray) (kind pos : Nat) (out : ByteArray) : Progress :=
  if kind = 0 then storedBlock bytes pos out
  else if kind = 1 then
    symbolsFrom fixedLiterals fixedDistances bytes (8 * bytes.size + 1) pos out
  else if kind = 2 then
    match describedCodes bytes pos with
    | .error h => (out, .error h)
    | .ok (literals, distances, pos) =>
        symbolsFrom literals distances bytes (8 * bytes.size + 1) pos out
  else (out, .error .corrupt)

def blocksFrom (bytes : ByteArray) : Nat → Nat → ByteArray → Progress
  | 0, _, out => (out, .error .short)
  | fuel + 1, pos, out =>
    match bits bytes 3 pos with
    | .error h => (out, .error h)
    | .ok (header, pos) =>
      match blockAt bytes (header / 2) pos out with
      | (out, .error h) => (out, .error h)
      | (out, .ok pos) => if header % 2 = 1 then (out, .ok pos) else blocksFrom bytes fuel pos out

/-- What is handed out of `out` when decoding stopped there for `h`: a window in which the bytes
turn out to mean nothing is kept back. -/
def handedOut (h : Halt) (out : ByteArray) : ByteArray :=
  match h with
  | .short => out
  | .corrupt => out.extract 0 (out.size / window * window)

def inflate (bytes : ByteArray) (start : Nat) : ByteArray × Option Nat :=
  match blocksFrom bytes (8 * bytes.size + 1) (8 * start) ByteArray.empty with
  | (out, .ok pos) => (out, some ((pos + 7) / 8))
  | (out, .error h) => (handedOut h out, none)

def maxStored : Nat := 65535

def storedFrom (bytes : ByteArray) : Nat → Nat → ByteArray → ByteArray
  | 0, _, out => out
  | fuel + 1, start, out =>
    let length := min maxStored (bytes.size - start)
    let last := start + length ≥ bytes.size
    let out := out.push (if last then 1 else 0) ++ littleEndian 2 length ++
      littleEndian 2 (0xFFFF - length) ++ bytes.extract start (start + length)
    if last then out else storedFrom bytes fuel (start + length) out

def stored (bytes : ByteArray) : ByteArray :=
  storedFrom bytes (bytes.size + 1) 0 ByteArray.empty

end PluginAgent.Codec.Inflate
