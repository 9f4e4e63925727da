import PluginAgent.Codec.Inflate

namespace PluginAgent.Codec.Gzip

/-- The bytes handed out of a compressed file, and whether reading on after them finds their end or
an error. -/
structure Stream where
  bytes : ByteArray
  damaged : Bool

def afterZero? (file : ByteArray) : Nat → Nat → Option Nat
  | 0, _ => none
  | fuel + 1, i =>
    if h : i < file.size then
      if file[i] = 0 then some (i + 1) else afterZero? file fuel (i + 1)
    else none

def skipExtra? (file : ByteArray) (flags start : Nat) : Option Nat :=
  if flags.testBit 2 then
    match readLittleEndian? file start 2 with
    | some n => if start + 2 + n ≤ file.size then some (start + 2 + n) else none
    | none => none
  else some start

def skipText? (file : ByteArray) (present : Bool) (start : Nat) : Option Nat :=
  if present then afterZero? file (file.size + 1) start else some start

def skipCheck? (file : ByteArray) (flags start : Nat) : Option Nat :=
  if flags.testBit 1 then
    match readLittleEndian? file start 2 with
    | some n =>
        if n = (Crc32.checksum (file.extract 0 start)).toNat % 65536 then some (start + 2) else none
    | none => none
  else some start

def afterHeader? (file : ByteArray) : Option Nat := do
  let magic ← readLittleEndian? file 0 3
  let flags ← readLittleEndian? file 3 1
  if magic ≠ 0x088B1F ∨ flags ≥ 32 ∨ file.size < 10 then none
  else
    let i ← skipExtra? file flags 10
    let i ← skipText? file (flags.testBit 3) i
    let i ← skipText? file (flags.testBit 4) i
    skipCheck? file flags i

def trailerFits (file : ByteArray) (start : Nat) (bytes : ByteArray) : Bool :=
  readLittleEndian? file start 4 == some (Crc32.checksum bytes).toNat &&
    readLittleEndian? file (start + 4) 4 == some (bytes.size % 0x100000000)

def decode (file : ByteArray) : Stream :=
  match afterHeader? file with
  | none => ⟨ByteArray.empty, true⟩
  | some start => match Inflate.inflate file start with
    | (bytes, none) => ⟨bytes, true⟩
    -- what follows the trailer is ignored
    | (bytes, some after) => ⟨bytes, !trailerFits file after bytes⟩

def header : ByteArray :=
  ⟨#[0x1F, 0x8B, 8, 0, 0, 0, 0, 0, 0, 0xFF]⟩

def encode (bytes : ByteArray) : ByteArray :=
  header ++ Inflate.stored bytes ++ littleEndian 4 (Crc32.checksum bytes).toNat ++
    littleEndian 4 bytes.size

end PluginAgent.Codec.Gzip
