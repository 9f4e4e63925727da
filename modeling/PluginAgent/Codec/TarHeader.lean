import PluginAgent.Codec.Bytes
import PluginAgent.Text.Blank
import PluginAgent.Text.Utf8

namespace PluginAgent.Codec.Tar

def blockSize : Nat := 512

def wordBound : Nat := 0x10000000000000000

inductive Fault where
  | damaged
  | cutShort
  | badNumber
  | badChecksum
  | tooLarge
  | doubleName
  | danglingName
  | badSparseMap
  deriving DecidableEq, Repr

def Fault.message : Fault → String
  | damaged => "corrupt compressed data"
  | cutShort => "unexpected end of archive"
  | badNumber => "numeric field is not a number"
  | badChecksum => "header checksum mismatch"
  | tooLarge => "size overflow"
  | doubleName => "two entries describe the same member"
  | danglingName => "an entry describes a member that does not follow"
  | badSparseMap => "invalid map of a sparse member"

def untilZero (field : List UInt8) : List UInt8 :=
  field.takeWhile (· != 0)

def octalDigits? : List Char → Option Nat
  | [] => none
  | digits => digits.foldl (fun n c =>
      match n with
      | some n => if '0' ≤ c && c ≤ '7' then some (n * 8 + (c.toNat - 48)) else none
      | none => none) (some 0)

def octal? (field : List UInt8) : Option Nat :=
  match Utf8.decode ⟨(untilZero field).toArray⟩ with
  | .error _ => none
  | .ok text =>
    let digits := match Text.trim text with
      | '+' :: r => r
      | r => r
    match octalDigits? digits with
    | some n => if n < wordBound then some n else none
    | none => none

def bigEndian (field : List UInt8) : Nat :=
  field.foldl (fun n b => n * 256 + b.toNat) 0

def number? (field : List UInt8) : Option Nat :=
  match field with
  | [] => none
  | b :: _ => if b ≥ 128 then some (bigEndian (field.drop (field.length - 8))) else octal? field

structure Header where
  block : ByteArray

namespace Header

def field (h : Header) (start width : Nat) : List UInt8 :=
  sliceList h.block start width

def size? (h : Header) : Option Nat :=
  number? (h.field 124 12)

@[irreducible] def flag (h : Header) : Char :=
  Char.ofNat (h.block.get! 156).toNat

def isUstar (h : Header) : Bool :=
  h.field 257 8 == "ustar\x0000".toUTF8.data.toList

def isGnu (h : Header) : Bool :=
  h.field 257 8 == "ustar  \x00".toUTF8.data.toList

/-- The sum of all bytes, those of the checksum counted as blanks. -/
def sum (h : Header) : Nat :=
  ((h.block.extract 0 148).foldl (fun n b => n + b.toNat) 0) + 8 * 32 +
    ((h.block.extract 156 blockSize).foldl (fun n b => n + b.toNat) 0)

def checksum? (h : Header) : Option Nat :=
  octal? (h.field 148 8)

def isBlank (h : Header) : Bool :=
  allZero h.block 0 blockSize

def name (h : Header) : List UInt8 :=
  untilZero (h.field 0 100)

def path (h : Header) : List UInt8 :=
  let directory := untilZero (h.field 345 155)
  if h.isUstar && !directory.isEmpty then directory ++ 47 :: h.name else h.name

end Header

end PluginAgent.Codec.Tar
