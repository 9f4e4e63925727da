namespace PluginAgent.Codec

def littleEndian (width n : Nat) : ByteArray :=
  ⟨(List.range width).toArray.map fun i => UInt8.ofNat (n >>> (8 * i))⟩

def readLittleEndian? (bytes : ByteArray) (start width : Nat) : Option Nat :=
  if start + width ≤ bytes.size then
    some ((List.range width).foldr (fun i n => n * 256 + (bytes.get! (start + i)).toNat) 0)
  else none

def zeros (n : Nat) : ByteArray :=
  ⟨Array.replicate n 0⟩

def allZero (bytes : ByteArray) (start : Nat) : Nat → Bool
  | 0 => true
  | width + 1 => (bytes.get! (start + width) == 0) && allZero bytes start width

@[irreducible] def sliceList (bytes : ByteArray) (start width : Nat) : List UInt8 :=
  (bytes.extract start (start + width)).data.toList

end PluginAgent.Codec

namespace PluginAgent.Codec.Crc32

def shiftOnce (r : UInt32) : UInt32 :=
  if r &&& 1 == 1 then (r >>> 1) ^^^ 0xEDB88320 else r >>> 1

def table : Array UInt32 :=
  #[0x00000000, 0x1DB71064, 0x3B6E20C8, 0x26D930AC, 0x76DC4190, 0x6B6B51F4, 0x4DB26158, 0x5005713C,
    0xEDB88320, 0xF00F9344, 0xD6D6A3E8, 0xCB61B38C, 0x9B64C2B0, 0x86D3D2D4, 0xA00AE278, 0xBDBDF21C]

theorem table_eq : table.toList =
    (List.range 16).map fun n =>
      shiftOnce (shiftOnce (shiftOnce (shiftOnce (UInt32.ofNat n)))) := by decide

def shiftFour (r : UInt32) : UInt32 :=
  table.getD (r &&& 15).toNat 0 ^^^ (r >>> 4)

def update (r : UInt32) (byte : UInt8) : UInt32 :=
  shiftFour (shiftFour (r ^^^ byte.toUInt32))

def checksum (bytes : ByteArray) : UInt32 :=
  (bytes.foldl update 0xFFFFFFFF) ^^^ 0xFFFFFFFF

end PluginAgent.Codec.Crc32
