import PluginAgent.Codec.TarReader

namespace PluginAgent.Codec.Tar

structure Draft where
  name : ByteArray
  content : ByteArray
  flag : Char := '0'
  declared : Nat := content.size

def nameWidth : Nat := 100

def octalField (width n : Nat) : ByteArray :=
  let digits := Nat.toDigits 8 n
  (String.ofList (List.replicate (width - 1 - digits.length) '0' ++ digits)).toUTF8.push 0

def sizeField (n : Nat) : ByteArray :=
  if n < 0o77777777777 + 1 then octalField 12 n
  else
    let low : List UInt8 := (List.range 8).map fun i => UInt8.ofNat (n >>> (8 * (7 - i)))
    ⟨([0x80, 0, 0, 0] ++ low).toArray⟩

def padTo (width : Nat) (bytes : ByteArray) : ByteArray :=
  bytes ++ zeros (width - bytes.size)

def headerBlock (name : ByteArray) (flag : Char) (size : Nat) (checksum : ByteArray) : ByteArray :=
  padTo blockSize
    (padTo nameWidth (name.extract 0 nameWidth) ++ octalField 8 0o644 ++ octalField 8 0 ++
      octalField 8 0 ++ sizeField size ++ octalField 12 0 ++ checksum ++
      ⟨#[UInt8.ofNat flag.toNat]⟩ ++ zeros 100 ++ "ustar  \x00".toUTF8)

def header (name : ByteArray) (flag : Char) (size : Nat) : ByteArray :=
  let blank := headerBlock name flag size "        ".toUTF8
  headerBlock name flag size
    (octalField 7 (blank.foldl (fun n b => n + b.toNat) 0) ++ " ".toUTF8)

def padded (content : ByteArray) : ByteArray :=
  content ++ zeros (roundUp content.size - content.size)

def longNameMember (name : ByteArray) : ByteArray :=
  header "././@LongLink".toUTF8 'L' (name.size + 1) ++ padded (name.push 0)

def Draft.write (d : Draft) (out : ByteArray) : ByteArray :=
  let out := if d.name.size > nameWidth then out ++ longNameMember d.name else out
  out ++ header d.name d.flag d.declared ++ padded d.content

def write (drafts : List Draft) : ByteArray :=
  drafts.foldl (fun out d => d.write out) ByteArray.empty ++ zeros (2 * blockSize)

def file (drafts : List Draft) : ByteArray :=
  Gzip.encode (write drafts)

end PluginAgent.Codec.Tar
