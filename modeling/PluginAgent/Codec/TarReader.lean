import PluginAgent.Codec.Gzip
import PluginAgent.Codec.TarHeader
import PluginAgent.Text.Split

/-!
The members of a tar sequence. `members` lists them up to the end mark, or up to the fault that
breaks the sequence off. Headers that only describe the next member are no members of their own.
-/

namespace PluginAgent.Codec.Tar

/-- A member: whether it is a regular file, the size and the path that its header states, and what
the sequence holds of its content. Fewer bytes than stated are there if the sequence ends early;
`damaged` tells that reading them all meets an error. -/
structure Member where
  regular : Bool
  declared : Nat
  path : List UInt8
  content : ByteArray
  damaged : Bool

structure Listing where
  members : List Member
  fault : Option Fault := none

def roundUp (size : Nat) : Nat :=
  (size + (blockSize - 1)) / blockSize * blockSize

def record? (line : List UInt8) : Option (List UInt8 × List UInt8) :=
  match line.span (· != 32) with
  | (length, _ :: pair) =>
    let digits := match length.map fun b => Char.ofNat b.toNat with
      | '+' :: r => r
      | r => r
    if digits.isEmpty || !digits.all Char.isDigit then none
    else if (String.ofList digits).toNat? != some (line.length + 1) then none
    else match pair.span (· != 61) with
      | (key, _ :: value) => some (key, value)
      | (_, []) => none
  | (_, []) => none

def recordLines (extended : List UInt8) : List (List UInt8) :=
  (Text.splitOn 10 extended).takeWhile (!·.isEmpty)

def recordValue? (key : String) (extended : List UInt8) : Option (List UInt8) :=
  ((recordLines extended).filterMap record?).lookup key.toUTF8.data.toList

def decimal? (digits : List UInt8) : Option Nat :=
  let digits := match digits.map fun b => Char.ofNat b.toNat with
    | '+' :: r => r
    | r => r
  if digits.isEmpty || !digits.all Char.isDigit then none
  else match (String.ofList digits).toNat? with
    | some n => if n < wordBound then some n else none
    | none => none

/-- The size that an extended header states. All records before it must be well formed. -/
def recordSize? (extended : List UInt8) : Option Nat :=
  match (recordLines extended).find? fun line =>
      match record? line with
      | some (key, _) => key == "size".toUTF8.data.toList
      | none => true with
  | some line => (record? line).bind fun r => decimal? r.2
  | none => none

structure Located where
  header : Header
  start : Nat
  size : Nat

def headerAt (s : Gzip.Stream) (extended : Option (List UInt8)) (pos : Nat) :
    Except Fault (Option Located) :=
  if pos > s.bytes.size then .error (if s.damaged then .damaged else .cutShort)
  else if pos = s.bytes.size then if s.damaged then .error .damaged else .ok none
  else if pos + blockSize > s.bytes.size then .error (if s.damaged then .damaged else .cutShort)
  else
    let header : Header := ⟨s.bytes.extract pos (pos + blockSize)⟩
    if header.isBlank then .ok none
    else match header.checksum? with
      | none => .error .badNumber
      | some sum =>
        if sum ≠ header.sum then .error .badChecksum
        else match header.size? with
          | none => .error .badNumber
          | some size =>
            let size := if size = 0 then (extended.bind recordSize?).getD 0 else size
            if pos + blockSize + roundUp size ≥ wordBound then .error .tooLarge
            else .ok (some ⟨header, pos + blockSize, size⟩)

def contentOf (s : Gzip.Stream) (l : Located) : ByteArray :=
  s.bytes.extract l.start (l.start + l.size)

def contentDamaged (s : Gzip.Stream) (l : Located) : Bool :=
  s.damaged && decide (l.start + l.size > s.bytes.size)

structure SparseState where
  used : Nat
  reached : Nat
  left : Nat

def sparsePiece (state : SparseState) (piece : List UInt8) : Except Fault SparseState :=
  match piece[0]?, piece[12]? with
  | some a, some b =>
    if a = 0 ∨ b = 0 then .ok state
    else match octal? (piece.take 12), octal? (piece.drop 12) with
      | some offset, some length =>
        if length ≠ 0 ∧ state.used % blockSize ≠ 0 then .error .badSparseMap
        else if offset < state.reached ∨ length > state.left ∨ offset + length ≥ wordBound then
          .error .badSparseMap
        else .ok ⟨state.used + length, offset + length, state.left - length⟩
      | _, _ => .error .badNumber
  | _, _ => .ok state

def sparsePieces (block : ByteArray) (start count : Nat) : List (List UInt8) :=
  (List.range count).map fun i => sliceList block (start + 24 * i) 24

def sparseBlocks (s : Gzip.Stream) :
    Nat → Nat → Nat → SparseState → Except Fault (Nat × SparseState)
  | 0, _, _, _ => .error .cutShort
  | fuel + 1, pos, count, state =>
    if pos + blockSize > s.bytes.size then .error (if s.damaged then .damaged else .cutShort)
    else
      let block := s.bytes.extract pos (pos + blockSize)
      match (sparsePieces block 0 21).foldlM sparsePiece state with
      | .error f => .error f
      | .ok state =>
        if block.get! 504 = 1 then sparseBlocks s fuel (pos + blockSize) (count + 1) state
        else .ok (count + 1, state)

def sparseMap (s : Gzip.Stream) (l : Located) : Except Fault Nat :=
  if !l.header.isGnu then .error .badSparseMap
  else do
    let state ← (sparsePieces l.header.block 386 4).foldlM sparsePiece ⟨0, 0, l.size⟩
    let (count, state) ←
      if l.header.block.get! 482 = 1 then
        sparseBlocks s (s.bytes.size / blockSize + 1) l.start 0 state
      else .ok (0, state)
    match octal? (l.header.field 483 12) with
    | none => .error .badNumber
    | some size =>
      if state.reached ≠ size ∨ state.left ≠ 0 then .error .badSparseMap else .ok count

structure Described where
  longName : Option (List UInt8) := none
  longLink : Option (List UInt8) := none
  extended : Option (List UInt8) := none

def Described.isEmpty (d : Described) : Bool :=
  d.longName.isNone && d.longLink.isNone && d.extended.isNone

def withoutLastZero (name : List UInt8) : List UInt8 :=
  if name.getLast? = some 0 then name.dropLast else name

def Described.path (d : Described) (header : Header) : List UInt8 :=
  match d.longName with
  | some name => withoutLastZero name
  | none => (d.extended.bind (recordValue? "path")).getD header.path

def describe (s : Gzip.Stream) (l : Located) (d : Described) : Except Fault (Option Described) :=
  let note (old : Option (List UInt8)) (put : List UInt8 → Described) :=
    if old.isSome then .error .doubleName
    else if contentDamaged s l then .error .damaged
    else .ok (some (put (contentOf s l).data.toList))
  if !(l.header.isUstar || l.header.isGnu) then .ok none
  else if l.header.flag = 'L' then note d.longName fun n => { d with longName := some n }
  else if l.header.flag = 'K' then note d.longLink fun n => { d with longLink := some n }
  else if l.header.flag = 'x' then note d.extended fun n => { d with extended := some n }
  else .ok none

def Located.after (l : Located) : Nat :=
  l.start + roundUp l.size

def memberAt (s : Gzip.Stream) (d : Described) (l : Located) : Member where
  regular := l.header.flag = '0' ∨ l.header.flag = Char.ofNat 0
  declared := (l.header.size?).getD 0
  path := d.path l.header
  content := contentOf s l
  damaged := contentDamaged s l

def nextMember (s : Gzip.Stream) : Nat → Described → Nat → Except Fault (Option (Member × Nat))
  | 0, _, _ => .error .cutShort
  | fuel + 1, d, pos =>
    match headerAt s d.extended pos with
    | .error f => .error f
    | .ok none => if d.isEmpty then .ok none else .error .danglingName
    | .ok (some l) =>
      match describe s l d with
      | .error f => .error f
      | .ok (some d) => nextMember s fuel d l.after
      | .ok none =>
        if l.header.flag = 'S' then
          match sparseMap s l with
          | .error f => .error f
          | .ok count => .ok (some (memberAt s d l, l.after + count * blockSize))
        else .ok (some (memberAt s d l, l.after))

def membersFrom (s : Gzip.Stream) : Nat → Nat → List Member → Listing
  | 0, _, done => ⟨done.reverse, some .cutShort⟩
  | fuel + 1, pos, done =>
    match nextMember s (s.bytes.size / blockSize + 2) {} pos with
    | .error f => ⟨done.reverse, some f⟩
    | .ok none => ⟨done.reverse, none⟩
    | .ok (some (m, after)) => membersFrom s fuel after (m :: done)

def members (s : Gzip.Stream) : Listing :=
  membersFrom s (s.bytes.size / blockSize + 2) 0 []

def listing (file : ByteArray) : Listing :=
  members (Gzip.decode file)

end PluginAgent.Codec.Tar
