import PluginAgent.Codec.Gzip
import PluginAgent.Proofs.ByteViews

namespace PluginAgent.Codec

namespace Inflate

def blockLength (bytes : ByteArray) (start : Nat) : Nat :=
  min maxStored (bytes.size - start)

def isLast (bytes : ByteArray) (start : Nat) : Prop :=
  start + blockLength bytes start ≥ bytes.size

instance (bytes : ByteArray) (start : Nat) : Decidable (isLast bytes start) :=
  inferInstanceAs (Decidable (start + blockLength bytes start ≥ bytes.size))

def blockBytes (bytes : ByteArray) (start : Nat) : List UInt8 :=
  (if isLast bytes start then 1 else 0) ::
    ((littleEndian 2 (blockLength bytes start)).data.toList ++
      (littleEndian 2 (0xFFFF - blockLength bytes start)).data.toList ++
      (bytes.extract start (start + blockLength bytes start)).data.toList)

def storedBytes (bytes : ByteArray) : Nat → Nat → List UInt8
  | 0, _ => []
  | fuel + 1, start =>
    if isLast bytes start then blockBytes bytes start
    else blockBytes bytes start ++ storedBytes bytes fuel (start + blockLength bytes start)

variable {file bytes : ByteArray}

theorem storedFrom_succ (bytes : ByteArray) (fuel start : Nat) (out : ByteArray) :
    storedFrom bytes (fuel + 1) start out =
      if isLast bytes start then out ++ ⟨(blockBytes bytes start).toArray⟩
      else storedFrom bytes fuel (start + blockLength bytes start)
        (out ++ ⟨(blockBytes bytes start).toArray⟩) := by
  have hblock : out ++ ⟨(blockBytes bytes start).toArray⟩ =
      out.push (if isLast bytes start then 1 else 0) ++ littleEndian 2 (blockLength bytes start) ++
        littleEndian 2 (0xFFFF - blockLength bytes start) ++
        bytes.extract start (start + blockLength bytes start) := by
    apply ext_toList
    simp [blockBytes, ByteArray.data_push]
  rw [hblock]
  rfl

theorem toList_storedFrom (bytes : ByteArray) (fuel start : Nat) (out : ByteArray) :
    (storedFrom bytes fuel start out).data.toList =
      out.data.toList ++ storedBytes bytes fuel start := by
  induction fuel generalizing start out with
  | zero => simp [storedFrom, storedBytes]
  | succ fuel ih =>
    rw [storedFrom_succ, storedBytes]
    split
    · simp
    · rw [ih]
      simp

theorem length_blockBytes (bytes : ByteArray) {start : Nat} (hstart : start ≤ bytes.size) :
    (blockBytes bytes start).length = 5 + blockLength bytes start := by
  have hle : blockLength bytes start ≤ bytes.size - start := Nat.min_le_right _ _
  simp only [blockBytes, List.length_cons, List.length_append, length_toList, size_littleEndian,
    ByteArray.size_extract]
  omega

theorem storedBlock_of_holds {pos : Nat} {out part : ByteArray} (hsize : part.size ≤ maxStored)
    (hlength : Holds file (pos + 1) (littleEndian 2 part.size).data.toList)
    (hcomplement : Holds file (pos + 3) (littleEndian 2 (0xFFFF - part.size)).data.toList)
    (hpart : Holds file (pos + 5) part.data.toList) :
    storedBlock file (8 * pos + 3) out = (out ++ part, .ok (8 * (pos + 5 + part.size))) := by
  have hstart : (8 * pos + 3 + 7) / 8 = pos + 1 := by omega
  have hbound : part.size < 256 ^ 2 := Nat.lt_of_le_of_lt hsize (by decide)
  have hend : pos + 5 + part.size ≤ file.size := by
    have hbefore := hcomplement.size_le (by simp)
    rw [size_littleEndian] at hbefore
    rcases Nat.eq_zero_or_pos part.size with hempty | hpos
    · omega
    · exact hpart.size_le hpos
  rw [storedBlock]
  simp only [hstart, readLittleEndian?_of_holds (by decide) hlength,
    readLittleEndian?_of_holds (i := pos + 1 + 2) (by decide) hcomplement]
  rw [Nat.mod_eq_of_lt hbound, Nat.mod_eq_of_lt (by omega), if_neg (by unfold maxStored at hsize; omega)]
  rw [show pos + 1 + 4 = pos + 5 by omega, hpart.extract, if_pos hend]

theorem blockLength_le (bytes : ByteArray) (start : Nat) : blockLength bytes start ≤ maxStored :=
  Nat.min_le_left _ _

theorem blockLength_of_not_isLast {start : Nat} (h : ¬ isLast bytes start) :
    0 < blockLength bytes start ∧ start + blockLength bytes start ≤ bytes.size := by
  unfold isLast blockLength maxStored at h
  unfold blockLength maxStored
  omega

theorem blocksFrom_block {start pos : Nat} (hstart : start ≤ bytes.size)
    (hblock : Holds file pos (blockBytes bytes start)) (limit : Nat) :
    blocksFrom file (limit + 1) (8 * pos) (bytes.extract 0 start) =
      if isLast bytes start then (bytes, .ok (8 * (pos + (blockBytes bytes start).length)))
      else blocksFrom file limit (8 * (pos + (blockBytes bytes start).length))
        (bytes.extract 0 (start + blockLength bytes start)) := by
  have hle : blockLength bytes start ≤ bytes.size - start := Nat.min_le_right _ _
  have hpart : (bytes.extract start (start + blockLength bytes start)).size =
      blockLength bytes start := by
    rw [ByteArray.size_extract]
    omega
  obtain ⟨hflag, hrest⟩ := holds_cons.mp hblock
  obtain ⟨hlengths, hcontent⟩ := holds_append.mp hrest
  obtain ⟨hlength, hcomplement⟩ := holds_append.mp hlengths
  simp only [List.length_append, length_toList, size_littleEndian] at hcomplement hcontent
  have hread : storedBlock file (8 * pos + 3) (bytes.extract 0 start) =
      (bytes.extract 0 (start + blockLength bytes start),
        .ok (8 * (pos + (5 + blockLength bytes start)))) := by
    rw [storedBlock_of_holds (by rw [hpart]; exact blockLength_le bytes start)
      (by rw [hpart]; exact hlength) (by rw [hpart]; exact hcomplement) hcontent, hpart,
      ByteArray.extract_append_extract, Nat.zero_min, Nat.max_eq_right (Nat.le_add_right _ _),
      Nat.add_assoc]
  rw [length_blockBytes bytes hstart, blocksFrom, bits_of_holds hflag]
  by_cases hlast : isLast bytes start
  · have hall : bytes.extract 0 (start + blockLength bytes start) = bytes := by
      rw [show start + blockLength bytes start = bytes.size from Nat.le_antisymm (by omega) hlast]
      exact ByteArray.extract_zero_size
    rw [hall] at hread
    simp [blockAt, hread, hlast]
  · simp [blockAt, hread, hlast]

theorem blocksFrom_of_holds (fuel : Nat) : ∀ {start pos limit : Nat}, start ≤ bytes.size →
    bytes.size < start + fuel → fuel ≤ limit → Holds file pos (storedBytes bytes fuel start) →
    blocksFrom file limit (8 * pos) (bytes.extract 0 start) =
      (bytes, .ok (8 * (pos + (storedBytes bytes fuel start).length))) := by
  induction fuel with
  | zero => intro start pos limit hstart hfuel; omega
  | succ fuel ih =>
    intro start pos limit hstart hfuel hlimit hholds
    obtain ⟨limit, rfl⟩ : ∃ n, limit = n + 1 := ⟨limit - 1, by omega⟩
    rw [storedBytes] at hholds ⊢
    by_cases hlast : isLast bytes start
    · rw [if_pos hlast] at hholds ⊢
      rw [blocksFrom_block hstart hholds, if_pos hlast]
    · rw [if_neg hlast] at hholds ⊢
      obtain ⟨hblock, hrest⟩ := holds_append.mp hholds
      have hnext := blockLength_of_not_isLast hlast
      rw [blocksFrom_block hstart hblock, if_neg hlast,
        ih hnext.2 (by omega) (by omega) hrest, List.length_append, Nat.add_assoc]

theorem size_le_length_storedBytes (bytes : ByteArray) (fuel : Nat) : ∀ {start : Nat}, start ≤ bytes.size →
    bytes.size < start + fuel → bytes.size ≤ start + (storedBytes bytes fuel start).length := by
  induction fuel with
  | zero => intro start hstart hfuel; omega
  | succ fuel ih =>
    intro start hstart hfuel
    have hlength := length_blockBytes bytes hstart
    rw [storedBytes]
    by_cases hlast : isLast bytes start
    · rw [if_pos hlast]
      unfold isLast at hlast
      omega
    · have hnext := blockLength_of_not_isLast hlast
      have hrest := ih hnext.2 (by omega)
      rw [if_neg hlast, List.length_append]
      omega

theorem inflate_of_holds {start : Nat} (h : Holds file start (stored bytes).data.toList) :
    inflate file start = (bytes, some (start + (stored bytes).size)) := by
  have hstored : (stored bytes).data.toList = storedBytes bytes (bytes.size + 1) 0 := by
    rw [stored, toList_storedFrom]
    rfl
  have hlength : (stored bytes).size = (storedBytes bytes (bytes.size + 1) 0).length := by
    rw [← hstored, length_toList]
  have hpos : 0 < (stored bytes).size := by
    rw [hlength, storedBytes]
    split <;> simp [blockBytes]
  have hsize := size_le_length_storedBytes bytes (bytes.size + 1) (Nat.zero_le _) (by omega)
  have hend := h.size_le hpos
  have hblocks : blocksFrom file (8 * file.size + 1) (8 * start) (bytes.extract 0 0) =
      (bytes, .ok (8 * (start + (storedBytes bytes (bytes.size + 1) 0).length))) :=
    blocksFrom_of_holds (bytes.size + 1) (Nat.zero_le _) (by omega) (by omega) (hstored ▸ h)
  rw [ByteArray.extract_same] at hblocks
  simp only [inflate, hblocks, hlength]
  congr 2
  omega

end Inflate

namespace Gzip

theorem toList_header : header.data.toList =
    (littleEndian 3 0x088B1F).data.toList ++ ((littleEndian 1 0).data.toList ++
      [0, 0, 0, 0, 0, 0xFF]) := by
  decide +kernel

theorem afterHeader?_of_holds {file : ByteArray} (h : Holds file 0 header.data.toList) :
    afterHeader? file = some 10 := by
  have hsize : 0 + 10 ≤ file.size := h.size_le (by decide)
  rw [toList_header] at h
  obtain ⟨hmagic, hrest⟩ := holds_append.mp h
  obtain ⟨hflags, -⟩ := holds_append.mp hrest
  rw [length_toList, size_littleEndian] at hflags
  have hmagicRead : readLittleEndian? file 0 3 = some 0x088B1F :=
    readLittleEndian?_of_holds (by decide) hmagic
  have hflagsRead : readLittleEndian? file 3 1 = some 0 :=
    readLittleEndian?_of_holds (by decide) hflags
  have hlong : ¬ file.size < 10 := by omega
  simp [afterHeader?, hmagicRead, hflagsRead, hlong, skipExtra?, skipText?, skipCheck?]

theorem decode_of_holds {file bytes : ByteArray} (hheader : Holds file 0 header.data.toList)
    (hstored : Holds file 10 (Inflate.stored bytes).data.toList)
    (hcheck : Holds file (10 + (Inflate.stored bytes).size)
      (littleEndian 4 (Crc32.checksum bytes).toNat).data.toList)
    (hcount : Holds file (10 + (Inflate.stored bytes).size + 4)
      (littleEndian 4 bytes.size).data.toList) : decode file = ⟨bytes, false⟩ := by
  have hcheckRead := readLittleEndian?_of_holds (by decide) hcheck
  have hcountRead := readLittleEndian?_of_holds (by decide) hcount
  have hword : (Crc32.checksum bytes).toNat < 256 ^ 4 := (Crc32.checksum bytes).toNat_lt
  rw [Nat.mod_eq_of_lt hword] at hcheckRead
  have hfits : trailerFits file (10 + (Inflate.stored bytes).size) bytes = true := by
    rw [trailerFits, Bool.and_eq_true, beq_iff_eq, beq_iff_eq]
    exact ⟨hcheckRead, hcountRead⟩
  rw [decode, afterHeader?_of_holds hheader]
  simp only [Inflate.inflate_of_holds hstored, hfits]
  rfl

theorem decode_encode (bytes : ByteArray) : decode (encode bytes) = ⟨bytes, false⟩ := by
  have hfile := holds_self (encode bytes)
  have hlist : (encode bytes).data.toList = header.data.toList ++
      (Inflate.stored bytes).data.toList ++ (littleEndian 4 (Crc32.checksum bytes).toNat).data.toList ++
        (littleEndian 4 bytes.size).data.toList := by
    simp only [encode, ByteArray.toList_data_append]
  rw [hlist] at hfile
  obtain ⟨hrest, hcount⟩ := holds_append.mp hfile
  obtain ⟨hrest, hcheck⟩ := holds_append.mp hrest
  obtain ⟨hheader, hstored⟩ := holds_append.mp hrest
  have hten : header.size = 10 := rfl
  simp only [List.length_append, length_toList, size_littleEndian, Nat.zero_add, hten]
    at hcount hcheck hstored
  exact decode_of_holds hheader hstored hcheck hcount

end Gzip

end PluginAgent.Codec
