import PluginAgent.Proofs.TarFields

namespace PluginAgent.Codec.Tar

def byteSum (bytes : ByteArray) : Nat :=
  bytes.foldl (fun n b => n + b.toNat) 0

theorem foldl_byteSum (l : List UInt8) (n : Nat) :
    l.foldl (fun n b => n + b.toNat) n = n + l.foldl (fun n b => n + b.toNat) 0 := by
  induction l generalizing n with
  | nil => rfl
  | cons b rest ih =>
    rw [List.foldl_cons, List.foldl_cons, ih, ih (0 + b.toNat)]
    omega

theorem byteSum_append (a b : ByteArray) : byteSum (a ++ b) = byteSum a + byteSum b := by
  simp only [byteSum, foldl_toList, ByteArray.toList_data_append, List.foldl_append]
  exact foldl_byteSum _ _

theorem byteSum_le (bytes : ByteArray) : byteSum bytes ≤ 255 * bytes.size := by
  rw [byteSum, foldl_toList, ← length_toList]
  generalize bytes.data.toList = l
  induction l with
  | nil => exact Nat.le_refl 0
  | cons b rest ih =>
    have hb : b.toNat < 256 := b.toNat_lt
    rw [List.foldl_cons, foldl_byteSum, List.length_cons]
    omega

variable (name : ByteArray) (flag : Char) (size : Nat)

def nameField : ByteArray :=
  padTo nameWidth (name.extract 0 nameWidth)

def headerFront : ByteArray :=
  nameField name ++ octalField 8 0o644 ++ octalField 8 0 ++ octalField 8 0 ++ sizeField size ++
    octalField 12 0

def mark : ByteArray :=
  "ustar  \x00".toUTF8

def flagField : ByteArray :=
  ⟨#[UInt8.ofNat flag.toNat]⟩

def headerBack : ByteArray :=
  flagField flag ++ zeros 100 ++ mark ++ zeros 247

theorem size_nameField : (nameField name).size = 100 := by
  simp only [nameField, padTo, nameWidth, ByteArray.size_append, ByteArray.size_extract, size_zeros]
  omega

theorem size_headerFront : (headerFront name size).size = 148 := by
  simp only [headerFront, ByteArray.size_append, size_nameField, size_sizeField]
  rw [size_octalField (by decide) (by decide), size_octalField (by decide) (by decide),
    size_octalField (by decide) (by decide)]

theorem size_mark : mark.size = 8 := by
  decide +kernel

theorem size_flagField : (flagField flag).size = 1 :=
  rfl

theorem size_headerBack : (headerBack flag).size = 356 := by
  simp only [headerBack, ByteArray.size_append, size_flagField, size_zeros, size_mark]

theorem headerBlock_eq {checksum : ByteArray} (h : checksum.size = 8) :
    headerBlock name flag size checksum =
      headerFront name size ++ checksum ++ headerBack flag := by
  have hsize : (headerFront name size ++ checksum ++ flagField flag ++ zeros 100 ++ mark).size =
      265 := by
    simp only [ByteArray.size_append, size_headerFront, h, size_flagField, size_zeros, size_mark]
  rw [headerBlock]
  change padTo blockSize (headerFront name size ++ checksum ++ flagField flag ++ zeros 100 ++ mark) =
    _
  rw [padTo, hsize]
  simp only [headerBack, ByteArray.append_assoc]
  rfl

def headerSum : Nat :=
  byteSum (headerFront name size) + 8 * 32 + byteSum (headerBack flag)

theorem headerSum_lt : headerSum name flag size < 8 ^ 6 := by
  have hfront := byteSum_le (headerFront name size)
  have hback := byteSum_le (headerBack flag)
  rw [size_headerFront] at hfront
  rw [size_headerBack] at hback
  unfold headerSum
  omega

def checksumField : ByteArray :=
  octalField 7 (headerSum name flag size) ++ " ".toUTF8

theorem size_checksumField : (checksumField name flag size).size = 8 := by
  rw [checksumField, ByteArray.size_append,
    size_octalField (by decide) (headerSum_lt name flag size)]
  rfl

theorem header_eq : header name flag size =
    headerFront name size ++ checksumField name flag size ++ headerBack flag := by
  have hblank : ("        ".toUTF8).size = 8 := by decide +kernel
  have hsum : byteSum "        ".toUTF8 = 8 * 32 := by decide +kernel
  have hfold : (headerBlock name flag size "        ".toUTF8).foldl (fun n b => n + b.toNat) 0 =
      headerSum name flag size := by
    rw [headerBlock_eq name flag size hblank]
    change byteSum _ = _
    rw [byteSum_append, byteSum_append, hsum, headerSum]
  rw [header, hfold]
  exact headerBlock_eq name flag size (size_checksumField name flag size)

theorem size_header : (header name flag size).size = blockSize := by
  rw [header_eq, ByteArray.size_append, ByteArray.size_append, size_headerFront,
    size_checksumField, size_headerBack]
  rfl

variable {name flag size} {file block : ByteArray} {start : Nat}

theorem holds_headerFront (h : Holds file start (headerFront name size).data.toList) :
    Holds file start (nameField name).data.toList ∧
      Holds file (start + 124) (sizeField size).data.toList := by
  have hoctal {n : Nat} (hn : n < 8 ^ 7) : (octalField 8 n).size = 8 :=
    size_octalField (by decide) hn
  simp only [headerFront, ByteArray.toList_data_append] at h
  obtain ⟨h, -⟩ := holds_append.mp h
  obtain ⟨h, hsize⟩ := holds_append.mp h
  obtain ⟨h, -⟩ := holds_append.mp h
  obtain ⟨h, -⟩ := holds_append.mp h
  obtain ⟨hname, -⟩ := holds_append.mp h
  simp only [List.length_append, length_toList] at hsize
  rw [size_nameField, hoctal (by decide), hoctal (by decide)] at hsize
  exact ⟨hname, hsize⟩

theorem holds_headerBack (h : Holds file start (headerBack flag).data.toList) :
    Holds file start (flagField flag).data.toList ∧
      Holds file (start + 101) mark.data.toList := by
  simp only [headerBack, ByteArray.toList_data_append] at h
  obtain ⟨h, -⟩ := holds_append.mp h
  obtain ⟨h, hmark⟩ := holds_append.mp h
  obtain ⟨hflag, -⟩ := holds_append.mp h
  rw [List.length_append, length_toList, length_toList, size_flagField, size_zeros] at hmark
  exact ⟨hflag, hmark⟩

structure IsHeader (n : ByteArray) (c : Char) (k : Nat) (block : ByteArray) : Prop where
  front : Holds block 0 (headerFront n k).data.toList
  checksum : Holds block 148 (checksumField n c k).data.toList
  back : Holds block 156 (headerBack c).data.toList

theorem isHeader_header : IsHeader name flag size (header name flag size) := by
  have hblock := holds_self (header name flag size)
  have hlist : (header name flag size).data.toList =
      (headerFront name size).data.toList ++ (checksumField name flag size).data.toList ++
        (headerBack flag).data.toList := by
    rw [header_eq, ByteArray.toList_data_append, ByteArray.toList_data_append]
  rw [hlist] at hblock
  obtain ⟨hrest, hback⟩ := holds_append.mp hblock
  obtain ⟨hfront, hchecksum⟩ := holds_append.mp hrest
  rw [length_toList, size_headerFront] at hchecksum
  rw [List.length_append, length_toList, length_toList, size_headerFront, size_checksumField]
    at hback
  exact ⟨hfront, hchecksum, hback⟩

theorem field_of_holds {block part : ByteArray} {start : Nat}
    (h : Holds block start part.data.toList) :
    (⟨block⟩ : Header).field start part.size = part.data.toList := by
  rw [Header.field, ← length_toList, h.sliceList]

namespace IsHeader

variable (h : IsHeader name flag size block)

include h

theorem isGnu : (⟨block⟩ : Header).isGnu = true := by
  have hfield := field_of_holds (holds_headerBack h.back).2
  rw [size_mark] at hfield
  rw [Header.isGnu, hfield]
  exact beq_self_eq_true _

theorem isUstar : (⟨block⟩ : Header).isUstar = false := by
  have hfield := field_of_holds (holds_headerBack h.back).2
  rw [size_mark] at hfield
  rw [Header.isUstar, hfield]
  decide +kernel

theorem size? (hsize : size < wordBound) : (⟨block⟩ : Header).size? = some size := by
  have hfield := field_of_holds (holds_headerFront h.front).2
  rw [size_sizeField] at hfield
  rw [Header.size?, hfield, number?_sizeField hsize]

theorem checksum? : (⟨block⟩ : Header).checksum? = some (headerSum name flag size) := by
  have hfield := field_of_holds h.checksum
  have hlt : headerSum name flag size < wordBound :=
    Nat.lt_trans (headerSum_lt name flag size) (by decide)
  rw [size_checksumField, checksumField, ByteArray.toList_data_append] at hfield
  rw [Header.checksum?, hfield, octal?_octalField hlt]

theorem flag_eq (hflag : flag.toNat < 256) : (⟨block⟩ : Header).flag = flag := by
  have hget := (holds_headerBack h.back).1.get! (j := 0) Nat.zero_lt_one
  rw [Nat.add_zero] at hget
  rw [Header.flag, hget]
  change Char.ofNat (UInt8.ofNat flag.toNat).toNat = flag
  rw [Utf8.toNat_ofNat_of_lt hflag, Char.ofNat_toNat]

end IsHeader

theorem allZero_eq_false {i width : Nat} (hlower : start ≤ i) (hupper : i < start + width)
    (h : block.get! i ≠ 0) : allZero block start width = false := by
  induction width with
  | zero => omega
  | succ width ih =>
    rw [allZero]
    rcases Nat.lt_or_ge i (start + width) with hlt | hge
    · rw [ih hlt, Bool.and_false]
    · obtain rfl : i = start + width := by omega
      rw [beq_eq_false_iff_ne.mpr h, Bool.false_and]

namespace IsHeader

variable (h : IsHeader name flag size block)

include h

theorem isBlank : (⟨block⟩ : Header).isBlank = false := by
  have hget := (holds_headerBack h.back).2.get! (j := 0) (by decide +kernel)
  have hletter : block.get! 257 ≠ 0 := by
    rw [Nat.add_zero] at hget
    rw [hget]
    decide +kernel
  exact allZero_eq_false (i := 257) (by decide) (by decide) hletter

theorem path_eq (hname : name.size ≤ nameWidth) (hzero : 0 ∉ name.data.toList) :
    (⟨block⟩ : Header).path = name.data.toList := by
  have hfield := field_of_holds (holds_headerFront h.front).1
  have hfits : name.extract 0 nameWidth = name := by
    apply ext_toList
    rw [← Nat.zero_add nameWidth, toList_extract, List.drop_zero]
    exact List.take_of_length_le (by rwa [length_toList])
  have hpadded : (nameField name).data.toList =
      name.data.toList ++ List.replicate (nameWidth - name.size) 0 := by
    rw [nameField, hfits, padTo, ByteArray.toList_data_append, toList_zeros]
  rw [size_nameField, hpadded] at hfield
  have huntil : untilZero (name.data.toList ++ List.replicate (nameWidth - name.size) 0) =
      name.data.toList := by
    rw [untilZero_append hzero]
    cases nameWidth - name.size with
    | zero => exact List.append_nil _
    | succ n => rw [List.replicate_succ, untilZero_cons, List.append_nil]
  simp only [Header.path, h.isUstar, Header.name, hfield, huntil]
  rfl

theorem sum_eq : (⟨block⟩ : Header).sum = headerSum name flag size := by
  have hfront := h.front.extract
  have hback := h.back.extract
  rw [size_headerFront, Nat.zero_add] at hfront
  rw [size_headerBack] at hback
  rw [Header.sum, hfront, headerSum]
  change byteSum _ + 8 * 32 + byteSum (block.extract 156 blockSize) = _
  rw [show blockSize = 156 + 356 from rfl, hback]

end IsHeader

end PluginAgent.Codec.Tar
