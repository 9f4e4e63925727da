import Mathlib.Algebra.Order.BigOperators.Group.List
import PluginAgent.Proofs.StoredBlocks
import PluginAgent.Proofs.TarHeaders

namespace PluginAgent.Codec.Tar

structure Draft.Plain (d : Draft) : Prop where
  name : 0 ∉ d.name.data.toList
  declared : d.declared = d.content.size
  flag : d.flag.toNat < 256
  ordinary : d.flag ≠ 'L' ∧ d.flag ≠ 'K' ∧ d.flag ≠ 'x' ∧ d.flag ≠ 'S'

def Draft.member (d : Draft) : Member where
  regular := d.flag = '0' ∨ d.flag = Char.ofNat 0
  declared := d.declared
  path := d.name.data.toList
  content := d.content
  damaged := false

theorem le_roundUp (n : Nat) : n ≤ roundUp n := by
  unfold roundUp blockSize
  omega

theorem size_padded (content : ByteArray) : (padded content).size = roundUp content.size := by
  have hle := le_roundUp content.size
  rw [padded, ByteArray.size_append, size_zeros]
  omega

structure Whole (s : Gzip.Stream) : Prop where
  undamaged : s.damaged = false
  size_lt : s.bytes.size < wordBound

def memberBytes (name : ByteArray) (flag : Char) (content : ByteArray) : List UInt8 :=
  (header name flag content.size).data.toList ++ (padded content).data.toList

variable {s : Gzip.Stream} {pos fuel size : Nat} {name content : ByteArray} {flag : Char}
  {d : Described} {l : Located}

theorem length_memberBytes :
    (memberBytes name flag content).length = blockSize + roundUp content.size := by
  rw [memberBytes, List.length_append, length_toList, length_toList, size_header, size_padded]

def located (name : ByteArray) (flag : Char) (pos size : Nat) : Located :=
  ⟨⟨header name flag size⟩, pos + blockSize, size⟩

theorem located_after :
    (located name flag pos size).after = pos + (blockSize + roundUp size) := by
  rw [Located.after, located, Nat.add_assoc]

theorem contentOf_of_holds (h : Holds s.bytes pos (memberBytes name flag content)) :
    contentOf s (located name flag pos content.size) = content := by
  obtain ⟨-, hcontent⟩ := holds_append.mp h
  rw [length_toList, size_header, padded, ByteArray.toList_data_append] at hcontent
  exact (holds_append.mp hcontent).1.extract

theorem contentDamaged_of_whole (hs : Whole s) : contentDamaged s l = false := by
  rw [contentDamaged, hs.undamaged, Bool.false_and]

theorem headerAt_of_header (h : Holds s.bytes pos (header name flag size).data.toList)
    (hbound : pos + blockSize + roundUp size < wordBound) :
    headerAt s none pos = .ok (some (located name flag pos size)) := by
  have hpos : 0 < blockSize := by decide
  have hblock := h.extract
  have hend := h.size_le (by rwa [size_header])
  rw [size_header] at hblock hend
  have hround := le_roundUp size
  have hfields : IsHeader name flag size (header name flag size) := isHeader_header
  have hdefault : (if size = 0 then ((none : Option (List UInt8)).bind recordSize?).getD 0
      else size) = size := by
    split
    · rename_i hzero
      rw [hzero]
      rfl
    · rfl
  have hsize : size < wordBound := by omega
  rw [headerAt, if_neg (by omega), if_neg (by omega), if_neg (by omega)]
  simp only [hblock, hfields.isBlank, hfields.checksum?, hfields.sum_eq, hfields.size? hsize,
    hdefault, ne_eq, not_true_eq_false, if_false, Bool.false_eq_true]
  rw [if_neg (by omega)]
  rfl

theorem headerAt_of_holds (hs : Whole s) (h : Holds s.bytes pos (memberBytes name flag content)) :
    headerAt s none pos = .ok (some (located name flag pos content.size)) := by
  have hend := h.length_le (by
    rw [← List.length_pos_iff, length_memberBytes]
    exact Nat.add_pos_left (by decide) _)
  rw [length_memberBytes, ← Nat.add_assoc] at hend
  exact headerAt_of_header (holds_append.mp h).1 (Nat.lt_of_le_of_lt hend hs.size_lt)

theorem describe_ordinary (hflag : flag.toNat < 256)
    (hordinary : flag ≠ 'L' ∧ flag ≠ 'K' ∧ flag ≠ 'x') :
    describe s (located name flag pos size) d = .ok none := by
  have hfields : IsHeader name flag size (header name flag size) := isHeader_header
  simp only [describe, located, hfields.isGnu, hfields.flag_eq hflag, hordinary]
  simp

theorem describe_longName (hs : Whole s)
    (h : Holds s.bytes pos (memberBytes name 'L' content)) (hd : d.longName = none) :
    describe s (located name 'L' pos content.size) d =
      .ok (some { d with longName := some content.data.toList }) := by
  have hfields : IsHeader name 'L' content.size (header name 'L' content.size) :=
    isHeader_header
  have hflag : (located name 'L' pos content.size).header.flag = 'L' :=
    hfields.flag_eq (by decide)
  have hgnu : (located name 'L' pos content.size).header.isGnu = true := hfields.isGnu
  simp only [describe, hgnu, hflag, hd, contentDamaged_of_whole hs, contentOf_of_holds h]
  simp

theorem nextMember_ordinary (hlook : headerAt s d.extended pos = .ok (some l))
    (hdescribe : describe s l d = .ok none) (hflag : l.header.flag ≠ 'S') :
    nextMember s (fuel + 1) d pos = .ok (some (memberAt s d l, l.after)) := by
  rw [nextMember, hlook]
  simp only [hdescribe]
  rw [if_neg hflag]

theorem nextMember_described {described : Described}
    (hlook : headerAt s d.extended pos = .ok (some l))
    (hdescribe : describe s l d = .ok (some described)) :
    nextMember s (fuel + 1) d pos = nextMember s fuel described l.after := by
  rw [nextMember, hlook]
  simp only [hdescribe]

theorem memberAt_located {draft : Draft} (hplain : draft.Plain) (hs : Whole s)
    (h : Holds s.bytes pos (memberBytes draft.name draft.flag draft.content))
    (hsize : draft.content.size < wordBound)
    (hpath : d.path ⟨header draft.name draft.flag draft.content.size⟩ = draft.name.data.toList) :
    memberAt s d (located draft.name draft.flag pos draft.content.size) = draft.member := by
  have hfields : IsHeader draft.name draft.flag draft.content.size
      (header draft.name draft.flag draft.content.size) := isHeader_header
  have hflag : (located draft.name draft.flag pos draft.content.size).header.flag = draft.flag :=
    hfields.flag_eq hplain.flag
  have hstated : (located draft.name draft.flag pos draft.content.size).header.size? =
      some draft.content.size := hfields.size? hsize
  have hnamed : d.path (located draft.name draft.flag pos draft.content.size).header =
      draft.name.data.toList := hpath
  rw [memberAt, hflag, hstated, hnamed, contentOf_of_holds h, contentDamaged_of_whole hs,
    Draft.member, hplain.declared, Option.getD_some]

theorem located_of_holds {draft : Draft} (hplain : draft.Plain) (hs : Whole s)
    (h : Holds s.bytes pos (memberBytes draft.name draft.flag draft.content))
    (hd : d.extended = none) :
    headerAt s d.extended pos =
        .ok (some (located draft.name draft.flag pos draft.content.size)) ∧
      describe s (located draft.name draft.flag pos draft.content.size) d = .ok none ∧
      (located draft.name draft.flag pos draft.content.size).header.flag ≠ 'S' := by
  obtain ⟨hL, hK, hx, hS⟩ := hplain.ordinary
  have hfields : IsHeader draft.name draft.flag draft.content.size
      (header draft.name draft.flag draft.content.size) := isHeader_header
  refine ⟨by rw [hd, headerAt_of_holds hs h], describe_ordinary hplain.flag ⟨hL, hK, hx⟩, ?_⟩
  rw [located, hfields.flag_eq hplain.flag]
  exact hS

theorem nextMember_of_holds {draft : Draft} (hplain : draft.Plain) (hs : Whole s)
    (h : Holds s.bytes pos (memberBytes draft.name draft.flag draft.content))
    (hd : d.extended = none)
    (hpath : d.path ⟨header draft.name draft.flag draft.content.size⟩ = draft.name.data.toList) :
    nextMember s (fuel + 1) d pos =
      .ok (some (draft.member, pos + (blockSize + roundUp draft.content.size))) := by
  obtain ⟨hlook, hdescribe, hflag⟩ := located_of_holds hplain hs h hd
  have hsize : draft.content.size < wordBound := by
    have hle := h.length_le (by
      rw [← List.length_pos_iff, length_memberBytes]
      exact Nat.add_pos_left (by decide) _)
    rw [length_memberBytes] at hle
    have hround := le_roundUp draft.content.size
    have hlt := hs.size_lt
    omega
  rw [nextMember_ordinary hlook hdescribe hflag, memberAt_located hplain hs h hsize hpath,
    located_after]

def Draft.bytes (d : Draft) : List UInt8 :=
  (if d.name.size > nameWidth then (longNameMember d.name).data.toList else []) ++
    ((header d.name d.flag d.declared).data.toList ++ (padded d.content).data.toList)

theorem toList_longNameMember (name : ByteArray) : (longNameMember name).data.toList =
    memberBytes "././@LongLink".toUTF8 'L' (name.push 0) := by
  rw [longNameMember, ByteArray.toList_data_append, memberBytes, ByteArray.size_push]

theorem withoutLastZero_push (name : ByteArray) :
    withoutLastZero (name.push 0).data.toList = name.data.toList := by
  simp [withoutLastZero]

theorem nextMember_of_holds_bytes {draft : Draft} (hplain : draft.Plain) (hs : Whole s)
    (h : Holds s.bytes pos draft.bytes) :
    nextMember s (fuel + 2) {} pos = .ok (some (draft.member, pos + draft.bytes.length)) := by
  rw [Draft.bytes, hplain.declared] at h ⊢
  change Holds s.bytes pos (_ ++ memberBytes draft.name draft.flag draft.content) at h
  change _ = Except.ok (some (_, pos + List.length (_ ++
    memberBytes draft.name draft.flag draft.content)))
  rcases Nat.lt_or_ge nameWidth draft.name.size with hlong | hshort
  · rw [if_pos hlong, toList_longNameMember] at h ⊢
    obtain ⟨hname, hmember⟩ := holds_append.mp h
    have hfirst : nextMember s (fuel + 2) {} pos =
        nextMember s (fuel + 1) { longName := some (draft.name.push 0).data.toList }
          (pos + (blockSize + roundUp (draft.name.push 0).size)) := by
      rw [nextMember_described (d := {}) (headerAt_of_holds hs hname)
        (describe_longName hs hname rfl), located_after]
    rw [length_memberBytes] at hmember
    rw [hfirst, nextMember_of_holds (d := { longName := some _ }) hplain hs hmember rfl
      (withoutLastZero_push draft.name)]
    simp only [List.length_append, length_memberBytes, Nat.add_assoc]
  · rw [if_neg (Nat.not_lt.mpr hshort), List.nil_append] at h ⊢
    have hpath : (⟨header draft.name draft.flag draft.content.size⟩ : Header).path =
        draft.name.data.toList := isHeader_header.path_eq hshort hplain.name
    rw [nextMember_of_holds (d := {}) hplain hs h rfl hpath, length_memberBytes]

theorem length_bytes_pos (draft : Draft) : blockSize ≤ draft.bytes.length := by
  rw [Draft.bytes, List.length_append, List.length_append, length_toList, size_header]
  omega

theorem length_mul_le (drafts : List Draft) :
    drafts.length * blockSize ≤ (drafts.flatMap Draft.bytes).length := by
  induction drafts with
  | nil => exact Nat.zero_le _
  | cons draft rest ih =>
    have hdraft := length_bytes_pos draft
    rw [List.length_cons, List.flatMap_cons, List.length_append, Nat.succ_mul]
    omega

theorem allZero_zeros {start width n : Nat} (h : start + width ≤ n) :
    allZero (zeros n) start width = true := by
  induction width with
  | zero => rfl
  | succ width ih =>
    have hget : (zeros n).get! (start + width) = 0 := by
      have hget := (holds_self (zeros n)).get! (j := start + width)
        (by rw [length_toList, size_zeros]; omega)
      rw [Nat.zero_add] at hget
      rw [hget]
      simp
    rw [allZero, hget, ih (by omega)]
    rfl

theorem headerAt_of_blank (h : Holds s.bytes pos (zeros blockSize).data.toList) :
    headerAt s none pos = .ok none := by
  have hpos : 0 < blockSize := by decide
  have hsize := h.size_le (by rwa [size_zeros])
  have hblock := h.extract
  rw [size_zeros] at hsize hblock
  have hblank : (⟨zeros blockSize⟩ : Header).isBlank = true :=
    allZero_zeros (by omega)
  rw [headerAt, if_neg (by omega), if_neg (by omega), if_neg (by omega)]
  simp only [hblock, hblank, if_true]

theorem nextMember_of_blank (h : Holds s.bytes pos (zeros blockSize).data.toList) :
    nextMember s (fuel + 1) {} pos = .ok none := by
  have hlook : headerAt s ({} : Described).extended pos = .ok none := headerAt_of_blank h
  rw [nextMember, hlook]
  rfl

theorem membersFrom_of_holds {drafts : List Draft} (hplain : ∀ draft ∈ drafts, draft.Plain)
    (hs : Whole s) {done : List Member} (hfuel : drafts.length < fuel)
    (h : Holds s.bytes pos (drafts.flatMap Draft.bytes ++ (zeros blockSize).data.toList)) :
    membersFrom s fuel pos done = ⟨done.reverse ++ drafts.map Draft.member, none⟩ := by
  induction drafts generalizing pos fuel done with
  | nil =>
    obtain ⟨fuel, rfl⟩ := Nat.exists_eq_succ_of_ne_zero (Nat.ne_of_gt hfuel)
    rw [membersFrom, nextMember_of_blank h]
    simp
  | cons draft rest ih =>
    obtain ⟨fuel, rfl⟩ := Nat.exists_eq_succ_of_ne_zero (Nat.ne_of_gt (Nat.zero_lt_of_lt hfuel))
    rw [List.flatMap_cons, List.append_assoc] at h
    obtain ⟨hdraft, hrest⟩ := holds_append.mp h
    -- the bytes of a draft bring the reader to those of the next, with one unit of fuel less
    have hrun : membersFrom s fuel (pos + draft.bytes.length) (draft.member :: done) = _ :=
      ih (fun draft hd => hplain draft (List.mem_cons_of_mem _ hd))
        (Nat.lt_of_succ_lt_succ hfuel) hrest
    rw [membersFrom, nextMember_of_holds_bytes (hplain draft List.mem_cons_self) hs hdraft]
    simp only [hrun, List.reverse_cons, List.map_cons, List.append_assoc, List.singleton_append]

theorem toList_draftWrite (draft : Draft) (out : ByteArray) :
    (draft.write out).data.toList = out.data.toList ++ draft.bytes := by
  unfold Draft.write Draft.bytes
  split <;> simp only [ByteArray.toList_data_append, List.append_assoc, List.nil_append]

theorem toList_write (drafts : List Draft) : (write drafts).data.toList =
    drafts.flatMap Draft.bytes ++ (zeros (2 * blockSize)).data.toList := by
  have hfold (out : ByteArray) :
      (drafts.foldl (fun out d => d.write out) out).data.toList =
        out.data.toList ++ drafts.flatMap Draft.bytes := by
    induction drafts generalizing out with
    | nil => exact (List.append_nil _).symm
    | cons draft rest ih =>
      rw [List.foldl_cons, ih, toList_draftWrite, List.flatMap_cons, List.append_assoc]
  rw [write, ByteArray.toList_data_append, hfold]
  rfl

theorem roundUp_lt (n : Nat) : roundUp n < n + blockSize := by
  unfold roundUp blockSize
  omega

theorem length_bytes_le (draft : Draft) :
    draft.bytes.length ≤ 4 * blockSize + draft.name.size + draft.content.size := by
  have hname := roundUp_lt (draft.name.push 0).size
  have hcontent := roundUp_lt draft.content.size
  rw [ByteArray.size_push] at hname
  rw [Draft.bytes, List.length_append, List.length_append, length_toList, length_toList,
    size_header, size_padded]
  split
  · rw [toList_longNameMember, length_memberBytes, ByteArray.size_push]
    omega
  · rw [List.length_nil]
    omega

theorem size_write_le (drafts : List Draft) : (write drafts).size ≤
    (drafts.map fun d => 4 * blockSize + d.name.size + d.content.size).sum + 2 * blockSize := by
  rw [← length_toList, toList_write, List.length_append, length_toList, size_zeros,
    List.length_flatMap]
  refine Nat.add_le_add_right (List.sum_le_sum ?_) _
  exact fun draft _ => length_bytes_le draft

theorem holds_write (drafts : List Draft) :
    Holds (write drafts) 0 (drafts.flatMap Draft.bytes ++ (zeros blockSize).data.toList) := by
  have hholds := holds_self (write drafts)
  have hzeros : (zeros (2 * blockSize)).data.toList =
      (zeros blockSize).data.toList ++ (zeros blockSize).data.toList := by
    rw [toList_zeros, toList_zeros, ← List.replicate_add, Nat.two_mul]
  rw [toList_write, hzeros, ← List.append_assoc] at hholds
  exact (holds_append.mp hholds).1

theorem listing_file {drafts : List Draft} (hplain : ∀ draft ∈ drafts, draft.Plain)
    (hbound : (write drafts).size < wordBound) :
    listing (file drafts) = ⟨drafts.map Draft.member, none⟩ := by
  have hwhole : Whole ⟨write drafts, false⟩ := ⟨rfl, hbound⟩
  have hlength := length_mul_le drafts
  have hsize : (drafts.flatMap Draft.bytes).length ≤ (write drafts).size := by
    rw [← length_toList, toList_write, List.length_append]
    exact Nat.le_add_right _ _
  have hfuel : drafts.length ≤ (write drafts).size / blockSize :=
    (Nat.le_div_iff_mul_le (by decide)).mpr (Nat.le_trans hlength hsize)
  rw [listing, file, Gzip.decode_encode, members,
    membersFrom_of_holds hplain hwhole
      (Nat.lt_of_le_of_lt hfuel (Nat.lt_add_of_pos_right (by decide))) (holds_write drafts)]
  rfl

end PluginAgent.Codec.Tar
