import Mathlib.Algebra.Group.Nat.Defs
import Mathlib.Data.List.Basic
import PluginAgent.Codec.Huffman
import PluginAgent.Codec.Bytes

namespace PluginAgent.Codec

theorem length_toList (file : ByteArray) : file.data.toList.length = file.size :=
  rfl

theorem toList_extract (file : ByteArray) (i n : Nat) :
    (file.extract i (i + n)).data.toList = (file.data.toList.drop i).take n := by
  rw [ByteArray.data_extract, Array.toList_extract, List.extract_eq_take_drop, Nat.add_sub_cancel_left]

theorem ext_toList {a b : ByteArray} (h : a.data.toList = b.data.toList) : a = b :=
  ByteArray.ext (Array.toList_inj.mp h)

theorem extract_of_size_le {file : ByteArray} {n : Nat} (h : file.size ≤ n) :
    file.extract 0 n = file := by
  refine ext_toList ?_
  rw [← Nat.zero_add n, toList_extract]
  exact List.take_of_length_le h

theorem foldlM_loop {β : Type} (f : β → UInt8 → β) (bytes : ByteArray) (n : Nat) :
    ∀ (j : Nat) (b : β), bytes.size - j ≤ n →
      Id.run (ByteArray.foldlM.loop (fun b x => pure (f b x)) bytes bytes.size (Nat.le_refl _) n j b) =
        (bytes.data.toList.drop j).foldl f b := by
  induction n with
  | zero =>
    intro j b h
    unfold ByteArray.foldlM.loop
    rw [dif_neg (by omega), List.drop_eq_nil_of_le (by rw [length_toList]; omega)]
    rfl
  | succ n ih =>
    intro j b h
    unfold ByteArray.foldlM.loop
    by_cases hj : j < bytes.size
    · rw [dif_pos hj, List.drop_eq_getElem_cons (by rw [length_toList]; exact hj), List.foldl_cons]
      exact ih (j + 1) _ (by omega)
    · rw [dif_neg hj, List.drop_eq_nil_of_le (by rw [length_toList]; omega)]
      rfl

theorem foldl_toList {β : Type} (f : β → UInt8 → β) (b : β) (bytes : ByteArray) :
    bytes.foldl f b = bytes.data.toList.foldl f b := by
  simp only [ByteArray.foldl, ByteArray.foldlM]
  rw [dif_pos (Nat.le_refl _)]
  exact foldlM_loop f bytes _ 0 b (by omega)

@[simp] theorem toList_zeros (n : Nat) : (zeros n).data.toList = List.replicate n 0 := by
  simp [zeros]

@[simp] theorem size_zeros (n : Nat) : (zeros n).size = n := by
  simp [zeros, ByteArray.size]

def Holds (file : ByteArray) (i : Nat) (content : List UInt8) : Prop :=
  content <+: file.data.toList.drop i

theorem holds_self (file : ByteArray) : Holds file 0 file.data.toList :=
  List.prefix_refl _

theorem holds_append {file : ByteArray} {i : Nat} {a b : List UInt8} :
    Holds file i (a ++ b) ↔ Holds file i a ∧ Holds file (i + a.length) b := by
  constructor
  · rintro ⟨rest, hrest⟩
    refine ⟨⟨b ++ rest, by rw [← hrest, List.append_assoc]⟩, rest, ?_⟩
    rw [← List.drop_drop, ← hrest, List.append_assoc, List.drop_left]
  · rintro ⟨⟨rest, hrest⟩, later, hlater⟩
    refine ⟨later, ?_⟩
    rw [← List.drop_drop, ← hrest, List.drop_left] at hlater
    rw [← hrest, List.append_assoc, hlater]

theorem holds_cons {file : ByteArray} {i : Nat} {b : UInt8} {content : List UInt8} :
    Holds file i (b :: content) ↔ Holds file i [b] ∧ Holds file (i + 1) content :=
  holds_append (a := [b])

namespace Holds

variable {file : ByteArray} {i : Nat} {content : List UInt8}

theorem length_le (h : Holds file i content) (hne : content ≠ []) :
    i + content.length ≤ file.size := by
  have hlength := List.IsPrefix.length_le h
  have hpos := List.length_pos_iff.mpr hne
  rw [List.length_drop, length_toList] at hlength
  omega

theorem size_le {part : ByteArray} (h : Holds file i part.data.toList) (hpos : 0 < part.size) :
    i + part.size ≤ file.size :=
  h.length_le (List.length_pos_iff.mp (by rwa [length_toList]))

theorem lt_size {b : UInt8} (h : Holds file i [b]) : i < file.size :=
  h.length_le (by simp)

theorem getElem? (h : Holds file i content) {j : Nat} (hj : j < content.length) :
    file.data.toList[i + j]? = content[j]? := by
  obtain ⟨rest, hrest⟩ := h
  rw [← List.getElem?_drop, ← hrest, List.getElem?_append_left hj]

theorem get! (h : Holds file i content) {j : Nat} (hj : j < content.length) :
    file.get! (i + j) = content[j] := by
  have hget := h.getElem? hj
  rw [List.getElem?_eq_getElem hj] at hget
  change file.data[i + j]! = _
  rw [getElem!_def, ← Array.getElem?_toList, hget]

theorem getElem {b : UInt8} (h : Holds file i [b]) (hi : i < file.size) : file[i] = b := by
  have hget := h.getElem? (j := 0) (by simp)
  rw [Nat.add_zero, Array.getElem?_toList, Array.getElem?_eq_getElem hi] at hget
  exact Option.some.inj hget

theorem take (h : Holds file i content) :
    (file.data.toList.drop i).take content.length = content :=
  (List.prefix_iff_eq_take.mp h).symm

theorem sliceList (h : Holds file i content) : sliceList file i content.length = content := by
  rw [Codec.sliceList, toList_extract, h.take]

theorem extract {part : ByteArray} (h : Holds file i part.data.toList) :
    file.extract i (i + part.size) = part := by
  refine ext_toList ?_
  rw [toList_extract, ← length_toList, h.take]

end Holds

theorem foldr_range_succ {α : Type} (f : Nat → α → α) (init : α) (n : Nat) :
    (List.range (n + 1)).foldr f init =
      f 0 ((List.range n).foldr (fun i => f (i + 1)) init) := by
  rw [List.range_succ_eq_map, List.foldr_cons, List.foldr_map]

theorem foldr_littleEndian (width n : Nat) :
    (List.range width).foldr (fun i sum => sum * 256 + (n >>> (8 * i)) % 256) 0 =
      n % 256 ^ width := by
  induction width generalizing n with
  | zero => simp [Nat.mod_one]
  | succ width ih =>
    have hshift (i : Nat) : n >>> (8 * (i + 1)) = (n / 256) >>> (8 * i) := by
      rw [Nat.shiftRight_eq_div_pow, Nat.shiftRight_eq_div_pow, Nat.div_div_eq_div_mul,
        show 8 * (i + 1) = 8 + 8 * i by omega, Nat.pow_add]
    rw [foldr_range_succ]
    simp only [hshift, Nat.mul_zero, Nat.shiftRight_zero]
    rw [ih, Nat.pow_succ', Nat.mod_mul]
    omega

@[simp] theorem size_littleEndian (width n : Nat) : (littleEndian width n).size = width := by
  simp [littleEndian, ByteArray.size]

theorem readLittleEndian?_of_holds {file : ByteArray} {i width n : Nat} (hwidth : 0 < width)
    (h : Holds file i (littleEndian width n).data.toList) :
    readLittleEndian? file i width = some (n % 256 ^ width) := by
  have hlength : (littleEndian width n).data.toList.length = width := by
    rw [length_toList, size_littleEndian]
  have hle := h.size_le (by simpa using hwidth)
  rw [size_littleEndian] at hle
  rw [readLittleEndian?, if_pos hle, ← foldr_littleEndian]
  refine congrArg some (List.foldr_ext _ _ 0 ?_)
  intro j hj sum
  have hj : j < width := by simpa using hj
  rw [h.get! (by omega)]
  simp [littleEndian]

theorem bit?_of_holds {file : ByteArray} {i k : Nat} {b : UInt8} (h : Holds file i [b]) (hk : k < 8) :
    bit? file (8 * i + k) = some (b.toNat / 2 ^ k % 2) := by
  have hi := h.lt_size
  have hdiv : (8 * i + k) / 8 = i := by omega
  have hmod : (8 * i + k) % 8 = k := by omega
  simp only [bit?, hdiv, hmod, hi, dite_true, h.getElem hi, Nat.shiftRight_eq_div_pow]

theorem bits_of_holds {file : ByteArray} {i : Nat} {b : UInt8} (h : Holds file i [b]) :
    bits file 3 (8 * i) = .ok (b.toNat % 8, 8 * i + 3) := by
  have h0 := bit?_of_holds (k := 0) h (by omega)
  have h1 := bit?_of_holds (k := 1) h (by omega)
  have h2 := bit?_of_holds (k := 2) h (by omega)
  simp only [Nat.add_zero] at h0
  simp only [bits, bits?, h0, h1, h2, Nat.add_assoc]
  congr 2
  omega

end PluginAgent.Codec
