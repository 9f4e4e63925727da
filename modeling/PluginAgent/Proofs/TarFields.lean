import Mathlib.Tactic.IntervalCases
import PluginAgent.Codec.TarWriter
import PluginAgent.Proofs.ByteViews
import PluginAgent.Proofs.Utf8Coding

namespace PluginAgent.Codec

def asciiBytes (text : List Char) : List UInt8 :=
  text.map fun c => UInt8.ofNat c.toNat

def Ascii (text : List Char) : Prop :=
  ∀ c ∈ text, c.toNat < 128

theorem encode_ascii {text : List Char} (h : Ascii text) :
    text.flatMap String.utf8EncodeChar = asciiBytes text := by
  induction text with
  | nil => rfl
  | cons c rest ih =>
    have hc : c.val.toNat ≤ 0x7F := Nat.le_of_lt_succ (h c List.mem_cons_self)
    have hchar : String.utf8EncodeChar c = [UInt8.ofNat c.toNat] := by
      simp only [String.utf8EncodeChar]
      exact if_pos hc
    rw [List.flatMap_cons, hchar, ih fun c hc => h c (List.mem_cons_of_mem _ hc)]
    rfl

theorem toList_toUTF8 (text : List Char) :
    (String.ofList text).toUTF8.data.toList = text.flatMap String.utf8EncodeChar := by
  simp [String.toUTF8, List.utf8Encode]

namespace Tar

theorem digitChar_octal {d : Nat} (h : d < 8) : '0' ≤ d.digitChar ∧ d.digitChar ≤ '7' := by
  interval_cases d <;> decide

theorem mem_toDigits_octal (n : Nat) : ∀ c ∈ Nat.toDigits 8 n, '0' ≤ c ∧ c ≤ '7' := by
  induction n using Nat.strongRecOn with
  | ind n ih =>
    intro c hc
    rw [Nat.toDigits_eq_if (by decide)] at hc
    split at hc
    · rename_i hlt
      rw [List.mem_singleton] at hc
      exact hc ▸ digitChar_octal hlt
    · rcases List.mem_append.mp hc with hc | hc
      · exact ih (n / 8) (by omega) c hc
      · rw [List.mem_singleton] at hc
        exact hc ▸ digitChar_octal (Nat.mod_lt n (by decide))

theorem foldl_octal {digits : List Char} (h : ∀ c ∈ digits, '0' ≤ c ∧ c ≤ '7')
    {f : Option Nat → Char → Option Nat}
    (hf : ∀ n c, '0' ≤ c → c ≤ '7' → f (some n) c = some (n * 8 + (c.toNat - 48))) (n : Nat) :
    digits.foldl f (some n) = some (Nat.ofDigitChars 8 digits n) := by
  induction digits generalizing n with
  | nil => rfl
  | cons c rest ih =>
    obtain ⟨hlower, hupper⟩ := h c List.mem_cons_self
    rw [List.foldl_cons, Nat.ofDigitChars_cons, Nat.mul_comm, hf n c hlower hupper]
    exact ih (fun c hc => h c (List.mem_cons_of_mem _ hc)) _

theorem octalDigits?_eq {digits : List Char} (hne : digits ≠ [])
    (h : ∀ c ∈ digits, '0' ≤ c ∧ c ≤ '7') :
    octalDigits? digits = some (Nat.ofDigitChars 8 digits 0) := by
  cases digits with
  | nil => exact absurd rfl hne
  | cons c rest =>
    refine foldl_octal h ?_ 0
    intro n c hlower hupper
    simp only [hlower, hupper, decide_true, Bool.and_self, if_true]

def octalText (width n : Nat) : List Char :=
  List.replicate (width - 1 - (Nat.toDigits 8 n).length) '0' ++ Nat.toDigits 8 n

theorem mem_octalText {width n : Nat} {c : Char} (h : c ∈ octalText width n) :
    '0' ≤ c ∧ c ≤ '7' := by
  rcases List.mem_append.mp h with h | h
  · rw [(List.mem_replicate.mp h).2]
    decide
  · exact mem_toDigits_octal n c h

theorem toNat_octalText {width n : Nat} {c : Char} (h : c ∈ octalText width n) :
    48 ≤ c.toNat ∧ c.toNat ≤ 55 :=
  mem_octalText h

theorem octalText_ne_nil (width n : Nat) : octalText width n ≠ [] := by
  simp [octalText]

theorem ascii_octalText (width n : Nat) : Ascii (octalText width n) := by
  intro c hc
  have hc := toNat_octalText hc
  omega

theorem toList_octalField (width n : Nat) :
    (octalField width n).data.toList = asciiBytes (octalText width n) ++ [0] := by
  have htext : (octalField width n).data.toList =
      (String.ofList (octalText width n)).toUTF8.data.toList ++ [0] := by
    simp [octalField, octalText, ByteArray.data_push]
  rw [htext, toList_toUTF8, encode_ascii (ascii_octalText width n)]

theorem size_octalField {width n : Nat} (hwidth : 2 ≤ width) (hn : n < 8 ^ (width - 1)) :
    (octalField width n).size = width := by
  have hdigits : (Nat.toDigits 8 n).length ≤ width - 1 :=
    (Nat.length_toDigits_le_iff (by decide) (by omega)).mpr hn
  rw [← length_toList, toList_octalField, List.length_append, asciiBytes, List.length_map,
    octalText, List.length_append, List.length_replicate]
  simp
  omega

theorem ofDigitChars_octalText (width n : Nat) : Nat.ofDigitChars 8 (octalText width n) 0 = n := by
  rw [octalText, Nat.ofDigitChars_append, Nat.ofDigitChars_replicate_zero, Nat.mul_zero,
    Nat.ofDigitChars_toDigits (by decide) (by decide)]

theorem untilZero_append {l : List UInt8} (h : 0 ∉ l) (rest : List UInt8) :
    untilZero (l ++ rest) = l ++ untilZero rest := by
  refine List.takeWhile_append_of_pos ?_
  intro b hb
  have hne : b ≠ 0 := fun hzero => h (hzero ▸ hb)
  simpa using hne

theorem untilZero_cons (rest : List UInt8) : untilZero (0 :: rest) = [] := by
  simp [untilZero]

theorem zero_not_mem_asciiBytes {text : List Char} (h : ∀ c ∈ text, 0 < c.toNat)
    (hascii : Ascii text) : 0 ∉ asciiBytes text := by
  intro hmem
  obtain ⟨c, hc, hzero⟩ := List.mem_map.mp hmem
  have hpos := h c hc
  have hlt := hascii c hc
  have hnat : (UInt8.ofNat c.toNat).toNat = c.toNat := Utf8.toNat_ofNat_of_lt (by omega)
  rw [hzero] at hnat
  simp at hnat
  omega

theorem octal?_octalText {width n : Nat} (hn : n < wordBound) (rest : List UInt8) :
    octal? (asciiBytes (octalText width n) ++ 0 :: rest) = some n := by
  have hnonzero : 0 ∉ asciiBytes (octalText width n) :=
    zero_not_mem_asciiBytes (fun c hc => by have := toNat_octalText hc; omega)
      (ascii_octalText width n)
  have hdecode : Utf8.decode ⟨(asciiBytes (octalText width n)).toArray⟩ =
      .ok (octalText width n) :=
    Utf8.decode_eq_ok_iff.mpr (encode_ascii (ascii_octalText width n)).symm
  have hblank {c : Char} (hc : c ∈ octalText width n) : Text.isBlank c = false := by
    have hc := toNat_octalText hc
    simp [Text.isBlank]
    omega
  have htrim : Text.trim (octalText width n) = octalText width n :=
    Text.Trimmed.trim_eq ⟨fun c hc => hblank (List.mem_of_mem_head? hc),
      fun c hc => hblank (List.mem_of_getLast? hc)⟩
  have hsigned {r : List Char} : octalText width n ≠ '+' :: r := by
    intro h
    have hc := toNat_octalText (c := '+') (by rw [h]; exact List.mem_cons_self)
    simp at hc
  rw [octal?, untilZero_append hnonzero, untilZero_cons, List.append_nil, hdecode]
  simp only [htrim]
  have hdigits := octalDigits?_eq (octalText_ne_nil width n) fun c hc => mem_octalText hc
  rw [ofDigitChars_octalText] at hdigits
  split
  · rename_i m hm
    obtain rfl := Option.some.inj (hdigits.symm.trans hm)
    exact if_pos hn
  · rename_i hm
    cases hdigits.symm.trans hm

theorem octal?_octalField {width n : Nat} (hn : n < wordBound) (rest : List UInt8) :
    octal? ((octalField width n).data.toList ++ rest) = some n := by
  rw [toList_octalField, List.append_assoc]
  exact octal?_octalText hn rest

theorem number?_octalField {width n : Nat} (hn : n < wordBound) :
    number? (octalField width n).data.toList = some n := by
  have hoctal : octal? ((octalField width n).data.toList ++ []) = some n := octal?_octalField hn []
  rw [List.append_nil] at hoctal
  rw [toList_octalField] at hoctal ⊢
  cases htext : octalText width n with
  | nil => exact absurd htext (octalText_ne_nil width n)
  | cons c r =>
    rw [htext] at hoctal
    have hc := toNat_octalText (c := c) (by rw [htext]; exact List.mem_cons_self)
    have hlow : ¬ UInt8.ofNat c.toNat ≥ 128 := by
      rw [ge_iff_le, UInt8.le_iff_toNat_le, Utf8.toNat_ofNat_of_lt (by omega)]
      simp
      omega
    exact (if_neg hlow).trans hoctal

def bigEndianBytes (n : Nat) : List UInt8 :=
  (List.range 8).map fun i => UInt8.ofNat (n >>> (8 * (7 - i)))

theorem bigEndian_bigEndianBytes {n : Nat} (hn : n < wordBound) :
    bigEndian (bigEndianBytes n) = n := by
  simp only [bigEndianBytes, bigEndian, List.range_succ, List.range_zero, List.nil_append,
    List.cons_append, List.map_cons, List.map_nil, List.foldl_cons, List.foldl_nil,
    Nat.shiftRight_eq_div_pow, UInt8.toNat_ofNat']
  unfold wordBound at hn
  omega

theorem sizeField_of_le {n : Nat} (h : n < 8 ^ 11) : sizeField n = octalField 12 n :=
  if_pos h

theorem toList_sizeField_of_gt {n : Nat} (h : ¬ n < 8 ^ 11) :
    (sizeField n).data.toList = [0x80, 0, 0, 0] ++ bigEndianBytes n := by
  have hfield : sizeField n = ⟨([0x80, 0, 0, 0] ++ bigEndianBytes n).toArray⟩ := if_neg h
  rw [hfield]

theorem size_sizeField (n : Nat) : (sizeField n).size = 12 := by
  by_cases h : n < 8 ^ 11
  · rw [sizeField_of_le h, size_octalField (by decide) h]
  · rw [← length_toList, toList_sizeField_of_gt h]
    simp [bigEndianBytes]

theorem number?_sizeField {n : Nat} (hn : n < wordBound) :
    number? (sizeField n).data.toList = some n := by
  by_cases h : n < 8 ^ 11
  · rw [sizeField_of_le h, number?_octalField hn]
  · have hbinary : number? ([0x80, 0, 0, 0] ++ bigEndianBytes n) =
        some (bigEndian (bigEndianBytes n)) := by
      simp [number?, bigEndianBytes]
    rw [toList_sizeField_of_gt h, hbinary, bigEndian_bigEndianBytes hn]

end Tar

end PluginAgent.Codec
