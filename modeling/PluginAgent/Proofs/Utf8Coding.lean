import Mathlib.Tactic.SplitIfs
import PluginAgent.Text.Utf8

namespace PluginAgent.Utf8

theorem toNat_ofNat {n : Nat} (h : n.isValidChar) : (Char.ofNat n).val.toNat = n := by
  rw [Char.ofNat, dif_pos h]
  rfl

def bytesFrom (bytes : ByteArray) (i : Nat) : List UInt8 :=
  bytes.data.toList.drop i

theorem bytesFrom_of_byteAt {bytes : ByteArray} {i n : Nat} (h : byteAt bytes i = some n) :
    n < 256 ∧ bytesFrom bytes i = UInt8.ofNat n :: bytesFrom bytes (i + 1) := by
  rw [byteAt] at h
  split at h
  · rename_i hi
    obtain rfl := Option.some.inj h
    refine ⟨UInt8.toNat_lt _, ?_⟩
    rw [bytesFrom, bytesFrom, List.drop_eq_getElem_cons (by simpa using hi),
      UInt8.ofNat_toNat]
    rfl
  · cases h

theorem bytesFrom_eq_nil {bytes : ByteArray} {i : Nat} (h : ¬ i < bytes.size) :
    bytesFrom bytes i = [] :=
  List.drop_eq_nil_of_le (by simpa using h)

theorem encode_one {a : Nat} (ha : a < 0x80) :
    String.utf8EncodeChar (Char.ofNat a) = [UInt8.ofNat a] := by
  have hv : (Char.ofNat a).val.toNat = a := toNat_ofNat (by unfold Nat.isValidChar; omega)
  simp only [String.utf8EncodeChar, hv]
  rw [if_pos (by omega)]

theorem encode_two {a b : Nat} (ha : 0xC2 ≤ a ∧ a ≤ 0xDF) (hb : 0x80 ≤ b ∧ b ≤ 0xBF) :
    String.utf8EncodeChar (Char.ofNat ((a - 0xC0) * 64 + (b - 0x80))) =
      [UInt8.ofNat a, UInt8.ofNat b] := by
  generalize hn : (a - 0xC0) * 64 + (b - 0x80) = n
  have hv : (Char.ofNat n).val.toNat = n := toNat_ofNat (by unfold Nat.isValidChar; omega)
  have h1 : n / 64 % 0x20 + 0xC0 = a := by omega
  have h2 : n % 0x40 + 0x80 = b := by omega
  simp only [String.utf8EncodeChar, hv]
  rw [if_neg (by omega), if_pos (by omega), h1, h2]

theorem encode_three {a b c : Nat} (ha : 0xE0 ≤ a ∧ a ≤ 0xEF) (hb : 0x80 ≤ b ∧ b ≤ 0xBF)
    (hlong : a = 0xE0 → 0xA0 ≤ b) (hsurrogate : a = 0xED → b ≤ 0x9F) (hc : 0x80 ≤ c ∧ c ≤ 0xBF) :
    String.utf8EncodeChar (Char.ofNat ((a - 0xE0) * 4096 + (b - 0x80) * 64 + (c - 0x80))) =
      [UInt8.ofNat a, UInt8.ofNat b, UInt8.ofNat c] := by
  generalize hn : (a - 0xE0) * 4096 + (b - 0x80) * 64 + (c - 0x80) = n
  have hv : (Char.ofNat n).val.toNat = n := toNat_ofNat (by unfold Nat.isValidChar; omega)
  have h1 : n / 4096 % 0x10 + 0xE0 = a := by omega
  have h2 : n / 64 % 0x40 + 0x80 = b := by omega
  have h3 : n % 0x40 + 0x80 = c := by omega
  simp only [String.utf8EncodeChar, hv]
  rw [if_neg (by omega), if_neg (by omega), if_pos (by omega), h1, h2, h3]

theorem encode_four {a b c d : Nat} (ha : 0xF0 ≤ a ∧ a ≤ 0xF4) (hb : 0x80 ≤ b ∧ b ≤ 0xBF)
    (hlong : a = 0xF0 → 0x90 ≤ b) (hlast : a = 0xF4 → b ≤ 0x8F) (hc : 0x80 ≤ c ∧ c ≤ 0xBF)
    (hd : 0x80 ≤ d ∧ d ≤ 0xBF) :
    String.utf8EncodeChar (Char.ofNat
        ((a - 0xF0) * 262144 + (b - 0x80) * 4096 + (c - 0x80) * 64 + (d - 0x80))) =
      [UInt8.ofNat a, UInt8.ofNat b, UInt8.ofNat c, UInt8.ofNat d] := by
  generalize hn : (a - 0xF0) * 262144 + (b - 0x80) * 4096 + (c - 0x80) * 64 + (d - 0x80) = n
  have hv : (Char.ofNat n).val.toNat = n := toNat_ofNat (by unfold Nat.isValidChar; omega)
  have h1 : n / 262144 % 0x08 + 0xF0 = a := by omega
  have h2 : n / 4096 % 0x40 + 0x80 = b := by omega
  have h3 : n / 64 % 0x40 + 0x80 = c := by omega
  have h4 : n % 0x40 + 0x80 = d := by omega
  simp only [String.utf8EncodeChar, hv]
  rw [if_neg (by omega), if_neg (by omega), if_neg (by omega), h1, h2, h3, h4]

theorem isContinuation_iff {b : Nat} : isContinuation b = true ↔ 0x80 ≤ b ∧ b ≤ 0xBF := by
  simp [isContinuation]

theorem secondAllowed_iff {a b : Nat} : secondAllowed a b = true ↔
    (0x80 ≤ b ∧ b ≤ 0xBF) ∧ (a = 0xE0 → 0xA0 ≤ b) ∧ (a = 0xED → b ≤ 0x9F) ∧
      (a = 0xF0 → 0x90 ≤ b) ∧ (a = 0xF4 → b ≤ 0x8F) := by
  simp only [secondAllowed, beq_iff_eq]
  split_ifs <;> simp only [Bool.and_eq_true, decide_eq_true_eq] <;> omega

variable {bytes : ByteArray} {i a w : Nat} {c : Char}

theorem stepTwo_encodes (ha : 0xC2 ≤ a ∧ a ≤ 0xDF) (hi : byteAt bytes i = some a)
    (h : stepTwo bytes i a = .char c w) :
    bytesFrom bytes i = String.utf8EncodeChar c ++ bytesFrom bytes (i + w) := by
  rw [stepTwo] at h
  split at h
  · cases h
  · rename_i b hb
    split at h
    · rename_i hcont
      obtain ⟨rfl, rfl⟩ := Step.char.inj h
      rw [encode_two ha (isContinuation_iff.mp hcont), (bytesFrom_of_byteAt hi).2,
        (bytesFrom_of_byteAt hb).2]
      rfl
    · cases h

theorem stepThree_encodes (ha : 0xE0 ≤ a ∧ a ≤ 0xEF) (hi : byteAt bytes i = some a)
    (h : stepThree bytes i a = .char c w) :
    bytesFrom bytes i = String.utf8EncodeChar c ++ bytesFrom bytes (i + w) := by
  rw [stepThree] at h
  split at h
  · cases h
  · rename_i b hb
    split at h
    · cases h
    · rename_i hallowed
      obtain ⟨hcont, hlong, hsurrogate, -, -⟩ := secondAllowed_iff.mp (by simpa using hallowed)
      split at h
      · cases h
      · rename_i c hc
        split at h
        · rename_i hthird
          obtain ⟨rfl, rfl⟩ := Step.char.inj h
          rw [encode_three ha hcont hlong hsurrogate (isContinuation_iff.mp hthird),
            (bytesFrom_of_byteAt hi).2, (bytesFrom_of_byteAt hb).2, (bytesFrom_of_byteAt hc).2]
          rfl
        · cases h

theorem stepFour_encodes (ha : 0xF0 ≤ a ∧ a ≤ 0xF4) (hi : byteAt bytes i = some a)
    (h : stepFour bytes i a = .char c w) :
    bytesFrom bytes i = String.utf8EncodeChar c ++ bytesFrom bytes (i + w) := by
  rw [stepFour] at h
  split at h
  · cases h
  · rename_i b hb
    split at h
    · cases h
    · rename_i hallowed
      obtain ⟨hcont, -, -, hlong, hlast⟩ := secondAllowed_iff.mp (by simpa using hallowed)
      split at h
      · cases h
      · rename_i c hc
        split at h
        · cases h
        · rename_i hthird
          split at h
          · cases h
          · rename_i d hd
            split at h
            · rename_i hfourth
              obtain ⟨rfl, rfl⟩ := Step.char.inj h
              rw [encode_four ha hcont hlong hlast
                  (isContinuation_iff.mp (by simpa using hthird)) (isContinuation_iff.mp hfourth),
                (bytesFrom_of_byteAt hi).2, (bytesFrom_of_byteAt hb).2,
                (bytesFrom_of_byteAt hc).2, (bytesFrom_of_byteAt hd).2]
              rfl
            · cases h

theorem stepAt_encodes (hi : byteAt bytes i = some a) (h : stepAt bytes i a = .char c w) :
    bytesFrom bytes i = String.utf8EncodeChar c ++ bytesFrom bytes (i + w) := by
  simp only [stepAt, Bool.and_eq_true, decide_eq_true_eq] at h
  split_ifs at h with hone htwo hthree hfour
  · obtain ⟨rfl, rfl⟩ := Step.char.inj h
    rw [encode_one hone, (bytesFrom_of_byteAt hi).2]
    rfl
  · exact stepTwo_encodes htwo hi h
  · exact stepThree_encodes hthree hi h
  · exact stepFour_encodes hfour hi h

theorem decodeFrom_encodes {done text : List Char} (h : decodeFrom bytes i done = .ok text) :
    ∃ rest, text = done.reverse ++ rest ∧ bytesFrom bytes i = rest.flatMap String.utf8EncodeChar := by
  induction i, done using decodeFrom.induct bytes with
  | case1 i done hi c w hstep hw ih =>
    rw [decodeFrom, dif_pos hi] at h
    split at h
    · rename_i c' w' hstep'
      obtain ⟨rfl, rfl⟩ := Step.char.inj (hstep'.symm.trans hstep)
      obtain ⟨rest, htext, hrest⟩ := ih h
      refine ⟨c' :: rest, by simpa using htext, ?_⟩
      rw [stepAt_encodes (by simp [byteAt, hi]) hstep, hrest, List.flatMap_cons]
    · cases h
  | case2 i done hi n hbad =>
    rw [decodeFrom, dif_pos hi] at h
    split at h
    · rename_i hstep
      cases hbad.symm.trans hstep
    · cases h
  | case3 i done hi =>
    rw [decodeFrom, dif_neg hi] at h
    exact ⟨[], by simpa using (Except.ok.inj h).symm, bytesFrom_eq_nil hi⟩

theorem decode_encodes {text : List Char} (h : decode bytes = .ok text) :
    bytes.data.toList = text.flatMap String.utf8EncodeChar := by
  obtain ⟨rest, htext, hrest⟩ := decodeFrom_encodes h
  rw [htext]
  exact hrest

theorem byteAt_of_bytesFrom {b : UInt8} {rest : List UInt8} (h : bytesFrom bytes i = b :: rest) :
    byteAt bytes i = some b.toNat ∧ bytesFrom bytes (i + 1) = rest := by
  have hi : i < bytes.data.toList.length := by
    refine Nat.lt_of_not_le ?_
    intro hle
    rw [bytesFrom, List.drop_eq_nil_of_le hle] at h
    cases h
  rw [bytesFrom, List.drop_eq_getElem_cons hi, List.cons.injEq] at h
  obtain ⟨rfl, hrest⟩ := h
  exact ⟨dif_pos hi, hrest⟩

theorem toNat_ofNat_of_lt {n : Nat} (h : n < 256) : (UInt8.ofNat n).toNat = n := by
  simpa using h

theorem stepTwo_eq {b : Nat} (ha : 0xC2 ≤ a ∧ a ≤ 0xDF) (hb : byteAt bytes (i + 1) = some b)
    (hcont : 0x80 ≤ b ∧ b ≤ 0xBF) :
    stepAt bytes i a = .char (Char.ofNat ((a - 0xC0) * 64 + (b - 0x80))) 2 := by
  rw [stepAt, if_neg (by omega), if_pos (by simpa using ha), stepTwo, hb]
  exact if_pos (isContinuation_iff.mpr hcont)

theorem stepThree_eq {b d : Nat} (ha : 0xE0 ≤ a ∧ a ≤ 0xEF) (hb : byteAt bytes (i + 1) = some b)
    (hallowed : secondAllowed a b = true) (hd : byteAt bytes (i + 2) = some d)
    (hcont : 0x80 ≤ d ∧ d ≤ 0xBF) :
    stepAt bytes i a =
      .char (Char.ofNat ((a - 0xE0) * 4096 + (b - 0x80) * 64 + (d - 0x80))) 3 := by
  rw [stepAt, if_neg (by omega), if_neg (by simp; omega), if_pos (by simpa using ha), stepThree, hb]
  simp only [hallowed, hd, isContinuation_iff.mpr hcont]
  rfl

theorem stepFour_eq {b d e : Nat} (ha : 0xF0 ≤ a ∧ a ≤ 0xF4) (hb : byteAt bytes (i + 1) = some b)
    (hallowed : secondAllowed a b = true) (hd : byteAt bytes (i + 2) = some d)
    (hcont : 0x80 ≤ d ∧ d ≤ 0xBF) (he : byteAt bytes (i + 3) = some e)
    (hcont' : 0x80 ≤ e ∧ e ≤ 0xBF) :
    stepAt bytes i a = .char (Char.ofNat
      ((a - 0xF0) * 262144 + (b - 0x80) * 4096 + (d - 0x80) * 64 + (e - 0x80))) 4 := by
  rw [stepAt, if_neg (by omega), if_neg (by simp; omega), if_neg (by simp; omega),
    if_pos (by simpa using ha), stepFour, hb]
  simp only [hallowed, hd, isContinuation_iff.mpr hcont, he, isContinuation_iff.mpr hcont']
  rfl

theorem stepAt_encode (c : Char) {rest : List UInt8}
    (h : bytesFrom bytes i = String.utf8EncodeChar c ++ rest) :
    ∃ a w, byteAt bytes i = some a ∧ stepAt bytes i a = .char c w ∧
      bytesFrom bytes (i + w) = rest := by
  have hvalid : c.val.toNat.isValidChar := c.valid
  have hc : Char.ofNat c.val.toNat = c := Char.ofNat_toNat c
  generalize hv : c.val.toNat = v at hvalid hc
  simp only [String.utf8EncodeChar, hv] at h
  unfold Nat.isValidChar at hvalid
  split_ifs at h with hone htwo hthree
  · obtain ⟨ha, hrest⟩ := byteAt_of_bytesFrom h
    rw [toNat_ofNat_of_lt (by omega)] at ha
    refine ⟨v, 1, ha, ?_, hrest⟩
    rw [stepAt, if_pos (by omega), hc]
  · obtain ⟨ha, h⟩ := byteAt_of_bytesFrom h
    obtain ⟨hb, hrest⟩ := byteAt_of_bytesFrom h
    rw [toNat_ofNat_of_lt (by omega)] at ha hb
    refine ⟨_, 2, ha, ?_, hrest⟩
    have hsum : (v / 64 % 0x20 + 0xC0 - 0xC0) * 64 + (v % 0x40 + 0x80 - 0x80) = v := by omega
    rw [stepTwo_eq (by omega) hb (by omega), hsum, hc]
  · obtain ⟨ha, h⟩ := byteAt_of_bytesFrom h
    obtain ⟨hb, h⟩ := byteAt_of_bytesFrom h
    obtain ⟨hd, hrest⟩ := byteAt_of_bytesFrom h
    rw [toNat_ofNat_of_lt (by omega)] at ha hb hd
    refine ⟨_, 3, ha, ?_, hrest⟩
    have hsum : (v / 4096 % 0x10 + 0xE0 - 0xE0) * 4096 + (v / 64 % 0x40 + 0x80 - 0x80) * 64 +
        (v % 0x40 + 0x80 - 0x80) = v := by omega
    rw [stepThree_eq (by omega) hb (secondAllowed_iff.mpr (by omega)) hd (by omega), hsum, hc]
  · obtain ⟨ha, h⟩ := byteAt_of_bytesFrom h
    obtain ⟨hb, h⟩ := byteAt_of_bytesFrom h
    obtain ⟨hd, h⟩ := byteAt_of_bytesFrom h
    obtain ⟨he, hrest⟩ := byteAt_of_bytesFrom h
    rw [toNat_ofNat_of_lt (by omega)] at ha hb hd he
    refine ⟨_, 4, ha, ?_, hrest⟩
    have hsum : (v / 262144 % 0x08 + 0xF0 - 0xF0) * 262144 +
        (v / 4096 % 0x40 + 0x80 - 0x80) * 4096 + (v / 64 % 0x40 + 0x80 - 0x80) * 64 +
        (v % 0x40 + 0x80 - 0x80) = v := by omega
    rw [stepFour_eq (by omega) hb (secondAllowed_iff.mpr (by omega)) hd (by omega) he (by omega),
      hsum, hc]

theorem decodeFrom_encode (text : List Char) : ∀ {i : Nat} (done : List Char),
    bytesFrom bytes i = text.flatMap String.utf8EncodeChar →
      decodeFrom bytes i done = .ok (done.reverse ++ text) := by
  induction text with
  | nil =>
    intro i done h
    have hi : ¬ i < bytes.size := by
      intro hlt
      rw [bytesFrom, List.flatMap_nil, List.drop_eq_nil_iff] at h
      exact absurd hlt (Nat.not_lt.mpr h)
    rw [decodeFrom, dif_neg hi, List.append_nil]
  | cons c text ih =>
    intro i done h
    obtain ⟨a, w, ha, hstep, hrest⟩ := stepAt_encode c h
    rw [byteAt] at ha
    split at ha
    · rename_i hi
      obtain rfl := Option.some.inj ha
      rw [decodeFrom, dif_pos hi]
      split
      · rename_i c' w' hstep'
        obtain ⟨rfl, rfl⟩ := Step.char.inj (hstep'.symm.trans hstep)
        rw [ih _ hrest, List.reverse_cons, List.append_assoc]
        rfl
      · rename_i n hbad
        cases hbad.symm.trans hstep
    · cases ha

theorem decode_eq_ok_iff {text : List Char} :
    decode bytes = .ok text ↔ bytes.data.toList = text.flatMap String.utf8EncodeChar :=
  ⟨decode_encodes, fun h => decodeFrom_encode text [] h⟩

end PluginAgent.Utf8
