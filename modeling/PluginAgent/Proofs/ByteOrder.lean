import PluginAgent.Proofs.EntryPaths

namespace PluginAgent.Utf8

theorem utf8EncodeChar_append_lt {c d : Char} (h : c < d) (s t : List UInt8) :
    String.utf8EncodeChar c ++ s < String.utf8EncodeChar d ++ t := by
  have hlt : c.val.toNat < d.val.toNat := h
  have hvalid : c.val.toNat.isValidChar := c.valid
  have hvalid' : d.val.toNat.isValidChar := d.valid
  generalize hv : c.val.toNat = v at hlt hvalid
  generalize hw : d.val.toNat = w at hlt hvalid'
  unfold Nat.isValidChar at hvalid hvalid'
  -- Every byte behind the first one has the next six bits.
  have hfour (n : Nat) : n / 262144 = n / 64 / 64 / 64 := by omega
  have hthree (n : Nat) : n / 4096 = n / 64 / 64 := by omega
  simp only [String.utf8EncodeChar, hv, hw]
  split_ifs <;> simp (disch := omega) only [List.cons_append, List.nil_append,
    List.cons_lt_cons_iff, UInt8.lt_iff_toNat_lt, ← UInt8.toNat_inj, UInt8.toNat_ofNat',
    Nat.mod_eq_of_lt, hfour, hthree]
  all_goals omega

theorem encode_lt_encode {s t : List Char} (h : s < t) : encode s < encode t := by
  induction h with
  | nil =>
    rename_i c rest
    obtain ⟨b, others, hchar⟩ := List.exists_cons_of_ne_nil (String.utf8EncodeChar_ne_nil (c := c))
    rw [encode_cons, hchar]
    exact List.nil_lt_cons _ _
  | rel hless =>
    rw [encode_cons, encode_cons]
    exact utf8EncodeChar_append_lt hless _ _
  | cons _ ih =>
    rw [encode_cons, encode_cons]
    exact List.append_left_lt ih

theorem lt_iff_bytes_lt {s t : String} :
    s < t ↔ s.toUTF8.data.toList < t.toUTF8.data.toList := by
  rw [toUTF8_eq_encode, toUTF8_eq_encode]
  refine ⟨encode_lt_encode, fun h => ?_⟩
  refine Decidable.byContradiction fun hnot => ?_
  rcases Decidable.em (t = s) with rfl | hne
  · exact List.lt_irrefl _ h
  · have hless : t < s := Std.lt_of_le_of_ne (String.not_lt.mp hnot) hne
    exact List.lt_irrefl _ (List.lt_trans h (encode_lt_encode hless))

end PluginAgent.Utf8
