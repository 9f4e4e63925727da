import PluginAgent.Proofs.ArgumentTexts

namespace PluginAgent

open Text

namespace Packages

structure IsDeclarable (package : String) : Prop where
  ne_empty : package ≠ ""
  trimmed : Trimmed package.toList
  comma_not_mem : ',' ∉ package.toList

def declaredBy (value : String) : List String :=
  (parse? value).elim [] prefixes

variable {pieces others ts us : List (List Char)} {v w : String} {p : Packages}

theorem Tokens.append (h : Tokens pieces ts) (h' : Tokens others us) :
    Tokens (pieces ++ others) (ts ++ us) := by
  induction h with
  | nil => exact h'
  | blank hblank _ ih => exact .blank hblank ih
  | token hleft hright htoken hne _ ih => exact .token hleft hright htoken hne ih

theorem Tokens.self (h : ∀ t ∈ ts, Trimmed t ∧ t ≠ []) : Tokens ts ts := by
  induction ts with
  | nil => exact .nil
  | cons t rest ih =>
    obtain ⟨⟨htrimmed, hne⟩, hrest⟩ := List.forall_mem_cons.mp h
    have hnothing : AllBlank [] := nofun
    have htoken := Tokens.token hnothing hnothing htrimmed hne (ih hrest)
    rwa [List.nil_append, List.append_nil] at htoken

theorem Tokens.eq_nil_iff (h : Tokens pieces ts) : ts = [] ↔ ∀ piece ∈ pieces, AllBlank piece := by
  rw [tokens_iff.mp h]
  simp only [List.filter_eq_nil_iff, List.forall_mem_map, Bool.not_eq_true', Bool.not_eq_false,
    List.isEmpty_iff]
  exact forall₂_congr fun _ _ => ⟨allBlank_of_trim, trim_of_allBlank⟩

theorem Tokens.of_mem (h : Tokens pieces ts) {t : List Char} (ht : t ∈ ts) :
    t ≠ [] ∧ Trimmed t ∧ ∃ piece ∈ pieces, t ⊆ piece := by
  induction h with
  | nil => cases ht
  | @blank piece _ _ _ _ ih =>
    obtain ⟨hne, htrimmed, found, hmem, hsubset⟩ := ih ht
    exact ⟨hne, htrimmed, found, List.mem_cons_of_mem piece hmem, hsubset⟩
  | @token left token right _ _ hleft hright htoken hne _ ih =>
    rcases List.mem_cons.mp ht with rfl | ht
    · refine ⟨hne, htoken, _, List.mem_cons_self, ?_⟩
      exact fun c hc => List.mem_append_left _ (List.mem_append_right _ hc)
    · obtain ⟨hne, htrimmed, found, hmem, hsubset⟩ := ih ht
      exact ⟨hne, htrimmed, found, List.mem_cons_of_mem _ hmem, hsubset⟩

theorem tokensOf_iff_parted :
    TokensOf v ts ↔ ∃ pieces, Parted ',' v.toList pieces ∧ Tokens pieces ts := by
  constructor
  · rintro ⟨pieces, hne, hpieces, hvalue, h⟩
    exact ⟨pieces, ⟨hne, hpieces, hvalue⟩, h⟩
  · rintro ⟨pieces, ⟨hne, hpieces, hvalue⟩, h⟩
    exact ⟨pieces, hne, hpieces, hvalue, h⟩

theorem TokensOf.append (h : TokensOf v ts) (h' : TokensOf w us) :
    TokensOf (v ++ "," ++ w) (ts ++ us) := by
  obtain ⟨pieces, hpieces, h⟩ := tokensOf_iff_parted.mp h
  obtain ⟨others, hothers, h'⟩ := tokensOf_iff_parted.mp h'
  refine tokensOf_iff_parted.mpr ⟨pieces ++ others, ?_, h.append h'⟩
  rw [toList_append_comma]
  exact hpieces.append hothers

theorem TokensOf.unique (h : TokensOf v ts) (h' : TokensOf v us) : ts = us :=
  (tokensOf_iff.mp h).trans (tokensOf_iff.mp h').symm

theorem TokensOf.isDeclarable {prefixes : List String}
    (h : TokensOf v (prefixes.map String.toList)) : ∀ q ∈ prefixes, IsDeclarable q := by
  obtain ⟨pieces, hpieces, h⟩ := tokensOf_iff_parted.mp h
  intro q hq
  obtain ⟨hne, htrimmed, piece, hpiece, hsubset⟩ := h.of_mem (List.mem_map_of_mem hq)
  exact ⟨mt String.toList_eq_nil_iff.mpr hne, htrimmed,
    fun hcomma => hpieces.sep_not_mem piece hpiece (hsubset hcomma)⟩

theorem parse?_eq_some_iff :
    parse? v = some p ↔ TokensOf v (p.prefixes.map String.toList) ∧ p.prefixes ≠ [] := by
  constructor
  · intro h
    have htokens := tokensOf_iff.mpr (Eq.refl (tokens v.toList))
    by_cases hne : tokens v.toList = []
    · rw [parse?_of_blank (hne ▸ htokens)] at h
      cases h
    · obtain rfl := Option.some.inj ((parse?_of_tokens htokens hne).symm.trans h)
      exact ⟨by simpa using htokens, by simpa using hne⟩
  · rintro ⟨htokens, hne⟩
    have h := parse?_of_tokens htokens (by simpa using hne)
    simpa using h

theorem exists_parse?_iff (h : TokensOf v ts) : (∃ p, parse? v = some p) ↔ ts ≠ [] := by
  constructor
  · rintro ⟨p, hp⟩
    obtain ⟨htokens, hne⟩ := parse?_eq_some_iff.mp hp
    rw [h.unique htokens]
    simpa using hne
  · exact fun hne => ⟨_, parse?_of_tokens h hne⟩

theorem tokensOf_declaredBy (v : String) : TokensOf v ((declaredBy v).map String.toList) := by
  rw [declaredBy]
  cases h : parse? v with
  | some p => exact (parse?_eq_some_iff.mp h).1
  | none =>
    have htokens := tokensOf_iff.mpr (Eq.refl (tokens v.toList))
    have hnone : tokens v.toList = [] := by
      by_contra hne
      cases h.symm.trans (parse?_of_tokens htokens hne)
    rwa [hnone] at htokens

theorem declaredBy_append (v w : String) :
    declaredBy (v ++ "," ++ w) = declaredBy v ++ declaredBy w := by
  have h := (tokensOf_declaredBy v).append (tokensOf_declaredBy w)
  rw [← List.map_append] at h
  exact List.map_injective_iff.mpr (fun _ _ => String.toList_inj.mp)
    ((tokensOf_declaredBy _).unique h)

theorem parse?_display (hne : p.prefixes ≠ []) (h : ∀ q ∈ p.prefixes, IsDeclarable q) :
    parse? p.display = some p := by
  refine parse?_eq_some_iff.mpr ⟨tokensOf_iff_parted.mpr ⟨_, ?_, Tokens.self ?_⟩, hne⟩
  · refine ⟨by simpa using hne, ?_, String.toList_ofList⟩
    exact List.forall_mem_map.mpr fun q hq => (h q hq).comma_not_mem
  · refine List.forall_mem_map.mpr fun q hq => ⟨(h q hq).trimmed, ?_⟩
    exact mt String.toList_eq_nil_iff.mp (h q hq).ne_empty

theorem parse_by_tokens (v w : String) :
    ((∃ p, parse? v = some p) ↔
        ∃ pieces, Parted ',' v.toList pieces ∧ ∃ piece ∈ pieces, ¬AllBlank piece) ∧
      (∀ p, parse? v = some p → TokensOf v (p.prefixes.map String.toList) ∧
        (∀ q ∈ p.prefixes, IsDeclarable q) ∧ parse? p.display = some p) ∧
      declaredBy (v ++ "," ++ w) = declaredBy v ++ declaredBy w := by
  refine ⟨?_, fun p hp => ?_, declaredBy_append v w⟩
  · obtain ⟨pieces, hpieces, h⟩ := tokensOf_iff_parted.mp (tokensOf_declaredBy v)
    rw [exists_parse?_iff (tokensOf_declaredBy v), ne_eq, h.eq_nil_iff]
    constructor
    · intro hsome
      exact ⟨pieces, hpieces, by simpa using hsome⟩
    · rintro ⟨pieces', hpieces', hsome⟩
      obtain rfl := (parted_iff.mp hpieces).symm.trans (parted_iff.mp hpieces')
      simpa using hsome
  · obtain ⟨htokens, hne⟩ := parse?_eq_some_iff.mp hp
    exact ⟨htokens, htokens.isDeclarable, parse?_display hne htokens.isDeclarable⟩

example : parse? " org.zeta,, org.alpha " = some ⟨["org.zeta", "org.alpha"]⟩ := by
  decide

end Packages

end PluginAgent
