import PluginAgent.Proofs.ClassResources
import PluginAgent.Text.CharacterClass

namespace PluginAgent

open Text

namespace ClassName

def IsDecimal (c : Char) : Prop :=
  '0' ≤ c ∧ c ≤ '9'

def IsStart (c : Char) : Prop :=
  ('A' ≤ c ∧ c ≤ 'Z' ∨ 'a' ≤ c ∧ c ≤ 'z') ∨ c = '_' ∨ c = '$'

inductive Segment : List Char → Prop
  | mk {first rest} (hfirst : IsStart first) (hrest : ∀ c ∈ rest, IsStart c ∨ IsDecimal c) :
      Segment (first :: rest)

structure Dotted (name : List Char) (segments : List (List Char)) : Prop where
  ne_nil : segments ≠ []
  eq_joinWith : name = joinWith ['.'] segments
  segment : ∀ s ∈ segments, Segment s

inductive Flawed : List Char → String → Prop
  | empty : Flawed [] "name must not contain an empty segment"
  | digit {first rest} (h : IsDecimal first) :
      Flawed (first :: rest) "segment must not start with a digit"
  | character {first rest c} (hfirst : ¬IsDecimal first) (hmem : c ∈ first :: rest)
      (hc : ¬(IsStart c ∨ IsDecimal c)) :
      Flawed (first :: rest) "segments may only contain ASCII alphanumerics, '_' and '$'"

inductive Refused : List Char → String → Prop
  | empty : Refused [] "name must not be empty"
  | part {name before part after reason} (hne : name ≠ [])
      (hparts : Parted '.' name (before ++ part :: after)) (hbefore : ∀ s ∈ before, Segment s)
      (h : Flawed part reason) : Refused name reason

variable {c : Char} {name part : List Char} {reason : String}

theorem isDigit_iff : c.isDigit = true ↔ IsDecimal c := by
  have hrange : c.isDigit = (decide ('0' ≤ c) && decide (c ≤ '9')) := rfl
  simp [hrange, IsDecimal]

theorem isNameChar_iff : isNameChar c = true ↔ IsStart c ∨ IsDecimal c := by
  simp only [isNameChar, Bool.or_eq_true, beq_iff_eq, isAlphanum_iff, IsStart, IsDecimal]
  tauto

theorem IsStart.not_isDecimal (h : IsStart c) : ¬IsDecimal c := by
  rintro ⟨hfrom, hto⟩
  simp only [IsStart, Char.le_def, UInt32.le_iff_toNat_le] at *
  rcases h with (⟨h, -⟩ | ⟨h, -⟩) | rfl | rfl
  · exact absurd (h.trans hto) (by decide)
  · exact absurd (h.trans hto) (by decide)
  · exact absurd hto (by decide)
  · exact absurd hfrom (by decide)

theorem segment_iff : Segment part ↔ segmentFlaw? part = none := by
  rw [segmentFlaw?_eq_none_iff]
  constructor
  · rintro ⟨hfirst, hrest⟩
    refine ⟨⟨List.cons_ne_nil _ _, fun c hc => isNameChar_iff.mpr ?_⟩, ?_⟩
    · rcases List.mem_cons.mp hc with rfl | hc
      · exact .inl hfirst
      · exact hrest c hc
    · rintro _ ⟨⟩
      exact Bool.eq_false_iff.mpr (mt isDigit_iff.mp hfirst.not_isDecimal)
  · rintro ⟨hsegment, hdigit⟩
    obtain ⟨first, rest, rfl⟩ := List.exists_cons_of_ne_nil hsegment.ne_nil
    obtain ⟨hfirst, hrest⟩ := List.forall_mem_cons.mp fun c hc =>
      isNameChar_iff.mp (hsegment.chars c hc)
    have hnone : ¬IsDecimal first := mt isDigit_iff.mpr (Bool.eq_false_iff.mp (hdigit first rfl))
    exact .mk (hfirst.resolve_right hnone) hrest

theorem isName_iff : IsName name ↔ ∃ segments, Dotted name segments := by
  constructor
  · rintro ⟨segments, hne, hname, hsegments⟩
    exact ⟨segments, hne, hname, fun s hs =>
      segment_iff.mpr (segmentFlaw?_eq_none_iff.mpr (hsegments s hs))⟩
  · rintro ⟨segments, hne, hname, hsegments⟩
    exact ⟨segments, hne, hname, fun s hs =>
      segmentFlaw?_eq_none_iff.mp (segment_iff.mp (hsegments s hs))⟩

theorem flawed_iff :
    Flawed part reason ↔ ∃ flaw, segmentFlaw? part = some flaw ∧ flaw.reason = reason := by
  constructor
  · intro h
    cases h with
    | empty => exact ⟨.emptySegment, rfl, rfl⟩
    | digit h => exact ⟨.leadingDigit, by rw [segmentFlaw?, if_pos (isDigit_iff.mpr h)], rfl⟩
    | @character first rest c hfirst hmem hc =>
      have hchars : ¬(first :: rest).all isNameChar = true := fun hall =>
        hc (isNameChar_iff.mp (List.all_eq_true.mp hall c hmem))
      refine ⟨.badCharacter, ?_, rfl⟩
      rw [segmentFlaw?, if_neg (mt isDigit_iff.mp hfirst), if_neg hchars]
  · rintro ⟨flaw, hflaw, rfl⟩
    cases part with
    | nil =>
      obtain rfl := Option.some.inj hflaw
      exact .empty
    | cons first rest =>
      rw [segmentFlaw?] at hflaw
      split at hflaw
      · rename_i hdigit
        obtain rfl := Option.some.inj hflaw
        exact .digit (isDigit_iff.mp hdigit)
      split at hflaw
      · cases hflaw
      · rename_i hdigit hchars
        obtain rfl := Option.some.inj hflaw
        simp only [List.all_eq_true, not_forall, exists_prop] at hchars
        obtain ⟨c, hmem, hc⟩ := hchars
        exact .character (mt isDigit_iff.mpr hdigit) hmem (mt isNameChar_iff.mpr hc)

theorem refused_iff :
    Refused name reason ↔ ∃ flaw, flaw? name = some flaw ∧ flaw.reason = reason := by
  constructor
  · intro h
    cases h with
    | empty => exact ⟨.empty, rfl, rfl⟩
    | part hne hparts hbefore h =>
      obtain ⟨flaw, hflaw, hreason⟩ := flawed_iff.mp h
      refine ⟨flaw, ?_, hreason⟩
      rw [flaw?, if_neg (mt List.isEmpty_iff.mp hne), parted_iff.mp hparts,
        List.findSome?_eq_some_iff]
      exact ⟨_, _, _, rfl, hflaw, fun s hs => segment_iff.mp (hbefore s hs)⟩
  · rintro ⟨flaw, hflaw, rfl⟩
    rw [flaw?] at hflaw
    split at hflaw
    · rename_i hempty
      obtain rfl := Option.some.inj hflaw
      obtain rfl := List.isEmpty_iff.mp hempty
      exact .empty
    · rename_i hempty
      obtain ⟨before, part, after, hparts, hpart, hbefore⟩ :=
        List.findSome?_eq_some_iff.mp hflaw
      exact .part (mt List.isEmpty_iff.mpr hempty) (parted_iff.mpr hparts)
        (fun s hs => segment_iff.mpr (hbefore s hs)) (flawed_iff.mpr ⟨flaw, hpart, rfl⟩)

theorem exists_ofString_iff {name : String} :
    (∃ c, ofString name = .ok c) ↔ ∃ segments, Dotted name.toList segments := by
  rw [← isName_iff]
  constructor
  · rintro ⟨c, hc⟩
    rw [← ofString_ok_iff.mp hc]
    exact flaw?_eq_none_iff.mp c.flawless
  · intro h
    obtain ⟨c, hc⟩ := exists_of_isName h
    exact ⟨c, ofString_ok_iff.mpr (String.toList_inj.mp hc)⟩

theorem Dotted.parted {segments : List (List Char)} (h : Dotted name segments) :
    Parted '.' name segments := by
  refine ⟨h.ne_nil, fun s hs => ?_, h.eq_joinWith⟩
  have hsegment := (segmentFlaw?_eq_none_iff.mp (segment_iff.mp (h.segment s hs))).1
  exact hsegment.not_mem (by decide)

theorem named_by_grammar (name : String) :
    ((∃ c, ofString name = .ok c) ↔ ∃ segments, Dotted name.toList segments) ∧
      (∀ reason, (∃ flaw, ofString name = .error flaw ∧ flaw.reason = reason) ↔
        Refused name.toList reason) ∧
      ∀ c, ofString name = .ok c →
        (∀ segments, Dotted name.toList segments →
          c.entryPath.toList = joinWith ['/'] segments ++ ".class".toList) ∧
        Namespaces.classOfEntry? c.entryPath.toList = some name ∧
        ∀ other : ClassName, other.entryPath = c.entryPath ↔ other.text = name := by
  refine ⟨exists_ofString_iff, fun reason => ?_, fun c hc => ?_⟩
  · rw [refused_iff]
    exact exists_congr fun flaw => and_congr_left fun _ => ofString_error_iff
  · obtain rfl := ofString_ok_iff.mp hc
    refine ⟨fun segments h => ?_, c.classOfEntry?_entryPath, fun other => ?_⟩
    · rw [toList_entryPath, parted_iff.mp h.parted]
      rfl
    · rw [entryPath_inj, text_inj]

example : ofString "com.example.9.a b" = .error .leadingDigit := by
  decide

end ClassName

end PluginAgent
