import PluginAgent.Proofs.DeclaredScopes
import PluginAgent.Proofs.Lines

namespace PluginAgent

open Text

namespace Text

def SameLetter (c d : Char) : Prop :=
  c = d ∨ ∃ k < 26, c.toNat = 65 + k ∧ d.toNat = 97 + k ∨ d.toNat = 65 + k ∧ c.toNat = 97 + k

theorem toNat_toLower (c : Char) :
    c.toLower.toNat = if 65 ≤ c.toNat ∧ c.toNat ≤ 90 then c.toNat + 32 else c.toNat := by
  by_cases hupper : c.val ≥ 'A'.val ∧ c.val ≤ 'Z'.val
  · have hlower : c.toLower = ⟨c.val + ('a'.val - 'A'.val), _⟩ := dif_pos hupper
    have hbounds : 65 ≤ c.toNat ∧ c.toNat ≤ 90 := hupper
    have hshift : ('a'.val - 'A'.val).toNat = 32 := rfl
    rw [if_pos hbounds, hlower]
    change (c.val + ('a'.val - 'A'.val)).toNat = c.val.toNat + 32
    rw [UInt32.toNat_add, hshift, Nat.mod_eq_of_lt]
    exact Nat.lt_of_le_of_lt (Nat.add_le_add_right hbounds.2 32) (by decide)
  · have hsame : c.toLower = c := dif_neg hupper
    have hbounds : ¬ (65 ≤ c.toNat ∧ c.toNat ≤ 90) := hupper
    rw [if_neg hbounds, hsame]

theorem toLower_eq_iff {c d : Char} : c.toLower = d.toLower ↔ SameLetter c d := by
  rw [SameLetter, ← Char.toNat_inj, ← Char.toNat_inj, toNat_toLower, toNat_toLower]
  constructor
  · intro h
    split at h <;> split at h
    · exact .inl (by omega)
    · exact .inr ⟨c.toNat - 65, by omega, .inl (by omega)⟩
    · exact .inr ⟨d.toNat - 65, by omega, .inr (by omega)⟩
    · exact .inl h
  · rintro (h | ⟨k, hk, ⟨hc, hd⟩ | ⟨hd, hc⟩⟩)
    · rw [h]
    · rw [if_pos (by omega), if_neg (by omega)]
      omega
    · rw [if_neg (by omega), if_pos (by omega)]
      omega

theorem sameIgnoringCase_iff {s t : String} :
    sameIgnoringCase s t = true ↔ List.Forall₂ SameLetter s.toList t.toList := by
  rw [sameIgnoringCase, beq_iff_eq, ← List.forall₂_eq_eq_eq, List.forall₂_map_left_iff,
    List.forall₂_map_right_iff]
  simp only [toLower_eq_iff]

end Text

namespace Manifest

/-- The value of an attribute as it is written: cut into pieces, of which all but the first stand on
lines of their own behind one space. -/
inductive Folds : List Char → List Char → Prop
  | last (piece : List Char) (e : LineEnd) : Folds piece (piece ++ e.text)
  | fold (piece : List Char) (e : LineEnd) {value text : List Char} (h : Folds value text) :
      Folds (piece ++ value) (piece ++ e.text ++ ' ' :: text)

inductive Written : List (String × String) → List Char → Prop
  | nil : Written [] []
  | named {name value : String} {attributes : List (String × String)} {text rest : List Char}
      (hvalue : Folds value.toList text) (h : Written attributes rest) :
      Written ((name, value) :: attributes) (name.toList ++ ':' :: ' ' :: text ++ rest)

inductive Ends : List Char → Prop
  | nothing : Ends []
  | blank (e : LineEnd) (more : List Char) : Ends (e.text ++ more)

theorem Folds.lines_eq {value text : List Char} (h : Folds value text) (hvalue : Unbroken value) :
    ∃ (first : List Char) (folded : List (List Char)), value = first ++ folded.flatten ∧
      ∀ front, Unbroken front → ∀ rest, lines (front ++ text ++ rest) =
        (front ++ first) :: (folded.map (' ' :: ·) ++ lines rest) := by
  induction h with
  | last piece e =>
    refine ⟨piece, [], by simp, fun front hfront rest => ?_⟩
    rw [← List.append_assoc, lines_unbroken (unbroken_append.mpr ⟨hfront, hvalue⟩)]
    rfl
  | @fold piece e value text _ ih =>
    obtain ⟨hpiece, hvalue⟩ := unbroken_append.mp hvalue
    obtain ⟨first, folded, rfl, hlines⟩ := ih hvalue
    refine ⟨piece, first :: folded, by simp, fun front hfront rest => ?_⟩
    have hspace : Unbroken [' '] := by simp [Unbroken]
    calc
      lines (front ++ (piece ++ e.text ++ ' ' :: text) ++ rest)
          = lines (front ++ piece ++ e.text ++ ([' '] ++ text ++ rest)) := by simp
      _ = (front ++ piece) :: lines ([' '] ++ text ++ rest) :=
          lines_unbroken (unbroken_append.mpr ⟨hfront, hpiece⟩) e _
      _ = _ := by rw [hlines [' '] hspace rest]; rfl

theorem isName_of {name : List Char} (hname : isName name = true) (hcolon : ':' ∉ name) :
    IsName name :=
  ⟨(isName_iff.mp hname).1, (isName_iff.mp hname).2, hcolon⟩

theorem IsName.unbroken {name : List Char} (h : IsName name) : Unbroken name :=
  ⟨fun hmem => absurd (h.not_blank _ hmem) (by decide),
    fun hmem => absurd (h.not_blank _ hmem) (by decide)⟩

theorem Ends.reads {tail : List Char} (h : Ends tail) : Reads (lines tail) [] := by
  cases h with
  | nothing => exact .done
  | blank e more =>
    have hempty : Unbroken [] := by simp [Unbroken]
    have hlines := lines_unbroken hempty e more
    rw [List.nil_append] at hlines
    rw [hlines]
    exact .blank _

variable {attributes : List (String × String)} {text tail : List Char}

theorem Written.reads (h : Written attributes text) (hnames : ∀ a ∈ attributes, IsName a.1.toList)
    (hvalues : ∀ a ∈ attributes, Unbroken a.2.toList) (htail : Ends tail) :
    Reads (lines (text ++ tail)) attributes := by
  induction h with
  | nil => exact htail.reads
  | @named name value attributes text rest hfolds _ ih =>
    obtain ⟨hname, hnames⟩ := List.forall_mem_cons.mp hnames
    obtain ⟨hvalue, hvalues⟩ := List.forall_mem_cons.mp hvalues
    obtain ⟨first, folded, hcut, hlines⟩ := hfolds.lines_eq hvalue
    have hfront : Unbroken (name.toList ++ [':', ' ']) :=
      unbroken_append.mpr ⟨hname.unbroken, by simp [Unbroken]⟩
    have hgap : AllBlank [] := fun _ hc => absurd hc List.not_mem_nil
    have hreads := @Reads.named name.toList [] (' ' :: first) _ _ folded hname hgap
      (ih hnames hvalues)
    have htext := hlines _ hfront (rest ++ tail)
    simp only [List.append_assoc, List.cons_append, List.nil_append] at htext hreads ⊢
    rw [htext]
    rwa [withoutSpace, ← hcut, String.ofList_toList, String.ofList_toList] at hreads

theorem Ends.unmarked (h : Ends tail) : tail.head? ≠ some byteOrderMark := by
  cases h with
  | nothing => simp
  | blank e more => cases e <;> simp [LineEnd.text] <;> decide

theorem Written.unmarked (h : Written attributes text)
    (hnames : ∀ a ∈ attributes, IsName a.1.toList)
    (hfirst : ∀ a, attributes.head? = some a → a.1.toList.head? ≠ some byteOrderMark)
    (htail : Ends tail) : (text ++ tail).head? ≠ some byteOrderMark := by
  cases h with
  | nil => exact htail.unmarked
  | @named name value attributes text rest hfolds _ =>
    have hname := (hnames _ List.mem_cons_self).ne_nil
    have hunmarked := hfirst (name, value) rfl
    rwa [List.append_assoc, List.append_assoc, List.head?_append_of_ne_nil _ hname]

theorem parse_written (hnames : ∀ a ∈ attributes, IsName a.1.toList)
    (hfirst : ∀ a, attributes.head? = some a → a.1.toList.head? ≠ some byteOrderMark)
    (hvalues : ∀ a ∈ attributes, Unbroken a.2.toList) (h : Written attributes text)
    (htail : Ends tail) :
    parse (text ++ tail) = .ok ⟨attributes⟩ ∧
      parse (byteOrderMark :: (text ++ tail)) = .ok ⟨attributes⟩ ∧
      ∀ name value, get? ⟨attributes⟩ name = some value ↔
        ∃ before spelling after, attributes = before ++ (spelling, value) :: after ∧
          List.Forall₂ SameLetter spelling.toList name.toList ∧
          ∀ a ∈ before, ¬ List.Forall₂ SameLetter a.1.toList name.toList := by
  have hreads := h.reads hnames hvalues htail
  refine ⟨?_, ?_, fun name value => ?_⟩
  · rw [parse_eq_ok_iff, withoutMark_of_ne (h.unmarked hnames hfirst htail)]
    exact hreads
  · rw [parse_eq_ok_iff, withoutMark, if_pos rfl]
    exact hreads
  · rw [get?_eq_some_iff, First]
    simp only [← sameIgnoringCase_iff, Bool.not_eq_true]

def twice : List (String × String) :=
  [("Scope", "a b: c"), ("scope", "")]

def twiceFolded : String :=
  "Scope: a\r\n \n  b: c\nscope: \r\n"

theorem written_twice : Written twice twiceFolded.toList := by
  have hfirst := Folds.fold ['a'] .crlf (.fold [] .lf (.last [' ', 'b', ':', ' ', 'c'] .lf))
  have hsecond := Folds.last "".toList .crlf
  have hvalue : ['a'] ++ ([] ++ [' ', 'b', ':', ' ', 'c']) = "a b: c".toList := by decide
  rw [hvalue] at hfirst
  have hwritten : Written twice _ := .named hfirst (.named hsecond .nil)
  simpa [LineEnd.text, twiceFolded] using hwritten

theorem twice_read :
    parse (byteOrderMark :: (twiceFolded.toList ++ '\n' :: "no attribute".toList)) = .ok ⟨twice⟩ ∧
      get? ⟨twice⟩ "SCOPE" = some "a b: c" := by
  have hupper : IsName "Scope".toList := isName_of (by decide) (by decide)
  have hlower : IsName "scope".toList := isName_of (by decide) (by decide)
  have hnames : ∀ a ∈ twice, IsName a.1.toList := by
    simp only [twice, List.forall_mem_cons]
    exact ⟨hupper, hlower, nofun⟩
  have hfirst : ∀ a, twice.head? = some a → a.1.toList.head? ≠ some byteOrderMark := by
    rintro a ⟨⟩
    decide
  have hvalues : ∀ a ∈ twice, Unbroken a.2.toList := by
    simp only [twice, List.forall_mem_cons]
    exact ⟨⟨by decide, by decide⟩, ⟨by decide, by decide⟩, nofun⟩
  obtain ⟨-, hmarked, hlookup⟩ := parse_written hnames hfirst hvalues written_twice
    (Ends.blank .lf "no attribute".toList)
  refine ⟨hmarked, (hlookup _ _).mpr ⟨[], "Scope", [("scope", "")], rfl, ?_, nofun⟩⟩
  exact sameIgnoringCase_iff.mp (by decide)

end Manifest

end PluginAgent
