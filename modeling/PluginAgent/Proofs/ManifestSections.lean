import Mathlib.Data.List.TakeDrop
import Mathlib.Data.List.TakeWhile
import PluginAgent.Archive.Manifest

namespace PluginAgent.Text

def AllBlank (s : List Char) : Prop :=
  ∀ c ∈ s, isBlank c = true

theorem AllBlank.append {s t : List Char} (hs : AllBlank s) (ht : AllBlank t) :
    AllBlank (s ++ t) :=
  fun c hc => (List.mem_append.mp hc).elim (hs c) (ht c)

theorem trimStart_append {left s : List Char} (hleft : AllBlank left) :
    trimStart (left ++ s) = trimStart s :=
  List.dropWhile_append_of_pos hleft

theorem trimEnd_append {s right : List Char} (hright : AllBlank right) :
    trimEnd (s ++ right) = trimEnd s := by
  have hreverse : AllBlank right.reverse := fun c hc => hright c (List.mem_reverse.mp hc)
  rw [trimEnd, List.reverse_append, List.dropWhile_append_of_pos hreverse, trimEnd]

theorem exists_trimStart (s : List Char) : ∃ left, AllBlank left ∧ s = left ++ trimStart s :=
  ⟨s.takeWhile isBlank, fun _ hc => List.mem_takeWhile_imp hc, List.takeWhile_append_dropWhile.symm⟩

theorem exists_trimEnd (s : List Char) : ∃ right, AllBlank right ∧ s = trimEnd s ++ right := by
  obtain ⟨left, hleft, heq⟩ := exists_trimStart s.reverse
  refine ⟨left.reverse, fun c hc => hleft c (List.mem_reverse.mp hc), ?_⟩
  have hreverse := List.reverse_eq_iff.mp heq
  rwa [List.reverse_append] at hreverse

theorem head_trimStart {s : List Char} {c : Char} (h : (trimStart s).head? = some c) :
    isBlank c = false := by
  have hnot := List.head?_dropWhile_not isBlank s
  rw [show s.dropWhile isBlank = trimStart s from rfl, h] at hnot
  exact hnot

theorem last_trimEnd {s : List Char} {c : Char} (h : (trimEnd s).getLast? = some c) :
    isBlank c = false := by
  rw [trimEnd, List.getLast?_reverse] at h
  exact head_trimStart h

theorem cut?_eq_some_iff {sep : Char} {s before after : List Char} :
    cut? sep s = some (before, after) ↔ s = before ++ sep :: after ∧ sep ∉ before := by
  rw [cut?, List.span_eq_takeWhile_dropWhile]
  constructor
  · intro h
    split at h
    · rename_i front found rest hspan
      obtain ⟨rfl, rfl⟩ := Prod.mk.inj (Option.some.inj h)
      obtain ⟨hfront, hrest⟩ := Prod.mk.inj hspan
      have hfound : found = sep := by
        have hnot := List.head?_dropWhile_not (· != sep) s
        rw [hrest] at hnot
        simpa using hnot
      refine ⟨?_, fun hmem => ?_⟩
      · rw [← hfound, ← hrest, ← hfront, List.takeWhile_append_dropWhile]
      · rw [← hfront] at hmem
        simpa using List.mem_takeWhile_imp hmem
    · cases h
  · rintro ⟨rfl, hnot⟩
    have hall : ∀ c ∈ before, (c != sep) = true := by
      intro c hc
      exact bne_iff_ne.mpr fun heq => hnot (heq ▸ hc)
    rw [List.takeWhile_append_of_pos hall, List.dropWhile_append_of_pos hall]
    simp

end PluginAgent.Text

namespace PluginAgent.Manifest

open Text

structure IsName (name : List Char) : Prop where
  ne_nil : name ≠ []
  not_blank : ∀ c ∈ name, isBlank c = false
  no_colon : ':' ∉ name

/-- The lines are a main section, which ends with them or at an empty line. An attribute takes a
line and those that continue it. -/
inductive Reads : List (List Char) → List (String × String) → Prop
  | done : Reads [] []
  | blank (rest) : Reads ([] :: rest) []
  | named {name gap value rest attributes} {folded : List (List Char)} (hname : IsName name)
      (hgap : AllBlank gap) (h : Reads rest attributes) :
      Reads ((name ++ gap ++ ':' :: value) :: (folded.map (' ' :: ·) ++ rest))
        ((String.ofList name, String.ofList (withoutSpace value ++ folded.flatten)) :: attributes)

theorem isName_iff {name : List Char} :
    isName name = true ↔ name ≠ [] ∧ ∀ c ∈ name, isBlank c = false := by
  simp [isName]

theorem cut?_line_iff {line value : List Char} {name : List Char} :
    (∃ before, cut? ':' line = some (before, value) ∧ trimEnd before = name ∧
        isName name = true) ↔
      IsName name ∧ ∃ gap, AllBlank gap ∧ line = name ++ gap ++ ':' :: value := by
  constructor
  · rintro ⟨before, hcut, rfl, hname⟩
    obtain ⟨rfl, hcolon⟩ := cut?_eq_some_iff.mp hcut
    obtain ⟨hne, hblank⟩ := isName_iff.mp hname
    obtain ⟨gap, hgap, hbefore⟩ := exists_trimEnd before
    refine ⟨⟨hne, hblank, fun hmem => hcolon ?_⟩, gap, hgap, by rw [← hbefore]⟩
    rw [hbefore]
    exact List.mem_append_left _ hmem
  · rintro ⟨hname, gap, hgap, rfl⟩
    refine ⟨name ++ gap, cut?_eq_some_iff.mpr ⟨rfl, ?_⟩, ?_, isName_iff.mpr ⟨hname.1, hname.2⟩⟩
    · intro hmem
      rcases List.mem_append.mp hmem with hcolon | hcolon
      · exact hname.no_colon hcolon
      · exact absurd (hgap _ hcolon) (by decide)
    · rw [trimEnd_append hgap]
      exact trimEnd_eq_self fun c hc => hname.not_blank c (List.mem_of_getLast? hc)

variable {n : Nat} {done : List (String × String)} {m : Manifest} {rest : List (List Char)}

theorem parseLines_line {c : Char} {line : List Char} (hc : c ≠ ' ') :
    parseLines n done ((c :: line) :: rest) = .ok m ↔
      ∃ name gap value, IsName name ∧ AllBlank gap ∧ c :: line = name ++ gap ++ ':' :: value ∧
        parseLines (n + 1) ((String.ofList name, String.ofList (withoutSpace value)) :: done) rest =
          .ok m := by
  rw [parseLines]
  case x_3 => exact List.cons_ne_nil c line
  case x_4 | x_5 => simp [hc]
  constructor
  · intro h
    split at h
    · cases h
    · rename_i before value hcut
      split at h
      · rename_i hname
        obtain ⟨hname, gap, hgap, hline⟩ := cut?_line_iff.mp ⟨before, hcut, rfl, hname⟩
        exact ⟨_, gap, value, hname, hgap, hline, h⟩
      · cases h
  · rintro ⟨name, gap, value, hname, hgap, hline, h⟩
    obtain ⟨before, hcut, rfl, hok⟩ := cut?_line_iff.mpr ⟨hname, gap, hgap, hline⟩
    simp only [hcut, hok, if_true, h]

theorem Reads.eq_nil_of_blank {lines : List (List Char)} {attributes : List (String × String)}
    (h : Reads lines attributes) (hlines : lines = [] :: rest) : attributes = [] := by
  cases h with
  | done => rfl
  | blank => rfl
  | named => simp at hlines

theorem Reads.of_line {line : List Char} {attributes : List (String × String)}
    (h : Reads (line :: rest) attributes) (hline : line ≠ []) :
    ∃ (name gap value : List Char) (folded lines : List (List Char))
      (later : List (String × String)), IsName name ∧ AllBlank gap ∧
        line = name ++ gap ++ ':' :: value ∧ rest = folded.map (' ' :: ·) ++ lines ∧
        Reads lines later ∧ attributes = (String.ofList name,
          String.ofList (withoutSpace value ++ folded.flatten)) :: later := by
  cases h with
  | blank => exact absurd rfl hline
  | named hname hgap h => exact ⟨_, _, _, _, _, _, hname, hgap, rfl, rfl, h, rfl⟩

theorem Reads.head_ne_space {c : Char} {line : List Char} {attributes : List (String × String)}
    (h : Reads ((c :: line) :: rest) attributes) : c ≠ ' ' := by
  obtain ⟨name, gap, value, -, -, -, hname, -, hline, -⟩ := h.of_line (List.cons_ne_nil c line)
  obtain ⟨first, name, rfl⟩ := List.exists_cons_of_ne_nil hname.ne_nil
  obtain ⟨rfl, -⟩ := List.cons.inj hline
  rintro rfl
  exact absurd (hname.not_blank _ List.mem_cons_self) (by decide)

def Fresh (ls : List (List Char)) : Prop :=
  ∀ more rest, ls ≠ (' ' :: more) :: rest

def Continued (done : List (String × String)) (name : String) (value : List Char)
    (ls : List (List Char)) (m : Manifest) : Prop :=
  ∃ (folded later : List (List Char)) (attributes : List (String × String)),
    ls = folded.map (' ' :: ·) ++ later ∧ Reads later attributes ∧ m.attributes =
      done.reverse ++ (name, String.ofList (value ++ folded.flatten)) :: attributes

variable {name : String} {value : List Char} {ls : List (List Char)}

theorem continued_of_fresh (hfresh : Fresh ls) : Continued done name value ls m ↔
    ∃ attributes, Reads ls attributes ∧
      m.attributes = ((name, String.ofList value) :: done).reverse ++ attributes := by
  constructor
  · rintro ⟨folded, later, attributes, rfl, hreads, hm⟩
    cases folded with
    | nil => exact ⟨attributes, hreads, by simpa using hm⟩
    | cons more folded => exact absurd rfl (hfresh more _)
  · rintro ⟨attributes, hreads, hm⟩
    exact ⟨[], ls, attributes, rfl, hreads, by simpa using hm⟩

theorem continued_cons {more : List Char} : Continued done name value ((' ' :: more) :: rest) m ↔
    Continued done name (value ++ more) rest m := by
  constructor
  · rintro ⟨folded, later, attributes, hlines, hreads, hm⟩
    cases folded with
    | nil =>
      obtain rfl : (' ' :: more) :: rest = later := hlines
      exact absurd rfl hreads.head_ne_space
    | cons first folded =>
      obtain ⟨hline, rfl⟩ := List.cons.inj hlines
      obtain ⟨-, rfl⟩ := List.cons.inj hline
      exact ⟨folded, later, attributes, rfl, hreads, by simpa using hm⟩
  · rintro ⟨folded, later, attributes, rfl, hreads, hm⟩
    exact ⟨more :: folded, later, attributes, rfl, hreads, by simpa using hm⟩

theorem parseLines_fresh (hfresh : Fresh ls)
    (hrest : ∀ line rest, ls = line :: rest → ∀ n name value,
      parseLines n ((name, String.ofList value) :: done) rest = .ok m ↔
        Continued done name value rest m) :
    parseLines n done ls = .ok m ↔
      ∃ attributes, Reads ls attributes ∧ m.attributes = done.reverse ++ attributes := by
  have hend : Except.ok (ε := Flaw) ⟨done.reverse⟩ = .ok m ↔ m.attributes = done.reverse ++ [] := by
    obtain ⟨attributes⟩ := m
    simp [eq_comm]
  match ls with
  | [] =>
    rw [parseLines, hend]
    constructor
    · exact fun hm => ⟨[], .done, hm⟩
    · rintro ⟨attributes, ⟨⟩, hm⟩
      exact hm
  | [] :: rest =>
    rw [parseLines, hend]
    constructor
    · exact fun hm => ⟨[], .blank rest, hm⟩
    · rintro ⟨attributes, hreads, hm⟩
      obtain rfl := hreads.eq_nil_of_blank rfl
      exact hm
  | (c :: line) :: rest =>
    have hc : c ≠ ' ' := fun heq => hfresh line rest (heq ▸ rfl)
    rw [parseLines_line hc]
    constructor
    · rintro ⟨name, gap, value, hname, hgap, hline, h⟩
      obtain ⟨folded, later, attributes, rfl, hreads, hm⟩ := (hrest _ _ rfl _ _ _).mp h
      rw [hline]
      exact ⟨_, .named hname hgap hreads, hm⟩
    · rintro ⟨attributes, hreads, hm⟩
      obtain ⟨name, gap, value, folded, later, attributes, hname, hgap, hline, rfl, hlater, rfl⟩ :=
        hreads.of_line (List.cons_ne_nil c line)
      refine ⟨name, gap, value, hname, hgap, hline, (hrest _ _ rfl _ _ _).mpr ?_⟩
      exact ⟨folded, later, attributes, rfl, hlater, hm⟩

theorem parseLines_within :
    parseLines n ((name, String.ofList value) :: done) ls = .ok m ↔
      Continued done name value ls m := by
  induction ls generalizing n done name value with
  | nil =>
    have hfresh : Fresh [] := by simp [Fresh]
    rw [parseLines_fresh hfresh (by simp), continued_of_fresh hfresh]
  | cons line rest ih =>
    by_cases hfresh : Fresh (line :: rest)
    · rw [continued_of_fresh hfresh]
      refine parseLines_fresh hfresh ?_
      rintro _ _ ⟨⟩ n name value
      exact ih
    · obtain ⟨more, rest, ⟨⟩⟩ : ∃ more rest', line :: rest = (' ' :: more) :: rest' := by
        simpa [Fresh] using hfresh
      rw [parseLines, ← String.ofList_append, ih, continued_cons]

theorem parse_eq_ok_iff {text : List Char} :
    parse text = .ok m ↔ Reads (lines (withoutMark text)) m.attributes := by
  rw [parse]
  generalize lines (withoutMark text) = ls
  by_cases hfresh : Fresh ls
  · rw [parseLines_fresh hfresh fun _ _ _ _ _ _ => parseLines_within]
    simp
  · obtain ⟨more, rest, rfl⟩ : ∃ more rest, ls = (' ' :: more) :: rest := by
      simpa [Fresh] using hfresh
    refine iff_of_false ?_ fun h => h.head_ne_space rfl
    rw [parseLines]
    exact nofun

theorem withoutMark_of_ne {text : List Char} (h : text.head? ≠ some byteOrderMark) :
    withoutMark text = text := by
  cases text with
  | nil => rfl
  | cons c text => exact if_neg fun hc => h (congrArg some hc)

end PluginAgent.Manifest
