import Mathlib.Logic.Relation
import PluginAgent.Proofs.DraftTexts

namespace PluginAgent

open Text

theorem eraseDups_append_of_subset {α : Type} [BEq α] [LawfulBEq α] {first again : List α}
    (h : ∀ a ∈ again, a ∈ first) (rest : List α) :
    (first ++ again ++ rest).eraseDups = (first ++ rest).eraseDups := by
  have hagain : again.removeAll first = [] := by
    simpa [List.removeAll, List.filter_eq_nil_iff] using h
  rw [List.append_assoc, List.eraseDups_append, List.eraseDups_append]
  simp only [List.removeAll, List.filter_append] at hagain ⊢
  rw [hagain, List.nil_append]

theorem eraseDups_append_eq_self {α : Type} [BEq α] [LawfulBEq α] {first again : List α}
    (h : ∀ a ∈ again, a ∈ first) : (first ++ again).eraseDups = first.eraseDups := by
  simpa using eraseDups_append_of_subset h []

theorem pairwise_eraseDups {α : Type} [BEq α] [LawfulBEq α] (l : List α) :
    l.eraseDups.Pairwise (l.idxOf · < l.idxOf ·) := by
  induction l using List.reverseRecOn with
  | nil => exact .nil
  | append_singleton l a ih =>
    have hfirst {b : α} (hb : b ∈ l.eraseDups) : (l ++ [a]).idxOf b = l.idxOf b :=
      List.idxOf_append_of_mem (List.mem_eraseDups.mp hb)
    have hkept : l.eraseDups.Pairwise ((l ++ [a]).idxOf · < (l ++ [a]).idxOf ·) :=
      ih.imp_of_mem fun hb hc hlt => by rwa [hfirst hb, hfirst hc]
    rw [eraseDups_concat]
    split
    · rwa [List.append_nil]
    · rename_i hnew
      refine List.pairwise_append.mpr ⟨hkept, List.pairwise_singleton _ _, fun b hb c hc => ?_⟩
      obtain rfl := List.mem_singleton.mp hc
      rw [hfirst hb, List.idxOf_append_of_notMem (by simpa using hnew), List.idxOf_cons_self]
      exact Nat.lt_of_lt_of_le (List.idxOf_lt_length_of_mem (List.mem_eraseDups.mp hb))
        (Nat.le_add_right _ _)

namespace Descriptor

def Bears (line name : List Char) : Prop :=
  ∃ front comment, line = front ++ comment ∧ '#' ∉ front ∧
    (∀ c, comment.head? = some c → c = '#') ∧ Trims front name

def uncommented (line : List Char) : List Char :=
  line.takeWhile (· != '#')

theorem mark_not_mem_blank {s : List Char} (h : AllBlank s) : '#' ∉ s :=
  fun hmem => absurd (h _ hmem) (by decide)

theorem uncommented_append {front : List Char} (h : '#' ∉ front) (line : List Char) :
    uncommented (front ++ line) = front ++ uncommented line :=
  List.takeWhile_append_of_pos fun _ hc => bne_iff_ne.mpr fun heq => h (heq ▸ hc)

theorem uncommented_eq_self {line : List Char} (h : '#' ∉ line) : uncommented line = line := by
  simpa [uncommented] using uncommented_append h []

theorem clean_eq (line : List Char) : clean line = trim (uncommented line) := by
  by_cases hmark : '#' ∈ line
  · obtain ⟨before, _, rfl, hbefore⟩ := List.eq_append_cons_of_mem hmark
    rw [clean, cut?_eq_some_iff.mpr ⟨rfl, hbefore⟩, uncommented_append hbefore]
    simp [uncommented]
  · rw [clean, cut?_eq_none hmark, uncommented_eq_self hmark]

theorem clean_eq_iff {line name : List Char} : clean line = name ↔ Bears line name := by
  rw [clean_eq]
  constructor
  · intro h
    refine ⟨uncommented line, line.dropWhile (· != '#'), ?_, ?_, ?_, trim_eq_iff.mp h⟩
    · exact List.takeWhile_append_dropWhile.symm
    · intro hmem
      simpa using List.mem_takeWhile_imp hmem
    · intro c hc
      have hmark := List.head?_dropWhile_not (· != '#') line
      rw [hc] at hmark
      simpa using hmark
  · rintro ⟨front, comment, rfl, hfront, hcomment, htrim⟩
    have hnone : uncommented comment = [] := by
      cases comment with
      | nil => rfl
      | cons _ rest =>
        obtain rfl := hcomment _ rfl
        rfl
    rw [uncommented_append hfront, hnone, List.append_nil]
    exact trim_eq_iff.mpr htrim

theorem clean_append (line : List Char) {behind : List Char} (h : Bears behind []) :
    clean (line ++ behind) = clean line := by
  rw [← clean_eq_iff, clean_eq] at h
  rw [clean_eq, clean_eq]
  by_cases hmark : '#' ∈ line
  · obtain ⟨before, after, rfl, hbefore⟩ := List.eq_append_cons_of_mem hmark
    rw [List.append_assoc, uncommented_append hbefore, uncommented_append hbefore]
    rfl
  · rw [uncommented_append hmark, uncommented_eq_self hmark,
      trim_append_blank _ (allBlank_of_trim h)]

theorem clean_blank_append {ahead : List Char} (h : AllBlank ahead) (line : List Char) :
    clean (ahead ++ line) = clean line := by
  rw [clean_eq, clean_eq, uncommented_append (mark_not_mem_blank h), trim_blank_append h]

inductive Names : List (List Char) → List (List Char) → Prop
  | nil : Names [] []
  | skip {line rest names} (hline : Bears line []) (h : Names rest names) :
      Names (line :: rest) names
  | name {line name rest names} (hline : Bears line name) (hne : name ≠ [])
      (h : Names rest names) : Names (line :: rest) (name :: names)

def named (ls : List (List Char)) : List (List Char) :=
  (ls.map clean).filter (!·.isEmpty)

@[simp] theorem named_append (ls more : List (List Char)) :
    named (ls ++ more) = named ls ++ named more := by
  simp [named]

theorem named_cons (line : List Char) (rest : List (List Char)) :
    named (line :: rest) = named [line] ++ named rest :=
  named_append [line] rest

theorem mem_named_singleton {line name : List Char} :
    name ∈ named [line] ↔ Bears line name ∧ name ≠ [] := by
  rw [← clean_eq_iff]
  simp only [named, List.map_cons, List.map_nil, List.mem_filter, List.mem_singleton]
  constructor
  · rintro ⟨rfl, hne⟩
    exact ⟨rfl, by simpa using hne⟩
  · rintro ⟨rfl, hne⟩
    exact ⟨rfl, by simpa using hne⟩

theorem mem_named {ls : List (List Char)} {name : List Char} :
    name ∈ named ls ↔ ∃ line ∈ ls, Bears line name ∧ name ≠ [] := by
  induction ls with
  | nil => simp [named]
  | cons line rest ih => rw [named_cons, List.mem_append, ih, mem_named_singleton]; simp

theorem names_iff {ls names : List (List Char)} : Names ls names ↔ names = named ls := by
  constructor
  · intro h
    induction h with
    | nil => rfl
    | skip hline _ ih => simp [ih, named, clean_eq_iff.mpr hline]
    | name hline hne _ ih => simp [ih, named, clean_eq_iff.mpr hline, hne]
  · rintro rfl
    induction ls with
    | nil => exact .nil
    | cons line rest ih =>
      have hline : Bears line (clean line) := clean_eq_iff.mp rfl
      by_cases hne : clean line = []
      · rw [hne] at hline
        simpa [named, hne] using Names.skip hline ih
      · simpa [named, hne] using Names.name hline hne ih

def Broken (line : List Char) : Prop :=
  ∃ name, Bears line name ∧ name ≠ [] ∧ ¬ ClassName.IsName name

theorem broken_iff {line : List Char} :
    Broken line ↔ clean line ≠ [] ∧ ¬ ClassName.IsName (clean line) := by
  simp only [Broken, ← clean_eq_iff]
  constructor
  · rintro ⟨_, rfl, h⟩
    exact h
  · exact fun h => ⟨_, rfl, h⟩

variable {n : Nat} {seen : List ClassName} {ls : List (List Char)} {d : Descriptor} {flaw : Flaw}

theorem parseLines_broken (n : Nat) (seen : List ClassName) (ls : List (List Char))
    {line : List Char} (h : Broken line) :
    ∃ name why, Bears line name ∧ ClassName.flaw? name = some why ∧
      parseLines n seen (line :: ls) = .error (.badName n (String.ofList name) why) := by
  obtain ⟨hne, hname⟩ := broken_iff.mp h
  obtain ⟨why, hwhy⟩ := Option.ne_none_iff_exists'.mp (mt ClassName.flaw?_eq_none_iff.mp hname)
  have herror : ClassName.ofString (String.ofList (clean line)) = .error why := by
    rw [ClassName.ofString_error_iff, String.toList_ofList, hwhy]
  refine ⟨clean line, why, clean_eq_iff.mp rfl, hwhy, ?_⟩
  rw [parseLines, if_neg (mt List.isEmpty_iff.mp hne), herror]

theorem parseLines_sound (n : Nat) (seen : List ClassName) (ls : List (List Char))
    {line : List Char} (h : ¬ Broken line) :
    ∃ seen', parseLines n seen (line :: ls) = parseLines (n + 1) seen' ls := by
  rw [parseLines]
  by_cases hempty : (clean line).isEmpty = true
  · exact ⟨seen, if_pos hempty⟩
  · have hname : ClassName.IsName (clean line) := by
      by_contra hname
      exact h (broken_iff.mpr ⟨mt List.isEmpty_iff.mpr hempty, hname⟩)
    obtain ⟨c, hc⟩ := ClassName.exists_of_isName hname
    have hok : ClassName.ofString (String.ofList (clean line)) = .ok c :=
      ClassName.ofString_ok_iff.mpr (by rw [← hc, String.ofList_toList])
    rw [if_neg hempty, hok]
    exact ⟨_, rfl⟩

theorem not_broken_of_ok (h : parseLines n seen ls = .ok d) : ∀ line ∈ ls, ¬ Broken line := by
  induction ls generalizing n seen with
  | nil => simp
  | cons line rest ih =>
    by_cases hline : Broken line
    · obtain ⟨name, why, -, -, herror⟩ := parseLines_broken n seen rest hline
      rw [herror] at h
      cases h
    · obtain ⟨seen', hrest⟩ := parseLines_sound n seen rest hline
      rw [hrest] at h
      exact List.forall_mem_cons.mpr ⟨hline, ih h⟩

/-- Of the lines, of which the first is number `n`, the flaw and its message tell the number of the
first one that is broken, what it bears, and why no class has this name. -/
def FirstBroken (n : Nat) (ls : List (List Char)) (flaw : Flaw) : Prop :=
  ∃ before line after name why, ls = before ++ line :: after ∧
    (∀ earlier ∈ before, ¬ Broken earlier) ∧ Broken line ∧ Bears line name ∧
    ClassName.flaw? name = some why ∧
    flaw = .badName (n + before.length) (String.ofList name) why ∧
    flaw.message = s!"line {n + before.length}: {why.message (String.ofList name)}"

theorem firstBroken_of_error (h : parseLines n seen ls = .error flaw) : FirstBroken n ls flaw := by
  induction ls generalizing n seen with
  | nil => cases h
  | cons line rest ih =>
    by_cases hline : Broken line
    · obtain ⟨name, why, hname, hwhy, herror⟩ := parseLines_broken n seen rest hline
      obtain rfl := Except.error.inj (herror.symm.trans h)
      exact ⟨[], line, rest, name, why, rfl, nofun, hline, hname, hwhy, rfl, rfl⟩
    · obtain ⟨seen', hrest⟩ := parseLines_sound n seen rest hline
      obtain ⟨before, broken, after, name, why, rfl, hbefore, hbroken, hname, hwhy, hflaw⟩ :=
        ih (hrest.symm.trans h)
      refine ⟨line :: before, broken, after, name, why, rfl,
        List.forall_mem_cons.mpr ⟨hline, hbefore⟩, hbroken, hname, hwhy, ?_⟩
      rwa [Nat.add_assoc, Nat.add_comm 1] at hflaw

theorem eraseDups_texts (types : List ClassName) :
    (types.map (·.text.toList)).eraseDups = types.eraseDups.map (·.text.toList) := by
  induction types using List.reverseRecOn with
  | nil => rfl
  | append_singleton types c ih =>
    have hmem : c.text.toList ∈ types.map (·.text.toList) ↔ c ∈ types := by
      simp only [List.mem_map, String.toList_inj, ClassName.text_inj, exists_eq_right]
    rw [List.map_append, List.map_singleton, eraseDups_concat, eraseDups_concat, ih]
    by_cases hc : c ∈ types
    · simp [hc, hmem]
    · simp [hc, hmem]

theorem exists_types {names : List (List Char)} (h : ∀ name ∈ names, ClassName.IsName name) :
    ∃ types : List ClassName, names = types.map (·.text.toList) := by
  induction names with
  | nil => exact ⟨[], rfl⟩
  | cons name rest ih =>
    obtain ⟨hname, hrest⟩ := List.forall_mem_cons.mp h
    obtain ⟨types, rfl⟩ := ih hrest
    obtain ⟨c, rfl⟩ := ClassName.exists_of_isName hname
    exact ⟨c :: types, rfl⟩

theorem parseLines_eq_ok_iff :
    parseLines 1 [] ls = .ok d ↔ d.types.map (·.text.toList) = (named ls).eraseDups := by
  have hnamed {types : List ClassName} (htypes : named ls = types.map (·.text.toList)) :
      parseLines 1 [] ls = .ok ⟨types.eraseDups⟩ := parseLines_cleaned 1 [] htypes
  constructor
  · intro h
    have hnames : ∀ name ∈ named ls, ClassName.IsName name := by
      intro name hmem
      obtain ⟨line, hline, hname, hne⟩ := mem_named.mp hmem
      by_contra hbroken
      exact not_broken_of_ok h line hline ⟨name, hname, hne, hbroken⟩
    obtain ⟨types, htypes⟩ := exists_types hnames
    obtain rfl := Except.ok.inj ((hnamed htypes).symm.trans h)
    rw [htypes, eraseDups_texts]
  · intro h
    have hnames : ∀ name ∈ named ls, ClassName.IsName name := by
      intro name hmem
      rw [← List.mem_eraseDups, ← h] at hmem
      obtain ⟨c, -, rfl⟩ := List.mem_map.mp hmem
      exact ClassName.flaw?_eq_none_iff.mp c.flawless
    obtain ⟨types, htypes⟩ := exists_types hnames
    rw [htypes, eraseDups_texts] at h
    have htypes' : d.types = types.eraseDups := by
      refine List.map_injective_iff.mpr (fun a b hab => ?_) h
      exact ClassName.ext (String.toList_inj.mp hab)
    rw [hnamed htypes, ← htypes']

def borne (s : List Char) : List (List Char) :=
  named (lines s)

@[simp] theorem borne_nil : borne [] = [] :=
  rfl

theorem named_congr {line line' : List Char} (h : clean line = clean line') :
    named [line] = named [line'] := by
  simp [named, h]

theorem named_endLine (begun : List Char) : named [endLine begun] = named [begun.reverse] := by
  rw [endLine.eq_def]
  split
  · rename_i line
    rw [List.reverse_cons]
    exact named_congr (clean_append _ (clean_eq_iff.mp (by decide))).symm
  · rfl

theorem named_unended (begun : List Char) :
    named (linesFrom begun [] []) = named [begun.reverse] := by
  rw [linesFrom]
  split
  · rename_i hempty
    rw [List.isEmpty_iff.mp hempty]
    rfl
  · rfl

theorem named_linesFrom_newline (begun s rest : List Char) :
    named (linesFrom begun [] (s ++ '\n' :: rest)) =
      named (linesFrom begun [] s) ++ borne rest := by
  induction s generalizing begun with
  | nil =>
    have hended : linesFrom begun [] ([] ++ '\n' :: rest) = linesFrom [] [endLine begun] rest :=
      linesFrom_line (by simp) begun [] rest
    rw [hended, linesFrom_eq, named_append, named_unended, ← named_endLine]
    rfl
  | cons c s ih =>
    rw [List.cons_append, linesFrom, linesFrom]
    split
    · rw [linesFrom_eq, linesFrom_eq [] [endLine begun] s, named_append, named_append, ih,
        List.append_assoc]
    · exact ih (c :: begun)

theorem borne_newline (s rest : List Char) : borne (s ++ '\n' :: rest) = borne s ++ borne rest :=
  named_linesFrom_newline [] s rest

theorem borne_line {line : List Char} (h : '\n' ∉ line) : borne line = named [line] := by
  have hbegun (begun : List Char) :
      named (linesFrom begun [] line) = named [begun.reverse ++ line] := by
    induction line generalizing begun with
    | nil => rw [List.append_nil, named_unended]
    | cons c line ih =>
      rw [List.mem_cons, not_or] at h
      rw [linesFrom, if_neg (Ne.symm h.1), ih h.2]
      simp
  exact hbegun []

def AtStart (s : List Char) : Prop :=
  s = [] ∨ ∃ more, s = more ++ ['\n']

def AtEnd (s : List Char) : Prop :=
  s = [] ∨ ∃ more, s = '\n' :: more

theorem borne_append_of_start {above : List Char} (h : AtStart above) (rest : List Char) :
    borne (above ++ rest) = borne above ++ borne rest := by
  obtain rfl | ⟨more, rfl⟩ := h
  · rfl
  · rw [List.append_assoc, List.singleton_append, borne_newline, borne_newline]
    simp

theorem borne_append_of_end {below : List Char} (s : List Char) (h : AtEnd below) :
    borne (s ++ below) = borne s ++ borne below := by
  obtain rfl | ⟨more, rfl⟩ := h
  · simp
  · rw [borne_newline]
    exact congrArg (borne s ++ ·) (borne_newline [] more).symm

theorem exists_start (s : List Char) :
    ∃ above front, s = above ++ front ∧ AtStart above ∧ '\n' ∉ front := by
  induction s using List.reverseRecOn with
  | nil => exact ⟨[], [], rfl, .inl rfl, nofun⟩
  | append_singleton s c ih =>
    by_cases hc : c = '\n'
    · exact ⟨s ++ [c], [], by simp, .inr ⟨s, by rw [hc]⟩, nofun⟩
    · obtain ⟨above, front, rfl, hstart, hfront⟩ := ih
      exact ⟨above, front ++ [c], by simp, hstart, by simp [hfront, Ne.symm hc]⟩

theorem exists_stop (s : List Char) :
    ∃ back below, s = back ++ below ∧ '\n' ∉ back ∧ AtEnd below := by
  induction s with
  | nil => exact ⟨[], [], rfl, nofun, .inl rfl⟩
  | cons c s ih =>
    by_cases hc : c = '\n'
    · exact ⟨[], c :: s, rfl, nofun, .inr ⟨s, by rw [hc]⟩⟩
    · obtain ⟨back, below, rfl, hback, hend⟩ := ih
      exact ⟨c :: back, below, rfl, by simp [hback, Ne.symm hc], hend⟩

def Spent (s : List Char) : Prop :=
  ∃ back below, s = back ++ below ∧ '\n' ∉ back ∧ Bears back [] ∧ AtEnd below

def Idle (above line : List Char) : Prop :=
  '\n' ∉ line ∧ (Bears line [] ∨ ∃ earlier ∈ lines above, ∃ name, Bears earlier name ∧
    Bears line name)

/-- One descriptor is the other one with something put into it: a line that names no new type, with
a line end behind it or in front of it; blanks in front of what a line bears; blanks or a comment
behind it; or a CR in front of a LF. -/
inductive Adds : List Char → List Char → Prop
  | line {above line below} (hstart : AtStart above) (h : Idle above line) :
      Adds (above ++ below) (above ++ line ++ '\n' :: below)
  | last {above line} (h : Idle above line) : Adds above (above ++ '\n' :: line)
  | unended {above line} (hstart : AtStart above) (h : Idle above line) :
      Adds above (above ++ line)
  | ahead {above blanks rest} (hstart : AtStart above) (hblanks : AllBlank blanks)
      (hline : '\n' ∉ blanks) : Adds (above ++ rest) (above ++ blanks ++ rest)
  | behind {front more rest} (hmore : Bears more []) (hline : '\n' ∉ more) (hrest : Spent rest) :
      Adds (front ++ rest) (front ++ more ++ rest)
  | crlf (above below) : Adds (above ++ '\n' :: below) (above ++ '\r' :: '\n' :: below)

theorem Idle.borne_subset {above line : List Char} (h : Idle above line) :
    ∀ name ∈ borne line, name ∈ borne above := by
  obtain ⟨hline, hidle⟩ := h
  intro name hmem
  rw [borne_line hline, mem_named_singleton] at hmem
  obtain ⟨hname, hne⟩ := hmem
  rcases hidle with hnothing | ⟨earlier, hearlier, name', hname', hagain⟩
  · exact absurd ((clean_eq_iff.mpr hname).symm.trans (clean_eq_iff.mpr hnothing)) hne
  · obtain rfl := (clean_eq_iff.mpr hname).symm.trans (clean_eq_iff.mpr hagain)
    exact mem_named.mpr ⟨earlier, hearlier, hname', hne⟩

theorem borne_within {above line line' below : List Char} (hstart : AtStart above)
    (hline : '\n' ∉ line) (hline' : '\n' ∉ line') (hend : AtEnd below)
    (h : clean line' = clean line) :
    borne (above ++ line' ++ below) = borne (above ++ line ++ below) := by
  rw [borne_append_of_end _ hend, borne_append_of_end _ hend, borne_append_of_start hstart,
    borne_append_of_start hstart, borne_line hline, borne_line hline', named_congr h]

theorem borne_behind {front more rest : List Char} (hmore : Bears more []) (hline : '\n' ∉ more)
    (hrest : Spent rest) : borne (front ++ more ++ rest) = borne (front ++ rest) := by
  obtain ⟨above, front, rfl, hstart, hfront⟩ := exists_start front
  obtain ⟨back, below, rfl, hback, hnothing, hend⟩ := hrest
  have hclean : clean (front ++ more ++ back) = clean (front ++ back) := by
    rw [clean_append _ hnothing, clean_append _ hmore, clean_append _ hnothing]
  have hplain : '\n' ∉ front ++ back := by simp [hfront, hback]
  have hwhole : '\n' ∉ front ++ more ++ back := by simp [hfront, hline, hback]
  have h := borne_within hstart hplain hwhole hend hclean
  simpa only [List.append_assoc] using h

theorem Adds.eraseDups_borne {s t : List Char} (h : Adds s t) :
    (borne t).eraseDups = (borne s).eraseDups := by
  cases h with
  | line hstart h =>
    rw [borne_newline, borne_append_of_start hstart, borne_append_of_start hstart]
    exact eraseDups_append_of_subset h.borne_subset _
  | last h =>
    rw [borne_newline]
    exact eraseDups_append_eq_self h.borne_subset
  | unended hstart h =>
    rw [borne_append_of_start hstart]
    exact eraseDups_append_eq_self h.borne_subset
  | @ahead above blanks rest hstart hblanks hline =>
    obtain ⟨back, below, rfl, hback, hend⟩ := exists_stop rest
    have hwhole : '\n' ∉ blanks ++ back := by simp [hline, hback]
    have h := borne_within hstart hback hwhole hend (clean_blank_append hblanks back)
    simp only [List.append_assoc] at h ⊢
    rw [h]
  | behind hmore hline hrest => rw [borne_behind hmore hline hrest]
  | crlf above below =>
    have hcr : Bears ['\r'] [] := clean_eq_iff.mp (by decide)
    have hrest : Spent ('\n' :: below) :=
      ⟨[], _, rfl, nofun, clean_eq_iff.mp rfl, .inr ⟨below, rfl⟩⟩
    have h : borne (above ++ ['\r'] ++ '\n' :: below) = borne (above ++ '\n' :: below) :=
      borne_behind hcr (by decide) hrest
    rw [List.append_assoc, List.singleton_append] at h
    rw [h]

theorem parse_by_lines (text : List Char) :
    ((∃ flaw, parse text = .error flaw) ↔ ∃ line ∈ lines text, Broken line) ∧
      (∀ flaw, parse text = .error flaw → FirstBroken 1 (lines text) flaw) ∧
      (∀ d, parse text = .ok d → ∃ names, Names (lines text) names ∧
        d.types.map (·.text.toList) = names.eraseDups ∧ d.types.Nodup ∧
        (d.types.map (·.text.toList)).Pairwise (names.idxOf · < names.idxOf ·) ∧
        ∀ type ∈ d.types, ClassName.IsName type.text.toList) ∧
      ∀ more, Relation.ReflTransGen Adds text more →
        ∀ d, parse more = .ok d ↔ parse text = .ok d := by
  refine ⟨⟨?_, ?_⟩, fun flaw h => firstBroken_of_error h, fun d h => ?_, fun more h d => ?_⟩
  · rintro ⟨flaw, h⟩
    obtain ⟨before, line, after, _, _, hlines, -, hbroken, -⟩ := firstBroken_of_error h
    exact ⟨line, by simp [hlines], hbroken⟩
  · rintro ⟨line, hline, hbroken⟩
    cases h : parse text with
    | error flaw => exact ⟨flaw, rfl⟩
    | ok d => exact absurd hbroken (not_broken_of_ok h line hline)
  · have htypes := parseLines_eq_ok_iff.mp h
    refine ⟨named (lines text), names_iff.mpr rfl, htypes, nodup_parseLines _ .nil h, ?_, ?_⟩
    · rw [htypes]
      exact pairwise_eraseDups _
    · exact fun type _ => ClassName.flaw?_eq_none_iff.mp type.flawless
  · have hborne : (borne more).eraseDups = (borne text).eraseDups := by
      induction h with
      | refl => rfl
      | tail _ hstep ih => rw [hstep.eraseDups_borne, ih]
    rw [parse, parse, parseLines_eq_ok_iff, parseLines_eq_ok_iff]
    exact Eq.congr_right hborne

example : parse "a.B # first\n# more\n\na.B\n9".toList = .error (.badName 5 "9" .leadingDigit) := by
  decide +kernel

end Descriptor

end PluginAgent
