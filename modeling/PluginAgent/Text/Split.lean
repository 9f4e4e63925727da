namespace PluginAgent.Text

variable {α : Type} [DecidableEq α]

def splitFrom (sep : α) (piece : List α) (done : List (List α)) : List α → List (List α)
  | [] => (piece.reverse :: done).reverse
  | c :: r =>
      if c = sep then splitFrom sep [] (piece.reverse :: done) r
      else splitFrom sep (c :: piece) done r

def splitOn (sep : α) (s : List α) : List (List α) :=
  splitFrom sep [] [] s

theorem splitFrom_eq (sep : α) (s : List α) :
    ∀ (piece : List α) (done : List (List α)),
      splitFrom sep piece done s =
        done.reverse ++ (splitOn sep s).modifyHead (piece.reverse ++ ·) := by
  induction s with
  | nil => intro piece done; simp [splitFrom, splitOn]
  | cons c r ih =>
    intro piece done
    by_cases h : c = sep
    · have hs : splitOn sep (c :: r) = [] :: splitOn sep r := by
        rw [show splitOn sep (c :: r) = splitFrom sep [] [] (c :: r) from rfl, splitFrom,
          if_pos h, ih]
        cases splitOn sep r <;> simp
      rw [splitFrom, if_pos h, ih, hs]
      cases splitOn sep r <;> simp
    · have hs : splitOn sep (c :: r) = (splitOn sep r).modifyHead (c :: ·) := by
        rw [show splitOn sep (c :: r) = splitFrom sep [] [] (c :: r) from rfl, splitFrom,
          if_neg h, ih]
        cases splitOn sep r <;> simp
      rw [splitFrom, if_neg h, ih, hs]
      cases splitOn sep r <;> simp

@[simp] theorem splitOn_nil (sep : α) : splitOn sep [] = [[]] := rfl

theorem splitOn_cons_sep (sep : α) (r : List α) :
    splitOn sep (sep :: r) = [] :: splitOn sep r := by
  rw [splitOn, splitFrom, if_pos rfl, splitFrom_eq]
  cases splitOn sep r <;> simp

theorem splitOn_cons_of_ne {sep c : α} (h : c ≠ sep) (r : List α) :
    splitOn sep (c :: r) = (splitOn sep r).modifyHead (c :: ·) := by
  rw [splitOn, splitFrom, if_neg h, splitFrom_eq]
  simp only [List.reverse_nil, List.nil_append, List.reverse_cons]
  rfl

theorem splitOn_eq (sep : α) (s : List α) : splitOn sep s = s.splitOn sep := by
  induction s with
  | nil => rfl
  | cons c r ih =>
    rw [List.splitOn_cons_eq_if_modifyHead]
    by_cases h : c = sep
    · subst h
      rw [splitOn_cons_sep, ih, if_pos (beq_self_eq_true c)]
    · rw [splitOn_cons_of_ne h, ih, if_neg (by simpa using h)]

theorem not_mem_of_mem_splitOn {sep : α} {s piece : List α} (h : piece ∈ splitOn sep s) :
    sep ∉ piece := by
  induction s generalizing piece with
  | nil =>
    rw [splitOn_nil, List.mem_singleton] at h
    simp [h]
  | cons c r ih =>
    by_cases hc : c = sep
    · rw [hc, splitOn_cons_sep, List.mem_cons] at h
      rcases h with rfl | h
      · simp
      · exact ih h
    · rw [splitOn_cons_of_ne hc] at h
      cases hr : splitOn sep r with
      | nil => simp [hr] at h
      | cons first rest =>
        rw [hr, List.modifyHead_cons, List.mem_cons] at h
        rcases h with rfl | h
        · simpa [Ne.symm hc] using ih (hr ▸ List.mem_cons_self)
        · exact ih (hr ▸ List.mem_cons_of_mem first h)

def cut? (sep : Char) (s : List Char) : Option (List Char × List Char) :=
  match s.span (· != sep) with
  | (before, _ :: after) => some (before, after)
  | (_, []) => none

def endLine : List Char → List Char
  -- a CR right before the line end belongs to it
  | '\r' :: line => line.reverse
  | line => line.reverse

def linesFrom (line : List Char) (done : List (List Char)) : List Char → List (List Char)
  | [] => (if line.isEmpty then done else line.reverse :: done).reverse
  | c :: r =>
      if c = '\n' then linesFrom [] (endLine line :: done) r else linesFrom (c :: line) done r

def lines (s : List Char) : List (List Char) :=
  linesFrom [] [] s

def joinWith {α : Type} (sep : List α) : List (List α) → List α
  | [] => []
  | [p] => p
  | p :: ps => p ++ sep ++ joinWith sep ps

theorem joinWith_eq {α : Type} (sep : List α) (pieces : List (List α)) :
    joinWith sep pieces = sep.intercalate pieces := by
  induction pieces with
  | nil => rfl
  | cons p ps ih =>
    cases ps with
    | nil => simp [joinWith]
    | cons q qs =>
      have hcons : joinWith sep (p :: q :: qs) = p ++ sep ++ joinWith sep (q :: qs) := rfl
      rw [hcons, ih, List.intercalate_cons_cons]

theorem splitOn_joinWith {sep : α} {pieces : List (List α)} (h : ∀ p ∈ pieces, sep ∉ p)
    (hne : pieces ≠ []) : splitOn sep (joinWith [sep] pieces) = pieces := by
  rw [splitOn_eq, joinWith_eq, List.splitOn_intercalate sep h hne]

structure Parted (sep : α) (s : List α) (parts : List (List α)) : Prop where
  ne_nil : parts ≠ []
  sep_not_mem : ∀ part ∈ parts, sep ∉ part
  eq_joinWith : s = joinWith [sep] parts

theorem parted_iff {sep : α} {s : List α} {parts : List (List α)} :
    Parted sep s parts ↔ splitOn sep s = parts := by
  constructor
  · intro h
    rw [h.eq_joinWith, splitOn_joinWith h.sep_not_mem h.ne_nil]
  · rintro rfl
    refine ⟨?_, fun _ => not_mem_of_mem_splitOn, ?_⟩
    · rw [splitOn_eq]
      exact List.splitOn_ne_nil _ _
    · rw [splitOn_eq, joinWith_eq, List.intercalate_splitOn]

def replaceChar (old new : Char) (s : List Char) : List Char :=
  s.map fun c => if c = old then new else c

def sameIgnoringCase (s t : String) : Bool :=
  s.toList.map Char.toLower == t.toList.map Char.toLower

end PluginAgent.Text
