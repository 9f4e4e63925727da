import PluginAgent.Text.Split

namespace PluginAgent.Text

variable {line : List Char}

theorem linesFrom_line (h : '\n' ∉ line) (begun : List Char) (done : List (List Char))
    (rest : List Char) : linesFrom begun done (line ++ '\n' :: rest) =
      linesFrom [] (endLine (line.reverse ++ begun) :: done) rest := by
  induction line generalizing begun with
  | nil => exact if_pos rfl
  | cons c line ih =>
    rw [List.mem_cons, not_or] at h
    rw [List.cons_append, linesFrom, if_neg (Ne.symm h.1), ih h.2, List.reverse_cons,
      List.append_assoc, List.singleton_append]

theorem linesFrom_eq (begun : List Char) (done : List (List Char)) (s : List Char) :
    linesFrom begun done s = done.reverse ++ linesFrom begun [] s := by
  induction s generalizing begun done with
  | nil =>
    rw [linesFrom, linesFrom]
    split <;> simp
  | cons c rest ih =>
    rw [linesFrom, linesFrom]
    split
    · rw [ih [] (_ :: done), ih [] [_]]
      simp
    · exact ih (c :: begun) done

theorem lines_line (h : '\n' ∉ line) (rest : List Char) :
    lines (line ++ '\n' :: rest) = endLine line.reverse :: lines rest := by
  rw [lines, linesFrom_line h, List.append_nil, linesFrom_eq]
  rfl

theorem lines_lf (h : '\n' ∉ line) (hend : '\r' ∉ line) (rest : List Char) :
    lines (line ++ '\n' :: rest) = line :: lines rest := by
  rw [lines_line h, endLine]
  · rw [List.reverse_reverse]
  · intro begun heq
    refine hend (List.mem_reverse.mp ?_)
    rw [heq]
    exact List.mem_cons_self

theorem lines_crlf (h : '\n' ∉ line) (rest : List Char) :
    lines (line ++ '\r' :: '\n' :: rest) = line :: lines rest := by
  have hcr : '\n' ∉ line ++ ['\r'] := by simp [h]
  have hends := lines_line hcr rest
  rw [List.append_assoc, List.singleton_append, List.reverse_append] at hends
  rw [hends]
  exact congrArg (· :: lines rest) line.reverse_reverse

inductive LineEnd where
  | lf
  | crlf

def LineEnd.text : LineEnd → List Char
  | lf => ['\n']
  | crlf => ['\r', '\n']

def Unbroken (s : List Char) : Prop :=
  '\r' ∉ s ∧ '\n' ∉ s

@[simp] theorem unbroken_append {s t : List Char} :
    Unbroken (s ++ t) ↔ Unbroken s ∧ Unbroken t := by
  simp only [Unbroken, List.mem_append, not_or, and_and_and_comm]

theorem lines_unbroken (h : Unbroken line) (e : LineEnd) (rest : List Char) :
    lines (line ++ e.text ++ rest) = line :: lines rest := by
  rw [List.append_assoc]
  cases e with
  | lf => exact lines_lf h.2 h.1 rest
  | crlf => exact lines_crlf h.2 rest

theorem lines_flatMap_lf {ls : List (List Char)} (h : ∀ l ∈ ls, '\n' ∉ l ∧ '\r' ∉ l) :
    lines (ls.flatMap (· ++ ['\n'])) = ls := by
  induction ls with
  | nil => rfl
  | cons l rest ih =>
    obtain ⟨⟨hlf, hcr⟩, hrest⟩ := List.forall_mem_cons.mp h
    rw [List.flatMap_cons, List.append_assoc, List.singleton_append, lines_lf hlf hcr, ih hrest]

theorem lines_flatMap_crlf {ls : List (List Char)} (h : ∀ l ∈ ls, '\n' ∉ l) :
    lines (ls.flatMap (· ++ ['\r', '\n'])) = ls := by
  induction ls with
  | nil => rfl
  | cons l rest ih =>
    obtain ⟨hlf, hrest⟩ := List.forall_mem_cons.mp h
    rw [List.flatMap_cons, List.append_assoc]
    exact (lines_crlf hlf _).trans (congrArg _ (ih hrest))

end PluginAgent.Text
