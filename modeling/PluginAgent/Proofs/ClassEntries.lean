import PluginAgent.ClassName
import PluginAgent.Proofs.EntryPaths

namespace PluginAgent

open Text

namespace Text

variable {α : Type} {sep : List α} {x : α} {parts : List (List α)}

theorem mem_joinWith (h : x ∈ joinWith sep parts) : x ∈ sep ∨ ∃ part ∈ parts, x ∈ part := by
  induction parts with
  | nil => cases h
  | cons part rest ih =>
    cases rest with
    | nil => exact .inr ⟨part, List.mem_cons_self, h⟩
    | cons next others =>
      rw [joinWith, List.mem_append, List.mem_append] at h
      · rcases h with (hpart | hsep) | hrest
        · exact .inr ⟨part, List.mem_cons_self, hpart⟩
        · exact .inl hsep
        · rcases ih hrest with hsep | ⟨part', hpart', hx⟩
          · exact .inl hsep
          · exact .inr ⟨part', List.mem_cons_of_mem part hpart', hx⟩
      · simp

theorem joinWith_concat_append (sep : List α) (init : List (List α)) (last ending : List α) :
    joinWith sep (init ++ [last]) ++ ending = joinWith sep (init ++ [last ++ ending]) := by
  induction init with
  | nil => rfl
  | cons part rest ih =>
    have hcons (tail : List α) : joinWith sep (part :: rest ++ [tail]) =
        part ++ sep ++ joinWith sep (rest ++ [tail]) := by
      cases rest <;> rfl
    rw [hcons, hcons, List.append_assoc, ih]

theorem replaceChar_joinWith {old new : Char} {parts : List (List Char)}
    (h : ∀ part ∈ parts, old ∉ part) :
    replaceChar old new (joinWith [old] parts) = joinWith [new] parts := by
  induction parts with
  | nil => rfl
  | cons part rest ih =>
    obtain ⟨hpart, hrest⟩ := List.forall_mem_cons.mp h
    have hsame : replaceChar old new part = part := by
      refine (List.map_congr_left ?_).trans (List.map_id part)
      intro c hc
      exact if_neg (ne_of_mem_of_not_mem hc hpart)
    cases rest with
    | nil => exact hsame
    | cons next others =>
      have hjoined := ih hrest
      simp only [joinWith, replaceChar, List.map_append, List.map_cons, List.map_nil, if_true] at *
      rw [hsame, hjoined]

end Text

namespace ClassName

variable {name : List Char}

structure IsSegment (segment : List Char) : Prop where
  ne_nil : segment ≠ []
  chars : ∀ c ∈ segment, isNameChar c = true

theorem segmentFlaw?_eq_none_iff {segment : List Char} : segmentFlaw? segment = none ↔
    IsSegment segment ∧ ∀ c, segment.head? = some c → c.isDigit = false := by
  cases segment with
  | nil => exact iff_of_false nofun fun h => h.1.ne_nil rfl
  | cons c rest =>
    rw [segmentFlaw?]
    split
    · rename_i hdigit
      exact iff_of_false nofun fun h => Bool.false_ne_true ((h.2 c rfl).symm.trans hdigit)
    split
    · rename_i hdigit hall
      refine iff_of_true rfl ⟨⟨List.cons_ne_nil c rest, List.all_eq_true.mp hall⟩, ?_⟩
      rintro _ ⟨⟩
      simpa using hdigit
    · rename_i hall
      exact iff_of_false nofun fun h => hall (List.all_eq_true.mpr h.1.chars)

theorem isSegment_of_mem (h : flaw? name = none) {segment : List Char}
    (hsegment : segment ∈ splitOn '.' name) : IsSegment segment := by
  rw [flaw?] at h
  split at h
  · cases h
  · exact (segmentFlaw?_eq_none_iff.mp (List.findSome?_eq_none_iff.mp h segment hsegment)).1

theorem eq_joinWith (name : List Char) : name = joinWith ['.'] (splitOn '.' name) :=
  (parted_iff.mpr rfl).eq_joinWith

theorem mem_chars (h : flaw? name = none) {c : Char} (hc : c ∈ name) :
    isNameChar c = true ∨ c = '.' := by
  rw [eq_joinWith name] at hc
  rcases mem_joinWith hc with hdot | ⟨segment, hsegment, hmem⟩
  · exact .inr (List.mem_singleton.mp hdot)
  · exact .inl ((isSegment_of_mem h hsegment).chars c hmem)

theorem IsSegment.not_mem {segment : List Char} (h : IsSegment segment) {c : Char}
    (hc : isNameChar c = false) : c ∉ segment :=
  fun hmem => Bool.false_ne_true (hc.symm.trans (h.chars c hmem))

def IsName (name : List Char) : Prop :=
  ∃ segments : List (List Char), segments ≠ [] ∧ name = joinWith ['.'] segments ∧
    ∀ segment ∈ segments, IsSegment segment ∧
      ∀ c, segment.head? = some c → c.isDigit = false

theorem flaw?_eq_none_iff : flaw? name = none ↔ IsName name := by
  constructor
  · intro h
    refine ⟨splitOn '.' name, splitOn_ne_nil _ _, eq_joinWith name, fun segment hsegment => ?_⟩
    rw [flaw?] at h
    split at h
    · cases h
    · exact segmentFlaw?_eq_none_iff.mp (List.findSome?_eq_none_iff.mp h segment hsegment)
  · rintro ⟨segments, hne, rfl, hsegments⟩
    have hsplit : splitOn '.' (joinWith ['.'] segments) = segments :=
      splitOn_joinWith (fun s hs => (hsegments s hs).1.not_mem (by decide)) hne
    have hname : joinWith ['.'] segments ≠ [] := by
      intro hnil
      rw [hnil, splitOn_nil] at hsplit
      exact (hsegments [] (by simp [← hsplit])).1.ne_nil rfl
    rw [flaw?, if_neg (by simpa using hname), hsplit, List.findSome?_eq_none_iff]
    exact fun s hs => segmentFlaw?_eq_none_iff.mpr (hsegments s hs)

theorem exists_of_isName (h : IsName name) : ∃ c : ClassName, c.text.toList = name := by
  have hflaw := flaw?_eq_none_iff.mpr h
  rw [← String.toList_ofList (l := name)] at hflaw
  exact ⟨⟨_, hflaw⟩, String.toList_ofList⟩

theorem ofString_error_iff {name : String} {flaw : NameFlaw} :
    ofString name = .error flaw ↔ flaw? name.toList = some flaw := by
  unfold ofString
  split <;> simp_all

def classEnding : List Char :=
  ".class".toList

theorem toList_entryPath (c : ClassName) :
    c.entryPath.toList = joinWith ['/'] (splitOn '.' c.text.toList) ++ classEnding := by
  have hsegments : replaceChar '.' '/' c.text.toList =
      joinWith ['/'] (splitOn '.' c.text.toList) :=
    (congrArg _ (eq_joinWith c.text.toList)).trans
      (replaceChar_joinWith fun _ hsegment => not_mem_of_mem_splitOn hsegment)
  rw [entryPath, String.toList_ofList, hsegments]
  rfl

theorem IsSegment.isPart {segment ending : List Char} (h : IsSegment segment)
    (hending : '/' ∉ ending) : Archive.EntryName.IsPart (segment ++ ending) := by
  obtain ⟨first, rest, rfl⟩ := List.exists_cons_of_ne_nil h.ne_nil
  have hfirst : first ≠ '.' := by
    rintro rfl
    exact h.not_mem (by decide) List.mem_cons_self
  refine ⟨List.cons_ne_nil _ _, ?_, ?_, ?_⟩
  · exact fun heq => hfirst (List.cons.inj heq).1
  · exact fun heq => hfirst (List.cons.inj heq).1
  · rw [List.mem_append, not_or]
    exact ⟨h.not_mem (by decide), hending⟩

theorem normal_entryPath (c : ClassName) : Archive.EntryName.Normal c.entryPath.toList := by
  have hsegment {segment : List Char} (hmem : segment ∈ splitOn '.' c.text.toList) :
      IsSegment segment := isSegment_of_mem c.flawless hmem
  obtain ⟨init, last, hsplit⟩ : ∃ init last, splitOn '.' c.text.toList = init ++ [last] :=
    ⟨_, _, (List.dropLast_concat_getLast (splitOn_ne_nil '.' c.text.toList)).symm⟩
  rw [hsplit] at hsegment
  rw [toList_entryPath, hsplit, joinWith_concat_append]
  refine Archive.EntryName.normal_joinWith fun part hpart => ?_
  rcases List.mem_append.mp hpart with hinit | hlast
  · rw [← List.append_nil part]
    exact (hsegment (List.mem_append_left _ hinit)).isPart List.not_mem_nil
  · rw [List.mem_singleton.mp hlast]
    exact (hsegment (List.mem_append_right _ List.mem_cons_self)).isPart (by decide)

theorem entryPath_inj {a b : ClassName} : a.entryPath = b.entryPath ↔ a = b := by
  refine ⟨fun h => ?_, congrArg entryPath⟩
  have hslash (c : ClassName) : ∀ segment ∈ splitOn '.' c.text.toList, '/' ∉ segment :=
    fun _ hsegment => (isSegment_of_mem c.flawless hsegment).not_mem (by decide)
  have hjoined : joinWith ['/'] (splitOn '.' a.text.toList) =
      joinWith ['/'] (splitOn '.' b.text.toList) := by
    have hentry := congrArg String.toList h
    rw [toList_entryPath, toList_entryPath] at hentry
    exact List.append_cancel_right hentry
  -- No segment has a slash in it, so the slashes of the entry give the segments back.
  have hsplit := congrArg (splitOn '/') hjoined
  rw [splitOn_joinWith (hslash a) (splitOn_ne_nil _ _),
    splitOn_joinWith (hslash b) (splitOn_ne_nil _ _)] at hsplit
  refine ext (String.toList_inj.mp ?_)
  rw [eq_joinWith a.text.toList, eq_joinWith b.text.toList, hsplit]

theorem mem_entryPath {a : ClassName} {c : Char} (hc : c ∈ a.entryPath.toList) :
    isNameChar c = true ∨ c = '/' ∨ c = '.' := by
  rw [toList_entryPath] at hc
  rcases List.mem_append.mp hc with hjoined | hending
  · rcases mem_joinWith hjoined with hslash | ⟨segment, hsegment, hmem⟩
    · exact .inr (.inl (List.mem_singleton.mp hslash))
    · exact .inl ((isSegment_of_mem a.flawless hsegment).chars c hmem)
  · have hall : classEnding.all (fun c => isNameChar c || c == '.') = true := by decide
    have hchar := List.all_eq_true.mp hall c hending
    rw [Bool.or_eq_true, beq_iff_eq] at hchar
    exact hchar.imp_right .inr

end ClassName

end PluginAgent
