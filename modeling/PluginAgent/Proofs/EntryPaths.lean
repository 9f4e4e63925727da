import PluginAgent.Proofs.EntryNames

namespace PluginAgent

open Text

namespace Utf8

def encode (text : List Char) : List UInt8 :=
  text.flatMap String.utf8EncodeChar

theorem encode_cons (c : Char) (text : List Char) :
    encode (c :: text) = String.utf8EncodeChar c ++ encode text :=
  List.flatMap_cons

theorem toUTF8_eq_encode (s : String) : s.toUTF8.data.toList = encode s.toList := by
  obtain ⟨text, rfl⟩ : ∃ text, s = String.ofList text := ⟨s.toList, String.ofList_toList.symm⟩
  simp [encode, String.toUTF8, List.utf8Encode]

theorem decode_eq_encode {bytes : List UInt8} {text : List Char} :
    decode ⟨bytes.toArray⟩ = .ok text ↔ bytes = encode text :=
  decode_eq_ok_iff

theorem encode_inj {s t : List Char} : encode s = encode t ↔ s = t := by
  refine ⟨fun h => ?_, congrArg encode⟩
  have hs : decode ⟨(encode s).toArray⟩ = .ok s := decode_eq_encode.mpr rfl
  rw [decode_eq_encode.mpr h] at hs
  exact (Except.ok.inj hs).symm

theorem eq_of_mem_utf8EncodeChar {b : UInt8} {c : Char} (h : b ∈ String.utf8EncodeChar c)
    (hb : b.toNat < 128) : c = Char.ofNat b.toNat := by
  have hc : Char.ofNat c.val.toNat = c := Char.ofNat_toNat c
  have hvalid : c.val.toNat.isValidChar := c.valid
  have hlarge {n : Nat} (hn : 128 ≤ n ∧ n < 256) : b ≠ UInt8.ofNat n := by
    rintro rfl
    rw [toNat_ofNat_of_lt hn.2] at hb
    omega
  generalize hv : c.val.toNat = v at hc hvalid
  simp only [String.utf8EncodeChar, hv] at h
  unfold Nat.isValidChar at hvalid
  split_ifs at h with hone htwo hthree
  · rw [List.mem_singleton.mp h, toNat_ofNat_of_lt (by omega), hc]
  all_goals
    simp only [List.mem_cons, List.not_mem_nil, or_false] at h
    grind

end Utf8

namespace Text

theorem splitOn_append {α : Type} [DecidableEq α] {sep : α} {front : List α} (h : sep ∉ front)
    (s : List α) : splitOn sep (front ++ s) = (splitOn sep s).modifyHead (front ++ ·) := by
  induction front with
  | nil => exact (congrFun List.modifyHead_id (splitOn sep s)).symm
  | cons c rest ih =>
    rw [List.mem_cons, not_or] at h
    rw [List.cons_append, splitOn_cons_of_ne (Ne.symm h.1), ih h.2]
    cases splitOn sep s <;> rfl

theorem splitOn_ne_nil {α : Type} [DecidableEq α] (sep : α) (s : List α) : splitOn sep s ≠ [] :=
  (parted_iff.mpr rfl).ne_nil

theorem splitOn_append_cons {α : Type} [DecidableEq α] (sep : α) (s t : List α) :
    splitOn sep (s ++ sep :: t) = splitOn sep s ++ splitOn sep t := by
  induction s with
  | nil => exact splitOn_cons_sep sep t
  | cons c r ih =>
    by_cases hc : c = sep
    · rw [hc, List.cons_append, splitOn_cons_sep, splitOn_cons_sep, ih, List.cons_append]
    · rw [List.cons_append, splitOn_cons_of_ne hc, splitOn_cons_of_ne hc, ih]
      obtain ⟨first, rest, hsplit⟩ := List.exists_cons_of_ne_nil (splitOn_ne_nil sep r)
      rw [hsplit, List.cons_append, List.modifyHead_cons, List.modifyHead_cons, List.cons_append]

theorem Parted.append {α : Type} [DecidableEq α] {sep : α} {s t : List α}
    {parts others : List (List α)} (h : Parted sep s parts) (h' : Parted sep t others) :
    Parted sep (s ++ sep :: t) (parts ++ others) := by
  rw [parted_iff] at *
  rw [splitOn_append_cons, h, h']

end Text

namespace Archive.EntryName

open Utf8

theorem slash_not_mem {c : Char} (h : c ≠ '/') : slash ∉ String.utf8EncodeChar c := by
  intro hmem
  exact h (eq_of_mem_utf8EncodeChar hmem (by decide))

theorem splitOn_encode (text : List Char) :
    splitOn slash (encode text) = (splitOn '/' text).map encode := by
  induction text with
  | nil => rfl
  | cons c rest ih =>
    rw [encode_cons]
    by_cases hc : c = '/'
    · have hslash : String.utf8EncodeChar '/' = [slash] := by decide
      rw [hc, hslash, List.singleton_append, splitOn_cons_sep, splitOn_cons_sep, ih]
      rfl
    · rw [splitOn_append (slash_not_mem hc), splitOn_cons_of_ne hc, ih]
      cases splitOn '/' rest with
      | nil => rfl
      | cons first others => rw [List.map_cons, List.modifyHead_cons, List.modifyHead_cons,
          List.map_cons, encode_cons]

theorem head?_encode {text : List Char} :
    (encode text).head? = some slash ↔ text.head? = some '/' := by
  cases text with
  | nil => exact ⟨fun h => (by cases h), fun h => (by cases h)⟩
  | cons c rest =>
    rw [encode_cons, List.head?_cons, Option.some.injEq]
    constructor
    · intro h
      refine Decidable.byContradiction fun hc => slash_not_mem hc ?_
      obtain ⟨b, others, hchar⟩ :=
        List.exists_cons_of_ne_nil (String.utf8EncodeChar_ne_nil (c := c))
      rw [hchar] at h ⊢
      exact Option.some.inj h ▸ List.mem_cons_self
    · rintro rfl
      rfl

theorem joinWith_encode (parts : List (List Char)) :
    joinWith [slash] (parts.map encode) = encode (joinWith ['/'] parts) := by
  induction parts with
  | nil => rfl
  | cons part rest ih =>
    cases rest with
    | nil => rfl
    | cons next others =>
      have hslash : encode ['/'] = [slash] := by decide
      simp only [List.map_cons, joinWith] at ih ⊢
      rw [ih, ← hslash, encode, encode, encode, encode, List.flatMap_append, List.flatMap_append]

theorem exists_encode_iff {path : List UInt8} {texts : List (List Char)} :
    splitOn slash path = texts.map encode ↔
      ∃ text, path = encode text ∧ splitOn '/' text = texts := by
  constructor
  · intro h
    have hpath : path = encode (joinWith ['/'] texts) := by
      rw [← joinWith_encode]
      exact (parted_iff.mpr h).eq_joinWith
    refine ⟨_, hpath, ?_⟩
    rw [hpath, splitOn_encode] at h
    exact (List.map_inj_right fun _ _ => encode_inj.mp).mp h
  · rintro ⟨text, rfl, rfl⟩
    exact splitOn_encode text

def Kept (part : List Char) : Prop :=
  part ≠ [] ∧ part ≠ ['.']

instance : DecidablePred Kept :=
  fun part => inferInstanceAs (Decidable (part ≠ [] ∧ part ≠ ['.']))

/-- The path is relative, UTF-8 and without `..` parts, and what is left of it without the empty
parts and the `.` parts is the name. -/
def Names (path : List UInt8) (name : String) : Prop :=
  ∃ text, path = encode text ∧ text.head? ≠ some '/' ∧ ['.', '.'] ∉ splitOn '/' text ∧
    name.toList = joinWith ['/'] ((splitOn '/' text).filter (Kept ·))

inductive FirstBad (shown : String) : List (List UInt8) → EntryNameFlaw → Prop
  | climbing {rest} : FirstBad shown ([dot, dot] :: rest) (.climbing shown)
  | notText {part rest} (h : ∀ text, part ≠ encode text) :
      FirstBad shown (part :: rest) (.notText shown)
  | later {text rest f} (hpart : text ≠ ['.', '.']) (h : FirstBad shown rest f) :
      FirstBad shown (encode text :: rest) f

/-- The path names nothing, for the flaw: it is absolute, or its first bad part has the flaw. -/
def Refused (path : List UInt8) (f : EntryNameFlaw) : Prop :=
  if path.head? = some slash then f = .climbing (Utf8.decodeLossy ⟨path.toArray⟩)
  else FirstBad (Utf8.decodeLossy ⟨path.toArray⟩) (splitOn slash path) f

variable {shown : String} {part : List UInt8} {text : List Char}
  {rest : List (Path.Component UInt8)}

theorem namesOf_notText (h : ∀ text, part ≠ encode text) :
    namesOf shown (Path.componentsOfPart dot part ++ rest) = .error (.notText shown) := by
  have hnil : part ≠ [] := h []
  have hcurrent : part ≠ [dot] := h ['.']
  have hparent : part ≠ [dot, dot] := h ['.', '.']
  rw [Path.componentsOfPart, if_neg (by simp [hnil, hcurrent]), if_neg hparent,
    List.singleton_append, namesOf]
  split
  · rfl
  · rename_i text hdecode
    exact absurd (decode_eq_encode.mp hdecode) (h text)

theorem namesOf_encode (h : text ≠ ['.', '.']) :
    namesOf shown (Path.componentsOfPart dot (encode text) ++ rest) =
      (namesOf shown rest).map ([text].filter (Kept ·) ++ ·) := by
  have hparent : encode text ≠ [dot, dot] := fun heq => h (encode_inj (t := ['.', '.']).mp heq)
  have hkept : (encode text = [] ∨ encode text = [dot]) ↔ ¬Kept text := by
    rw [Kept, Decidable.not_and_iff_not_or_not, Decidable.not_not, Decidable.not_not]
    exact or_congr (encode_inj (t := [])) (encode_inj (t := ['.']))
  rw [Path.componentsOfPart, if_neg hparent]
  by_cases hnamed : Kept text
  · rw [if_neg (fun hcut => hkept.mp hcut hnamed), List.singleton_append, namesOf,
      decode_eq_encode.mpr rfl, List.filter_cons_of_pos (by simpa using hnamed)]
    rfl
  · rw [if_pos (hkept.mpr hnamed), List.filter_cons_of_neg (by simpa using hnamed)]
    change namesOf shown rest = (namesOf shown rest).map id
    cases namesOf shown rest <;> rfl

variable {parts : List (List UInt8)} {f : EntryNameFlaw}

theorem namesOf_texts {texts : List (List Char)} (h : ['.', '.'] ∉ texts) :
    namesOf shown ((texts.map encode).flatMap (Path.componentsOfPart dot)) =
      .ok (texts.filter (Kept ·)) := by
  induction texts with
  | nil => rfl
  | cons text rest ih =>
    rw [List.mem_cons, not_or] at h
    rw [List.map_cons, List.flatMap_cons, namesOf_encode (Ne.symm h.1), ih h.2]
    exact congrArg _ (List.filter_append [text] rest).symm

theorem namesOf_firstBad (h : FirstBad shown parts f) :
    namesOf shown (parts.flatMap (Path.componentsOfPart dot)) = .error f := by
  induction h with
  | climbing => rfl
  | notText hnone => exact namesOf_notText hnone
  | later hdots _ ih => rw [List.flatMap_cons, namesOf_encode hdots, ih]; rfl

theorem texts_or_firstBad (shown : String) (parts : List (List UInt8)) :
    (∃ texts : List (List Char), parts = texts.map encode ∧ ['.', '.'] ∉ texts) ∨
      ∃ f, FirstBad shown parts f := by
  induction parts with
  | nil => exact .inl ⟨[], rfl, List.not_mem_nil⟩
  | cons part rest ih =>
    by_cases hparent : part = [dot, dot]
    · subst hparent
      exact .inr ⟨_, .climbing⟩
    by_cases htext : ∃ text, part = encode text
    · obtain ⟨text, rfl⟩ := htext
      have hdots : text ≠ ['.', '.'] := fun heq => hparent (congrArg encode heq)
      rcases ih with ⟨texts, rfl, hnone⟩ | ⟨f, hbad⟩
      · exact .inl ⟨text :: texts, rfl, by simp [hnone, Ne.symm hdots]⟩
      · exact .inr ⟨f, .later hdots hbad⟩
    · exact .inr ⟨_, .notText (not_exists.mp htext)⟩

theorem namesOf_components (path : List UInt8) :
    namesOf shown (Path.componentsOf slash dot path) =
      if path.head? = some slash then .error (.climbing shown)
      else namesOf shown ((splitOn slash path).flatMap (Path.componentsOfPart dot)) := by
  cases path with
  | nil => rfl
  | cons b rest =>
    obtain ⟨first, others, hsplit⟩ := List.exists_cons_of_ne_nil (splitOn_ne_nil slash rest)
    by_cases hb : b = slash
    · subst hb
      rw [Path.componentsOf, splitOn_cons_sep, hsplit]
      rfl
    · rw [if_neg (by simpa using hb), Path.componentsOf, splitOn_cons_of_ne hb, hsplit,
        List.modifyHead_cons, List.flatMap_cons]
      simp only [reduceCtorEq, false_and, if_false]
      split
      · rename_i hcurrent
        rw [hcurrent]
        rfl
      · rfl

theorem ofPath_names {path : List UInt8} {name : String} (h : Names path name) :
    ofPath path = .ok name := by
  obtain ⟨text, rfl, hrelative, hnone, hname⟩ := h
  rw [ofPath, namesOf_components, if_neg (mt head?_encode.mp hrelative), splitOn_encode,
    namesOf_texts hnone, Except.map, ← hname, String.ofList_toList]

theorem ofPath_refused {path : List UInt8} (h : Refused path f) : ofPath path = .error f := by
  rw [Refused] at h
  rw [ofPath, namesOf_components]
  split at h
  · rename_i hroot
    rw [if_pos hroot, h]
    rfl
  · rename_i hrelative
    rw [if_neg hrelative, namesOf_firstBad h]
    rfl

theorem names_or_refused (path : List UInt8) :
    (∃ name, Names path name) ∨ ∃ f, Refused path f := by
  by_cases hroot : path.head? = some slash
  · exact .inr ⟨_, (if_pos hroot).mpr rfl⟩
  rcases texts_or_firstBad (Utf8.decodeLossy ⟨path.toArray⟩) (splitOn slash path) with
    ⟨texts, htexts, hnone⟩ | ⟨f, hbad⟩
  · obtain ⟨text, rfl, rfl⟩ := exists_encode_iff.mp htexts
    exact .inl ⟨String.ofList (joinWith ['/'] ((splitOn '/' text).filter (Kept ·))), text, rfl,
      mt head?_encode.mpr hroot, hnone, String.toList_ofList⟩
  · refine .inr ⟨f, ?_⟩
    rw [Refused, if_neg hroot]
    exact hbad

theorem ofPath_eq_ok_iff {path : List UInt8} {name : String} :
    ofPath path = .ok name ↔ Names path name := by
  refine ⟨fun h => ?_, ofPath_names⟩
  rcases names_or_refused path with ⟨name', hnames⟩ | ⟨f, hrefused⟩
  · obtain rfl := Except.ok.inj (h.symm.trans (ofPath_names hnames))
    exact hnames
  · cases h.symm.trans (ofPath_refused hrefused)

theorem ofPath_eq_error_iff {path : List UInt8} : ofPath path = .error f ↔ Refused path f := by
  refine ⟨fun h => ?_, ofPath_refused⟩
  rcases names_or_refused path with ⟨name, hnames⟩ | ⟨f', hrefused⟩
  · cases h.symm.trans (ofPath_names hnames)
  · obtain rfl := Except.error.inj (h.symm.trans (ofPath_refused hrefused))
    exact hrefused

theorem names_of_normal {name : String} (h : Normal name.toList) :
    Names (encode name.toList) name := by
  refine ⟨name.toList, rfl, ?_⟩
  rcases h with hempty | hparts
  · rw [hempty]
    exact ⟨nofun, by decide, rfl⟩
  refine ⟨fun hroot => ?_, fun hdots => (hparts _ hdots).ne_parent rfl, ?_⟩
  · obtain ⟨rest, hname⟩ : ∃ rest, name.toList = '/' :: rest := List.head?_eq_some_iff.mp hroot
    rw [hname, splitOn_cons_sep] at hparts
    exact (hparts [] List.mem_cons_self).ne_nil rfl
  · have hkept : (splitOn '/' name.toList).filter (Kept ·) = splitOn '/' name.toList :=
      List.filter_eq_self.mpr fun part hpart =>
        decide_eq_true ⟨(hparts part hpart).ne_nil, (hparts part hpart).ne_current⟩
    rw [hkept]
    exact (parted_iff.mpr rfl).eq_joinWith

end Archive.EntryName

end PluginAgent
