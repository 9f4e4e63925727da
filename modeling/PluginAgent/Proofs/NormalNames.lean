import Mathlib.Data.Set.List
import PluginAgent.Proofs.ClassEntries

namespace PluginAgent.Archive.EntryName

open Text Utf8

structure Plain (name : List Char) : Prop where
  no_leading : name.head? ≠ some '/'
  no_trailing : name.getLast? ≠ some '/'
  no_doubled : ¬ ['/', '/'] <:+: name
  no_current : ['.'] ∉ splitOn '/' name
  no_parent : ['.', '.'] ∉ splitOn '/' name

theorem Normal.plain {name : List Char} (h : Normal name) : Plain name := by
  rcases h with rfl | hparts
  · exact ⟨nofun, nofun, by simp, by decide, by decide⟩
  have hnone : [] ∉ splitOn '/' name := fun hmem => (hparts [] hmem).ne_nil rfl
  refine ⟨fun hleading => ?_, fun htrailing => ?_, ?_, fun hmem => (hparts _ hmem).ne_current rfl,
    fun hmem => (hparts _ hmem).ne_parent rfl⟩
  · obtain ⟨rest, rfl⟩ := List.head?_eq_some_iff.mp hleading
    rw [splitOn_cons_sep] at hnone
    exact hnone List.mem_cons_self
  · obtain ⟨front, rfl⟩ := List.getLast?_eq_some_iff.mp htrailing
    rw [splitOn_append_cons] at hnone
    exact hnone (List.mem_append_right _ List.mem_cons_self)
  · rintro ⟨front, rest, rfl⟩
    have hslashes : front ++ ['/', '/'] ++ rest = front ++ '/' :: '/' :: rest := by simp
    rw [hslashes, splitOn_append_cons, splitOn_cons_sep] at hnone
    exact hnone (List.mem_append_right _ List.mem_cons_self)

def keptParts (path : List UInt8) : List (List UInt8) :=
  (splitOn slash path).filter fun part => part ≠ [] ∧ part ≠ [dot]

theorem keptParts_encode (text : List Char) :
    keptParts (encode text) = ((splitOn '/' text).filter (Kept ·)).map encode := by
  rw [keptParts, splitOn_encode, List.filter_map]
  refine congrArg _ (List.filter_congr fun part _ => decide_eq_decide.mpr ?_)
  exact and_congr (not_congr (encode_inj (t := []))) (not_congr (encode_inj (t := ['.'])))

variable {path : List UInt8} {name : String}

structure IsSafe (path : List UInt8) : Prop where
  relative : path.head? ≠ some slash
  no_parent : [dot, dot] ∉ splitOn slash path
  utf8 : ∀ part ∈ splitOn slash path, ∃ text, part = encode text

theorem isSafe_iff : IsSafe path ↔ ∃ name, Names path name := by
  constructor
  · intro h
    obtain ⟨texts, htexts⟩ : splitOn slash path ∈ Set.range (List.map encode) := by
      rw [Set.range_list_map]
      exact fun part hpart => (h.utf8 part hpart).imp fun _ => Eq.symm
    obtain ⟨text, rfl, rfl⟩ := exists_encode_iff.mp htexts.symm
    refine ⟨String.ofList (joinWith ['/'] ((splitOn '/' text).filter (Kept ·))), text, rfl,
      mt head?_encode.mpr h.relative, fun hparent => h.no_parent ?_, String.toList_ofList⟩
    rw [← htexts]
    exact List.mem_map_of_mem hparent
  · rintro ⟨name, text, rfl, hrelative, hnone, -⟩
    refine ⟨mt head?_encode.mp hrelative, fun hparent => ?_, fun part hpart => ?_⟩
    · rw [splitOn_encode] at hparent
      obtain ⟨part, hpart, hdots⟩ := List.mem_map.mp hparent
      exact hnone (encode_inj (t := ['.', '.']).mp hdots ▸ hpart)
    · rw [splitOn_encode] at hpart
      obtain ⟨text, -, rfl⟩ := List.mem_map.mp hpart
      exact ⟨text, rfl⟩

theorem Names.normal (h : Names path name) :
    (∃ parts : List (List Char), keptParts path = parts.map encode ∧
      name.toList = joinWith ['/'] parts) ∧ Normal name.toList := by
  refine ⟨?_, normal_of_ofPath (ofPath_names h)⟩
  obtain ⟨text, rfl, -, -, hname⟩ := h
  exact ⟨_, keptParts_encode text, hname⟩

theorem ofPath_encode (h : Normal name.toList) : ofPath (encode name.toList) = .ok name :=
  ofPath_names (names_of_normal h)

theorem normal_form (path : List UInt8) :
    ((∃ name, ofPath path = .ok name) ↔ IsSafe path) ∧
      (∀ name, ofPath path = .ok name →
        (∃ parts : List (List Char), keptParts path = parts.map encode ∧
          name.toList = joinWith ['/'] parts) ∧
        Plain name.toList ∧ ofPath (encode name.toList) = .ok name) ∧
      ∀ c : ClassName, ofPath (encode c.entryPath.toList) = .ok c.entryPath := by
  refine ⟨?_, fun name h => ?_, fun c => ofPath_encode c.normal_entryPath⟩
  · rw [isSafe_iff]
    exact exists_congr fun _ => ofPath_eq_ok_iff
  · obtain ⟨hparts, hnormal⟩ := (ofPath_eq_ok_iff.mp h).normal
    exact ⟨hparts, hnormal.plain, ofPath_encode hnormal⟩

end PluginAgent.Archive.EntryName
