import Mathlib.Tactic.SplitIfs
import PluginAgent.Archive.EntryName
import PluginAgent.Proofs.Utf8Coding

namespace PluginAgent

open Text

namespace Path

variable {α : Type} [DecidableEq α] {slash dot : α} {path part : List α}

theorem name_mem_componentsOfPart {piece : List α}
    (h : .name part ∈ componentsOfPart dot piece) :
    part = piece ∧ part ≠ [] ∧ part ≠ [dot] ∧ part ≠ [dot, dot] := by
  rw [componentsOfPart] at h
  split_ifs at h with hnothing hparent
  · simp at h
  · simp at h
  · obtain rfl : part = piece := by simpa using h
    exact ⟨rfl, fun he => hnothing (.inl he), fun he => hnothing (.inr he), hparent⟩

theorem name_mem_componentsOf (h : .name part ∈ componentsOf slash dot path) :
    part ∈ splitOn slash path ∧ part ≠ [] ∧ part ≠ [dot] ∧ part ≠ [dot, dot] := by
  rw [componentsOf] at h
  split at h
  · simp at h
  · rename_i first rest hsplit
    rw [hsplit]
    rcases List.mem_append.mp h with hfirst | hrest
    · split_ifs at hfirst with hroot hcurrent
      · simp at hfirst
      · simp at hfirst
      · obtain ⟨rfl, hpart⟩ := name_mem_componentsOfPart hfirst
        exact ⟨List.mem_cons_self, hpart⟩
    · obtain ⟨piece, hpiece, hmem⟩ := List.mem_flatMap.mp hrest
      obtain ⟨rfl, hpart⟩ := name_mem_componentsOfPart hmem
      exact ⟨List.mem_cons_of_mem first hpiece, hpart⟩

end Path

namespace Archive.EntryName

structure IsPart (part : List Char) : Prop where
  ne_nil : part ≠ []
  ne_current : part ≠ ['.']
  ne_parent : part ≠ ['.', '.']
  slash_not_mem : '/' ∉ part

instance (part : List Char) : Decidable (IsPart part) :=
  decidable_of_iff (part ≠ [] ∧ part ≠ ['.'] ∧ part ≠ ['.', '.'] ∧ '/' ∉ part)
    ⟨fun h => ⟨h.1, h.2.1, h.2.2.1, h.2.2.2⟩, fun h => ⟨h.1, h.2, h.3, h.4⟩⟩

def Normal (name : List Char) : Prop :=
  name = [] ∨ ∀ part ∈ splitOn '/' name, IsPart part

theorem normal_joinWith {parts : List (List Char)} (h : ∀ part ∈ parts, IsPart part) :
    Normal (joinWith ['/'] parts) := by
  cases parts with
  | nil => exact .inl rfl
  | cons first rest =>
    right
    rw [splitOn_joinWith (fun part hpart => (h part hpart).slash_not_mem) (by simp)]
    exact h

theorem isPart_decode {part : List UInt8} {text : List Char}
    (hdecode : Utf8.decode ⟨part.toArray⟩ = .ok text) (hnil : part ≠ []) (hcurrent : part ≠ [dot])
    (hparent : part ≠ [dot, dot]) (hslash : slash ∉ part) : IsPart text := by
  have hpart : part = text.flatMap String.utf8EncodeChar := Utf8.decode_encodes hdecode
  refine ⟨?_, ?_, ?_, ?_⟩
  · rintro rfl
    exact hnil hpart
  · rintro rfl
    exact hcurrent hpart
  · rintro rfl
    exact hparent hpart
  · intro hmem
    refine hslash ?_
    rw [hpart, List.mem_flatMap]
    exact ⟨'/', hmem, by decide⟩

theorem mem_namesOf {shown : String} {components : List (Path.Component UInt8)}
    {names : List (List Char)} (h : namesOf shown components = .ok names) {text : List Char}
    (hmem : text ∈ names) :
    ∃ part, .name part ∈ components ∧ Utf8.decode ⟨part.toArray⟩ = .ok text := by
  induction components generalizing names with
  | nil =>
    obtain rfl := Except.ok.inj h
    simp at hmem
  | cons component rest ih =>
    cases component with
    | current =>
      obtain ⟨part, hpart, hdecode⟩ := ih h hmem
      exact ⟨part, List.mem_cons_of_mem _ hpart, hdecode⟩
    | name part =>
      rw [namesOf] at h
      split at h
      · cases h
      · rename_i first hfirst
        cases hrest : namesOf shown rest with
        | error f => simp [hrest, Except.map] at h
        | ok others =>
          rw [hrest] at h
          obtain rfl := Except.ok.inj h
          rcases List.mem_cons.mp hmem with rfl | hothers
          · exact ⟨part, List.mem_cons_self, hfirst⟩
          · obtain ⟨part', hpart', hdecode⟩ := ih hrest hothers
            exact ⟨part', List.mem_cons_of_mem _ hpart', hdecode⟩
    | root => cases h
    | parent => cases h

theorem normal_of_ofPath {path : List UInt8} {name : String} (h : ofPath path = .ok name) :
    Normal name.toList := by
  rw [ofPath] at h
  cases hnames : namesOf (Utf8.decodeLossy ⟨path.toArray⟩) (Path.componentsOf slash dot path) with
  | error f => simp [hnames, Except.map] at h
  | ok names =>
    rw [hnames] at h
    obtain rfl := Except.ok.inj h
    rw [String.toList_ofList]
    refine normal_joinWith ?_
    intro text htext
    obtain ⟨part, hpart, hdecode⟩ := mem_namesOf hnames htext
    obtain ⟨hpiece, hnil, hcurrent, hparent⟩ := Path.name_mem_componentsOf hpart
    exact isPart_decode hdecode hnil hcurrent hparent (not_mem_of_mem_splitOn hpiece)

end Archive.EntryName

end PluginAgent
