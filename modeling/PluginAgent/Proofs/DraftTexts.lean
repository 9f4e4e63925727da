import PluginAgent.Proofs.ClassEntries
import PluginAgent.Proofs.DeclaredScopes
import PluginAgent.Proofs.Lines
import PluginAgent.Proofs.TableHistory
import PluginAgent.Testing.ArchiveDraft

namespace PluginAgent

open Text

namespace Text

theorem cut?_eq_none {sep : Char} {s : List Char} (h : sep ∉ s) : cut? sep s = none := by
  cases hcut : cut? sep s with
  | none => rfl
  | some found =>
    obtain ⟨rfl, -⟩ := cut?_eq_some_iff.mp hcut
    simp at h

end Text

namespace ClassName

theorem isBlank_of_isNameChar {c : Char} (h : isNameChar c = true) : isBlank c = false := by
  simp only [isNameChar, Bool.or_eq_true, beq_iff_eq] at h
  rcases h with (halphanum | rfl) | rfl
  · have hranges : (decide ('A'.val ≤ c.val ∧ c.val ≤ 'Z'.val) ||
        (decide ('a'.val ≤ c.val) && decide (c.val ≤ 'z'.val)) ||
        (decide ('0'.val ≤ c.val) && decide (c.val ≤ '9'.val))) = true := halphanum
    simp [UInt32.le_iff_toNat_le] at hranges
    simp [isBlank]
    omega
  · decide
  · decide

theorem not_mem_text {c : ClassName} {x : Char} (hx : isNameChar x = false ∧ x ≠ '.') :
    x ∉ c.text.toList := by
  intro hmem
  rcases mem_chars c.flawless hmem with hname | hdot
  · exact Bool.false_ne_true (hx.1.symm.trans hname)
  · exact hx.2 hdot

theorem text_ne_nil (c : ClassName) : c.text.toList ≠ [] := by
  intro hnil
  have hflawless := c.flawless
  rw [hnil] at hflawless
  cases hflawless

end ClassName

namespace Manifest

structure Writable (a : String × String) : Prop where
  name : IsName a.1.toList
  unmarked : a.1.toList.head? ≠ some byteOrderMark
  value : '\n' ∉ a.2.toList

def lineOf (a : String × String) : List Char :=
  a.1.toList ++ ':' :: ' ' :: a.2.toList

variable {attributes : List (String × String)}

theorem toList_manifestText (attributes : List (String × String)) :
    (Testing.ArchiveDraft.manifestText attributes).toList =
      (attributes.map lineOf).flatMap (· ++ ['\r', '\n']) := by
  have hline (a : String × String) :
      (toString a.1 ++ toString ": " ++ toString a.2 ++ toString "\r\n").toList =
        lineOf a ++ ['\r', '\n'] := by
    have hcolon : (toString ": ").toList = [':', ' '] := by decide
    have hend : (toString "\r\n").toList = ['\r', '\n'] := by decide
    rw [String.toList_append, String.toList_append, String.toList_append, hcolon, hend, lineOf]
    simp [toString]
  rw [Testing.ArchiveDraft.manifestText, String.toList_join, List.flatMap_map, List.flatMap_map]
  exact List.flatMap_congr fun a _ => hline a

theorem reads_lines (h : ∀ a ∈ attributes, Writable a) : Reads (attributes.map lineOf) attributes := by
  induction attributes with
  | nil => exact .done
  | cons a rest ih =>
    obtain ⟨ha, hrest⟩ := List.forall_mem_cons.mp h
    have hreads := @Reads.named a.1.toList [] (' ' :: a.2.toList) _ _ [] ha.name nofun (ih hrest)
    simpa [lineOf, withoutSpace] using hreads

theorem newline_not_mem_lineOf {a : String × String} (h : Writable a) : '\n' ∉ lineOf a := by
  rw [lineOf, List.mem_append, not_or]
  refine ⟨fun hname => ?_, ?_⟩
  · exact absurd (h.name.not_blank _ hname) (by decide)
  · simpa using h.value

theorem withoutMark_lines (h : ∀ a ∈ attributes, Writable a) :
    withoutMark ((attributes.map lineOf).flatMap (· ++ ['\r', '\n'])) =
      (attributes.map lineOf).flatMap (· ++ ['\r', '\n']) := by
  cases attributes with
  | nil => rfl
  | cons a rest =>
    obtain ⟨ha, -⟩ := List.forall_mem_cons.mp h
    refine withoutMark_of_ne ?_
    rw [List.map_cons, List.flatMap_cons, lineOf, List.append_assoc, List.append_assoc,
      List.head?_append_of_ne_nil _ ha.name.ne_nil]
    exact ha.unmarked

theorem ofBytes_manifestText (h : ∀ a ∈ attributes, Writable a) :
    ofBytes (Testing.ArchiveDraft.manifestText attributes).toUTF8 = .ok ⟨attributes⟩ := by
  refine ofBytes_eq_ok_iff.mpr ⟨_, Utf8.toUTF8_eq_encode _, ?_⟩
  have hlines : ∀ line ∈ attributes.map lineOf, '\n' ∉ line := by
    intro line hline
    obtain ⟨a, ha, rfl⟩ := List.mem_map.mp hline
    exact newline_not_mem_lineOf (h a ha)
  rw [toList_manifestText, withoutMark_lines h, lines_flatMap_crlf hlines]
  exact reads_lines h

end Manifest

namespace Descriptor

theorem clean_text (c : ClassName) : clean c.text.toList = c.text.toList := by
  have hblank {x : Char} (hmem : x ∈ c.text.toList) : isBlank x = false := by
    rcases ClassName.mem_chars c.flawless hmem with hname | rfl
    · exact ClassName.isBlank_of_isNameChar hname
    · decide
  have htrimmed : Trimmed c.text.toList :=
    ⟨fun x hx => hblank (List.mem_of_mem_head? hx), fun x hx => hblank (List.mem_of_getLast? hx)⟩
  rw [clean, cut?_eq_none (ClassName.not_mem_text (by decide))]
  exact htrimmed.trim_eq

theorem parseLines_cleaned {ls : List (List Char)} {types : List ClassName} (n : Nat)
    (seen : List ClassName)
    (h : (ls.map clean).filter (!·.isEmpty) = types.map (·.text.toList)) :
    parseLines n seen.eraseDups.reverse ls = .ok ⟨(seen ++ types).eraseDups⟩ := by
  induction ls generalizing n seen types with
  | nil =>
    obtain rfl := List.map_eq_nil_iff.mp h.symm
    rw [parseLines, List.reverse_reverse, List.append_nil]
  | cons line rest ih =>
    rw [List.map_cons] at h
    rw [parseLines]
    by_cases hempty : (clean line).isEmpty = true
    · rw [List.filter_cons_of_neg (by simp [hempty])] at h
      simp only [hempty, if_true]
      exact ih (n + 1) seen h
    · rw [List.filter_cons_of_pos (by simp [hempty])] at h
      obtain ⟨c, others, rfl, hline, hrest⟩ := List.map_eq_cons_iff.mp h.symm
      have hname : ClassName.ofString (String.ofList (clean line)) = .ok c :=
        ClassName.ofString_ok_iff.mpr (by rw [← hline, String.ofList_toList])
      have hdone : (if seen.eraseDups.reverse.contains c then seen.eraseDups.reverse
          else c :: seen.eraseDups.reverse) = (seen ++ [c]).eraseDups.reverse := by
        rw [eraseDups_concat]
        by_cases hmem : c ∈ seen <;> simp [hmem]
      simp only [hempty, hname, hdone]
      have hlater := ih (n + 1) (seen ++ [c]) hrest.symm
      rw [List.append_assoc] at hlater
      exact hlater

def comment : List Char :=
  "# Plugins provided by this archive".toList

theorem toList_descriptorText (plugins : List Testing.ListedPlugin) :
    (Testing.ArchiveDraft.descriptorText plugins).toList =
      (comment :: plugins.map (·.type.toList)).flatMap (· ++ ['\n']) := by
  have hcomment : "# Plugins provided by this archive\n".toList = comment ++ ['\n'] := by
    decide +kernel
  have hend : "\n".toList = ['\n'] := rfl
  -- Unfolding by its equation would evaluate the text of the comment.
  change ("# Plugins provided by this archive\n" ++
    String.join (plugins.map (·.type ++ "\n"))).toList = _
  simp only [String.toList_append, String.toList_join, List.flatMap_map, List.flatMap_cons,
    hcomment, hend]

theorem cleaned_texts (types : List ClassName) :
    ((comment :: types.map (·.text.toList)).map clean).filter (!·.isEmpty) =
      types.map (·.text.toList) := by
  have hcomment : clean comment = [] := by decide
  have hclean : (types.map (·.text.toList)).map clean = types.map (·.text.toList) := by
    rw [List.map_map]
    exact List.map_congr_left fun c _ => clean_text c
  rw [List.map_cons, hcomment, List.filter_cons_of_neg (by decide), hclean]
  refine List.filter_eq_self.mpr fun line hline => ?_
  obtain ⟨c, -, rfl⟩ := List.mem_map.mp hline
  simpa using c.text_ne_nil

theorem ofBytes_descriptorText {plugins : List Testing.ListedPlugin} {types : List ClassName}
    (h : plugins.map (·.type) = types.map (·.text)) :
    ofBytes (Testing.ArchiveDraft.descriptorText plugins).toUTF8 = .ok ⟨types.eraseDups⟩ := by
  have htexts : plugins.map (·.type.toList) = types.map (·.text.toList) := by
    have hlists := congrArg (List.map String.toList) h
    rwa [List.map_map, List.map_map] at hlists
  have hlines : ∀ line ∈ comment :: types.map (·.text.toList), '\n' ∉ line ∧ '\r' ∉ line := by
    intro line hline
    rcases List.mem_cons.mp hline with rfl | hline
    · decide
    · obtain ⟨c, -, rfl⟩ := List.mem_map.mp hline
      exact ⟨ClassName.not_mem_text (by decide), ClassName.not_mem_text (by decide)⟩
  rw [ofBytes, Utf8.decode_eq_ok_iff.mpr (Utf8.toUTF8_eq_encode _)]
  simp only [parse, toList_descriptorText, htexts]
  rw [lines_flatMap_lf hlines]
  exact parseLines_cleaned 1 [] (cleaned_texts types)

end Descriptor

end PluginAgent
