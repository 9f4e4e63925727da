import Mathlib.Logic.Relation
import PluginAgent.Proofs.TarRoundTrip

namespace PluginAgent.Codec.Tar

abbrev Place :=
  Nat × Described

inductive Step (s : Gzip.Stream) : Place → Place → Prop
  | described {pos d l d'} (hlook : headerAt s d.extended pos = .ok (some l))
      (h : describe s l d = .ok (some d')) : Step s (pos, d) (l.after, d')
  | member {pos d l} (hlook : headerAt s d.extended pos = .ok (some l))
      (h : describe s l d = .ok none) (hflag : l.header.flag ≠ 'S') : Step s (pos, d) (l.after, {})
  | sparse {pos d l count} (hlook : headerAt s d.extended pos = .ok (some l))
      (h : describe s l d = .ok none) (hflag : l.header.flag = 'S')
      (hmap : sparseMap s l = .ok count) : Step s (pos, d) (l.after + count * blockSize, {})

abbrev Leads (s : Gzip.Stream) : Place → Place → Prop :=
  Relation.ReflTransGen (Step s)

def StatesSize (extended : List UInt8) : Prop :=
  ∃ line ∈ recordLines extended, ∃ value, record? line = some ("size".toUTF8.data.toList, value)

/-- No extended header that a reader of the sequence comes by states a size. -/
def NoSizeRecords (s : Gzip.Stream) : Prop :=
  ∀ pos d extended, Leads s (0, {}) (pos, d) → d.extended = some extended → ¬StatesSize extended

theorem recordSize?_eq_none {extended : List UInt8} (h : ¬StatesSize extended) :
    recordSize? extended = none := by
  rw [recordSize?]
  split
  · rename_i line hline
    cases hrecord : record? line with
    | none => rfl
    | some r =>
      obtain ⟨key, value⟩ := r
      have hkey := List.find?_some hline
      simp only [hrecord, beq_iff_eq] at hkey
      exact absurd ⟨line, List.mem_of_find?_eq_some hline, value, hkey ▸ hrecord⟩ h
  · rfl

variable {s : Gzip.Stream} {pos after fuel : Nat} {d : Described} {l : Located} {m : Member}
  {extended : Option (List UInt8)}

theorem le_size_of_headerAt {found : Option Located} (h : headerAt s extended pos = .ok found) :
    pos ≤ s.bytes.size := by
  rw [headerAt] at h
  split at h
  · cases h
  · rename_i hle
    exact Nat.le_of_not_gt hle

theorem headerAt_eq_some (h : headerAt s extended pos = .ok (some l)) :
    l.start = pos + blockSize ∧ l.start ≤ s.bytes.size ∧
      ∃ size, l.header.size? = some size ∧
        l.size = if size = 0 then (extended.bind recordSize?).getD 0 else size := by
  rw [headerAt] at h
  split at h
  · cases h
  split at h
  · split at h <;> cases h
  split at h
  · cases h
  rename_i hfits
  simp only at h
  split at h
  · cases h
  split at h
  · cases h
  split at h
  · cases h
  split at h
  · cases h
  rename_i size hsize
  generalize hchosen : (if size = 0 then (extended.bind recordSize?).getD 0 else size) = chosen at h
  split at h
  · cases h
  obtain rfl := Option.some.inj (Except.ok.inj h)
  exact ⟨rfl, Nat.le_of_not_gt hfits, size, hsize, hchosen.symm⟩

theorem declared_of_headerAt (h : headerAt s extended pos = .ok (some l))
    (hnone : ∀ records, extended = some records → ¬StatesSize records) :
    l.size = l.header.size?.getD 0 := by
  obtain ⟨-, -, size, hsize, hl⟩ := headerAt_eq_some h
  have hextended : (extended.bind recordSize?).getD 0 = 0 := by
    cases extended with
    | none => rfl
    | some records => rw [Option.bind_some, recordSize?_eq_none (hnone records rfl)]; rfl
  rw [hl, hsize, hextended, Option.getD_some]
  split
  · rename_i hzero
    exact hzero.symm
  · rfl

theorem nextMember_eq_ok (h : nextMember s fuel d pos = .ok (some (m, after))) :
    ∃ pos' d' l, Leads s (pos, d) (pos', d') ∧ headerAt s d'.extended pos' = .ok (some l) ∧
      m = memberAt s d' l ∧ Step s (pos', d') (after, {}) ∧
      (l.header.flag ≠ 'S' → after = l.after) := by
  induction fuel generalizing d pos with
  | zero => cases h
  | succ fuel ih =>
    rw [nextMember] at h
    split at h
    · cases h
    · split at h <;> cases h
    · rename_i l hlook
      split at h
      · cases h
      · rename_i described hdescribe
        obtain ⟨pos', d', l', hleads, hrest⟩ := ih h
        exact ⟨pos', d', l', .head (.described hlook hdescribe) hleads, hrest⟩
      · rename_i hdescribe
        split at h
        · rename_i hflag
          split at h
          · cases h
          · rename_i count hmap
            obtain ⟨rfl, rfl⟩ := Prod.mk.inj (Option.some.inj (Except.ok.inj h))
            exact ⟨pos, d, l, .refl, hlook, rfl, .sparse hlook hdescribe hflag hmap,
              fun hne => absurd hflag hne⟩
        · rename_i hflag
          obtain ⟨rfl, rfl⟩ := Prod.mk.inj (Option.some.inj (Except.ok.inj h))
          exact ⟨pos, d, l, .refl, hlook, rfl, .member hlook hdescribe hflag, fun _ => rfl⟩

theorem le_size_of_nextMember {found : Option (Member × Nat)}
    (h : nextMember s fuel d pos = .ok found) : pos ≤ s.bytes.size := by
  cases fuel with
  | zero => cases h
  | succ fuel =>
    rw [nextMember] at h
    split at h
    · cases h
    · rename_i hlook
      exact le_size_of_headerAt hlook
    · rename_i l hlook
      exact le_size_of_headerAt hlook

theorem le_size_of_membersFrom {done : List Member}
    (h : (membersFrom s fuel pos done).fault = none) : pos ≤ s.bytes.size := by
  cases fuel with
  | zero => cases h
  | succ fuel =>
    rw [membersFrom] at h
    split at h
    · cases h
    · rename_i hnext
      exact le_size_of_nextMember hnext
    · rename_i hnext
      exact le_size_of_nextMember hnext

def Met (s : Gzip.Stream) (m : Member) (l : Located) : Prop :=
  ∃ pos d, Leads s (0, {}) (pos, d) ∧ headerAt s d.extended pos = .ok (some l) ∧ m = memberAt s d l

theorem met_of_mem_membersFrom {done : List Member} (hleads : Leads s (0, {}) (pos, {}))
    (hm : m ∈ (membersFrom s fuel pos done).members) :
    m ∈ done ∨ ∃ l, Met s m l ∧
      ((membersFrom s fuel pos done).fault = none → m.regular = true →
        l.after ≤ s.bytes.size) := by
  induction fuel generalizing pos done with
  | zero => exact .inl (List.mem_reverse.mp hm)
  | succ fuel ih =>
    rw [membersFrom] at hm ⊢
    split at hm
    · exact .inl (List.mem_reverse.mp hm)
    · exact .inl (List.mem_reverse.mp hm)
    · rename_i first after hnext
      obtain ⟨pos', d', l, hinner, hlook, rfl, hstep, hafter⟩ := nextMember_eq_ok hnext
      have hplace := hleads.trans hinner
      rcases ih (hplace.tail hstep) hm with hmem | hlater
      · rcases List.mem_cons.mp hmem with rfl | hdone
        · refine .inr ⟨l, ⟨pos', d', hplace, hlook, rfl⟩, fun hfault hregular => ?_⟩
          have hflag : l.header.flag ≠ 'S' := by
            intro hsparse
            simp [memberAt, hsparse] at hregular
          exact hafter hflag ▸ le_size_of_membersFrom hfault
        · exact .inl hdone
      · exact .inr hlater

theorem met_of_mem_listing {file : ByteArray} (hm : m ∈ (listing file).members) :
    ∃ l, Met (Gzip.decode file) m l ∧ ((listing file).fault = none → m.regular = true →
      l.after ≤ (Gzip.decode file).bytes.size) :=
  (met_of_mem_membersFrom .refl hm).resolve_left List.not_mem_nil

namespace Met

variable (h : Met s m l)

include h

theorem size_content : m.content.size = min l.size (s.bytes.size - l.start) := by
  obtain ⟨pos, d, -, hlook, rfl⟩ := h
  obtain ⟨-, hstart, -⟩ := headerAt_eq_some hlook
  simp only [memberAt, contentOf, ByteArray.size_extract]
  omega

theorem stated : l.header.size? = some m.declared := by
  obtain ⟨pos, d, -, hlook, rfl⟩ := h
  obtain ⟨-, -, size, hsize, -⟩ := headerAt_eq_some hlook
  rw [memberAt, hsize, Option.getD_some]

theorem declared_eq (hsizes : NoSizeRecords s) : m.declared = l.size := by
  obtain ⟨pos, d, hleads, hlook, rfl⟩ := h
  exact (declared_of_headerAt hlook (hsizes pos d · hleads)).symm

theorem undamaged (hend : l.start + l.size ≤ s.bytes.size) : m.damaged = false := by
  obtain ⟨pos, d, -, -, rfl⟩ := h
  simp only [memberAt, contentDamaged, decide_eq_false (Nat.not_lt.mpr hend), Bool.and_false]

end Met

structure Member.IsWhole (m : Member) : Prop where
  size_eq : m.content.size = m.declared
  undamaged : m.damaged = false

theorem Met.isWhole (h : Met s m l) (hsizes : NoSizeRecords s)
    (hend : l.start + l.size ≤ s.bytes.size) : m.IsWhole where
  size_eq := by
    rw [h.size_content, h.declared_eq hsizes]
    omega
  undamaged := h.undamaged hend

theorem Located.end_le_after (l : Located) : l.start + l.size ≤ l.after :=
  Nat.add_le_add_left (le_roundUp l.size) l.start

theorem isWhole_listing {file : ByteArray} (hsizes : NoSizeRecords (Gzip.decode file))
    (h : (listing file).fault = none) {m : Member} (hm : m ∈ (listing file).members)
    (hregular : m.regular = true) : m.IsWhole := by
  obtain ⟨l, hmet, hafter⟩ := met_of_mem_listing hm
  exact hmet.isWhole hsizes (Nat.le_trans l.end_le_after (hafter h hregular))

theorem undamaged_listing {file : ByteArray} (h : (listing file).fault = none) {m : Member}
    (hm : m ∈ (listing file).members) (hregular : m.regular = true) : m.damaged = false := by
  obtain ⟨l, hmet, hafter⟩ := met_of_mem_listing hm
  exact hmet.undamaged (Nat.le_trans l.end_le_after (hafter h hregular))

variable {q : Place}

theorem not_step_of_end (hlook : headerAt s d.extended pos = .ok none) : ¬Step s (pos, d) q := by
  intro h
  cases h with
  | described hfound => cases hlook.symm.trans hfound
  | member hfound => cases hlook.symm.trans hfound
  | sparse hfound => cases hlook.symm.trans hfound

theorem Step.unique {p q₁ q₂ : Place} (h₁ : Step s p q₁) (h₂ : Step s p q₂) : q₁ = q₂ := by
  cases h₁ <;> cases h₂ <;> grind

theorem eq_of_step_member {draft : Draft} (hplain : draft.Plain) (hs : Whole s)
    (h : Holds s.bytes pos (memberBytes draft.name draft.flag draft.content))
    (hd : d.extended = none) (hstep : Step s (pos, d) q) :
    q = (pos + (blockSize + roundUp draft.content.size), {}) := by
  obtain ⟨hlook, hdescribe, hflag⟩ := located_of_holds hplain hs h hd
  rw [← located_after]
  exact hstep.unique (.member hlook hdescribe hflag)

theorem leads_of_holds_bytes {draft : Draft} (hplain : draft.Plain) (hs : Whole s)
    (h : Holds s.bytes pos draft.bytes) (hleads : Leads s (pos, {}) q) :
    q.2.extended = none ∨ Leads s (pos + draft.bytes.length, {}) q := by
  rcases hleads.cases_head with rfl | ⟨q₁, hstep, hmore⟩
  · exact .inl rfl
  rw [Draft.bytes, hplain.declared] at h ⊢
  change Holds s.bytes pos (_ ++ memberBytes draft.name draft.flag draft.content) at h
  change _ ∨ Leads s
    (pos + List.length (_ ++ memberBytes draft.name draft.flag draft.content), {}) q
  rcases Nat.lt_or_ge nameWidth draft.name.size with hlong | hshort
  · rw [if_pos hlong, toList_longNameMember] at h ⊢
    obtain ⟨hname, hmember⟩ := holds_append.mp h
    obtain rfl := hstep.unique
      (.described (d := {}) (headerAt_of_holds hs hname) (describe_longName hs hname rfl))
    rcases hmore.cases_head with rfl | ⟨q₂, hnext, hmore⟩
    · exact .inl rfl
    rw [length_memberBytes] at hmember
    rw [located_after] at hnext
    obtain rfl := eq_of_step_member hplain hs hmember rfl hnext
    rw [List.length_append, length_memberBytes, length_memberBytes, ← Nat.add_assoc]
    exact .inr hmore
  · rw [if_neg (Nat.not_lt.mpr hshort), List.nil_append] at h ⊢
    obtain rfl := eq_of_step_member hplain hs h rfl hstep
    rw [length_memberBytes]
    exact .inr hmore

theorem no_extended_of_holds {drafts : List Draft} (hplain : ∀ draft ∈ drafts, draft.Plain)
    (hs : Whole s)
    (h : Holds s.bytes pos (drafts.flatMap Draft.bytes ++ (zeros blockSize).data.toList))
    (hleads : Leads s (pos, {}) q) : q.2.extended = none := by
  induction drafts generalizing pos with
  | nil =>
    rcases hleads.cases_head with rfl | ⟨_, hstep, -⟩
    · rfl
    · exact absurd hstep (not_step_of_end (headerAt_of_blank h))
  | cons draft rest ih =>
    rw [List.flatMap_cons, List.append_assoc] at h
    obtain ⟨hdraft, hrest⟩ := holds_append.mp h
    rcases leads_of_holds_bytes (hplain draft List.mem_cons_self) hs hdraft hleads with
      hnone | hlater
    · exact hnone
    · exact ih (fun draft hd => hplain draft (List.mem_cons_of_mem _ hd)) hrest hlater

theorem noSizeRecords_file {drafts : List Draft} (hplain : ∀ draft ∈ drafts, draft.Plain)
    (hbound : (write drafts).size < wordBound) : NoSizeRecords (Gzip.decode (file drafts)) := by
  have hwhole : Whole ⟨write drafts, false⟩ := ⟨rfl, hbound⟩
  intro pos d extended hleads hextended
  rw [file, Gzip.decode_encode] at hleads
  cases hextended.symm.trans (no_extended_of_holds hplain hwhole (holds_write drafts) hleads)

end PluginAgent.Codec.Tar
