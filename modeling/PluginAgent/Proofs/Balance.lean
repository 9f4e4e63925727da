import PluginAgent.Proofs.Accounts
import PluginAgent.Proofs.LoadParts
import PluginAgent.Proofs.PackedEntries

namespace PluginAgent

theorem countP_flatMap_ite {α β : Type} {xs : List α} {f : α → List β} {p : β → Bool}
    {q : α → Bool} (h : ∀ x, (f x).countP p = if q x then 1 else 0) :
    (xs.flatMap f).countP p = xs.countP q := by
  induction xs with
  | nil => rfl
  | cons x xs ih =>
    rw [List.flatMap_cons, List.countP_append, h, ih, List.countP_cons, Nat.add_comm]

theorem countP_of_not_mem {α β : Type} [DecidableEq β] {xs : List α} {f : α → β} (q : α → Bool)
    {y : β} (h : y ∉ xs.map f) : xs.countP (fun x => decide (f x = y) && q x) = 0 := by
  refine List.countP_eq_zero.mpr ?_
  intro x hx hsame
  simp only [Bool.and_eq_true, decide_eq_true_eq] at hsame
  exact h (hsame.1 ▸ List.mem_map_of_mem hx)

theorem countP_of_nodup {α β : Type} [DecidableEq β] {xs : List α} {f : α → β} (q : α → Bool)
    (h : (xs.map f).Nodup) {x : α} (hx : x ∈ xs) :
    xs.countP (fun y => decide (f y = f x) && q y) = if q x then 1 else 0 := by
  induction xs with
  | nil => cases hx
  | cons y xs ih =>
    obtain ⟨hfresh, hrest⟩ := List.nodup_cons.mp h
    rw [List.countP_cons]
    rcases List.mem_cons.mp hx with rfl | hx
    · simp [countP_of_not_mem q hfresh]
    · have hother : f y ≠ f x := fun hsame => hfresh (hsame ▸ List.mem_map_of_mem hx)
      rw [ih hrest hx]
      simp [hother]

namespace Loader

variable {σ : Type}

/-- How often an account tells of a plugin: that it was skipped, that its set-up was called, that it
gave a result, that it failed. -/
structure Tally where
  skips : Nat := 0
  calls : Nat := 0
  results : Nat := 0
  failures : Nat := 0
  deriving DecidableEq, Repr

namespace Turn

variable {space : NamespaceId} {a : Listed}

def called (t : Turn) : Bool :=
  match t.ending with
  | .inaccessible _ => false
  | .returned _ _ => true

theorem countP_said (p : Note → Bool) (h : ∀ e, p (.logged e) = false) (said : List Event) :
    (said.map Note.logged).countP p = 0 := by
  simp [List.countP_eq_zero, h]

theorem countP_calls (type : ClassName) (t : Turn) :
    (t.notes space a).countP (Note.calls type) =
      if decide (t.candidate.type = type) && t.called then 1 else 0 := by
  rcases t with ⟨c, e | ⟨said, r⟩⟩
  · simp [notes, called]
  · simp only [notes, List.countP_append, List.countP_cons,
      countP_said (Note.calls type) fun _ => rfl]
    by_cases htype : c.type = type <;> simp [Note.calls, called, injector, htype]

theorem countP_yields (type : ClassName) (t : Turn) :
    (t.notes space a).countP (Note.yields type) =
      if decide (t.candidate.type = type) && t.made then 1 else 0 := by
  rcases t with ⟨c, e | ⟨said, r⟩⟩
  · simp [notes, made, answer]
  · simp only [notes, List.countP_append, List.countP_cons,
      countP_said (Note.yields type) fun _ => rfl]
    by_cases htype : c.type = type <;> cases r <;>
      simp [Note.yields, made, answer, injector, htype]

theorem eq_of_mem_verdict {t : Turn} {event : Event} (h : event ∈ t.verdict a) :
    ∃ e, event = skippedPlugin a t.candidate e := by
  simp only [verdict] at h
  split at h
  · cases h
  · split at h
    · cases h
    · exact ⟨_, List.mem_singleton.mp h⟩

theorem countP_failures (type : ClassName) (t : Turn) :
    (t.events a).countP (Event.tells .warn "Plugin setup failed, skipping plugin" type) =
      if decide (t.candidate.type = type) && t.failed then 1 else 0 := by
  rcases hr : t.answer with e | r
  · have htext : type.text = t.candidate.type.text ↔ t.candidate.type = type := by
      rw [ClassName.text_inj, eq_comm]
    by_cases htype : t.candidate.type = type <;> cases he : e.isUnavailable <;>
      simp [events, verdict, failed, hr, he, loading, skippedPlugin, Event.tells, htext, htype]
  · simp [events, verdict, failed, hr, loading, Event.tells]

theorem countP_skips (type : ClassName) (t : Turn) :
    (t.events a).countP (Event.tells .info "Skip disabled plugin" type) = 0 := by
  rcases hr : t.answer with e | r
  · cases he : e.isUnavailable <;>
      simp [events, verdict, hr, he, loading, skippedPlugin, Event.tells]
  · simp [events, verdict, hr, loading, Event.tells]

theorem failed_of_made {t : Turn} (h : t.made = true) : t.failed = false := by
  rcases hr : t.answer with e | r
  · simp [made, hr] at h
  · simp [failed, hr]

theorem made_of_failed {t : Turn} (h : t.failed = true) : t.made = false := by
  rcases hr : t.answer with e | r
  · simp [made, hr]
  · simp [failed, hr] at h

theorem called_of_made {t : Turn} (h : t.made = true) : t.called = true := by
  rcases t with ⟨c, e | ⟨said, r⟩⟩
  · simp [made, answer] at h
  · rfl

theorem called_of_failed {finds : Candidate → Disk → Prop} {t : Turn}
    (hgenuine : t.Genuine a finds) (h : t.failed = true) : t.called = true := by
  rcases t with ⟨c, e | ⟨said, r⟩⟩
  · obtain ⟨disk, -, he⟩ := hgenuine e rfl
    have hgone : e.isUnavailable = true := by
      simp only [verify] at he
      split at he
      · cases he
      · obtain rfl := Except.error.inj he
        rfl
    simp [failed, answer, hgone] at h
  · rfl

end Turn

namespace Taken

variable {cs left : List Candidate} {turns : List Turn} {e : Option PluginError}

theorem candidates (h : Taken cs turns left e) : turns.map (·.candidate) ++ left.tail = cs := by
  induction h with
  | none => rfl
  | next _ _ ih => rw [List.map_cons, List.cons_append, ih]
  | stop => rfl

theorem suffix (h : Taken cs turns left e) : left <:+ cs := by
  induction h with
  | none => exact List.suffix_refl []
  | next _ _ ih => exact ih.trans (List.suffix_cons _ _)
  | stop => exact List.suffix_refl _

theorem perm (h : Taken cs turns left e) :
    ((turns.filter (·.made)).map (·.candidate) ++ ((turns.filter (·.failed)).map (·.candidate) ++
      left)).Perm cs := by
  induction h with
  | none => exact .refl []
  | @next t cs ts left e hends _ ih =>
    rcases hends with hmade | hfailed
    · have hfailed := Turn.failed_of_made hmade
      simp only [List.filter_cons, hmade, hfailed, if_true, Bool.false_eq_true, if_false,
        List.map_cons, List.cons_append]
      exact ih.cons _
    · have hmade := Turn.made_of_failed hfailed
      simp only [List.filter_cons, hmade, hfailed, if_true, Bool.false_eq_true, if_false,
        List.map_cons, List.cons_append]
      exact List.perm_middle.trans (ih.cons _)
  | @stop t cs e ht he =>
    simp [Turn.made, Turn.failed, ht, he]

theorem of_left {c : Candidate} {rest : List Candidate} (h : Taken cs turns left e)
    (hleft : left = c :: rest) : ∃ t ∈ turns, t.candidate = c ∧ ∃ error,
      t.answer = .error error ∧ error.isUnavailable = true ∧ e = some error := by
  induction h with
  | none => cases hleft
  | next _ _ ih =>
    obtain ⟨t, ht, hc⟩ := ih hleft
    exact ⟨t, List.mem_cons_of_mem _ ht, hc⟩
  | @stop t cs error ht he =>
    obtain ⟨rfl, -⟩ := List.cons.inj hleft
    exact ⟨t, List.mem_cons_self, rfl, error, ht, he, rfl⟩

theorem of_nil (h : Taken cs turns left e) (hleft : left = []) : e = Option.none := by
  induction h with
  | none => rfl
  | next _ _ ih => exact ih hleft
  | stop => cases hleft

end Taken

namespace Account

def tally (acc : Account) (type : ClassName) : Tally where
  skips := acc.events.countP (Event.tells .info "Skip disabled plugin" type)
  calls := acc.notes.countP (Note.calls type)
  results := acc.notes.countP (Note.yields type)
  failures := acc.events.countP (Event.tells .warn "Plugin setup failed, skipping plugin" type)

theorem countP_stopped (acc : Account) (level : Level) (message : String) (type : ClassName) :
    (acc.stopped.map (skippedRest acc.listed)).toList.countP (Event.tells level message type) =
      0 := by
  cases acc.stopped <;> simp [skippedRest, Event.tells]

theorem tally_eq (acc : Account) (type : ClassName) :
    acc.tally type =
      { skips := acc.skipped.countP fun c => decide (c.type = type)
        calls := acc.turns.countP fun t => decide (t.candidate.type = type) && t.called
        results := acc.turns.countP fun t => decide (t.candidate.type = type) && t.made
        failures := acc.turns.countP fun t => decide (t.candidate.type = type) && t.failed } := by
  have hskips : (acc.turns.flatMap (·.events acc.listed)).countP
      (Event.tells .info "Skip disabled plugin" type) = 0 := by
    rw [countP_flatMap_ite (q := fun _ => false) fun t => t.countP_skips type]
    simp
  have hskipped : (acc.skipped.map (·.skipped)).countP
      (Event.tells .info "Skip disabled plugin" type) =
        acc.skipped.countP fun c => decide (c.type = type) := by
    rw [List.countP_map]
    refine List.countP_congr ?_
    intro c hc
    simp [Candidate.skipped, Event.tells, ClassName.text_inj, eq_comm]
  have hfailures : (acc.skipped.map (·.skipped)).countP
      (Event.tells .warn "Plugin setup failed, skipping plugin" type) = 0 := by
    refine List.countP_eq_zero.mpr ?_
    simp [Candidate.skipped, Event.tells]
  simp only [tally, events, notes, List.countP_append, countP_stopped, hskips, hskipped, hfailures,
    countP_flatMap_ite (Turn.countP_calls type), countP_flatMap_ite (Turn.countP_yields type),
    countP_flatMap_ite (Turn.countP_failures type), Nat.add_zero, Nat.zero_add]

variable {acc : Account} {disabled : Disabled} {finds : Candidate → Disk → Prop}
  {cs left : List Candidate}

namespace Sorted

variable (h : acc.Sorted disabled finds cs left)

include h

theorem perm : (acc.skipped ++ disabled.keep cs).Perm cs := by
  rw [h.skipped]
  exact List.perm_append_comm.trans (List.filter_append_perm _ cs)

theorem nodup : (acc.skipped.map (·.type) ++
    (acc.turns.map (·.candidate.type) ++ left.tail.map (·.type))).Nodup := by
  have hnodup := (h.perm.map (·.type)).nodup_iff.mpr h.distinct
  rwa [← h.taken.candidates, List.map_append, List.map_append, List.map_map] at hnodup

theorem tally_skipped {c : Candidate} (hc : c ∈ acc.skipped) :
    acc.tally c.type = { skips := 1 } := by
  obtain ⟨hnodup, -, hdisjoint⟩ := List.nodup_append.mp h.nodup
  have hc' : c.type ∈ acc.skipped.map (·.type) := List.mem_map_of_mem hc
  have hturns : c.type ∉ acc.turns.map (·.candidate.type) := fun hmem =>
    hdisjoint _ hc' _ (List.mem_append_left _ hmem) rfl
  have hone := countP_of_nodup (fun _ => true) hnodup hc
  simp only [Bool.and_true, if_true] at hone
  simp [tally_eq, hone, countP_of_not_mem _ hturns]

theorem tally_turn {t : Turn} (ht : t ∈ acc.turns) :
    acc.tally t.candidate.type =
      { calls := if t.called then 1 else 0
        results := if t.made then 1 else 0
        failures := if t.failed then 1 else 0 } := by
  obtain ⟨-, hlater, hdisjoint⟩ := List.nodup_append.mp h.nodup
  obtain ⟨hnodup, -, -⟩ := List.nodup_append.mp hlater
  have ht' : t.candidate.type ∈ acc.turns.map (·.candidate.type) := List.mem_map_of_mem ht
  have hskipped : t.candidate.type ∉ acc.skipped.map (·.type) := fun hmem =>
    hdisjoint _ hmem _ (List.mem_append_left _ ht') rfl
  have hnone := countP_of_not_mem (fun _ => true) hskipped
  simp only [Bool.and_true] at hnone
  simp only [tally_eq, hnone, countP_of_nodup _ hnodup ht]

theorem tally_untold {c : Candidate} (hc : c ∈ left.tail) : acc.tally c.type = {} := by
  obtain ⟨-, hlater, hdisjoint⟩ := List.nodup_append.mp h.nodup
  obtain ⟨-, -, hapart⟩ := List.nodup_append.mp hlater
  have hc' : c.type ∈ left.tail.map (·.type) := List.mem_map_of_mem hc
  have hskipped : c.type ∉ acc.skipped.map (·.type) := fun hmem =>
    hdisjoint _ hmem _ (List.mem_append_right _ hc') rfl
  have hturns : c.type ∉ acc.turns.map (·.candidate.type) := fun hmem => hapart _ hmem _ hc' rfl
  have hnone := countP_of_not_mem (fun _ => true) hskipped
  simp only [Bool.and_true] at hnone
  simp [tally_eq, hnone, countP_of_not_mem _ hturns]

theorem tally_made {c : Candidate} (hc : c ∈ (acc.turns.filter (·.made)).map (·.candidate)) :
    acc.tally c.type = { calls := 1, results := 1 } := by
  obtain ⟨t, ht, rfl⟩ := List.mem_map.mp hc
  obtain ⟨ht, hmade⟩ := List.mem_filter.mp ht
  simp [h.tally_turn ht, hmade, Turn.called_of_made hmade, Turn.failed_of_made hmade]

theorem tally_failed {c : Candidate} (hc : c ∈ (acc.turns.filter (·.failed)).map (·.candidate)) :
    acc.tally c.type = { calls := 1, failures := 1 } := by
  obtain ⟨t, ht, rfl⟩ := List.mem_map.mp hc
  obtain ⟨ht, hfailed⟩ := List.mem_filter.mp ht
  simp [h.tally_turn ht, hfailed, Turn.called_of_failed (h.genuine t ht) hfailed,
    Turn.made_of_failed hfailed]

theorem tally_stopping {t : Turn} (ht : t ∈ acc.turns) {e : PluginError}
    (hanswer : t.answer = .error e) (he : e.isUnavailable = true) :
    acc.tally t.candidate.type = { calls := if t.called then 1 else 0 } := by
  simp [h.tally_turn ht, Turn.made, Turn.failed, hanswer, he]

theorem tally_left {c : Candidate} (hc : c ∈ left) :
    acc.tally c.type = {} ∨ acc.tally c.type = { calls := 1 } := by
  cases hleft : left with
  | nil => simp [hleft] at hc
  | cons first rest =>
    rw [hleft] at hc
    rcases List.mem_cons.mp hc with rfl | hc
    · obtain ⟨t, ht, rfl, e, hanswer, he, -⟩ := h.taken.of_left hleft
      rw [h.tally_stopping ht hanswer he]
      cases t.called <;> simp
    · exact .inl (h.tally_untold (by rwa [hleft]))

theorem tally_enabled {c : Candidate} (hc : c ∈ disabled.keep cs) :
    (acc.tally c.type).skips = 0 := by
  rw [← h.taken.candidates] at hc
  rcases List.mem_append.mp hc with hturned | huntold
  · obtain ⟨t, ht, rfl⟩ := List.mem_map.mp hturned
    rw [h.tally_turn ht]
  · rw [h.tally_untold huntold]

end Sorted

theorem filter_events (acc : Account) :
    acc.events.filter (·.message = "Skipping remaining plugins of archive") =
      (acc.stopped.map (skippedRest acc.listed)).toList := by
  have hskipped : (acc.skipped.map (·.skipped)).filter
      (·.message = "Skipping remaining plugins of archive") = [] := by
    refine List.filter_eq_nil_iff.mpr ?_
    simp [Candidate.skipped]
  have hturns : (acc.turns.flatMap (·.events acc.listed)).filter
      (·.message = "Skipping remaining plugins of archive") = [] := by
    refine List.filter_eq_nil_iff.mpr ?_
    intro event hevent
    obtain ⟨t, -, hevent⟩ := List.mem_flatMap.mp hevent
    rcases List.mem_cons.mp hevent with rfl | hverdict
    · simp [loading]
    · obtain ⟨e, rfl⟩ := Turn.eq_of_mem_verdict hverdict
      simp [skippedPlugin]
  rw [events, List.filter_append, List.filter_append, hskipped, hturns]
  cases acc.stopped <;> rfl

theorem countP_tally {cs : List Candidate} {u : Tally} (h : ∀ c ∈ cs, acc.tally c.type = u)
    (v : Tally) : cs.countP (fun c => acc.tally c.type = v) = if u = v then cs.length else 0 := by
  split
  · rename_i hsame
    exact List.countP_eq_length.mpr fun c hc => by simp [h c hc, hsame]
  · rename_i hother
    exact List.countP_eq_zero.mpr fun c hc => by simp [h c hc, hother]

theorem length_eq_sum {cs skipped made failed left : List Candidate}
    (hperm : (skipped ++ (made ++ (failed ++ left))).Perm cs)
    (hskipped : ∀ c ∈ skipped, acc.tally c.type = { skips := 1 })
    (hmade : ∀ c ∈ made, acc.tally c.type = { calls := 1, results := 1 })
    (hfailed : ∀ c ∈ failed, acc.tally c.type = { calls := 1, failures := 1 })
    (hleft : ∀ c ∈ left, acc.tally c.type = {} ∨ acc.tally c.type = { calls := 1 }) :
    cs.length =
      cs.countP (fun c => acc.tally c.type = { skips := 1 }) +
        cs.countP (fun c => acc.tally c.type = { calls := 1, results := 1 }) +
        cs.countP (fun c => acc.tally c.type = { calls := 1, failures := 1 }) + left.length := by
  have hnone (v : Tally) (hv : v ≠ {} ∧ v ≠ { calls := 1 }) :
      left.countP (fun c => acc.tally c.type = v) = 0 := by
    refine List.countP_eq_zero.mpr ?_
    intro c hc hsame
    have hsame : acc.tally c.type = v := by simpa using hsame
    rcases hleft c hc with hempty | hcalled
    · exact hv.1 (hsame.symm.trans hempty)
    · exact hv.2 (hsame.symm.trans hcalled)
  rw [← hperm.length_eq, ← hperm.countP_eq, ← hperm.countP_eq, ← hperm.countP_eq]
  simp only [List.length_append, List.countP_append, countP_tally hskipped, countP_tally hmade,
    countP_tally hfailed]
  rw [hnone _ (by decide), hnone _ (by decide), hnone _ (by decide)]
  simp
  omega

/-- Every candidate that was found was skipped, gave a result, failed, or was left. Those left are
the last of the enabled ones, from the one on whose turn the archive was gone. -/
structure Balanced (acc : Account) (disabled : Disabled) (finds : Candidate → Disk → Prop)
    (cs left : List Candidate) : Prop where
  distinct : (cs.map (·.type)).Nodup
  sum : cs.length =
    cs.countP (fun c => acc.tally c.type = { skips := 1 }) +
      cs.countP (fun c => acc.tally c.type = { calls := 1, results := 1 }) +
      cs.countP (fun c => acc.tally c.type = { calls := 1, failures := 1 }) + left.length
  skipped : ∀ c ∈ cs, acc.tally c.type = { skips := 1 } ↔ c.enabled disabled = false
  suffix : left <:+ disabled.keep cs
  warned : left = [] → acc.events.filter (·.message = "Skipping remaining plugins of archive") = []
  arose : ∀ c rest, left = c :: rest → ∃ e, e.isUnavailable = true ∧
    acc.events.filter (·.message = "Skipping remaining plugins of archive") =
      [skippedRest acc.listed e] ∧
    (acc.tally c.type = {} ∧
        (∃ disk, finds c disk ∧ verify disk acc.listed.index.path = .error e) ∨
      acc.tally c.type = { calls := 1 } ∧
        .returned ⟨acc.space, c.type, acc.listed.index.path⟩ (.error e) ∈ acc.notes) ∧
    ∀ c' ∈ rest, acc.tally c'.type = {}

theorem Sorted.arose (h : acc.Sorted disabled finds cs left) {c : Candidate} {rest : List Candidate}
    (hleft : left = c :: rest) : ∃ e, e.isUnavailable = true ∧ acc.stopped = some e ∧
      (acc.tally c.type = {} ∧
          (∃ disk, finds c disk ∧ verify disk acc.listed.index.path = .error e) ∨
        acc.tally c.type = { calls := 1 } ∧
          .returned ⟨acc.space, c.type, acc.listed.index.path⟩ (.error e) ∈ acc.notes) := by
  obtain ⟨t, ht, rfl, e, hanswer, he, hstopped⟩ := h.taken.of_left hleft
  refine ⟨e, he, hstopped, ?_⟩
  rw [h.tally_stopping ht hanswer he]
  cases hending : t.ending with
  | inaccessible e' =>
    obtain rfl : e' = e := by simpa [Turn.answer, hending] using hanswer
    exact .inl ⟨by simp [Turn.called, hending], h.genuine t ht e' hending⟩
  | returned said r =>
    obtain rfl : r = .error e := by simpa [Turn.answer, hending] using hanswer
    refine .inr ⟨by simp [Turn.called, hending], List.mem_flatMap.mpr ⟨t, ht, ?_⟩⟩
    simp [Turn.notes, Turn.injector, hending]

theorem Sorted.balanced (h : acc.Sorted disabled finds cs left) :
    acc.Balanced disabled finds cs left where
  distinct := h.distinct
  sum := length_eq_sum ((h.taken.perm.append_left acc.skipped).trans h.perm)
    (fun _ hc => h.tally_skipped hc) (fun _ hc => h.tally_made hc) (fun _ hc => h.tally_failed hc)
    (fun _ hc => h.tally_left hc)
  skipped := by
    intro c hc
    constructor
    · intro hskips
      refine Bool.eq_false_iff.mpr ?_
      intro henabled
      have hnone := h.tally_enabled (List.mem_filter.mpr ⟨hc, henabled⟩)
      rw [hskips] at hnone
      cases hnone
    · intro hdisabled
      refine h.tally_skipped ?_
      rw [h.skipped]
      exact List.mem_filter.mpr ⟨hc, by simp [hdisabled]⟩
  suffix := h.taken.suffix
  warned := by
    intro hleft
    rw [filter_events, h.taken.of_nil hleft]
    rfl
  arose := by
    intro c rest hleft
    obtain ⟨e, he, hstopped, harose⟩ := h.arose hleft
    refine ⟨e, he, by rw [filter_events, hstopped]; rfl, harose, ?_⟩
    intro c' hc'
    exact h.tally_untold (by rwa [hleft])

end Account

theorem no_plugin_lost (l : Loader σ) (archives : List String) (w w' : World σ)
    (results : List SetupResult) (h : l.load archives w = (.ok results, w')) :
    ∃ (listed : List Listed) (events : List Event) (accounts : List Account),
      Listed.ofArchives w.disk archives = (.ok listed, events) ∧
      accounts.map (·.listed) = listed ∧ results = accounts.flatMap (·.results) ∧
      w'.log = w.log ++ events ++ accounts.flatMap (·.log) ++
        [loaded archives.length results.length] ∧
      l.watched.load archives (w.watched []) =
        (.ok results, w'.watched (accounts.flatMap (·.notes))) ∧
      ∀ (k : Nat) (acc : Account), accounts[k]? = some acc → acc.space = ⟨w.spaces.size + k⟩ ∧
        ((∃ e, Candidate.discover acc.listed.index l.catalog = .error e ∧
          acc.log = [skippedRest acc.listed e] ∧ acc.notes = []) ∨
        ∃ cs left, Candidate.discover acc.listed.index l.catalog = .ok cs ∧
          acc.Balanced l.disabled (l.Finds listed (w.emit events) k) cs left) := by
  obtain ⟨listed, events, w₁, hlisted, hall, rfl⟩ := load_eq_ok h
  obtain ⟨accounts, hfor, hof, hresults, hlog, hwatched⟩ := setUpListed_accounts hall
  refine ⟨listed, events, accounts, hlisted, hfor, hresults, ?_, ?_, ?_⟩
  · rw [World.log_emit, hlog, World.log_emit]
  · have hsame : Listed.ofArchives (w.watched []).disk archives = (.ok listed, events) := hlisted
    simp only [load, hsame, World.watched_emit, hwatched]
    rfl
  · intro k acc hk
    obtain ⟨hspace, hof⟩ := hof k acc hk
    refine ⟨hspace, ?_⟩
    cases hof with
    | @undiscovered a space e he => exact .inl ⟨e, he, rfl, rfl⟩
    | @discovered _ cs left hcs hsorted => exact .inr ⟨cs, left, hcs, hsorted.balanced⟩

open Archive

def choirCode : Plugin := fun i =>
  if i.plugin = tenor then .done (.error (.setupFailed tenor.text "hoarse"))
  else if i.plugin = baritone then .done (.error (.archiveUnavailable i.archive .notRegular))
  else .done (.ok ())

theorem choir_accounted_for :
    ∃ (w : World Unit) (acc : Account) (finds : Candidate → Disk → Prop)
      (cs left : List Candidate),
      load ⟨⟨[soprano.text]⟩, .uniform choir choirCode, Setup.standard⟩ ["choir.tgz"]
        { disk := choirDisk, own := () } = (.ok [⟨alto, "choir.tgz", ⟨0⟩, [], []⟩], w) ∧
      acc.results = [⟨alto, "choir.tgz", ⟨0⟩, [], []⟩] ∧
      Candidate.discover acc.listed.index (.uniform choir choirCode) = .ok cs ∧
      acc.Balanced ⟨[soprano.text]⟩ finds cs left := by
  have hchoir : ∀ x ∈ [("choir.tgz", choirEntries)], Packed choirDisk x.1 x.2 := by
    simp [packed_choir]
  obtain ⟨w, hload⟩ := load_packed ⟨⟨[soprano.text]⟩, .uniform choir choirCode, Setup.standard⟩
    ({ disk := choirDisk, own := () } : World Unit) [("choir.tgz", choirEntries)]
    [⟨alto, "choir.tgz", ⟨0⟩, [], []⟩] hchoir (by decide +kernel)
  obtain ⟨listed, events, accounts, hlisted, hfor, hresults, -, -, hall⟩ :=
    no_plugin_lost _ _ _ _ _ hload
  have hpacked := Listed.ofArchives_packed _ hchoir
  have hsame := congrArg Prod.fst (hlisted.symm.trans hpacked)
  obtain rfl := Except.ok.inj hsame
  obtain ⟨acc, rfl⟩ : ∃ acc, accounts = [acc] := by
    refine List.length_eq_one_iff.mp ?_
    simpa using congrArg List.length hfor
  have hresults : acc.results = [⟨alto, "choir.tgz", ⟨0⟩, [], []⟩] := by simpa using hresults.symm
  obtain ⟨-, ⟨e, -, -, hnotes⟩ | ⟨cs, left, hcs, hbalanced⟩⟩ := hall 0 acc rfl
  · rw [Account.results, hnotes] at hresults
    cases hresults
  · exact ⟨w, acc, _, cs, left, hload, hresults, hcs, hbalanced⟩

end Loader

end PluginAgent
