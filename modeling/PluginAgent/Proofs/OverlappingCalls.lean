import Mathlib.Data.List.Perm.Basic
import Mathlib.Logic.Relation
import PluginAgent.Proofs.AgentRuns

namespace PluginAgent

inductive AgentTask where
  | start
  | load
  | lower (e : PluginError)
  | keep (results : List SetupResult)
  | stop
  | release

inductive AgentEnd where
  | alreadyRunning
  | loaded (results : List SetupResult)
  | failed (e : PluginError)
  | panicked (message : Option String)
  | notRunning
  | stopped

abbrev AgentTurn : Type :=
  (AgentTask ⊕ AgentEnd) × AgentWorld

namespace AgentTask

variable (a : LoadingAgent)

def afterLoad : Outcome PluginError (List SetupResult) → AgentWorld → AgentTurn
  | .panic m, w => (.inr (.panicked m), w)
  | .error e, w => (.inl (.lower e), w)
  | .ok results, w =>
    (.inl (.keep results),
      w.emit (LoadingAgent.reportEvents a.type results ++ [a.runningEvent results.length]))

def next : AgentTask → AgentWorld → AgentTurn
  | start, w =>
    match w.raise with
    | (true, w) => (.inr .alreadyRunning, w.emit [LoadingAgent.alreadyRunning])
    | (false, w) => (.inl load, w)
  | load, w => afterLoad a (a.load w).1 (a.load w).2
  | lower e, w => (.inr (.failed e), w.lower.2)
  | keep results, w => (.inr (.loaded results), w.keep results)
  | stop, w =>
    match w.lower with
    | (false, w) => (.inr .notRunning, w)
    | (true, w) => (.inl release, w)
  | release, w => (.inr .stopped, w.release.2.emit [LoadingAgent.stopped w.release.1.length])

inductive Ends : AgentTask → AgentWorld → AgentEnd → AgentWorld → Prop
  | last {t w e w'} (h : t.next a w = (.inr e, w')) : Ends t w e w'
  | next {t w t' w₁ e w'} (h : t.next a w = (.inl t', w₁)) (hrest : Ends t' w₁ e w') :
      Ends t w e w'

theorem Ends.iff {a : LoadingAgent} {t : AgentTask} {w w' w₁ : AgentWorld} {e e' : AgentEnd}
    (h : Ends a t w e w') : Ends a t w e' w₁ ↔ e' = e ∧ w₁ = w' := by
  constructor
  · intro h'
    induction h with
    | last hnext =>
      cases h' with
      | last hnext' => cases hnext.symm.trans hnext'; exact ⟨rfl, rfl⟩
      | next hnext' => cases hnext.symm.trans hnext'
    | next hnext _ ih =>
      cases h' with
      | last hnext' => cases hnext.symm.trans hnext'
      | next hnext' hrest => cases hnext.symm.trans hnext'; exact ih hrest
  · rintro ⟨rfl, rfl⟩
    exact h

def isLoading : AgentTask → Bool
  | load | lower _ | keep _ => true
  | _ => false

end AgentTask

def AgentEnd.answer? : AgentEnd → Option (Outcome BootError Unit)
  | alreadyRunning | loaded _ => some (.ok ())
  | failed e => some (.error (.plugin e))
  | panicked m => some (.panic m)
  | notRunning | stopped => none

namespace LoadingAgent

open AgentTask

theorem start_alone (a : LoadingAgent) (w : AgentWorld) :
    ∃ e, e.answer? = some (a.start w).1 ∧
      ∀ e' w', Ends a .start w e' w' ↔ e' = e ∧ w' = (a.start w).2 := by
  suffices hends : ∃ e, e.answer? = some (a.start w).1 ∧ Ends a .start w e (a.start w).2 by
    obtain ⟨e, hanswer, hends⟩ := hends
    exact ⟨e, hanswer, fun e' w' => hends.iff⟩
  obtain ⟨⟨running, loaded⟩, disk, log⟩ := w
  cases running with
  | true => exact ⟨.alreadyRunning, rfl, .last rfl⟩
  | false =>
    have hnext : AgentTask.start.next a ⟨⟨false, loaded⟩, disk, log⟩ =
        (.inl .load, ⟨⟨true, loaded⟩, disk, log⟩) := rfl
    have hload : AgentTask.load.next a ⟨⟨true, loaded⟩, disk, log⟩ =
        afterLoad a (a.load ⟨⟨true, loaded⟩, disk, log⟩).1
          (a.load ⟨⟨true, loaded⟩, disk, log⟩).2 := rfl
    simp only [start, AgentWorld.raise]
    rcases hloaded : a.load ⟨⟨true, loaded⟩, disk, log⟩ with ⟨results | e | m, w⟩ <;>
      rw [hloaded] at hload
    · exact ⟨.loaded results, rfl, .next hnext (.next hload (.last rfl))⟩
    · exact ⟨.failed e, rfl, .next hnext (.next hload (.last rfl))⟩
    · exact ⟨.panicked m, rfl, .next hnext (.last hload)⟩

theorem stop_alone (a : LoadingAgent) (w : AgentWorld) :
    ∃ e, e.answer? = none ∧ ∀ e' w', Ends a .stop w e' w' ↔ e' = e ∧ w' = stop w := by
  obtain ⟨⟨running, loaded⟩, disk, log⟩ := w
  cases running with
  | true => exact ⟨.stopped, rfl, fun _ _ => (Ends.next rfl (.last rfl)).iff⟩
  | false => exact ⟨.notRunning, rfl, fun _ _ => (Ends.last rfl).iff⟩

end LoadingAgent

structure Overlap where
  world : AgentWorld
  calls : List AgentTask := []
  last : Option AgentEnd := none

namespace Overlap

def settled (before later : List AgentTask) (last : Option AgentEnd) : AgentTurn → Overlap
  | (.inl t, w) => ⟨w, before ++ t :: later, last⟩
  | (.inr e, w) => ⟨w, before ++ later, some e⟩

inductive Turn (a : LoadingAgent) (may : Overlap → AgentTask → Prop) : Overlap → Overlap → Prop
  | start (o : Overlap) : Turn a may o { o with calls := o.calls ++ [.start] }
  | stop (o : Overlap) : Turn a may o { o with calls := o.calls ++ [.stop] }
  | move {w last} (before later : List AgentTask) (t : AgentTask)
      (hmay : may ⟨w, before ++ t :: later, last⟩ t) :
      Turn a may ⟨w, before ++ t :: later, last⟩ (settled before later last (t.next a w))

/-- The files change and others log at any time. As this may be during a load, a load comes out any
way. -/
inductive Step (a : LoadingAgent) (may : Overlap → AgentTask → Prop) : Overlap → Overlap → Prop
  | turn {o o'} (h : Turn a may o o') : Step a may o o'
  | others (o : Overlap) (disk : Disk) (log : List Event) :
      Step a may o { o with world := { o.world with disk, log } }
  | load {w last} (before later : List AgentTask)
      (result : Outcome PluginError (List SetupResult)) (disk : Disk) (log : List Event) :
      Step a may ⟨w, before ++ .load :: later, last⟩
        (settled before later last (AgentTask.afterLoad a result { w with disk, log }))

abbrev Leads (a : LoadingAgent) (may : Overlap → AgentTask → Prop) : Overlap → Overlap → Prop :=
  Relation.ReflTransGen (Step a may)

/-- No stop lowers the flag while a start is at its load. -/
def Patient (o : Overlap) (t : AgentTask) : Prop :=
  t = .stop → ∀ c ∈ o.calls, c.isLoading = false

theorem patient_of_ne {o : Overlap} {t : AgentTask} (h : t ≠ .stop) : Patient o t :=
  fun ht => absurd ht h

theorem Turn.load {a : LoadingAgent} {may : Overlap → AgentTask → Prop} {w : AgentWorld}
    {later : List AgentTask} {last : Option AgentEnd} {results : List SetupResult}
    (hload : (a.load w).1 = .ok results) (hmay : may ⟨w, .load :: later, last⟩ .load) :
    Turn a may ⟨w, .load :: later, last⟩
      (settled [] later last (AgentTask.afterLoad a (.ok results) (a.load w).2)) :=
  hload ▸ .move [] later .load hmay

structure Sound (o : Overlap) : Prop where
  alone : o.calls.countP AgentTask.isLoading ≤ 1
  raised : ∀ c ∈ o.calls, c.isLoading = true → o.world.state.running = true
  emptied : (o.world.state.running = false ∨ ∃ c ∈ o.calls, c.isLoading = true) →
    o.world.state.loaded = [] ∨ .release ∈ o.calls
  last : ∀ results, o.last = some (.loaded results) →
    o.world.state = ⟨true, results⟩ ∨ o.calls ≠ []

namespace Sound

variable {a : LoadingAgent} {w w' : AgentWorld} {t t' : AgentTask} {others : List AgentTask}
  {last : Option AgentEnd}

theorem perm {calls calls' : List AgentTask} (h : Sound ⟨w, calls, last⟩)
    (hperm : calls.Perm calls') : Sound ⟨w, calls', last⟩ where
  alone := hperm.countP_eq _ ▸ h.alone
  raised c hc := h.raised c (hperm.mem_iff.mpr hc)
  emptied hempty := by
    have hempty := h.emptied (by simpa only [hperm.mem_iff] using hempty)
    simpa only [hperm.mem_iff] using hempty
  last results hlast := by
    refine (h.last results hlast).imp_right fun hcalls hnil => hcalls ?_
    obtain rfl : calls' = [] := hnil
    exact hperm.eq_nil

theorem settled {before later : List AgentTask} {p : AgentTurn}
    (h : Sound (settled [] (before ++ later) last p)) : Sound (settled before later last p) := by
  obtain ⟨t | e, w⟩ := p
  · exact h.perm List.perm_middle.symm
  · exact h

theorem idle_others (h : Sound ⟨w, t :: others, last⟩) (ht : t.isLoading = true) :
    ∀ c ∈ others, c.isLoading = false := by
  have halone : (t :: others).countP AgentTask.isLoading ≤ 1 := h.alone
  rw [List.countP_cons_of_pos ht] at halone
  have hnone : others.countP AgentTask.isLoading = 0 := by omega
  simpa using List.countP_eq_zero.mp hnone

theorem idle_of_lowered (h : Sound ⟨w, t :: others, last⟩) (hlowered : w.state.running = false) :
    ∀ c ∈ others, c.isLoading = false := by
  intro c hc
  cases hloading : c.isLoading with
  | false => rfl
  | true => cases (h.raised c (List.mem_cons_of_mem _ hc) hloading).symm.trans hlowered

theorem emptied_others (h : Sound ⟨w, t :: others, last⟩) (ht : t ≠ .release)
    (hempty : w.state.running = false ∨ ∃ c ∈ t :: others, c.isLoading = true) :
    w.state.loaded = [] ∨ .release ∈ others :=
  (h.emptied hempty).imp_right (List.mem_of_ne_of_mem ht.symm)

theorem countP_of_idle {calls : List AgentTask} (hidle : ∀ c ∈ calls, c.isLoading = false) :
    calls.countP AgentTask.isLoading = 0 :=
  List.countP_eq_zero.mpr (by simpa using hidle)

theorem of_idle {calls : List AgentTask} (hidle : ∀ c ∈ calls, c.isLoading = false)
    (hempty : w.state.running = false → w.state.loaded = [] ∨ .release ∈ calls)
    (hlast : ∀ results, last = some (.loaded results) →
      w.state = ⟨true, results⟩ ∨ calls ≠ []) : Sound ⟨w, calls, last⟩ where
  alone := by
    rw [countP_of_idle hidle]
    exact Nat.zero_le 1
  raised c hc hloading := by cases (hidle c hc).symm.trans hloading
  emptied hempty' := by
    rcases hempty' with hlowered | ⟨c, hc, hloading⟩
    · exact hempty hlowered
    · cases (hidle c hc).symm.trans hloading
  last := hlast

theorem goesOn (h : Sound ⟨w, t :: others, last⟩) (hstate : w'.state = w.state)
    (hloading : t'.isLoading = t.isLoading) (ht : t ≠ .release) :
    Sound ⟨w', t' :: others, last⟩ where
  alone := by simpa only [List.countP_cons, hloading] using h.alone
  raised := by simpa only [List.forall_mem_cons, hloading, hstate] using h.raised
  emptied hempty := by
    rw [hstate] at hempty ⊢
    simp only [List.mem_cons, exists_eq_or_imp, hloading] at hempty
    exact (h.emptied_others ht (by simpa using hempty)).imp_right (List.mem_cons_of_mem _)
  last _ _ := .inr (List.cons_ne_nil _ _)

theorem leave (h : Sound ⟨w, t :: others, last⟩) (hstate : w'.state = w.state) (ht : t ≠ .release)
    {e : AgentEnd} (he : ∀ {results}, e ≠ .loaded results) : Sound ⟨w', others, some e⟩ where
  alone := ((List.sublist_cons_self t others).countP_le).trans h.alone
  raised c hc := hstate ▸ h.raised c (List.mem_cons_of_mem _ hc)
  emptied hempty := by
    rw [hstate] at hempty ⊢
    exact h.emptied_others ht (hempty.imp_right fun ⟨c, hc, hloading⟩ =>
      ⟨c, List.mem_cons_of_mem _ hc, hloading⟩)
  last results hlast := absurd (Option.some.inj hlast) he

theorem start (h : Sound ⟨w, .start :: others, last⟩) :
    Sound (Overlap.settled [] others last (AgentTask.start.next a w)) := by
  obtain ⟨⟨running, loaded⟩, disk, log⟩ := w
  cases running with
  | true =>
    refine h.leave (e := .alreadyRunning) ?_ nofun nofun
    rfl
  | false =>
    -- while a start is at its load the flag is up, so this one is the only one
    have hnone := countP_of_idle (h.idle_of_lowered rfl)
    refine ⟨?_, fun _ _ _ => rfl, fun _ => ?_, fun _ _ => .inr (List.cons_ne_nil _ _)⟩
    · exact (List.countP_cons_of_pos rfl).trans_le (by rw [hnone])
    · exact (h.emptied_others nofun (.inl rfl)).imp_right (List.mem_cons_of_mem _)

theorem load (h : Sound ⟨w, .load :: others, last⟩)
    (result : Outcome PluginError (List SetupResult)) (hstate : w'.state = w.state) :
    Sound (Overlap.settled [] others last (AgentTask.afterLoad a result w')) := by
  cases result with
  | ok results => exact h.goesOn hstate rfl nofun
  | error e => exact h.goesOn hstate rfl nofun
  | panic m => exact h.leave hstate nofun nofun

theorem lower {e : PluginError} (h : Sound ⟨w, .lower e :: others, last⟩) :
    Sound ⟨w.lower.2, others, some (.failed e)⟩ := by
  refine of_idle (h.idle_others rfl) (fun _ => ?_) nofun
  exact h.emptied_others nofun (.inr ⟨_, List.mem_cons_self, rfl⟩)

theorem keep {results : List SetupResult} (h : Sound ⟨w, .keep results :: others, last⟩) :
    Sound ⟨w.keep results, others, some (.loaded results)⟩ := by
  have hrunning : w.state.running = true := h.raised _ List.mem_cons_self rfl
  refine of_idle (h.idle_others rfl) (fun hlowered => ?_) fun later hlater => .inl ?_
  · cases hrunning.symm.trans hlowered
  · cases hlater
    exact congrArg (AgentState.mk · results) hrunning

theorem stop (h : Sound ⟨w, .stop :: others, last⟩)
    (hidle : ∀ c ∈ others, c.isLoading = false) :
    Sound (Overlap.settled [] others last (AgentTask.stop.next a w)) := by
  obtain ⟨⟨running, loaded⟩, disk, log⟩ := w
  cases running with
  | false => exact h.leave (e := .notRunning) rfl nofun nofun
  | true =>
    exact of_idle (List.forall_mem_cons.mpr ⟨rfl, hidle⟩) (fun _ => .inr List.mem_cons_self)
      fun _ _ => .inr (List.cons_ne_nil _ _)

theorem release (h : Sound ⟨w, .release :: others, last⟩) (events : List Event) :
    Sound ⟨w.release.2.emit events, others, some .stopped⟩ where
  alone := ((List.sublist_cons_self _ others).countP_le).trans h.alone
  raised c hc := h.raised c (List.mem_cons_of_mem _ hc)
  emptied _ := .inl rfl
  last := nofun

theorem next (h : Sound ⟨w, t :: others, last⟩)
    (hidle : t = .stop → ∀ c ∈ others, c.isLoading = false) :
    Sound (Overlap.settled [] others last (t.next a w)) := by
  cases t with
  | start => exact h.start
  | load => exact h.load _ rfl
  | lower e => exact h.lower
  | keep results => exact h.keep
  | stop => exact h.stop (hidle rfl)
  | release => exact h.release _

theorem call {o : Overlap} (h : o.Sound) (ht : t.isLoading = false) :
    Sound { o with calls := o.calls ++ [t] } where
  alone := by
    rw [List.countP_append, List.countP_singleton, ht]
    exact h.alone
  raised c hc hloading := by
    rcases List.mem_append.mp hc with hc | hc
    · exact h.raised c hc hloading
    · cases (List.mem_singleton.mp hc ▸ ht).symm.trans hloading
  emptied hempty := by
    refine (h.emptied (hempty.imp_right ?_)).imp_right (List.mem_append_left _)
    rintro ⟨c, hc, hloading⟩
    rcases List.mem_append.mp hc with hc | hc
    · exact ⟨c, hc, hloading⟩
    · cases (List.mem_singleton.mp hc ▸ ht).symm.trans hloading
  last _ _ := .inr (by simp)

theorem step {o o' : Overlap} (h : o.Sound) (hstep : Step a Patient o o') : o'.Sound := by
  cases hstep with
  | turn hturn =>
    cases hturn with
    | start => exact h.call rfl
    | stop => exact h.call rfl
    | move before later t hmay =>
      refine settled ((h.perm List.perm_middle).next fun ht c hc => hmay ht c ?_)
      exact List.perm_middle.mem_iff.mpr (List.mem_cons_of_mem _ hc)
  | others o disk log => exact ⟨h.alone, h.raised, h.emptied, h.last⟩
  | load before later result disk log =>
    exact settled ((h.perm List.perm_middle).load result rfl)

theorem leads {o o' : Overlap} (h : o.Sound) (hleads : Leads a Patient o o') : o'.Sound := by
  induction hleads with
  | refl => exact h
  | tail _ hstep ih => exact ih.step hstep

end Sound

theorem sound_new (disk : Disk) (log : List Event) : Sound ⟨{ disk, log }, [], none⟩ :=
  .of_idle nofun (fun _ => .inl rfl) nofun

theorem state_between_calls (a : LoadingAgent) (disk : Disk) (log : List Event) (o : Overlap)
    (hleads : Leads a Patient ⟨{ disk, log }, [], none⟩ o) (hquiet : o.calls = []) :
    (o.world.state.running = false → o.world.state.loaded = []) ∧
      ∀ results, o.last = some (.loaded results) → o.world.state = ⟨true, results⟩ := by
  have hsound := (sound_new disk log).leads hleads
  refine ⟨fun hlowered => ?_, fun results hlast => ?_⟩
  · exact (hsound.emptied (.inl hlowered)).resolve_right (hquiet ▸ nofun)
  · exact (hsound.last results hlast).resolve_right (absurd hquiet)

open Archive

open LoadingAgent (choirAgent)

def choirResults : List SetupResult :=
  choir.map fun type => ⟨type, "choir.tgz", ⟨0⟩, [], []⟩

theorem load_choir : (choirAgent.load ⟨⟨true, []⟩, choirDisk, []⟩).1 = .ok choirResults := by
  have hloader : choirAgent.loader =
      ⟨{}, .uniform choir fun _ => .done (.ok ()), Setup.standard⟩ := rfl
  have hplugins : choirAgent.option.plugins = [("choir.tgz", choirEntries)].map (·.1) := rfl
  have hevents : choirAgent.catalogEvents = [] := rfl
  obtain ⟨w, hload⟩ := Loader.load_packed
    ⟨{}, .uniform choir fun _ => .done (.ok ()), Setup.standard⟩
    ({ disk := choirDisk, own := () } : World Unit) [("choir.tgz", choirEntries)] choirResults
    (by simp [packed_choir]) (by decide +kernel)
  rw [LoadingAgent.fst_load, hloader, hplugins, hevents, List.append_nil, hload]

theorem overlapping_starts (a : LoadingAgent) (disk : Disk) {results : List SetupResult}
    (hload : (a.load ⟨⟨true, []⟩, disk, []⟩).1 = .ok results) :
    ∃ o : Overlap, Leads a Patient ⟨{ disk }, [], none⟩ o ∧ o.calls = [] ∧
      o.last = some (.loaded results) := by
  have hturns : Relation.ReflTransGen (Turn a Patient) ⟨{ disk }, [], none⟩ _ :=
    .head (.start _) (.head (.move [] [] .start (patient_of_ne nofun))
      (.head (.load hload (patient_of_ne nofun)) (.head (.start _)
        (.head (.move [.keep results] [] .start (patient_of_ne nofun))
          (.single (.move [] [] (.keep results) (patient_of_ne nofun)))))))
  exact ⟨_, hturns.lift id fun _ _ => Step.turn, rfl, rfl⟩

theorem state_between_choir_starts : ∃ o : Overlap,
    Leads choirAgent Patient ⟨{ disk := choirDisk }, [], none⟩ o ∧ o.calls = [] ∧
      o.last = some (.loaded choirResults) ∧ o.world.state = ⟨true, choirResults⟩ := by
  obtain ⟨o, hleads, hquiet, hlast⟩ := overlapping_starts choirAgent choirDisk load_choir
  obtain ⟨-, hrunning⟩ := state_between_calls choirAgent choirDisk [] o hleads hquiet
  exact ⟨o, hleads, hquiet, hlast, hrunning _ hlast⟩

theorem left_behind (a : LoadingAgent) (disk : Disk) {results : List SetupResult}
    (hload : (a.load ⟨⟨true, []⟩, disk, []⟩).1 = .ok results) :
    ∃ o : Overlap, Relation.ReflTransGen (Turn a fun _ _ => True) ⟨{ disk }, [], none⟩ o ∧
      o.calls = [] ∧ o.last = some (.loaded results) ∧ o.world.state = ⟨false, results⟩ :=
  ⟨_, .head (.start _) (.head (.stop _) (.head (.move [] [.stop] .start trivial)
    (.head (.load hload trivial) (.head (.move [.keep results] [] .stop trivial)
      (.head (.move [.keep results] [] .release trivial)
        (.single (.move [] [] (.keep results) trivial))))))), rfl, rfl, rfl⟩

theorem choir_left_behind : ∃ (o : Overlap) (results : List SetupResult),
    Relation.ReflTransGen (Turn choirAgent fun _ _ => True) ⟨{ disk := choirDisk }, [], none⟩ o ∧
      o.calls = [] ∧ o.last = some (.loaded results) ∧ o.world.state.running = false ∧
      o.world.state.loaded ≠ [] := by
  obtain ⟨o, hturns, hquiet, hlast, hstate⟩ := left_behind choirAgent choirDisk load_choir
  exact ⟨o, _, hturns, hquiet, hlast, by rw [hstate], by rw [hstate]; exact List.cons_ne_nil _ _⟩

end Overlap

end PluginAgent
