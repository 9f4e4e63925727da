import PluginAgent.Proofs.AgentRuns

namespace PluginAgent

theorem Loader.load_eq_panic_iff {σ : Type} {l : Loader σ} {archives : List String} {w : World σ}
    {m : Option String} : (l.load archives w).1 = .panic m ↔
      ∃ listed events, Listed.ofArchives w.disk archives = (.ok listed, events) ∧
        (setUpListed l listed (w.emit events)).1 = .panic m := by
  rw [load]
  split
  · rename_i e events hlisted
    simp [hlisted]
  · rename_i listed events hlisted
    rw [hlisted]
    split <;> rename_i hall <;> simp [hall]

namespace LoadingAgent

variable {a : LoadingAgent} {w : AgentWorld} {m : Option String}

theorem panics_of_load (h : (a.load w).1 = .panic m) : a.loader.Panics m := by
  rw [fst_load] at h
  obtain ⟨listed, events, -, hpanic⟩ := Loader.load_eq_panic_iff.mp h
  exact Loader.setUpListed_panics hpanic

theorem start_of_panic (hidle : w.state.running = false) (hload : (a.load w).1 = .panic m) :
    (a.start w).1 = .panic m ∧ (a.start w).2.state = ⟨true, w.state.loaded⟩ := by
  obtain ⟨⟨running, loaded⟩, disk, log⟩ := w
  obtain rfl : running = false := hidle
  rcases hloaded : a.load ⟨⟨true, loaded⟩, disk, log⟩ with ⟨r, w'⟩
  obtain rfl : r = .panic m := (congrArg Prod.fst hloaded).symm.trans hload
  have hstate : w'.state = ⟨true, loaded⟩ := (congrArg (·.2.state) hloaded).symm
  constructor
  · simp only [start, AgentWorld.raise, hloaded]
  · simp only [start, AgentWorld.raise, hloaded, hstate]

theorem idle_start_cases (a : LoadingAgent) (hidle : w.state.running = false) :
    (∃ results, (a.start w).1 = .ok () ∧ (a.start w).2.state = ⟨true, results⟩) ∨
      (∃ e, (a.start w).1 = .error e ∧ (a.start w).2.state = w.state) ∨
      ∃ m, (a.load w).1 = .panic m ∧ (a.start w).1 = .panic m ∧
        (a.start w).2.state = ⟨true, w.state.loaded⟩ := by
  cases hload : (a.load w).1 with
  | ok results => exact .inl ⟨results, start_of_loads ⟨hidle, hload⟩⟩
  | error e => exact .inr (.inl ⟨.plugin e, start_of_error hidle hload⟩)
  | panic m => exact .inr (.inr ⟨m, rfl, start_of_panic hidle hload⟩)

theorem call_of_running {c : AgentCall} (hrunning : w.state.running = true) (hc : c ≠ .stop) :
    (a.call w c).state = w.state := by
  cases c with
  | start => rw [call, start_of_running hrunning]; rfl
  | stop => exact absurd rfl hc
  | files disk => rfl

theorem after_of_running {calls : List AgentCall} (hrunning : w.state.running = true)
    (hcalls : .stop ∉ calls) : (a.after w calls).state = w.state := by
  induction calls using List.reverseRecOn with
  | nil => rfl
  | append_singleton calls c ih =>
    rw [List.mem_append, not_or, List.mem_singleton] at hcalls
    have hsame := ih hcalls.1
    rw [after_concat, call_of_running (by rw [hsame, hrunning]) (Ne.symm hcalls.2), hsame]

theorem raised_by_panic (a : LoadingAgent) (w : AgentWorld) (hidle : w.state.running = false) :
    ((a.start w).2.state.running = false ↔ ∃ e, (a.start w).1 = .error e) ∧
      (∀ e, (a.start w).1 = .error e → (a.start w).2.state = w.state) ∧
      ∀ m, (a.start w).1 = .panic m → a.loader.Panics m ∧
        ∀ calls, .stop ∉ calls →
          (a.after (a.start w).2 calls).state = ⟨true, w.state.loaded⟩ ∧
          a.start (a.after (a.start w).2 calls) =
            (.ok (), (a.after (a.start w).2 calls).emit [alreadyRunning]) ∧
          (stop (a.after (a.start w).2 calls)).state = {} := by
  rcases a.idle_start_cases hidle with
    ⟨results, hend, hstate⟩ | ⟨e, hend, hstate⟩ | ⟨m, hload, hend, hstate⟩
  · simp [hend, hstate]
  · simp [hend, hstate, hidle]
  · refine ⟨by simp [hend, hstate], by simp [hend], ?_⟩
    rintro m' hpanic
    obtain rfl := Outcome.panic.inj (hend.symm.trans hpanic)
    refine ⟨panics_of_load hload, fun calls hcalls => ?_⟩
    have hsame : (a.after (a.start w).2 calls).state = ⟨true, w.state.loaded⟩ := by
      rw [after_of_running (by rw [hstate]) hcalls, hstate]
    have hrunning : (a.after (a.start w).2 calls).state.running = true := by rw [hsame]
    refine ⟨hsame, start_of_running hrunning, ?_⟩
    have hlowered := running_stop (a.after (a.start w).2 calls)
    have hreleased := loaded_stop_of_running hrunning
    exact congrArg₂ AgentState.mk hlowered hreleased

open Archive

def hoarseCode : Plugin := fun i =>
  if i.plugin = tenor then .panic (some "no voice") else .done (.ok ())

def hoarseAgent : LoadingAgent where
  type := .standard
  option :=
    { identity := ⟨"choir-1", "choir"⟩
      plugins := ["choir.tgz"]
      services := Services.insert {} (.catalog (.uniform choir hoarseCode)) }

theorem load_hoarse :
    (hoarseAgent.load { disk := choirDisk }).1 = .panic (some "no voice") := by
  have hpacked : ∀ e ∈ [("choir.tgz", choirEntries)], Packed choirDisk e.1 e.2 := by
    simp [packed_choir]
  have hlisted := Listed.ofArchives_packed _ hpacked
  have hplugins : hoarseAgent.option.plugins = [("choir.tgz", choirEntries)].map (·.1) := rfl
  have hevents : hoarseAgent.catalogEvents = [] := rfl
  have hloader : hoarseAgent.loader = ⟨{}, .uniform choir hoarseCode, Setup.standard⟩ := rfl
  rw [fst_load, hplugins, hevents, hloader, List.append_nil]
  exact Loader.load_eq_panic_iff.mpr ⟨_, _, hlisted, by decide +kernel⟩

theorem hoarse_taken_for_running :
    (hoarseAgent.start { disk := choirDisk }).1 = .panic (some "no voice") ∧
      (hoarseAgent.start { disk := choirDisk }).2.state.running = true ∧
      hoarseAgent.start (hoarseAgent.start { disk := choirDisk }).2 =
        (.ok (), (hoarseAgent.start { disk := choirDisk }).2.emit [alreadyRunning]) := by
  obtain ⟨hpanic, hstate⟩ := start_of_panic rfl load_hoarse
  have hrunning : (hoarseAgent.start { disk := choirDisk }).2.state.running = true := by
    rw [hstate]
  exact ⟨hpanic, hrunning, start_of_running hrunning⟩

theorem hoarse_raised_until_stopped :
    hoarseAgent.loader.Panics (some "no voice") ∧
      (hoarseAgent.after (hoarseAgent.start { disk := choirDisk }).2 [.files {}, .start]).state =
        ⟨true, []⟩ ∧
      (stop (hoarseAgent.after (hoarseAgent.start { disk := choirDisk }).2
        [.files {}, .start])).state = {} := by
  obtain ⟨hpanic, -⟩ := start_of_panic (w := { disk := choirDisk }) rfl load_hoarse
  obtain ⟨-, -, hraised⟩ := raised_by_panic hoarseAgent { disk := choirDisk } rfl
  obtain ⟨hcode, hcalls⟩ := hraised _ hpanic
  obtain ⟨hstate, -, hstopped⟩ := hcalls [.files {}, .start] (by simp)
  exact ⟨hcode, hstate, hstopped⟩

end LoadingAgent

end PluginAgent
