import Mathlib.Data.List.Induction
import PluginAgent.Agent.Loading
import PluginAgent.Proofs.AllOrNothing

namespace PluginAgent

inductive AgentCall where
  | start
  | stop
  | files (disk : Disk)

namespace LoadingAgent

variable {a : LoadingAgent} {w : AgentWorld} {results : List SetupResult}

/-- A start takes effect on an agent that is not running, by a load that succeeds. -/
def Loads (a : LoadingAgent) (w : AgentWorld) (results : List SetupResult) : Prop :=
  w.state.running = false ∧ (a.load w).1 = .ok results

theorem fst_load (a : LoadingAgent) (w : AgentWorld) : (a.load w).1 =
    (a.loader.load a.option.plugins
      { disk := w.disk, own := (), log := w.log ++ a.catalogEvents }).1 :=
  rfl

theorem load_opens (hcatalog : a.catalog.Avoids .panic) (w : AgentWorld)
    (hopen : ∀ x ∈ a.option.plugins, ∃ index, Archive.Index.ofFile w.disk x = .ok index) :
    ∃ results, (a.load w).1 = .ok results := by
  obtain ⟨results, w', hload, -⟩ := Loader.load_succeeds (l := a.loader)
    (w := { disk := w.disk, own := (), log := w.log ++ a.catalogEvents })
    (Loader.avoids_standard hcatalog) hopen
  exact ⟨results, by rw [fst_load, hload]⟩

theorem load_fails (w : AgentWorld) {x : String} {flaw : Archive.Flaw} (hx : x ∈ a.option.plugins)
    (hflaw : Archive.Index.ofFile w.disk x = .error flaw) : ∃ e, (a.load w).1 = .error e := by
  rcases Listed.all_open_or_first_fails w.disk a.option.plugins with
    hall | ⟨before, archive, after, first, hplugins, hbefore, hfirst⟩
  · obtain ⟨index, hindex⟩ := hall x hx
    cases hflaw.symm.trans hindex
  · obtain ⟨events, hload, -⟩ := Loader.load_fails (l := a.loader)
      (w := { disk := w.disk, own := (), log := w.log ++ a.catalogEvents }) hbefore hfirst after
    exact ⟨_, by rw [fst_load, hplugins, hload]⟩

theorem load_cases (hcatalog : a.catalog.Avoids .panic) (w : AgentWorld) :
    ((∀ x ∈ a.option.plugins, ∃ index, Archive.Index.ofFile w.disk x = .ok index) ∧
        ∃ results, (a.load w).1 = .ok results) ∨
      (∃ x ∈ a.option.plugins, ∃ flaw, Archive.Index.ofFile w.disk x = .error flaw) ∧
        ∃ e, (a.load w).1 = .error e := by
  by_cases hopen : ∀ x ∈ a.option.plugins, ∃ index, Archive.Index.ofFile w.disk x = .ok index
  · exact .inl ⟨hopen, load_opens hcatalog w hopen⟩
  · obtain ⟨x, hx, hclosed⟩ : ∃ x ∈ a.option.plugins,
        ¬∃ index, Archive.Index.ofFile w.disk x = .ok index := by simpa using hopen
    cases hfile : Archive.Index.ofFile w.disk x with
    | ok index => exact absurd ⟨index, hfile⟩ hclosed
    | error flaw => exact .inr ⟨⟨x, hx, flaw, hfile⟩, load_fails w hx hfile⟩

theorem start_of_running (h : w.state.running = true) :
    a.start w = (.ok (), w.emit [alreadyRunning]) := by
  obtain ⟨⟨running, loaded⟩, disk, log⟩ := w
  obtain rfl : running = true := h
  rfl

theorem start_of_loads (h : a.Loads w results) :
    (a.start w).1 = .ok () ∧ (a.start w).2.state = ⟨true, results⟩ := by
  obtain ⟨⟨running, loaded⟩, disk, log⟩ := w
  obtain ⟨hidle, hload⟩ := h
  obtain rfl : running = false := hidle
  rcases hloaded : a.load ⟨⟨true, loaded⟩, disk, log⟩ with ⟨r, w'⟩
  obtain rfl : r = .ok results := (congrArg Prod.fst hloaded).symm.trans hload
  have hstate : w'.state = ⟨true, loaded⟩ := (congrArg (·.2.state) hloaded).symm
  constructor
  · simp only [start, AgentWorld.raise, hloaded]
  · simp only [start, AgentWorld.raise, hloaded, AgentWorld.keep, AgentWorld.emit, hstate]

theorem start_of_error {e : PluginError} (hidle : w.state.running = false)
    (hload : (a.load w).1 = .error e) :
    (a.start w).1 = .error (.plugin e) ∧ (a.start w).2.state = w.state := by
  obtain ⟨⟨running, loaded⟩, disk, log⟩ := w
  obtain rfl : running = false := hidle
  rcases hloaded : a.load ⟨⟨true, loaded⟩, disk, log⟩ with ⟨r, w'⟩
  obtain rfl : r = .error e := (congrArg Prod.fst hloaded).symm.trans hload
  have hstate : w'.state = ⟨true, loaded⟩ := (congrArg (·.2.state) hloaded).symm
  constructor
  · simp only [start, AgentWorld.raise, hloaded]
  · simp only [start, AgentWorld.raise, hloaded, AgentWorld.lower, hstate]

theorem start_cases (hcatalog : a.catalog.Avoids .panic) (w : AgentWorld) :
    (w.state.running = true ∧ a.start w = (.ok (), w.emit [alreadyRunning])) ∨
      (∃ results, a.Loads w results ∧ (a.start w).1 = .ok () ∧
        (a.start w).2.state = ⟨true, results⟩) ∨
      w.state.running = false ∧ ∃ e, (a.load w).1 = .error e ∧
        (a.start w).1 = .error (.plugin e) ∧ (a.start w).2.state = w.state := by
  cases hrunning : w.state.running with
  | true => exact .inl ⟨rfl, start_of_running hrunning⟩
  | false =>
    rcases load_cases hcatalog w with ⟨-, results, hload⟩ | ⟨-, e, hload⟩
    · exact .inr (.inl ⟨results, ⟨hrunning, hload⟩, start_of_loads ⟨hrunning, hload⟩⟩)
    · exact .inr (.inr ⟨rfl, e, hload, start_of_error hrunning hload⟩)

theorem start_eq_ok_iff (hcatalog : a.catalog.Avoids .panic) (hidle : w.state.running = false) :
    (a.start w).1 = .ok () ↔
      ∀ x ∈ a.option.plugins, ∃ index, Archive.Index.ofFile w.disk x = .ok index := by
  rcases load_cases hcatalog w with ⟨hopen, results, hload⟩ | ⟨⟨x, hx, flaw, hflaw⟩, e, hload⟩
  · exact iff_of_true (start_of_loads ⟨hidle, hload⟩).1 hopen
  · refine iff_of_false ?_ fun hopen => ?_
    · rw [(start_of_error hidle hload).1]
      exact nofun
    · obtain ⟨index, hindex⟩ := hopen x hx
      cases hflaw.symm.trans hindex

theorem loads_of_start (hcatalog : a.catalog.Avoids .panic) (hidle : w.state.running = false)
    (hstart : (a.start w).1 = .ok ()) :
    ∃ results, a.Loads w results ∧ (a.start w).2.state = ⟨true, results⟩ := by
  rcases start_cases hcatalog w with
    ⟨hrunning, -⟩ | ⟨results, hloads, -, hstate⟩ | ⟨-, e, -, herror, -⟩
  · cases hrunning.symm.trans hidle
  · exact ⟨results, hloads, hstate⟩
  · cases herror.symm.trans hstart

theorem running_stop (w : AgentWorld) : (stop w).state.running = false := by
  obtain ⟨⟨running, loaded⟩, disk, log⟩ := w
  cases running <;> rfl

theorem stop_of_idle (h : w.state.running = false) : stop w = w := by
  obtain ⟨⟨running, loaded⟩, disk, log⟩ := w
  obtain rfl : running = false := h
  rfl

theorem loaded_stop_of_running (h : w.state.running = true) : (stop w).state.loaded = [] := by
  obtain ⟨⟨running, loaded⟩, disk, log⟩ := w
  obtain rfl : running = true := h
  rfl

theorem stop_stop (w : AgentWorld) : stop (stop w) = stop w :=
  stop_of_idle (running_stop w)

def call (a : LoadingAgent) (w : AgentWorld) : AgentCall → AgentWorld
  | .start => (a.start w).2
  | .stop => stop w
  | .files disk => { w with disk }

def after (a : LoadingAgent) (w : AgentWorld) (calls : List AgentCall) : AgentWorld :=
  calls.foldl a.call w

@[simp] theorem after_concat (a : LoadingAgent) (w : AgentWorld) (calls : List AgentCall)
    (c : AgentCall) : a.after w (calls ++ [c]) = a.call (a.after w calls) c := by
  simp [after]

inductive LastLoaded (a : LoadingAgent) (w : AgentWorld) :
    List AgentCall → List SetupResult → Prop
  | start {calls results} (h : a.Loads (a.after w calls) results) :
      LastLoaded a w (calls ++ [.start]) results
  | call {calls results} (c : AgentCall) (h : LastLoaded a w calls results)
      (hnone : c = .start → ∀ later, ¬a.Loads (a.after w calls) later) :
      LastLoaded a w (calls ++ [c]) results

structure Tells (a : LoadingAgent) (w : AgentWorld) (calls : List AgentCall) (s : AgentState) :
    Prop where
  idle : s.running = false → s.loaded = []
  running : s.running = true → a.LastLoaded w calls s.loaded

theorem Tells.call (hcatalog : a.catalog.Avoids .panic) {calls : List AgentCall}
    (h : a.Tells w calls (a.after w calls).state) (c : AgentCall) :
    a.Tells w (calls ++ [c]) (a.after w (calls ++ [c])).state := by
  rw [after_concat]
  cases c with
  | start =>
    rcases start_cases hcatalog (a.after w calls) with
      ⟨hrunning, hstart⟩ | ⟨results, hloads, -, hstate⟩ | ⟨hidle, e, hload, -, hstate⟩
    -- a start of a running agent is no load, so the load before it stays the last
    · simp only [LoadingAgent.call, hstart]
      refine ⟨h.idle, fun _ => .call .start (h.running hrunning) ?_⟩
      rintro - later ⟨hidle, -⟩
      cases hrunning.symm.trans hidle
    · simp only [LoadingAgent.call, hstate]
      exact ⟨nofun, fun _ => .start hloads⟩
    · simp only [LoadingAgent.call, hstate]
      refine ⟨h.idle, fun hrunning => ?_⟩
      cases hrunning.symm.trans hidle
  | stop =>
    refine ⟨fun _ => ?_, fun hrunning => ?_⟩
    · cases hrunning : (a.after w calls).state.running with
      | true => exact loaded_stop_of_running hrunning
      | false =>
        simp only [LoadingAgent.call, stop_of_idle hrunning]
        exact h.idle hrunning
    · cases hrunning.symm.trans (running_stop _)
  | files disk => exact ⟨h.idle, fun hrunning => .call _ (h.running hrunning) nofun⟩

theorem tells_after (hcatalog : a.catalog.Avoids .panic) (disk : Disk) (log : List Event)
    (calls : List AgentCall) :
    a.Tells { disk, log } calls (a.after { disk, log } calls).state := by
  induction calls using List.reverseRecOn with
  | nil => exact ⟨fun _ => rfl, nofun⟩
  | append_singleton calls c ih => exact ih.call hcatalog c

theorem after_start_of_loads {disk : Disk} {log : List Event} (h : a.Loads { disk, log } results)
    (later : Disk) : (a.after { disk, log } [.start, .files later]).state = ⟨true, results⟩ :=
  (start_of_loads h).2

theorem state_of_calls (a : LoadingAgent) (hcatalog : a.catalog.Avoids .panic) :
    (∀ disk log calls, a.Tells { disk, log } calls (a.after { disk, log } calls).state) ∧
      (∀ w : AgentWorld, w.state.running = true →
        a.start w = (.ok (), w.emit [alreadyRunning])) ∧
      (∀ w e, (a.start w).1 = .error e → (a.start w).2.state = w.state) ∧
      (∀ w m, (a.start w).1 ≠ .panic m) ∧
      ∀ w, stop (stop w) = stop w := by
  refine ⟨tells_after hcatalog, fun w => start_of_running, ?_, ?_, stop_stop⟩
  · intro w e herror
    rcases start_cases hcatalog w with ⟨-, hstart⟩ | ⟨_, -, hok, -⟩ | ⟨-, _, -, -, hstate⟩
    · cases (congrArg Prod.fst hstart).symm.trans herror
    · cases hok.symm.trans herror
    · exact hstate
  · intro w m hpanic
    rcases start_cases hcatalog w with ⟨-, hstart⟩ | ⟨_, -, hok, -⟩ | ⟨-, _, -, herror, -⟩
    · cases (congrArg Prod.fst hstart).symm.trans hpanic
    · cases hok.symm.trans hpanic
    · cases herror.symm.trans hpanic

open Archive

def choirAgent : LoadingAgent where
  type := .standard
  option :=
    { identity := ⟨"choir-1", "choir"⟩
      plugins := ["choir.tgz"]
      services := Services.insert {} (.catalog (.uniform choir fun _ => .done (.ok ()))) }

theorem state_of_choir_calls : choirAgent.catalog.Avoids .panic ∧ ∃ results,
    (choirAgent.after { disk := choirDisk } [.start, .files {}]).state = ⟨true, results⟩ ∧
      choirAgent.LastLoaded { disk := choirDisk } [.start, .files {}] results ∧
      (choirAgent.start (choirAgent.after { disk := choirDisk } [.start, .files {}])).1 =
        .ok () := by
  have huniform : choirAgent.catalog = .uniform choir fun _ => .done (.ok ()) := rfl
  have hcatalog : choirAgent.catalog.Avoids .panic := by
    rw [huniform]
    exact Catalog.avoids_uniform fun _ => trivial
  have hopen : ∀ x ∈ choirAgent.option.plugins, ∃ index, Index.ofFile choirDisk x = .ok index := by
    simp [choirAgent, packed_choir.opens]
  obtain ⟨results, hload⟩ := load_opens hcatalog { disk := choirDisk } hopen
  have hstate := after_start_of_loads ⟨rfl, hload⟩ {}
  obtain ⟨htells, hagain, -⟩ := state_of_calls choirAgent hcatalog
  have hlast := (htells choirDisk [] [.start, .files {}]).running (by rw [hstate])
  rw [hstate] at hlast
  refine ⟨hcatalog, results, hstate, hlast, ?_⟩
  rw [hagain _ (by rw [hstate])]

end LoadingAgent

end PluginAgent
