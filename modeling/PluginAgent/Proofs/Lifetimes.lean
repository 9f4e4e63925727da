import Mathlib.Data.List.Induction
import PluginAgent.Proofs.FaultContainment
import PluginAgent.Proofs.HookRuns
import PluginAgent.Proofs.OneStart

namespace PluginAgent

open Boot Premain

variable {A H E : Type}

inductive ShutdownHook (A H : Type) where
  | stop (agent : A)
  | foreign (hook : H)

def ShutdownHook.agent? : ShutdownHook A H → Option A
  | stop agent => some agent
  | foreign _ => none

/-- Foreign code over a state of its own. `asks` takes off the hooks that it wants to register. -/
structure Outside (A H E : Type) where
  log : Event → E → E
  look : E → Disk
  property : String → E → Option String
  setProperty : String → String → E → E
  create : String → AgentOption → E → Outcome BootError A × E
  start : A → E → Outcome BootError Unit × E
  call : ShutdownHook A H → E → Bool × E
  asks : E → List H × E

structure Process (A H E : Type) where
  gate : Gate := {}
  host : Host (ShutdownHook A H) := {}
  foreign : List H := []
  own : E

namespace Process

variable (o : Outside A H E)

def agents (x : Process A H E) : List A :=
  x.host.hooks.filterMap ShutdownHook.agent?

def turn (own : E) (x : Process A H E) : Process A H E :=
  { x with
    host := (o.asks own).1.foldl (fun host hook => host.addHook (.foreign hook)) x.host
    foreign := x.foreign ++ (o.asks own).1
    own := (o.asks own).2 }

def append (archive : String) (x : Process A H E) : Except BootError Unit × Process A H E :=
  match x.host.append (o.look x.own) archive with
  | .error e => (.error e, x)
  | .ok host => (.ok (), { x with host })

def surroundings : Surroundings A (Process A H E) where
  log e x := x.turn o (o.log e x.own)
  enter x := (x.gate.enter.1, { x with gate := x.gate.enter.2 })
  look x := o.look x.own
  property key x := o.property key x.own
  setProperty key value x := x.turn o (o.setProperty key value x.own)
  append := append o
  create c option x := ((o.create c option x.own).1, x.turn o (o.create c option x.own).2)
  start agent x := ((o.start agent x.own).1, x.turn o (o.start agent x.own).2)
  hook agent x := { x with host := x.host.addHook (.stop agent) }

end Process

theorem Host.hooks_append {K : Type} {h h' : Host K} {d : Disk} {archive : String}
    (happend : h.append d archive = .ok h') : h'.hooks = h.hooks := by
  unfold Host.append at happend
  split at happend
  · cases happend
  · split at happend <;> cases happend <;> rfl

theorem Host.hooks_addAll {K : Type} (h : Host (ShutdownHook A K)) (hooks : List K) :
    (hooks.foldl (fun host hook => host.addHook (.foreign hook)) h).hooks =
      h.hooks ++ hooks.map .foreign := by
  induction hooks generalizing h with
  | nil => simp
  | cons hook rest ih => rw [List.foldl_cons, ih, addHook, List.append_assoc]; rfl

def Move.hooked? : Move A → Option A
  | .hook agent => some agent
  | _ => none

def hooked (ms : List (Move A)) : List A :=
  ms.filterMap Move.hooked?

@[simp] theorem hooked_nil : hooked ([] : List (Move A)) = [] :=
  rfl

@[simp] theorem hooked_cons (m : Move A) (ms : List (Move A)) :
    hooked (m :: ms) = m.hooked?.toList ++ hooked ms := by
  cases hm : m.hooked? <;> simp [hooked, hm]

@[simp] theorem hooked_append (ms later : List (Move A)) :
    hooked (ms ++ later) = hooked ms ++ hooked later :=
  List.filterMap_append

theorem hooked_eq_nil {ms : List (Move A)} (h : .hook ∉ effects ms) : hooked ms = [] := by
  refine List.filterMap_eq_nil_iff.mpr fun m hmem => ?_
  cases m with
  | hook agent =>
    have hhook : .hook ∈ effects ms := List.mem_filterMap.mpr ⟨_, hmem, rfl⟩
    exact absurd hhook h
  | _ => rfl

namespace Process

variable {o : Outside A H E} {x y z : Process A H E} {added more : List A}

def Recorded (x : Process A H E) : Prop :=
  ∀ hook, .foreign hook ∈ x.host.hooks → hook ∈ x.foreign

structure Follows (x : Process A H E) (added : List A) (y : Process A H E) : Prop where
  started : x.gate.started = true → y.gate.started = true
  agents : y.agents = x.agents ++ added
  recorded : x.Recorded → y.Recorded
  foreign : x.foreign <+: y.foreign

theorem Follows.refl (x : Process A H E) : x.Follows [] x :=
  ⟨id, (List.append_nil _).symm, id, List.prefix_rfl⟩

theorem Follows.trans (h : x.Follows added y) (hmore : y.Follows more z) :
    x.Follows (added ++ more) z where
  started := hmore.started ∘ h.started
  agents := by rw [hmore.agents, h.agents, List.append_assoc]
  recorded := hmore.recorded ∘ h.recorded
  foreign := h.foreign.trans hmore.foreign

theorem follows_turn (x : Process A H E) (own : E) : x.Follows [] (x.turn o own) where
  started := id
  agents := by
    simp only [agents, turn, Host.hooks_addAll, List.filterMap_append, List.filterMap_map]
    congr 1
    exact List.filterMap_eq_nil_iff.mpr fun _ _ => rfl
  recorded h hook hmem := by
    simp only [turn, Host.hooks_addAll, List.mem_append, List.mem_map] at hmem ⊢
    rcases hmem with hold | ⟨_, hnew, ⟨rfl⟩⟩
    · exact .inl (h hook hold)
    · exact .inr hnew
  foreign := List.prefix_append _ _

theorem follows_enter (x : Process A H E) : x.Follows [] ((surroundings o).enter x).2 :=
  ⟨fun _ => rfl, (List.append_nil _).symm, id, List.prefix_rfl⟩

theorem follows_append (archive : String) (x : Process A H E) :
    x.Follows [] (x.append o archive).2 := by
  unfold append
  cases happend : x.host.append (o.look x.own) archive with
  | error e => exact .refl x
  | ok host =>
    have hhooks := Host.hooks_append happend
    refine ⟨id, ?_, ?_, List.prefix_rfl⟩
    · simp only [agents, hhooks, List.append_nil]
    · simp only [Recorded, hhooks, imp_self]

theorem follows_hook (agent : A) (x : Process A H E) :
    x.Follows [agent] ((surroundings o).hook agent x) where
  started := id
  agents := by simp [agents, surroundings, Host.addHook, ShutdownHook.agent?]
  recorded h hook hmem := h hook (by simpa [surroundings, Host.addHook] using hmem)
  foreign := List.prefix_rfl

theorem follows_run {α : Type} (b : Boot A α) (x : Process A H E) :
    x.Follows (hooked (b.moves (surroundings o) x))
      (b.run (surroundings o) x).2 := by
  induction b generalizing x with
  | done a => exact .refl x
  | log e next ih => exact (follows_turn x _).trans (ih _)
  | enter next ih => exact (follows_enter x).trans (ih _ _)
  | look next ih => exact ih _ _
  | property key next ih => exact ih _ _
  | setProperty key value next ih => exact (follows_turn x _).trans (ih _)
  | append archive next ih => exact (follows_append archive x).trans (ih _ _)
  | create c option next ih => exact (follows_turn x _).trans (ih _ _)
  | start agent next ih => exact (follows_turn x _).trans (ih _ _)
  | hook agent next ih => exact (follows_hook agent x).trans (ih _)

theorem agents_eq_of_no_foreign (h : x.Recorded) (hnone : x.foreign = []) :
    x.host.hooks = x.agents.map .stop := by
  have hstops : ∀ hook ∈ x.host.hooks, ∃ agent, hook = .stop agent := by
    intro hook hmem
    cases hook with
    | stop agent => exact ⟨agent, rfl⟩
    | foreign other =>
      have hother := h other hmem
      rw [hnone] at hother
      cases hother
  unfold agents
  generalize x.host.hooks = hooks at hstops
  induction hooks with
  | nil => rfl
  | cons hook rest ih =>
    obtain ⟨agent, rfl⟩ := hstops hook List.mem_cons_self
    refine congrArg (.stop agent :: ·) (ih fun other hmem => ?_)
    exact hstops other (List.mem_cons_of_mem _ hmem)

end Process

namespace Premain

variable {p : Plan} {args : Args}

inductive Ends : List (Move A) → BootOutcome → Prop
  | refused : Ends [.enter false] .alreadyStarted
  | failed {ms} (h : hooked ms = []) : Ends (.enter true :: ms) .failed
  | started {ms} (agent : A) (hstart : .start agent (.ok ()) ∈ ms) (hhook : hooked ms = [agent]) :
      Ends (.enter true :: ms) .started

theorem hooked_identityStep (keys : Identity.Keys) (property : Option String) :
    hooked (identityStep (A := A) args keys property).moves = [] :=
  hooked_eq_nil (by simp [effects_identityStep])

theorem hooked_look_unless (c : Bool) (d : Disk) :
    hooked (if c then [] else [Move.look (A := A) d]) = [] :=
  hooked_eq_nil (by simp [effects_look_unless])

theorem hooked_appendSteps (archives : List String) (answers : List (Except BootError Unit)) :
    hooked (Step.allMoves (appendSteps (A := A) archives answers)) = [] :=
  hooked_eq_nil (by simp [effects_appendSteps])

theorem Findings.started_of_all (f : Findings A) (h : (f.steps p args).all (·.passes) = true) :
    ∃ agent, .start agent (.ok ()) ∈ Step.allMoves (f.steps p args) ∧
      hooked (Step.allMoves (f.steps p args)) = [agent] := by
  cases hcreated : f.created with
  | ok agent =>
    have hstep : ⟨[.start agent f.started], f.started.isOk⟩ ∈ f.steps p args := by
      simp [steps, bootSteps, configureSteps, equipSteps, launchSteps, hcreated]
    have hstarted : f.started = .ok () := by
      have hok := List.all_eq_true.mp h _ hstep
      cases hanswer : f.started with
      | ok => rfl
      | _ => simp [hanswer, Outcome.isOk] at hok
    rw [hstarted] at hstep
    refine ⟨agent, List.mem_flatMap.mpr ⟨_, hstep, List.mem_singleton_self _⟩, ?_⟩
    simp [steps, bootSteps, configureSteps, equipSteps, launchSteps, hcreated, Move.hooked?,
      hooked_identityStep, hooked_look_unless, hooked_appendSteps]
  | error e => simpa [hcreated, Outcome.isOk] using f.created_of_all h
  | panic m => simpa [hcreated, Outcome.isOk] using f.created_of_all h

theorem ends_of_runs {raw : Option String} {ms : List (Move A)} {outcome : BootOutcome}
    (h : Runs (premain p raw) ms outcome) : Ends ms outcome := by
  rcases premain_course h with ⟨rfl, rfl⟩ | ⟨f, rest, ok, rfl, ⟨rfl, hpasses⟩, rfl⟩
  · exact .refused
  · cases ok with
    | true =>
      obtain ⟨agent, hstart, hhook⟩ := f.started_of_all hpasses
      rw [Step.upToFailure_of_all hpasses]
      exact .started agent hstart hhook
    | false =>
      refine .failed (hooked_eq_nil fun hhook => ?_)
      cases hpasses.symm.trans (f.all_of_hook hhook)

end Premain

inductive Occurrence (A H : Type) where
  | move (m : Move A)
  | returned (outcome : BootOutcome)
  | called (hook : ShutdownHook A H) (back : Bool)
  | ran (count : Nat)

def Occurrence.hooked? : Occurrence A H → Option A
  | move m => m.hooked?
  | _ => none

def Occurrence.stopped? : Occurrence A H → Option A
  | called h _ => h.agent?
  | _ => none

inductive LifeCall (E : Type) where
  | premain (args : Option String)
  | runHooks
  | meanwhile (change : E → E)

structure Lifetime (A H E : Type) where
  process : Process A H E
  history : List (Occurrence A H) := []

namespace Lifetime

variable (o : Outside A H E) (p : Plan)

def perform (x : Lifetime A H E) : LifeCall E → Lifetime A H E
  | .premain args =>
    { process := ((premain p args).run (Process.surroundings o) x.process).2
      history := x.history ++
        (((premain p args).moves (Process.surroundings o) x.process).map .move ++
          [.returned ((premain p args).run (Process.surroundings o) x.process).1]) }
  | .runHooks =>
    match x.process.host.runHooks (Host.recording o.call) (fun e s => (o.log e s.1, s.2))
        (x.process.own, []) with
    | (count, host, own, called) =>
      { process := ({ x.process with host } : Process A H E).turn o own
        history := x.history ++ (called.map (fun c => .called c.1 c.2) ++ [.ran count]) }
  | .meanwhile change => { x with process := x.process.turn o (change x.process.own) }

def after (x : Lifetime A H E) (calls : List (LifeCall E)) : Lifetime A H E :=
  calls.foldl (perform o p) x

@[simp] theorem after_append (x : Lifetime A H E) (calls more : List (LifeCall E)) :
    x.after o p (calls ++ more) = (x.after o p calls).after o p more :=
  List.foldl_append

def hooked (history : List (Occurrence A H)) : List A :=
  history.filterMap Occurrence.hooked?

def stopped (history : List (Occurrence A H)) : List A :=
  history.filterMap Occurrence.stopped?

variable {o p} {x y : Lifetime A H E} {c : LifeCall E} {history more : List (Occurrence A H)}

@[simp] theorem hooked_append : hooked (history ++ more) = hooked history ++ hooked more :=
  List.filterMap_append

@[simp] theorem stopped_append : stopped (history ++ more) = stopped history ++ stopped more :=
  List.filterMap_append

@[simp] theorem hooked_moves (ms : List (Move A)) :
    hooked (ms.map (Occurrence.move (H := H))) = PluginAgent.hooked ms :=
  List.filterMap_map

@[simp] theorem stopped_moves (ms : List (Move A)) :
    stopped (ms.map (Occurrence.move (H := H))) = [] := by
  rw [stopped, List.filterMap_map]
  exact List.filterMap_eq_nil_iff.mpr fun _ _ => rfl

@[simp] theorem hooked_returned (outcome : BootOutcome) :
    hooked [Occurrence.returned (A := A) (H := H) outcome] = [] :=
  rfl

@[simp] theorem stopped_returned (outcome : BootOutcome) :
    stopped [Occurrence.returned (A := A) (H := H) outcome] = [] :=
  rfl

theorem hooked_ran (called : List (ShutdownHook A H × Bool)) (count : Nat) :
    hooked (called.map (fun c => .called c.1 c.2) ++ [.ran count]) = [] := by
  rw [hooked, List.filterMap_append, List.filterMap_map]
  exact List.append_eq_nil_iff.mpr ⟨List.filterMap_eq_nil_iff.mpr fun _ _ => rfl, rfl⟩

theorem stopped_ran (called : List (ShutdownHook A H × Bool)) (count : Nat) :
    stopped (called.map (fun c => .called c.1 c.2) ++ [.ran count]) =
      (called.map (·.1)).filterMap ShutdownHook.agent? := by
  rw [stopped, List.filterMap_append, List.filterMap_map, List.filterMap_map]
  exact List.append_nil _

inductive Performs (x y : Lifetime A H E) : LifeCall E → Prop
  | refused (args) (hshut : x.process.gate.started = true) (h : x.process.Follows [] y.process)
      (hhistory : y.history = x.history ++
        ([.enter false].map .move ++ [.returned .alreadyStarted])) :
      Performs x y (.premain args)
  | failed (args) {ms} (hopen : x.process.gate.started = false) (hnone : PluginAgent.hooked ms = [])
      (h : x.process.Follows [] y.process) (hshut : y.process.gate.started = true)
      (hhistory : y.history = x.history ++ (ms.map .move ++ [.returned .failed])) :
      Performs x y (.premain args)
  | started (args) {ms agent} (hopen : x.process.gate.started = false)
      (hstart : .start agent (.ok ()) ∈ ms) (hhook : PluginAgent.hooked ms = [agent])
      (h : x.process.Follows [agent] y.process) (hshut : y.process.gate.started = true)
      (hhistory : y.history = x.history ++ (ms.map .move ++ [.returned .started])) :
      Performs x y (.premain args)
  | ran {called} (hcalled : Host.UpToPanic x.process.host.hooks called)
      (h : ({ x.process with host := { x.process.host with hooks := [] } } :
        Process A H E).Follows [] y.process)
      (hhistory : y.history = x.history ++
        (called.map (fun c => .called c.1 c.2) ++ [.ran x.process.host.hooks.length])) :
      Performs x y .runHooks
  | meanwhile (change) (h : x.process.Follows [] y.process) (hhistory : y.history = x.history) :
      Performs x y (.meanwhile change)

theorem performs_premain (x : Lifetime A H E) (args : Option String) :
    x.Performs (x.perform o p (.premain args)) (.premain args) := by
  have hends := ends_of_runs (runs_moves (Process.surroundings o) (premain p args) x.process)
  have hfollows := Process.follows_run (o := o) (premain p args) x.process
  have hshut : ((premain p args).run (Process.surroundings o) x.process).2.gate.started = true :=
    (Process.follows_run (Call.answered p args (!x.process.gate.started)) _).started rfl
  obtain ⟨rest, hgate⟩ : ∃ rest, (premain p args).moves (Process.surroundings o) x.process =
      .enter (!x.process.gate.started) :: rest := ⟨_, rfl⟩
  have hhistory : (x.perform o p (.premain args)).history = x.history ++
      (((premain p args).moves (Process.surroundings o) x.process).map .move ++
        [.returned ((premain p args).run (Process.surroundings o) x.process).1]) := rfl
  generalize (premain p args).moves (Process.surroundings o) x.process = ms at *
  generalize ((premain p args).run (Process.surroundings o) x.process).1 = outcome at *
  cases hends with
  | refused =>
    have hpassed := Move.enter.inj (List.cons.inj hgate).1
    exact .refused args (by simpa using hpassed) hfollows hhistory
  | @failed ms hnone =>
    have hpassed := Move.enter.inj (List.cons.inj hgate).1
    have hall : PluginAgent.hooked (.enter true :: ms) = [] := hnone
    rw [hall] at hfollows
    exact .failed args (by simpa using hpassed) hall hfollows hshut hhistory
  | @started ms agent hstart hhook =>
    have hpassed := Move.enter.inj (List.cons.inj hgate).1
    have hall : PluginAgent.hooked (.enter true :: ms) = [agent] := hhook
    rw [hall] at hfollows
    exact .started args (by simpa using hpassed) (List.mem_cons_of_mem _ hstart) hall hfollows hshut
      hhistory

theorem performs (x : Lifetime A H E) (c : LifeCall E) : x.Performs (x.perform o p c) c := by
  cases c with
  | premain args => exact x.performs_premain args
  | runHooks =>
    obtain ⟨called, hcalled, own, -, hrun⟩ :=
      x.process.host.runHooks_recording o.call o.log x.process.own
    refine .ran hcalled ?_ ?_ <;> simp only [perform, hrun]
    exact Process.follows_turn _ _
  | meanwhile change => exact .meanwhile change (Process.follows_turn _ _) rfl

def StopsFollow (history : List (Occurrence A H)) : Prop :=
  ∀ before agent back later, history = before ++ .called (.stop agent) back :: later →
    .move (.start agent (.ok ())) ∈ before

theorem StopsFollow.append (h : StopsFollow history)
    (hmore : ∀ agent ∈ stopped more, .move (.start agent (.ok ())) ∈ history) :
    StopsFollow (history ++ more) := by
  intro before agent back later heq
  have hstopped (front : List (Occurrence A H)) :
      agent ∈ stopped (front ++ .called (.stop agent) back :: later) :=
    List.mem_filterMap.mpr ⟨_, List.mem_append_right _ List.mem_cons_self, rfl⟩
  rcases List.append_eq_append_iff.mp heq with ⟨front, rfl, rfl⟩ | ⟨rest, rfl, hrest⟩
  · exact List.mem_append_left _ (hmore agent (hstopped front))
  · cases rest with
    | nil =>
      obtain rfl : .called (.stop agent) back :: later = more := hrest
      simpa using hmore agent (hstopped [])
    | cons e rest =>
      obtain ⟨rfl, -⟩ := List.cons.inj hrest
      exact h before agent back rest rfl

structure Sound (x : Lifetime A H E) : Prop where
  recorded : x.process.Recorded
  fresh : x.process.gate.started = false →
    hooked x.history = [] ∧ .returned .failed ∉ x.history
  accounted : (stopped x.history ++ x.process.agents).Sublist (hooked x.history)
  hooked_le : (hooked x.history).length ≤ 1
  started : ∀ agent ∈ hooked x.history, .move (.start agent (.ok ())) ∈ x.history
  none_of_failed : .returned .failed ∈ x.history → hooked x.history = []
  stopsFollow : StopsFollow x.history

theorem Sound.mem_hooked_of_waiting (h : x.Sound) {agent : A} (hmem : agent ∈ x.process.agents) :
    agent ∈ hooked x.history :=
  h.accounted.subset (List.mem_append_right _ hmem)

theorem Sound.idle (h : x.Sound) (hopen : x.process.gate.started = false) :
    stopped x.history = [] ∧ x.process.agents = [] := by
  have hnone := h.accounted
  rw [(h.fresh hopen).1] at hnone
  exact List.append_eq_nil_iff.mp (List.sublist_nil.mp hnone)

theorem Sound.goes_on (h : x.Sound) (hfollows : x.process.Follows [] y.process)
    (hhistory : y.history = x.history ++ more) (hhooked : hooked more = [])
    (hstopped : stopped more = []) (hfailed : .returned .failed ∈ more → hooked x.history = [])
    (hshut : .returned .failed ∈ more → y.process.gate.started = true) : y.Sound where
  recorded := hfollows.recorded h.recorded
  fresh hopen := by
    have hopenBefore : x.process.gate.started = false := by
      rw [← Bool.not_eq_true] at hopen ⊢
      exact mt hfollows.started hopen
    obtain ⟨hnone, hnot⟩ := h.fresh hopenBefore
    rw [hhistory, hooked_append, hnone, hhooked, List.mem_append]
    refine ⟨rfl, not_or_intro hnot fun hmem => ?_⟩
    cases (hshut hmem).symm.trans hopen
  accounted := by
    rw [hhistory, stopped_append, hooked_append, hhooked, hstopped, hfollows.agents]
    simpa using h.accounted
  hooked_le := by
    rw [hhistory, hooked_append, hhooked, List.append_nil]
    exact h.hooked_le
  started agent hmem := by
    rw [hhistory, hooked_append, hhooked, List.append_nil] at hmem
    rw [hhistory]
    exact List.mem_append_left _ (h.started agent hmem)
  none_of_failed hmem := by
    rw [hhistory, hooked_append, hhooked, List.append_nil]
    rw [hhistory] at hmem
    exact (List.mem_append.mp hmem).elim h.none_of_failed hfailed
  stopsFollow := by
    rw [hhistory]
    exact h.stopsFollow.append (by simp [hstopped])

theorem Sound.starts (h : x.Sound) {ms : List (Move A)} {agent : A}
    (hopen : x.process.gate.started = false) (hstart : .start agent (.ok ()) ∈ ms)
    (hhook : PluginAgent.hooked ms = [agent]) (hfollows : x.process.Follows [agent] y.process)
    (hshut : y.process.gate.started = true)
    (hhistory : y.history = x.history ++ (ms.map .move ++ [.returned .started])) : y.Sound := by
  obtain ⟨hnone, hnot⟩ := h.fresh hopen
  obtain ⟨hstopped, hagents⟩ := h.idle hopen
  have hhooked : hooked y.history = [agent] := by simp [hhistory, hnone, hhook]
  have hstart' : .move (.start agent (.ok ())) ∈ y.history := by simp [hhistory, hstart]
  constructor
  · exact hfollows.recorded h.recorded
  · intro hopen'
    cases hshut.symm.trans hopen'
  · rw [hhooked, hhistory, hfollows.agents, hagents]
    simp [hstopped]
  · rw [hhooked]
    exact Nat.le_refl _
  · rw [hhooked]
    exact fun other hmem => List.mem_singleton.mp hmem ▸ hstart'
  · simp [hhistory, hnot]
  · rw [hhistory]
    exact h.stopsFollow.append (by simp)

theorem Sound.runs (h : x.Sound) {called : List (ShutdownHook A H × Bool)}
    (hcalled : Host.UpToPanic x.process.host.hooks called)
    (hfollows : ({ x.process with host := { x.process.host with hooks := [] } } :
      Process A H E).Follows [] y.process)
    (hhistory : y.history = x.history ++
      (called.map (fun c => .called c.1 c.2) ++ [.ran x.process.host.hooks.length])) : y.Sound := by
  have hinitial := hcalled.isPrefix.filterMap ShutdownHook.agent?
  have hhooked : hooked y.history = hooked x.history := by
    rw [hhistory, hooked_append, hooked_ran, List.append_nil]
  have hagents : y.process.agents = [] := hfollows.agents
  constructor
  · exact hfollows.recorded nofun
  · intro hopen
    have hopenBefore : x.process.gate.started = false := by
      rw [← Bool.not_eq_true] at hopen ⊢
      exact mt hfollows.started hopen
    rw [hhooked]
    simpa [hhistory] using h.fresh hopenBefore
  · rw [hhooked, hhistory, stopped_append, stopped_ran, hagents, List.append_nil]
    exact ((List.Sublist.refl _).append hinitial.sublist).trans h.accounted
  · rw [hhooked]
    exact h.hooked_le
  · rw [hhooked, hhistory]
    exact fun agent hmem => List.mem_append_left _ (h.started agent hmem)
  · rw [hhooked]
    simpa [hhistory] using h.none_of_failed
  · rw [hhistory]
    refine h.stopsFollow.append fun agent hmem => h.started agent (h.mem_hooked_of_waiting ?_)
    rw [stopped_ran] at hmem
    exact hinitial.subset hmem

theorem Sound.performs (h : x.Sound) (hperforms : x.Performs y c) : y.Sound := by
  cases hperforms with
  | refused args hshut hfollows hhistory =>
    exact h.goes_on hfollows hhistory rfl rfl (by simp) (by simp)
  | failed args hopen hnone hfollows hshut hhistory =>
    refine h.goes_on hfollows hhistory ?_ (by simp) (fun _ => (h.fresh hopen).1) fun _ => hshut
    simp [hnone]
  | started args hopen hstart hhook hfollows hshut hhistory =>
    exact h.starts hopen hstart hhook hfollows hshut hhistory
  | ran hcalled hfollows hhistory => exact h.runs hcalled hfollows hhistory
  | meanwhile change hfollows hhistory =>
    exact h.goes_on hfollows (hhistory.trans (List.append_nil _).symm) rfl rfl nofun nofun

theorem Sound.after (h : x.Sound) (calls : List (LifeCall E)) : (x.after o p calls).Sound := by
  induction calls generalizing x with
  | nil => exact h
  | cons c rest ih => exact ih (h.performs (x.performs c))

theorem sound_new (own : E) : Sound ({ process := { own } } : Lifetime A H E) where
  recorded := nofun
  fresh _ := ⟨rfl, nofun⟩
  accounted := .refl _
  hooked_le := Nat.zero_le _
  started := nofun
  none_of_failed := nofun
  stopsFollow before := by cases before <;> exact nofun

structure Awaits (agent : A) (x : Lifetime A H E) : Prop where
  shut : x.process.gate.started = true
  agents : x.process.agents = [agent]
  stopped : stopped x.history = []

theorem Awaits.performs {agent : A} (h : x.Awaits agent) (hperforms : x.Performs y c)
    (hc : c ≠ .runHooks) : y.Awaits agent := by
  cases hperforms with
  | refused args hshut hfollows hhistory =>
    refine ⟨hfollows.started h.shut, hfollows.agents.trans (by rw [h.agents]; rfl), ?_⟩
    rw [hhistory, stopped_append, h.stopped, stopped_append, stopped_moves]
    rfl
  | failed args hopen => cases h.shut.symm.trans hopen
  | started args hopen => cases h.shut.symm.trans hopen
  | ran => exact absurd rfl hc
  | meanwhile change hfollows hhistory =>
    refine ⟨hfollows.started h.shut, hfollows.agents.trans (by rw [h.agents]; rfl), ?_⟩
    rw [hhistory, h.stopped]

theorem Awaits.after {agent : A} (h : x.Awaits agent) {calls : List (LifeCall E)}
    (hcalls : .runHooks ∉ calls) : (x.after o p calls).Awaits agent := by
  induction calls generalizing x with
  | nil => exact h
  | cons c rest ih =>
    obtain ⟨hc, hrest⟩ : .runHooks ≠ c ∧ .runHooks ∉ rest := by simpa using hcalls
    exact ih (h.performs (x.performs c) hc.symm) hrest

theorem Sound.awaits_of_started (h : x.Sound) {args : Option String}
    (hperforms : x.Performs y (.premain args))
    (hstarted : y.history.getLast? = some (.returned .started)) : ∃ agent, y.Awaits agent := by
  cases hperforms with
  | refused args hshut hfollows hhistory => simp [hhistory] at hstarted
  | failed args hopen hnone hfollows hshut hhistory => simp [hhistory] at hstarted
  | @started args ms agent hopen hstart hhook hfollows hshut hhistory =>
    obtain ⟨hstopped, hagents⟩ := h.idle hopen
    refine ⟨agent, hshut, hfollows.agents.trans (by rw [hagents]; rfl), ?_⟩
    simp [hhistory, hstopped]

theorem Awaits.run {agent : A} (h : x.Awaits agent) (hrecorded : x.process.Recorded)
    (hnone : x.process.foreign = []) (hperforms : x.Performs y .runHooks) :
    ∃ back, y.history = x.history ++ [.called (.stop agent) back, .ran 1] := by
  cases hperforms with
  | ran hcalled hfollows hhistory =>
    rw [Process.agents_eq_of_no_foreign hrecorded hnone, h.agents] at hcalled hhistory
    cases hcalled with
    | back hrest =>
      cases hrest
      exact ⟨true, hhistory⟩
    | panic => exact ⟨false, hhistory⟩

structure Orderly (history : List (Occurrence A H)) : Prop where
  stopsFollow : StopsFollow history
  stopped_le : (stopped history).length ≤ 1
  none_of_failed : .returned .failed ∈ history → stopped history = []

theorem Sound.orderly (h : x.Sound) : Orderly x.history := by
  have hsublist := (List.sublist_append_left _ _).trans h.accounted
  refine ⟨h.stopsFollow, Nat.le_trans hsublist.length_le h.hooked_le, fun hfailed => ?_⟩
  rw [h.none_of_failed hfailed] at hsublist
  exact List.sublist_nil.mp hsublist

theorem stopped_once_after_start (o : Outside A H E) (p : Plan) (own : E) :
    let life := fun calls => ({ process := { own } } : Lifetime A H E).after o p calls
    (∀ calls, Orderly (life calls).history) ∧
      ∀ earlier args between,
        (life (earlier ++ [.premain args])).history.getLast? = some (.returned .started) →
        .runHooks ∉ between →
        let waiting := life (earlier ++ [.premain args] ++ between)
        waiting.process.foreign = [] →
          stopped waiting.history = [] ∧ ∃ agent back,
            (life (earlier ++ [.premain args] ++ between ++ [.runHooks])).history =
              waiting.history ++ [.called (.stop agent) back, .ran 1] := by
  intro life
  have hsound calls : (life calls).Sound := (sound_new own).after calls
  refine ⟨fun calls => (hsound calls).orderly, ?_⟩
  intro earlier args between hstarted hbetween waiting hnone
  have hpremain : life (earlier ++ [.premain args]) = (life earlier).perform o p (.premain args) :=
    after_append ..
  have hrun : life (earlier ++ [.premain args] ++ between ++ [.runHooks]) =
      waiting.perform o p .runHooks := after_append ..
  obtain ⟨agent, hawaits⟩ := (hsound earlier).awaits_of_started
    ((life earlier).performs (.premain args)) (hpremain ▸ hstarted)
  have hwaiting : waiting.Awaits agent := by
    simp only [waiting, life, after_append]
    exact Awaits.after hawaits hbetween
  obtain ⟨back, hhistory⟩ := hwaiting.run (hsound _).recorded hnone (waiting.performs .runHooks)
  exact ⟨hwaiting.stopped, agent, back, hrun ▸ hhistory⟩

def alone : Outside LoadingAgent Empty AgentWorld where
  log e w := w.emit [e]
  look w := w.disk
  property _ _ := none
  setProperty _ _ w := w
  create c option w :=
    match Session.agentType? c with
    | some type => (.ok ⟨type, option⟩, w)
    | none => (.error (.bootClassNotFound c), w)
  start agent w := agent.start w
  call _ w := (true, w)
  asks w := ([], w)

def aloneArgs : Option String :=
  some "agentId=a,applicationName=b"

def AtHome (x : Process LoadingAgent Empty AgentWorld) : Prop :=
  x.own.disk = homeWith choirArchive ∧ x.own.state = {}

theorem boots_alone : (Process.surroundings alone).Boots (homeWith choirArchive) AtHome
    fun agent x => some (agent, x.own) where
  look h := h.1
  log _ h := h
  enter h := h
  setProperty _ _ h := h
  append archive h := by
    simp only [Process.surroundings, Process.append]
    split <;> exact h
  property_log _ _ _ := rfl
  property_enter _ _ := rfl
  create {x} type option h := by
    have hcreate : alone.create type.bootClass option x.own = (.ok ⟨type, option⟩, x.own) := by
      cases type <;> rfl
    refine ⟨⟨type, option⟩, x.own.log, congrArg Prod.fst hcreate, ?_⟩
    simp only [Process.surroundings, Process.turn, hcreate, ← h.1, ← h.2]
    rfl
  start h := by
    obtain ⟨rfl, rfl⟩ := Prod.mk.inj (Option.some.inj h)
    exact ⟨rfl, rfl⟩
  world_log _ h := by
    obtain ⟨rfl, rfl⟩ := Prod.mk.inj (Option.some.inj h)
    exact ⟨_, rfl, rfl⟩
  world_hook h := by
    obtain ⟨rfl, rfl⟩ := Prod.mk.inj (Option.some.inj h)
    exact ⟨_, rfl, rfl⟩

theorem AtHome.accepts {x : Process LoadingAgent Empty AgentWorld} (h : AtHome x)
    {archives : List String}
    (harchives : Layout.bootArchives ⟨"home"⟩ (homeWith choirArchive) = .ok archives) :
    ∀ archive ∈ archives, ((Process.surroundings alone).append archive x).1 = .ok () := by
  intro archive hmem
  obtain ⟨host, hhost⟩ := x.host.append_bootArchive harchives archive hmem
  have hlook : alone.look x.own = homeWith choirArchive := h.1
  simp only [Process.surroundings, Process.append, hlook, hhost]

theorem AtHome.starts {x : Process LoadingAgent Empty AgentWorld} (h : AtHome x)
    (hopen : x.gate.started = false) :
    ((premain choirPlan aloneArgs).run (Process.surroundings alone) x).1 = .started := by
  obtain ⟨config, hsound⟩ : ∃ config, Premain.Sound (Process.surroundings alone)
      (homeWith choirArchive) AtHome choirPlan (Args.parse (aloneArgs.getD "")) x config :=
    sound_homeWith_of choirArchive (fun _ => rfl)
      fun _ harchives archive hmem _ hx => AtHome.accepts hx harchives archive hmem
  have hgate : ((Process.surroundings alone).enter
      ((Process.surroundings alone).log (given (aloneArgs.getD "")) x)).1 = true := by
    simp [Process.surroundings, Process.turn, Gate.enter, hopen]
  refine started_of_sound boots_alone h hgate hsound fun path hpath => ?_
  obtain rfl := isPluginArchive_homeWith.mp hpath
  have hpacked : Archive.Packed (homeWith choirArchive) "home/plugin/choir.tgz"
      Archive.choirEntries :=
    ⟨rfl, Archive.packed_choir.packable, Archive.packed_choir.count, Archive.packed_choir.size⟩
  exact hpacked.opens

theorem stopped_once_alone :
    let life := fun calls => ({ process := { own := { disk := homeWith choirArchive } } } :
      Lifetime LoadingAgent Empty AgentWorld).after alone choirPlan calls
    let waiting := life [.runHooks, .premain aloneArgs, .premain none]
    (life [.runHooks, .premain aloneArgs]).history.getLast? = some (.returned .started) ∧
      stopped waiting.history = [] ∧ ∃ agent back,
        (life [.runHooks, .premain aloneArgs, .premain none, .runHooks]).history =
          waiting.history ++ [.called (.stop agent) back, .ran 1] := by
  intro life waiting
  have hhome : AtHome (life [.runHooks]).process := ⟨rfl, rfl⟩
  have hperform : life [.runHooks, .premain aloneArgs] =
      (life [.runHooks]).perform alone choirPlan (.premain aloneArgs) := rfl
  have hstarted : (life [.runHooks, .premain aloneArgs]).history.getLast? =
      some (.returned .started) := by
    rw [hperform, perform, hhome.starts rfl]
    simp
  obtain ⟨-, hstops⟩ := stopped_once_after_start alone choirPlan
    ({ disk := homeWith choirArchive } : AgentWorld)
  exact ⟨hstarted, hstops [.runHooks] aloneArgs [.premain none] hstarted (by simp)
    (List.eq_nil_iff_forall_not_mem.mpr nofun)⟩

end Lifetime

end PluginAgent
