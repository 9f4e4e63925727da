import PluginAgent.Proofs.FaultContainment

namespace PluginAgent

inductive Effect where
  | set (key value : String)
  | append (archive : String)
  | create (bootClass : String) (option : AgentOption)
  | start
  | hook

def Effect.isStart : Effect → Bool
  | start => true
  | _ => false

variable {A S : Type}

def Move.effect? : Move A → Option Effect
  | .setProperty key value => some (.set key value)
  | .append archive _ => some (.append archive)
  | .create bootClass option _ => some (.create bootClass option)
  | .start _ _ => some .start
  | .hook _ => some .hook
  | _ => none

def effects (ms : List (Move A)) : List Effect :=
  ms.filterMap Move.effect?

@[simp] theorem effects_nil : effects ([] : List (Move A)) = [] :=
  rfl

@[simp] theorem effects_cons (m : Move A) (ms : List (Move A)) :
    effects (m :: ms) = m.effect?.toList ++ effects ms := by
  cases hm : m.effect? <;> simp [effects, hm]

@[simp] theorem effects_append (ms later : List (Move A)) :
    effects (ms ++ later) = effects ms ++ effects later :=
  List.filterMap_append

namespace Premain

open Boot

namespace Step

def allMoves (steps : List (Step A)) : List (Move A) :=
  steps.flatMap (·.moves)

@[simp] theorem allMoves_nil : allMoves ([] : List (Step A)) = [] :=
  rfl

@[simp] theorem allMoves_cons (step : Step A) (rest : List (Step A)) :
    allMoves (step :: rest) = step.moves ++ allMoves rest :=
  rfl

@[simp] theorem allMoves_append (steps later : List (Step A)) :
    allMoves (steps ++ later) = allMoves steps ++ allMoves later :=
  List.flatMap_append

theorem upToFailure_isPrefix (steps : List (Step A)) : upToFailure steps <+: allMoves steps := by
  induction steps with
  | nil => exact List.prefix_rfl
  | cons step rest ih =>
    cases hstep : step.passes with
    | true => simpa [upToFailure, hstep] using ih
    | false => simp [upToFailure, hstep]

theorem upToFailure_of_all {steps : List (Step A)} (h : steps.all (·.passes) = true) :
    upToFailure steps = allMoves steps := by
  induction steps with
  | nil => rfl
  | cons step rest ih =>
    obtain ⟨hstep, hrest⟩ : step.passes = true ∧ rest.all (·.passes) = true := by simpa using h
    simp [upToFailure, hstep, ih hrest]

end Step

theorem hook_mem_append {front rest : List (Step A)}
    (hfront : Effect.hook ∉ effects (Step.allMoves front)) :
    Effect.hook ∈ effects (Step.upToFailure (front ++ rest)) ↔
      front.all (·.passes) = true ∧ Effect.hook ∈ effects (Step.upToFailure rest) := by
  have hnone : Effect.hook ∉ effects (Step.upToFailure front) :=
    fun h => hfront (((Step.upToFailure_isPrefix front).filterMap _).subset h)
  rw [Step.upToFailure_append, effects_append, List.mem_append, or_iff_right hnone]
  by_cases hall : front.all (·.passes) = true
  · simp [hall]
  · simp [hall]

namespace Findings

variable (f : Findings A) (p : Plan) (args : Args)

def option : AgentOption where
  identity := f.identity args
  args := args
  config := (f.config ((f.configPath? p).getD "")).toOption.getD {}
  plugins := (p.layout.plugins f.atPlugins).1.toOption.getD []
  bootArchives := f.bootArchives p
  libs := f.libs p args
  services := p.services

def sequence : List Effect :=
  [.set Properties.logPath p.layout.logPath, .set Properties.version Product.version] ++
    (f.bootArchives p).map .append ++
    [.create args.type.bootClass (f.option p args), .start, .hook]

end Findings

variable {p : Plan} {args : Args} {o : AgentOption}

theorem effects_identityStep (keys : Identity.Keys) (property : Option String) :
    effects (identityStep (A := A) args keys property).moves = [] := by
  unfold identityStep
  split <;> rfl

theorem effects_appendSteps (archives : List String) (answers : List (Except BootError Unit)) :
    effects (Step.allMoves (appendSteps (A := A) archives answers)) = archives.map .append := by
  induction archives generalizing answers with
  | nil => rfl
  | cons archive rest ih => exact congrArg (.append archive :: ·) (ih answers.tail)

theorem effects_look_unless (c : Bool) (d : Disk) :
    effects (if c then [] else [Move.look (A := A) d]) = [] := by
  cases c <;> rfl

theorem effects_launchSteps (created : Outcome BootError A) (started : Outcome BootError Unit) :
    effects (Step.allMoves (launchSteps p o created started)) =
      .create o.args.type.bootClass o :: if created.isOk then [.start, .hook] else [] := by
  cases created <;> rfl

theorem all_of_hook_launch {created : Outcome BootError A} {started : Outcome BootError Unit}
    (h : Effect.hook ∈ effects (Step.upToFailure (launchSteps p o created started))) :
    (launchSteps p o created started).all (·.passes) = true := by
  obtain ⟨hmade, hlater⟩ := (hook_mem_append (by simp [Move.effect?])).mp h
  cases created with
  | ok agent =>
    obtain ⟨hstarted, -⟩ := (@hook_mem_append _ [⟨[.start agent started], started.isOk⟩]
      _ (by simp [Move.effect?])).mp hlater
    rw [launchSteps, List.all_append, hmade]
    simpa using hstarted
  | error e => simp [Step.upToFailure] at hlater
  | panic m => simp [Step.upToFailure] at hlater

namespace Findings

variable (f : Findings A)

theorem all_of_hook (h : Effect.hook ∈ effects (Step.upToFailure (f.steps p args))) :
    (f.steps p args).all (·.passes) = true := by
  obtain ⟨hidentified, hboot⟩ :=
    (hook_mem_append (by simp [Move.effect?, effects_identityStep])).mp h
  obtain ⟨hfound, hconfigure⟩ :=
    (hook_mem_append (by simp [Move.effect?, effects_look_unless])).mp hboot
  obtain ⟨hconfigured, hequip⟩ := (hook_mem_append (by simp [Move.effect?])).mp hconfigure
  obtain ⟨hlisted, happend⟩ := (hook_mem_append (by simp [Move.effect?])).mp hequip
  obtain ⟨happended, hlibs⟩ := (hook_mem_append (by simp [effects_appendSteps])).mp happend
  obtain ⟨hresolved, hlaunch⟩ := (hook_mem_append (by simp [Move.effect?])).mp hlibs
  have hlaunched := all_of_hook_launch hlaunch
  simp only [steps, bootSteps, configureSteps, equipSteps, List.all_append, hidentified, hfound,
    hconfigured, hlisted, happended, hresolved, hlaunched, Bool.and_self]

theorem effects_allMoves : effects (Step.allMoves (f.steps p args)) =
    [.set Properties.logPath p.layout.logPath, .set Properties.version Product.version] ++
      (f.bootArchives p).map .append ++
      .create args.type.bootClass (f.option p args) ::
        if f.created.isOk then [.start, .hook] else [] := by
  simp [steps, bootSteps, configureSteps, equipSteps, Move.effect?, effects_identityStep,
    effects_look_unless, effects_appendSteps, effects_launchSteps, option]

theorem effects_isPrefix : effects (Step.upToFailure (f.steps p args)) <+: f.sequence p args := by
  refine ((Step.upToFailure_isPrefix _).filterMap _).trans ?_
  change effects _ <+: _
  rw [effects_allMoves, sequence]
  cases f.created.isOk with
  | true => exact List.prefix_rfl
  | false => simp

theorem created_of_all (h : (f.steps p args).all (·.passes) = true) : f.created.isOk = true := by
  have hstep : ⟨[.create args.type.bootClass (f.option p args) f.created], f.created.isOk⟩ ∈
      f.steps p args := by
    simp [steps, bootSteps, configureSteps, equipSteps, launchSteps, option]
  exact List.all_eq_true.mp h _ hstep

theorem effects_eq_sequence_iff :
    effects (Step.upToFailure (f.steps p args)) = f.sequence p args ↔
      (f.steps p args).all (·.passes) = true := by
  constructor
  · intro h
    exact f.all_of_hook (by simp [h, sequence])
  · intro h
    rw [Step.upToFailure_of_all h, effects_allMoves, f.created_of_all h, sequence]
    rfl

theorem bootArchives_in_order : ∃ names : List String, names.Pairwise (· ≤ ·) ∧
    f.bootArchives p = names.map (Path.join (p.layout.under Layout.bootFolder)) := by
  unfold bootArchives
  cases hlist : p.layout.bootArchives f.atBootArchives with
  | ok found => exact Layout.files_in_order hlist
  | error e => exact ⟨[], .nil, rfl⟩

theorem create_mem_sequence {bootClass : String} {o : AgentOption} :
    .create bootClass o ∈ f.sequence p args ↔
      bootClass = args.type.bootClass ∧ o = f.option p args := by
  simp [sequence]

theorem key_of_set_mem_sequence {key value : String} (h : .set key value ∈ f.sequence p args) :
    key = Properties.logPath ∨ key = Properties.version := by
  simp only [sequence, List.cons_append, List.nil_append, List.mem_cons, List.mem_append,
    List.mem_map, Effect.set.injEq, reduceCtorEq, and_false, exists_false, List.not_mem_nil,
    or_false] at h
  exact h.imp And.left And.left

theorem countP_start_sequence : (f.sequence p args).countP Effect.isStart = 1 := by
  simp [sequence, List.countP_cons, List.countP_map, Effect.isStart, Function.comp_def]

/-- The findings tell of a start behind the gate what it does, in which order, how far it comes, and
how it ends. -/
structure Tells (p : Plan) (args : Args) (ms : List (Move A)) (outcome : BootOutcome) : Prop where
  moves : ms = .enter true :: Step.upToFailure (f.steps p args)
  started_iff_all : outcome = .started ↔ (f.steps p args).all (·.passes) = true
  started_or_failed : outcome = .started ∨ outcome = .failed
  effects_isPrefix : effects ms <+: f.sequence p args
  started_iff_effects : outcome = .started ↔ effects ms = f.sequence p args
  no_hook_of_failed : outcome = .failed → .hook ∉ effects ms
  only_two_set : ∀ key value, .set key value ∈ effects ms →
    key = Properties.logPath ∨ key = Properties.version
  bootArchives_in_order : ∃ names : List String, names.Pairwise (· ≤ ·) ∧
    f.bootArchives p = names.map (Path.join (p.layout.under Layout.bootFolder))

variable {f}

theorem tells_of_course {ms : List (Move A)} {ok : Bool} (h : Course (f.steps p args) ms ok) :
    f.Tells p args (.enter true :: ms) (if ok then .started else .failed) := by
  obtain ⟨rfl, hpasses⟩ := h
  have hinitial : effects (.enter true :: Step.upToFailure (f.steps p args)) <+:
      f.sequence p args := f.effects_isPrefix
  have hall : (if ok then BootOutcome.started else .failed) = .started ↔
      (f.steps p args).all (·.passes) = true := by
    rw [hpasses]
    cases ok <;> simp
  refine ⟨rfl, hall, ?_, hinitial, hall.trans f.effects_eq_sequence_iff.symm, ?_, ?_,
    f.bootArchives_in_order⟩
  · cases ok <;> simp
  · intro hfailed hhook
    rw [hall.mpr (f.all_of_hook hhook)] at hfailed
    cases hfailed
  · intro key value hset
    exact f.key_of_set_mem_sequence (hinitial.subset hset)

end Findings

theorem tells_of_started {raw : Option String} {i : Surroundings A S} {s : S}
    (h : ((premain p raw).run i s).1 = .started) :
    ∃ f : Findings A, f.Tells p (Args.parse (raw.getD "")) ((premain p raw).moves i s)
      .started := by
  rcases premain_course (runs_moves i (premain p raw) s) with
    ⟨-, hrefused⟩ | ⟨f, rest, ok, hrun, hcourse, houtcome⟩
  · cases h.symm.trans hrefused
  · have htells := Findings.tells_of_course hcourse
    rw [← houtcome, h, ← hrun] at htells
    exact ⟨f, htells⟩

theorem effects_of_premain (p : Plan) (raw : Option String) (i : Surroundings A S) (s : S)
    (hgate : (i.enter (i.log (given (raw.getD "")) s)).1 = true) :
    ∃ f : Findings A, f.Tells p (Args.parse (raw.getD "")) ((premain p raw).moves i s)
      ((premain p raw).run i s).1 := by
  obtain ⟨later, hmoves⟩ : ∃ later, (premain p raw).moves i s =
      .enter (i.enter (i.log (given (raw.getD "")) s)).1 :: later := ⟨_, rfl⟩
  rcases premain_course (runs_moves i (premain p raw) s) with
    ⟨hrefused, -⟩ | ⟨f, rest, ok, hrun, hcourse, houtcome⟩
  · rw [hmoves, hgate] at hrefused
    cases hrefused
  · refine ⟨f, ?_⟩
    rw [hrun, houtcome]
    exact Findings.tells_of_course hcourse

theorem effects_of_premain_choir :
    let raw : String := "agentId=a,applicationName=b"
    let i := Session.surroundings
    let s : Session := { disk := homeWith choirArchive }
    ((i.enter (i.log (given raw) s)).1 = true ∧ (i.enter (i.log (given "") {})).1 = true) ∧
      (∃ f : Findings LoadingAgent,
        f.Tells choirPlan (Args.parse raw) ((premain choirPlan (some raw)).moves i s) .started ∧
          effects ((premain choirPlan (some raw)).moves i s) =
            f.sequence choirPlan (Args.parse raw)) ∧
      (∃ f : Findings LoadingAgent,
        f.Tells choirPlan (Args.parse "") ((premain choirPlan none).moves i {}) .failed) ∧
      effects ((premain choirPlan none).moves i {}) = [] := by
  intro raw i s
  obtain ⟨config, hsound⟩ := sound_homeWith choirArchive
  have hstarted : (run i (premain choirPlan (some raw)) s).1 = .started :=
    started_of_sound (Session.boots s.disk) ⟨rfl, rfl⟩ rfl hsound fun _ hpath =>
      opens_homeWith_choirArchive hpath
  obtain ⟨f, htells⟩ := effects_of_premain choirPlan (some raw) i s rfl
  rw [hstarted] at htells
  refine ⟨⟨rfl, rfl⟩, ⟨f, htells, htells.started_iff_effects.mp rfl⟩, ?_, rfl⟩
  exact effects_of_premain choirPlan none i {} rfl

end Premain

end PluginAgent
