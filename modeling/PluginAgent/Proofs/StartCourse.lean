import PluginAgent.Proofs.Moves

namespace PluginAgent

def Outcome.isOk {ε α : Type} : Outcome ε α → Bool
  | .ok _ => true
  | _ => false

theorem exists_ok_of_isOk {ε α : Type} {x : Except ε α} (h : x.isOk = true) : ∃ a, x = .ok a := by
  cases x with
  | ok a => exact ⟨a, rfl⟩
  | error e => cases h

namespace Premain

open Boot Starting

variable {A : Type}

structure Step (A : Type) where
  moves : List (Move A)
  passes : Bool

namespace Step

def upToFailure : List (Step A) → List (Move A)
  | [] => []
  | step :: rest => step.moves ++ if step.passes then upToFailure rest else []

theorem upToFailure_append (steps later : List (Step A)) : upToFailure (steps ++ later) =
    upToFailure steps ++ if steps.all (·.passes) then upToFailure later else [] := by
  induction steps with
  | nil => rfl
  | cons step rest ih => cases hstep : step.passes <;> simp [upToFailure, hstep, ih]

end Step

structure Course (steps : List (Step A)) (ms : List (Move A)) (ok : Bool) : Prop where
  moves : ms = Step.upToFailure steps
  passes : steps.all (·.passes) = ok

namespace Course

variable {steps later : List (Step A)} {ms rest : List (Move A)} {ok : Bool}

theorem nil : Course ([] : List (Step A)) [] true :=
  ⟨rfl, rfl⟩

theorem one (ms : List (Move A)) (ok : Bool) : Course [⟨ms, ok⟩] ms ok := by
  cases ok <;> exact ⟨by simp [Step.upToFailure], by simp⟩

theorem passed (ms : List (Move A)) (h : ok = true) : Course [⟨ms, ok⟩] ms true := by
  rw [h]
  exact one ms true

theorem append (h : Course steps ms true) (hlater : Course later rest ok) :
    Course (steps ++ later) (ms ++ rest) ok := by
  obtain ⟨rfl, hpasses⟩ := h
  obtain ⟨rfl, rfl⟩ := hlater
  constructor
  · rw [Step.upToFailure_append, if_pos hpasses]
  · rw [List.all_append, hpasses, Bool.true_and]

theorem stop (h : Course steps ms false) (later : List (Step A)) :
    Course (steps ++ later) ms false := by
  obtain ⟨rfl, hpasses⟩ := h
  constructor
  · rw [Step.upToFailure_append, hpasses, if_neg Bool.false_ne_true, List.append_nil]
  · rw [List.all_append, hpasses, Bool.false_and]

end Course

/-- What a start meets on its way: the files that each look finds, and the answers it gets. -/
structure Findings (A : Type) where
  atVerify : Disk := {}
  agentId : Option String := none
  applicationName : Option String := none
  atPlugins : Disk := {}
  configProperty : Option String := none
  atConfigPath : Disk := {}
  atConfig : Disk := {}
  atBootArchives : Disk := {}
  appended : List (Except BootError Unit) := []
  atLibs : Disk := {}
  atReport : Disk := {}
  created : Outcome BootError A := .panic none
  started : Outcome BootError Unit := .ok ()

def identityOf (args : Args) (keys : Identity.Keys) (property : Option String) :
    Except BootError String :=
  (Identity.value keys (args.get? keys.argument) property).1

theorem run_identityValue {S : Type} (i : Surroundings A S) (args : Args) (keys : Identity.Keys)
    (s : S) : ∃ e, Boot.run i (identityValue args keys) s =
      (identityOf args keys (i.property keys.property s), i.log e s) := by
  have hrun (property : Option String)
      (hasked : Boot.run i (propertyIfAbsent keys (args.get? keys.argument)) s = (property, s)) :
      Boot.run i (identityValue args keys) s = (identityOf args keys property,
        i.log (Identity.value keys (args.get? keys.argument) property).2 s) := by
    rw [identityValue, Boot.run_bind, hasked]
    rfl
  cases hgiven : args.get? keys.argument with
  | some v =>
    have hsame : identityOf args keys (i.property keys.property s) = identityOf args keys none := by
      rw [identityOf, identityOf, hgiven]
      rfl
    rw [hsame]
    refine ⟨_, hrun none ?_⟩
    rw [hgiven]
    rfl
  | none =>
    refine ⟨_, hrun _ ?_⟩
    rw [hgiven]
    rfl

def identityStep (args : Args) (keys : Identity.Keys) (property : Option String) : Step A :=
  { moves := if (args.get? keys.argument).isSome then [] else [.property keys.property property]
    passes := (identityOf args keys property).isOk }

def appendSteps : List String → List (Except BootError Unit) → List (Step A)
  | [], _ => []
  | archive :: rest, answers =>
    ⟨[.append archive (answers.headD (.ok ()))], (answers.headD (.ok ())).isOk⟩ ::
      appendSteps rest answers.tail

def launchSteps (p : Plan) (o : AgentOption) (created : Outcome BootError A)
    (started : Outcome BootError Unit) : List (Step A) :=
  [⟨[], p.known o.args.type.bootClass⟩,
    ⟨[.create o.args.type.bootClass o created], created.isOk⟩] ++
  match created with
  | .ok agent => [⟨[.start agent started], started.isOk⟩, ⟨[.hook agent], true⟩]
  | _ => []

namespace Findings

variable (f : Findings A) (p : Plan) (args : Args)

def configPath? : Option String :=
  f.configProperty.or (p.layout.configPath? f.atConfigPath)

def config (path : String) : Except ConfigError Config :=
  (Config.load f.atConfig path).1

def bootArchives : List String :=
  (p.layout.bootArchives f.atBootArchives).toOption.getD []

def libs : List String :=
  (Layout.filterLibs args.type.loadsTestLibraries
    ((p.layout.libs f.atLibs).toOption.getD [])).1

def identity : Identity where
  agentId := (identityOf args Identity.idKeys f.agentId).toOption.getD ""
  applicationName := (identityOf args Identity.nameKeys f.applicationName).toOption.getD ""

def equipSteps (o : AgentOption) : List (Step A) :=
  [⟨[.look f.atBootArchives], (p.layout.bootArchives f.atBootArchives).isOk⟩] ++
    (appendSteps (f.bootArchives p) f.appended ++
    ([⟨[.look f.atLibs], (p.layout.libs f.atLibs).isOk⟩, ⟨[.look f.atReport], true⟩] ++
      launchSteps p { o with bootArchives := f.bootArchives p, libs := f.libs p o.args } f.created
        f.started))

def configureSteps (o : AgentOption) (path : String) : List (Step A) :=
  [⟨[.setProperty Properties.logPath p.layout.logPath], true⟩,
    ⟨[.setProperty Properties.version Product.version], true⟩,
    ⟨[.look f.atConfig], (f.config path).isOk⟩] ++
  f.equipSteps p { o with config := (f.config path).toOption.getD {} }

def bootSteps (identity : Identity) : List (Step A) :=
  [⟨[.look f.atPlugins], (p.layout.plugins f.atPlugins).1.isOk⟩,
    ⟨.property Properties.configPath f.configProperty ::
        if f.configProperty.isSome then [] else [.look f.atConfigPath],
      (f.configPath? p).isSome⟩] ++
  f.configureSteps p
    { identity, args, plugins := (p.layout.plugins f.atPlugins).1.toOption.getD []
      services := p.services }
    ((f.configPath? p).getD "")

def steps : List (Step A) :=
  [⟨[.look f.atVerify], (p.layout.verify f.atVerify).isOk⟩,
    identityStep args Identity.idKeys f.agentId,
    identityStep args Identity.nameKeys f.applicationName] ++
  f.bootSteps p args (f.identity args)

end Findings

def launch (p : Plan) (o : AgentOption) : Starting A Unit := do
  act <| emit (starting o.args.type.bootClass)
  let agent ← bootAgent p.known (some o.args.type.bootClass) o
  complete (← act <| startAgent agent)
  act <| addHook agent

def equip (p : Plan) (o : AgentOption) : Starting A Unit := do
  let bootArchives ← require (p.layout.bootArchives (← act disk))
  appendAll bootArchives
  let libs ← resolveLibs p.layout o.args.type
  launch p { o with bootArchives, libs }

def configure (p : Plan) (o : AgentOption) (path : String) : Starting A Unit := do
  act <| saveLogPath p.layout
  act saveVersion
  let d ← act disk
  act <| emitAll (Config.load d path).2
  let config ← require ((Config.load d path).1.mapError BootError.config)
  equip p { o with config }

theorem boot_eq (p : Plan) (args : Args) (identity : Identity) :
    (boot p args identity : Starting A Unit) = (do
      let d ← act disk
      act <| emitAll (p.layout.plugins d).2
      let plugins ← require (p.layout.plugins d).1
      match ← act <| configPath p.layout with
      | none => throw (.failed .configNotFound)
      | some path => configure p { identity, args, plugins, services := p.services } path) :=
  rfl

variable {p : Plan} {args : Args} {o : AgentOption} {ms : List (Move A)}

theorem course_bootAgent {known : String → Bool} {c : String} {r : Except Stop A}
    (h : Runs (bootAgent known (some c) o).run ms r) :
    ∃ created, Course [⟨[], known c⟩, ⟨[.create c o created], created.isOk⟩] ms r.isOk ∧
      ∀ agent, r = .ok agent → created = .ok agent := by
  simp only [bootAgent] at h
  split at h
  · rename_i hknown
    rw [hknown]
    obtain ⟨created, _, rfl, hdone⟩ := h
    refine ⟨created, ?_⟩
    cases created with
    | ok agent =>
      obtain ⟨rfl, rfl⟩ := hdone
      exact ⟨(Course.one [] true).append (.one _ true), by simp⟩
    | error e =>
      obtain ⟨rfl, rfl⟩ := hdone
      exact ⟨(Course.one [] true).append (.one _ false), by simp⟩
    | panic m =>
      obtain ⟨rfl, rfl⟩ := hdone
      exact ⟨(Course.one [] true).append (.one _ false), by simp⟩
  · rename_i hunknown
    rw [Bool.not_eq_true] at hunknown
    rw [hunknown]
    obtain ⟨rfl, rfl⟩ := h
    exact ⟨.panic none, (Course.one [] false).stop _, by simp⟩

theorem course_launch {r : Except Stop Unit} (h : Runs (launch p o).run ms r) :
    ∃ created started, Course (launchSteps p o created started) ms r.isOk := by
  rcases Starting.runs_bind.mp (show Runs (bootAgent p.known _ o >>= _).run ms r from h) with
    ⟨e, hboot, rfl⟩ | ⟨agent, _, _, rfl, hboot, hlater⟩
  · obtain ⟨created, hcourse, -⟩ := course_bootAgent hboot
    exact ⟨created, .ok (), hcourse.stop _⟩
  · obtain ⟨created, hcourse, hagent⟩ := course_bootAgent hboot
    obtain rfl := hagent agent rfl
    obtain ⟨started, _, rfl, hend⟩ := hlater
    refine ⟨.ok agent, started, hcourse.append ?_⟩
    rcases Starting.runs_complete_bind hend with ⟨_, rfl, hhook⟩ | ⟨hfailed, rfl, _, rfl⟩
    · obtain ⟨_, rfl, rfl, rfl⟩ := hhook
      exact (Course.one _ true).append (.one _ true)
    · cases started with
      | ok => exact absurd rfl (hfailed ())
      | error e => exact (Course.one _ false).stop _
      | panic m => exact (Course.one _ false).stop _

theorem course_appendAll {archives : List String} {r : Except Stop Unit}
    (h : Runs (appendAll archives : Starting A Unit).run ms r) :
    ∃ answers, Course (appendSteps archives answers) ms r.isOk := by
  induction archives generalizing ms with
  | nil =>
    obtain ⟨rfl, rfl⟩ := h
    exact ⟨[], .nil⟩
  | cons archive rest ih =>
    obtain ⟨answer, _, rfl, hanswer⟩ := h
    rcases Starting.runs_require_bind hanswer with ⟨_, rfl, hrest⟩ | ⟨e, rfl, rfl, rfl⟩
    · obtain ⟨answers, hcourse⟩ := ih hrest
      exact ⟨.ok () :: answers, (Course.one _ true).append hcourse⟩
    · exact ⟨[.error e], (Course.one _ false).stop _⟩

theorem course_resolveLibs {l : Layout} {type : AgentType} {r : Except Stop (List String)}
    (h : Runs (resolveLibs l type : Starting A _).run ms r) :
    ∃ atLibs atReport,
      Course [⟨[.look atLibs], (l.libs atLibs).isOk⟩, ⟨[.look atReport], true⟩] ms r.isOk ∧
      ∀ libs, r = .ok libs → libs =
        (Layout.filterLibs type.loadsTestLibraries ((l.libs atLibs).toOption.getD [])).1 := by
  obtain ⟨d, _, rfl, hlist⟩ := h
  rcases Starting.runs_require_bind hlist with ⟨found, hfound, hrest⟩ | ⟨e, herror, rfl, rfl⟩
  · obtain ⟨d', _, rfl, hlibs⟩ := Starting.runs_emitAll_bind.mp hrest
    obtain ⟨rfl, rfl⟩ := Starting.runs_emitAll_bind.mp hlibs
    refine ⟨d, d', (Course.passed _ (congrArg Except.isOk hfound)).append (.one _ true), ?_⟩
    · rintro libs ⟨rfl⟩
      rw [hfound]
      rfl
  · refine ⟨d, {}, ?_, by simp⟩
    rw [herror]
    exact (Course.one _ false).stop _

theorem course_equip {r : Except Stop Unit} (h : Runs (equip p o).run ms r) :
    ∃ f : Findings A, Course (f.equipSteps p o) ms r.isOk := by
  obtain ⟨d, _, rfl, hlist⟩ := h
  rcases Starting.runs_require_bind hlist with ⟨archives, hfound, hrest⟩ | ⟨e, herror, rfl, rfl⟩
  · obtain rfl : (p.layout.bootArchives d).toOption.getD [] = archives := by rw [hfound]; rfl
    have hfirst := Course.passed [Move.look (A := A) d] (congrArg Except.isOk hfound)
    rcases Starting.runs_bind.mp hrest with ⟨e, happend, rfl⟩ | ⟨_, _, _, rfl, happend, hlater⟩
    · obtain ⟨appended, hcourse⟩ := course_appendAll happend
      exact ⟨{ atBootArchives := d, appended }, hfirst.append (hcourse.stop _)⟩
    · obtain ⟨appended, happended⟩ := course_appendAll happend
      rcases Starting.runs_bind.mp hlater with ⟨e, hlibs, rfl⟩ | ⟨libs, _, _, rfl, hlibs, hlaunch⟩
      · obtain ⟨atLibs, atReport, hcourse, -⟩ := course_resolveLibs hlibs
        exact ⟨{ atBootArchives := d, appended, atLibs, atReport },
          hfirst.append (happended.append (hcourse.stop _))⟩
      · obtain ⟨atLibs, atReport, hcourse, hvalue⟩ := course_resolveLibs hlibs
        obtain ⟨created, started, hlaunched⟩ := course_launch hlaunch
        obtain rfl := hvalue libs rfl
        exact ⟨{ atBootArchives := d, appended, atLibs, atReport, created, started },
          hfirst.append (happended.append (hcourse.append hlaunched))⟩
  · refine ⟨{ atBootArchives := d }, ?_⟩
    rw [Findings.equipSteps, herror]
    exact (Course.one _ false).stop _

theorem course_configPath {l : Layout} {path : Option String}
    (h : Runs (configPath l : Boot A _) ms path) :
    ∃ value atConfigPath, path = value.or (l.configPath? atConfigPath) ∧
      ms = .property Properties.configPath value ::
        if value.isSome then [] else [.look atConfigPath] := by
  obtain ⟨value, _, rfl, hvalue⟩ := h
  cases value with
  | some v =>
    obtain ⟨rfl, rfl⟩ := hvalue
    exact ⟨some v, {}, rfl, rfl⟩
  | none =>
    obtain ⟨d, _, rfl, hpath⟩ := Boot.runs_disk_bind.mp hvalue
    refine ⟨none, d, ?_⟩
    cases hfound : l.configPath? d with
    | some v =>
      simp only [hfound] at hpath
      obtain ⟨rfl, rfl⟩ := hpath
      exact ⟨rfl, rfl⟩
    | none =>
      simp only [hfound] at hpath
      obtain ⟨rfl, rfl⟩ := hpath
      exact ⟨rfl, rfl⟩

theorem course_configure {path : String} {r : Except Stop Unit}
    (h : Runs (configure p o path : Starting A Unit).run ms r) :
    ∃ f : Findings A, Course (f.configureSteps p o path) ms r.isOk := by
  obtain ⟨_, rfl, _, rfl, d, _, rfl, hload⟩ := h
  have hset (ok : Bool) : Course
      ([⟨[.setProperty Properties.logPath p.layout.logPath], true⟩] ++
        ([⟨[.setProperty Properties.version Product.version], true⟩] ++ [⟨[.look d], ok⟩]))
      [Move.setProperty (A := A) Properties.logPath p.layout.logPath,
        .setProperty Properties.version Product.version, .look d] ok :=
    (Course.one _ true).append ((Course.one _ true).append (.one _ ok))
  have hrest := Starting.runs_emitAll_bind.mp hload
  cases hconfig : (Config.load d path).1 with
  | ok config =>
    rw [hconfig] at hrest
    obtain ⟨f, hcourse⟩ := course_equip hrest
    refine ⟨{ f with atConfig := d }, ?_⟩
    rw [Findings.configureSteps, Findings.config, hconfig]
    exact (hset true).append hcourse
  | error e =>
    rw [hconfig] at hrest
    obtain ⟨rfl, rfl⟩ := hrest
    refine ⟨{ atConfig := d }, ?_⟩
    rw [Findings.configureSteps, Findings.config, hconfig]
    exact (hset false).stop _

theorem course_boot {identity : Identity} {r : Except Stop Unit}
    (h : Runs (boot p args identity : Starting A Unit).run ms r) :
    ∃ f : Findings A, Course (f.bootSteps p args identity) ms r.isOk := by
  rw [boot_eq] at h
  obtain ⟨d, _, rfl, hlist⟩ := h
  rcases Starting.runs_require_bind (Starting.runs_emitAll_bind.mp hlist) with
    ⟨plugins, hplugins, hrest⟩ | ⟨e, herror, rfl, rfl⟩
  · obtain rfl : (p.layout.plugins d).1.toOption.getD [] = plugins := by rw [hplugins]; rfl
    have hfirst := Course.passed [Move.look (A := A) d] (congrArg Except.isOk hplugins)
    rcases Starting.runs_bind.mp hrest with ⟨e, hpath, rfl⟩ | ⟨path?, _, _, rfl, hpath, hconfig⟩
    · obtain ⟨_, hok, -⟩ := Starting.runs_act.mp hpath
      cases hok
    · obtain ⟨_, ⟨rfl⟩, hfind⟩ := Starting.runs_act.mp hpath
      obtain ⟨value, atConfigPath, rfl, rfl⟩ := course_configPath hfind
      cases hfound : value.or (p.layout.configPath? atConfigPath) with
      | none =>
        rw [hfound] at hconfig
        obtain ⟨rfl, rfl⟩ := hconfig
        refine ⟨{ atPlugins := d, configProperty := value, atConfigPath }, ?_⟩
        rw [Findings.bootSteps, Findings.configPath?, hfound, List.append_nil]
        exact (hfirst.append (Course.one _ false)).stop _
      | some path =>
        rw [hfound] at hconfig
        obtain ⟨f, hcourse⟩ := course_configure hconfig
        refine ⟨{ f with atPlugins := d, configProperty := value, atConfigPath }, ?_⟩
        rw [Findings.bootSteps, Findings.configPath?, hfound]
        exact (hfirst.append (Course.one _ true)).append hcourse
  · refine ⟨{ atPlugins := d }, ?_⟩
    rw [Findings.bootSteps, herror]
    exact (Course.one _ false).stop _

theorem course_identityValue {keys : Identity.Keys} {r : Except BootError String}
    (h : Runs (identityValue args keys : Boot A _) ms r) :
    ∃ property, Course [identityStep args keys property] ms r.isOk ∧
      r = identityOf args keys property := by
  obtain ⟨property, asked, after, rfl, hasked, hvalue⟩ := Boot.runs_bind.mp h
  obtain ⟨rfl, rfl⟩ : after = [] ∧ r = identityOf args keys property := hvalue
  refine ⟨property, ?_, rfl⟩
  have hmoves : asked =
      if (args.get? keys.argument).isSome then [] else [.property keys.property property] := by
    cases hgiven : args.get? keys.argument with
    | some v =>
      rw [hgiven] at hasked
      exact hasked.1
    | none =>
      rw [hgiven] at hasked
      obtain ⟨_, _, rfl, rfl, rfl⟩ := hasked
      rfl
  rw [identityStep, ← hmoves, List.append_nil]
  exact .one _ _

theorem course_identity {r : Except BootError Identity}
    (h : Runs (identity args : Boot A _) ms r) :
    ∃ f : Findings A, Course [identityStep args Identity.idKeys f.agentId,
        identityStep args Identity.nameKeys f.applicationName] ms r.isOk ∧
      ∀ found, r = .ok found → found = f.identity args := by
  obtain ⟨id?, _, _, rfl, hid, hrest⟩ := Boot.runs_bind.mp h
  obtain ⟨agentId, hidStep, hidValue⟩ := course_identityValue hid
  cases id? with
  | error e =>
    obtain ⟨rfl, rfl⟩ := hrest
    refine ⟨{ agentId }, ?_, by simp⟩
    rw [List.append_nil]
    exact hidStep.stop _
  | ok id =>
    obtain ⟨name?, _, _, rfl, hname, hlast⟩ := Boot.runs_bind.mp hrest
    obtain ⟨applicationName, hnameStep, hnameValue⟩ := course_identityValue hname
    refine ⟨{ agentId, applicationName }, ?_, ?_⟩
    · cases name? with
      | error e =>
        obtain ⟨rfl, rfl⟩ := hlast
        rw [List.append_nil]
        exact hidStep.append hnameStep
      | ok name =>
        obtain ⟨rfl, rfl⟩ := hlast
        rw [List.append_nil]
        exact hidStep.append hnameStep
    · cases name? with
      | error e =>
        obtain ⟨rfl, rfl⟩ := hlast
        simp
      | ok name =>
        obtain ⟨rfl, rfl⟩ := hlast
        rintro found ⟨rfl⟩
        rw [Findings.identity, ← hidValue, ← hnameValue]
        rfl

theorem course_start {ok : Bool} (h : Runs (start p args : Boot A Bool) ms ok) :
    ∃ f : Findings A, Course ([identityStep args Identity.idKeys f.agentId,
        identityStep args Identity.nameKeys f.applicationName] ++
      f.bootSteps p args (f.identity args)) ms ok := by
  obtain ⟨identity?, _, _, rfl, hidentity, hrest⟩ := Boot.runs_bind.mp h
  obtain ⟨f, hcourse, hvalue⟩ := course_identity hidentity
  cases identity? with
  | error e =>
    obtain ⟨rfl, rfl⟩ := hrest
    refine ⟨f, ?_⟩
    rw [List.append_nil]
    exact hcourse.stop _
  | ok found =>
    obtain rfl := hvalue found rfl
    obtain ⟨r, _, _, rfl, hboot, rfl, rfl⟩ := Boot.runs_bind.mp hrest
    obtain ⟨g, hbooted⟩ := course_boot hboot
    refine ⟨{ g with agentId := f.agentId, applicationName := f.applicationName }, ?_⟩
    rw [List.append_nil]
    exact hcourse.append hbooted

theorem premain_course {raw : Option String} {outcome : BootOutcome}
    (h : Runs (premain p raw : Boot A BootOutcome) ms outcome) :
    (ms = [.enter false] ∧ outcome = .alreadyStarted) ∨
      ∃ (f : Findings A) (rest : List (Move A)) (ok : Bool), ms = .enter true :: rest ∧
        Course (f.steps p (Args.parse (raw.getD ""))) rest ok ∧
        outcome = if ok then .started else .failed := by
  obtain ⟨passed, rest, rfl, hrest⟩ := h
  cases passed with
  | false =>
    obtain ⟨rfl, rfl⟩ := hrest
    exact .inl ⟨rfl, rfl⟩
  | true =>
    obtain ⟨d, later, rfl, hverify⟩ := Boot.runs_disk_bind.mp (Boot.runs_emitAll_bind.mp hrest)
    cases hverified : p.layout.verify d with
    | error e =>
      rw [hverified] at hverify
      obtain ⟨rfl, rfl⟩ := hverify
      refine .inr ⟨{ atVerify := d }, _, false, rfl, ?_, rfl⟩
      rw [Findings.steps, hverified]
      exact (Course.one _ false).stop _
    | ok _ =>
      simp only [hverified] at hverify
      obtain ⟨ok, _, _, rfl, hstart, rfl, rfl⟩ := Boot.runs_bind.mp hverify
      obtain ⟨f, hcourse⟩ := course_start hstart
      refine .inr ⟨{ f with atVerify := d }, _, ok, rfl, ?_, rfl⟩
      rw [List.append_nil, Findings.steps, hverified]
      exact (Course.one _ true).append hcourse

end Premain

end PluginAgent
