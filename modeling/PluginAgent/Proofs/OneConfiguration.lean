import PluginAgent.Proofs.FaultContainment
import PluginAgent.Proofs.LogSettings
import PluginAgent.Proofs.StartEffects

namespace PluginAgent

open Boot Premain

variable {A S α : Type}

structure Layout.SameConfig (l : Layout) (property : Option String) (d d' : Disk) : Prop where
  path : property.or (l.configPath? d') = property.or (l.configPath? d)
  read : ∀ path ∈ property.or (l.configPath? d), d'.read path = d.read path

namespace Layout.SameConfig

variable {l : Layout} {property : Option String} {d d₁ d₂ : Disk}

theorem refl (l : Layout) (property : Option String) (d : Disk) : l.SameConfig property d d :=
  ⟨rfl, fun _ _ => rfl⟩

theorem trans (h₁ : l.SameConfig property d d₁) (h₂ : l.SameConfig property d₁ d₂) :
    l.SameConfig property d d₂ where
  path := h₂.path.trans h₁.path
  read path hpath := (h₂.read path (h₁.path ▸ hpath)).trans (h₁.read path hpath)

theorem load (h : l.SameConfig property d d₁) {path : String}
    (hpath : property.or (l.configPath? d) = some path) :
    Config.load d₁ path = Config.load d path := by
  simp only [Config.load, Config.read, h.read path hpath]

end Layout.SameConfig

namespace Surroundings

structure Keeps (i : Surroundings A S) (l : Layout) (s s' : S) : Prop where
  property : i.property Properties.configPath s' = i.property Properties.configPath s
  config : l.SameConfig (i.property Properties.configPath s) (i.look s) (i.look s')

/-- Logging, the gate and the other properties leave the configuration alone. -/
structure Steady (i : Surroundings A S) (l : Layout) : Prop where
  log : ∀ e s, i.Keeps l s (i.log e s)
  enter : ∀ s, i.Keeps l s (i.enter s).2
  setProperty : ∀ {key} value s, key ≠ Properties.configPath →
    i.Keeps l s (i.setProperty key value s)

variable {i : Surroundings A S} {l : Layout} {s s₁ s₂ : S}

theorem Keeps.refl (i : Surroundings A S) (l : Layout) (s : S) : i.Keeps l s s :=
  ⟨rfl, .refl _ _ _⟩

theorem Keeps.trans (h₁ : i.Keeps l s s₁) (h₂ : i.Keeps l s₁ s₂) : i.Keeps l s s₂ where
  property := h₂.property.trans h₁.property
  config := h₁.config.trans (h₁.property ▸ h₂.config)

end Surroundings

def Move.isPreliminary : Move A → Bool
  | .enter _ | .look _ | .property _ _ => true
  | .setProperty key _ => key != Properties.configPath
  | _ => false

def Move.Finds (i : Surroundings A S) (l : Layout) (s : S) : Move A → Prop
  | .look d => l.SameConfig (i.property Properties.configPath s) (i.look s) d
  | .property key value => key = Properties.configPath → value = i.property key s
  | _ => True

namespace Boot

variable {i : Surroundings A S} {l : Layout}

theorem takeWhile_preliminary {m : Move A} {ms : List (Move A)} (h : m.isPreliminary = true) :
    (m :: ms).takeWhile Move.isPreliminary = m :: ms.takeWhile Move.isPreliminary :=
  List.takeWhile_cons_of_pos h

theorem preliminary_finds (hi : i.Steady l) (b : Boot A α) {s₀ : S} :
    ∀ {s}, i.Keeps l s₀ s →
      ∀ m ∈ (moves i b s).takeWhile Move.isPreliminary, m.Finds i l s₀ := by
  induction b with
  | done a => simp [moves]
  | log e next ih => exact fun h => ih (h.trans (hi.log e _))
  | enter next ih =>
    intro s h
    rw [moves, takeWhile_preliminary rfl]
    exact List.forall_mem_cons.mpr ⟨trivial, ih _ (h.trans (hi.enter s))⟩
  | look next ih =>
    intro s h
    rw [moves, takeWhile_preliminary rfl]
    exact List.forall_mem_cons.mpr ⟨h.config, ih _ h⟩
  | property key next ih =>
    intro s h
    rw [moves, takeWhile_preliminary rfl]
    refine List.forall_mem_cons.mpr ⟨?_, ih _ h⟩
    rintro rfl
    exact h.property
  | setProperty key value next ih =>
    intro s h
    by_cases hkey : key = Properties.configPath
    · simp [moves, Move.isPreliminary, hkey]
    · rw [moves, takeWhile_preliminary (by simp [Move.isPreliminary, hkey])]
      exact List.forall_mem_cons.mpr ⟨trivial, ih (h.trans (hi.setProperty value s hkey))⟩
  | append archive next ih => simp [moves, Move.isPreliminary]
  | create c o next ih => simp [moves, Move.isPreliminary]
  | start agent next ih => simp [moves, Move.isPreliminary]
  | hook agent next ih => simp [moves, Move.isPreliminary]

end Boot

namespace Premain.Findings

variable {i : Surroundings A S} {l : Layout} {s : S} (f : Findings A) (p : Plan) (args : Args)

def configSteps : List (Step A) :=
  [⟨[.look f.atVerify], (p.layout.verify f.atVerify).isOk⟩,
    identityStep args Identity.idKeys f.agentId,
    identityStep args Identity.nameKeys f.applicationName,
    ⟨[.look f.atPlugins], (p.layout.plugins f.atPlugins).1.isOk⟩,
    ⟨.property Properties.configPath f.configProperty ::
        if f.configProperty.isSome then [] else [.look f.atConfigPath],
      (f.configPath? p).isSome⟩,
    ⟨[.setProperty Properties.logPath p.layout.logPath], true⟩,
    ⟨[.setProperty Properties.version Product.version], true⟩,
    ⟨[.look f.atConfig], (f.config ((f.configPath? p).getD "")).isOk⟩]

theorem steps_eq_configSteps_append : ∃ later, f.steps p args = f.configSteps p args ++ later :=
  ⟨_, rfl⟩

theorem identityStep_preliminary (keys : Identity.Keys) (property : Option String) :
    ∀ m ∈ (identityStep (A := A) args keys property).moves, m.isPreliminary = true := by
  unfold identityStep
  split <;> simp [Move.isPreliminary]

theorem configSteps_preliminary :
    ∀ m ∈ Step.allMoves (f.configSteps p args), m.isPreliminary = true := by
  have hkeys : Properties.logPath ≠ Properties.configPath ∧
      Properties.version ≠ Properties.configPath := by decide
  have hlooks : ∀ m ∈ if f.configProperty.isSome then [] else [Move.look (A := A) f.atConfigPath],
      m.isPreliminary = true := by
    split <;> simp [Move.isPreliminary]
  have hid := identityStep_preliminary (A := A) args Identity.idKeys f.agentId
  have hname := identityStep_preliminary (A := A) args Identity.nameKeys f.applicationName
  intro m hm
  simp only [configSteps, Step.allMoves_cons, Step.allMoves_nil, List.append_nil, List.mem_append,
    List.mem_cons, List.not_mem_nil, or_false] at hm
  rcases hm with rfl | hm | hm | rfl | (rfl | hm) | rfl | rfl | rfl
  · rfl
  · exact hid m hm
  · exact hname m hm
  · rfl
  · rfl
  · exact hlooks m hm
  · simp [Move.isPreliminary, hkeys.1]
  · simp [Move.isPreliminary, hkeys.2]
  · rfl

variable {f p args}

theorem Tells.passes {ms : List (Move A)} (h : f.Tells p args ms .started) :
    ∀ step ∈ f.configSteps p args, step.passes = true := by
  obtain ⟨later, hsteps⟩ := f.steps_eq_configSteps_append p args
  have hall := h.started_iff_all.mp rfl
  rw [hsteps, List.all_append, Bool.and_eq_true] at hall
  exact List.all_eq_true.mp hall.1

theorem Tells.exists_configPath? {ms : List (Move A)} (h : f.Tells p args ms .started) :
    ∃ path, f.configPath? p = some path := by
  have hpasses : (f.configPath? p).isSome = true :=
    h.passes ⟨.property Properties.configPath f.configProperty ::
      if f.configProperty.isSome then [] else [.look f.atConfigPath], (f.configPath? p).isSome⟩
      (by simp [configSteps])
  exact Option.isSome_iff_exists.mp hpasses

theorem Tells.finds {raw : Option String} (hi : i.Steady p.layout)
    (h : f.Tells p args ((premain p raw).moves i s) .started) :
    ∀ m ∈ Step.allMoves (f.configSteps p args), m.Finds i p.layout s := by
  obtain ⟨later, hsteps⟩ := f.steps_eq_configSteps_append p args
  have hall := h.started_iff_all.mp rfl
  have hmoves := h.moves
  rw [Step.upToFailure_of_all hall, hsteps, Step.allMoves_append] at hmoves
  have hfinds := preliminary_finds hi (premain p raw) (.refl i p.layout s)
  rw [hmoves, takeWhile_preliminary rfl,
    List.takeWhile_append_of_pos (f.configSteps_preliminary p args)] at hfinds
  intro m hm
  exact hfinds m (List.mem_cons_of_mem _ (List.mem_append_left _ hm))

theorem Tells.configPath?_eq {raw : Option String} (hi : i.Steady p.layout)
    (h : f.Tells p args ((premain p raw).moves i s) .started) :
    f.configPath? p =
      (i.property Properties.configPath s).or (p.layout.configPath? (i.look s)) := by
  have hfinds := h.finds hi
  have hproperty : f.configProperty = i.property Properties.configPath s :=
    hfinds (.property Properties.configPath f.configProperty) (by simp [configSteps]) rfl
  rw [configPath?, hproperty]
  cases hnone : i.property Properties.configPath s with
  | some v => rfl
  | none =>
    have hlook : Move.Finds i p.layout s (.look f.atConfigPath) :=
      hfinds _ (by simp [configSteps, hproperty, hnone])
    rw [← hnone]
    exact hlook.path

theorem Tells.config_eq {raw : Option String} (hi : i.Steady p.layout)
    (h : f.Tells p args ((premain p raw).moves i s) .started) {path : String}
    (hpath : f.configPath? p = some path) :
    Config.read (i.look s) path = .ok (f.option p args).config := by
  have hlook : Move.Finds i p.layout s (.look f.atConfig) := h.finds hi _ (by simp [configSteps])
  have hload : f.config path = Config.read (i.look s) path := by
    rw [config, hlook.load (h.configPath?_eq hi ▸ hpath), Config.load_fst]
  have hpasses : (f.config path).isOk = true :=
    h.passes ⟨[.look f.atConfig], (f.config path).isOk⟩ (by simp [configSteps, hpath])
  obtain ⟨config, hconfig⟩ := exists_ok_of_isOk hpasses
  rw [option, hpath, Option.getD_some, ← hload, hconfig]
  rfl

end Premain.Findings

namespace Premain

theorem booted_as_logged (p : Plan) (raw : Option String) (i : Surroundings A S) (s : S)
    (properties : Properties) (before : Disk) (hi : i.Steady p.layout)
    (hproperty : i.property Properties.configPath s = properties.get? Properties.configPath)
    (hbefore : p.layout.SameConfig (properties.get? Properties.configPath) before (i.look s))
    (hstarted : ((premain p raw).run i s).1 = .started) :
    ∃ (f : Findings A) (path : String),
      f.Tells p (Args.parse (raw.getD "")) ((premain p raw).moves i s) .started ∧
      f.configPath? p = some path ∧
      (∃ bootClass o, .create bootClass o ∈ effects ((premain p raw).moves i s)) ∧
      ∀ bootClass o, .create bootClass o ∈ effects ((premain p raw).moves i s) →
        LogConfig.TakenFrom p.layout properties before path o.config := by
  obtain ⟨f, htells⟩ := tells_of_started hstarted
  obtain ⟨path, hfound⟩ := htells.exists_configPath?
  have heffects := htells.started_iff_effects.mp rfl
  have hpath : LogConfig.configPath? p.layout properties before = some path := by
    rw [LogConfig.configPath?, ← hbefore.path, ← hproperty, ← htells.configPath?_eq hi, hfound]
  have hread : Config.read before path = .ok (f.option p (Args.parse (raw.getD ""))).config := by
    rw [← htells.config_eq hi hfound, ← Config.load_fst, ← Config.load_fst, hbefore.load hpath]
  refine ⟨f, path, htells, hfound, ?_, ?_⟩
  · exact ⟨_, _, heffects ▸ f.create_mem_sequence.mpr ⟨rfl, rfl⟩⟩
  · intro bootClass o ho
    rw [heffects, f.create_mem_sequence] at ho
    rw [ho.2]
    exact LogConfig.takenFrom_of_read hpath hread

theorem session_steady (l : Layout) : Session.surroundings.Steady l where
  log _ _ := ⟨rfl, .refl l _ _⟩
  enter _ := ⟨rfl, .refl l _ _⟩
  setProperty value s hkey := ⟨s.properties.get?_set_of_ne hkey.symm value, .refl l _ _⟩

def tunedHome : Disk where
  entries := [(["home"], .directory), (["home", "boot"], .directory),
    (["home", "boot", "probe-bootstrap-core.tgz"], .file .empty),
    (["home", "boot", "probe-commons.tgz"], .file .empty), (["home", "lib"], .directory),
    (["home", "log"], .directory), (["home", "probe-bootstrap.tgz"], .file .empty),
    (["home", "probe.toml"], .file .empty),
    (["tuned.toml"], .file "[logging]\nlevel = \"debug\"\nformat = \"json\"\n".toUTF8)]

def tunedProperties : Properties where
  initial := [(Properties.configPath, "tuned.toml")]

def tunedSettings : LogConfig where
  level := "debug"
  format := .json
  target := .file "home/log"
  file := { stem := "probe-agent" }
  threadNames := true
  ansi := false

def loggedHome : Disk where
  entries := tunedHome.entries ++ [(["home", "log", "probe-agent.today"], .file .empty)]

def tunedPlan : Plan where
  layout := ⟨"home"⟩
  known bootClass := (Session.agentType? bootClass).isSome

theorem verify_loggedHome : Layout.verify ⟨"home"⟩ loggedHome = .ok () := by
  have hlistTop : loggedHome.list "home" =
      .ok ["boot", "lib", "log", "probe-bootstrap.tgz", "probe.toml"] := rfl
  have hlistBoot : loggedHome.list (Layout.under ⟨"home"⟩ Layout.bootFolder) =
      .ok ["probe-bootstrap-core.tgz", "probe-commons.tgz"] := rfl
  have hsortedTop : Layout.byName ["boot", "lib", "log", "probe-bootstrap.tgz", "probe.toml"] = _ :=
    Layout.byName_of_pairwise (by decide)
  have hsortedBoot : Layout.byName ["probe-bootstrap-core.tgz", "probe-commons.tgz"] = _ :=
    Layout.byName_of_pairwise (by decide)
  simp only [Layout.verify, Layout.jarPath?, Layout.bootArchives, Layout.files, hlistTop, hlistBoot,
    hsortedTop, hsortedBoot]
  rfl

theorem sound_loggedHome {s : Session} (hproperties : s.properties = tunedProperties) :
    ∃ config, Sound Session.surroundings loggedHome
      (fun s => s.disk = loggedHome ∧ s.agent = {}) tunedPlan
      (Args.parse "agentId=a,applicationName=b") s config := by
  have hloads : (Config.load loggedHome "tuned.toml").1.isOk = true := by decide +kernel
  obtain ⟨config, hconfig⟩ := exists_ok_of_isOk hloads
  have hcatalog : tunedPlan.services.catalog?.getD {} = .uniform [] fun _ => .done (.ok ()) := rfl
  refine ⟨config, verify_loggedHome, ⟨"a", rfl⟩, ⟨"b", rfl⟩, ⟨"tuned.toml", ?_, hconfig⟩, ?_, rfl,
    ?_⟩
  · rw [show Session.surroundings.property Properties.configPath s = some "tuned.toml" by
      simp only [Session.surroundings, hproperties]; rfl]
    rfl
  · exact fun _ harchives archive hmem s hs =>
      Session.accepts_bootArchives harchives hs.1 archive hmem
  · rw [hcatalog]
    exact Catalog.avoids_uniform fun _ => trivial

theorem booted_as_logged_beside_home :
    let s : Session := { disk := loggedHome, properties := tunedProperties }
    let ms := (premain tunedPlan (some "agentId=a,applicationName=b")).moves Session.surroundings s
    (LogConfig.forRun ⟨"home"⟩ tunedProperties false tunedHome).1 = tunedSettings ∧
      tunedSettings.setUp false "today" tunedHome = .ok loggedHome ∧
      ((premain tunedPlan (some "agentId=a,applicationName=b")).run Session.surroundings s).1 =
        .started ∧
      ∃ bootClass o, .create bootClass o ∈ effects ms ∧ o.config.logging.level = "debug" ∧
        o.config.logging.format = "json" := by
  intro s ms
  have hsettings : (LogConfig.forRun ⟨"home"⟩ tunedProperties false tunedHome).1 =
      tunedSettings := by decide +kernel
  obtain ⟨config, hsound⟩ := sound_loggedHome (s := s) rfl
  have hstarted : ((premain tunedPlan (some "agentId=a,applicationName=b")).run
      Session.surroundings s).1 = .started := by
    refine started_of_sound (Session.boots loggedHome) ⟨rfl, rfl⟩ rfl hsound fun path hpath => ?_
    obtain ⟨names, hlist, -⟩ := hpath.listed
    cases hlist
  have hsame : tunedPlan.layout.SameConfig (tunedProperties.get? Properties.configPath) tunedHome
      (Session.surroundings.look s) := by
    refine ⟨rfl, fun path hpath => ?_⟩
    cases hpath
    rfl
  obtain ⟨f, path, -, -, ⟨bootClass, o, ho⟩, htaken⟩ :=
    booted_as_logged tunedPlan (some "agentId=a,applicationName=b") Session.surroundings s
      tunedProperties tunedHome (session_steady _) rfl hsame hstarted
  have hfollows := (htaken bootClass o ho).follows false
  rw [show tunedPlan.layout = ⟨"home"⟩ from rfl, hsettings] at hfollows
  exact ⟨hsettings, rfl, hstarted, bootClass, o, ho, hfollows.level.symm, hfollows.format.symm⟩

end Premain

end PluginAgent
