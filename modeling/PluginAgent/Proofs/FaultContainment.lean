import PluginAgent.Agent.Session
import PluginAgent.Proofs.AgentRuns
import PluginAgent.Proofs.HomeListings
import PluginAgent.Proofs.StartCourse

namespace PluginAgent

variable {A S α β : Type}

/-- Surroundings in which agents that load plugins are started: up to then the files are `d`, and
behind a handle there is an agent and the world it acts on. -/
structure Surroundings.Boots (i : Surroundings A S) (d : Disk) (ready : S → Prop)
    (world : A → S → Option (LoadingAgent × AgentWorld)) : Prop where
  look : ∀ {s}, ready s → i.look s = d
  log : ∀ {s} e, ready s → ready (i.log e s)
  enter : ∀ {s}, ready s → ready (i.enter s).2
  setProperty : ∀ {s} key value, ready s → ready (i.setProperty key value s)
  append : ∀ {s} archive, ready s → ready (i.append archive s).2
  property_log : ∀ {s} key e, ready s → i.property key (i.log e s) = i.property key s
  property_enter : ∀ {s} key, ready s → i.property key (i.enter s).2 = i.property key s
  create : ∀ {s} (type : AgentType) option, ready s → ∃ agent log,
    (i.create type.bootClass option s).1 = .ok agent ∧
      world agent (i.create type.bootClass option s).2 = some (⟨type, option⟩, { disk := d, log })
  start : ∀ {s agent a w}, world agent s = some (a, w) →
    (i.start agent s).1 = (a.start w).1 ∧ world agent (i.start agent s).2 = some (a, (a.start w).2)
  world_log : ∀ {s agent a w} e, world agent s = some (a, w) →
    ∃ w', world agent (i.log e s) = some (a, w') ∧ w'.state = w.state
  world_hook : ∀ {s agent a w}, world agent s = some (a, w) →
    ∃ w', world agent (i.hook agent s) = some (a, w') ∧ w'.state = w.state

namespace Starting

open Boot

variable {i : Surroundings A S}

theorem run_act (b : Boot A α) (s : S) :
    Boot.run i (act b).run s = (.ok (b.run i s).1, (b.run i s).2) := by
  change Boot.run i (b >>= fun a => pure (Except.ok a)) s = _
  rw [run_bind]
  rfl

theorem run_bind_of_ok {x : Starting A α} {f : α → Starting A β} {s s' : S} {a : α}
    (h : Boot.run i x.run s = (.ok a, s')) :
    Boot.run i (x >>= f).run s = Boot.run i (f a).run s' := by
  rw [ExceptT.run_bind, Boot.run_bind, h]

theorem run_act_bind {b : Boot A α} {f : α → Starting A β} {s s' : S} {a : α}
    (h : Boot.run i b s = (a, s')) :
    Boot.run i (act b >>= f).run s = Boot.run i (f a).run s' :=
  run_bind_of_ok (by rw [run_act, h])

theorem run_emit_bind (e : Event) (f : Unit → Starting A β) (s : S) :
    Boot.run i (act (emit e) >>= f).run s = Boot.run i (f ()).run (i.log e s) :=
  rfl

theorem run_disk_bind (f : Disk → Starting A β) (s : S) :
    Boot.run i (act disk >>= f).run s = Boot.run i (f (i.look s)).run s :=
  rfl

theorem run_append_bind (archive : String) (f : Except BootError Unit → Starting A β) (s : S) :
    Boot.run i (act (appendToSearch archive) >>= f).run s =
      Boot.run i (f (i.append archive s).1).run (i.append archive s).2 :=
  rfl

theorem run_create_bind (c : String) (o : AgentOption) (f : Outcome BootError A → Starting A β)
    (s : S) : Boot.run i (act (createAgent c o) >>= f).run s =
      Boot.run i (f (i.create c o s).1).run (i.create c o s).2 :=
  rfl

theorem run_start_bind (agent : A) (f : Outcome BootError Unit → Starting A β) (s : S) :
    Boot.run i (act (startAgent agent) >>= f).run s =
      Boot.run i (f (i.start agent s).1).run (i.start agent s).2 :=
  rfl

theorem run_require_bind (a : α) (f : α → Starting A β) (s : S) :
    Boot.run i (require (.ok a) >>= f).run s = Boot.run i (f a).run s :=
  rfl

end Starting

namespace Premain

open Boot Starting

variable {i : Surroundings A S} {d : Disk} {ready : S → Prop}
  {world : A → S → Option (LoadingAgent × AgentWorld)} {s s' : S} {p : Plan} {args : Args}
  {o : AgentOption}

structure Alike (i : Surroundings A S) (ready : S → Prop) (s s' : S) : Prop where
  ready : ready s'
  property : ∀ key, i.property key s' = i.property key s

theorem Alike.trans {s₁ s₂ s₃ : S} (h₁ : Alike i ready s₁ s₂) (h₂ : Alike i ready s₂ s₃) :
    Alike i ready s₁ s₃ :=
  ⟨h₂.ready, fun key => (h₂.property key).trans (h₁.property key)⟩

section

variable (hi : i.Boots d ready world)

include hi

theorem alike_log (h : ready s) (e : Event) : Alike i ready s (i.log e s) :=
  ⟨hi.log e h, fun key => hi.property_log key e h⟩

theorem run_emitAll (h : ready s) (events : List Event) :
    ∃ s', Boot.run i (emitAll events) s = ((), s') ∧ Alike i ready s s' := by
  induction events generalizing s with
  | nil => exact ⟨s, rfl, h, fun _ => rfl⟩
  | cons e rest ih =>
    obtain ⟨s', hrun, halike⟩ := ih (hi.log e h)
    exact ⟨s', hrun, (alike_log hi h e).trans halike⟩

theorem identityValue_alike (args : Args) (h : ready s) (keys : Identity.Keys) :
    ∃ s', Boot.run i (identityValue args keys) s =
      (identityOf args keys (i.property keys.property s), s') ∧ Alike i ready s s' := by
  obtain ⟨e, hrun⟩ := run_identityValue i args keys s
  exact ⟨_, hrun, alike_log hi h e⟩

theorem run_identity {id name : String} (h : ready s)
    (hid : identityOf args Identity.idKeys (i.property Identity.idKeys.property s) = .ok id)
    (hname : identityOf args Identity.nameKeys (i.property Identity.nameKeys.property s) =
      .ok name) :
    ∃ s', Boot.run i (identity args) s = (.ok ⟨id, name⟩, s') ∧ Alike i ready s s' := by
  obtain ⟨s₁, hrun₁, halike₁⟩ := identityValue_alike hi args h Identity.idKeys
  obtain ⟨s₂, hrun₂, halike₂⟩ := identityValue_alike hi args halike₁.ready Identity.nameKeys
  rw [hid] at hrun₁
  rw [halike₁.property, hname] at hrun₂
  refine ⟨s₂, ?_, halike₁.trans halike₂⟩
  simp only [identity, run_bind, hrun₁, hrun₂]
  rfl

theorem run_configPath {l : Layout} {path : String} (h : ready s)
    (hpath : (i.property Properties.configPath s).or (l.configPath? d) = some path) :
    ∃ s', Boot.run i (configPath l) s = (some path, s') ∧ ready s' := by
  cases hset : i.property Properties.configPath s with
  | some v =>
    obtain rfl : v = path := by simpa [hset] using hpath
    refine ⟨_, ?_, hi.log (configOverride v) h⟩
    simp only [configPath, run_bind, getProperty, run, hset]
    rfl
  | none =>
    rw [hset, Option.none_or] at hpath
    refine ⟨_, ?_, hi.log (homeConfig path) h⟩
    simp only [configPath, run_bind, getProperty, run, hset, disk, hi.look h, hpath]
    rfl

theorem run_appendAll {archives : List String} (h : ready s)
    (haccepts : ∀ archive ∈ archives, ∀ s, ready s → (i.append archive s).1 = .ok ()) :
    ∃ s', Boot.run i (appendAll archives).run s = (.ok (), s') ∧ ready s' := by
  induction archives generalizing s with
  | nil => exact ⟨s, rfl, h⟩
  | cons archive rest ih =>
    have hready := hi.log (appending archive) h
    obtain ⟨s', hrun, hlast⟩ := ih (hi.append archive hready)
      fun x hx => haccepts x (List.mem_cons_of_mem _ hx)
    refine ⟨s', ?_, hlast⟩
    rw [appendAll, run_emit_bind, run_append_bind, haccepts archive List.mem_cons_self _ hready,
      run_require_bind, hrun]

theorem run_resolveLibs {l : Layout} (type : AgentType) {found : List String} (h : ready s)
    (hlibs : l.libs d = .ok found) :
    ∃ s', Boot.run i (resolveLibs l type).run s =
      (.ok (Layout.filterLibs type.loadsTestLibraries found).1, s') ∧ ready s' := by
  obtain ⟨s₁, hchosen, halike₁⟩ :=
    run_emitAll hi h (Layout.filterLibs type.loadsTestLibraries found).2
  have hready := hi.log (resolvedLibs l d) halike₁.ready
  obtain ⟨s₂, htold, halike₂⟩ :=
    run_emitAll hi hready ((Layout.filterLibs type.loadsTestLibraries found).1.map library)
  refine ⟨s₂, ?_, halike₂.ready⟩
  rw [resolveLibs, run_disk_bind, hi.look h, hlibs, run_require_bind]
  rw [run_act_bind hchosen, run_disk_bind, hi.look halike₁.ready, run_emit_bind, run_act_bind htold]
  rfl

omit hi in
theorem run_bootAgent {known : String → Bool} {c : String} {agent : A} (hknown : known c = true)
    (hcreate : (i.create c o (i.log (booting c o.libs.length) s)).1 = .ok agent) :
    Boot.run i (bootAgent known (some c) o).run s =
      (.ok agent, (i.create c o (i.log (booting c o.libs.length) s)).2) := by
  simp only [bootAgent, if_pos hknown]
  rw [run_emit_bind, run_create_bind, hcreate]
  rfl

theorem run_launch (h : ready s) (hknown : p.known o.args.type.bootClass = true) :
    ∃ agent log w, ((Boot.run i (launch p o).run s).1.isOk = true ↔
        (LoadingAgent.start ⟨o.args.type, o⟩ { disk := d, log }).1 = .ok ()) ∧
      world agent (Boot.run i (launch p o).run s).2 = some (⟨o.args.type, o⟩, w) ∧
      w.state = (LoadingAgent.start ⟨o.args.type, o⟩ { disk := d, log }).2.state := by
  have hready := hi.log (booting o.args.type.bootClass o.libs.length)
    (hi.log (starting o.args.type.bootClass) h)
  obtain ⟨agent, log, hcreate, hworld⟩ := hi.create o.args.type o hready
  obtain ⟨hstart, hstarted⟩ := hi.start hworld
  rw [launch, run_emit_bind, run_bind_of_ok (run_bootAgent hknown hcreate), run_start_bind, hstart]
  cases hend : (LoadingAgent.start ⟨o.args.type, o⟩ { disk := d, log }).1 with
  | ok _ =>
    obtain ⟨w, hhooked, hstate⟩ := hi.world_hook hstarted
    exact ⟨agent, log, w, iff_of_true rfl hend, hhooked, hstate⟩
  | error e => exact ⟨agent, log, _, iff_of_false nofun (by simp [hend]), hstarted, rfl⟩
  | panic m => exact ⟨agent, log, _, iff_of_false nofun (by simp [hend]), hstarted, rfl⟩

theorem run_equip {archives libs : List String} (h : ready s)
    (harchives : p.layout.bootArchives d = .ok archives) (hlibs : p.layout.libs d = .ok libs)
    (haccepts : ∀ archive ∈ archives, ∀ s, ready s → (i.append archive s).1 = .ok ()) :
    ∃ s', ready s' ∧ Boot.run i (equip p o).run s = Boot.run i (launch p { o with
      bootArchives := archives
      libs := (Layout.filterLibs o.args.type.loadsTestLibraries libs).1 }).run s' := by
  obtain ⟨s₁, happended, hready₁⟩ := run_appendAll hi h haccepts
  obtain ⟨s₂, hresolved, hready₂⟩ := run_resolveLibs hi o.args.type hready₁ hlibs
  refine ⟨s₂, hready₂, ?_⟩
  rw [equip, run_disk_bind, hi.look h, harchives, run_require_bind, run_bind_of_ok happended,
    run_bind_of_ok hresolved]

theorem run_configure {path : String} {config : Config} (h : ready s)
    (hconfig : (Config.load d path).1 = .ok config) :
    ∃ s', ready s' ∧ Boot.run i (configure p o path).run s =
      Boot.run i (equip p { o with config }).run s' := by
  have hlogPath := hi.setProperty Properties.logPath p.layout.logPath
    (hi.log ⟨.info, "Agent log path", [("path", .text p.layout.logPath)]⟩ h)
  have hversion := hi.setProperty Properties.version Product.version
    (hi.log ⟨.info, s!"{Product.name} version", [("version", .text Product.version)]⟩ hlogPath)
  obtain ⟨s', hloaded, halike⟩ := run_emitAll hi hversion (Config.load d path).2
  refine ⟨s', halike.ready, ?_⟩
  have hsaved : Boot.run i (saveLogPath p.layout) s = ((), _) := rfl
  have htold : Boot.run i saveVersion (i.setProperty Properties.logPath p.layout.logPath
    (i.log ⟨.info, "Agent log path", [("path", .text p.layout.logPath)]⟩ s)) = ((), _) := rfl
  rw [configure, run_act_bind hsaved, run_act_bind htold, run_disk_bind, hi.look hversion,
    run_act_bind hloaded, hconfig]
  rfl

theorem run_boot (args : Args) (identity : Identity) {path : String} {found : List String}
    (h : ready s)
    (hpath : (i.property Properties.configPath s).or (p.layout.configPath? d) = some path)
    (hplugins : (p.layout.plugins d).1 = .ok found) :
    ∃ s', ready s' ∧ Boot.run i (boot p args identity).run s = Boot.run i (configure p
      { identity, args, plugins := found, services := p.services } path).run s' := by
  obtain ⟨s₁, hlisted, halike⟩ := run_emitAll hi h (p.layout.plugins d).2
  rw [← halike.property] at hpath
  obtain ⟨s₂, hfound, hready⟩ := run_configPath hi halike.ready hpath
  refine ⟨s₂, hready, ?_⟩
  rw [boot_eq, run_disk_bind, hi.look h, run_act_bind hlisted, hplugins, run_require_bind,
    run_act_bind hfound]

end

structure Sound (i : Surroundings A S) (d : Disk) (ready : S → Prop) (p : Plan) (args : Args)
    (s : S) (config : Config) : Prop where
  verified : p.layout.verify d = .ok ()
  id : ∃ id, identityOf args Identity.idKeys (i.property Identity.idKeys.property s) = .ok id
  name : ∃ name, identityOf args Identity.nameKeys (i.property Identity.nameKeys.property s) =
    .ok name
  config : ∃ path, (i.property Properties.configPath s).or (p.layout.configPath? d) = some path ∧
    (Config.load d path).1 = .ok config
  accepts : ∀ archives, p.layout.bootArchives d = .ok archives →
    ∀ archive ∈ archives, ∀ s, ready s → (i.append archive s).1 = .ok ()
  known : p.known args.type.bootClass = true
  calm : (p.services.catalog?.getD {}).Avoids .panic

/-- The agent runs with what a load of the plugin archives gave, in the order of their names and
without the types that the configuration disables. -/
structure Running (d : Disk) (p : Plan) (args : Args) (config : Config) (a : LoadingAgent)
    (state : AgentState) : Prop where
  type : a.type = args.type
  running : state.running = true
  archives : ∀ path, path ∈ a.option.plugins ↔ p.layout.IsPluginArchive d path
  in_order : ∃ names : List String, names.Pairwise (· ≤ ·) ∧
    a.option.plugins = names.map (Path.join (p.layout.under Layout.pluginFolder))
  loaded : ∃ log, (Loader.load
    ⟨.ofList config.plugins.disabled, p.services.catalog?.getD {}, Setup.standard⟩ a.option.plugins
    ({ disk := d, own := (), log } : World Unit)).1 = .ok state.loaded

theorem Sound.alike {config : Config} (h : Sound i d ready p args s config)
    (halike : Alike i ready s s') : Sound i d ready p args s' config where
  verified := h.verified
  id := by rw [halike.property]; exact h.id
  name := by rw [halike.property]; exact h.name
  config := by rw [halike.property]; exact h.config
  accepts := h.accepts
  known := h.known
  calm := h.calm

theorem run_start (hi : i.Boots d ready world) {config : Config} (hready : ready s)
    (h : Sound i d ready p args s config) : ∃ o : AgentOption, o.args = args ∧ o.config = config ∧
      o.services = p.services ∧ (p.layout.plugins d).1 = .ok o.plugins ∧
      ∃ s', ready s' ∧ Boot.run i (start p args) s = ((Boot.run i (launch p o).run s').1.isOk,
        i.log (ending (Boot.run i (launch p o).run s').1)
          (Boot.run i (launch p o).run s').2) := by
  obtain ⟨id, hid⟩ := h.id
  obtain ⟨name, hname⟩ := h.name
  obtain ⟨path, hpath, hconfig⟩ := h.config
  obtain ⟨⟨archives, harchives⟩, libs, hlibs⟩ := Layout.lists_of_verify h.verified
  obtain ⟨plugins, hplugins, -⟩ := Layout.plugins_eq p.layout d
  obtain ⟨s₁, hidentity, halike⟩ := run_identity hi hready hid hname
  rw [← halike.property] at hpath
  obtain ⟨s₂, hready₂, hboot⟩ :=
    run_boot hi args ⟨id, name⟩ halike.ready hpath hplugins
  obtain ⟨s₃, hready₃, hconfigure⟩ := run_configure hi (p := p)
    (o := { identity := ⟨id, name⟩, args, plugins, services := p.services }) hready₂ hconfig
  obtain ⟨s₄, hready₄, hequip⟩ := run_equip hi
    (o := { identity := ⟨id, name⟩, args, config, plugins, services := p.services }) hready₃
    harchives hlibs (h.accepts archives harchives)
  refine ⟨{ identity := ⟨id, name⟩, args, config, plugins, bootArchives := archives
            libs := (Layout.filterLibs args.type.loadsTestLibraries libs).1
            services := p.services }, rfl, rfl, rfl, hplugins, s₄, hready₄, ?_⟩
  rw [← hequip, ← hconfigure, ← hboot, start, run_bind, hidentity]
  simp only [run_bind]
  rfl

theorem run_premain (hi : i.Boots d ready world) {raw : Option String} {config : Config}
    (hready : ready s) (hgate : (i.enter (i.log (given (raw.getD "")) s)).1 = true)
    (h : Sound i d ready p (Args.parse (raw.getD "")) s config) :
    ∃ s', Alike i ready s s' ∧ Boot.run i (premain p raw) s =
      (if (Boot.run i (start p (Args.parse (raw.getD ""))) s').1 then .started else .failed,
        (Boot.run i (start p (Args.parse (raw.getD ""))) s').2) := by
  have hgiven := alike_log hi hready (given (raw.getD ""))
  have hentered : Alike i ready s (i.enter (i.log (given (raw.getD "")) s)).2 := hgiven.trans
    ⟨hi.enter hgiven.ready, fun key => hi.property_enter key hgiven.ready⟩
  obtain ⟨s', htold, halike⟩ :=
    run_emitAll hi hentered.ready (parameters (Args.parse (raw.getD "")))
  refine ⟨s', hentered.trans halike, ?_⟩
  have hemit : Boot.run i (emit (given (raw.getD ""))) s =
      ((), i.log (given (raw.getD "")) s) := rfl
  have hpass : Boot.run i passGate (i.log (given (raw.getD "")) s) =
      (true, (i.enter (i.log (given (raw.getD "")) s)).2) := by
    rw [← hgate]
    rfl
  have hlook : Boot.run i disk s' = (d, s') := by
    rw [← hi.look halike.ready]
    rfl
  simp only [premain, run_bind, hemit, hpass, htold, hlook, h.verified, if_true]
  rfl

theorem started_of_sound (hi : i.Boots d ready world) {raw : Option String} {config : Config}
    (hready : ready s) (hgate : (i.enter (i.log (given (raw.getD "")) s)).1 = true)
    (h : Sound i d ready p (Args.parse (raw.getD "")) s config)
    (hopen : ∀ path, p.layout.IsPluginArchive d path →
      ∃ index, Archive.Index.ofFile d path = .ok index) :
    (Boot.run i (premain p raw) s).1 = .started := by
  obtain ⟨s₁, halike, hpremain⟩ := run_premain hi hready hgate h
  obtain ⟨o, hargs, -, hservices, hplugins, s₂, hready₂, hstart⟩ :=
    run_start hi halike.ready (h.alike halike)
  obtain ⟨_, _, _, hok, -⟩ :=
    run_launch hi (p := p) (o := o) hready₂ (by rw [hargs]; exact h.known)
  rw [hpremain, hstart]
  refine if_pos (hok.mpr ((LoadingAgent.start_eq_ok_iff ?_ rfl).mpr ?_))
  · rw [LoadingAgent.catalog, hservices]
    exact h.calm
  · intro path hpath
    obtain ⟨found, hfound, hmem, -⟩ := Layout.plugins_eq p.layout d
    obtain rfl : found = o.plugins := Except.ok.inj (hfound.symm.trans hplugins)
    exact hopen path ((hmem path).mp hpath)

theorem started_iff_archives_open (hi : i.Boots d ready world) (p : Plan) (raw : Option String)
    (config : Config) (hready : ready s)
    (hgate : (i.enter (i.log (given (raw.getD "")) s)).1 = true)
    (h : Sound i d ready p (Args.parse (raw.getD "")) s config) :
    ((Boot.run i (premain p raw) s).1 = .started ↔ ∀ path, p.layout.IsPluginArchive d path →
        ∃ index, Archive.Index.ofFile d path = .ok index) ∧
      ((Boot.run i (premain p raw) s).1 ≠ .started → (Boot.run i (premain p raw) s).1 = .failed) ∧
      ((Boot.run i (premain p raw) s).1 = .started →
        ∃ agent a w, world agent (Boot.run i (premain p raw) s).2 = some (a, w) ∧
          Running d p (Args.parse (raw.getD "")) config a w.state) := by
  obtain ⟨s₁, halike, hpremain⟩ := run_premain hi hready hgate h
  obtain ⟨o, hargs, rfl, hservices, hplugins, s₂, hready₂, hstart⟩ :=
    run_start hi halike.ready (h.alike halike)
  obtain ⟨agent, log, w, hok, hworld, hstate⟩ :=
    run_launch hi (p := p) (o := o) hready₂ (by rw [hargs]; exact h.known)
  obtain ⟨found, hfound, hmem, hordered⟩ := Layout.plugins_eq p.layout d
  obtain rfl : found = o.plugins := Except.ok.inj (hfound.symm.trans hplugins)
  have hcalm : (LoadingAgent.mk o.args.type o).catalog.Avoids .panic := by
    rw [LoadingAgent.catalog, hservices]
    exact h.calm
  have houtcome : (Boot.run i (premain p raw) s).1 = .started ↔
      (LoadingAgent.start ⟨o.args.type, o⟩ { disk := d, log }).1 = .ok () := by
    rw [← hok, hpremain, hstart]
    split <;> simp_all
  refine ⟨?_, ?_, ?_⟩
  · rw [houtcome, LoadingAgent.start_eq_ok_iff hcalm rfl]
    exact forall_congr' fun path => imp_congr_left (hmem path)
  · rw [hpremain]
    split <;> simp
  · intro hstarted
    obtain ⟨results, ⟨-, hload⟩, hloaded⟩ :=
      LoadingAgent.loads_of_start hcalm rfl (houtcome.mp hstarted)
    rw [hpremain, hstart]
    obtain ⟨w', hlast, hkept⟩ := hi.world_log (ending (Boot.run i (launch p o).run s₂).1) hworld
    refine ⟨agent, _, w', hlast, ?_⟩
    rw [hkept, hstate, hloaded]
    refine ⟨by rw [hargs], rfl, hmem, hordered,
      log ++ (LoadingAgent.mk o.args.type o).catalogEvents, ?_⟩
    rw [← hservices]
    exact hload

end Premain

theorem Host.append_bootArchive {H : Type} (host : Host H) {d : Disk} {l : Layout}
    {archives : List String} (h : l.bootArchives d = .ok archives) :
    ∀ archive ∈ archives, ∃ after, host.append d archive = .ok after := by
  intro archive hmem
  obtain ⟨-, hfile, -⟩ := (Layout.mem_files h).mp hmem
  simp only [Host.append, hfile, Bool.not_true, Bool.false_eq_true, if_false]
  split
  · exact ⟨_, rfl⟩
  · exact ⟨_, rfl⟩

namespace Session

open Premain

theorem boots (d : Disk) : surroundings.Boots d (fun s => s.disk = d ∧ s.agent = {})
    fun agent s => some (agent, s.world) where
  look h := h.1
  log _ h := h
  enter h := h
  setProperty _ _ h := h
  append archive h := by
    simp only [surroundings, append]
    split <;> exact h
  property_log _ _ _ := rfl
  property_enter _ _ := rfl
  create {s} type option h := by
    obtain ⟨rfl, hnew⟩ := h
    have hcreate : Session.create type.bootClass option s = (.ok ⟨type, option⟩, s) := by
      cases type <;> rfl
    refine ⟨⟨type, option⟩, s.log, congrArg Prod.fst hcreate, ?_⟩
    simp only [surroundings, hcreate, world, hnew]
  start h := by
    obtain ⟨rfl, rfl⟩ := Prod.mk.inj (Option.some.inj h)
    exact ⟨rfl, rfl⟩
  world_log _ h := by
    obtain ⟨rfl, rfl⟩ := Prod.mk.inj (Option.some.inj h)
    exact ⟨_, rfl, rfl⟩
  world_hook h := by
    obtain ⟨rfl, rfl⟩ := Prod.mk.inj (Option.some.inj h)
    exact ⟨_, rfl, rfl⟩

theorem accepts_bootArchives {d : Disk} {l : Layout} {archives : List String} {s : Session}
    (h : l.bootArchives d = .ok archives) (hdisk : s.disk = d) :
    ∀ archive ∈ archives, (surroundings.append archive s).1 = .ok () := by
  intro archive hmem
  obtain ⟨host, hhost⟩ := s.host.append_bootArchive h archive hmem
  subst hdisk
  simp only [surroundings, append, hhost]

end Session

namespace Premain

open Archive Codec

def homeWith (plugin : ByteArray) : Disk where
  entries := [(["home"], .directory), (["home", "boot"], .directory),
    (["home", "boot", "probe-bootstrap-core.tgz"], .file .empty),
    (["home", "boot", "probe-commons.tgz"], .file .empty), (["home", "lib"], .directory),
    (["home", "plugin"], .directory), (["home", "plugin", "choir.tgz"], .file plugin),
    (["home", "probe-bootstrap.tgz"], .file .empty), (["home", "probe.toml"], .file .empty)]

theorem files_homeWith (plugin : ByteArray) :
    Layout.files (homeWith plugin) "home" isArchiveName = .ok ["home/probe-bootstrap.tgz"] ∧
      Layout.bootArchives ⟨"home"⟩ (homeWith plugin) =
        .ok ["home/boot/probe-bootstrap-core.tgz", "home/boot/probe-commons.tgz"] := by
  have hlistTop : (homeWith plugin).list "home" =
      .ok ["boot", "lib", "plugin", "probe-bootstrap.tgz", "probe.toml"] := rfl
  have hlistBoot : (homeWith plugin).list (Layout.under ⟨"home"⟩ Layout.bootFolder) =
      .ok ["probe-bootstrap-core.tgz", "probe-commons.tgz"] := rfl
  constructor
  · simp only [Layout.files, hlistTop]
    rw [Layout.byName_of_pairwise (by decide)]
    rfl
  · simp only [Layout.bootArchives, Layout.files, hlistBoot]
    rw [Layout.byName_of_pairwise (by decide)]
    rfl

theorem verify_homeWith (plugin : ByteArray) :
    Layout.verify ⟨"home"⟩ (homeWith plugin) = .ok () := by
  obtain ⟨htop, hboot⟩ := files_homeWith plugin
  simp only [Layout.verify, Layout.jarPath?, htop, hboot]
  rfl

theorem isPluginArchive_homeWith {plugin : ByteArray} {path : String} :
    Layout.IsPluginArchive ⟨"home"⟩ (homeWith plugin) path ↔ path = "home/plugin/choir.tgz" := by
  have hlist : (homeWith plugin).list (Layout.under ⟨"home"⟩ Layout.pluginFolder) =
      .ok ["choir.tgz"] := rfl
  constructor
  · rintro ⟨⟨names, hnames, hmem⟩, -, -⟩
    obtain rfl := Except.ok.inj (hlist.symm.trans hnames)
    exact List.mem_singleton.mp hmem
  · rintro rfl
    exact ⟨⟨_, hlist, List.mem_singleton_self _⟩, rfl, rfl⟩

theorem config_homeWith (plugin : ByteArray) : ∃ config,
    (Config.load (homeWith plugin) "home/probe.toml").1 = .ok config := by
  have hread (plugin : ByteArray) : (homeWith plugin).read "home/probe.toml" = .ok .empty := rfl
  have hsame : (Config.load (homeWith plugin) "home/probe.toml").1 =
      (Config.load (homeWith .empty) "home/probe.toml").1 := by
    simp only [Config.load, Config.read, hread]
  have hok : (Config.load (homeWith .empty) "home/probe.toml").1.isOk = true := by decide +kernel
  rw [hsame]
  exact exists_ok_of_isOk hok

def choirPlan : Plan where
  layout := ⟨"home"⟩
  known bootClass := (Session.agentType? bootClass).isSome
  services := Services.insert {} (.catalog (.uniform choir fun _ => .done (.ok ())))

theorem sound_homeWith_of {i : Surroundings A S} {ready : S → Prop} {s : S} (plugin : ByteArray)
    (hproperty : ∀ key, i.property key s = none)
    (haccepts : ∀ archives, Layout.bootArchives ⟨"home"⟩ (homeWith plugin) = .ok archives →
      ∀ archive ∈ archives, ∀ s, ready s → (i.append archive s).1 = .ok ()) :
    ∃ config, Sound i (homeWith plugin) ready choirPlan
      (Args.parse "agentId=a,applicationName=b") s config := by
  obtain ⟨config, hloaded⟩ := config_homeWith plugin
  refine ⟨config, verify_homeWith plugin, ⟨"a", rfl⟩, ⟨"b", rfl⟩, ⟨_, ?_, hloaded⟩, haccepts, rfl,
    ?_⟩
  · rw [hproperty, Option.none_or]
    rfl
  · exact Catalog.avoids_uniform fun _ => trivial

theorem sound_homeWith (plugin : ByteArray) : ∃ config, Sound Session.surroundings (homeWith plugin)
    (fun s => s.disk = homeWith plugin ∧ s.agent = {}) choirPlan
    (Args.parse "agentId=a,applicationName=b") { disk := homeWith plugin } config :=
  sound_homeWith_of plugin (fun _ => rfl) fun _ harchives archive hmem _ hs =>
    Session.accepts_bootArchives harchives hs.1 archive hmem

def choirArchive : ByteArray :=
  Tar.file (choirEntries.map draftOf)

theorem opens_homeWith_choirArchive {path : String}
    (hpath : Layout.IsPluginArchive ⟨"home"⟩ (homeWith choirArchive) path) :
    ∃ index, Index.ofFile (homeWith choirArchive) path = .ok index := by
  obtain rfl := isPluginArchive_homeWith.mp hpath
  have hpacked : Packed (homeWith choirArchive) "home/plugin/choir.tgz" choirEntries :=
    ⟨rfl, packed_choir.packable, packed_choir.count, packed_choir.size⟩
  exact hpacked.opens

theorem started_unless_emptied :
    (Boot.run Session.surroundings (premain choirPlan (some "agentId=a,applicationName=b"))
        { disk := homeWith choirArchive }).1 = .started ∧
      (Boot.run Session.surroundings (premain choirPlan (some "agentId=a,applicationName=b"))
        { disk := homeWith .empty }).1 = .failed := by
  constructor
  · let s : Session := { disk := homeWith choirArchive }
    obtain ⟨config, hsound⟩ := sound_homeWith choirArchive
    obtain ⟨hiff, -⟩ := started_iff_archives_open (s := s) (Session.boots s.disk) choirPlan
      (some "agentId=a,applicationName=b") config ⟨rfl, rfl⟩ rfl hsound
    exact hiff.mpr fun path hpath => opens_homeWith_choirArchive hpath
  · let s : Session := { disk := homeWith .empty }
    obtain ⟨config, hsound⟩ := sound_homeWith .empty
    obtain ⟨hiff, hfailed, -⟩ := started_iff_archives_open (s := s) (Session.boots s.disk) choirPlan
      (some "agentId=a,applicationName=b") config ⟨rfl, rfl⟩ rfl hsound
    refine hfailed fun hstarted => ?_
    obtain ⟨index, hindex⟩ := hiff.mp hstarted _ (isPluginArchive_homeWith.mpr rfl)
    have hclosed : (Index.ofFile (homeWith .empty) "home/plugin/choir.tgz").isOk = false := by
      decide +kernel
    cases (congrArg Except.isOk hindex).symm.trans hclosed

end Premain

end PluginAgent
