import PluginAgent.Proofs.Enumeration
import PluginAgent.Proofs.FaultContainment

namespace PluginAgent

open Disk

variable {d d' : Disk} {folder name : String} {l : Layout}

structure Disk.SameFrom (folder : String) (d d' : Disk) : Prop where
  locate_eq : d'.locate folder = d.locate folder
  find?_eq : ∀ place below, d.locate folder = .ok place →
    d'.find? (place ++ below) = d.find? (place ++ below)

namespace Disk.SameFrom

variable (h : SameFrom folder d d')

include h

theorem self {place : List String} (hlocate : d.locate folder = .ok place) :
    d'.find? place = d.find? place := by
  simpa using h.find?_eq place [] hlocate

theorem join {place : List String} (hlocate : d.locate folder = .ok place)
    (hname : Archive.EntryName.IsPart name.toList) : SameFrom (Path.join folder name) d d' := by
  have hslash := hname.slash_not_mem
  have hlocate' : d'.locate folder = .ok place := h.locate_eq.trans hlocate
  have hstep : d'.step place name = d.step place name := by
    simp only [step, h.self hlocate, h.find?_eq place [name] hlocate]
  refine ⟨?_, fun inner below hinner => ?_⟩
  · rw [locate_join hlocate' hslash, locate_join hlocate hslash, hstep]
  · rw [locate_join hlocate hslash] at hinner
    obtain ⟨-, -, rfl⟩ := (step_eq_ok_iff hname).mp hinner
    rw [List.append_assoc, h.find?_eq place _ hlocate]

theorem isDirectory_eq : d'.isDirectory folder = d.isDirectory folder := by
  rw [isDirectory, isDirectory, entry_congr h.locate_eq fun _ hlocate => h.self hlocate]

theorem hasFile_iff : d'.HasFile folder name ↔ d.HasFile folder name := by
  unfold HasFile
  rw [h.locate_eq]
  refine exists_congr fun place => exists_congr fun bytes => and_congr_right fun hlocate => ?_
  rw [h.self hlocate, h.find?_eq place [name] hlocate]

theorem listed_iff {passes : String → Prop} {found : List String} :
    Layout.Listed d' folder passes found ↔ Layout.Listed d folder passes found := by
  simp only [Layout.Listed, h.hasFile_iff]

end Disk.SameFrom

namespace Layout

def Has (l : Layout) (d : Disk) : LayoutFlaw → Prop
  | .noHome => d.isDirectory l.home = true
  | .noBootstrapArchive => ∃ name, d.HasFile l.home name ∧ IsArchiveOf bootstrapStem name
  | .noBootFolder => d.isDirectory (l.under bootFolder) = true
  | .noBootArchive stem => ∃ name, d.HasFile (l.under bootFolder) name ∧ IsArchiveOf stem name
  | .noLibFolder => d.isDirectory (l.under libFolder) = true

def flaws : List LayoutFlaw :=
  .noHome :: .noBootstrapArchive :: .noBootFolder ::
    (requiredStems.map .noBootArchive ++ [.noLibFolder])

def finds (l : Layout) (d : Disk) : LayoutFlaw → Bool
  | .noHome => d.isDirectory l.home
  | .noBootstrapArchive => (l.jarPath? d).isSome
  | .noBootFolder => d.isDirectory (l.under bootFolder)
  | .noBootArchive stem => ((l.bootArchives d).toOption.getD []).any (hasStem stem)
  | .noLibFolder => d.isDirectory (l.under libFolder)

theorem find?_boot {archives : List String} (h : l.bootArchives d = .ok archives) :
    ((requiredStems.map LayoutFlaw.noBootArchive ++ [LayoutFlaw.noLibFolder]).find?
        fun flaw => !l.finds d flaw) =
      ((requiredStems.find? fun stem => !archives.any (hasStem stem)).map .noBootArchive).or
        (if d.isDirectory (l.under libFolder) then none else some .noLibFolder) := by
  have hstems : ((fun flaw => !l.finds d flaw) ∘ LayoutFlaw.noBootArchive) =
      fun stem => !archives.any (hasStem stem) := by
    funext stem
    simp only [Function.comp, finds, h]
    rfl
  rw [List.find?_append, List.find?_map, hstems]
  cases hlib : d.isDirectory (l.under libFolder) <;> simp [finds, hlib]

theorem verify_eq (l : Layout) (d : Disk) : l.verify d =
    match flaws.find? fun flaw => !l.finds d flaw with
    | some flaw => .error (.layoutInvalid l.home flaw)
    | none => .ok () := by
  unfold verify flaws
  cases hhome : d.isDirectory l.home with
  | false => simp [finds, hhome]
  | true =>
    cases hjar : l.jarPath? d with
    | none => simp [finds, hhome, hjar]
    | some jar =>
      cases hboot : d.isDirectory (l.under bootFolder) with
      | false => simp [finds, hhome, hjar, hboot]
      | true =>
        obtain ⟨archives, hfound⟩ := files_of_isDirectory Archive.isArchiveName hboot
        have harchives : l.bootArchives d = .ok archives := hfound
        have hfinds : l.finds d .noHome = true ∧ l.finds d .noBootstrapArchive = true ∧
            l.finds d .noBootFolder = true := by simp [finds, hhome, hjar, hboot]
        obtain ⟨h₁, h₂, h₃⟩ := hfinds
        simp only [List.find?_cons, h₁, h₂, h₃, find?_boot harchives, harchives, Bool.not_true,
          Bool.false_eq_true, if_false, Option.isNone_some]
        cases requiredStems.find? fun stem => !archives.any (hasStem stem) with
        | some stem => rfl
        | none => cases d.isDirectory (l.under libFolder) <;> rfl

theorem Listed.ne_nil_iff {passes : String → Prop} {found : List String}
    (h : Listed d folder passes found) :
    found ≠ [] ↔ ∃ name, d.HasFile folder name ∧ passes name := by
  obtain ⟨names, rfl, -, hmem⟩ := h
  rw [Ne, List.map_eq_nil_iff]
  constructor
  · intro hne
    obtain ⟨name, hname⟩ := List.exists_mem_of_ne_nil names hne
    exact ⟨name, (hmem name).mp hname⟩
  · rintro ⟨name, hname⟩
    exact List.ne_nil_of_mem ((hmem name).mpr hname)

theorem any_hasStem_iff (hd : d.WellFormed) {found : List String} (stem : String)
    (h : Listed d folder IsArchive found) :
    found.any (hasStem stem) = true ↔ ∃ name, d.HasFile folder name ∧ IsArchiveOf stem name := by
  obtain ⟨names, rfl, -, hmem⟩ := h
  have hstem {name : String} (hfile : d.HasFile folder name) :
      hasStem stem (Path.join folder name) = true ↔ stem.toList <+: name.toList := by
    obtain ⟨_, _, hlocate, -⟩ := id hfile
    exact hasStem_join (ne_empty_of_locate hlocate) (hfile.isPart hd)
  rw [List.any_map, List.any_eq_true]
  constructor
  · rintro ⟨name, hname, hpasses⟩
    obtain ⟨hfile, harchive⟩ := (hmem name).mp hname
    exact ⟨name, hfile, harchive, (hstem hfile).mp hpasses⟩
  · rintro ⟨name, hfile, harchive, hprefix⟩
    exact ⟨name, (hmem name).mpr ⟨hfile, harchive⟩, (hstem hfile).mpr hprefix⟩

theorem finds_iff (hd : d.WellFormed) {flaw : LayoutFlaw} :
    l.finds d flaw = true ↔ l.Has d flaw := by
  cases flaw with
  | noHome => exact Iff.rfl
  | noBootstrapArchive =>
    obtain ⟨jars, hlisted, hjar⟩ := jarPath?_eq_head? l hd
    rw [finds, hjar, List.isSome_head?, Has, ← hlisted.ne_nil_iff]
  | noBootFolder => exact Iff.rfl
  | noBootArchive stem =>
    rw [finds, Has]
    cases hfound : l.bootArchives d with
    | ok found => exact any_hasStem_iff hd stem ((bootArchives_eq_ok_iff l hd).mp hfound).2
    | error e =>
      refine ⟨nofun, fun ⟨name, hfile, _⟩ => ?_⟩
      obtain ⟨found, h⟩ := files_of_isDirectory Archive.isArchiveName hfile.isDirectory
      cases hfound.symm.trans h
  | noLibFolder => exact Iff.rfl

theorem verify_eq_ok_iff (hd : d.WellFormed) :
    l.verify d = .ok () ↔ ∀ flaw ∈ flaws, l.Has d flaw := by
  simp only [← finds_iff hd]
  rw [verify_eq]
  cases hfirst : flaws.find? fun flaw => !l.finds d flaw with
  | none => simpa using hfirst
  | some flaw =>
    have hmem := List.mem_of_find?_eq_some hfirst
    have hnot := List.find?_some hfirst
    refine ⟨nofun, fun hall => ?_⟩
    rw [hall flaw hmem] at hnot
    cases hnot

theorem verify_eq_error_iff (hd : d.WellFormed) {e : BootError} :
    l.verify d = .error e ↔ ∃ before flaw after, flaws = before ++ flaw :: after ∧
      (∀ earlier ∈ before, l.Has d earlier) ∧ ¬ l.Has d flaw ∧ e = .layoutInvalid l.home flaw := by
  simp only [← finds_iff hd]
  have hfind : l.verify d = .error e ↔ ∃ flaw,
      (flaws.find? fun flaw => !l.finds d flaw) = some flaw ∧ .layoutInvalid l.home flaw = e := by
    rw [verify_eq]
    cases flaws.find? fun flaw => !l.finds d flaw <;> simp
  rw [hfind]
  simp only [List.find?_eq_some_iff_append, Bool.not_not, Bool.not_eq_true']
  constructor
  · rintro ⟨flaw, ⟨hnot, before, after, hflaws, hbefore⟩, rfl⟩
    exact ⟨before, flaw, after, hflaws, hbefore, by simp [hnot], rfl⟩
  · rintro ⟨before, flaw, after, hflaws, hbefore, hnot, rfl⟩
    exact ⟨flaw, ⟨by simpa using hnot, before, after, hflaws, hbefore⟩, rfl⟩

structure Keeps (l : Layout) (d d' : Disk) : Prop where
  wellFormed : d'.WellFormed
  home : SameFrom l.home d d'

theorem Keeps.refl (hd : d.WellFormed) : l.Keeps d d :=
  ⟨hd, rfl, fun _ _ _ => rfl⟩

theorem Keeps.under (h : l.Keeps d d') (hhome : d.isDirectory l.home = true)
    (hname : Archive.EntryName.IsPart name.toList) : SameFrom (l.under name) d d' := by
  rw [isDirectory_iff, entry_eq] at hhome
  cases hlocate : d.locate l.home with
  | error e =>
    rw [hlocate] at hhome
    cases hhome
  | ok place => exact h.home.join hlocate hname

theorem Keeps.has_iff (h : l.Keeps d d') (hhome : d.isDirectory l.home = true)
    {flaw : LayoutFlaw} : l.Has d' flaw ↔ l.Has d flaw := by
  have hboot : SameFrom (l.under bootFolder) d d' := h.under hhome (by decide)
  have hlib : SameFrom (l.under libFolder) d d' := h.under hhome (by decide)
  cases flaw with
  | noHome => rw [Has, Has, h.home.isDirectory_eq]
  | noBootstrapArchive => simp only [Has, h.home.hasFile_iff]
  | noBootFolder => rw [Has, Has, hboot.isDirectory_eq]
  | noBootArchive stem => simp only [Has, hboot.hasFile_iff]
  | noLibFolder => rw [Has, Has, hlib.isDirectory_eq]

theorem home_of_verify (hd : d.WellFormed) (h : l.verify d = .ok ()) :
    d.isDirectory l.home = true :=
  (verify_eq_ok_iff hd).mp h .noHome List.mem_cons_self

theorem Keeps.verify (hkept : l.Keeps d d') (hd : d.WellFormed) (h : l.verify d = .ok ()) :
    l.verify d' = .ok () := by
  have hhome := home_of_verify hd h
  rw [verify_eq_ok_iff hd] at h
  rw [verify_eq_ok_iff hkept.wellFormed]
  exact fun flaw hflaw => (hkept.has_iff hhome).mpr (h flaw hflaw)

theorem Keeps.bootArchives (hkept : l.Keeps d d') (hd : d.WellFormed) (h : l.verify d = .ok ())
    {found : List String} : l.bootArchives d' = .ok found ↔ l.bootArchives d = .ok found := by
  have hboot : SameFrom (l.under bootFolder) d d' := hkept.under (home_of_verify hd h) (by decide)
  rw [bootArchives_eq_ok_iff l hkept.wellFormed, bootArchives_eq_ok_iff l hd, hboot.isDirectory_eq,
    hboot.listed_iff]

theorem jarPath?_of_verify (hd : d.WellFormed) (h : l.verify d = .ok ()) :
    ∃ jar, l.jarPath? d = some jar := by
  have hhas := (verify_eq_ok_iff hd).mp h .noBootstrapArchive (by simp [flaws])
  exact Option.isSome_iff_exists.mp ((finds_iff hd).mpr hhas)

theorem requiredStems_of_verify (hd : d.WellFormed) (h : l.verify d = .ok ())
    {archives : List String} (harchives : l.bootArchives d = .ok archives) :
    ∀ stem ∈ requiredStems, ∃ archive ∈ archives, hasStem stem archive = true := by
  intro stem hstem
  have hmem : .noBootArchive stem ∈ flaws := by simp [flaws, hstem]
  have hfinds := (finds_iff hd).mpr ((verify_eq_ok_iff hd).mp h _ hmem)
  rw [finds, harchives] at hfinds
  exact List.any_eq_true.mp hfinds

end Layout

namespace Premain

open Boot Starting

variable {A H α : Type} {p : Plan} {args : Args} {o : AgentOption} {ms rest : List (Move A)}
  {stop : Stop}

/-- The home stays as it was in `d`, and archives go to a host in the process, which looks at them
there. -/
structure Undisturbed (H : Type) (l : Layout) (d : Disk) (ms : List (Move A)) : Prop where
  look : ∀ d', .look d' ∈ ms → l.Keeps d d'
  append : ∀ archive answer, .append archive answer ∈ ms → ∃ (host : Host H) (d' : Disk),
    l.Keeps d d' ∧ answer = (host.append d' archive).map fun _ => ()

theorem Undisturbed.mono (h : Undisturbed H l d ms) (hrest : rest ⊆ ms) : Undisturbed H l d rest :=
  ⟨fun d' hd' => h.look d' (hrest hd'),
    fun archive answer hmem => h.append archive answer (hrest hmem)⟩

def stopOf? : Outcome BootError α → Option Stop
  | .ok _ => none
  | .error e => some (.failed e)
  | .panic m => some (.panicked m)

inductive Cause (p : Plan) (args : Args) (ms : List (Move A)) : Stop → Prop
  | unconfigured {d : Disk} : .property Properties.configPath none ∈ ms → .look d ∈ ms →
      p.layout.configPath? d = none → Cause p args ms (.failed .configNotFound)
  | configuration {d : Disk} {path : String} {e : ConfigError} : .look d ∈ ms →
      (Config.load d path).1 = .error e → Cause p args ms (.failed (.config e))
  | entryPoint : p.known args.type.bootClass = false →
      Cause p args ms (.failed (.bootClassNotFound args.type.bootClass))
  | creation {c : String} {o : AgentOption} {answer : Outcome BootError A} {stop : Stop} :
      .create c o answer ∈ ms → stopOf? answer = some stop → Cause p args ms stop
  | agent {agent : A} {answer : Outcome BootError Unit} {stop : Stop} :
      .start agent answer ∈ ms → stopOf? answer = some stop → Cause p args ms stop

theorem Cause.mono (h : Cause p args rest stop) (hrest : rest ⊆ ms) : Cause p args ms stop := by
  cases h with
  | unconfigured hproperty hlook hnone =>
    exact .unconfigured (hrest hproperty) (hrest hlook) hnone
  | configuration hlook herror => exact .configuration (hrest hlook) herror
  | entryPoint hunknown => exact .entryPoint hunknown
  | creation hcreate hstop => exact .creation (hrest hcreate) hstop
  | agent hstart hstop => exact .agent (hrest hstart) hstop

theorem stop_of_complete {x : Outcome BootError α}
    (h : Runs (complete x : Starting A α).run ms (.error stop)) : stopOf? x = some stop := by
  cases x with
  | ok a => cases h.2
  | error e =>
    obtain ⟨-, ⟨⟩⟩ := h
    rfl
  | panic m =>
    obtain ⟨-, ⟨⟩⟩ := h
    rfl

theorem cause_of_launch (h : Runs (launch p o : Starting A Unit).run ms (.error stop)) :
    Cause p o.args ms stop := by
  rcases Starting.runs_bind.mp (show Runs (bootAgent p.known _ o >>= _).run ms _ from h) with
    ⟨_, hboot, ⟨⟩⟩ | ⟨agent, before, after, rfl, -, hlater⟩
  · simp only [bootAgent] at hboot
    split at hboot
    · obtain ⟨created, _, rfl, hdone⟩ := hboot
      exact .creation List.mem_cons_self (stop_of_complete hdone)
    · rename_i hunknown
      obtain ⟨rfl, ⟨⟩⟩ := hboot
      exact .entryPoint (Bool.not_eq_true _ ▸ hunknown)
  · obtain ⟨started, tail, rfl, hend⟩ := hlater
    have hmem : .start agent started ∈ before ++ .start agent started :: tail :=
      List.mem_append_right _ List.mem_cons_self
    rcases Starting.runs_bind.mp hend with ⟨_, hfailed, ⟨⟩⟩ | ⟨_, _, _, rfl, -, hhook⟩
    · exact .agent hmem (stop_of_complete hfailed)
    · obtain ⟨_, ⟨⟩, -⟩ := Starting.runs_act.mp hhook

theorem not_runs_appendAll {archives : List String}
    (hkept : Undisturbed H l d ms)
    (haccepts : ∀ archive ∈ archives, ∀ (host : Host H) d', l.Keeps d d' →
      ∃ after, host.append d' archive = .ok after) :
    ¬ Runs (appendAll archives : Starting A Unit).run ms (.error stop) := by
  induction archives generalizing ms with
  | nil => exact fun h => (by cases h.2)
  | cons archive rest ih =>
    rintro ⟨answer, later, rfl, hanswer⟩
    obtain ⟨host, d', hd', hhost⟩ := hkept.append archive answer List.mem_cons_self
    obtain ⟨after, haccepted⟩ := haccepts archive List.mem_cons_self host d' hd'
    obtain rfl : answer = .ok () := by rw [hhost, haccepted]; rfl
    exact ih (hkept.mono (List.subset_cons_self _ _))
      (fun other hother => haccepts other (List.mem_cons_of_mem _ hother)) hanswer

inductive FailsFor (p : Plan) (args : Args) (ms : List (Move A)) : Prop
  | identity {e : BootError} : Runs (identity args) ms (.error e) → FailsFor p args ms
  | boot {identity : Identity} {before after : List (Move A)} {stop : Stop} :
      ms = before ++ after → Runs (Premain.identity args) before (.ok identity) →
      Runs (boot p args identity).run after (.error stop) → Cause p args after stop →
      FailsFor p args ms

section

variable (hd : d.WellFormed) (hverified : p.layout.verify d = .ok ())

include hd hverified

theorem not_runs_resolveLibs {type : AgentType} (hkept : Undisturbed H p.layout d ms) :
    ¬ Runs (resolveLibs p.layout type : Starting A _).run ms (.error stop) := by
  rintro ⟨d', later, rfl, hlist⟩
  have hkeeps := hkept.look d' List.mem_cons_self
  obtain ⟨-, libs, hlibs⟩ := Layout.lists_of_verify (hkeeps.verify hd hverified)
  rcases Starting.runs_require_bind hlist with ⟨found, -, hrest⟩ | ⟨e, herror, -⟩
  · obtain ⟨d'', _, rfl, htold⟩ := Starting.runs_emitAll_bind.mp hrest
    obtain ⟨-, ⟨⟩⟩ := Starting.runs_emitAll_bind.mp htold
  · cases hlibs.symm.trans herror

theorem accepts_of_verify (hkept : p.layout.Keeps d d') {archives : List String}
    (h : p.layout.bootArchives d' = .ok archives) :
    ∀ archive ∈ archives, ∀ (host : Host H) d'', p.layout.Keeps d d'' →
      ∃ after, host.append d'' archive = .ok after := by
  intro archive harchive host d'' hd''
  have hsame : p.layout.bootArchives d'' = .ok archives :=
    (hd''.bootArchives hd hverified).mpr ((hkept.bootArchives hd hverified).mp h)
  exact host.append_bootArchive hsame archive harchive

theorem cause_of_equip (hkept : Undisturbed H p.layout d ms)
    (h : Runs (equip p o : Starting A Unit).run ms (.error stop)) : Cause p o.args ms stop := by
  obtain ⟨d', after, rfl, hlist⟩ := h
  have hkeeps := hkept.look d' List.mem_cons_self
  replace hkept := hkept.mono (List.subset_cons_self _ _)
  rcases Starting.runs_require_bind hlist with ⟨archives, harchives, hrest⟩ | ⟨e, herror, -⟩
  · rcases Starting.runs_bind.mp hrest with ⟨_, happend, ⟨⟩⟩ | ⟨_, appends, rest, rfl, -, hlater⟩
    · exact absurd happend
        (not_runs_appendAll hkept (accepts_of_verify hd hverified hkeeps harchives))
    · replace hkept := hkept.mono (List.subset_append_right _ _)
      rcases Starting.runs_bind.mp hlater with ⟨_, hlibs, ⟨⟩⟩ | ⟨libs, looks, last, rfl, -, hlaunch⟩
      · exact absurd hlibs (not_runs_resolveLibs hd hverified hkept)
      · refine (cause_of_launch hlaunch).mono fun m hm => ?_
        exact List.mem_cons_of_mem _ (List.mem_append_right _ (List.mem_append_right _ hm))
  · obtain ⟨⟨archives, harchives⟩, -⟩ := Layout.lists_of_verify (hkeeps.verify hd hverified)
    cases harchives.symm.trans herror

theorem cause_of_configure {path : String} (hkept : Undisturbed H p.layout d ms)
    (h : Runs (configure p o path : Starting A Unit).run ms (.error stop)) :
    Cause p o.args ms stop := by
  obtain ⟨_, rfl, _, rfl, d', rest, rfl, hload⟩ := h
  have hloaded := Starting.runs_emitAll_bind.mp hload
  have hsub : rest ⊆ .setProperty Properties.logPath p.layout.logPath ::
      .setProperty Properties.version Product.version :: .look d' :: rest :=
    fun m hm => List.mem_cons_of_mem _ (List.mem_cons_of_mem _ (List.mem_cons_of_mem _ hm))
  cases hconfig : (Config.load d' path).1 with
  | ok config =>
    rw [hconfig] at hloaded
    exact (cause_of_equip hd hverified (hkept.mono hsub) hloaded).mono hsub
  | error e =>
    rw [hconfig] at hloaded
    obtain ⟨rfl, ⟨⟩⟩ := hloaded
    exact .configuration (by simp) hconfig

theorem cause_of_boot {identity : Identity} (hkept : Undisturbed H p.layout d ms)
    (h : Runs (boot p args identity : Starting A Unit).run ms (.error stop)) :
    Cause p args ms stop := by
  rw [boot_eq] at h
  obtain ⟨d', after, rfl, hlist⟩ := h
  rcases Starting.runs_require_bind (Starting.runs_emitAll_bind.mp hlist) with
    ⟨_, -, hrest⟩ | ⟨e, herror, -⟩
  · rcases Starting.runs_bind.mp hrest with
      ⟨_, hpath, ⟨⟩⟩ | ⟨path?, asked, rest, rfl, hpath, hconfig⟩
    · obtain ⟨_, ⟨⟩, -⟩ := Starting.runs_act.mp hpath
    · obtain ⟨_, ⟨⟩, hfind⟩ := Starting.runs_act.mp hpath
      obtain ⟨value, atConfigPath, hfound, rfl⟩ := course_configPath hfind
      cases path? with
      | none =>
        obtain ⟨rfl, ⟨⟩⟩ := hconfig
        obtain ⟨rfl, hnone⟩ := Option.or_eq_none_iff.mp hfound.symm
        exact .unconfigured (by simp) (by simp) hnone
      | some path =>
        have hsub {front : List (Move A)} : rest ⊆ .look d' :: (front ++ rest) :=
          fun m hm => List.mem_cons_of_mem _ (List.mem_append_right _ hm)
        exact (cause_of_configure hd hverified (hkept.mono hsub) hconfig).mono hsub
  · obtain ⟨plugins, hplugins, -⟩ := p.layout.plugins_eq d'
    cases hplugins.symm.trans herror

theorem failsFor_of_start (hkept : Undisturbed H p.layout d ms)
    (h : Runs (start p args : Boot A Bool) ms false) : FailsFor p args ms := by
  obtain ⟨identity?, before, after, rfl, hidentity, hrest⟩ := Boot.runs_bind.mp h
  cases identity? with
  | error e =>
    obtain ⟨rfl, -⟩ := hrest
    refine .identity (e := e) ?_
    rwa [List.append_nil]
  | ok identity =>
    obtain ⟨r, booted, _, rfl, hboot, rfl, hr⟩ := Boot.runs_bind.mp hrest
    rw [List.append_nil] at hkept ⊢
    cases r with
    | ok _ => cases hr
    | error stop =>
      refine .boot rfl hidentity hboot ?_
      exact cause_of_boot hd hverified (hkept.mono (List.subset_append_right _ _)) hboot

theorem failsFor_of_premain {raw : Option String} (hkept : Undisturbed H p.layout d ms)
    (h : Runs (premain p raw : Boot A BootOutcome) (.enter true :: .look d :: ms) .failed) :
    FailsFor p (Args.parse (raw.getD "")) ms := by
  obtain ⟨_, _, ⟨⟩, hrest⟩ := h
  obtain ⟨_, _, ⟨⟩, hverify⟩ := Boot.runs_disk_bind.mp (Boot.runs_emitAll_bind.mp hrest)
  simp only [hverified] at hverify
  obtain ⟨ok, before, _, rfl, hstart, rfl, hout⟩ := Boot.runs_bind.mp hverify
  rw [List.append_nil] at hkept ⊢
  cases ok with
  | true => cases hout
  | false => exact failsFor_of_start hd hverified hkept hstart

end

theorem verification_suffices (p : Plan) {d : Disk} (hd : d.WellFormed) :
    (p.layout.verify d = .ok () →
      (∀ d', p.layout.Keeps d d' →
        (∃ jar, p.layout.jarPath? d' = some jar) ∧
        (∃ plugins, (p.layout.plugins d').1 = .ok plugins) ∧
        (∃ libs, p.layout.libs d' = .ok libs) ∧
        ∃ archives, p.layout.bootArchives d' = .ok archives ∧
          (∀ stem ∈ Layout.requiredStems, ∃ archive ∈ archives,
            Layout.hasStem stem archive = true) ∧
          ∀ (host : Host H) (d'' : Disk), p.layout.Keeps d d'' → ∀ archive ∈ archives,
            ∃ after, host.append d'' archive = .ok after) ∧
      ∀ (raw : Option String) (ms : List (Move A)), Undisturbed H p.layout d ms →
        Runs (premain p raw) (.enter true :: .look d :: ms) .failed →
          FailsFor p (Args.parse (raw.getD "")) ms) ∧
    ∀ e, p.layout.verify d = .error e ↔ ∃ before flaw after,
      Layout.flaws = before ++ flaw :: after ∧ (∀ earlier ∈ before, p.layout.Has d earlier) ∧
        ¬ p.layout.Has d flaw ∧ e = .layoutInvalid p.layout.home flaw := by
  refine ⟨fun hverified => ⟨fun d' hd' => ?_, fun raw ms hkept h =>
    failsFor_of_premain hd hverified hkept h⟩, fun e => Layout.verify_eq_error_iff hd⟩
  have hverified' := hd'.verify hd hverified
  obtain ⟨⟨archives, harchives⟩, hlibs⟩ := Layout.lists_of_verify hverified'
  obtain ⟨plugins, hplugins, -⟩ := p.layout.plugins_eq d'
  refine ⟨Layout.jarPath?_of_verify hd'.wellFormed hverified', ⟨plugins, hplugins⟩, hlibs, archives,
    harchives, Layout.requiredStems_of_verify hd'.wellFormed hverified' harchives, ?_⟩
  exact fun host d'' hd'' archive harchive =>
    accepts_of_verify hd hverified hd' harchives archive harchive host d'' hd''

theorem wellFormed_homeWith : (homeWith .empty).WellFormed :=
  ⟨by decide, by decide⟩

theorem failsFor_absent_config :
    Layout.verify ⟨"home"⟩ (homeWith .empty) = .ok () ∧
    FailsFor (A := Unit) choirPlan (Args.parse "agentId=a,applicationName=b")
      [.look (homeWith .empty), .property Properties.configPath (some "absent.toml"),
        .setProperty Properties.logPath "home/log", .setProperty Properties.version Product.version,
        .look (homeWith .empty)] := by
  refine ⟨verify_homeWith _, ?_⟩
  obtain ⟨hsuffices, -⟩ :=
    verification_suffices (A := Unit) (H := Unit) choirPlan wellFormed_homeWith
  obtain ⟨-, hfails⟩ := hsuffices (verify_homeWith _)
  refine hfails (some "agentId=a,applicationName=b") _ ⟨fun d' hd' => ?_, fun _ _ hmem => ?_⟩ ?_
  · obtain rfl : d' = homeWith .empty := by simpa using hd'
    exact .refl wellFormed_homeWith
  · simp at hmem
  · obtain ⟨e, hload⟩ : ∃ e, (Config.load (homeWith .empty) "absent.toml").1 = .error e :=
      ⟨_, rfl⟩
    obtain ⟨plugins, hplugins, -⟩ := choirPlan.layout.plugins_eq (homeWith .empty)
    have hlook : Runs (act disk : Starting Unit Disk).run [.look (homeWith .empty)]
        (.ok (homeWith .empty)) := ⟨_, _, rfl, rfl, rfl⟩
    have hpath : Runs (configPath choirPlan.layout : Boot Unit (Option String))
        [.property Properties.configPath (some "absent.toml")] (some "absent.toml") :=
      ⟨_, _, rfl, rfl, rfl⟩
    refine ⟨true, _, rfl, Boot.runs_emitAll_bind.mpr (Boot.runs_disk_bind.mpr ⟨_, _, rfl, ?_⟩)⟩
    simp only [show choirPlan.layout.verify (homeWith .empty) = .ok () from verify_homeWith _]
    refine Boot.runs_bind.mpr ⟨false, _, [], (List.append_nil _).symm, ?_, rfl, rfl⟩
    refine Boot.runs_bind.mpr ⟨.ok ⟨"a", "b"⟩, [], _, rfl, ⟨rfl, rfl⟩, ?_⟩
    refine Boot.runs_bind.mpr ⟨.error (.failed (.config e)), _, [], (List.append_nil _).symm, ?_,
      rfl, rfl⟩
    rw [boot_eq]
    refine Starting.runs_bind.mpr (.inr ⟨_, _, _, rfl, hlook, Starting.runs_emitAll_bind.mpr ?_⟩)
    rw [hplugins]
    refine Starting.runs_bind.mpr (.inr ⟨plugins, [], _, rfl, ⟨rfl, rfl⟩, ?_⟩)
    refine Starting.runs_bind.mpr (.inr ⟨_, _, _, rfl, Starting.runs_act.mpr ⟨_, rfl, hpath⟩, ?_⟩)
    refine ⟨_, rfl, _, rfl, homeWith .empty, [], rfl, Starting.runs_emitAll_bind.mpr ?_⟩
    rw [hload]
    exact ⟨rfl, rfl⟩

end Premain

end PluginAgent
