import Mathlib.Data.List.Induction
import PluginAgent.Proofs.LoadRuns

namespace PluginAgent

structure Namespace.Scoped (s : Namespace) : Prop where
  scope : s.scope = .ofPackages s.packages
  defined : ∀ c ∈ s.defined, s.scope.accepts c.1.text = true

namespace Namespaces

variable {t t' : Namespaces}

def Scoped (t : Namespaces) : Prop :=
  ∀ (k : Nat) (s : Namespace), t.spaces[k]? = some s → s.Scoped

theorem Scoped.register (h : t.Scoped) (a : Listed) :
    (t.register a.index.path a.packages (.ofPackages a.packages)).2.Scoped := by
  intro k s hs
  rw [getElem?_register] at hs
  split at hs
  · obtain rfl := Option.some.inj hs
    exact ⟨rfl, by simp⟩
  · exact h k s hs

theorem Scoped.resolve {disk : Disk} {id : NamespaceId} {name : ClassName} {c : LoadedClass}
    (h : t.Scoped) (hresolve : t.resolve disk id name = .ok (c, t')) : t'.Scoped := by
  obtain ⟨s, hs, haccepts, -, -, ⟨-, rfl⟩ | ⟨-, -, rfl⟩⟩ := resolve_eq_ok hresolve
  · exact h
  · intro k s' hs'
    rw [getElem?_define] at hs'
    split at hs'
    · rename_i hk
      rw [hk, hs] at hs'
      obtain rfl := Option.some.inj hs'
      have hscoped := h id.index s hs
      refine ⟨hscoped.scope, ?_⟩
      intro c' hc'
      rcases List.mem_append.mp hc' with hold | hnew
      · exact hscoped.defined c' hold
      · rw [List.mem_singleton.mp hnew]
        exact haccepts
    · exact h k s' hs'

end Namespaces

theorem Namespace.Scoped.admits {s : Namespace} (h : s.Scoped) {c : ClassName × ByteArray}
    (hc : c ∈ s.defined) :
    s.packages.admits c.1.text = true ∧ Reserved.isReserved c.1.text = false := by
  have haccepts := h.defined c hc
  rw [h.scope, Scope.accepts_ofPackages] at haccepts
  simpa [and_comm] using haccepts

/-- What can happen to a loader and its namespaces. Others change files, also while a plugin is set
up: then the change is a step of the plugin's script, or one of the world's own. -/
inductive Happening where
  | load (archives : List String)
  | change (f : Disk → Disk)
  | inject (i : Injector) (name : String)
  | resolve (i : Injector) (space : NamespaceId) (name : ClassName)

namespace Loader

variable {σ : Type}

structure State (σ : Type) where
  world : World σ
  results : List SetupResult := []

def State.answered (s : State σ) :
    Except PluginError (LoadedClass × Namespaces) → State σ
  | .ok (_, spaces) => { s with world := { s.world with spaces } }
  | .error _ => s

def State.loaded (s : State σ) : Outcome PluginError (List SetupResult) × World σ → State σ
  | (.ok results, w) => ⟨w, s.results ++ results⟩
  | (_, w) => ⟨w, s.results⟩

def next (l : Loader σ) (s : State σ) : Happening → State σ
  | .load archives => s.loaded (l.load archives s.world)
  | .change f => { s with world := { s.world with disk := f s.world.disk } }
  | .inject i name => s.answered (i.inject s.world.spaces s.world.disk name)
  | .resolve i space name => s.answered (i.resolve s.world.spaces s.world.disk space name)

def after (l : Loader σ) (s : State σ) (hs : List Happening) : State σ :=
  hs.foldl l.next s

@[simp] theorem world_loaded (s : State σ) (p : Outcome PluginError (List SetupResult) × World σ) :
    (s.loaded p).world = p.2 := by
  obtain ⟨o, w⟩ := p
  cases o <;> rfl

theorem load_cases (l : Loader σ) (archives : List String) (w : World σ) :
    (∃ e events, l.load archives w = (.error e, w.emit events)) ∨
      ∃ listed events, Listed.ofArchives w.disk archives = (.ok listed, events) ∧
        (l.load archives w).2.spaces = (setUpListed l listed (w.emit events)).2.spaces ∧
        ∀ results, (l.load archives w).1 = .ok results →
          (setUpListed l listed (w.emit events)).1 = .ok results := by
  simp only [load]
  split
  · rename_i e events _
    exact .inl ⟨e, events, rfl⟩
  · rename_i listed events hlisted
    refine .inr ⟨listed, events, hlisted, ?_⟩
    split
    · rename_i m w₁ hrun
      exact ⟨by rw [hrun], by simp⟩
    · rename_i results w₁ hrun
      refine ⟨by rw [hrun]; rfl, ?_⟩
      intro results' hresults
      rw [hrun]
      simpa using hresults

/-- A namespace that comes from the archive at some place of the list that a load was given: it has
the packages of that archive as the load opened it. -/
def RegisteredBy (l : Loader σ) (s₀ : State σ) (hs : List Happening) (k : Nat) (s : Namespace) :
    Prop :=
  ∃ before archives later j archive index,
    hs = before ++ .load archives :: later ∧ archives[j]? = some archive ∧
      k = (l.after s₀ before).world.spaces.size + j ∧
      Archive.Index.ofFile (l.after s₀ before).world.disk archive = .ok index ∧
      s.archive = archive ∧ s.packages = index.packages.1

theorem getElem?_answered {s : State σ} {o : Except PluginError (LoadedClass × Namespaces)}
    (ho : ∀ {c t'}, o = .ok (c, t') → s.world.spaces.Grows t' ∧ t'.size = s.world.spaces.size)
    {k : Nat} {space' : Namespace}
    (hspace' : (s.answered o).world.spaces.spaces[k]? = some space') :
    ∃ space : Namespace, s.world.spaces.spaces[k]? = some space ∧ space.Grows space' := by
  match o with
  | .error e => exact ⟨space', hspace', .refl space'⟩
  | .ok (c, t') =>
    obtain ⟨hgrows, hsize⟩ := ho rfl
    have hlt : k < t'.size := (List.getElem?_eq_some_iff.mp hspace').1
    exact hgrows.getElem?_of_lt (hsize ▸ hlt) hspace'

theorem getElem?_load {l : Loader σ} {archives : List String} {w : World σ} {k : Nat}
    {s' : Namespace} (hs' : (l.load archives w).2.spaces.spaces[k]? = some s') :
    (∃ s : Namespace, w.spaces.spaces[k]? = some s ∧ s.Grows s') ∨
      ∃ j archive index, archives[j]? = some archive ∧ k = w.spaces.size + j ∧
        Archive.Index.ofFile w.disk archive = .ok index ∧
        s'.archive = archive ∧ s'.packages = index.packages.1 := by
  rcases load_cases l archives w with ⟨e, events, hload⟩ | ⟨listed, events, hlisted, hw, -⟩
  · rw [hload] at hs'
    exact .inl ⟨s', hs', .refl s'⟩
  rw [hw] at hs'
  rcases Nat.lt_or_ge k w.spaces.size with hlt | hge
  · exact .inl ((setUpListed_grows l listed (w.emit events)).getElem?_of_lt hlt hs')
  obtain ⟨n, hfollows, -⟩ := setUpListed_follows l listed (w.emit events)
  have hlt : k < (setUpListed l listed (w.emit events)).2.spaces.size :=
    (List.getElem?_eq_some_iff.mp hs').1
  rw [hfollows.size] at hlt
  obtain ⟨j, rfl⟩ := Nat.exists_eq_add_of_le hge
  have hj : j < (listed.take n).length := Nat.lt_of_add_lt_add_left hlt
  obtain ⟨s'', hs'', hof⟩ := hfollows.fresh j _ (List.getElem?_eq_getElem hj)
  obtain rfl : s'' = s' := Option.some.inj (hs''.symm.trans hs')
  have hget : listed[j]? = some (listed.take n)[j] := by
    rw [List.getElem_take]
    exact List.getElem?_eq_getElem _
  obtain ⟨harchive, hindex, hpackages⟩ := Listed.opened_of_getElem? hlisted hget
  exact .inr ⟨j, _, _, harchive, rfl, hindex, hof.archive, hof.packages.trans hpackages⟩

theorem getElem?_next {l : Loader σ} {s : State σ} {h : Happening} {k : Nat} {space' : Namespace}
    (hspace' : (l.next s h).world.spaces.spaces[k]? = some space') :
    (∃ space : Namespace, s.world.spaces.spaces[k]? = some space ∧ space.Grows space') ∨
      ∃ archives j archive index, h = .load archives ∧ archives[j]? = some archive ∧
        k = s.world.spaces.size + j ∧ Archive.Index.ofFile s.world.disk archive = .ok index ∧
        space'.archive = archive ∧ space'.packages = index.packages.1 := by
  cases h with
  | change f => exact .inl ⟨space', hspace', .refl space'⟩
  | inject i name =>
    refine .inl (getElem?_answered ?_ hspace')
    intro c t' hinject
    obtain ⟨name', -, hresolve⟩ := Injector.inject_eq_ok hinject
    exact ⟨Namespaces.grows_resolve hresolve, Namespaces.size_resolve hresolve⟩
  | resolve i space name =>
    refine .inl (getElem?_answered ?_ hspace')
    intro c t' hanswer
    obtain ⟨-, hresolve⟩ := Injector.resolve_eq_ok hanswer
    exact ⟨Namespaces.grows_resolve hresolve, Namespaces.size_resolve hresolve⟩
  | load archives =>
    rw [next, world_loaded] at hspace'
    rcases getElem?_load hspace' with hold | ⟨j, archive, index, hfrom⟩
    · exact .inl hold
    · exact .inr ⟨archives, j, archive, index, rfl, hfrom⟩

theorem registeredBy_after (l : Loader σ) (s₀ : State σ) (hs : List Happening)
    (hempty : s₀.world.spaces.spaces = []) :
    ∀ (k : Nat) (s : Namespace), (l.after s₀ hs).world.spaces.spaces[k]? = some s →
      l.RegisteredBy s₀ hs k s := by
  induction hs using List.reverseRecOn with
  | nil =>
    intro k s h
    simp [after, hempty] at h
  | append_singleton hs h ih =>
    intro k s' hs'
    rw [after, List.foldl_append] at hs'
    rcases getElem?_next hs' with ⟨s, hs, hgrows⟩ |
      ⟨archives, j, archive, index, rfl, harchive, hk, hindex, hfrom⟩
    · obtain ⟨before, archives, later, j, archive, index, rfl, harchive, hk, hindex, ha, hp⟩ :=
        ih k s hs
      refine ⟨before, archives, later ++ [h], j, archive, index, ?_, harchive, hk, hindex,
        hgrows.archive.trans ha, hgrows.packages.trans hp⟩
      simp
    · exact ⟨hs, archives, [], j, archive, index, rfl, harchive, hk, hindex, hfrom⟩

structure State.Sound (s : State σ) : Prop where
  spaces : s.world.spaces.Scoped
  results : ∀ r ∈ s.results, ∃ c : Context, c.Sound s.world.spaces ∧ r = c.result

theorem State.Sound.of_grows {s s' : State σ} (h : s.Sound) (hspaces : s'.world.spaces.Scoped)
    (hresults : s'.results = s.results) (hgrows : s.world.spaces.Grows s'.world.spaces) :
    s'.Sound := by
  refine ⟨hspaces, ?_⟩
  intro r hr
  obtain ⟨c, hc, rfl⟩ := h.results r (hresults ▸ hr)
  exact ⟨c, hc.grows hgrows, rfl⟩

theorem State.Sound.answered {s : State σ} (h : s.Sound)
    {o : Except PluginError (LoadedClass × Namespaces)}
    (ho : ∀ {c t'}, o = .ok (c, t') →
      ∃ disk id name, s.world.spaces.resolve disk id name = .ok (c, t')) :
    (s.answered o).Sound := by
  match o with
  | .error e => exact h
  | .ok (c, t') =>
    obtain ⟨disk, id, name, hresolve⟩ := ho rfl
    exact h.of_grows (h.spaces.resolve hresolve) rfl (Namespaces.grows_resolve hresolve)

theorem State.Sound.loaded {s : State σ} (h : s.Sound) {l : Loader σ}
    (hsetup : l.setup = Setup.standard) (archives : List String) :
    (s.loaded (l.load archives s.world)).Sound := by
  rcases load_cases l archives s.world with ⟨e, events, hload⟩ |
    ⟨listed, events, -, hspaces, hresults⟩
  · rw [hload]
    exact h.of_grows h.spaces rfl (.refl _)
  have hscoped : (l.load archives s.world).2.spaces.Scoped := by
    rw [hspaces]
    exact setUpListed_spaces l (fun ht => ht.register _) (fun ht hresolve => ht.resolve hresolve)
      listed (w := s.world.emit events) h.spaces
  have hgrows : s.world.spaces.Grows (l.load archives s.world).2.spaces := by
    rw [hspaces]
    exact setUpListed_grows l listed (s.world.emit events)
  rcases hload : l.load archives s.world with ⟨o, w⟩
  rw [hload] at hscoped hgrows hspaces hresults
  cases o with
  | error e => exact h.of_grows hscoped rfl hgrows
  | panic m => exact h.of_grows hscoped rfl hgrows
  | ok results =>
    refine ⟨hscoped, ?_⟩
    intro r hr
    rcases List.mem_append.mp hr with hold | hnew
    · obtain ⟨c, hc, rfl⟩ := h.results r hold
      exact ⟨c, hc.grows hgrows, rfl⟩
    · have hrun : setUpListed l listed (s.world.emit events) =
          (.ok results, (setUpListed l listed (s.world.emit events)).2) :=
        Prod.ext (hresults results rfl) rfl
      have hsound := setUpListed_results
        (Q := fun t r => ∃ c : Context, c.Sound t ∧ r = c.result)
        (fun hgrows ⟨c, hc, hr⟩ => ⟨c, hc.grows hgrows, hr⟩)
        (fun hmade => by
          rw [hsetup] at hmade
          obtain ⟨c, hc, -, hr⟩ := Setup.standard_sound hmade
          exact ⟨c, hc, hr⟩)
        hrun r hnew
      rw [← hspaces] at hsound
      exact hsound

theorem State.Sound.after {s : State σ} (h : s.Sound) {l : Loader σ}
    (hsetup : l.setup = Setup.standard) (hs : List Happening) : (l.after s hs).Sound := by
  induction hs generalizing s with
  | nil => exact h
  | cons first rest ih =>
    refine ih (s := l.next s first) ?_
    cases first with
    | load archives => exact h.loaded hsetup archives
    | change f => exact h.of_grows h.spaces rfl (.refl _)
    | inject i name =>
      refine h.answered ?_
      intro c t' hinject
      obtain ⟨name', -, hresolve⟩ := Injector.inject_eq_ok hinject
      exact ⟨_, _, name', hresolve⟩
    | resolve i space name =>
      refine h.answered ?_
      intro c t' hanswer
      obtain ⟨-, hresolve⟩ := Injector.resolve_eq_ok hanswer
      exact ⟨_, _, name, hresolve⟩

theorem defined_classes_in_scope (disabled : Disabled) (catalog : Catalog) (disk : Disk) (own : σ)
    (outside : NamespaceId → ClassName → Disk → Disk) (hs : List Happening) :
    let l : Loader σ := { disabled, catalog, setup := Setup.standard }
    let s₀ : State σ := { world := { disk, own, outside } }
    let s := l.after s₀ hs
    (∀ (k : Nat) (space : Namespace), s.world.spaces.spaces[k]? = some space →
      l.RegisteredBy s₀ hs k space ∧
        ∀ c ∈ space.defined, space.packages.admits c.1.text = true ∧
          Reserved.isReserved c.1.text = false) ∧
    ∀ r ∈ s.results,
      (∀ name ∈ r.injected ++ r.transformers.map (·.interceptor),
        ∃ space : Namespace, s.world.spaces.spaces[r.space.index]? = some space ∧
          name ∈ space.defined.map (·.1) ∧ space.packages.admits name.text = true ∧
          Reserved.isReserved name.text = false) ∧
      ∀ tr ∈ r.transformers, Reserved.isReserved tr.target.text = false := by
  intro l s₀ s
  have hsound : s.Sound := State.Sound.after ⟨by simp [s₀, Namespaces.Scoped], by simp [s₀]⟩ rfl hs
  refine ⟨?_, ?_⟩
  · intro k space hspace
    refine ⟨registeredBy_after l s₀ hs rfl k space hspace, ?_⟩
    intro c hc
    exact (hsound.spaces k space hspace).admits hc
  · intro r hr
    obtain ⟨c, hc, rfl⟩ := hsound.results r hr
    refine ⟨?_, hc.targets⟩
    intro name hname
    have hinjected : name ∈ c.injected := by
      rcases List.mem_append.mp hname with hinjected | hinterceptor
      · exact hinjected
      · obtain ⟨tr, htr, rfl⟩ := List.mem_map.mp hinterceptor
        exact hc.interceptors tr htr
    obtain ⟨space, hspace, hdefined⟩ := hc.injected name hinjected
    obtain ⟨d, hd, rfl⟩ := List.mem_map.mp hdefined
    exact ⟨space, hspace, hdefined, (hsound.spaces _ space hspace).admits hd⟩

end Loader

end PluginAgent
