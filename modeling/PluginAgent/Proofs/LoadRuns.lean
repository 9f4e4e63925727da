import Mathlib.Data.List.Forall2
import PluginAgent.Plugin.Loader
import PluginAgent.Proofs.Discovery
import PluginAgent.Proofs.SetupRuns

namespace PluginAgent

namespace Candidate

def IsFrom (c : Candidate) (catalog : Catalog) : Prop :=
  (c.type, .ok c.plugin) ∈ catalog.factories

theorem Offered.isFrom {index : Archive.Index} {catalog : Catalog} {c : Candidate}
    (h : c.Offered index catalog) : c.IsFrom catalog := by
  obtain ⟨before, after, hfactories, -⟩ := List.lookup_eq_some_iff.mp h.known
  rw [IsFrom, hfactories]
  simp

theorem isFrom_of_discover {index : Archive.Index} {catalog : Catalog} {cs : List Candidate}
    (h : discover index catalog = .ok cs) : ∀ c ∈ cs, c.IsFrom catalog :=
  fun c hc => ((discover_eq_ok h).2 c hc).isFrom

end Candidate

def World.registering {σ : Type} (w : World σ) (a : Listed) : World σ :=
  { w with spaces := (w.spaces.register a.index.path a.packages (.ofPackages a.packages)).2 }

@[simp] theorem World.size_registering {σ : Type} (w : World σ) (a : Listed) :
    (w.registering a).spaces.size = w.spaces.size + 1 :=
  Namespaces.size_register _ _ _ _

theorem World.getElem?_registering {σ : Type} (w : World σ) (a : Listed) :
    (w.registering a).spaces.spaces[w.spaces.size]? =
      some ⟨a.index.path, a.packages, .ofPackages a.packages, []⟩ := by
  rw [registering, Namespaces.getElem?_register, if_pos rfl]

namespace Loader

variable {σ : Type} (l : Loader σ) (a : Listed) (space : NamespaceId)

theorem setUpListed_cons (rest : List Listed) (w : World σ) :
    setUpListed l (a :: rest) w =
      match setUpArchive l a ⟨w.spaces.size⟩ (w.registering a) with
      | (.panic m, w) => (.panic m, w)
      | (.ok p, w) =>
        match setUpListed l rest (w.emit (p.events a)) with
        | (.panic m, w) => (.panic m, w)
        | (.ok results, w) => (.ok (p.results ++ results), w) :=
  rfl

inductive Course : List Candidate → World σ → Progress → World σ → Prop
  | done {w} : Course [] w {} w
  | stopped {c rest w e w'} : setUp l a space c w = (.error e, w') → e.isUnavailable = true →
      Course (c :: rest) w { stopped := some e } w'
  | failed {c rest w e w₁ p w'} : setUp l a space c w = (.error e, w₁) → e.isUnavailable = false →
      Course rest (w₁.emit [skippedPlugin a c e]) p w' → Course (c :: rest) w p w'
  | made {c rest w r w₁ p w'} : setUp l a space c w = (.ok r, w₁) → Course rest w₁ p w' →
      Course (c :: rest) w { p with results := r :: p.results } w'

theorem course_iff {cs : List Candidate} {w w' : World σ} {p : Progress} :
    Course l a space cs w p w' ↔ setUpAll l a space cs w = (.ok p, w') := by
  constructor
  · intro h
    induction h with
    | done => rfl
    | stopped hc he => simp [setUpAll, hc, he]
    | failed hc he _ ih => simp [setUpAll, hc, he, ih]
    | made hc _ ih => simp [setUpAll, hc, ih]
  · induction cs generalizing w p with
    | nil =>
      intro h
      simp only [setUpAll, Prod.mk.injEq, Outcome.ok.injEq] at h
      obtain ⟨rfl, rfl⟩ := h
      exact .done
    | cons c rest ih =>
      intro h
      simp only [setUpAll] at h
      split at h
      · cases h
      · rename_i e w₁ hc
        split at h
        · rename_i he
          simp only [Prod.mk.injEq, Outcome.ok.injEq] at h
          obtain ⟨rfl, rfl⟩ := h
          exact .stopped hc he
        · rename_i he
          exact .failed hc (by simpa using he) (ih h)
      · rename_i r w₁ hc
        split at h
        · cases h
        · rename_i q w₂ hrest
          simp only [Prod.mk.injEq, Outcome.ok.injEq] at h
          obtain ⟨rfl, rfl⟩ := h
          exact .made hc (ih hrest)

variable {l a space}

theorem setUpArchive_eq_ok {w w' : World σ} {p : Progress}
    (h : setUpArchive l a space w = (.ok p, w')) :
    (∃ e, Candidate.discover a.index l.catalog = .error e ∧ p = { stopped := some e } ∧ w' = w) ∨
      ∃ cs, Candidate.discover a.index l.catalog = .ok cs ∧
        Course l a space (l.disabled.keep cs) (w.emit (l.disabled.skips cs)) p w' := by
  simp only [setUpArchive] at h
  split at h
  · cases h
  · rename_i e he
    simp only [Prod.mk.injEq, Outcome.ok.injEq] at h
    exact .inl ⟨e, he, h.1.symm, h.2.symm⟩
  · rename_i cs hcs
    exact .inr ⟨cs, hcs, (course_iff l a space).mpr h⟩

inductive Pass (l : Loader σ) : List Listed → World σ → List SetupResult → World σ → Prop
  | done {w} : Pass l [] w [] w
  | next {a rest w p w₁ later w'} :
      setUpArchive l a ⟨w.spaces.size⟩ (w.registering a) = (.ok p, w₁) →
      Pass l rest (w₁.emit (p.events a)) later w' → Pass l (a :: rest) w (p.results ++ later) w'

theorem pass_iff {listed : List Listed} {w w' : World σ} {results : List SetupResult} :
    Pass l listed w results w' ↔ setUpListed l listed w = (.ok results, w') := by
  constructor
  · intro h
    induction h with
    | done => rfl
    | next hp _ ih => rw [setUpListed_cons, hp]; simp only [ih]
  · induction listed generalizing w results with
    | nil =>
      intro h
      simp only [setUpListed, Prod.mk.injEq, Outcome.ok.injEq] at h
      obtain ⟨rfl, rfl⟩ := h
      exact .done
    | cons a rest ih =>
      intro h
      rw [setUpListed_cons] at h
      split at h
      · cases h
      · rename_i p w₁ hp
        split at h
        · cases h
        · rename_i later w₂ hlater
          simp only [Prod.mk.injEq, Outcome.ok.injEq] at h
          obtain ⟨rfl, rfl⟩ := h
          exact .next hp (ih hlater)

theorem load_of_setUpListed {archives : List String} {w w₁ : World σ} {listed : List Listed}
    {events : List Event} {results : List SetupResult}
    (hlisted : Listed.ofArchives w.disk archives = (.ok listed, events))
    (hall : setUpListed l listed (w.emit events) = (.ok results, w₁)) :
    l.load archives w = (.ok results, w₁.emit [loaded archives.length results.length]) := by
  simp only [load, hlisted, hall]

theorem load_eq_ok {archives : List String} {w w' : World σ} {results : List SetupResult}
    (h : l.load archives w = (.ok results, w')) :
    ∃ listed events w₁, Listed.ofArchives w.disk archives = (.ok listed, events) ∧
      setUpListed l listed (w.emit events) = (.ok results, w₁) ∧
      w' = w₁.emit [loaded archives.length results.length] := by
  simp only [load] at h
  split at h
  · cases h
  · rename_i listed events hlisted
    split at h
    · cases h
    · rename_i results' w₁ hall
      simp only [Prod.mk.injEq, Outcome.ok.injEq] at h
      obtain ⟨rfl, rfl⟩ := h
      exact ⟨listed, events, w₁, hlisted, hall, rfl⟩

variable (l a space)

section Keeps

variable {P : World σ → Prop}

theorem setUp_keeps (emit : ∀ {w} (events), P w → P (w.emit events))
    (meanwhile : ∀ {w} (type), P w → P (w.meanwhile space type)) {c : Candidate}
    (run : ∀ {w}, P w → P ((l.setup c.plugin ⟨space, c.type, a.index.path⟩).run
      ⟨space, c.type, a.index.path⟩ w).2) {w : World σ} (h : P w) :
    P (setUp l a space c w).2 := by
  have hready := meanwhile c.type (emit [loading a c] h)
  simp only [setUp]
  split
  · exact hready
  · exact run hready

theorem setUpAll_keeps (emit : ∀ {w} (events), P w → P (w.emit events))
    (meanwhile : ∀ {w} (type), P w → P (w.meanwhile space type)) (cs : List Candidate)
    (run : ∀ c ∈ cs, ∀ {w}, P w → P ((l.setup c.plugin ⟨space, c.type, a.index.path⟩).run
      ⟨space, c.type, a.index.path⟩ w).2) :
    ∀ {w : World σ}, P w → P (setUpAll l a space cs w).2 := by
  induction cs with
  | nil => intro w h; exact h
  | cons c rest ih =>
    intro w h
    have hc := setUp_keeps l a space emit meanwhile (run c List.mem_cons_self) h
    have hlater (w : World σ) := @ih (fun c hc => run c (List.mem_cons_of_mem _ hc)) w
    simp only [setUpAll]
    split
    · rename_i m w₁ hrun
      rw [hrun] at hc
      exact hc
    · rename_i e w₁ hrun
      rw [hrun] at hc
      split
      · exact hc
      · exact hlater _ (emit _ hc)
    · rename_i r w₁ hrun
      rw [hrun] at hc
      have hrest := hlater w₁ hc
      split <;> rename_i hall <;> rw [hall] at hrest <;> exact hrest

theorem setUpArchive_keeps (emit : ∀ {w} (events), P w → P (w.emit events))
    (meanwhile : ∀ {w} (type), P w → P (w.meanwhile space type))
    (run : ∀ {c : Candidate}, c.IsFrom l.catalog → ∀ {w}, P w →
      P ((l.setup c.plugin ⟨space, c.type, a.index.path⟩).run ⟨space, c.type, a.index.path⟩ w).2)
    {w : World σ} (h : P w) : P (setUpArchive l a space w).2 := by
  simp only [setUpArchive]
  split
  · exact h
  · exact h
  · rename_i cs hcs
    refine setUpAll_keeps l a space emit meanwhile _ ?_ (emit _ h)
    intro c hc
    exact run (Candidate.isFrom_of_discover hcs c (List.mem_of_mem_filter hc))

theorem setUpListed_keeps (emit : ∀ {w} (events), P w → P (w.emit events))
    (meanwhile : ∀ {w} (space type), P w → P (w.meanwhile space type))
    (registering : ∀ {w} (a), P w → P (w.registering a))
    (run : ∀ {c : Candidate}, c.IsFrom l.catalog → ∀ (i : Injector) {w}, P w →
      P ((l.setup c.plugin i).run i w).2) (listed : List Listed) :
    ∀ {w : World σ}, P w → P (setUpListed l listed w).2 := by
  induction listed with
  | nil => intro w h; exact h
  | cons a rest ih =>
    intro w h
    have ha := setUpArchive_keeps l a ⟨w.spaces.size⟩ emit (meanwhile _)
      (fun hc => run hc _) (registering a h)
    rw [setUpListed_cons]
    split
    · rename_i m w₁ hrun
      rw [hrun] at ha
      exact ha
    · rename_i p w₁ hrun
      rw [hrun] at ha
      have hrest := ih (emit (p.events a) ha)
      split <;> rename_i hall <;> rw [hall] at hrest <;> exact hrest

end Keeps

section Spaces

variable {P : Namespaces → Prop}

theorem setUpAll_spaces
    (step : ∀ {t t' : Namespaces} {disk : Disk} {name : ClassName} {c : LoadedClass},
      P t → t.resolve disk space name = .ok (c, t') → P t')
    (cs : List Candidate) {w : World σ} (h : P w.spaces) : P (setUpAll l a space cs w).2.spaces :=
  setUpAll_keeps l a space (P := fun w => P w.spaces) (fun _ h => h) (fun _ h => h) cs
    (fun _ _ _ h => Script.run_spaces step _ _ h) h

theorem setUpArchive_spaces
    (step : ∀ {t t' : Namespaces} {disk : Disk} {name : ClassName} {c : LoadedClass},
      P t → t.resolve disk space name = .ok (c, t') → P t')
    {w : World σ} (h : P w.spaces) : P (setUpArchive l a space w).2.spaces :=
  setUpArchive_keeps l a space (P := fun w => P w.spaces) (fun _ h => h) (fun _ h => h)
    (fun _ _ h => Script.run_spaces step _ _ h) h

theorem setUpListed_spaces
    (registered : ∀ {t : Namespaces} {a : Listed},
      P t → P (t.register a.index.path a.packages (.ofPackages a.packages)).2)
    (step : ∀ {t t' : Namespaces} {disk : Disk} {id : NamespaceId} {name : ClassName}
      {c : LoadedClass}, P t → t.resolve disk id name = .ok (c, t') → P t')
    (listed : List Listed) {w : World σ} (h : P w.spaces) :
    P (setUpListed l listed w).2.spaces :=
  setUpListed_keeps l (P := fun w => P w.spaces) (fun _ h => h) (fun _ _ h => h)
    (fun _ h => registered h) (fun _ _ _ h => Script.run_spaces step _ _ h) listed h

end Spaces

theorem setUpAll_grows (cs : List Candidate) (w : World σ) :
    w.spaces.Grows (setUpAll l a space cs w).2.spaces :=
  setUpAll_spaces l a space (fun h hresolve => h.trans (Namespaces.grows_resolve hresolve)) cs
    (.refl w.spaces)

variable {l a space} in
theorem Course.grows {cs : List Candidate} {w w' : World σ} {p : Progress}
    (h : Course l a space cs w p w') : w.spaces.Grows w'.spaces := by
  have hgrows := setUpAll_grows l a space cs w
  rwa [(course_iff l a space).mp h] at hgrows

theorem setUpArchive_grows (w : World σ) : w.spaces.Grows (setUpArchive l a space w).2.spaces :=
  setUpArchive_spaces l a space (fun h hresolve => h.trans (Namespaces.grows_resolve hresolve))
    (.refl w.spaces)

theorem setUpArchive_size (w : World σ) :
    (setUpArchive l a space w).2.spaces.size = w.spaces.size :=
  setUpArchive_spaces l a space (P := fun t => t.size = w.spaces.size)
    (fun h hresolve => (Namespaces.size_resolve hresolve).trans h) rfl

theorem size_of_setUpArchive {l : Loader σ} {a : Listed} {space : NamespaceId} {w w' : World σ}
    {p : Progress} (h : setUpArchive l a space (w.registering a) = (.ok p, w')) :
    w'.spaces.size = w.spaces.size + 1 := by
  have hsize := setUpArchive_size l a space (w.registering a)
  rwa [h, World.size_registering] at hsize

theorem setUpListed_grows (listed : List Listed) (w : World σ) :
    w.spaces.Grows (setUpListed l listed w).2.spaces :=
  setUpListed_spaces l (fun h => h.trans (Namespaces.grows_register _ _ _ _))
    (fun h hresolve => h.trans (Namespaces.grows_resolve hresolve)) listed (.refl w.spaces)

variable {l} in
theorem Pass.grows {listed : List Listed} {w w' : World σ} {results : List SetupResult}
    (h : Pass l listed w results w') : w.spaces.Grows w'.spaces := by
  have hgrows := setUpListed_grows l listed w
  rwa [pass_iff.mp h] at hgrows

end Loader

structure Namespace.IsOf (s : Namespace) (a : Listed) : Prop where
  archive : s.archive = a.index.path
  packages : s.packages = a.packages
  scope : s.scope = .ofPackages a.packages

theorem Namespace.IsOf.grows {s s' : Namespace} {a : Listed} (h : s.IsOf a) (hgrows : s.Grows s') :
    s'.IsOf a :=
  ⟨hgrows.archive.trans h.archive, hgrows.packages.trans h.packages, hgrows.scope.trans h.scope⟩

structure Namespaces.Follows (t : Namespaces) (listed : List Listed) (t' : Namespaces) : Prop where
  size : t'.size = t.size + listed.length
  fresh : ∀ (j : Nat) (a : Listed), listed[j]? = some a →
    ∃ s : Namespace, t'.spaces[t.size + j]? = some s ∧ s.IsOf a

namespace Namespaces

theorem follows_nil (t : Namespaces) : t.Follows [] t :=
  ⟨rfl, by simp⟩

theorem Follows.cons {σ : Type} {w : World σ} {a : Listed} {rest : List Listed}
    {t₁ t₂ : Namespaces} (hgrows : (w.registering a).spaces.Grows t₁)
    (hsize : t₁.size = w.spaces.size + 1) (hrest : t₁.Follows rest t₂) (hlater : t₁.Grows t₂) :
    w.spaces.Follows (a :: rest) t₂ := by
  refine ⟨?_, ?_⟩
  · rw [hrest.size, hsize, List.length_cons]
    omega
  · intro j b hb
    cases j with
    | zero =>
      obtain rfl : a = b := by simpa using hb
      obtain ⟨s, hs, hsgrows⟩ := (hgrows.trans hlater) _ _ (w.getElem?_registering a)
      exact ⟨s, by simpa using hs, Namespace.IsOf.grows ⟨rfl, rfl, rfl⟩ hsgrows⟩
    | succ j =>
      obtain ⟨s, hs, hof⟩ := hrest.fresh j b (by simpa using hb)
      refine ⟨s, ?_, hof⟩
      rw [show w.spaces.size + (j + 1) = t₁.size + j by omega]
      exact hs

end Namespaces

namespace Loader

variable {σ : Type} (l : Loader σ)

theorem setUpListed_follows (listed : List Listed) :
    ∀ w : World σ, ∃ n, w.spaces.Follows (listed.take n) (setUpListed l listed w).2.spaces ∧
      ((∃ results, (setUpListed l listed w).1 = .ok results) → listed.take n = listed) := by
  induction listed with
  | nil => intro w; exact ⟨0, Namespaces.follows_nil w.spaces, by simp⟩
  | cons a rest ih =>
    intro w
    rw [setUpListed_cons]
    have hgrows := setUpArchive_grows l a ⟨w.spaces.size⟩ (w.registering a)
    have hsize := setUpArchive_size l a ⟨w.spaces.size⟩ (w.registering a)
    rw [World.size_registering] at hsize
    split
    · rename_i m w₁ hrun
      rw [hrun] at hgrows hsize
      refine ⟨1, ?_, by simp⟩
      exact .cons hgrows hsize (Namespaces.follows_nil w₁.spaces) (.refl w₁.spaces)
    · rename_i p w₁ hrun
      rw [hrun] at hgrows hsize
      obtain ⟨n, hfollows, hall⟩ := ih (w₁.emit (p.events a))
      have hlater := setUpListed_grows l rest (w₁.emit (p.events a))
      refine ⟨n + 1, ?_, ?_⟩
      · have := Namespaces.Follows.cons hgrows hsize hfollows hlater
        split <;> rename_i hrun' <;> rw [hrun'] at this <;> exact this
      · rintro ⟨results, hresults⟩
        split at hresults
        · cases hresults
        · rename_i results' w₂ hrun'
          rw [List.take_succ_cons, hall ⟨results', by rw [hrun']⟩]

section Results

variable {l} {Q : Namespaces → SetupResult → Prop} {a : Listed} {space : NamespaceId}

theorem setUp_eq_ok {c : Candidate} {w w' : World σ} {r : SetupResult}
    (h : setUp l a space c w = (.ok r, w')) :
    ∃ w₁ : World σ, w₁.spaces = w.spaces ∧
      (l.setup c.plugin ⟨space, c.type, a.index.path⟩).run ⟨space, c.type, a.index.path⟩ w₁ =
        (.ok r, w') := by
  simp only [setUp] at h
  split at h
  · cases h
  · exact ⟨(w.emit [loading a c]).meanwhile space c.type, rfl, h⟩

theorem Course.results
    (grows : ∀ {t t' : Namespaces} {r : SetupResult}, t.Grows t' → Q t r → Q t' r)
    (made : ∀ {plugin : Plugin} {i : Injector} {w w' : World σ} {r : SetupResult},
      (l.setup plugin i).run i w = (.ok r, w') → Q w'.spaces r)
    {cs : List Candidate} {w w' : World σ} {p : Progress} (h : Course l a space cs w p w') :
    ∀ r ∈ p.results, Q w'.spaces r := by
  induction h with
  | done => simp
  | stopped hc he => simp
  | failed hc he _ ih => exact ih
  | made hc hrest ih =>
    have hlater := hrest.grows
    obtain ⟨w₀, -, hmade⟩ := setUp_eq_ok hc
    exact List.forall_mem_cons.mpr ⟨grows hlater (made hmade), ih⟩

theorem setUpListed_results
    (grows : ∀ {t t' : Namespaces} {r : SetupResult}, t.Grows t' → Q t r → Q t' r)
    (made : ∀ {plugin : Plugin} {i : Injector} {w w' : World σ} {r : SetupResult},
      (l.setup plugin i).run i w = (.ok r, w') → Q w'.spaces r)
    {listed : List Listed} {w w' : World σ} {results : List SetupResult}
    (h : setUpListed l listed w = (.ok results, w')) : ∀ r ∈ results, Q w'.spaces r := by
  rw [← pass_iff] at h
  induction h with
  | done => simp
  | @next a rest w p w₁ later w' hp hlater ih =>
    have hgrows := hlater.grows
    have hfirst : ∀ r ∈ p.results, Q w₁.spaces r := by
      obtain ⟨e, -, rfl, -⟩ | ⟨cs, -, hcourse⟩ := setUpArchive_eq_ok hp
      · simp
      · exact hcourse.results (Q := Q) grows made
    intro r hr
    rcases List.mem_append.mp hr with hr | hr
    · exact grows hgrows (hfirst r hr)
    · exact ih r hr

end Results

end Loader

theorem Archive.Index.path_ofFile {disk : Disk} {archive : String} {index : Archive.Index}
    (h : Archive.Index.ofFile disk archive = .ok index) : index.path = archive := by
  simp only [ofFile, ofContents] at h
  split at h
  · cases h
  · split at h
    · cases h
    · cases h
      rfl

namespace Listed

variable {disk : Disk}

theorem ofArchives_cons_eq_ok {archive : String} {rest : List String} {listed : List Listed}
    {events : List Event} (h : ofArchives disk (archive :: rest) = (.ok listed, events)) :
    ∃ index later events', Archive.Index.ofFile disk archive = .ok index ∧
      ofArchives disk rest = (.ok later, events') ∧
      listed = ⟨index, index.packages.1⟩ :: later ∧ events = index.packages.2 ++ events' := by
  simp only [ofArchives] at h
  split at h
  · cases h
  · rename_i index hindex
    cases hrest : ofArchives disk rest with
    | mk opened events' =>
      rw [hrest] at h
      cases opened with
      | error e => simp [Except.map] at h
      | ok later =>
        simp only [Except.map, Prod.mk.injEq, Except.ok.injEq] at h
        exact ⟨index, later, events', hindex, rfl, h.1.symm, h.2.symm⟩

theorem ofArchives_eq_ok (archives : List String) : ∀ {listed : List Listed} {events : List Event},
    ofArchives disk archives = (.ok listed, events) →
      List.Forall₂ (fun archive (a : Listed) =>
        Archive.Index.ofFile disk archive = .ok a.index ∧ a.packages = a.index.packages.1)
        archives listed := by
  induction archives with
  | nil =>
    intro listed events h
    simp only [ofArchives, Prod.mk.injEq, Except.ok.injEq] at h
    obtain ⟨rfl, -⟩ := h
    exact .nil
  | cons archive rest ih =>
    intro listed events h
    obtain ⟨index, later, events', hindex, hrest, rfl, -⟩ := ofArchives_cons_eq_ok h
    exact .cons ⟨hindex, rfl⟩ (ih hrest)

theorem opened_of_getElem? {archives : List String} {listed : List Listed} {events : List Event}
    (h : ofArchives disk archives = (.ok listed, events)) {k : Nat} {a : Listed}
    (hk : listed[k]? = some a) :
    archives[k]? = some a.index.path ∧ Archive.Index.ofFile disk a.index.path = .ok a.index ∧
      a.packages = a.index.packages.1 := by
  obtain ⟨hlength, hall⟩ := List.forall₂_iff_get.mp (ofArchives_eq_ok archives h)
  obtain ⟨hlt, rfl⟩ := List.getElem?_eq_some_iff.mp hk
  have hk' : k < archives.length := hlength ▸ hlt
  obtain ⟨hindex, hpackages⟩ := hall k hk' hlt
  have hpath : listed[k].index.path = archives[k] := Archive.Index.path_ofFile hindex
  exact ⟨hpath ▸ List.getElem?_eq_getElem hk', hpath ▸ hindex, hpackages⟩

theorem ofArchives_opens (archives : List String)
    (h : ∀ x ∈ archives, ∃ index, Archive.Index.ofFile disk x = .ok index) :
    ∃ listed events, ofArchives disk archives = (.ok listed, events) := by
  induction archives with
  | nil => exact ⟨[], [], rfl⟩
  | cons archive rest ih =>
    obtain ⟨index, hindex⟩ := h archive List.mem_cons_self
    obtain ⟨listed, events, hrest⟩ := ih fun x hx => h x (List.mem_cons_of_mem _ hx)
    simp only [ofArchives, hindex, hrest]
    exact ⟨_, _, rfl⟩

theorem ofArchives_getElem? {archives : List String} {listed : List Listed} {events : List Event}
    (h : ofArchives disk archives = (.ok listed, events)) {k : Nat} {archive : String}
    (hk : archives[k]? = some archive) :
    ∃ index, Archive.Index.ofFile disk archive = .ok index ∧
      listed[k]? = some ⟨index, index.packages.1⟩ := by
  obtain ⟨hlength, hall⟩ := List.forall₂_iff_get.mp (ofArchives_eq_ok archives h)
  obtain ⟨hk₁, rfl⟩ := List.getElem?_eq_some_iff.mp hk
  obtain ⟨hindex, hpackages⟩ := hall k hk₁ (hlength ▸ hk₁)
  refine ⟨_, hindex, ?_⟩
  rw [← hpackages]
  exact List.getElem?_eq_getElem (hlength ▸ hk₁)

end Listed

end PluginAgent
