import PluginAgent.Proofs.Confinement
import PluginAgent.Proofs.LoadRuns

namespace PluginAgent

namespace Catalog

structure Avoids (c : Catalog) (k : Liberty) : Prop where
  factories : k = .panic → ∀ type m, (type, .panic m) ∉ c.factories
  plugins : ∀ type plugin, (type, .ok plugin) ∈ c.factories → ∀ i, PluginScript.Avoids k (plugin i)

def uniform (types : List ClassName) (code : Plugin) : Catalog :=
  ⟨types.map fun type => (type, .ok code)⟩

theorem avoids_uniform {types : List ClassName} {code : Plugin} {k : Liberty}
    (h : ∀ i, PluginScript.Avoids k (code i)) : (uniform types code).Avoids k := by
  constructor
  · rintro - type m hmem
    simp [uniform] at hmem
  · intro type plugin hmem i
    obtain ⟨t, -, heq⟩ := List.mem_map.mp hmem
    obtain rfl := Outcome.ok.inj (Prod.mk.inj heq).2
    exact h i

end Catalog

theorem Outcome.exists_ok {α β : Type} {x : Outcome Empty α × β} (h : ∀ m, x.1 ≠ .panic m) :
    ∃ a b, x = (.ok a, b) := by
  obtain ⟨a | e | m, b⟩ := x
  · exact ⟨a, b, rfl⟩
  · exact e.elim
  · exact absurd rfl (h m)

namespace Candidate

variable {index : Archive.Index} {catalog : Catalog}

theorem factory_of_ofTypes {types : List ClassName} {m : Option String}
    (h : ofTypes index catalog types = .panic m) :
    ∃ type, (type, .panic m) ∈ catalog.factories := by
  induction types with
  | nil => cases h
  | cons type rest ih =>
    rw [ofTypes] at h
    split at h
    · cases h
    · rename_i m' hm'
      obtain rfl := Outcome.panic.inj h
      rw [ofType] at hm'
      split at hm'
      · cases hm'
      · split at hm'
        · cases hm'
        · cases hm'
        · rename_i m'' hfactory
          obtain rfl := Outcome.panic.inj hm'
          obtain ⟨before, after, hfactories, -⟩ := List.lookup_eq_some_iff.mp hfactory
          exact ⟨type, by simp [hfactories]⟩
    · cases hrest : ofTypes index catalog rest with
      | ok later => simp [hrest, Outcome.map] at h
      | error e => simp [hrest, Outcome.map] at h
      | panic m' =>
        rw [hrest] at h
        exact ih (hrest.trans h)

theorem factory_of_discover {m : Option String} (h : discover index catalog = .panic m) :
    ∃ type, (type, .panic m) ∈ catalog.factories := by
  rw [discover] at h
  split at h
  · cases h
  · cases h
  · exact factory_of_ofTypes h

end Candidate

namespace Loader

variable {σ : Type} (l : Loader σ)

def Panics (m : Option String) : Prop :=
  (∃ type, (type, .panic m) ∈ l.catalog.factories) ∨
    ∃ c : Candidate, c.IsFrom l.catalog ∧ ∃ i w, ((l.setup c.plugin i).run i w).1 = .panic m

structure Avoids (k : Liberty) : Prop where
  factories : k = .panic → ∀ type m, (type, .panic m) ∉ l.catalog.factories
  setup : ∀ {c : Candidate}, c.IsFrom l.catalog → ∀ i, (l.setup c.plugin i).Avoids k

theorem avoids_standard {disabled : Disabled} {catalog : Catalog} {k : Liberty}
    (h : catalog.Avoids k) : (⟨disabled, catalog, Setup.standard⟩ : Loader σ).Avoids k :=
  ⟨h.factories, fun hc i => Setup.standard_avoids (h.plugins _ _ hc i)⟩

theorem setUpListed_append (first rest : List Listed) :
    ∀ w : World σ, setUpListed l (first ++ rest) w =
      match setUpListed l first w with
      | (.panic m, w) => (.panic m, w)
      | (.ok results, w) =>
        match setUpListed l rest w with
        | (.panic m, w) => (.panic m, w)
        | (.ok later, w) => (.ok (results ++ later), w)
      := by
  induction first with
  | nil =>
    intro w
    simp only [List.nil_append, setUpListed]
    split <;> rename_i hrest <;> simp [hrest]
  | cons a first ih =>
    intro w
    rw [List.cons_append, setUpListed_cons, setUpListed_cons]
    split
    · rfl
    · rename_i p w₁ _
      simp only [ih]
      cases setUpListed l first (w₁.emit (p.events a)) with
      | mk outcome w₂ =>
        cases outcome with
        | panic m => rfl
        | error e => exact e.elim
        | ok results =>
          simp only
          cases setUpListed l rest w₂ with
          | mk outcome w₃ =>
            cases outcome with
            | panic m => rfl
            | error e => exact e.elim
            | ok later => simp

theorem setUpListed_getElem?_of_lt (listed : List Listed) :
    ∀ {w : World σ} {k : Nat}, k < w.spaces.size →
      (setUpListed l listed w).2.spaces.spaces[k]? = w.spaces.spaces[k]? := by
  induction listed with
  | nil => intro w k hk; rfl
  | cons a rest ih =>
    intro w k hk
    have hsize := setUpArchive_size l a ⟨w.spaces.size⟩ (w.registering a)
    have hregistered : (w.registering a).spaces.spaces[k]? = w.spaces.spaces[k]? := by
      rw [World.registering, Namespaces.getElem?_register, if_neg (Nat.ne_of_lt hk)]
    have ha := setUpArchive_spaces l a ⟨w.spaces.size⟩
      (P := fun t => t.spaces[k]? = w.spaces.spaces[k]?)
      (fun h hresolve =>
        (Namespaces.getElem?_resolve_of_ne hresolve (Nat.ne_of_lt hk)).trans h) hregistered
    rw [World.size_registering] at hsize
    rw [setUpListed_cons]
    split
    · rename_i m w₁ hrun
      rw [hrun] at ha
      exact ha
    · rename_i p w₁ hrun
      rw [hrun] at ha hsize
      have hrest : (setUpListed l rest (w₁.emit (p.events a))).2.spaces.spaces[k]? =
          w₁.spaces.spaces[k]? := ih (w := w₁.emit (p.events a)) (Nat.lt_of_lt_of_eq (by omega) hsize.symm)
      rw [ha] at hrest
      split <;> rename_i hall <;> rw [hall] at hrest <;> exact hrest

section Ends

variable {l}

theorem Avoids.not_panics (h : l.Avoids .panic) (m : Option String) : ¬l.Panics m := by
  rintro (⟨type, hfactory⟩ | ⟨c, hc, i, w, hrun⟩)
  · exact h.factories rfl type m hfactory
  · exact Script.run_ne_panic _ (h.setup hc i) w m hrun

theorem setUp_panics {a : Listed} {space : NamespaceId} {c : Candidate} {w : World σ}
    {m : Option String} (hc : c.IsFrom l.catalog) (h : (setUp l a space c w).1 = .panic m) :
    l.Panics m := by
  simp only [setUp] at h
  split at h
  · cases h
  · exact .inr ⟨c, hc, _, _, h⟩

theorem setUpAll_panics {a : Listed} {space : NamespaceId} {m : Option String}
    {cs : List Candidate} (hcs : ∀ c ∈ cs, c.IsFrom l.catalog) {w : World σ}
    (h : (setUpAll l a space cs w).1 = .panic m) : l.Panics m := by
  induction cs generalizing w with
  | nil => cases h
  | cons c rest ih =>
    obtain ⟨hc, hrest⟩ := List.forall_mem_cons.mp hcs
    simp only [setUpAll] at h
    split at h
    · rename_i m' w₁ hrun
      obtain rfl := Outcome.panic.inj h
      exact setUp_panics hc (congrArg Prod.fst hrun)
    · split at h
      · cases h
      · exact ih hrest h
    · split at h
      · rename_i m' w₂ hall
        exact ih hrest ((congrArg Prod.fst hall).trans h)
      · cases h

theorem setUpArchive_panics {a : Listed} {space : NamespaceId} {w : World σ} {m : Option String}
    (h : (setUpArchive l a space w).1 = .panic m) : l.Panics m := by
  simp only [setUpArchive] at h
  split at h
  · rename_i m' hdiscover
    obtain rfl := Outcome.panic.inj h
    exact .inl (Candidate.factory_of_discover hdiscover)
  · cases h
  · rename_i cs hcs
    refine setUpAll_panics (fun c hc => ?_) h
    exact Candidate.isFrom_of_discover hcs c (List.mem_of_mem_filter hc)

theorem setUpListed_panics {listed : List Listed} {w : World σ} {m : Option String}
    (h : (setUpListed l listed w).1 = .panic m) : l.Panics m := by
  induction listed generalizing w with
  | nil => cases h
  | cons a rest ih =>
    rw [setUpListed_cons] at h
    split at h
    · rename_i m' w₁ hrun
      obtain rfl := Outcome.panic.inj h
      exact setUpArchive_panics (congrArg Prod.fst hrun)
    · split at h
      · rename_i m' w₂ hall
        exact ih ((congrArg Prod.fst hall).trans h)
      · cases h

theorem setUpArchive_ends (h : l.Avoids .panic) (a : Listed) (space : NamespaceId) (w : World σ) :
    ∃ p w', setUpArchive l a space w = (.ok p, w') :=
  Outcome.exists_ok fun m hpanic => h.not_panics m (setUpArchive_panics hpanic)

theorem setUpListed_ends (h : l.Avoids .panic) (listed : List Listed) (w : World σ) :
    ∃ results w', setUpListed l listed w = (.ok results, w') :=
  Outcome.exists_ok fun m hpanic => h.not_panics m (setUpListed_panics hpanic)

theorem follows_of_setUpListed {listed : List Listed} {w w' : World σ}
    {results : List SetupResult} (h : setUpListed l listed w = (.ok results, w')) :
    w.spaces.Follows listed w'.spaces := by
  obtain ⟨n, hfollows, hall⟩ := setUpListed_follows l listed w
  rwa [hall ⟨results, by rw [h]⟩, h] at hfollows

theorem setUpListed_size {listed : List Listed} {w w' : World σ} {results : List SetupResult}
    (h : setUpListed l listed w = (.ok results, w')) :
    w'.spaces.size = w.spaces.size + listed.length :=
  (follows_of_setUpListed h).size

theorem setUpListed_at (h : l.Avoids .panic) {listed : List Listed} {k : Nat} {a : Listed}
    (hk : listed[k]? = some a) (w : World σ) :
    ∃ (earlier : List SetupResult) (before : World σ) (p : Progress) (after : World σ)
      (later : List SetupResult) (w' : World σ),
      setUpListed l (listed.take k) w = (.ok earlier, before) ∧
      setUpArchive l a ⟨w.spaces.size + k⟩ (before.registering a) = (.ok p, after) ∧
      setUpListed l (listed.drop (k + 1)) (after.emit (p.events a)) = (.ok later, w') ∧
      setUpListed l listed w = (.ok (earlier ++ (p.results ++ later)), w') ∧
      before.spaces.size = w.spaces.size + k ∧ after.spaces.size = w.spaces.size + k + 1 := by
  obtain ⟨hlt, hget⟩ := List.getElem?_eq_some_iff.mp hk
  obtain ⟨earlier, before, hearlier⟩ := setUpListed_ends h (listed.take k) w
  have hbefore := setUpListed_size hearlier
  rw [List.length_take_of_le (Nat.le_of_lt hlt)] at hbefore
  obtain ⟨p, after, hp⟩ := setUpArchive_ends h a ⟨w.spaces.size + k⟩ (before.registering a)
  have hafter := setUpArchive_size l a ⟨w.spaces.size + k⟩ (before.registering a)
  rw [hp, World.size_registering, hbefore] at hafter
  obtain ⟨later, w', hlater⟩ := setUpListed_ends h (listed.drop (k + 1)) (after.emit (p.events a))
  refine ⟨earlier, before, p, after, later, w', hearlier, hp, hlater, ?_, hbefore, hafter⟩
  have hsplit : listed = listed.take k ++ a :: listed.drop (k + 1) := by
    rw [← hget, ← List.drop_eq_getElem_cons hlt, List.take_append_drop]
  rw [hsplit, setUpListed_append, hearlier]
  simp only
  rw [setUpListed_cons, hbefore, hp]
  simp only [hlater]

theorem setUpListed_disk (h : l.Avoids .change) (listed : List Listed) {w : World σ}
    (hquiet : w.Quiet) :
    (setUpListed l listed w).2.disk = w.disk ∧ (setUpListed l listed w).2.Quiet := by
  refine setUpListed_keeps l (P := fun w' => w'.disk = w.disk ∧ w'.Quiet) ?_ ?_ ?_ ?_ listed
    ⟨rfl, hquiet⟩
  · intro w' events hw'
    exact hw'
  · intro w' space type hw'
    rw [hw'.2.meanwhile]
    exact hw'
  · intro w' a hw'
    exact hw'
  · intro c hc i w' hw'
    refine ⟨(Script.run_disk _ (h.setup hc i) w').trans hw'.1, ?_⟩
    rw [World.Quiet, Script.run_outside]
    exact hw'.2

end Ends

section Spaces

variable {l}

theorem setUp_bound (hl : l.setup = Setup.standard) {a : Listed} {space : NamespaceId}
    {c : Candidate} {w w' : World σ} {r : SetupResult} (h : setUp l a space c w = (.ok r, w')) :
    r.plugin = c.type ∧ r.archive = a.index.path ∧ r.space = space := by
  obtain ⟨w₀, -, hmade⟩ := setUp_eq_ok h
  rw [hl] at hmade
  exact Setup.standard_bound hmade

theorem Course.bound (hl : l.setup = Setup.standard) {a : Listed} {space : NamespaceId}
    {cs : List Candidate} {w w' : World σ} {p : Progress} (h : Course l a space cs w p w') :
    (p.results.map (·.plugin)).Sublist (cs.map (·.type)) ∧
      ∀ r ∈ p.results, r.archive = a.index.path ∧ r.space = space := by
  induction h with
  | done => simp
  | stopped hc he => simp
  | failed hc he _ ih => exact ⟨ih.1.cons _, ih.2⟩
  | made hc _ ih =>
    obtain ⟨hplugin, hbound⟩ := setUp_bound hl hc
    refine ⟨?_, List.forall_mem_cons.mpr ⟨hbound, ih.2⟩⟩
    rw [List.map_cons, List.map_cons, hplugin]
    exact ih.1.cons_cons _

theorem setUpArchive_space (hl : l.setup = Setup.standard) {a : Listed} {space : NamespaceId}
    {w w' : World σ} {p : Progress} (h : setUpArchive l a space w = (.ok p, w')) :
    ∀ r ∈ p.results, r.space = space := by
  obtain ⟨e, -, rfl, -⟩ | ⟨cs, -, hcourse⟩ := setUpArchive_eq_ok h
  · simp
  · exact fun r hr => ((hcourse.bound hl).2 r hr).2

theorem setUpListed_space (hl : l.setup = Setup.standard) {listed : List Listed}
    {w w' : World σ} {results : List SetupResult}
    (h : setUpListed l listed w = (.ok results, w')) :
    ∀ r ∈ results, w.spaces.size ≤ r.space.index ∧ r.space.index < w'.spaces.size := by
  rw [← pass_iff] at h
  induction h with
  | done => simp
  | @next a rest w p w₁ later w' hp hlater ih =>
    have hsize := size_of_setUpArchive hp
    have hle : w₁.spaces.size ≤ w'.spaces.size := hlater.grows.size_le
    intro r hr
    rcases List.mem_append.mp hr with hr | hr
    · rw [setUpArchive_space hl hp r hr]
      exact ⟨Nat.le_refl _, Nat.lt_of_lt_of_le (by simp [hsize]) hle⟩
    · obtain ⟨hlower, hupper⟩ := ih r hr
      rw [World.spaces_emit, hsize] at hlower
      exact ⟨by omega, hupper⟩

end Spaces

end Loader

end PluginAgent
