import PluginAgent.Proofs.Isolation

namespace PluginAgent

theorem pairwise_idxOf {α : Type} [DecidableEq α] {xs : List α} (h : xs.Nodup) :
    xs.Pairwise fun x y => xs.idxOf x < xs.idxOf y := by
  rw [List.pairwise_iff_getElem]
  intro i j hi hj hij
  rwa [h.idxOf_getElem, h.idxOf_getElem]

theorem Archive.Index.types_of_mem {index : Archive.Index} {type : ClassName}
    (h : type ∈ index.types) :
    ∃ d, index.descriptor Reserved.pluginInterface = .ok (some d) ∧ index.types = d.types := by
  unfold types at h ⊢
  split at h
  · rename_i d hd
    exact ⟨d, hd, rfl⟩
  · cases h

def Listed.typesAt (listed : List Listed) (first n : Nat) : List ClassName :=
  ((listed[n - first]?).map (·.index.types)).getD []

theorem Listed.typesAt_add {listed : List Listed} {first k : Nat} {a : Listed}
    (hk : listed[k]? = some a) : typesAt listed first (first + k) = a.index.types := by
  simp [typesAt, hk]

def SetupResult.place (listed : List Listed) (first : Nat) (r : SetupResult) : Nat × Nat :=
  (r.space.index - first, (Listed.typesAt listed first r.space.index).idxOf r.plugin)

theorem SetupResult.place_eq {r : SetupResult} {listed : List Listed} {first k : Nat} {a : Listed}
    (hk : listed[k]? = some a) (hspace : r.space = ⟨first + k⟩) :
    r.place listed first = (k, a.index.types.idxOf r.plugin) := by
  simp [place, hspace, Listed.typesAt_add hk]

structure SetupResult.IsOf {σ : Type} (r : SetupResult) (l : Loader σ) (index : Archive.Index) :
    Prop where
  archive : r.archive = index.path
  listed : r.plugin ∈ index.types
  packaged : index.contains r.plugin.entryPath = true
  known : ∃ plugin, l.catalog.factory? r.plugin = some (.ok plugin)
  enabled : l.disabled.contains r.plugin.text = false

namespace Loader

variable {σ : Type} {l : Loader σ}

theorem setUpArchive_isOf (hl : l.setup = Setup.standard) {a : Listed} {space : NamespaceId}
    {w w' : World σ} {p : Progress} (h : setUpArchive l a space w = (.ok p, w')) :
    (p.results.map (·.plugin)).Sublist a.index.types ∧ ∀ r ∈ p.results, r.IsOf l a.index := by
  obtain ⟨e, -, rfl, -⟩ | ⟨cs, hcs, hcourse⟩ := setUpArchive_eq_ok h
  · simp
  obtain ⟨htypes, hoffered⟩ := Candidate.discover_eq_ok hcs
  obtain ⟨hsublist, hbound⟩ := hcourse.bound hl
  refine ⟨htypes ▸ hsublist.trans (List.filter_sublist.map _), ?_⟩
  intro r hr
  obtain ⟨c, hc, htype⟩ := List.mem_map.mp (hsublist.subset (List.mem_map_of_mem hr))
  obtain ⟨hmem, henabled⟩ := List.mem_filter.mp hc
  have hc := hoffered c hmem
  refine ⟨(hbound r hr).1, ?_, ?_, ?_, ?_⟩
  · rw [← htypes, ← htype]
    exact List.mem_map_of_mem hmem
  · exact htype ▸ hc.packaged
  · exact ⟨c.plugin, htype ▸ hc.known⟩
  · simpa [Candidate.enabled, htype] using henabled

theorem setUpListed_isOf (hl : l.setup = Setup.standard) {listed : List Listed} {w w' : World σ}
    {results : List SetupResult} (h : setUpListed l listed w = (.ok results, w')) :
    ∀ r ∈ results, ∃ k a, listed[k]? = some a ∧ r.space = ⟨w.spaces.size + k⟩ ∧
      r.IsOf l a.index := by
  rw [← pass_iff] at h
  induction h with
  | done => simp
  | @next a rest w p w₁ later w' hp hlater ih =>
    intro r hr
    rcases List.mem_append.mp hr with hr | hr
    · exact ⟨0, a, rfl, setUpArchive_space hl hp r hr, (setUpArchive_isOf hl hp).2 r hr⟩
    · obtain ⟨k, b, hk, hspace, hof⟩ := ih r hr
      refine ⟨k + 1, b, by simpa using hk, ?_, hof⟩
      rw [hspace, World.spaces_emit, size_of_setUpArchive hp, Nat.add_assoc, Nat.add_comm 1 k]

theorem setUpListed_pairwise (hl : l.setup = Setup.standard) (types : Nat → List ClassName)
    {listed : List Listed} {w w' : World σ} {results : List SetupResult}
    (h : setUpListed l listed w = (.ok results, w'))
    (htypes : ∀ k a, listed[k]? = some a → types (w.spaces.size + k) = a.index.types) :
    results.Pairwise fun r r' => r.space.index < r'.space.index ∨
      r.space.index = r'.space.index ∧
        (types r.space.index).idxOf r.plugin < (types r.space.index).idxOf r'.plugin := by
  rw [← pass_iff] at h
  induction h with
  | done => exact .nil
  | @next a rest w p w₁ later w' hp hlater ih =>
    have hsize := size_of_setUpArchive hp
    have hspace := setUpArchive_space hl hp
    have hbehind := setUpListed_space hl (pass_iff.mp hlater)
    refine List.pairwise_append.mpr ⟨?_, ih ?_, ?_⟩
    · have hordered := (pairwise_idxOf a.index.nodup_types).sublist (setUpArchive_isOf hl hp).1
      refine (List.pairwise_map.mp hordered).imp_of_mem ?_
      intro r r' hr hr' hlt
      refine .inr ⟨by rw [hspace r hr, hspace r' hr'], ?_⟩
      have hown : types w.spaces.size = a.index.types := htypes 0 a rfl
      rwa [hspace r hr, hown]
    · intro k b hk
      have hnext := htypes (k + 1) b (by simpa using hk)
      rwa [World.spaces_emit, hsize, Nat.add_assoc, Nat.add_comm 1 k]
    · intro r hr r' hr'
      have hlower := (hbehind r' hr').1
      rw [World.spaces_emit, hsize] at hlower
      rw [hspace r hr]
      exact .inl hlower

theorem setUpListed_ordered (hl : l.setup = Setup.standard) {listed : List Listed} {w w' : World σ}
    {results : List SetupResult} (h : setUpListed l listed w = (.ok results, w')) :
    results.Pairwise fun r r' => Prod.Lex (· < ·) (· < ·) (r.place listed w.spaces.size)
      (r'.place listed w.spaces.size) := by
  have hbehind := setUpListed_space hl h
  refine (setUpListed_pairwise hl (Listed.typesAt listed w.spaces.size) h
    fun _ _ hk => Listed.typesAt_add hk).imp_of_mem ?_
  intro r r' hr hr' hbefore
  rw [Prod.lex_def]
  rcases hbefore with hspace | ⟨hspace, htype⟩
  · exact .inl (Nat.sub_lt_sub_right (hbehind r hr).1 hspace)
  · refine .inr ⟨congrArg (· - w.spaces.size) hspace, ?_⟩
    simpa [SetupResult.place, hspace] using htype

theorem setUpListed_nodup (hl : l.setup = Setup.standard) {listed : List Listed} {w w' : World σ}
    {results : List SetupResult} (h : setUpListed l listed w = (.ok results, w')) :
    (results.map fun r => ((r.place listed w.spaces.size).1, r.plugin)).Nodup := by
  have hbehind := setUpListed_space hl h
  refine List.pairwise_map.mpr ((setUpListed_ordered hl h).imp_of_mem ?_)
  intro r r' hr hr' hlt hsame
  obtain ⟨hspace, hplugin⟩ := Prod.mk.inj hsame
  have hlower := (hbehind r hr).1
  have hlower' := (hbehind r' hr').1
  have hindex : r.space.index = r'.space.index := by
    simp only [SetupResult.place] at hspace
    omega
  have hplace : r.place listed w.spaces.size = r'.place listed w.spaces.size := by
    simp only [SetupResult.place, hindex, hplugin]
  rw [hplace] at hlt
  exact irrefl _ hlt

theorem results_in_order (disabled : Disabled) (catalog : Catalog) (archives : List String)
    (w w' : World σ) (results : List SetupResult)
    (h : load ⟨disabled, catalog, Setup.standard⟩ archives w = (.ok results, w')) :
    ∃ place : SetupResult → Nat × Nat,
      results.Pairwise (fun r r' => Prod.Lex (· < ·) (· < ·) (place r) (place r')) ∧
      (results.map fun r => ((place r).1, r.plugin)).Nodup ∧
      ∀ r ∈ results, ∃ archive index d s,
        archives[(place r).1]? = some archive ∧
        Archive.Index.ofFile w.disk archive = .ok index ∧
        index.descriptor Reserved.pluginInterface = .ok (some d) ∧ d.types.Nodup ∧
        d.types[(place r).2]? = some r.plugin ∧
        index.contains r.plugin.entryPath = true ∧
        (∃ plugin, catalog.factory? r.plugin = some (.ok plugin)) ∧
        disabled.contains r.plugin.text = false ∧
        r.archive = archive ∧ r.space = ⟨w.spaces.size + (place r).1⟩ ∧
        w'.spaces.get r.space = .ok s ∧ s.archive = archive ∧ s.packages = index.packages.1 := by
  obtain ⟨listed, events, w₁, hlisted, hall, rfl⟩ := load_eq_ok h
  have hordered := setUpListed_ordered rfl hall
  have hnodup := setUpListed_nodup rfl hall
  rw [World.spaces_emit] at hordered hnodup
  refine ⟨SetupResult.place listed w.spaces.size, hordered, hnodup, ?_⟩
  intro r hr
  obtain ⟨k, a, hk, hspace, hof⟩ := setUpListed_isOf rfl hall r hr
  rw [World.spaces_emit] at hspace
  obtain ⟨harchive, hindex, hpackages⟩ := Listed.opened_of_getElem? hlisted hk
  obtain ⟨d, hd, hdtypes⟩ := Archive.Index.types_of_mem hof.listed
  obtain ⟨s, hs, hsof⟩ := (follows_of_setUpListed hall).fresh k a hk
  have hlisted : d.types[d.types.idxOf r.plugin]? = some r.plugin :=
    List.getElem?_idxOf (hdtypes ▸ hof.listed)
  rw [SetupResult.place_eq hk hspace, hdtypes]
  refine ⟨a.index.path, a.index, d, s, harchive, hindex, hd, hdtypes ▸ a.index.nodup_types,
    hlisted, hof.packaged, hof.known, hof.enabled, hof.archive, hspace, ?_, hsof.archive,
    hsof.packages.trans hpackages⟩
  rw [hspace]
  exact Namespaces.get_eq_ok_iff.mpr hs

open Archive in
theorem choir_twice_in_order :
    ∃ (w : World Unit) (place : SetupResult → Nat × Nat),
      let results : List SetupResult :=
        [⟨alto, "choir.tgz", ⟨0⟩, [], []⟩, ⟨bass, "choir.tgz", ⟨0⟩, [], []⟩,
          ⟨alto, "choir.tgz", ⟨1⟩, [], []⟩, ⟨bass, "choir.tgz", ⟨1⟩, [], []⟩]
      load ⟨⟨[soprano.text, tenor.text, baritone.text]⟩, .uniform choir fun _ => .done (.ok ()),
          Setup.standard⟩ ["choir.tgz", "choir.tgz"] { disk := choirDisk, own := () } =
        (.ok results, w) ∧
      results.Pairwise fun r r' => Prod.Lex (· < ·) (· < ·) (place r) (place r') := by
  obtain ⟨w, hload⟩ := load_packed
    ⟨⟨[soprano.text, tenor.text, baritone.text]⟩, .uniform choir fun _ => .done (.ok ()),
      Setup.standard⟩
    ({ disk := choirDisk, own := () } : World Unit)
    [("choir.tgz", choirEntries), ("choir.tgz", choirEntries)]
    [⟨alto, "choir.tgz", ⟨0⟩, [], []⟩, ⟨bass, "choir.tgz", ⟨0⟩, [], []⟩,
      ⟨alto, "choir.tgz", ⟨1⟩, [], []⟩, ⟨bass, "choir.tgz", ⟨1⟩, [], []⟩]
    (by simp [packed_choir]) (by decide +kernel)
  obtain ⟨place, hordered, -, -⟩ := results_in_order _ _ _ _ _ _ hload
  exact ⟨w, place, hload, hordered⟩

end Loader

end PluginAgent
