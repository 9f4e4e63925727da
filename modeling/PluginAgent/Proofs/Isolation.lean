import PluginAgent.Proofs.LoadParts
import PluginAgent.Proofs.PackedEntries

namespace PluginAgent

theorem Archive.Index.ofFile_congr {d₁ d₂ : Disk} {archive : String}
    (h : d₁.entry archive = d₂.entry archive) :
    Archive.Index.ofFile d₁ archive = Archive.Index.ofFile d₂ archive := by
  simp only [ofFile, Contents.at, h]

namespace Loader

variable {σ : Type} {l : Loader σ} {a : Listed} {space : NamespaceId}

theorem setUp_alike {c : Candidate} (h : ∀ k i, (l.setup c.plugin i).Avoids k) {w₁ w₂ : World σ}
    (hw : World.Alike space a.index.path w₁ w₂) :
    (setUp l a space c w₁).1 = (setUp l a space c w₂).1 ∧
      World.Alike space a.index.path (setUp l a space c w₁).2 (setUp l a space c w₂).2 := by
  have hready := hw.ready [loading a c] c.type
  simp only [setUp, verify, Archive.accessFlaw?, hready.entry]
  split
  · exact ⟨rfl, hready⟩
  · exact Script.run_blind (World.Alike.blind ⟨space, c.type, a.index.path⟩ _) _
      (fun k => h k _) hready

theorem setUpAll_alike (cs : List Candidate)
    (h : ∀ c ∈ cs, ∀ k i, (l.setup c.plugin i).Avoids k) :
    ∀ {w₁ w₂ : World σ}, World.Alike space a.index.path w₁ w₂ →
      (setUpAll l a space cs w₁).1 = (setUpAll l a space cs w₂).1 ∧
        World.Alike space a.index.path (setUpAll l a space cs w₁).2
          (setUpAll l a space cs w₂).2 := by
  induction cs with
  | nil => intro w₁ w₂ hw; exact ⟨rfl, hw⟩
  | cons c rest ih =>
    intro w₁ w₂ hw
    obtain ⟨houtcome, hafter⟩ := setUp_alike (h c List.mem_cons_self) hw
    have hlater {w₁ w₂ : World σ} := @ih (fun c hc => h c (List.mem_cons_of_mem _ hc)) w₁ w₂
    simp only [setUpAll]
    cases hrun₁ : setUp l a space c w₁ with
    | mk outcome w₁' =>
      cases hrun₂ : setUp l a space c w₂ with
      | mk outcome' w₂' =>
        rw [hrun₁, hrun₂] at houtcome hafter
        obtain rfl : outcome = outcome' := houtcome
        cases outcome with
        | panic m => exact ⟨rfl, hafter⟩
        | error e =>
          simp only
          split
          · exact ⟨rfl, hafter⟩
          · exact hlater ⟨hafter.space, hafter.entry, hafter.quiet₁, hafter.quiet₂⟩
        | ok r =>
          obtain ⟨hall, hend⟩ := hlater hafter
          simp only
          cases hall₁ : setUpAll l a space rest w₁' with
          | mk outcome w₁'' =>
            cases hall₂ : setUpAll l a space rest w₂' with
            | mk outcome' w₂'' =>
              rw [hall₁, hall₂] at hall hend
              obtain rfl : outcome = outcome' := hall
              cases outcome with
              | panic m => exact ⟨rfl, hend⟩
              | error e => exact e.elim
              | ok p => exact ⟨rfl, hend⟩

theorem setUpArchive_alike (h : ∀ k, l.Avoids k) {w₁ w₂ : World σ}
    (hw : World.Alike space a.index.path w₁ w₂) :
    (setUpArchive l a space w₁).1 = (setUpArchive l a space w₂).1 ∧
      World.Alike space a.index.path (setUpArchive l a space w₁).2
        (setUpArchive l a space w₂).2 := by
  simp only [setUpArchive]
  split
  · exact ⟨rfl, hw⟩
  · exact ⟨rfl, hw⟩
  · rename_i cs hcs
    refine setUpAll_alike _ ?_ ⟨hw.space, hw.entry, hw.quiet₁, hw.quiet₂⟩
    intro c hc k i
    exact (h k).setup (Candidate.isFrom_of_discover hcs c (List.mem_of_mem_filter hc)) i

theorem filter_space_eq_self {results : List SetupResult} (h : ∀ r ∈ results, r.space = space) :
    results.filter (·.space = space) = results :=
  List.filter_eq_self.mpr fun r hr => by simp [h r hr]

theorem filter_space_eq_nil {results : List SetupResult} (h : ∀ r ∈ results, r.space ≠ space) :
    results.filter (·.space = space) = [] :=
  List.filter_eq_nil_iff.mpr fun r hr => by simp [h r hr]

/-- What becomes of the archive at a position: it is set up in a namespace of its own, on the files
that the load began with, and nothing after it touches that namespace. -/
structure LoadedAt (l : Loader σ) (archives : List String) (w : World σ) (k : Nat)
    (index : Archive.Index) (before : World σ) (p : Progress) (after : World σ)
    (results : List SetupResult) (w' : World σ) : Prop where
  size : before.spaces.size = k
  disk : before.disk = w.disk
  quiet : before.Quiet
  part : setUpArchive l ⟨index, index.packages.1⟩ ⟨k⟩
    (before.registering ⟨index, index.packages.1⟩) = (.ok p, after)
  whole : l.load archives w = (.ok results, w')
  own : results.filter (·.space = ⟨k⟩) = p.results
  space : w'.spaces.get ⟨k⟩ = after.spaces.get ⟨k⟩

theorem load_at (hl : l.setup = Setup.standard) (hpanic : l.Avoids .panic)
    (hchange : l.Avoids .change) {archives : List String} {w : World σ} (hfresh : w.spaces = {})
    (hquiet : w.Quiet) (hopen : ∀ x ∈ archives, ∃ index, Archive.Index.ofFile w.disk x = .ok index)
    {k : Nat} {archive : String} (hk : archives[k]? = some archive) {index : Archive.Index}
    (hindex : Archive.Index.ofFile w.disk archive = .ok index) :
    ∃ before p after results w', LoadedAt l archives w k index before p after results w' := by
  obtain ⟨listed, events, hlisted⟩ := Listed.ofArchives_opens archives hopen
  obtain ⟨index', hindex', hget⟩ := Listed.ofArchives_getElem? hlisted hk
  obtain rfl := Except.ok.inj (hindex.symm.trans hindex')
  obtain ⟨earlier, before, p, after, later, w', hearlier, hp, hlater, hall, hbefore, hafter⟩ :=
    setUpListed_at hpanic hget (w.emit events)
  have hnone : (w.emit events).spaces.size = 0 := by simp [World.emit, hfresh, Namespaces.size]
  rw [hnone, Nat.zero_add] at hp hbefore hafter
  have hdisk := setUpListed_disk hchange (listed.take k) (w := w.emit events) hquiet
  rw [hearlier] at hdisk
  refine ⟨before, p, after, earlier ++ (p.results ++ later),
    w'.emit [loaded archives.length (earlier ++ (p.results ++ later)).length],
    ⟨hbefore, hdisk.1, hdisk.2, hp, ?_, ?_, ?_⟩⟩
  · exact load_of_setUpListed hlisted hall
  · have hfirst := setUpListed_space hl hearlier
    have hlast := setUpListed_space hl hlater
    rw [List.filter_append, List.filter_append, filter_space_eq_self (setUpArchive_space hl hp),
      filter_space_eq_nil, filter_space_eq_nil, List.nil_append, List.append_nil]
    · intro r hr hspace
      have hle := (hlast r hr).1
      simp only [World.emit, hafter, hspace] at hle
      omega
    · intro r hr hspace
      have hlt := (hfirst r hr).2
      simp only [hbefore, hspace] at hlt
      omega
  · have hkept := setUpListed_getElem?_of_lt l (listed.drop (k + 1)) (k := k)
      (w := after.emit (p.events ⟨index, index.packages.1⟩)) (by simp [World.emit, hafter])
    rw [hlater] at hkept
    simp only [Namespaces.get, World.emit] at hkept ⊢
    rw [hkept]

theorem get_registering {before : World σ} {k : Nat} (h : before.spaces.size = k) (a : Listed) :
    (before.registering a).spaces.get ⟨k⟩ =
      .ok ⟨a.index.path, a.packages, .ofPackages a.packages, []⟩ := by
  rw [Namespaces.get_eq_ok_iff, ← h]
  exact World.getElem?_registering before a

theorem LoadedAt.alike (h : ∀ k, l.Avoids k) {archives₁ archives₂ : List String} {w₁ w₂ : World σ}
    {k : Nat} {index : Archive.Index} {before₁ before₂ after₁ after₂ w₁' w₂' : World σ}
    {p₁ p₂ : Progress} {results₁ results₂ : List SetupResult}
    (h₁ : LoadedAt l archives₁ w₁ k index before₁ p₁ after₁ results₁ w₁')
    (h₂ : LoadedAt l archives₂ w₂ k index before₂ p₂ after₂ results₂ w₂')
    (hfile : w₁.disk.entry index.path = w₂.disk.entry index.path) :
    results₁.filter (·.space = ⟨k⟩) = results₂.filter (·.space = ⟨k⟩) ∧
      ∃ s, w₁'.spaces.get ⟨k⟩ = .ok s ∧ w₂'.spaces.get ⟨k⟩ = .ok s := by
  have halike : World.Alike ⟨k⟩ index.path (before₁.registering ⟨index, index.packages.1⟩)
      (before₂.registering ⟨index, index.packages.1⟩) := by
    refine ⟨⟨_, get_registering h₁.size _, get_registering h₂.size _, rfl⟩, ?_, h₁.quiet, h₂.quiet⟩
    simp only [World.registering, h₁.disk, h₂.disk, hfile]
  obtain ⟨hsame, hafter⟩ := setUpArchive_alike (a := ⟨index, index.packages.1⟩) h halike
  rw [h₁.part, h₂.part] at hsame hafter
  obtain rfl : p₁ = p₂ := Outcome.ok.inj hsame
  obtain ⟨s, hs₁, hs₂, -⟩ := hafter.space
  exact ⟨h₁.own.trans h₂.own.symm, s, h₁.space.trans hs₁, h₂.space.trans hs₂⟩

theorem load_isolated (disabled : Disabled) (catalog : Catalog) (hcatalog : ∀ k, catalog.Avoids k)
    (archives₁ archives₂ : List String) (w₁ w₂ : World σ)
    (hfresh₁ : w₁.spaces = {}) (hfresh₂ : w₂.spaces = {}) (hquiet₁ : w₁.Quiet) (hquiet₂ : w₂.Quiet)
    (hopen₁ : ∀ x ∈ archives₁, ∃ index, Archive.Index.ofFile w₁.disk x = .ok index)
    (hopen₂ : ∀ x ∈ archives₂, ∃ index, Archive.Index.ofFile w₂.disk x = .ok index)
    (k : Nat) (archive : String) (hk₁ : archives₁[k]? = some archive)
    (hk₂ : archives₂[k]? = some archive) (hfile : w₁.disk.entry archive = w₂.disk.entry archive) :
    ∃ (results₁ results₂ : List SetupResult) (w₁' w₂' : World σ),
      load ⟨disabled, catalog, Setup.standard⟩ archives₁ w₁ = (.ok results₁, w₁') ∧
      load ⟨disabled, catalog, Setup.standard⟩ archives₂ w₂ = (.ok results₂, w₂') ∧
      results₁.filter (·.space = ⟨k⟩) = results₂.filter (·.space = ⟨k⟩) ∧
      (∃ packages, w₁'.spaces.packages ⟨k⟩ = .ok packages ∧
        w₂'.spaces.packages ⟨k⟩ = .ok packages) ∧
      (∀ name, ∃ answer, w₁'.spaces.inScope ⟨k⟩ name = .ok answer ∧
        w₂'.spaces.inScope ⟨k⟩ name = .ok answer) ∧
      ∃ names, w₁'.spaces.definedClasses ⟨k⟩ = .ok names ∧
        w₂'.spaces.definedClasses ⟨k⟩ = .ok names := by
  have hall (k : Liberty) : (⟨disabled, catalog, Setup.standard⟩ : Loader σ).Avoids k :=
    avoids_standard (hcatalog k)
  obtain ⟨index, hindex₁⟩ := hopen₁ archive (List.mem_of_getElem? hk₁)
  have hindex₂ : Archive.Index.ofFile w₂.disk archive = .ok index :=
    (Archive.Index.ofFile_congr hfile).symm.trans hindex₁
  obtain ⟨before₁, p₁, after₁, results₁, w₁', h₁⟩ :=
    load_at rfl (hall _) (hall _) hfresh₁ hquiet₁ hopen₁ hk₁ hindex₁
  obtain ⟨before₂, p₂, after₂, results₂, w₂', h₂⟩ :=
    load_at rfl (hall _) (hall _) hfresh₂ hquiet₂ hopen₂ hk₂ hindex₂
  obtain ⟨hresults, s, hs₁, hs₂⟩ :=
    h₁.alike hall h₂ (by rwa [Archive.Index.path_ofFile hindex₁])
  refine ⟨results₁, results₂, w₁', w₂', h₁.whole, h₂.whole, hresults, ?_, ?_, ?_⟩
  · exact ⟨s.packages, by rw [Namespaces.packages, hs₁]; rfl,
      by rw [Namespaces.packages, hs₂]; rfl⟩
  · intro name
    exact ⟨s.scope.accepts name, by rw [Namespaces.inScope, hs₁]; rfl,
      by rw [Namespaces.inScope, hs₂]; rfl⟩
  · exact ⟨s.defined.map (·.1), by rw [Namespaces.definedClasses, hs₁]; rfl,
      by rw [Namespaces.definedClasses, hs₂]; rfl⟩

open Archive

def mainCatalog : Catalog :=
  ⟨[(mainType, .ok fun _ => .inject mainType.text .done)]⟩

theorem mainCatalog_avoids (k : Liberty) : mainCatalog.Avoids k := by
  refine ⟨?_, ?_⟩
  · rintro - type m hmem
    simp [mainCatalog] at hmem
  · intro type plugin hmem i
    simp only [mainCatalog, List.mem_singleton, Prod.mk.injEq] at hmem
    obtain rfl := Outcome.ok.inj hmem.2
    exact fun _ => trivial

def shadowedWorld : World Unit :=
  { disk := packedDisk [("first.tgz", mainEntries ⟨#[2]⟩), ("main.tgz", mainEntries ⟨#[1]⟩)]
    own := () }

def unshadowedWorld : World Unit :=
  { disk := packedDisk [("first.tgz", []), ("main.tgz", mainEntries ⟨#[1]⟩)]
    own := () }

theorem load_alike_shadowed :
    ∃ (results₁ results₂ : List SetupResult) (w₁ w₂ : World Unit),
      load ⟨{}, mainCatalog, Setup.standard⟩ ["first.tgz", "main.tgz"] shadowedWorld =
        (.ok results₁, w₁) ∧
      load ⟨{}, mainCatalog, Setup.standard⟩ ["first.tgz", "main.tgz"] unshadowedWorld =
        (.ok results₂, w₂) ∧
      results₁.filter (·.space = ⟨1⟩) = results₂.filter (·.space = ⟨1⟩) ∧
      w₁.spaces.definedClasses ⟨1⟩ = w₂.spaces.definedClasses ⟨1⟩ := by
  have hfirst : EntryName.IsPart "first.tgz".toList :=
    ⟨by decide, by decide, by decide, by decide⟩
  have hmain : EntryName.IsPart "main.tgz".toList :=
    ⟨by decide, by decide, by decide, by decide⟩
  have hshadow : Packed shadowedWorld.disk "first.tgz" (mainEntries ⟨#[2]⟩) :=
    packed_mainEntries hfirst rfl (by decide)
  have hempty : Packed unshadowedWorld.disk "first.tgz" [] :=
    packed_packedDisk hfirst rfl (by simp) (by simp) (by decide)
  have hmain₁ : Packed shadowedWorld.disk "main.tgz" (mainEntries ⟨#[1]⟩) :=
    packed_mainEntries hmain rfl (by decide)
  have hmain₂ : Packed unshadowedWorld.disk "main.tgz" (mainEntries ⟨#[1]⟩) :=
    packed_mainEntries hmain rfl (by decide)
  obtain ⟨results₁, results₂, w₁, w₂, hload₁, hload₂, hresults, -, -, names, hnames₁, hnames₂⟩ :=
    load_isolated {} mainCatalog mainCatalog_avoids ["first.tgz", "main.tgz"]
      ["first.tgz", "main.tgz"] shadowedWorld unshadowedWorld rfl rfl (fun _ _ _ => rfl)
      (fun _ _ _ => rfl) (by simpa using ⟨hshadow.opens, hmain₁.opens⟩)
      (by simpa using ⟨hempty.opens, hmain₂.opens⟩) 1 "main.tgz" rfl rfl
      (hmain₁.file.trans hmain₂.file.symm)
  exact ⟨results₁, results₂, w₁, w₂, hload₁, hload₂, hresults, hnames₁.trans hnames₂.symm⟩

end Loader

end PluginAgent
