import PluginAgent.Proofs.ResultOrder

namespace PluginAgent

namespace Archive

def Index.offers (index : Index) (type : ClassName) : Bool :=
  index.types.contains type && index.contains type.entryPath

def offers (disk : Disk) (archive : String) (type : ClassName) : Bool :=
  match Index.ofFile disk archive with
  | .ok index => index.offers type
  | .error _ => false

theorem Index.offers_iff {index : Index} {type : ClassName} :
    index.offers type = true ↔ type ∈ index.types ∧ index.contains type.entryPath = true := by
  rw [offers, Bool.and_eq_true, List.contains_iff_mem]

end Archive

def SetupResult.sources (results : List SetupResult) (type : ClassName) : List String :=
  (results.filter (·.plugin = type)).map (·.archive)

namespace SetupResult

variable {results : List SetupResult} {type : ClassName}

@[simp] theorem sources_nil : sources [] type = [] :=
  rfl

@[simp] theorem sources_append (later : List SetupResult) :
    sources (results ++ later) type = sources results type ++ sources later type := by
  simp [sources]

theorem mem_sources {archive : String} :
    archive ∈ sources results type ↔ ∃ r ∈ results, r.plugin = type ∧ r.archive = archive := by
  simp [sources, and_assoc]

theorem length_sources_le_one (h : (results.map (·.plugin)).Nodup) :
    (sources results type).length ≤ 1 := by
  have hcount := List.nodup_iff_count_le_one.mp h type
  rw [List.count, List.countP_map, List.countP_eq_length_filter] at hcount
  rw [sources, List.length_map]
  exact hcount

end SetupResult

def Listed.offering (listed : List Listed) (type : ClassName) : List String :=
  (listed.filter (·.index.offers type)).map (·.index.path)

theorem Listed.offering_eq {disk : Disk} {archives : List String} {listed : List Listed}
    {events : List Event} (h : ofArchives disk archives = (.ok listed, events)) (type : ClassName) :
    offering listed type = archives.filter (Archive.offers disk · type) := by
  have hopened := ofArchives_eq_ok archives h
  clear h
  induction hopened with
  | nil => rfl
  | @cons archive a rest later hfirst _ ih =>
    have hpath : a.index.path = archive := Archive.Index.path_ofFile hfirst.1
    have hoffers : Archive.offers disk archive type = a.index.offers type := by
      rw [Archive.offers, hfirst.1]
    rw [List.filter_cons, hoffers, ← ih, offering, List.filter_cons]
    split
    · rw [List.map_cons, hpath, offering]
    · rfl

namespace Loader

variable {σ : Type} {l : Loader σ}

open SetupResult

theorem setUpArchive_sources (hl : l.setup = Setup.standard) {a : Listed} {space : NamespaceId}
    {w w' : World σ} {p : Progress} (h : setUpArchive l a space w = (.ok p, w'))
    (type : ClassName) : (sources p.results type).Sublist (Listed.offering [a] type) := by
  obtain ⟨hsublist, hof⟩ := setUpArchive_isOf hl h
  have hone : (sources p.results type).length ≤ 1 :=
    length_sources_le_one (a.index.nodup_types.sublist hsublist)
  -- the types of a descriptor are distinct, so there is at most one result to account for
  cases hsources : sources p.results type with
  | nil => exact List.nil_sublist _
  | cons archive more =>
    rw [hsources, List.length_cons] at hone
    obtain rfl : more = [] := List.eq_nil_of_length_eq_zero (by omega)
    obtain ⟨r, hr, rfl, rfl⟩ := mem_sources.mp (hsources ▸ List.mem_singleton_self archive)
    have hoffers : a.index.offers r.plugin = true :=
      Archive.Index.offers_iff.mpr ⟨(hof r hr).listed, (hof r hr).packaged⟩
    simp [Listed.offering, hoffers, (hof r hr).archive]

theorem setUpListed_sources (hl : l.setup = Setup.standard) {listed : List Listed} {w w' : World σ}
    {results : List SetupResult} (h : setUpListed l listed w = (.ok results, w'))
    (type : ClassName) : (sources results type).Sublist (Listed.offering listed type) := by
  rw [← pass_iff] at h
  induction h with
  | done => exact .slnil
  | @next a rest w p w₁ later w' hp _ ih =>
    have hsplit : Listed.offering (a :: rest) type =
        Listed.offering [a] type ++ Listed.offering rest type := by
      rw [Listed.offering, ← List.singleton_append, List.filter_append, List.map_append]
      rfl
    rw [sources_append, hsplit]
    exact (setUpArchive_sources hl hp type).append ih

theorem sources_offer (disabled : Disabled) (catalog : Catalog) (archives : List String)
    (hdistinct : archives.Nodup) (w w' : World σ) (results : List SetupResult)
    (h : load ⟨disabled, catalog, Setup.standard⟩ archives w = (.ok results, w'))
    (type : ClassName) :
    (sources results type).Sublist (archives.filter (Archive.offers w.disk · type)) ∧
      (sources results type).Nodup ∧
      ((archives.filter (Archive.offers w.disk · type)).length ≤ 1 →
        (sources results type).length ≤ 1) := by
  obtain ⟨listed, events, w₁, hlisted, hall, -⟩ := load_eq_ok h
  have hsublist := setUpListed_sources rfl hall type
  rw [Listed.offering_eq hlisted] at hsublist
  exact ⟨hsublist, (hdistinct.sublist List.filter_sublist).sublist hsublist,
    hsublist.length_le.trans⟩

open Archive

def shadowEntries : List (String × ByteArray) :=
  (manifestEntry, "Probe-Plugin-Package: com.shadow\n".toUTF8) :: mainEntries ⟨#[2]⟩

def bareEntries : List (String × ByteArray) :=
  [(servicesFolder ++ Reserved.pluginInterface, mainType.text.toUTF8)]

def rivalCatalog : Catalog :=
  .uniform [mainType] fun _ => .done (.ok ())

def rivalDisk : Disk :=
  packedDisk [("main.tgz", mainEntries ⟨#[1]⟩), ("shadow.tgz", shadowEntries),
    ("bare.tgz", bareEntries)]

theorem packed_main : Packed rivalDisk "main.tgz" (mainEntries ⟨#[1]⟩) :=
  packed_mainEntries ⟨by decide, by decide, by decide, by decide⟩ rfl (by decide)

theorem packable_shadowEntries : ∀ e ∈ shadowEntries, Packable e := by
  have hname : ∀ e ∈ shadowEntries, EntryName.ofPath e.1.toUTF8.data.toList = .ok e.1 := by
    decide +kernel
  have hplain : ∀ e ∈ shadowEntries, 0 ∉ e.1.toUTF8.data.toList := by decide +kernel
  have hcontent : ∀ e ∈ shadowEntries, e.2.size ≤ maxMetadata := by decide +kernel
  exact fun e he => ⟨hname e he, hplain e he, Nat.le_trans (hcontent e he) (by decide),
    fun _ => hcontent e he⟩

theorem packed_shadow : Packed rivalDisk "shadow.tgz" shadowEntries :=
  packed_packedDisk ⟨by decide, by decide, by decide, by decide⟩ rfl packable_shadowEntries
    (by decide) (by decide +kernel)

theorem packed_bare : Packed rivalDisk "bare.tgz" bareEntries := by
  refine packed_packedDisk ⟨by decide, by decide, by decide, by decide⟩ rfl ?_ (by decide)
    (by decide +kernel)
  intro e he
  refine packable_shadowEntries e (List.mem_cons_of_mem _ ?_)
  rw [List.mem_singleton.mp he]
  exact List.mem_cons_self

theorem sources_beside_bare : ∃ (w : World Unit) (results : List SetupResult),
    load ⟨{}, rivalCatalog, Setup.standard⟩ ["main.tgz", "bare.tgz"]
        { disk := rivalDisk, own := () } = (.ok results, w) ∧
      sources results mainType = ["main.tgz"] ∧
      (["main.tgz", "bare.tgz"].filter (Archive.offers rivalDisk · mainType)).length ≤ 1 ∧
      (sources results mainType).length ≤ 1 := by
  obtain ⟨w, hload⟩ := load_packed ⟨{}, rivalCatalog, Setup.standard⟩
    ({ disk := rivalDisk, own := () } : World Unit)
    [("main.tgz", mainEntries ⟨#[1]⟩), ("bare.tgz", bareEntries)]
    [⟨mainType, "main.tgz", ⟨0⟩, [], []⟩]
    (by simp [packed_main, packed_bare]) (by decide +kernel)
  have hbare : Archive.offers rivalDisk "bare.tgz" mainType = false := by
    rw [Archive.offers, packed_bare.ofFile_eq]
    decide +kernel
  have hone : (["main.tgz", "bare.tgz"].filter
      (Archive.offers rivalDisk · mainType)).length ≤ 1 := by
    rw [List.filter_cons, List.filter_cons_of_neg (by simp [hbare])]
    split <;> simp
  obtain ⟨-, -, hsources⟩ := sources_offer _ _ _ (by decide) _ _ _ hload mainType
  exact ⟨w, _, hload, rfl, hone, hsources hone⟩

theorem shadow_loaded_too : ∃ (w : World Unit) (results : List SetupResult),
    ["main.tgz", "shadow.tgz"].Nodup ∧
      load ⟨{}, rivalCatalog, Setup.standard⟩ ["main.tgz", "shadow.tgz"]
        { disk := rivalDisk, own := () } = (.ok results, w) ∧
      sources results mainType = ["main.tgz", "shadow.tgz"] := by
  obtain ⟨w, hload⟩ := load_packed ⟨{}, rivalCatalog, Setup.standard⟩
    ({ disk := rivalDisk, own := () } : World Unit)
    [("main.tgz", mainEntries ⟨#[1]⟩), ("shadow.tgz", shadowEntries)]
    [⟨mainType, "main.tgz", ⟨0⟩, [], []⟩, ⟨mainType, "shadow.tgz", ⟨1⟩, [], []⟩]
    (by simp [packed_main, packed_shadow]) (by decide +kernel)
  exact ⟨w, _, by decide, hload, rfl⟩

end Loader

end PluginAgent
