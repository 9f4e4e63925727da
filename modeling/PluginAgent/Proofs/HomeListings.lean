import PluginAgent.Startup.Layout

namespace PluginAgent

namespace Disk

variable {d : Disk}

theorem isDirectory_iff {path : String} :
    d.isDirectory path = true ↔ d.entry path = .ok .directory := by
  unfold isDirectory
  split <;> simp_all

theorem entry_eq {path : String} : d.entry path =
    match d.locate path with
    | .error e => .error e
    | .ok place => d.entryAt place := by
  unfold entry
  cases d.locate path <;> rfl

theorem entry_congr {d' : Disk} {path : String} (hlocate : d'.locate path = d.locate path)
    (hfind : ∀ place, d.locate path = .ok place → d'.find? place = d.find? place) :
    d'.entry path = d.entry path := by
  rw [entry_eq, entry_eq, hlocate]
  cases hreached : d.locate path with
  | error e => rfl
  | ok place => simp only [entryAt, hfind place hreached]

theorem folder_eq_ok_iff {path : String} {place : List String} :
    d.folder path = .ok place ↔ d.locate path = .ok place ∧ d.find? place = some .directory := by
  unfold folder
  cases d.locate path with
  | error e => simp
  | ok reached =>
    simp only [Except.ok.injEq]
    constructor
    · intro h
      split at h
      · cases h
        exact ⟨rfl, ‹_›⟩
      · cases h
      · cases h
    · rintro ⟨rfl, hfound⟩
      rw [hfound]

theorem list_eq_ok_iff {folder : String} {names : List String} :
    d.list folder = .ok names ↔ ∃ place, d.locate folder = .ok place ∧
      d.find? place = some .directory ∧ d.children place = names := by
  unfold list
  constructor
  · intro h
    cases hfolder : d.folder folder with
    | error e =>
      rw [hfolder] at h
      cases h
    | ok place =>
      rw [hfolder] at h
      obtain ⟨hlocate, hfound⟩ := folder_eq_ok_iff.mp hfolder
      exact ⟨place, hlocate, hfound, Except.ok.inj h⟩
  · rintro ⟨place, hlocate, hfound, rfl⟩
    rw [folder_eq_ok_iff.mpr ⟨hlocate, hfound⟩]
    rfl

theorem list_isOk_iff {folder : String} :
    (∃ names, d.list folder = .ok names) ↔ d.isDirectory folder = true := by
  rw [isDirectory_iff, entry_eq]
  simp only [list_eq_ok_iff]
  cases d.locate folder with
  | error e => simp
  | ok place =>
    simp only [entryAt]
    cases hfound : d.find? place with
    | none => simp [hfound]
    | some e => simp [hfound]

end Disk

namespace Layout

theorem mem_byName {name : String} {names : List String} : name ∈ byName names ↔ name ∈ names :=
  List.mem_mergeSort

theorem byName_pairwise (names : List String) : (byName names).Pairwise (· ≤ ·) := by
  have h := @List.pairwise_mergeSort String (fun a b => decide (a ≤ b))
    (fun a b c hab hbc => by simpa using String.le_trans (by simpa using hab) (by simpa using hbc))
    (fun a b => by simpa using String.le_total a b) names
  simpa [byName] using h

theorem byName_of_pairwise {names : List String} (h : names.Pairwise (· ≤ ·)) :
    byName names = names :=
  List.mergeSort_of_pairwise (h.imp fun hab => by simpa using hab)

variable {d : Disk} {folder : String} {keep : String → Bool} {found : List String}

theorem files_of_isDirectory (keep : String → Bool) (h : d.isDirectory folder = true) :
    ∃ found, files d folder keep = .ok found := by
  obtain ⟨names, hlist⟩ := Disk.list_isOk_iff.mpr h
  exact ⟨_, by rw [files, hlist]⟩

theorem files_eq_filter (h : files d folder keep = .ok found) :
    ∃ names, d.list folder = .ok names ∧
      found = ((byName names).map (Path.join folder)).filter fun path =>
        d.isFile path && keep path := by
  unfold files at h
  cases hlist : d.list folder with
  | error e =>
    rw [hlist] at h
    cases h
  | ok names =>
    rw [hlist] at h
    cases h
    exact ⟨names, rfl, rfl⟩

theorem mem_files (h : files d folder keep = .ok found) {path : String} :
    path ∈ found ↔ (∃ names, d.list folder = .ok names ∧ path ∈ names.map (Path.join folder)) ∧
      d.isFile path = true ∧ keep path = true := by
  obtain ⟨names, hlist, rfl⟩ := files_eq_filter h
  simp [hlist, mem_byName]

theorem files_in_order (h : files d folder keep = .ok found) :
    ∃ names : List String, names.Pairwise (· ≤ ·) ∧ found = names.map (Path.join folder) := by
  obtain ⟨names, -, rfl⟩ := files_eq_filter h
  rw [List.filter_map]
  exact ⟨_, (byName_pairwise names).filter _, rfl⟩

variable {l : Layout}

theorem lists_of_verify (h : l.verify d = .ok ()) :
    (∃ archives, l.bootArchives d = .ok archives) ∧ ∃ found, l.libs d = .ok found := by
  simp only [verify] at h
  split at h
  · cases h
  split at h
  · cases h
  split at h
  · cases h
  split at h
  · cases h
  rename_i archives hboot
  split at h
  · cases h
  split at h
  · rename_i hlib
    obtain ⟨found, hfound⟩ := files_of_isDirectory isLibName hlib
    exact ⟨⟨archives, hboot⟩, _, by rw [libs, hfound]; rfl⟩
  · cases h

structure IsPluginArchive (l : Layout) (d : Disk) (path : String) : Prop where
  listed : ∃ names, d.list (l.under pluginFolder) = .ok names ∧
    path ∈ names.map (Path.join (l.under pluginFolder))
  isFile : d.isFile path = true
  isArchiveName : Archive.isArchiveName path = true

theorem plugins_eq (l : Layout) (d : Disk) : ∃ found, (l.plugins d).1 = .ok found ∧
    (∀ path, path ∈ found ↔ l.IsPluginArchive d path) ∧
    ∃ names : List String, names.Pairwise (· ≤ ·) ∧
      found = names.map (Path.join (l.under pluginFolder)) := by
  unfold plugins
  cases hfolder : d.isDirectory (l.under pluginFolder) with
  | true =>
    obtain ⟨found, hfound⟩ := files_of_isDirectory Archive.isArchiveName hfolder
    refine ⟨found, hfound, fun path => (mem_files hfound).trans ?_, files_in_order hfound⟩
    exact ⟨fun ⟨hlisted, hfile, hname⟩ => ⟨hlisted, hfile, hname⟩, fun h => ⟨h.1, h.2, h.3⟩⟩
  | false =>
    refine ⟨[], rfl, fun path => ⟨nofun, fun h => ?_⟩, [], .nil, rfl⟩
    obtain ⟨names, hlist, -⟩ := h.listed
    cases hfolder.symm.trans (Disk.list_isOk_iff.mp ⟨names, hlist⟩)

end Layout

end PluginAgent
