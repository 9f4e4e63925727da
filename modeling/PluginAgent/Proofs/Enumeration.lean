import Mathlib.Data.List.Nodup
import PluginAgent.Proofs.ByteOrder
import PluginAgent.Proofs.HomeListings

namespace PluginAgent

open Text

namespace Path

variable {folder name : String}

theorem splitOn_name (h : '/' ∉ name.toList) : splitOn '/' name.toList = [name.toList] := by
  simpa using splitOn_append h []

theorem join_eq (hfolder : folder ≠ "") (h : '/' ∉ name.toList) : ∃ front,
    (join folder name).toList = front ++ '/' :: name.toList ∧
      (folder.toList = front ∨ folder.toList = front ++ ['/']) := by
  have hrelative : isAbsolute name = false := by
    rw [isAbsolute, beq_eq_false_iff_ne]
    exact fun hhead => h (List.mem_of_mem_head? hhead)
  have hnonempty : folder.isEmpty = false := by simpa using hfolder
  rw [join, hrelative, hnonempty, if_neg Bool.false_ne_true, Bool.false_or]
  cases hslash : folder.toList.getLast? == some '/' with
  | true =>
    obtain ⟨front, hfront⟩ := List.getLast?_eq_some_iff.mp (beq_iff_eq.mp hslash)
    refine ⟨front, ?_, .inr hfront⟩
    rw [if_pos rfl, String.toList_append, hfront, List.append_assoc, List.singleton_append]
  | false =>
    refine ⟨folder.toList, ?_, .inl rfl⟩
    rw [if_neg Bool.false_ne_true, String.toList_append, String.toList_append, List.append_assoc]
    rfl

theorem join_ne_empty (hfolder : folder ≠ "") (h : '/' ∉ name.toList) :
    (join folder name).isEmpty = false := by
  obtain ⟨front, hjoin, -⟩ := join_eq hfolder h
  have hne : (join folder name).toList ≠ [] := by simp [hjoin]
  simpa using hne

theorem isAbsolute_join (hfolder : folder ≠ "") (h : '/' ∉ name.toList) :
    isAbsolute (join folder name) = isAbsolute folder := by
  obtain ⟨front, hjoin, hfront⟩ := join_eq hfolder h
  rw [isAbsolute, isAbsolute, hjoin]
  rcases hfront with rfl | hfront
  · obtain ⟨c, rest, hchars⟩ :=
      List.exists_cons_of_ne_nil (mt String.toList_eq_nil_iff.mp hfolder)
    rw [hchars]
    rfl
  · rw [hfront]
    cases front <;> rfl

theorem fileName?_join (hfolder : folder ≠ "") (h : Archive.EntryName.IsPart name.toList) :
    fileName? (join folder name) = some name := by
  obtain ⟨front, hjoin, -⟩ := join_eq hfolder h.slash_not_mem
  obtain ⟨first, rest, hsplit⟩ := List.exists_cons_of_ne_nil (splitOn_ne_nil '/' front)
  have hpart : componentsOfPart '.' name.toList = [.name name.toList] := by
    rw [componentsOfPart, if_neg (not_or.mpr ⟨h.ne_nil, h.ne_current⟩), if_neg h.ne_parent]
  obtain ⟨before, hlast⟩ : ∃ before, components (join folder name) =
      before ++ [.name name.toList] := by
    rw [components, componentsOf, hjoin, splitOn_append_cons, splitOn_name h.slash_not_mem, hsplit]
    simp only [List.cons_append, List.flatMap_append, List.flatMap_singleton, hpart]
    exact ⟨_, (List.append_assoc _ _ _).symm⟩
  rw [fileName?, hlast, List.getLast?_concat]
  exact congrArg some String.ofList_toList

end Path

namespace Disk

variable {d : Disk} {folder name : String} {place : List String}

/-- A tree of files: every path has one entry, under names that can be told apart in a path. -/
structure WellFormed (d : Disk) : Prop where
  one_entry : (d.entries.map (·.1)).Nodup
  proper_names : ∀ e ∈ d.entries, ∀ name ∈ e.1, Archive.EntryName.IsPart name.toList

def HasFile (d : Disk) (folder name : String) : Prop :=
  ∃ place bytes, d.locate folder = .ok place ∧ d.find? place = some .directory ∧
    d.find? (place ++ [name]) = some (.file bytes)

theorem HasFile.isDirectory (h : d.HasFile folder name) : d.isDirectory folder = true := by
  obtain ⟨place, bytes, hlocate, hfolder, -⟩ := h
  rw [isDirectory_iff, entry_eq, hlocate]
  simp only [entryAt, hfolder]

theorem ne_empty_of_locate (h : d.locate folder = .ok place) : folder ≠ "" := by
  rintro rfl
  cases h

theorem step_empty {before : List String} (h : d.step before "" = .ok place) : before = place := by
  unfold step at h
  simp only [true_or, if_true] at h
  split at h
  · cases h
  · cases h
  · exact Except.ok.inj h

theorem reached_before_slash {front : List Char} (h : d.locate folder = .ok place)
    (hfront : folder.toList = front ∨ folder.toList = front ++ ['/']) :
    ((splitOn '/' front).map String.ofList).foldlM d.step (d.origin folder) = .ok place := by
  rw [locate, if_neg (by simpa using ne_empty_of_locate h), parts] at h
  rcases hfront with hfront | hfront
  · rwa [hfront] at h
  · rw [hfront, splitOn_append_cons, List.map_append, List.foldlM_append] at h
    cases hbefore : ((splitOn '/' front).map String.ofList).foldlM d.step (d.origin folder) with
    | error e =>
      rw [hbefore] at h
      cases h
    | ok before =>
      rw [hbefore] at h
      have hstep : d.step before "" = .ok place := by
        rw [← h]
        change _ = d.step before "" >>= pure
        rw [bind_pure]
      rw [step_empty hstep]

theorem locate_join (h : d.locate folder = .ok place) (hname : '/' ∉ name.toList) :
    d.locate (Path.join folder name) = d.step place name := by
  have hfolder := ne_empty_of_locate h
  obtain ⟨front, hjoin, hfront⟩ := Path.join_eq hfolder hname
  have hparts : parts (Path.join folder name) =
      (splitOn '/' front).map String.ofList ++ [name] := by
    rw [parts, hjoin, splitOn_append_cons, Path.splitOn_name hname, List.map_append,
      List.map_singleton, String.ofList_toList]
  have horigin : d.origin (Path.join folder name) = d.origin folder := by
    rw [origin, origin, Path.isAbsolute_join hfolder hname]
  rw [locate, Path.join_ne_empty hfolder hname, if_neg Bool.false_ne_true, hparts, horigin,
    List.foldlM_append, reached_before_slash h hfront]
  change d.step place name >>= pure = _
  rw [bind_pure]

theorem childName?_eq_some_iff {key : List String} :
    childName? place key = some name ↔ key = place ++ [name] := by
  unfold childName?
  cases hlast : key.getLast? with
  | none =>
    rw [List.getLast?_eq_none_iff.mp hlast]
    simp
  | some last =>
    obtain ⟨front, rfl⟩ := List.getLast?_eq_some_iff.mp hlast
    rw [List.dropLast_concat, List.append_singleton_inj, Option.ite_none_right_eq_some,
      Option.some_inj]

theorem mem_children : name ∈ d.children place ↔ (d.find? (place ++ [name])).isSome = true := by
  rw [children, List.mem_filterMap, find?, if_neg (by simp), List.lookup_isSome_iff]
  refine exists_congr fun e => and_congr_right fun _ => ?_
  rw [childName?_eq_some_iff, beq_iff_eq, eq_comm]

theorem WellFormed.nodup_children (hd : d.WellFormed) (place : List String) :
    (d.children place).Nodup := by
  have hkeys : d.children place = (d.entries.map (·.1)).filterMap (childName? place) := by
    rw [List.filterMap_map]
    rfl
  rw [hkeys]
  refine hd.one_entry.filterMap fun key key' name hkey hkey' => ?_
  rw [childName?_eq_some_iff.mp hkey, childName?_eq_some_iff.mp hkey']

theorem WellFormed.isPart (hd : d.WellFormed) (h : name ∈ d.children place) :
    Archive.EntryName.IsPart name.toList := by
  obtain ⟨e, he, hname⟩ := List.mem_filterMap.mp h
  refine hd.proper_names e he name ?_
  rw [childName?_eq_some_iff.mp hname]
  exact List.mem_append_right _ List.mem_cons_self

theorem HasFile.isPart (hd : d.WellFormed) (h : d.HasFile folder name) :
    Archive.EntryName.IsPart name.toList := by
  obtain ⟨place, bytes, -, -, hfile⟩ := h
  exact hd.isPart (mem_children.mpr (by rw [hfile]; rfl))

theorem step_eq_ok_iff {next : List String} (hname : Archive.EntryName.IsPart name.toList) :
    d.step place name = .ok next ↔ d.find? place = some .directory ∧
      (d.find? (place ++ [name])).isSome = true ∧ next = place ++ [name] := by
  have hempty : name ≠ "" := by
    rintro rfl
    exact hname.ne_nil rfl
  have hcurrent : name ≠ "." := by
    rintro rfl
    exact hname.ne_current rfl
  have hparent : name ≠ ".." := by
    rintro rfl
    exact hname.ne_parent rfl
  simp only [step, hempty, hcurrent, hparent, or_self, if_false]
  cases hfolder : d.find? place with
  | none => simp
  | some e =>
    cases e with
    | file bytes => simp
    | directory => cases hsome : (d.find? (place ++ [name])).isSome <;> simp [Eq.comm (b := next)]

theorem isFile_join (h : d.locate folder = .ok place) (hfolder : d.find? place = some .directory)
    (hname : Archive.EntryName.IsPart name.toList) :
    d.isFile (Path.join folder name) = true ↔
      ∃ bytes, d.find? (place ++ [name]) = some (.file bytes) := by
  rw [isFile, entry_eq, locate_join h hname.slash_not_mem]
  cases hfound : d.find? (place ++ [name]) with
  | none =>
    cases hstep : d.step place name with
    | error e => simp
    | ok next =>
      obtain ⟨-, hsome, -⟩ := (step_eq_ok_iff hname).mp hstep
      rw [hfound] at hsome
      cases hsome
  | some e =>
    have hsome : (d.find? (place ++ [name])).isSome = true := by rw [hfound]; rfl
    rw [(step_eq_ok_iff hname).mpr ⟨hfolder, hsome, rfl⟩]
    simp only [entryAt, hfound]
    cases e <;> simp

theorem lookup_eq_some_iff_mem {α : Type} {entries : List (List String × α)} {e : α}
    (h : (entries.map (·.1)).Nodup) : entries.lookup place = some e ↔ (place, e) ∈ entries := by
  induction entries with
  | nil => simp
  | cons first rest ih =>
    obtain ⟨key, e'⟩ := first
    obtain ⟨hfirst, hrest⟩ := List.nodup_cons.mp h
    by_cases hkey : place = key
    · subst hkey
      have hnone (e : α) : (place, e) ∉ rest := fun hmem =>
        hfirst (List.mem_map.mpr ⟨_, hmem, rfl⟩)
      simp [hnone, eq_comm]
    · have hne : (place == key) = false := beq_eq_false_iff_ne.mpr hkey
      simp [List.lookup_cons, hne, ih hrest, hkey]

section

variable {entries : List (List String × Entry)} (hd : d.WellFormed)
  (h : entries.Perm d.entries)

include hd h

theorem WellFormed.find?_eq : { d with entries }.find? = d.find? := by
  have hnodup : (entries.map (·.1)).Nodup := (h.map _).nodup_iff.mpr hd.one_entry
  funext place
  have hlookup : entries.lookup place = d.entries.lookup place := by
    refine Option.ext fun e => ?_
    rw [lookup_eq_some_iff_mem hnodup, lookup_eq_some_iff_mem hd.one_entry, h.mem_iff]
  rw [find?, find?, hlookup]

theorem WellFormed.locate_eq : { d with entries }.locate = d.locate := by
  have hstep : { d with entries }.step = d.step := by
    funext place part
    rw [step, step, hd.find?_eq h]
  funext path
  rw [locate, locate, hstep]
  rfl

theorem WellFormed.entry_eq : { d with entries }.entry = d.entry := by
  funext path
  have hlocate := congrFun (hd.locate_eq h) path
  exact entry_congr hlocate fun place _ => congrFun (hd.find?_eq h) place

theorem WellFormed.isFile_eq : { d with entries }.isFile = d.isFile := by
  funext path
  rw [isFile, isFile, hd.entry_eq h]

theorem WellFormed.isDirectory_eq : { d with entries }.isDirectory = d.isDirectory := by
  funext path
  rw [isDirectory, isDirectory, hd.entry_eq h]

end

end Disk

namespace Layout

open Disk Utf8

variable {d : Disk} {folder name : String} {keep : String → Bool} {passes : String → Prop}
  {found found' : List String}

def Listed (d : Disk) (folder : String) (passes : String → Prop) (found : List String) : Prop :=
  ∃ names : List String, found = names.map (Path.join folder) ∧
    names.Pairwise (fun a b => a.toUTF8.data.toList < b.toUTF8.data.toList) ∧
    ∀ name, name ∈ names ↔ d.HasFile folder name ∧ passes name

theorem Listed.unique (h : Listed d folder passes found) (h' : Listed d folder passes found') :
    found = found' := by
  obtain ⟨names, rfl, hordered, hmem⟩ := h
  obtain ⟨names', rfl, hordered', hmem'⟩ := h'
  have hnodup {l : List String}
      (hl : l.Pairwise fun a b => a.toUTF8.data.toList < b.toUTF8.data.toList) : l.Nodup := by
    refine hl.imp fun {a b} hless heq => ?_
    rw [heq] at hless
    exact List.lt_irrefl _ hless
  have hperm : names.Perm names' := (List.perm_ext_iff_of_nodup (hnodup hordered)
    (hnodup hordered')).mpr fun name => (hmem name).trans (hmem' name).symm
  refine congrArg _ (hperm.eq_of_pairwise (fun a b _ _ hab hba => ?_) hordered hordered')
  exact absurd (List.lt_trans hab hba) (List.lt_irrefl _)

theorem files_ok (h : files d folder keep = .ok found) :
    ∃ place, d.locate folder = .ok place ∧ d.find? place = some .directory ∧
      found = ((byName (d.children place)).map (Path.join folder)).filter
        fun path => d.isFile path && keep path := by
  obtain ⟨names, hlist, rfl⟩ := files_eq_filter h
  obtain ⟨place, hlocate, hfolder, rfl⟩ := list_eq_ok_iff.mp hlist
  exact ⟨place, hlocate, hfolder, rfl⟩

theorem listed_of_files (hd : d.WellFormed)
    (hkeep : ∀ name, folder ≠ "" → Archive.EntryName.IsPart name.toList →
      (keep (Path.join folder name) = true ↔ passes name))
    (h : files d folder keep = .ok found) : Listed d folder passes found := by
  obtain ⟨place, hlocate, hfolder, rfl⟩ := files_ok h
  refine ⟨(byName (d.children place)).filter
    fun name => d.isFile (Path.join folder name) && keep (Path.join folder name),
    List.filter_map, List.Pairwise.filter _ ?_, fun name => ?_⟩
  · have hnodup : (byName (d.children place)).Nodup :=
      (List.mergeSort_perm _ _).nodup_iff.mpr (hd.nodup_children place)
    refine ((byName_pairwise _).and hnodup).imp fun ⟨hle, hne⟩ => ?_
    exact lt_iff_bytes_lt.mp (Std.lt_of_le_of_ne hle hne)
  · rw [List.mem_filter, mem_byName, Bool.and_eq_true]
    constructor
    · rintro ⟨hmem, hfile, hkept⟩
      have hpart := hd.isPart hmem
      obtain ⟨bytes, hbytes⟩ := (isFile_join hlocate hfolder hpart).mp hfile
      exact ⟨⟨place, bytes, hlocate, hfolder, hbytes⟩,
        (hkeep name (ne_empty_of_locate hlocate) hpart).mp hkept⟩
    · rintro ⟨⟨place', bytes, hlocate', -, hbytes⟩, hpasses⟩
      obtain rfl : place = place' := Except.ok.inj (hlocate.symm.trans hlocate')
      have hmem : name ∈ d.children place := mem_children.mpr (by rw [hbytes]; rfl)
      have hpart := hd.isPart hmem
      exact ⟨hmem, (isFile_join hlocate hfolder hpart).mpr ⟨bytes, hbytes⟩,
        (hkeep name (ne_empty_of_locate hlocate) hpart).mpr hpasses⟩

theorem files_eq_ok_iff (hd : d.WellFormed)
    (hkeep : ∀ name, folder ≠ "" → Archive.EntryName.IsPart name.toList →
      (keep (Path.join folder name) = true ↔ passes name)) :
    files d folder keep = .ok found ↔
      d.isDirectory folder = true ∧ Listed d folder passes found := by
  constructor
  · intro h
    obtain ⟨names, hlist, -⟩ := files_eq_filter h
    exact ⟨list_isOk_iff.mp ⟨names, hlist⟩, listed_of_files hd hkeep h⟩
  · rintro ⟨hfolder, hlisted⟩
    obtain ⟨found', h⟩ := files_of_isDirectory keep hfolder
    rw [h, (listed_of_files hd hkeep h).unique hlisted]

theorem files_of_perm {entries : List (List String × Entry)} (hd : d.WellFormed)
    (h : entries.Perm d.entries) (folder : String) (keep : String → Bool) :
    files { d with entries } folder keep = files d folder keep := by
  have hfolder : { d with entries }.folder folder = d.folder folder := by
    rw [Disk.folder, Disk.folder, hd.locate_eq h, hd.find?_eq h]
  have hsorted (place : List String) :
      byName ({ d with entries }.children place) = byName (d.children place) := by
    refine List.Perm.eq_of_pairwise (fun a b _ _ => String.le_antisymm) (byName_pairwise _)
      (byName_pairwise _) ?_
    exact (List.mergeSort_perm _ _).trans
      ((h.filterMap _).trans (List.mergeSort_perm _ _).symm)
  rw [files, files, Disk.list, Disk.list, hfolder, hd.isFile_eq h]
  cases d.folder folder with
  | error e => rfl
  | ok place => simp only [Except.map, hsorted]

def IsArchive (name : String) : Prop :=
  ∃ ending ∈ Archive.extensions, ending.toList <:+ name.toList.map Char.toLower

def IsLib (name : String) : Prop :=
  ∃ ending ∈ libEndings, ending.toList <:+ name.toList

def IsArchiveOf (stem name : String) : Prop :=
  IsArchive name ∧ stem.toList <+: name.toList

theorem endsWith_iff {text ending : String} :
    Archive.endsWith text ending = true ↔ ending.toList <:+ text.toList := by
  rw [Archive.endsWith, List.isPrefixOf_iff_prefix, List.reverse_prefix]

theorem isArchiveName_join (name : String) (hfolder : folder ≠ "")
    (h : Archive.EntryName.IsPart name.toList) :
    Archive.isArchiveName (Path.join folder name) = true ↔ IsArchive name := by
  simp only [Archive.isArchiveName, Path.fileName?_join hfolder h, List.any_eq_true, endsWith_iff,
    String.toList_ofList, IsArchive]

theorem isLibName_join (name : String) (hfolder : folder ≠ "")
    (h : Archive.EntryName.IsPart name.toList) :
    isLibName (Path.join folder name) = true ↔ IsLib name := by
  simp only [isLibName, Path.fileName?_join hfolder h, List.any_eq_true, endsWith_iff, IsLib]

theorem hasStem_join {stem : String} (hfolder : folder ≠ "")
    (h : Archive.EntryName.IsPart name.toList) :
    hasStem stem (Path.join folder name) = true ↔ stem.toList <+: name.toList := by
  simp only [hasStem, Path.fileName?_join hfolder h, List.isPrefixOf_iff_prefix]

theorem listed_of_not_isDirectory (h : d.isDirectory folder = false) :
    Listed d folder passes [] := by
  refine ⟨[], rfl, .nil, fun name => ⟨nofun, fun ⟨hfile, _⟩ => ?_⟩⟩
  cases h.symm.trans hfile.isDirectory

theorem bootArchives_eq_ok_iff (l : Layout) (hd : d.WellFormed) :
    l.bootArchives d = .ok found ↔
      d.isDirectory (l.under bootFolder) = true ∧
        Listed d (l.under bootFolder) IsArchive found :=
  files_eq_ok_iff hd fun name => isArchiveName_join name

theorem plugins_eq_ok_iff (l : Layout) (hd : d.WellFormed) :
    (l.plugins d).1 = .ok found ↔ Listed d (l.under pluginFolder) IsArchive found := by
  unfold plugins
  cases hfolder : d.isDirectory (l.under pluginFolder) with
  | true =>
    have hfiles : files d (l.under pluginFolder) Archive.isArchiveName = .ok found ↔
        d.isDirectory (l.under pluginFolder) = true ∧
          Listed d (l.under pluginFolder) IsArchive found :=
      files_eq_ok_iff hd fun name => isArchiveName_join name
    rw [hfolder] at hfiles
    simpa using hfiles
  | false =>
    have hnone : Listed d (l.under pluginFolder) IsArchive [] := listed_of_not_isDirectory hfolder
    constructor
    · rintro ⟨rfl⟩
      exact hnone
    · intro hlisted
      rw [hlisted.unique hnone]
      rfl

theorem libs_eq_ok_iff (l : Layout) (hd : d.WellFormed) :
    l.libs d = .ok found ↔
      d.isDirectory (l.under libFolder) = true ∧
        ∃ rest, found = l.under libFolder :: rest ∧ Listed d (l.under libFolder) IsLib rest := by
  have hfiles {rest : List String} : files d (l.under libFolder) isLibName = .ok rest ↔
      d.isDirectory (l.under libFolder) = true ∧ Listed d (l.under libFolder) IsLib rest :=
    files_eq_ok_iff hd fun name => isLibName_join name
  unfold libs
  constructor
  · intro h
    cases hfound : files d (l.under libFolder) isLibName with
    | error e =>
      rw [hfound] at h
      cases h
    | ok rest =>
      rw [hfound] at h
      cases h
      exact ⟨(hfiles.mp hfound).1, rest, rfl, (hfiles.mp hfound).2⟩
  · rintro ⟨hfolder, rest, rfl, hrest⟩
    rw [hfiles.mpr ⟨hfolder, hrest⟩]
    rfl

theorem jarPath?_eq_head? (l : Layout) (hd : d.WellFormed) :
    ∃ jars, Listed d l.home (IsArchiveOf bootstrapStem) jars ∧ l.jarPath? d = jars.head? := by
  unfold jarPath?
  cases hfound : files d l.home Archive.isArchiveName with
  | error e =>
    refine ⟨[], listed_of_not_isDirectory ?_, rfl⟩
    refine Bool.eq_false_iff.mpr fun hhome => ?_
    obtain ⟨found, h⟩ := files_of_isDirectory Archive.isArchiveName hhome
    cases hfound.symm.trans h
  | ok found =>
    obtain ⟨names, hlist, rfl⟩ := files_eq_filter hfound
    have hjars : files d l.home
          (fun path => Archive.isArchiveName path && hasStem bootstrapStem path) =
        .ok ((((byName names).map (Path.join l.home)).filter fun path =>
          d.isFile path && Archive.isArchiveName path).filter (hasStem bootstrapStem)) := by
      rw [files, hlist, List.filter_filter]
      refine congrArg Except.ok (List.filter_congr fun path _ => ?_)
      rw [← Bool.and_assoc, Bool.and_comm (hasStem _ _)]
    refine ⟨_, listed_of_files hd (fun name hfolder h => ?_) hjars, List.head?_filter.symm⟩
    rw [Bool.and_eq_true, isArchiveName_join name hfolder h, hasStem_join hfolder h, IsArchiveOf]

theorem listings_of_perm {entries : List (List String × Entry)} (l : Layout) (hd : d.WellFormed)
    (h : entries.Perm d.entries) :
    l.bootArchives { d with entries } = l.bootArchives d ∧
      l.plugins { d with entries } = l.plugins d ∧ l.libs { d with entries } = l.libs d ∧
      l.jarPath? { d with entries } = l.jarPath? d := by
  simp only [bootArchives, plugins, libs, jarPath?, files_of_perm hd h, hd.isDirectory_eq h,
    true_and]

theorem listings_in_byte_order (l : Layout) {d : Disk} (hd : d.WellFormed) :
    (∀ found, l.bootArchives d = .ok found ↔
      d.isDirectory (l.under bootFolder) = true ∧
        Listed d (l.under bootFolder) IsArchive found) ∧
    (∀ found, (l.plugins d).1 = .ok found ↔ Listed d (l.under pluginFolder) IsArchive found) ∧
    (∀ found, l.libs d = .ok found ↔
      d.isDirectory (l.under libFolder) = true ∧
        ∃ rest, found = l.under libFolder :: rest ∧ Listed d (l.under libFolder) IsLib rest) ∧
    (∃ jars, Listed d l.home (IsArchiveOf bootstrapStem) jars ∧ l.jarPath? d = jars.head?) ∧
    ∀ entries : List (List String × Entry), entries.Perm d.entries →
      l.bootArchives { d with entries } = l.bootArchives d ∧
        l.plugins { d with entries } = l.plugins d ∧ l.libs { d with entries } = l.libs d ∧
        l.jarPath? { d with entries } = l.jarPath? d :=
  ⟨fun _ => bootArchives_eq_ok_iff l hd, fun _ => plugins_eq_ok_iff l hd,
    fun _ => libs_eq_ok_iff l hd, jarPath?_eq_head? l hd, fun _ h => listings_of_perm l hd h⟩

def mixedHome : Disk where
  entries := [(["home"], .directory), (["home", "plugin"], .directory),
    (["home", "plugin", "B.TGZ"], .file .empty), (["home", "plugin", "README.md"], .file .empty),
    (["home", "plugin", "a.tar.gz"], .file .empty), (["home", "plugin", "a.tgz"], .file .empty),
    (["home", "plugin", "old.tgz"], .directory)]

theorem plugins_of_reversed : mixedHome.WellFormed ∧
    (plugins ⟨"home"⟩ { mixedHome with entries := mixedHome.entries.reverse }).1 =
      .ok ["home/plugin/B.TGZ", "home/plugin/a.tar.gz", "home/plugin/a.tgz"] := by
  have hd : mixedHome.WellFormed := ⟨by decide, by decide⟩
  refine ⟨hd, ?_⟩
  obtain ⟨-, -, -, -, hperm⟩ := listings_in_byte_order ⟨"home"⟩ hd
  rw [(hperm mixedHome.entries.reverse (List.reverse_perm _)).2.1]
  have hlist : mixedHome.list (under ⟨"home"⟩ pluginFolder) =
      .ok ["B.TGZ", "README.md", "a.tar.gz", "a.tgz", "old.tgz"] := rfl
  have hfolder : mixedHome.isDirectory (under ⟨"home"⟩ pluginFolder) = true := rfl
  rw [plugins, if_pos hfolder, files, hlist]
  simp only
  rw [byName_of_pairwise (by decide)]
  rfl

end Layout

end PluginAgent
