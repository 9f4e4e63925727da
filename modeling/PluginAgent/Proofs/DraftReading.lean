import PluginAgent.Proofs.DraftTexts
import PluginAgent.Proofs.MetadataReads

namespace PluginAgent.Testing

open Archive Codec

inductive DraftCall where
  | stated (name value : String)
  | confined (packages : String)
  | shipped (type : String)
  | listed (type : String)
  | compiled (name : String) (bytes : ByteArray)
  | entered (name : String) (bytes : ByteArray)

namespace DraftCall

def attribute? : DraftCall → Option (String × String)
  | stated name value => some (name, value)
  | confined packages => some (Reserved.packageAttribute, packages)
  | _ => none

def plugin? : DraftCall → Option ListedPlugin
  | shipped type => some ⟨type, true⟩
  | listed type => some ⟨type, false⟩
  | _ => none

def added? : DraftCall → Option (String × ByteArray)
  | compiled name bytes => some (ArchiveDraft.classEntry name, bytes)
  | entered name bytes => some (name, bytes)
  | _ => none

def attributesOf (calls : List DraftCall) : List (String × String) :=
  calls.filterMap (·.attribute?)

def pluginsOf (calls : List DraftCall) : List ListedPlugin :=
  calls.filterMap (·.plugin?)

def entriesOf (calls : List DraftCall) : List (String × ByteArray) :=
  calls.filterMap (·.added?)

end DraftCall

namespace ArchiveDraft

open DraftCall

def perform (d : ArchiveDraft) : DraftCall → ArchiveDraft
  | .stated name value => d.withAttribute name value
  | .confined packages => d.withPackages packages
  | .shipped type => d.withPlugin type
  | .listed type => d.withListed type
  | .compiled name bytes => d.withClass name bytes
  | .entered name bytes => d.withEntry name bytes

def ofCalls (calls : List DraftCall) : ArchiveDraft :=
  calls.foldl perform {}

theorem foldl_perform (d : ArchiveDraft) (calls : List DraftCall) : calls.foldl perform d =
    ⟨d.attributes ++ attributesOf calls, d.plugins ++ pluginsOf calls,
      d.entries ++ entriesOf calls⟩ := by
  induction calls generalizing d with
  | nil => simp [attributesOf, pluginsOf, entriesOf]
  | cons call rest ih =>
    rw [List.foldl_cons, ih]
    cases call <;> simp [perform, withPackages, withAttribute, withPlugin, withListed, withClass,
      withEntry, attributesOf, pluginsOf, entriesOf, attribute?, plugin?, added?]

theorem ofCalls_eq (calls : List DraftCall) :
    ofCalls calls = ⟨attributesOf calls, pluginsOf calls, entriesOf calls⟩ := by
  rw [ofCalls, foldl_perform]
  rfl

@[simp] theorem attributes_ofCalls (calls : List DraftCall) :
    (ofCalls calls).attributes = attributesOf calls := by
  rw [ofCalls_eq]

@[simp] theorem plugins_ofCalls (calls : List DraftCall) :
    (ofCalls calls).plugins = pluginsOf calls := by
  rw [ofCalls_eq]

@[simp] theorem entries_ofCalls (calls : List DraftCall) :
    (ofCalls calls).entries = entriesOf calls := by
  rw [ofCalls_eq]

variable {base entries : List (String × ByteArray)} {e : String × ByteArray} {name : String}

theorem lookup_filter_key (f : String → Bool) (l : List (String × ByteArray)) :
    (l.filter fun e => f e.1).lookup name = if f name then l.lookup name else none := by
  induction l with
  | nil => simp
  | cons e rest ih =>
    obtain ⟨key, bytes⟩ := e
    rw [List.filter_cons, List.lookup_cons]
    by_cases hname : name = key
    · subst hname
      cases hf : f name <;> simp [hf, ih]
    · have hkey : (name == key) = false := beq_eq_false_iff_ne.mpr hname
      cases f key <;> simp [hkey, ih, List.lookup_cons]

theorem lookup_singleton (e : String × ByteArray) (name : String) :
    [e].lookup name = if name = e.1 then some e.2 else none := by
  obtain ⟨key, bytes⟩ := e
  rw [List.lookup_cons]
  by_cases hname : name = key
  · simp [hname]
  · simp [hname, beq_eq_false_iff_ne.mpr hname]

theorem lookup_replace :
    (replace base e).lookup name = if name = e.1 then some e.2 else base.lookup name := by
  rw [replace, List.lookup_append, lookup_filter_key (· != e.1), lookup_singleton]
  by_cases hname : name = e.1 <;> simp [hname]

theorem lookup_reverse_replace : (replace base e).reverse.lookup name =
    if name = e.1 then some e.2 else base.reverse.lookup name := by
  rw [replace, List.reverse_append, ← List.filter_reverse, List.lookup_append,
    lookup_filter_key (· != e.1), List.reverse_singleton, lookup_singleton]
  by_cases hname : name = e.1 <;> simp [hname]

theorem find_foldl_replace (find : List (String × ByteArray) → Option ByteArray)
    (hfind : ∀ base e, find (replace base e) = if name = e.1 then some e.2 else find base)
    (base entries : List (String × ByteArray)) :
    find (entries.foldl replace base) = (entries.reverse.lookup name).or (find base) := by
  induction entries generalizing base with
  | nil => rfl
  | cons e rest ih =>
    rw [List.foldl_cons, ih, hfind, List.reverse_cons, List.lookup_append, Option.or_assoc,
      lookup_singleton]
    by_cases hname : name = e.1 <;> simp [hname]

theorem contains_foldl_replace : (∃ e ∈ entries.foldl replace base, e.1 = name) ↔
    (∃ e ∈ base, e.1 = name) ∨ ∃ e ∈ entries, e.1 = name := by
  have hisSome (l : List (String × ByteArray)) :
      (∃ e ∈ l, e.1 = name) ↔ (l.lookup name).isSome = true := by
    simp only [List.lookup_isSome_iff, beq_iff_eq, eq_comm (a := name)]
  rw [hisSome, find_foldl_replace (·.lookup name) (fun _ _ => lookup_replace), Option.isSome_or,
    Bool.or_eq_true, or_comm, ← hisSome, ← hisSome]
  simp only [List.mem_reverse]

theorem mem_foldl_replace {x : String × ByteArray} (h : x ∈ entries.foldl replace base) :
    x ∈ base ∨ x ∈ entries := by
  induction entries generalizing base with
  | nil => exact .inl h
  | cons e rest ih =>
    rcases ih h with hreplaced | hrest
    · rcases List.mem_append.mp hreplaced with hkept | hnew
      · exact .inl (List.mem_of_mem_filter hkept)
      · exact .inr (List.mem_cons.mpr (.inl (List.mem_singleton.mp hnew)))
    · exact .inr (List.mem_cons_of_mem e hrest)

variable {d : ArchiveDraft}

theorem lookup_allEntries (name : String) :
    d.allEntries.lookup name = (d.entries.reverse.lookup name).or (d.derived.lookup name) :=
  find_foldl_replace (·.lookup name) (fun _ _ => lookup_replace) d.derived d.entries

theorem lookup_reverse_allEntries (name : String) : d.allEntries.reverse.lookup name =
    (d.entries.reverse.lookup name).or (d.derived.reverse.lookup name) :=
  find_foldl_replace (·.reverse.lookup name) (fun _ _ => lookup_reverse_replace) d.derived
    d.entries

def descriptorEntry : String :=
  servicesFolder ++ Reserved.pluginInterface

theorem descriptorEntry_ne : descriptorEntry ≠ manifestEntry := by decide

theorem lookup_eq_none {l : List (String × ByteArray)} (h : ∀ e ∈ l, e.1 ≠ name) :
    l.lookup name = none :=
  List.lookup_eq_none_iff.mpr fun e he => bne_iff_ne.mpr (h e he).symm

theorem lookup_reverse_of_only {l : List (String × ByteArray)} {bytes : ByteArray} {absent : Prop}
    [Decidable absent] (hmem : ¬absent → (name, bytes) ∈ l)
    (honly : ∀ e ∈ l, e.1 = name → ¬absent ∧ e.2 = bytes) :
    l.reverse.lookup name = if absent then none else some bytes := by
  split
  · rename_i habsent
    exact lookup_eq_none fun e he hname => (honly e (List.mem_reverse.mp he) hname).1 habsent
  · rename_i hpresent
    cases hfound : l.reverse.lookup name with
    | none =>
      have hnone := List.lookup_eq_none_iff.mp hfound _ (List.mem_reverse.mpr (hmem hpresent))
      exact absurd rfl (bne_iff_ne.mp hnone)
    | some found =>
      obtain ⟨before, after, hl, -⟩ := List.lookup_eq_some_iff.mp hfound
      have hfound : (name, found) ∈ l := List.mem_reverse.mp (by simp [hl])
      rw [← (honly _ hfound rfl).2]

theorem mem_unless_empty {α β : Type} {l : List α} {x y : β} :
    y ∈ (if l.isEmpty then [] else [x]) ↔ l ≠ [] ∧ y = x := by
  cases l <;> simp

theorem mem_derived {e : String × ByteArray} : e ∈ d.derived ↔
    (d.attributes ≠ [] ∧ e = (manifestEntry, (manifestText d.attributes).toUTF8)) ∨
    (d.plugins ≠ [] ∧ e = (descriptorEntry, (descriptorText d.plugins).toUTF8)) ∨
    ∃ p ∈ d.plugins, p.shipped = true ∧ e = (classEntry p.type, p.type.toUTF8) := by
  rw [derived, List.mem_append, List.mem_append, mem_unless_empty, mem_unless_empty, or_assoc]
  refine or_congr_right (or_congr_right ?_)
  simp only [List.mem_map, List.mem_filter, and_assoc, eq_comm]

structure Proper (d : ArchiveDraft) : Prop where
  attributes : ∀ a ∈ d.attributes, Manifest.Writable a
  types : ∀ p ∈ d.plugins, ClassName.isValid p.type = true
  names : ∀ e ∈ d.entries, EntryName.Normal e.1.toList
  few : d.allEntries.length ≤ maxEntries
  small : ∀ e ∈ d.allEntries, IsMetadata e.1 → e.2.size ≤ maxMetadata

theorem exists_className {type : String} (h : ClassName.isValid type = true) :
    ∃ c : ClassName, c.text = type ∧ classEntry type = c.entryPath := by
  rw [ClassName.isValid, Option.isNone_iff_eq_none] at h
  exact ⟨⟨type, h⟩, rfl, rfl⟩

theorem ofPath_of_normal {name : String} (h : EntryName.Normal name.toList) :
    EntryName.ofPath name.toUTF8.data.toList = .ok name := by
  rw [Utf8.toUTF8_eq_encode]
  exact EntryName.ofPath_names (EntryName.names_of_normal h)

theorem entryPath_ne_of_dash (c : ClassName) {name : String} (h : '-' ∈ name.toList) :
    c.entryPath ≠ name := by
  rintro rfl
  rcases ClassName.mem_entryPath h with hname | hslash | hdot
  · exact absurd hname (by decide)
  · exact absurd hslash (by decide)
  · exact absurd hdot (by decide)

namespace Proper

variable (h : d.Proper)

include h

theorem ofPath_eq {e : String × ByteArray} (he : e ∈ d.allEntries) :
    EntryName.ofPath e.1.toUTF8.data.toList = .ok e.1 := by
  have hmanifest : EntryName.ofPath manifestEntry.toUTF8.data.toList = .ok manifestEntry := by
    decide +kernel
  have hdescriptor : EntryName.ofPath descriptorEntry.toUTF8.data.toList = .ok descriptorEntry := by
    decide +kernel
  rcases mem_foldl_replace he with hderived | hentry
  · rcases mem_derived.mp hderived with ⟨-, rfl⟩ | ⟨-, rfl⟩ | ⟨p, hp, -, rfl⟩
    · exact hmanifest
    · exact hdescriptor
    · obtain ⟨c, -, hentry⟩ := exists_className (h.types p hp)
      simp only [hentry]
      exact ofPath_of_normal c.normal_entryPath
  · exact ofPath_of_normal (h.names e hentry)

theorem mem_derived_of_dash {e : String × ByteArray} (he : e ∈ d.derived)
    (hdash : '-' ∈ e.1.toList) :
    (d.attributes ≠ [] ∧ e = (manifestEntry, (manifestText d.attributes).toUTF8)) ∨
    (d.plugins ≠ [] ∧ e = (descriptorEntry, (descriptorText d.plugins).toUTF8)) := by
  rcases mem_derived.mp he with hmanifest | hdescriptor | ⟨p, hp, -, rfl⟩
  · exact .inl hmanifest
  · exact .inr hdescriptor
  · obtain ⟨c, -, hentry⟩ := exists_className (h.types p hp)
    exact absurd hentry.symm (entryPath_ne_of_dash c hdash)

theorem lookup_manifestEntry : d.derived.reverse.lookup manifestEntry =
    if d.attributes = [] then none else some (manifestText d.attributes).toUTF8 := by
  refine lookup_reverse_of_only (fun hsome => mem_derived.mpr (.inl ⟨hsome, rfl⟩)) ?_
  intro e he hname
  rcases h.mem_derived_of_dash he (by rw [hname]; decide) with ⟨hsome, rfl⟩ | ⟨-, rfl⟩
  · exact ⟨hsome, rfl⟩
  · exact absurd hname descriptorEntry_ne

theorem lookup_descriptorEntry : d.derived.reverse.lookup descriptorEntry =
    if d.plugins = [] then none else some (descriptorText d.plugins).toUTF8 := by
  refine lookup_reverse_of_only (fun hsome => mem_derived.mpr (.inr (.inl ⟨hsome, rfl⟩))) ?_
  intro e he hname
  rcases h.mem_derived_of_dash he (by rw [hname]; decide) with ⟨-, rfl⟩ | ⟨hsome, rfl⟩
  · exact absurd hname.symm descriptorEntry_ne
  · exact ⟨hsome, rfl⟩

theorem exists_types : ∃ types : List ClassName, d.plugins.map (·.type) = types.map (·.text) := by
  have htypes := h.types
  generalize d.plugins = plugins at htypes
  induction plugins with
  | nil => exact ⟨[], rfl⟩
  | cons p rest ih =>
    obtain ⟨hp, hrest⟩ := List.forall_mem_cons.mp htypes
    obtain ⟨c, hc, -⟩ := exists_className hp
    obtain ⟨types, heq⟩ := ih hrest
    exact ⟨c :: types, by rw [List.map_cons, List.map_cons, hc, heq]⟩

end Proper

/-- The file at a path is an archive built from the draft, of which the entries written are
returned. -/
structure Written (d : ArchiveDraft) (disk : Disk) (path : String) : Prop where
  file : disk.entry path = .ok (.file d.build)
  returned : Tar.listing d.build = ⟨d.allEntries.map fun e => (draftOf e).member, none⟩

namespace Written

variable {disk : Disk} {path name : String}

theorem of_packed (h : Packed disk path d.allEntries) : d.Written disk path where
  file := h.file
  returned := by
    have hlisting := h.listing_eq
    rw [List.map_map] at hlisting
    exact hlisting

theorem metadata?_eq (hname : IsMetadata name) (hnone : ∀ e ∈ d.entries, e.1 ≠ name) :
    (indexOf path d.allEntries).metadata? name = d.derived.reverse.lookup name := by
  have hadded : d.entries.reverse.lookup name = none :=
    lookup_eq_none fun e he => hnone e (List.mem_reverse.mp he)
  have hkey : metadataFolder.toList.isPrefixOf name.toList = true :=
    List.isPrefixOf_iff_prefix.mpr hname
  rw [Index.metadata?, indexOf, ← List.filter_reverse,
    lookup_filter_key (fun key => metadataFolder.toList.isPrefixOf key.toList), if_pos hkey,
    lookup_reverse_allEntries, hadded, Option.none_or]

variable (hd : d.Proper)

include hd

theorem manifest_eq (hnone : ∀ e ∈ d.entries, e.1 ≠ manifestEntry) :
    (indexOf path d.allEntries).manifest =
      .ok (if d.attributes = [] then none else some ⟨d.attributes⟩) := by
  have hmetadata : IsMetadata manifestEntry := List.isPrefixOf_iff_prefix.mp (by decide)
  rw [Index.manifest, metadata?_eq hmetadata hnone, hd.lookup_manifestEntry]
  by_cases hempty : d.attributes = []
  · rw [if_pos hempty, if_pos hempty]
  · simp only [if_neg hempty, Manifest.ofBytes_manifestText hd.attributes]

theorem descriptor_eq (hnone : ∀ e ∈ d.entries, e.1 ≠ descriptorEntry) {types : List ClassName}
    (htypes : d.plugins.map (·.type) = types.map (·.text)) :
    (indexOf path d.allEntries).descriptor Reserved.pluginInterface =
      .ok (if types = [] then none else some ⟨types.eraseDups⟩) := by
  have hmetadata : IsMetadata descriptorEntry := List.isPrefixOf_iff_prefix.mp (by decide)
  have hkept : (indexOf path d.allEntries).metadata? (servicesFolder ++ Reserved.pluginInterface) =
      d.derived.reverse.lookup descriptorEntry := metadata?_eq hmetadata hnone
  have hempty : d.plugins = [] ↔ types = [] := by
    rw [← List.map_eq_nil_iff (f := ListedPlugin.type), htypes, List.map_eq_nil_iff]
  rw [Index.descriptor, hkept, hd.lookup_descriptorEntry]
  by_cases htypes' : types = []
  · rw [if_pos (hempty.mpr htypes'), if_pos htypes']
  · simp only [if_neg (mt hempty.mp htypes'), if_neg htypes',
      Descriptor.ofBytes_descriptorText htypes]

variable (h : d.Written disk path)

include h

theorem at_eq : Contents.at disk path = ⟨d.allEntries.map itemOf, none⟩ := by
  have hwalk : Contents.walk none 0 [] ((d.allEntries.map draftOf).map Tar.Draft.member) =
      ⟨d.allEntries.map itemOf, none⟩ :=
    walk_packed (fun e he => hd.ofPath_eq he) 0 [] (by simpa using hd.few)
  rw [List.map_map] at hwalk
  rw [Contents.at, h.file]
  simp only [Contents.ofListing, h.returned]
  exact hwalk

theorem ofFile_eq : Index.ofFile disk path = .ok (indexOf path d.allEntries) := by
  have hmetadata : ∀ e ∈ d.allEntries, metadataFolder.toList.isPrefixOf e.1.toList = true →
      e.2.size ≤ maxMetadata :=
    fun e he hprefix => hd.small e he (List.isPrefixOf_iff_prefix.mp hprefix)
  rw [Index.ofFile, h.at_eq hd, Index.ofContents, readMetadata_items hmetadata, List.append_nil]
  simp only [List.map_map]
  rfl

theorem readEntry_eq {bytes : ByteArray} (hlookup : d.allEntries.lookup name = some bytes) :
    Namespaces.readEntry disk path name = if bytes.size ≤ maxContent then .ok bytes
      else .error (.archiveUnavailable path (.tooLarge bytes.size maxContent)) := by
  rw [Namespaces.readEntry, Archive.readEntry, h.at_eq hd, Contents.readEntry, find?_items, hlookup]
  by_cases hsize : bytes.size ≤ maxContent
  · have hread : (itemOf (name, bytes)).read maxContent = .ok bytes := read_itemOf hsize
    simp only [Option.map_some, hread, Except.map, if_pos hsize]
  · have hread : (itemOf (name, bytes)).read maxContent = .error (.tooLarge bytes.size maxContent) :=
      if_pos (Nat.lt_of_not_le hsize)
    simp only [Option.map_some, hread, Except.map, if_neg hsize]

end Written

end ArchiveDraft

namespace DraftCall

open ArchiveDraft

def Proper : DraftCall → Prop
  | stated name value => Manifest.Writable (name, value)
  | confined packages => '\n' ∉ packages.toList
  | shipped type => ClassName.isValid type = true
  | listed type => ClassName.isValid type = true
  | compiled name _ => EntryName.Normal (classEntry name).toList
  | entered name _ => EntryName.Normal name.toList

def Adds (calls : List DraftCall) (name : String) : Prop :=
  ∃ e ∈ entriesOf calls, e.1 = name

def AddsLast (calls : List DraftCall) (name : String) (bytes : ByteArray) : Prop :=
  ∃ before after, entriesOf calls = before ++ (name, bytes) :: after ∧ ∀ e ∈ after, e.1 ≠ name

structure ReadAgain (calls : List DraftCall) (disk : Disk) (path : String) (index : Index) :
    Prop where
  manifest : ¬Adds calls manifestEntry → index.manifest =
    .ok (if attributesOf calls = [] then none else some ⟨attributesOf calls⟩)
  descriptor : ¬Adds calls descriptorEntry → ∃ types : List ClassName,
    types.map (·.text) = (pluginsOf calls).map (·.type) ∧
      index.descriptor Reserved.pluginInterface =
        .ok (if types = [] then none else some ⟨types.eraseDups⟩)
  entries : ∀ name bytes, AddsLast calls name bytes →
    Namespaces.readEntry disk path name = if bytes.size ≤ maxContent then .ok bytes
      else .error (.archiveUnavailable path (.tooLarge bytes.size maxContent))
  classes : ∀ p ∈ pluginsOf calls, index.contains (classEntry p.type) = true ↔
    shipped p.type ∈ calls ∨ Adds calls (classEntry p.type)
  contains : ∀ name, index.contains name = true ↔
    (name = manifestEntry ∧ attributesOf calls ≠ []) ∨
    (name = descriptorEntry ∧ pluginsOf calls ≠ []) ∨
    (∃ type, shipped type ∈ calls ∧ name = classEntry type) ∨ Adds calls name

variable {calls : List DraftCall} {disk : Disk} {path name : String}

theorem mem_pluginsOf_shipped {type : String} :
    ⟨type, true⟩ ∈ pluginsOf calls ↔ shipped type ∈ calls := by
  simp only [pluginsOf, List.mem_filterMap]
  constructor
  · rintro ⟨call, hcall, hplugin⟩
    cases call <;> simp [plugin?] at hplugin
    exact hplugin ▸ hcall
  · intro hcall
    exact ⟨_, hcall, rfl⟩

theorem proper_ofCalls (hcalls : ∀ call ∈ calls, call.Proper)
    (hfew : (ofCalls calls).allEntries.length ≤ maxEntries)
    (hsmall : ∀ e ∈ (ofCalls calls).allEntries, IsMetadata e.1 → e.2.size ≤ maxMetadata) :
    (ofCalls calls).Proper := by
  refine ⟨?_, ?_, ?_, hfew, hsmall⟩
  -- Each list has members from two kinds of calls only; the other kinds give it none.
  all_goals
    simp only [attributes_ofCalls, plugins_ofCalls, entries_ofCalls]
    intro x hx
    obtain ⟨call, hcall, hsome⟩ := List.mem_filterMap.mp hx
    have hproper := hcalls call hcall
    cases call <;> cases hsome
  case refine_1.stated => exact hproper
  case refine_1.confined =>
    have hname : Manifest.isName Reserved.packageAttribute.toList = true := by decide
    have hcolon : ':' ∉ Reserved.packageAttribute.toList := by decide
    have hmark : Reserved.packageAttribute.toList.head? ≠ some Manifest.byteOrderMark := by decide
    obtain ⟨hne, hblank⟩ := Manifest.isName_iff.mp hname
    exact ⟨⟨hne, hblank, hcolon⟩, hmark, hproper⟩
  case refine_2.shipped => exact hproper
  case refine_2.listed => exact hproper
  case refine_3.compiled => exact hproper
  case refine_3.entered => exact hproper

theorem contains_iff : (indexOf path (ofCalls calls).allEntries).contains name = true ↔
    (name = manifestEntry ∧ attributesOf calls ≠ []) ∨
    (name = descriptorEntry ∧ pluginsOf calls ≠ []) ∨
    (∃ type, shipped type ∈ calls ∧ name = classEntry type) ∨ Adds calls name := by
  have hnames : (indexOf path (ofCalls calls).allEntries).contains name = true ↔
      ∃ e ∈ (ofCalls calls).allEntries, e.1 = name := by
    rw [Index.contains, List.contains_iff_mem, indexOf, List.mem_map]
  rw [hnames, allEntries, contains_foldl_replace, entries_ofCalls]
  simp only [mem_derived, attributes_ofCalls, plugins_ofCalls]
  constructor
  · rintro (⟨e, he, rfl⟩ | hadds)
    · rcases he with ⟨hsome, rfl⟩ | ⟨hsome, rfl⟩ | ⟨⟨type, _⟩, hp, rfl, rfl⟩
      · exact .inl ⟨rfl, hsome⟩
      · exact .inr (.inl ⟨rfl, hsome⟩)
      · exact .inr (.inr (.inl ⟨type, mem_pluginsOf_shipped.mp hp, rfl⟩))
    · exact .inr (.inr (.inr hadds))
  · rintro (⟨rfl, hsome⟩ | ⟨rfl, hsome⟩ | ⟨type, hcall, rfl⟩ | hadds)
    · exact .inl ⟨_, .inl ⟨hsome, rfl⟩, rfl⟩
    · exact .inl ⟨_, .inr (.inl ⟨hsome, rfl⟩), rfl⟩
    · exact .inl ⟨_, .inr (.inr ⟨_, mem_pluginsOf_shipped.mpr hcall, rfl, rfl⟩), rfl⟩
    · exact .inr hadds

theorem lookup_of_addsLast {bytes : ByteArray} (h : AddsLast calls name bytes) :
    (ofCalls calls).allEntries.lookup name = some bytes := by
  obtain ⟨before, after, hentries, hafter⟩ := h
  have hlast : (ofCalls calls).entries.reverse.lookup name = some bytes := by
    rw [entries_ofCalls]
    refine List.lookup_eq_some_iff.mpr ⟨after.reverse, before.reverse, ?_, ?_⟩
    · simp [hentries]
    · intro e he
      exact bne_iff_ne.mpr (hafter e (List.mem_reverse.mp he)).symm
  rw [lookup_allEntries, hlast, Option.some_or]

theorem contains_class_iff {p : ListedPlugin} (hd : (ofCalls calls).Proper)
    (hp : p ∈ pluginsOf calls) :
    (indexOf path (ofCalls calls).allEntries).contains (classEntry p.type) = true ↔
      shipped p.type ∈ calls ∨ Adds calls (classEntry p.type) := by
  have htypes := hd.types
  rw [plugins_ofCalls] at htypes
  obtain ⟨c, hc, hentry⟩ := exists_className (htypes p hp)
  rw [contains_iff]
  constructor
  · rintro (⟨hmanifest, -⟩ | ⟨hdescriptor, -⟩ | ⟨type, hcall, hsame⟩ | hadds)
    · exact absurd (hentry.symm.trans hmanifest) (entryPath_ne_of_dash c (by decide))
    · exact absurd (hentry.symm.trans hdescriptor) (entryPath_ne_of_dash c (by decide))
    · obtain ⟨c', hc', hentry'⟩ := exists_className (htypes _ (mem_pluginsOf_shipped.mpr hcall))
      have hequal : c = c' := ClassName.entryPath_inj.mp
        (hentry.symm.trans (hsame.trans hentry'))
      have htype : type = p.type := by
        rw [← hc, hequal]
        exact hc'.symm
      exact .inl (htype ▸ hcall)
    · exact .inr hadds
  · rintro (hcall | hadds)
    · exact .inr (.inr (.inl ⟨p.type, hcall, rfl⟩))
    · exact .inr (.inr (.inr hadds))

def duetCalls : List DraftCall :=
  [.confined "com.duet", .stated "Note" "for: two", .shipped "com.duet.Alto", .listed "com.duet.Bass",
    .shipped "com.duet.Alto", .entered "score.txt" "old".toUTF8,
    .compiled "com.duet.Alto" "code".toUTF8, .entered "score.txt" "new".toUTF8]

def duetDisk : Disk :=
  packedDisk [("duet.tgz", (ofCalls duetCalls).allEntries)]

theorem packed_duet : Packed duetDisk "duet.tgz" (ofCalls duetCalls).allEntries := by
  have hpath : EntryName.IsPart "duet.tgz".toList := ⟨by decide, by decide, by decide, by decide⟩
  have hname : ∀ e ∈ (ofCalls duetCalls).allEntries,
      EntryName.ofPath e.1.toUTF8.data.toList = .ok e.1 := by decide +kernel
  have hplain : ∀ e ∈ (ofCalls duetCalls).allEntries, 0 ∉ e.1.toUTF8.data.toList := by
    decide +kernel
  have hsmall : ∀ e ∈ (ofCalls duetCalls).allEntries, e.2.size ≤ maxMetadata := by decide +kernel
  refine packed_packedDisk hpath rfl ?_ (by decide +kernel) (by decide +kernel)
  intro e he
  exact ⟨hname e he, hplain e he, Nat.le_trans (hsmall e he) (by decide), fun _ => hsmall e he⟩

theorem proper_duet : ∀ call ∈ duetCalls, call.Proper := by
  have hname : Manifest.isName "Note".toList = true := by decide
  obtain ⟨hne, hblank⟩ := Manifest.isName_iff.mp hname
  have hnote : Manifest.Writable ("Note", "for: two") :=
    ⟨⟨hne, hblank, by decide⟩, by decide, by decide⟩
  have hscore : EntryName.Normal "score.txt".toList :=
    @EntryName.normal_of_ofPath "score.txt".toUTF8.data.toList _ (by decide +kernel)
  have hclass : EntryName.Normal (classEntry "com.duet.Alto").toList :=
    @EntryName.normal_of_ofPath (classEntry "com.duet.Alto").toUTF8.data.toList _
      (by decide +kernel)
  simp only [duetCalls, List.forall_mem_cons, Proper]
  exact ⟨by decide, hnote, by decide, by decide, by decide, hscore, hclass, hscore, nofun⟩

end DraftCall

end PluginAgent.Testing
