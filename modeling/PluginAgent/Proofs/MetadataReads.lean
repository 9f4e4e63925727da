import PluginAgent.Proofs.IndexedReads

namespace PluginAgent.Archive

open Codec

def LastNamed (members : List Tar.Member) (name : String) (m : Tar.Member) : Prop :=
  FirstNamed members.reverse name m

variable {members others : List Tar.Member} {items later : List Item} {name : String}

theorem Itemized.append (h : Itemized members items) (hlater : Itemized others later) :
    Itemized (members ++ others) (items ++ later) := by
  induction h with
  | nil => exact hlater
  | skip hm _ ih => exact .skip hm ih
  | keep hm _ ih => exact .keep hm ih

theorem Itemized.reverse (h : Itemized members items) :
    Itemized members.reverse items.reverse := by
  induction h with
  | nil => exact .nil
  | skip hm _ ih =>
    have hlonger := ih.append (.skip hm .nil)
    rwa [← List.reverse_cons, List.append_nil] at hlonger
  | keep hm _ ih =>
    rw [List.reverse_cons, List.reverse_cons]
    exact ih.append (.keep hm .nil)

theorem Item.read_undamaged {item : Item} {limit : Nat} (hdeclared : item.declared ≤ limit)
    (h : item.damaged = false) : item.read limit = .ok (item.content.extract 0 limit) := by
  rw [read, if_neg (Nat.not_lt.mpr hdeclared), h]
  rfl

def IsMetadata (name : String) : Prop :=
  metadataFolder.toList <+: name.toList

theorem Item.isMetadata_iff {item : Item} : item.isMetadata = true ↔ IsMetadata item.name :=
  List.isPrefixOf_iff_prefix

namespace Index

theorem lookup_readMetadata {known kept : List (String × ByteArray)}
    (h : readMetadata known items = .ok kept) (hname : IsMetadata name) :
    kept.lookup name = ((items.reverse.find? (·.name == name)).map
      (·.content.extract 0 maxMetadata)).or (known.lookup name) := by
  -- What is kept is put in front of what is known, so a later item hides an earlier one.
  induction items generalizing known with
  | nil =>
    obtain rfl := Except.ok.inj h
    rfl
  | cons item rest ih =>
    rw [readMetadata] at h
    rw [List.reverse_cons, List.find?_append]
    split at h
    · split at h
      · cases h
      rename_i bytes hread
      obtain ⟨-, -, rfl⟩ := Item.read_eq_ok hread
      rw [ih h, List.lookup_cons]
      by_cases hhit : item.name = name
      · have hkey : (name == item.name) = true := beq_iff_eq.mpr hhit.symm
        rw [hkey, List.find?_cons_of_pos (by simpa using hhit)]
        cases rest.reverse.find? (·.name == name) <;> rfl
      · have hkey : (name == item.name) = false := beq_eq_false_iff_ne.mpr (Ne.symm hhit)
        rw [hkey, List.find?_cons_of_neg (by simpa using hhit), List.find?_nil, Option.or_none]
    · rename_i hother
      have hmiss : item.name ≠ name := by
        rintro rfl
        exact hother (Item.isMetadata_iff.mpr hname)
      rw [ih h, List.find?_cons_of_neg (by simpa using hmiss), List.find?_nil, Option.or_none]

theorem declared_of_readMetadata {known kept : List (String × ByteArray)}
    (h : readMetadata known items = .ok kept) {item : Item} (hitem : item ∈ items)
    (hmetadata : IsMetadata item.name) : item.declared ≤ maxMetadata := by
  induction items generalizing known with
  | nil => exact absurd hitem List.not_mem_nil
  | cons first rest ih =>
    rw [readMetadata] at h
    rcases List.mem_cons.mp hitem with rfl | hrest
    · rw [if_pos (Item.isMetadata_iff.mpr hmetadata)] at h
      split at h
      · cases h
      rename_i hread
      exact (Item.read_eq_ok hread).1
    · split at h
      · split at h
        · cases h
        · exact ih h hrest
      · exact ih h hrest

variable {disk : Disk} {path : String} {file : ByteArray} {index : Index}

theorem readMetadata_of_ofFile (hat : Contents.at disk path = ⟨items, none⟩)
    (h : ofFile disk path = .ok index) : readMetadata [] items = .ok index.metadata := by
  rw [ofFile, ofContents, hat] at h
  split at h
  · cases h
  rename_i hread
  obtain rfl := Except.ok.inj h
  exact hread

theorem metadata_last_read_first {disk' : Disk} (hfile : disk.entry path = .ok (.file file))
    (hopen : ofFile disk path = .ok index) (hsame : disk'.entry path = disk.entry path)
    (hname : IsMetadata name) (hcontains : index.contains name = true) :
    ∃ first last, FirstNamed (Tar.listing file).members name first ∧
      LastNamed (Tar.listing file).members name last ∧
      index.metadata? name = some (last.content.extract 0 maxMetadata) ∧
      Namespaces.readEntry disk' path name = .ok (first.content.extract 0 maxContent) ∧
      (Tar.NoSizeRecords (Gzip.decode file) →
        ((∃ bytes, index.metadata? name = some bytes ∧
            Namespaces.readEntry disk' path name = .ok bytes) ↔
          first.content = last.content)) := by
  obtain ⟨hfault, -, items, hat, hnames, hitems⟩ := itemized_of_ofFile hfile hopen
  have hat' : Contents.at disk' path = ⟨items, none⟩ := by
    rw [← hat, Contents.at, Contents.at, hsame]
  have hkept := readMetadata_of_ofFile hat hopen
  rw [contains_eq_isSome hnames] at hcontains
  obtain ⟨item, hfind⟩ := Option.isSome_iff_exists.mp hcontains
  obtain ⟨item', hfind'⟩ : ∃ item', items.reverse.find? (·.name == name) = some item' := by
    rw [List.find?_isSome] at hcontains
    rw [← Option.isSome_iff_exists, List.find?_isSome]
    simpa using hcontains
  obtain ⟨first, hof, hfirst⟩ := hitems.firstNamed hfind
  obtain ⟨last, hof', hlast⟩ := hitems.reverse.firstNamed hfind'
  have hitem : item.name = name := by simpa using List.find?_some hfind
  have hitem' : item'.name = name := by simpa using List.find?_some hfind'
  have hsmall := declared_of_readMetadata hkept (List.mem_of_find?_eq_some hfind)
    (hitem ▸ hname)
  have hsmall' := declared_of_readMetadata hkept
    (List.mem_reverse.mp (List.mem_of_find?_eq_some hfind')) (hitem' ▸ hname)
  have hmetadata : index.metadata? name = some (last.content.extract 0 maxMetadata) := by
    rw [metadata?, lookup_readMetadata hkept hname, hfind', ← hof'.content]
    rfl
  have hread : Namespaces.readEntry disk' path name =
      .ok (first.content.extract 0 maxContent) := by
    have hundamaged := Tar.undamaged_listing hfault hfirst.mem hof.regular
    rw [← hof.damaged] at hundamaged
    have hitem : item.read maxContent = .ok (item.content.extract 0 maxContent) :=
      Item.read_undamaged (Nat.le_trans hsmall (by decide)) hundamaged
    rw [Namespaces.readEntry_eq_ok_iff, readEntry, hat', Contents.readEntry, hfind, ← hof.content]
    simp only [hitem, Except.map]
  refine ⟨first, last, hfirst, hlast, hmetadata, hread, fun hsizes => ?_⟩
  have hwhole := Tar.isWhole_listing hsizes hfault hfirst.mem hof.regular
  have hwhole' := Tar.isWhole_listing hsizes hfault (List.mem_reverse.mp hlast.mem) hof'.regular
  rw [hof.declared, ← hwhole.size_eq] at hsmall
  rw [hof'.declared, ← hwhole'.size_eq] at hsmall'
  rw [hmetadata, hread, extract_of_size_le hsmall',
    extract_of_size_le (Nat.le_trans hsmall (by decide))]
  constructor
  · rintro ⟨bytes, hlast, hfirst⟩
    exact (Except.ok.inj hfirst).trans (Option.some.inj hlast).symm
  · rintro heq
    exact ⟨_, rfl, congrArg _ heq⟩

theorem twin_descriptor_read_alike :
    ∃ index bytes, ofFile twinDisk "twin.tgz" = .ok index ∧
      index.metadata? (servicesFolder ++ Reserved.pluginInterface) = some bytes ∧
      Namespaces.readEntry twinDisk "twin.tgz" (servicesFolder ++ Reserved.pluginInterface) =
        .ok bytes := by
  have hpacked := packed_twin
  have hname : IsMetadata (servicesFolder ++ Reserved.pluginInterface) :=
    List.isPrefixOf_iff_prefix.mp (by decide)
  have hcontains : (indexOf "twin.tgz" twinEntries).contains
      (servicesFolder ++ Reserved.pluginInterface) = true := by decide +kernel
  obtain ⟨first, last, hfirst, hlast, -, -, hagree⟩ :=
    metadata_last_read_first hpacked.file hpacked.ofFile_eq rfl hname hcontains
  rw [hpacked.listing_eq] at hfirst hlast
  have hfirst' : FirstNamed ((twinEntries.map draftOf).map Tar.Draft.member)
      (servicesFolder ++ Reserved.pluginInterface) (draftOf twinEntries[0]).member :=
    ⟨[], _, rfl, by decide +kernel, by decide +kernel, by simp⟩
  have hlast' : LastNamed ((twinEntries.map draftOf).map Tar.Draft.member)
      (servicesFolder ++ Reserved.pluginInterface) (draftOf twinEntries[0]).member :=
    ⟨[_, _], [], rfl, by decide +kernel, by decide +kernel, by decide +kernel⟩
  have honly : first = last := (hfirst.unique hfirst').trans (hlast.unique hlast').symm
  obtain ⟨bytes, hmetadata, hread⟩ :=
    (hagree (Tar.noSizeRecords_file hpacked.plain hpacked.size_write_lt)).mpr (congrArg _ honly)
  exact ⟨_, bytes, hpacked.ofFile_eq, hmetadata, hread⟩

def duplicateEntries : List (String × ByteArray) :=
  [(manifestEntry, "Probe-Plugin-Package: com.first\n".toUTF8),
    (manifestEntry, "Probe-Plugin-Package: com.second\n".toUTF8)]

def duplicateDisk : Disk :=
  packedDisk [("p.tgz", duplicateEntries)]

theorem packed_duplicate : Packed duplicateDisk "p.tgz" duplicateEntries := by
  have hpath : EntryName.IsPart "p.tgz".toList := ⟨by decide, by decide, by decide, by decide⟩
  have hname : ∀ e ∈ duplicateEntries, EntryName.ofPath e.1.toUTF8.data.toList = .ok e.1 := by
    decide +kernel
  have hplain : ∀ e ∈ duplicateEntries, 0 ∉ e.1.toUTF8.data.toList := by decide +kernel
  have hcontent : ∀ e ∈ duplicateEntries, e.2.size ≤ maxContent := by decide +kernel
  have hmetadata : ∀ e ∈ duplicateEntries,
      metadataFolder.toList.isPrefixOf e.1.toList = true → e.2.size ≤ maxMetadata := by
    decide +kernel
  refine packed_packedDisk hpath rfl ?_ (by decide) (by decide +kernel)
  intro e he
  exact ⟨hname e he, hplain e he, hcontent e he, hmetadata e he⟩

theorem second_manifest_declares :
    ∃ index bytes, ofFile duplicateDisk "p.tgz" = .ok index ∧
      index.contains manifestEntry = true ∧ index.packages.1.prefixes = ["com.second"] ∧
      Namespaces.readEntry duplicateDisk "p.tgz" manifestEntry = .ok bytes ∧
      bytes = "Probe-Plugin-Package: com.first\n".toUTF8 ∧
      index.metadata? manifestEntry ≠ some bytes := by
  have hpacked := packed_duplicate
  refine ⟨_, _, hpacked.ofFile_eq, by decide +kernel, by decide +kernel, ?_, rfl,
    by decide +kernel⟩
  rw [Namespaces.readEntry_eq_ok_iff, hpacked.readEntry_eq]
  decide +kernel

end Index

end PluginAgent.Archive
