import PluginAgent.Plugin.Loader
import PluginAgent.Proofs.EntryNames
import PluginAgent.Proofs.TarRoundTrip

namespace PluginAgent.Archive

open Codec

structure Packable (e : String × ByteArray) : Prop where
  name : EntryName.ofPath e.1.toUTF8.data.toList = .ok e.1
  plain : 0 ∉ e.1.toUTF8.data.toList
  content : e.2.size ≤ maxContent
  metadata : metadataFolder.toList.isPrefixOf e.1.toList = true → e.2.size ≤ maxMetadata

def draftOf (e : String × ByteArray) : Tar.Draft :=
  { name := e.1.toUTF8, content := e.2 }

def itemOf (e : String × ByteArray) : Item :=
  ⟨e.1, e.2.size, e.2, false⟩

def indexOf (path : String) (entries : List (String × ByteArray)) : Index :=
  ⟨path, entries.map (·.1),
    (entries.filter fun e => metadataFolder.toList.isPrefixOf e.1.toList).reverse⟩

structure Packed (disk : Disk) (path : String) (entries : List (String × ByteArray)) : Prop where
  file : disk.entry path = .ok (.file (Tar.file (entries.map draftOf)))
  packable : ∀ e ∈ entries, Packable e
  count : entries.length ≤ maxEntries
  size : (entries.map fun e => 4 * Tar.blockSize + e.1.toUTF8.size + e.2.size).sum +
    2 * Tar.blockSize < Tar.wordBound

variable {e : String × ByteArray} {entries : List (String × ByteArray)}

theorem plain_draftOf (h : Packable e) : (draftOf e).Plain where
  name := h.plain
  declared := rfl
  flag := (by decide : '0'.toNat < 256)
  ordinary := (by decide : '0' ≠ 'L' ∧ '0' ≠ 'K' ∧ '0' ≠ 'x' ∧ '0' ≠ 'S')

theorem read_itemOf {limit : Nat} (h : e.2.size ≤ limit) : (itemOf e).read limit = .ok e.2 := by
  have hdeclared : ¬(itemOf e).declared > limit := Nat.not_lt.mpr h
  have hwhole : (itemOf e).content.extract 0 limit = e.2 := extract_of_size_le h
  rw [Item.read, if_neg hdeclared, hwhole]
  rfl

theorem find?_items (entries : List (String × ByteArray)) (name : String) :
    (entries.map itemOf).find? (·.name == name) =
      (entries.lookup name).map fun bytes => itemOf (name, bytes) := by
  induction entries with
  | nil => rfl
  | cons e rest ih =>
    rw [List.map_cons, List.find?_cons, List.lookup_cons]
    by_cases hname : e.1 = name
    · have hfound : ((itemOf e).name == name) = true := beq_iff_eq.mpr hname
      have hlookup : (name == e.1) = true := beq_iff_eq.mpr hname.symm
      rw [hfound, hlookup, ← hname]
      rfl
    · have hother : ((itemOf e).name == name) = false := beq_eq_false_iff_ne.mpr hname
      have hlookup : (name == e.1) = false := beq_eq_false_iff_ne.mpr (Ne.symm hname)
      rw [hother, hlookup]
      exact ih

theorem readEntry_items (h : ∀ e ∈ entries, e.2.size ≤ maxContent) (name : String) :
    Contents.readEntry ⟨entries.map itemOf, none⟩ name = .ok (entries.lookup name) := by
  rw [Contents.readEntry, find?_items]
  cases hlookup : entries.lookup name with
  | none => rfl
  | some bytes =>
    obtain ⟨before, after, heq, -⟩ := List.lookup_eq_some_iff.mp hlookup
    have hbytes : bytes.size ≤ maxContent := h (name, bytes) (by simp [heq])
    have hread : (itemOf (name, bytes)).read maxContent = .ok bytes := read_itemOf hbytes
    simp only [Option.map_some, hread, Except.map]

theorem readMetadata_items
    (h : ∀ e ∈ entries, metadataFolder.toList.isPrefixOf e.1.toList = true → e.2.size ≤ maxMetadata)
    (known : List (String × ByteArray)) :
    Index.readMetadata known (entries.map itemOf) =
      .ok ((entries.filter fun e => metadataFolder.toList.isPrefixOf e.1.toList).reverse ++ known) := by
  induction entries generalizing known with
  | nil => rfl
  | cons e rest ih =>
    obtain ⟨he, hrest⟩ := List.forall_mem_cons.mp h
    rw [List.map_cons, Index.readMetadata, List.filter_cons]
    by_cases hmeta : metadataFolder.toList.isPrefixOf e.1.toList = true
    · have hitem : (itemOf e).isMetadata = true := hmeta
      rw [if_pos hitem, if_pos hmeta, read_itemOf (he hmeta)]
      simp only [ih hrest, List.reverse_cons, List.append_assoc, List.singleton_append]
      rfl
    · have hitem : ¬(itemOf e).isMetadata = true := hmeta
      rw [if_neg hitem, if_neg hmeta, ih hrest]

theorem walk_packed (h : ∀ e ∈ entries, EntryName.ofPath e.1.toUTF8.data.toList = .ok e.1)
    (count : Nat) (done : List Item) (hcount : count + entries.length ≤ maxEntries) :
    Contents.walk none count done ((entries.map draftOf).map Tar.Draft.member) =
      ⟨done.reverse ++ entries.map itemOf, none⟩ := by
  induction entries generalizing count done with
  | nil => simp [Contents.walk]
  | cons e rest ih =>
    obtain ⟨he, hrest⟩ := List.forall_mem_cons.mp h
    have hname : EntryName.ofPath (draftOf e).member.path = .ok e.1 := he
    have hregular : (draftOf e).member.regular = true := by
      simp [Tar.Draft.member, draftOf]
    rw [List.length_cons] at hcount
    rw [List.map_cons, List.map_cons, Contents.walk, if_neg (by omega), hregular, hname]
    have hlater := ih hrest (count + 1) (itemOf e :: done) (by omega)
    rw [List.reverse_cons, List.append_assoc, List.singleton_append] at hlater
    exact hlater

namespace Packed

variable {disk : Disk} {path : String} (h : Packed disk path entries)

include h

theorem plain : ∀ draft ∈ entries.map draftOf, draft.Plain := by
  intro draft hdraft
  obtain ⟨e, he, rfl⟩ := List.mem_map.mp hdraft
  exact plain_draftOf (h.packable e he)

theorem size_write_lt : (Tar.write (entries.map draftOf)).size < Tar.wordBound := by
  have hsize := Tar.size_write_le (entries.map draftOf)
  rw [List.map_map] at hsize
  exact Nat.lt_of_le_of_lt hsize h.size

theorem listing_eq : Tar.listing (Tar.file (entries.map draftOf)) =
    ⟨(entries.map draftOf).map Tar.Draft.member, none⟩ :=
  Tar.listing_file h.plain h.size_write_lt

theorem at_eq : Contents.at disk path = ⟨entries.map itemOf, none⟩ := by
  rw [Contents.at, h.file]
  simp only [Contents.ofListing, h.listing_eq]
  exact walk_packed (fun e he => (h.packable e he).name) 0 [] (by simpa using h.count)

theorem readEntry_eq (name : String) : readEntry disk path name = .ok (entries.lookup name) := by
  rw [readEntry, h.at_eq]
  exact readEntry_items (fun e he => (h.packable e he).content) name

theorem ofFile_eq : Index.ofFile disk path = .ok (indexOf path entries) := by
  rw [Index.ofFile, h.at_eq, Index.ofContents,
    readMetadata_items (fun e he => (h.packable e he).metadata), List.append_nil]
  simp only [List.map_map]
  rfl

theorem opens : ∃ index, Index.ofFile disk path = .ok index :=
  ⟨_, h.ofFile_eq⟩

end Packed

def packedDisk (archives : List (String × List (String × ByteArray))) : Disk where
  entries := archives.map fun a => ([a.1], .file (Tar.file (a.2.map draftOf)))

theorem find?_packedDisk {archives : List (String × List (String × ByteArray))} {path : String}
    (h : archives.lookup path = some entries) :
    (packedDisk archives).find? [path] = some (.file (Tar.file (entries.map draftOf))) := by
  rw [Disk.find?, if_neg (List.cons_ne_nil _ _), packedDisk]
  induction archives with
  | nil => cases h
  | cons a rest ih =>
    rw [List.lookup_cons] at h
    rw [List.map_cons, List.lookup_cons]
    by_cases hname : path = a.1
    · have hhit : (path == a.1) = true := beq_iff_eq.mpr hname
      have hkey : ([path] == [a.1]) = true := beq_iff_eq.mpr (List.singleton_inj.mpr hname)
      rw [hhit] at h
      obtain rfl := Option.some.inj h
      rw [hkey]
    · have hmiss : (path == a.1) = false := beq_eq_false_iff_ne.mpr hname
      have hkey : ([path] == [a.1]) = false :=
        beq_eq_false_iff_ne.mpr fun heq => hname (List.singleton_inj.mp heq)
      rw [hmiss] at h
      rw [hkey]
      exact ih h

theorem entry_of_find? {disk : Disk} {path : String} {found : Entry} (hworking : disk.working = [])
    (hpath : EntryName.IsPart path.toList) (h : disk.find? [path] = some found) :
    disk.entry path = .ok found := by
  have hparts : Disk.parts path = [path] := by
    have hsplit : Text.splitOn '/' (Text.joinWith ['/'] [path.toList]) = [path.toList] :=
      Text.splitOn_joinWith (by simpa using hpath.slash_not_mem) (by simp)
    rw [Disk.parts, show path.toList = Text.joinWith ['/'] [path.toList] from rfl, hsplit]
    simp
  have horigin : disk.origin path = [] := by
    rw [Disk.origin, hworking, ite_self]
  have hnil : path ≠ "" := fun h => hpath.ne_nil (h ▸ rfl)
  have hcurrent : path ≠ "." := fun h => hpath.ne_current (h ▸ rfl)
  have hparent : path ≠ ".." := fun h => hpath.ne_parent (h ▸ rfl)
  have hlocate : disk.locate path = .ok [path] := by
    have hroot : disk.find? [] = some .directory := if_pos rfl
    simp only [Disk.locate, String.isEmpty_iff, hnil, if_false, hparts, horigin, List.foldlM_cons,
      List.foldlM_nil, Disk.step, hroot, hcurrent, hparent, or_self, List.nil_append, h,
      Option.isSome_some, if_true]
    rfl
  rw [Disk.entry, hlocate]
  simp only [bind, Except.bind, Disk.entryAt, h]

theorem packed_packedDisk {archives : List (String × List (String × ByteArray))} {path : String}
    (hpath : EntryName.IsPart path.toList) (h : archives.lookup path = some entries)
    (hpackable : ∀ e ∈ entries, Packable e) (hcount : entries.length ≤ maxEntries)
    (hsize : (entries.map fun e => 4 * Tar.blockSize + e.1.toUTF8.size + e.2.size).sum +
      2 * Tar.blockSize < Tar.wordBound) : Packed (packedDisk archives) path entries :=
  ⟨entry_of_find? rfl hpath (find?_packedDisk h), hpackable, hcount, hsize⟩

def mainType : ClassName :=
  ⟨"io.probe.plugin.Main", by decide⟩

def mainEntries (bytes : ByteArray) : List (String × ByteArray) :=
  [(servicesFolder ++ Reserved.pluginInterface, mainType.text.toUTF8),
    (mainType.entryPath, bytes)]

theorem packed_mainEntries {archives : List (String × List (String × ByteArray))} {path : String}
    {bytes : ByteArray} (hpath : EntryName.IsPart path.toList)
    (h : archives.lookup path = some (mainEntries bytes)) (hsize : bytes.size ≤ maxMetadata) :
    Packed (packedDisk archives) path (mainEntries bytes) := by
  have hlisted : mainType.text.toUTF8.size = 20 := by decide +kernel
  have hservice : (servicesFolder ++ Reserved.pluginInterface).toUTF8.size = 58 := by
    decide +kernel
  have hclass : mainType.entryPath.toUTF8.size = 26 := by decide +kernel
  have hname : EntryName.ofPath mainType.entryPath.toUTF8.data.toList = .ok mainType.entryPath := by
    decide +kernel
  have hplain : 0 ∉ mainType.entryPath.toUTF8.data.toList := by decide +kernel
  have hcontent : bytes.size ≤ maxContent := Nat.le_trans hsize (by decide)
  refine packed_packedDisk hpath h ?_ (by simp [mainEntries, maxEntries]) ?_
  · intro e he
    rcases List.mem_cons.mp he with rfl | he
    · exact ⟨by decide +kernel, by decide +kernel, by rw [hlisted]; decide,
        fun _ => by rw [hlisted]; decide⟩
    · rw [List.mem_singleton.mp he]
      exact ⟨hname, hplain, hcontent, fun _ => hsize⟩
  · simp only [mainEntries, List.map_cons, List.map_nil, List.sum_cons, List.sum_nil, hlisted,
      hservice, hclass, Tar.blockSize, Tar.wordBound, maxMetadata] at hsize ⊢
    omega

theorem lookup_mainEntries (bytes : ByteArray) :
    (mainEntries bytes).lookup mainType.entryPath = some bytes := by
  have hother : (mainType.entryPath == servicesFolder ++ Reserved.pluginInterface) = false := by
    decide +kernel
  simp [mainEntries, List.lookup_cons, hother]

theorem readEntry_mainEntries {archives : List (String × List (String × ByteArray))} {path : String}
    {bytes : ByteArray} (hpath : EntryName.IsPart path.toList)
    (h : archives.lookup path = some (mainEntries bytes)) (hsize : bytes.size ≤ maxMetadata) :
    Namespaces.readEntry (packedDisk archives) path mainType.entryPath = .ok bytes := by
  rw [Namespaces.readEntry, (packed_mainEntries hpath h hsize).readEntry_eq, lookup_mainEntries]

def soprano : ClassName :=
  ⟨"io.probe.plugin.Soprano", by decide⟩

def alto : ClassName :=
  ⟨"io.probe.plugin.Alto", by decide⟩

def tenor : ClassName :=
  ⟨"io.probe.plugin.Tenor", by decide⟩

def baritone : ClassName :=
  ⟨"io.probe.plugin.Baritone", by decide⟩

def bass : ClassName :=
  ⟨"io.probe.plugin.Bass", by decide⟩

def choir : List ClassName :=
  [soprano, alto, tenor, baritone, bass]

def choirEntries : List (String × ByteArray) :=
  (servicesFolder ++ Reserved.pluginInterface, ("\n".intercalate (choir.map (·.text))).toUTF8) ::
    choir.map fun type => (type.entryPath, .empty)

def choirDisk : Disk :=
  packedDisk [("choir.tgz", choirEntries)]

theorem packed_choir : Packed choirDisk "choir.tgz" choirEntries := by
  have hpath : EntryName.IsPart "choir.tgz".toList :=
    ⟨by decide, by decide, by decide, by decide⟩
  have hname : ∀ e ∈ choirEntries, EntryName.ofPath e.1.toUTF8.data.toList = .ok e.1 := by
    decide +kernel
  have hplain : ∀ e ∈ choirEntries, 0 ∉ e.1.toUTF8.data.toList := by decide +kernel
  have hcontent : ∀ e ∈ choirEntries, e.2.size ≤ maxContent := by decide +kernel
  have hmetadata : ∀ e ∈ choirEntries,
      metadataFolder.toList.isPrefixOf e.1.toList = true → e.2.size ≤ maxMetadata := by
    decide +kernel
  refine packed_packedDisk hpath rfl ?_ (by decide) (by decide +kernel)
  intro e he
  exact ⟨hname e he, hplain e he, hcontent e he, hmetadata e he⟩

end PluginAgent.Archive

namespace PluginAgent

open Archive

theorem Listed.ofArchives_packed {disk : Disk}
    (archives : List (String × List (String × ByteArray)))
    (h : ∀ x ∈ archives, Packed disk x.1 x.2) :
    ofArchives disk (archives.map (·.1)) =
      (.ok (archives.map fun x => ⟨indexOf x.1 x.2, (indexOf x.1 x.2).packages.1⟩),
        archives.flatMap fun x => (indexOf x.1 x.2).packages.2) := by
  induction archives with
  | nil => rfl
  | cons x rest ih =>
    have hrest := ih fun y hy => h y (List.mem_cons_of_mem _ hy)
    simp only [List.map_cons, List.flatMap_cons, ofArchives, (h x List.mem_cons_self).ofFile_eq,
      hrest]
    rfl

theorem Loader.load_packed {σ : Type} (l : Loader σ) (w : World σ)
    (archives : List (String × List (String × ByteArray))) (results : List SetupResult)
    (h : ∀ x ∈ archives, Packed w.disk x.1 x.2)
    (hall : (setUpListed l
      (archives.map fun x => ⟨indexOf x.1 x.2, (indexOf x.1 x.2).packages.1⟩)
      (w.emit (archives.flatMap fun x => (indexOf x.1 x.2).packages.2))).1 = .ok results) :
    ∃ w', l.load (archives.map (·.1)) w = (.ok results, w') := by
  simp only [load, Listed.ofArchives_packed archives h]
  split <;> rename_i hrun <;> rw [hrun] at hall
  · cases hall
  · obtain rfl := Outcome.ok.inj hall
    exact ⟨_, rfl⟩

end PluginAgent
