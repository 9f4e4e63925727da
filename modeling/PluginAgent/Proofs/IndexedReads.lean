import PluginAgent.Proofs.Discovery
import PluginAgent.Proofs.LoadParts
import PluginAgent.Proofs.Reading
import PluginAgent.Proofs.WholeMembers

namespace PluginAgent.Archive

open Codec

def FirstNamed (members : List Tar.Member) (name : String) (m : Tar.Member) : Prop :=
  ∃ before after, members = before ++ m :: after ∧
    m.regular = true ∧ EntryName.ofPath m.path = .ok name ∧
    ∀ other ∈ before, other.regular = true → EntryName.ofPath other.path ≠ .ok name

inductive Itemized : List Tar.Member → List Item → Prop
  | nil : Itemized [] []
  | skip {m members items} (hm : m.regular = false) (h : Itemized members items) :
      Itemized (m :: members) items
  | keep {m item members items} (hm : item.IsOf m) (h : Itemized members items) :
      Itemized (m :: members) (item :: items)

variable {members : List Tar.Member} {items : List Item} {name : String} {m : Tar.Member}

theorem FirstNamed.mem (h : FirstNamed members name m) : m ∈ members := by
  obtain ⟨before, after, rfl, -⟩ := h
  simp

theorem FirstNamed.unique {a b : Tar.Member} (ha : FirstNamed members name a)
    (hb : FirstNamed members name b) : a = b := by
  obtain ⟨before, after, rfl, haregular, haname, hbefore⟩ := ha
  obtain ⟨before', after', heq, hbregular, hbname, hbefore'⟩ := hb
  rcases List.append_eq_append_iff.mp heq with ⟨between, rfl, hrest⟩ | ⟨between, rfl, hrest⟩
  · cases between with
    | nil => exact (List.cons.inj hrest).1
    | cons x more =>
      obtain rfl := (List.cons.inj hrest).1
      exact absurd haname (hbefore' a (by simp) haregular)
  · cases between with
    | nil => exact (List.cons.inj hrest).1.symm
    | cons x more =>
      obtain rfl := (List.cons.inj hrest).1
      exact absurd hbname (hbefore b (by simp) hbregular)

theorem FirstNamed.cons {other : Tar.Member}
    (hother : other.regular = true → EntryName.ofPath other.path ≠ .ok name)
    (h : FirstNamed members name m) : FirstNamed (other :: members) name m := by
  obtain ⟨before, after, rfl, hregular, hname, hbefore⟩ := h
  exact ⟨other :: before, after, rfl, hregular, hname, List.forall_mem_cons.mpr ⟨hother, hbefore⟩⟩

theorem Itemized.firstNamed (h : Itemized members items) {item : Item}
    (hfind : items.find? (·.name == name) = some item) :
    ∃ m, item.IsOf m ∧ FirstNamed members name m := by
  induction h with
  | nil => cases hfind
  | skip hm _ ih =>
    obtain ⟨m, hof, hfirst⟩ := ih hfind
    exact ⟨m, hof, hfirst.cons fun hregular => absurd (hm.symm.trans hregular) Bool.false_ne_true⟩
  | @keep m first members items hm _ ih =>
    rw [List.find?_cons] at hfind
    split at hfind
    · rename_i hhit
      obtain rfl := Option.some.inj hfind
      exact ⟨m, hm, [], members, rfl, hm.regular, beq_iff_eq.mp hhit ▸ hm.name, by simp⟩
    · rename_i hmiss
      obtain ⟨m, hof, hfirst⟩ := ih hfind
      refine ⟨m, hof, hfirst.cons fun _ hname => ?_⟩
      have heq : first.name = name := Except.ok.inj (hm.name.symm.trans hname)
      simp [heq] at hmiss

theorem FirstNamed.append (h : FirstNamed members name m) (rest : List Tar.Member) :
    FirstNamed (members ++ rest) name m := by
  obtain ⟨before, after, rfl, hm⟩ := h
  exact ⟨before, after ++ rest, by rw [List.append_assoc, List.cons_append], hm⟩

theorem Contents.itemized_walk (fault : Option Tar.Fault) (count : Nat) (done : List Item)
    (members : List Tar.Member) :
    ∃ seen rest items, members = seen ++ rest ∧
      (walk fault count done members).items = done.reverse ++ items ∧ Itemized seen items ∧
      ((walk fault count done members).flaw = none → fault = none ∧ rest = []) := by
  induction members generalizing count done with
  | nil =>
    exact ⟨[], [], [], rfl, (List.append_nil _).symm, .nil,
      fun h => ⟨Option.map_eq_none_iff.mp h, rfl⟩⟩
  | cons m rest ih =>
    have hstop (flaw : Flaw) : ∃ seen later items, m :: rest = seen ++ later ∧
        (⟨done.reverse, some flaw⟩ : Contents).items = done.reverse ++ items ∧
        Itemized seen items ∧ (some flaw = none → fault = none ∧ later = []) :=
      ⟨[], m :: rest, [], rfl, (List.append_nil _).symm, .nil, nofun⟩
    rw [walk]
    split
    · exact hstop _
    split
    · rename_i hskip
      obtain ⟨seen, later, items, hmembers, hitems, hseen, hend⟩ := ih (count + 1) done
      exact ⟨m :: seen, later, items, by rw [hmembers]; rfl, hitems,
        .skip (by simpa using hskip) hseen, hend⟩
    · rename_i hregular
      split
      · exact hstop _
      rename_i name hname
      obtain ⟨seen, later, items, hmembers, hitems, hseen, hend⟩ :=
        ih (count + 1) (⟨name, m.declared, m.content, m.damaged⟩ :: done)
      rw [List.reverse_cons, List.append_assoc] at hitems
      exact ⟨m :: seen, later, _, by rw [hmembers]; rfl, hitems,
        .keep ⟨by simpa using hregular, hname, rfl, rfl, rfl⟩ hseen, hend⟩

theorem Item.read_whole {item : Item} (hof : item.IsOf m) (hm : m.IsWhole) (limit : Nat) :
    item.read limit =
      if m.declared ≤ limit then .ok m.content else .error (.tooLarge m.declared limit) := by
  rw [read, hof.declared, hof.content, hof.damaged, hm.undamaged]
  split
  · rename_i hlarge
    rw [if_neg (Nat.not_le.mpr hlarge)]
  · rename_i hsmall
    have hle := Nat.le_of_not_gt hsmall
    rw [if_pos hle, extract_of_size_le (hm.size_eq ▸ hle)]
    rfl

section

variable {disk : Disk} {path : String} (hat : Contents.at disk path = ⟨items, none⟩)

include hat

theorem readEntry_missing (hfind : items.find? (·.name == name) = none) :
    Namespaces.readEntry disk path name = .error (.entryNotFound path name) := by
  rw [Namespaces.readEntry, readEntry, hat, Contents.readEntry, hfind]

theorem readEntry_whole {item : Item} (hfind : items.find? (·.name == name) = some item)
    (hof : item.IsOf m) (hm : m.IsWhole) :
    Namespaces.readEntry disk path name =
      if m.declared ≤ maxContent then .ok m.content
      else .error (.archiveUnavailable path (.tooLarge m.declared maxContent)) := by
  rw [Namespaces.readEntry, readEntry, hat, Contents.readEntry, hfind]
  simp only [Item.read_whole hof hm]
  by_cases hsize : m.declared ≤ maxContent
  · simp only [if_pos hsize, Except.map]
  · simp only [if_neg hsize, Except.map]

end

namespace Index

variable {disk : Disk} {path : String} {file : ByteArray} {index : Index}

theorem itemized_of_ofFile (hfile : disk.entry path = .ok (.file file))
    (h : ofFile disk path = .ok index) :
    (Tar.listing file).fault = none ∧ index.path = path ∧
      ∃ items, Contents.at disk path = ⟨items, none⟩ ∧ index.names = items.map (·.name) ∧
        Itemized (Tar.listing file).members items := by
  have hat : Contents.at disk path = .ofListing (Tar.listing file) := by
    rw [Contents.at, hfile]
  rw [ofFile, ofContents] at h
  split at h
  · cases h
  split at h
  · cases h
  rename_i hflaw
  obtain rfl := Except.ok.inj h
  rw [hat, Contents.ofListing] at hflaw
  obtain ⟨seen, rest, items, hmembers, hwalk, hitems, hend⟩ :=
    Contents.itemized_walk (Tar.listing file).fault 0 [] (Tar.listing file).members
  obtain ⟨hfault, rfl⟩ := hend hflaw
  rw [List.reverse_nil, List.nil_append] at hwalk
  have hitemized : Contents.at disk path = ⟨items, none⟩ := by
    rw [hat, Contents.ofListing, ← hwalk, ← hflaw]
  rw [hmembers, List.append_nil]
  exact ⟨hfault, rfl, items, hitemized, by rw [hitemized], hitems⟩

theorem contains_eq_isSome (h : index.names = items.map (·.name)) (name : String) :
    index.contains name = (items.find? (·.name == name)).isSome := by
  rw [Bool.eq_iff_iff, List.find?_isSome, contains, h, List.contains_iff_mem, List.mem_map]
  simp only [beq_iff_eq]

theorem reads_as_indexed {disk' : Disk} (hfile : disk.entry path = .ok (.file file))
    (hsizes : Tar.NoSizeRecords (Gzip.decode file)) (hopen : ofFile disk path = .ok index)
    (hsame : disk'.entry path = disk.entry path) :
    (∀ name,
      (index.contains name = false ↔
        Namespaces.readEntry disk' path name = .error (.entryNotFound path name)) ∧
      (index.contains name = true →
        ∃ m, FirstNamed (Tar.listing file).members name m ∧ m.content.size = m.declared ∧
          Namespaces.readEntry disk' path name =
            if m.declared ≤ maxContent then .ok m.content
            else .error (.archiveUnavailable path (.tooLarge m.declared maxContent)))) ∧
    ∀ catalog cs, Candidate.discover index catalog = .ok cs → ∀ c ∈ cs,
      ∃ m, FirstNamed (Tar.listing file).members c.type.entryPath m ∧
        m.content.size = m.declared ∧
        (m.declared ≤ maxContent →
          Namespaces.readEntry disk' c.archive c.type.entryPath = .ok m.content) := by
  obtain ⟨hfault, hpath, items, hat, hnames, hitems⟩ := itemized_of_ofFile hfile hopen
  have hat' : Contents.at disk' path = ⟨items, none⟩ := by
    rw [← hat, Contents.at, Contents.at, hsame]
  have hfound (name : String) (h : index.contains name = true) :
      ∃ m, FirstNamed (Tar.listing file).members name m ∧ m.content.size = m.declared ∧
        Namespaces.readEntry disk' path name =
          if m.declared ≤ maxContent then .ok m.content
          else .error (.archiveUnavailable path (.tooLarge m.declared maxContent)) := by
    rw [contains_eq_isSome hnames] at h
    obtain ⟨item, hfind⟩ := Option.isSome_iff_exists.mp h
    obtain ⟨m, hof, hfirst⟩ := hitems.firstNamed hfind
    have hwhole := Tar.isWhole_listing hsizes hfault hfirst.mem hof.regular
    exact ⟨m, hfirst, hwhole.size_eq, readEntry_whole hat' hfind hof hwhole⟩
  refine ⟨fun name => ⟨⟨fun h => ?_, fun h => ?_⟩, hfound name⟩, ?_⟩
  · rw [contains_eq_isSome hnames, Option.isSome_eq_false_iff, Option.isNone_iff_eq_none] at h
    exact readEntry_missing hat' h
  · refine Bool.eq_false_iff.mpr fun hcontains => ?_
    obtain ⟨m, -, -, hread⟩ := hfound name hcontains
    rw [h] at hread
    split at hread <;> cases hread
  · intro catalog cs hcs c hc
    have hoffered := (Candidate.discover_eq_ok hcs).2 c hc
    obtain ⟨m, hfirst, hsize, hread⟩ := hfound _ hoffered.packaged
    refine ⟨m, hfirst, hsize, fun hlimit => ?_⟩
    rw [hoffered.archive, hpath, hread, if_pos hlimit]

def twinEntries : List (String × ByteArray) :=
  mainEntries ⟨#[1]⟩ ++ [(mainType.entryPath, ⟨#[2]⟩)]

def twinDisk : Disk :=
  packedDisk [("twin.tgz", twinEntries)]

theorem packed_twin : Packed twinDisk "twin.tgz" twinEntries := by
  have hpath : EntryName.IsPart "twin.tgz".toList :=
    ⟨by decide, by decide, by decide, by decide⟩
  have hname : ∀ e ∈ twinEntries, EntryName.ofPath e.1.toUTF8.data.toList = .ok e.1 := by
    decide +kernel
  have hplain : ∀ e ∈ twinEntries, 0 ∉ e.1.toUTF8.data.toList := by decide +kernel
  have hcontent : ∀ e ∈ twinEntries, e.2.size ≤ maxContent := by decide +kernel
  have hmetadata : ∀ e ∈ twinEntries,
      metadataFolder.toList.isPrefixOf e.1.toList = true → e.2.size ≤ maxMetadata := by
    decide +kernel
  refine packed_packedDisk hpath rfl ?_ (by decide) (by decide +kernel)
  intro e he
  exact ⟨hname e he, hplain e he, hcontent e he, hmetadata e he⟩

theorem twin_reads_as_indexed :
    ∃ index c, ofFile twinDisk "twin.tgz" = .ok index ∧
      Candidate.discover index (.uniform [mainType] fun _ => .done (.ok ())) = .ok [c] ∧
      index.contains c.type.entryPath = true ∧
      Namespaces.readEntry twinDisk c.archive c.type.entryPath = .ok ⟨#[1]⟩ ∧
      index.contains "absent" = false ∧
      Namespaces.readEntry twinDisk "twin.tgz" "absent" =
        .error (.entryNotFound "twin.tgz" "absent") := by
  have hpacked := packed_twin
  obtain ⟨hreads, hdiscovered⟩ := reads_as_indexed hpacked.file
    (Tar.noSizeRecords_file hpacked.plain hpacked.size_write_lt) hpacked.ofFile_eq rfl
  have hdescriptor : (indexOf "twin.tgz" twinEntries).descriptor Reserved.pluginInterface =
      .ok (some ⟨[mainType]⟩) := by decide +kernel
  have hcontains : (indexOf "twin.tgz" twinEntries).contains mainType.entryPath = true := by
    decide +kernel
  have habsent : (indexOf "twin.tgz" twinEntries).contains "absent" = false := by decide +kernel
  have hdiscover : Candidate.discover (indexOf "twin.tgz" twinEntries)
      (.uniform [mainType] fun _ => .done (.ok ())) =
      .ok [⟨mainType, "twin.tgz", fun _ => .done (.ok ())⟩] := by
    simp only [Candidate.discover, hdescriptor, Candidate.ofTypes, Candidate.ofType, hcontains]
    rfl
  have hfirst : FirstNamed (Tar.listing (Tar.file (twinEntries.map draftOf))).members
      mainType.entryPath (draftOf (mainType.entryPath, ⟨#[1]⟩)).member := by
    rw [hpacked.listing_eq]
    exact ⟨[_], _, rfl, by decide +kernel, by decide +kernel, by decide +kernel⟩
  obtain ⟨m, hm, -, hread⟩ := hdiscovered _ _ hdiscover _ List.mem_cons_self
  obtain rfl := hm.unique hfirst
  exact ⟨_, _, hpacked.ofFile_eq, hdiscover, hcontains, hread (by decide), habsent,
    ((hreads "absent").1.mp habsent)⟩

end Index

end PluginAgent.Archive
