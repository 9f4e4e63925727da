import PluginAgent.Proofs.PackedEntries

namespace PluginAgent

open Codec

namespace Archive

structure Item.IsOf (item : Item) (m : Tar.Member) : Prop where
  regular : m.regular = true
  name : EntryName.ofPath m.path = .ok item.name
  declared : item.declared = m.declared
  content : item.content = m.content
  damaged : item.damaged = m.damaged

theorem Item.read_eq_ok {item : Item} {limit : Nat} {bytes : ByteArray}
    (h : item.read limit = .ok bytes) :
    item.declared ≤ limit ∧ (item.damaged = true → limit ≤ item.content.size) ∧
      bytes = item.content.extract 0 limit := by
  rw [Item.read] at h
  split at h
  · cases h
  · rename_i hdeclared
    split at h
    · cases h
    · rename_i hdamaged
      refine ⟨Nat.le_of_not_gt hdeclared, ?_, (Except.ok.inj h).symm⟩
      intro hd
      simpa [hd] using hdamaged

namespace Contents

theorem mem_items_walk (fault : Option Tar.Fault) (count : Nat) (done : List Item)
    (members : List Tar.Member) {item : Item} (h : item ∈ (walk fault count done members).items) :
    item ∈ done ∨ ∃ m ∈ members, item.IsOf m := by
  induction members generalizing count done with
  | nil =>
    left
    simpa [walk] using h
  | cons m rest ih =>
    have hlater (done' : List Item) (hdone' : ∀ x ∈ done', x ∈ done ∨ x.IsOf m)
        (hitem : item ∈ (walk fault (count + 1) done' rest).items) :
        item ∈ done ∨ ∃ m' ∈ m :: rest, item.IsOf m' := by
      rcases ih (count + 1) done' hitem with hmem | ⟨m', hm', hof⟩
      · exact (hdone' item hmem).imp id fun hof => ⟨m, List.mem_cons_self, hof⟩
      · exact .inr ⟨m', List.mem_cons_of_mem m hm', hof⟩
    rw [walk] at h
    split at h
    · left
      simpa using h
    · split at h
      · exact hlater done (fun x hx => .inl hx) h
      · rename_i hregular
        split at h
        · left
          simpa using h
        · rename_i name hname
          refine hlater _ ?_ h
          intro x hx
          rcases List.mem_cons.mp hx with rfl | hx
          · exact .inr ⟨by simpa using hregular, hname, rfl, rfl, rfl⟩
          · exact .inl hx

theorem mem_items_at {disk : Disk} {path : String} {item : Item}
    (h : item ∈ (Contents.at disk path).items) :
    ∃ file, disk.entry path = .ok (.file file) ∧ ∃ m ∈ (Tar.listing file).members, item.IsOf m := by
  rw [Contents.at] at h
  split at h
  · simp at h
  · simp at h
  · rename_i file hfile
    rcases mem_items_walk _ _ _ _ h with hnone | hmember
    · simp at hnone
    · exact ⟨file, hfile, hmember⟩

theorem readEntry_eq_ok {c : Contents} {name : String} {bytes : ByteArray}
    (h : c.readEntry name = .ok (some bytes)) :
    ∃ item ∈ c.items, item.name = name ∧ item.read maxContent = .ok bytes := by
  rw [Contents.readEntry] at h
  split at h
  · rename_i item hfind
    refine ⟨item, List.mem_of_find?_eq_some hfind, by simpa using List.find?_some hfind, ?_⟩
    cases hread : item.read maxContent with
    | error flaw => simp [hread, Except.map] at h
    | ok read =>
      rw [hread] at h
      obtain rfl := Option.some.inj (Except.ok.inj h)
      rfl
  · split at h <;> cases h

end Contents

end Archive

namespace Namespaces

open Archive Text

theorem readEntry_eq_ok_iff {disk : Disk} {archive entry : String} {bytes : ByteArray} :
    readEntry disk archive entry = .ok bytes ↔
      Archive.readEntry disk archive entry = .ok (some bytes) := by
  rw [readEntry]
  cases h : Archive.readEntry disk archive entry with
  | error flaw => simp
  | ok found => cases found <;> simp

theorem exists_member_of_readEntry {disk : Disk} {archive entry : String} {bytes : ByteArray}
    (h : readEntry disk archive entry = .ok bytes) :
    ∃ file, disk.entry archive = .ok (.file file) ∧
      ∃ m ∈ (Tar.listing file).members, m.regular = true ∧
        EntryName.ofPath m.path = .ok entry ∧ m.declared ≤ maxContent ∧
        bytes = m.content.extract 0 maxContent := by
  obtain ⟨item, hitem, rfl, hread⟩ := Contents.readEntry_eq_ok (readEntry_eq_ok_iff.mp h)
  obtain ⟨file, hfile, m, hm, hof⟩ := Contents.mem_items_at hitem
  obtain ⟨hdeclared, -, hbytes⟩ := Item.read_eq_ok hread
  exact ⟨file, hfile, m, hm, hof.regular, hof.name, hof.declared ▸ hdeclared, hof.content ▸ hbytes⟩

theorem classOfEntry?_eq_some_iff {entry : List Char} {name : String} :
    classOfEntry? entry = some name ↔
      ∃ stem, entry = stem ++ classSuffix ∧ name = String.ofList (replaceChar '/' '.' stem) := by
  unfold classOfEntry?
  constructor
  · intro h
    split at h
    · rename_i hsuffix
      obtain ⟨stem, rfl⟩ : classSuffix <:+ entry := by
        rw [← List.reverse_prefix]
        exact List.isPrefixOf_iff_prefix.mp hsuffix
      refine ⟨stem, rfl, ?_⟩
      simpa using (Option.some.inj h).symm
    · cases h
  · rintro ⟨stem, rfl, rfl⟩
    have hsuffix : classSuffix.reverse.isPrefixOf (stem ++ classSuffix).reverse = true := by
      rw [List.isPrefixOf_iff_prefix, List.reverse_prefix]
      exact List.suffix_append stem classSuffix
    rw [if_pos hsuffix, List.length_append, Nat.add_sub_cancel, List.take_left]

variable {t : Namespaces} {id : NamespaceId} {s : Namespace}

theorem resource_of_rejected (hs : t.get id = .ok s) (disk : Disk) {path : String} {name : String}
    (hclass : classOfEntry? (withoutSlashes path) = some name)
    (hrejected : s.scope.accepts name = false) :
    t.resource disk id path = .error (.outOfScope name id) := by
  rw [resource]
  simp only [hs, hclass, hrejected]
  rfl

theorem resource_eq_ok (hs : t.get id = .ok s) {disk : Disk} {path : String} {bytes : ByteArray}
    (h : t.resource disk id path = .ok bytes) :
    (∀ name, classOfEntry? (withoutSlashes path) = some name → s.scope.accepts name = true) ∧
      readEntry disk s.archive (String.ofList (withoutSlashes path)) = .ok bytes := by
  rw [resource] at h
  simp only [hs] at h
  split at h
  · rename_i name hclass
    split at h
    · rename_i haccepted
      refine ⟨?_, h⟩
      intro name' hname'
      obtain rfl := Option.some.inj (hclass.symm.trans hname')
      exact haccepted
    · cases h
  · rename_i hclass
    refine ⟨?_, h⟩
    intro name' hname'
    cases hclass.symm.trans hname'

theorem no_spelling_escapes (t : Namespaces) (id : NamespaceId) (s : Namespace)
    (hs : t.get id = .ok s) (path : String) :
    (∀ stem, withoutSlashes path = stem ++ ".class".toList →
      s.scope.accepts (String.ofList (replaceChar '/' '.' stem)) = false →
      ∀ disk, t.resource disk id path =
        .error (.outOfScope (String.ofList (replaceChar '/' '.' stem)) id)) ∧
    ∀ disk bytes, t.resource disk id path = .ok bytes →
      (∃ file, disk.entry s.archive = .ok (.file file) ∧
        ∃ m ∈ (Tar.listing file).members, m.regular = true ∧
          EntryName.ofPath m.path = .ok (String.ofList (withoutSlashes path)) ∧
          m.declared ≤ maxContent ∧ bytes = m.content.extract 0 maxContent) ∧
      EntryName.Normal (withoutSlashes path) ∧
      ∀ stem, withoutSlashes path = stem ++ ".class".toList →
        s.scope.accepts (String.ofList (replaceChar '/' '.' stem)) = true := by
  refine ⟨?_, ?_⟩
  · intro stem hstem hrejected disk
    exact resource_of_rejected hs disk (classOfEntry?_eq_some_iff.mpr ⟨stem, hstem, rfl⟩) hrejected
  · intro disk bytes hok
    obtain ⟨hscope, hread⟩ := resource_eq_ok hs hok
    obtain ⟨file, hfile, m, hm, hregular, hname, hsize⟩ := exists_member_of_readEntry hread
    refine ⟨⟨file, hfile, m, hm, hregular, hname, hsize⟩, ?_, ?_⟩
    · simpa using EntryName.normal_of_ofPath hname
    · intro stem hstem
      exact hscope _ (classOfEntry?_eq_some_iff.mpr ⟨stem, hstem, rfl⟩)

def mainTable : Namespaces :=
  (register {} "main.tgz" .default (.ofPackages .default)).2

theorem get_mainTable :
    mainTable.get ⟨0⟩ = .ok ⟨"main.tgz", .default, .ofPackages .default, []⟩ :=
  rfl

def mainInjector : Injector :=
  ⟨⟨0⟩, mainType, "main.tgz"⟩

theorem accepts_mainType : (Scope.ofPackages .default).accepts mainType.text = true := by
  decide

theorem only_proper_spelling_read :
    ∃ s, mainTable.get ⟨0⟩ = .ok s ∧
      (∀ disk, mainTable.resource disk ⟨0⟩ "//io/probe/loader/Main.class" =
        .error (.outOfScope "io.probe.loader.Main" ⟨0⟩)) ∧
      (∀ disk bytes, mainTable.resource disk ⟨0⟩ "/io/probe/plugin//Main.class" ≠ .ok bytes) ∧
      mainTable.resource (packedDisk [("main.tgz", mainEntries ⟨#[1]⟩)]) ⟨0⟩
        "/io/probe/plugin/Main.class" = .ok ⟨#[1]⟩ := by
  have hs : mainTable.get ⟨0⟩ = .ok ⟨"main.tgz", .default, .ofPackages .default, []⟩ := rfl
  refine ⟨_, hs, ?_, ?_, ?_⟩
  · exact (no_spelling_escapes mainTable ⟨0⟩ _ hs "//io/probe/loader/Main.class").1
      "io/probe/loader/Main".toList (by decide) (by decide)
  · intro disk bytes hok
    obtain ⟨-, hnormal, -⟩ := (no_spelling_escapes mainTable ⟨0⟩ _ hs _).2 disk bytes hok
    rcases hnormal with hnil | hparts
    · exact absurd hnil (by decide)
    · exact (hparts [] (by decide)).ne_nil rfl
  · have hread : readEntry (packedDisk [("main.tgz", mainEntries ⟨#[1]⟩)]) "main.tgz"
        mainType.entryPath = .ok ⟨#[1]⟩ :=
      readEntry_mainEntries ⟨by decide, by decide, by decide, by decide⟩ (by simp) (by decide)
    have hclass : classOfEntry? (withoutSlashes "/io/probe/plugin/Main.class") =
        some mainType.text := by decide
    have hscope : (Scope.ofPackages .default).accepts mainType.text = true := by decide
    rw [resource]
    simp only [hs, hclass, hscope, if_true]
    exact hread

end Namespaces

end PluginAgent
