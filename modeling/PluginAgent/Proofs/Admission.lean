import PluginAgent.Proofs.EntryPaths
import PluginAgent.Proofs.ShortReads

namespace PluginAgent.Archive

open Codec

def Clean (m : Tar.Member) : Prop :=
  m.regular = true → ∃ name, EntryName.Names m.path name ∧
    (IsMetadata name → m.declared ≤ maxMetadata ∧
      (m.damaged = true → maxMetadata ≤ m.content.size))

/-- What is wrong with a member that `n` others come before, in the order of the checks. -/
inductive Offends (n : Nat) (m : Tar.Member) : Flaw → Prop
  | tooMany (h : maxEntries ≤ n) : Offends n m .tooManyEntries
  | badPath {f} (hfew : n < maxEntries) (hregular : m.regular = true)
      (h : EntryName.Refused m.path f) : Offends n m (.badPath f)
  | tooLarge {name} (hfew : n < maxEntries) (hregular : m.regular = true)
      (hname : EntryName.Names m.path name) (hmetadata : IsMetadata name)
      (h : maxMetadata < m.declared) : Offends n m (.tooLarge m.declared maxMetadata)
  | broken {name} (hfew : n < maxEntries) (hregular : m.regular = true)
      (hname : EntryName.Names m.path name) (hmetadata : IsMetadata name)
      (hsize : m.declared ≤ maxMetadata) (hdamaged : m.damaged = true)
      (h : m.content.size < maxMetadata) : Offends n m .brokenContent

inductive FirstOffence (fault : Option Tar.Fault) : Nat → List Tar.Member → Flaw → Prop
  | here {n m rest flaw} (h : Offends n m flaw) : FirstOffence fault n (m :: rest) flaw
  | later {n m rest flaw} (hfew : n < maxEntries) (hm : Clean m)
      (h : FirstOffence fault (n + 1) rest flaw) : FirstOffence fault n (m :: rest) flaw
  | atEnd {n f} (h : fault = some f) : FirstOffence fault n [] (.brokenEntry f)

structure Admissible (l : Tar.Listing) : Prop where
  sound : l.fault = none
  few : l.members.length ≤ maxEntries
  named : ∀ m ∈ l.members, m.regular = true → ∃ name, EntryName.Names m.path name ∧
    (IsMetadata name → m.declared ≤ maxMetadata)

theorem clean_or_offends (n : Nat) (m : Tar.Member) :
    n < maxEntries ∧ Clean m ∨ ∃ flaw, Offends n m flaw := by
  rcases Nat.lt_or_ge n maxEntries with hfew | hmany
  · by_cases hregular : m.regular = true
    · rcases EntryName.names_or_refused m.path with ⟨name, hname⟩ | ⟨f, hrefused⟩
      · by_cases hmetadata : IsMetadata name
        · rcases Nat.lt_or_ge maxMetadata m.declared with hlarge | hsize
          · exact .inr ⟨_, .tooLarge hfew hregular hname hmetadata hlarge⟩
          · by_cases hcut : m.damaged = true ∧ m.content.size < maxMetadata
            · exact .inr ⟨_, .broken hfew hregular hname hmetadata hsize hcut.1 hcut.2⟩
            · refine .inl ⟨hfew, fun _ => ⟨name, hname, fun _ => ⟨hsize, fun hdamaged => ?_⟩⟩⟩
              exact Nat.le_of_not_lt fun hlt => hcut ⟨hdamaged, hlt⟩
        · exact .inl ⟨hfew, fun _ => ⟨name, hname, fun h => absurd h hmetadata⟩⟩
      · exact .inr ⟨_, .badPath hfew hregular hrefused⟩
    · exact .inl ⟨hfew, fun h => absurd h hregular⟩
  · exact .inr ⟨_, .tooMany hmany⟩

theorem clean_or_firstOffence (fault : Option Tar.Fault) {n : Nat} (members : List Tar.Member)
    (hn : n ≤ maxEntries) :
    (fault = none ∧ n + members.length ≤ maxEntries ∧ ∀ m ∈ members, Clean m) ∨
      ∃ flaw, FirstOffence fault n members flaw := by
  -- What came before is counted, so the bound is on the count and the members left together.
  induction members generalizing n with
  | nil =>
    cases fault with
    | none => exact .inl ⟨rfl, hn, fun _ hm => absurd hm List.not_mem_nil⟩
    | some f => exact .inr ⟨_, .atEnd rfl⟩
  | cons m rest ih =>
    rcases clean_or_offends n m with ⟨hfew, hm⟩ | ⟨flaw, hoffends⟩
    · rcases ih hfew with ⟨hfault, hlength, hrest⟩ | ⟨flaw, hfirst⟩
      · exact .inl ⟨hfault, by rw [List.length_cons]; omega, List.forall_mem_cons.mpr ⟨hm, hrest⟩⟩
      · exact .inr ⟨flaw, .later hfew hm hfirst⟩
    · exact .inr ⟨flaw, .here hoffends⟩

namespace Contents

variable {fault : Option Tar.Fault} {n : Nat} {m : Tar.Member} {rest : List Tar.Member}

theorem walk_eq (fault : Option Tar.Fault) (n : Nat) (done : List Item)
    (members : List Tar.Member) : walk fault n done members =
      ⟨done.reverse ++ (walk fault n [] members).items, (walk fault n [] members).flaw⟩ := by
  induction members generalizing n done with
  | nil => simp [walk]
  | cons m rest ih =>
    simp only [walk]
    split
    · simp
    · split
      · exact ih (n + 1) done
      · split
        · simp
        · rename_i name _
          rw [ih (n + 1) (_ :: done), ih (n + 1) [_]]
          simp

theorem walk_skip (hfew : n < maxEntries) (hother : m.regular = false) :
    walk fault n [] (m :: rest) = walk fault (n + 1) [] rest := by
  rw [walk, if_neg (Nat.not_le.mpr hfew), hother]
  rfl

theorem walk_keep (hfew : n < maxEntries) (hregular : m.regular = true) {name : String}
    (hname : EntryName.Names m.path name) : walk fault n [] (m :: rest) =
      ⟨⟨name, m.declared, m.content, m.damaged⟩ :: (walk fault (n + 1) [] rest).items,
        (walk fault (n + 1) [] rest).flaw⟩ := by
  rw [walk, if_neg (Nat.not_le.mpr hfew), hregular, EntryName.ofPath_names hname]
  exact walk_eq fault (n + 1) [_] rest

theorem walk_many (hmany : maxEntries ≤ n) :
    walk fault n [] (m :: rest) = ⟨[], some .tooManyEntries⟩ :=
  if_pos hmany

theorem walk_refused (hfew : n < maxEntries) (hregular : m.regular = true) {f : EntryNameFlaw}
    (hrefused : EntryName.Refused m.path f) :
    walk fault n [] (m :: rest) = ⟨[], some (.badPath f)⟩ := by
  rw [walk, if_neg (Nat.not_le.mpr hfew), hregular, EntryName.ofPath_refused hrefused]
  rfl

end Contents

namespace Index

variable {fault : Option Tar.Fault} {n : Nat} {m : Tar.Member} {rest members : List Tar.Member}
  {flaw : Flaw} {known : List (String × ByteArray)}

def kept (known : List (String × ByteArray)) (c : Contents) :
    Except Flaw (List (String × ByteArray)) :=
  match readMetadata known c.items with
  | .error flaw => .error flaw
  | .ok metadata => match c.flaw with
    | some flaw => .error flaw
    | none => .ok metadata

theorem ofContents_eq (path : String) (c : Contents) : ofContents path c =
    (kept [] c).map fun metadata => ⟨path, c.items.map (·.name), metadata⟩ := by
  rw [ofContents, kept]
  cases readMetadata [] c.items with
  | error flaw => rfl
  | ok metadata => cases c.flaw <;> rfl

theorem kept_other {item : Item} {items : List Item} {flaw : Option Flaw}
    (h : ¬IsMetadata item.name) : kept known ⟨item :: items, flaw⟩ = kept known ⟨items, flaw⟩ := by
  rw [kept, readMetadata, if_neg (mt Item.isMetadata_iff.mp h)]
  rfl

theorem kept_read {item : Item} {items : List Item} {flaw : Option Flaw} {bytes : ByteArray}
    (h : IsMetadata item.name) (hread : item.read maxMetadata = .ok bytes) :
    kept known ⟨item :: items, flaw⟩ = kept ((item.name, bytes) :: known) ⟨items, flaw⟩ := by
  rw [kept, readMetadata, if_pos (Item.isMetadata_iff.mpr h), hread]
  rfl

theorem kept_unread {item : Item} {items : List Item} {flaw : Option Flaw} {unread : Flaw}
    (h : IsMetadata item.name) (hread : item.read maxMetadata = .error unread) :
    kept known ⟨item :: items, flaw⟩ = .error unread := by
  rw [kept, readMetadata, if_pos (Item.isMetadata_iff.mpr h), hread]

theorem kept_offends (h : Offends n m flaw) :
    kept known (Contents.walk fault n [] (m :: rest)) = .error flaw := by
  cases h with
  | tooMany hmany => rw [Contents.walk_many hmany]; rfl
  | badPath hfew hregular hrefused => rw [Contents.walk_refused hfew hregular hrefused]; rfl
  | tooLarge hfew hregular hname hmetadata hlarge =>
    rw [Contents.walk_keep hfew hregular hname]
    exact kept_unread hmetadata (if_pos hlarge)
  | broken hfew hregular hname hmetadata hsize hdamaged hcut =>
    rw [Contents.walk_keep hfew hregular hname]
    refine kept_unread hmetadata ?_
    rw [Item.read, if_neg (Nat.not_lt.mpr hsize), hdamaged, decide_eq_true hcut]
    rfl

theorem kept_clean (hfew : n < maxEntries) (h : Clean m) :
    ∃ known', kept known (Contents.walk fault n [] (m :: rest)) =
      kept known' (Contents.walk fault (n + 1) [] rest) := by
  rcases Bool.eq_false_or_eq_true m.regular with hregular | hother
  · obtain ⟨name, hname, hsmall⟩ := h hregular
    rw [Contents.walk_keep hfew hregular hname]
    by_cases hmetadata : IsMetadata name
    · obtain ⟨hsize, hwhole⟩ := hsmall hmetadata
      have hread : (⟨name, m.declared, m.content, m.damaged⟩ : Item).read maxMetadata =
          .ok (m.content.extract 0 maxMetadata) := by
        rw [Item.read, if_neg (Nat.not_lt.mpr hsize), if_neg]
        simpa using hwhole
      exact ⟨_, kept_read hmetadata hread⟩
    · exact ⟨known, kept_other hmetadata⟩
  · exact ⟨known, by rw [Contents.walk_skip hfew hother]⟩

theorem kept_firstOffence (h : FirstOffence fault n members flaw) :
    kept known (Contents.walk fault n [] members) = .error flaw := by
  -- Members passed by only change what is known, which no offence depends on.
  induction h generalizing known with
  | here hm => exact kept_offends hm
  | later hfew hm _ ih =>
    obtain ⟨known', hstep⟩ := kept_clean hfew hm
    rw [hstep, ih]
  | atEnd hfault => rw [hfault]; rfl

theorem kept_all (known : List (String × ByteArray)) (hfault : fault = none)
    (hfew : n + members.length ≤ maxEntries) (h : ∀ m ∈ members, Clean m) :
    ∃ metadata, kept known (Contents.walk fault n [] members) = .ok metadata := by
  induction members generalizing n known with
  | nil => exact ⟨known, by rw [hfault]; rfl⟩
  | cons m rest ih =>
    rw [List.length_cons] at hfew
    have hn : n < maxEntries := by omega
    obtain ⟨hm, hrest⟩ := List.forall_mem_cons.mp h
    obtain ⟨known', hstep⟩ := kept_clean hn hm
    rw [hstep]
    exact ih known' (by omega) hrest

variable {disk : Disk} {path : String} {file : ByteArray}

theorem ofFile_eq (hfile : disk.entry path = .ok (.file file)) :
    ofFile disk path = ofContents path (.ofListing (Tar.listing file)) := by
  rw [ofFile, Contents.at, hfile]

theorem fails_of_firstOffence (hfile : disk.entry path = .ok (.file file))
    (h : FirstOffence (Tar.listing file).fault 0 (Tar.listing file).members flaw) :
    ofFile disk path = .error flaw := by
  rw [ofFile_eq hfile, ofContents_eq, Contents.ofListing, kept_firstOffence h]
  rfl

theorem clean_of_admissible (h : Admissible (Tar.listing file)) :
    ∀ m ∈ (Tar.listing file).members, Clean m := by
  intro m hm hregular
  obtain ⟨name, hname, hsize⟩ := h.named m hm hregular
  refine ⟨name, hname, fun hmetadata => ⟨hsize hmetadata, fun hdamaged => ?_⟩⟩
  rw [Tar.undamaged_listing h.sound hm hregular] at hdamaged
  cases hdamaged

theorem opens_of_admissible (hfile : disk.entry path = .ok (.file file))
    (h : Admissible (Tar.listing file)) : ∃ index, ofFile disk path = .ok index := by
  have hfew : 0 + (Tar.listing file).members.length ≤ maxEntries := by
    rw [Nat.zero_add]
    exact h.few
  obtain ⟨metadata, hkept⟩ := kept_all [] h.sound hfew (clean_of_admissible h)
  rw [ofFile_eq hfile, ofContents_eq, Contents.ofListing, hkept]
  exact ⟨_, rfl⟩

theorem admissible_or_firstOffence (l : Tar.Listing) :
    Admissible l ∨ ∃ flaw, FirstOffence l.fault 0 l.members flaw := by
  rcases clean_or_firstOffence l.fault l.members (Nat.zero_le maxEntries) with
    ⟨hfault, hfew, hclean⟩ | hoffence
  · refine .inl ⟨hfault, by rwa [Nat.zero_add] at hfew, fun m hm hregular => ?_⟩
    obtain ⟨name, hname, hsmall⟩ := hclean m hm hregular
    exact ⟨name, hname, fun hmetadata => (hsmall hmetadata).1⟩
  · exact .inr hoffence

theorem names_of_itemized {items : List Item} (h : Itemized members items) :
    List.Forall₂ (fun m name => EntryName.Names m.path name)
      (members.filter (·.regular)) (items.map (·.name)) := by
  induction h with
  | nil => exact .nil
  | skip hm _ ih => rwa [List.filter_cons_of_neg (by simp [hm])]
  | keep hm _ ih =>
    rw [List.filter_cons_of_pos hm.regular]
    exact .cons (EntryName.ofPath_eq_ok_iff.mp hm.name) ih

theorem opens_admissible (hfile : disk.entry path = .ok (.file file)) :
    ((∃ index, ofFile disk path = .ok index) ↔ Admissible (Tar.listing file)) ∧
    (∀ index, ofFile disk path = .ok index →
      List.Forall₂ (fun m name => EntryName.Names m.path name)
        ((Tar.listing file).members.filter (·.regular)) index.names) ∧
    (∀ flaw, ofFile disk path = .error flaw ↔
      FirstOffence (Tar.listing file).fault 0 (Tar.listing file).members flaw) ∧
    ∀ m ∈ (Tar.listing file).members,
      ∃ l, Tar.Met (Gzip.decode file) m l ∧ l.header.size? = some m.declared := by
  have hcases := admissible_or_firstOffence (Tar.listing file)
  refine ⟨⟨?_, opens_of_admissible hfile⟩, ?_, fun flaw => ⟨?_, fails_of_firstOffence hfile⟩, ?_⟩
  · rintro ⟨index, hindex⟩
    refine hcases.resolve_right ?_
    rintro ⟨flaw, hoffence⟩
    cases hindex.symm.trans (fails_of_firstOffence hfile hoffence)
  · intro index hindex
    obtain ⟨-, -, items, -, hnames, hitems⟩ := itemized_of_ofFile hfile hindex
    rw [hnames]
    exact names_of_itemized hitems
  · intro herror
    rcases hcases with hadmissible | ⟨flaw', hoffence⟩
    · obtain ⟨index, hindex⟩ := opens_of_admissible hfile hadmissible
      cases hindex.symm.trans herror
    · obtain rfl := Except.error.inj ((fails_of_firstOffence hfile hoffence).symm.trans herror)
      exact hoffence
  · intro m hm
    obtain ⟨l, hmet, -⟩ := Tar.met_of_mem_listing hm
    exact ⟨l, hmet, hmet.stated⟩

def mixedDrafts : List Tar.Draft :=
  [{ name := "META-INF/".toUTF8, content := .empty, flag := '5' },
    { name := "META-INF/MANIFEST.MF".toUTF8, content := "Manifest-Version: 1.0\n".toUTF8 },
    { name := "../link".toUTF8, content := .empty, flag := '2' },
    { name := mainType.entryPath.toUTF8, content := ⟨#[97]⟩ }]

def mixedDisk : Disk where
  entries := [(["mixed.tgz"], .file (Tar.file mixedDrafts))]

theorem entry_mixedDisk : mixedDisk.entry "mixed.tgz" = .ok (.file (Tar.file mixedDrafts)) :=
  entry_of_find? rfl ⟨by decide, by decide, by decide, by decide⟩ (by simp [mixedDisk, Disk.find?])

theorem listing_mixedDrafts :
    Tar.listing (Tar.file mixedDrafts) = ⟨mixedDrafts.map Tar.Draft.member, none⟩ := by
  refine Tar.listing_file ?_ (Nat.lt_of_le_of_lt (Tar.size_write_le mixedDrafts) ?_)
  · simp only [mixedDrafts, List.forall_mem_cons]
    refine ⟨?_, ?_, ?_, ?_, nofun⟩
    all_goals exact ⟨by decide +kernel, rfl, by decide, by decide⟩
  · decide +kernel

theorem names_mixedDrafts :
    EntryName.ofPath "META-INF/MANIFEST.MF".toUTF8.data.toList = .ok "META-INF/MANIFEST.MF" ∧
      EntryName.ofPath mainType.entryPath.toUTF8.data.toList = .ok mainType.entryPath := by
  constructor <;> decide +kernel

theorem admissible_mixedDrafts : Admissible (Tar.listing (Tar.file mixedDrafts)) := by
  obtain ⟨hmanifest, hclass⟩ := names_mixedDrafts
  rw [listing_mixedDrafts]
  refine ⟨rfl, by decide, ?_⟩
  simp only [mixedDrafts, List.map_cons, List.map_nil, List.forall_mem_cons]
  refine ⟨nofun, fun _ => ?_, nofun, fun _ => ?_, nofun⟩
  · exact ⟨_, EntryName.ofPath_eq_ok_iff.mp hmanifest, fun _ => by decide +kernel⟩
  · exact ⟨_, EntryName.ofPath_eq_ok_iff.mp hclass, fun _ => by decide⟩

theorem mixed_opened_cut_refused :
    (∃ index, ofFile mixedDisk "mixed.tgz" = .ok index ∧
      (Tar.listing (Tar.file mixedDrafts)).members.map (·.regular) = [false, true, false, true] ∧
      index.names = ["META-INF/MANIFEST.MF", mainType.entryPath]) ∧
    (Tar.listing (Tar.file [Namespaces.cutDraft])).members.length = 1 ∧
      ofFile Namespaces.cutDisk "main.tgz" = .error (.brokenEntry .cutShort) := by
  constructor
  · obtain ⟨hmanifest, hclass⟩ := names_mixedDrafts
    obtain ⟨hopens, hnames, -⟩ := opens_admissible entry_mixedDisk
    obtain ⟨index, hindex⟩ := hopens.mpr admissible_mixedDrafts
    refine ⟨index, hindex, by rw [listing_mixedDrafts]; rfl, ?_⟩
    have hregular := hnames index hindex
    rw [listing_mixedDrafts] at hregular
    obtain ⟨first, _, hfirst, hrest, heq⟩ := List.forall₂_cons_left_iff.mp hregular
    obtain ⟨second, _, hsecond, hnil, rfl⟩ := List.forall₂_cons_left_iff.mp hrest
    rw [List.forall₂_nil_left_iff.mp hnil] at heq
    obtain rfl : "META-INF/MANIFEST.MF" = first :=
      Except.ok.inj (hmanifest.symm.trans (EntryName.ofPath_eq_ok_iff.mpr hfirst))
    obtain rfl : mainType.entryPath = second :=
      Except.ok.inj (hclass.symm.trans (EntryName.ofPath_eq_ok_iff.mpr hsecond))
    exact heq
  · have hlisting := Namespaces.overstated_cutDraft.listing_eq
    refine ⟨by rw [hlisting]; rfl, ?_⟩
    refine ((opens_admissible Namespaces.entry_cutDisk).2.2.1 _).mpr ?_
    have hclean : Clean Namespaces.cutDraft.cutMember := by
      intro hregular
      refine ⟨_, EntryName.ofPath_eq_ok_iff.mp Namespaces.name_cutDraft, fun hmetadata => ?_⟩
      exact absurd hmetadata (mt List.isPrefixOf_iff_prefix.mpr (by decide))
    rw [hlisting]
    exact .later (by decide) hclean (.atEnd rfl)

end Index

end PluginAgent.Archive
