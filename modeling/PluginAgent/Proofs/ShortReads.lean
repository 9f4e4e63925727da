import PluginAgent.Proofs.Growth
import PluginAgent.Proofs.MetadataReads

namespace PluginAgent.Codec

def Gzip.Stream.EndsWith (s : Gzip.Stream) (content : ByteArray) : Prop :=
  s.damaged = false ∧ ∃ front, s.bytes = front ++ content

namespace Tar

variable {s : Gzip.Stream} {m : Member} {l : Located} {d : Described} {q : Place} {pos : Nat}

theorem extract_append_extract {bytes : ByteArray} {i j : Nat} (hi : i ≤ bytes.size)
    (hj : bytes.size ≤ j) : bytes = bytes.extract 0 i ++ bytes.extract i j := by
  obtain ⟨n, rfl⟩ := Nat.exists_eq_add_of_le (Nat.le_trans hi hj)
  refine ext_toList ?_
  rw [ByteArray.toList_data_append, toList_extract, ← Nat.zero_add i, toList_extract, Nat.zero_add,
    List.drop_zero, List.take_of_length_le (l := bytes.data.toList.drop i)]
  · exact (List.take_append_drop i _).symm
  · rw [List.length_drop, length_toList]
    omega

theorem Met.isWhole_or_short (h : Met s m l) (hsizes : NoSizeRecords s) :
    m.IsWhole ∨ m.content.size < m.declared ∧ m.damaged = s.damaged ∧
      ∃ front, s.bytes = front ++ m.content := by
  rcases Nat.lt_or_ge s.bytes.size (l.start + l.size) with hcut | hend
  · right
    have hdeclared := h.declared_eq hsizes
    have hcontent := h.size_content
    obtain ⟨pos, d, -, hlook, rfl⟩ := h
    obtain ⟨-, hstart, -⟩ := headerAt_eq_some hlook
    refine ⟨by omega, ?_, s.bytes.extract 0 l.start, ?_⟩
    · simp only [memberAt, contentDamaged, decide_eq_true hcut, Bool.and_true]
    · exact extract_append_extract hstart (Nat.le_of_lt hcut)
  · exact .inl (h.isWhole hsizes hend)

end Tar

end PluginAgent.Codec

namespace PluginAgent

open Codec Archive

namespace Archive

variable {disk : Disk} {path name : String} {bytes : ByteArray}

theorem firstNamed_of_readEntry (h : Namespaces.readEntry disk path name = .ok bytes) :
    ∃ (file : ByteArray) (item : Item) (m : Tar.Member), disk.entry path = .ok (.file file) ∧
      item.IsOf m ∧ FirstNamed (Tar.listing file).members name m ∧
      item.read maxContent = .ok bytes := by
  rw [Namespaces.readEntry_eq_ok_iff, readEntry, Contents.readEntry] at h
  split at h
  · rename_i item hfind
    have hread : item.read maxContent = .ok bytes := by
      cases hread : item.read maxContent with
      | error flaw => simp [hread, Except.map] at h
      | ok read => simpa [hread, Except.map] using h
    obtain ⟨file, hfile, -⟩ := Contents.mem_items_at (List.mem_of_find?_eq_some hfind)
    obtain ⟨seen, rest, items, hmembers, hitems, hseen, -⟩ :=
      Contents.itemized_walk (Tar.listing file).fault 0 [] (Tar.listing file).members
    have hat : (Contents.at disk path).items = items := by
      rw [Contents.at, hfile]
      exact hitems
    rw [hat] at hfind
    obtain ⟨m, hof, hfirst⟩ := hseen.firstNamed hfind
    exact ⟨file, item, m, hfile, hof, hmembers ▸ hfirst.append rest, hread⟩
  · split at h <;> cases h

/-- The bytes are the content of the first member with the name, as far as the sequence goes. They
are fewer than the member's header states only where the sequence ends with them; such a file
cannot be opened. -/
def AsFarAsThere (file : ByteArray) (name : String) (bytes : ByteArray) : Prop :=
  ∃ m, FirstNamed (Tar.listing file).members name m ∧ bytes = m.content ∧
    m.declared ≤ maxContent ∧
    (bytes.size = m.declared ∨ bytes.size < m.declared ∧ (Gzip.decode file).EndsWith bytes ∧
      (Tar.listing file).fault ≠ none)

theorem asFarAsThere_of_readEntry {file : ByteArray} (hfile : disk.entry path = .ok (.file file))
    (hsizes : Tar.NoSizeRecords (Gzip.decode file))
    (h : Namespaces.readEntry disk path name = .ok bytes) : AsFarAsThere file name bytes := by
  obtain ⟨file', item, m, hfile', hof, hfirst, hread⟩ := firstNamed_of_readEntry h
  obtain rfl : file' = file := Entry.file.inj (Except.ok.inj (hfile'.symm.trans hfile))
  obtain ⟨hdeclared, hdamaged, rfl⟩ := Item.read_eq_ok hread
  rw [hof.declared] at hdeclared
  rw [hof.content, hof.damaged] at hdamaged
  rw [hof.content]
  obtain ⟨l, hmet, -⟩ := Tar.met_of_mem_listing hfirst.mem
  rcases hmet.isWhole_or_short hsizes with hwhole | ⟨hshort, hstream, hends⟩
  · rw [extract_of_size_le (hwhole.size_eq ▸ hdeclared)]
    exact ⟨m, hfirst, rfl, hdeclared, .inl hwhole.size_eq⟩
  · rw [extract_of_size_le (Nat.le_of_lt (Nat.lt_of_lt_of_le hshort hdeclared))]
    refine ⟨m, hfirst, rfl, hdeclared, .inr ⟨hshort, ⟨?_, hends⟩, fun hfault => ?_⟩⟩
    · -- A damaged stream would have failed the read, the content being below the limit.
      rw [← hstream, ← Bool.not_eq_true]
      intro htrue
      have hlimit := hdamaged htrue
      omega
    · have hwhole := Tar.isWhole_listing hsizes hfault hfirst.mem hof.regular
      exact absurd hwhole.size_eq (Nat.ne_of_lt hshort)

end Archive

namespace Namespaces

variable {disk : Disk} {path : String} {file : ByteArray}

theorem resolve_of_readEntry {t : Namespaces} {id : NamespaceId} {s : Namespace} {c : ClassName}
    {bytes : ByteArray} (hs : t.get id = .ok s) (hscope : s.scope.accepts c.text = true)
    (hnew : s.defined.lookup c = none) (hread : readEntry disk s.archive c.entryPath = .ok bytes) :
    t.resolve disk id c = .ok (⟨id, c, bytes⟩, t.define id c bytes) := by
  rw [resolve, hs]
  simp only [hscope, hnew, hread, Bool.not_true, Bool.false_eq_true, if_false]

theorem defined_as_far_as_there (hfile : disk.entry path = .ok (.file file))
    (hsizes : Tar.NoSizeRecords (Gzip.decode file)) :
    (∀ name bytes, readEntry disk path name = .ok bytes → AsFarAsThere file name bytes) ∧
    ∀ (t : Namespaces) id s, t.get id = .ok s → s.archive = path →
      (∀ p bytes, t.resource disk id p = .ok bytes →
        AsFarAsThere file (String.ofList (withoutSlashes p)) bytes) ∧
      ∀ c, s.defined.lookup c = none →
        (∀ x t', t.resolve disk id c = .ok (x, t') →
          AsFarAsThere file c.entryPath x.bytes ∧ t' = t.define id c x.bytes) ∧
        ∀ e, readEntry disk path c.entryPath = .error e →
          ∃ e', t.resolve disk id c = .error e' := by
  have hread (name bytes) (h : readEntry disk path name = .ok bytes) :
      AsFarAsThere file name bytes := asFarAsThere_of_readEntry hfile hsizes h
  refine ⟨hread, ?_⟩
  rintro t id s hs rfl
  refine ⟨fun p bytes h => hread _ _ (resource_eq_ok hs h).2, fun c hnew => ⟨?_, ?_⟩⟩
  · intro x t' h
    obtain ⟨s', hs', -, -, -, hold | ⟨-, hbytes, rfl⟩⟩ := resolve_eq_ok h
    all_goals obtain rfl := Option.some.inj (hs'.symm.trans (get_eq_ok_iff.mp hs))
    · cases hnew.symm.trans hold.1
    · exact ⟨hread _ _ hbytes, rfl⟩
  · intro e herror
    rw [resolve, hs]
    simp only [hnew, herror]
    split
    · exact ⟨_, rfl⟩
    · exact ⟨_, rfl⟩

end Namespaces

end PluginAgent

namespace PluginAgent.Codec.Tar

section

variable {draft : Draft} (hshort : draft.name.size ≤ nameWidth)

include hshort

theorem toList_write_single : (write [draft]).data.toList =
    (header draft.name draft.flag draft.declared).data.toList ++
      (padded draft.content ++ zeros (2 * blockSize)).data.toList := by
  rw [toList_write, List.flatMap_singleton, Draft.bytes, if_neg (Nat.not_lt.mpr hshort),
    List.nil_append, List.append_assoc, ByteArray.toList_data_append]

theorem size_write_single : (write [draft]).size =
    blockSize + (roundUp draft.content.size + 2 * blockSize) := by
  rw [← length_toList, toList_write_single hshort, List.length_append, length_toList, size_header,
    length_toList, ByteArray.size_append, size_padded, size_zeros]

theorem holds_write_single :
    Holds (write [draft]) 0 (header draft.name draft.flag draft.declared).data.toList ∧
      Holds (write [draft]) blockSize
        (padded draft.content ++ zeros (2 * blockSize)).data.toList := by
  have hself := holds_self (write [draft])
  rw [toList_write_single hshort] at hself
  obtain ⟨hheader, hrest⟩ := holds_append.mp hself
  rw [length_toList, size_header, Nat.zero_add] at hrest
  exact ⟨hheader, hrest⟩

end

def Draft.cutMember (d : Draft) : Member :=
  { d.member with content := padded d.content ++ zeros (2 * blockSize) }

structure Draft.Overstated (d : Draft) : Prop where
  short : d.name.size ≤ nameWidth
  name : 0 ∉ d.name.data.toList
  flag : d.flag = '0'
  more : roundUp d.content.size + 2 * blockSize < d.declared
  bound : blockSize + roundUp d.declared < wordBound

namespace Draft.Overstated

variable {draft : Draft} (h : draft.Overstated)

include h

theorem headerAt_start : headerAt ⟨Tar.write [draft], false⟩ none 0 =
    .ok (some (located draft.name draft.flag 0 draft.declared)) :=
  headerAt_of_header (holds_write_single h.short).1 (by rw [Nat.zero_add]; exact h.bound)

theorem describe_start :
    describe ⟨Tar.write [draft], false⟩ (located draft.name draft.flag 0 draft.declared) {} =
      .ok none :=
  describe_ordinary (by rw [h.flag]; decide) (by rw [h.flag]; decide)

theorem flag_start :
    (located draft.name draft.flag 0 draft.declared).header.flag = '0' := by
  rw [located, isHeader_header.flag_eq (by rw [h.flag]; decide), h.flag]

theorem headerAt_after : headerAt ⟨Tar.write [draft], false⟩ none
    (located draft.name draft.flag 0 draft.declared).after = .error .cutShort := by
  have hsize := size_write_single h.short
  have hmore := h.more
  have hround := le_roundUp draft.declared
  rw [located_after, headerAt, if_pos (by rw [hsize]; omega)]
  rfl

theorem memberAt_start :
    memberAt ⟨Tar.write [draft], false⟩ {} (located draft.name draft.flag 0 draft.declared) =
      draft.cutMember := by
  have hround := le_roundUp draft.declared
  have hbound := h.bound
  have hsize : (located draft.name draft.flag 0 draft.declared).header.size? =
      some draft.declared := isHeader_header.size? (by omega)
  have hpath : ({} : Described).path (located draft.name draft.flag 0 draft.declared).header =
      draft.name.data.toList := isHeader_header.path_eq h.short h.name
  have hcontent : contentOf ⟨Tar.write [draft], false⟩
      (located draft.name draft.flag 0 draft.declared) =
        padded draft.content ++ zeros (2 * blockSize) := by
    refine ext_toList ?_
    rw [contentOf, located, toList_extract, Nat.zero_add, toList_write_single h.short,
      List.drop_left' (by rw [length_toList, size_header]), List.take_of_length_le]
    rw [length_toList, ByteArray.size_append, size_padded, size_zeros]
    exact Nat.le_of_lt h.more
  rw [memberAt, h.flag_start, hsize, hpath, hcontent, Draft.cutMember, Draft.member, h.flag,
    Option.getD_some]
  rfl

theorem nextMember_start {fuel : Nat} : nextMember ⟨Tar.write [draft], false⟩ (fuel + 1) {} 0 =
    .ok (some (draft.cutMember, (located draft.name draft.flag 0 draft.declared).after)) := by
  rw [nextMember_ordinary (d := {}) h.headerAt_start h.describe_start
    (by rw [h.flag_start]; decide), h.memberAt_start]

theorem nextMember_after {fuel : Nat} : nextMember ⟨Tar.write [draft], false⟩ (fuel + 1) {}
    (located draft.name draft.flag 0 draft.declared).after = .error .cutShort := by
  have hlook : headerAt ⟨Tar.write [draft], false⟩ ({} : Described).extended _ = _ :=
    h.headerAt_after
  rw [nextMember, hlook]

theorem listing_eq : listing (file [draft]) = ⟨[draft.cutMember], some .cutShort⟩ := by
  rw [listing, file, Gzip.decode_encode, members, membersFrom, h.nextMember_start]
  simp only [membersFrom, h.nextMember_after]
  rfl

theorem noSizeRecords : NoSizeRecords (Gzip.decode (file [draft])) := by
  intro pos d extended hleads hextended
  rw [file, Gzip.decode_encode] at hleads
  rcases hleads.cases_head with heq | ⟨p, hstep, hmore⟩
  · cases heq
    cases hextended
  · obtain rfl := hstep.unique (.member (d := {}) h.headerAt_start h.describe_start
      (by rw [h.flag_start]; decide))
    rcases hmore.cases_head with heq | ⟨p, hstep, -⟩
    · cases heq
      cases hextended
    · cases hstep with
      | described hfound => cases h.headerAt_after.symm.trans hfound
      | member hfound => cases h.headerAt_after.symm.trans hfound
      | sparse hfound => cases h.headerAt_after.symm.trans hfound

end Draft.Overstated

end PluginAgent.Codec.Tar

namespace PluginAgent.Namespaces

open Codec Archive

def cutDraft : Tar.Draft :=
  { name := mainType.entryPath.toUTF8, content := ⟨#[97]⟩, declared := 2000 }

def cutDisk : Disk where
  entries := [(["main.tgz"], .file (Tar.file [cutDraft]))]

theorem overstated_cutDraft : cutDraft.Overstated :=
  ⟨by decide +kernel, by decide +kernel, rfl, by decide, by decide⟩

theorem entry_cutDisk : cutDisk.entry "main.tgz" = .ok (.file (Tar.file [cutDraft])) :=
  entry_of_find? rfl ⟨by decide, by decide, by decide, by decide⟩ (by simp [cutDisk, Disk.find?])

theorem name_cutDraft : EntryName.ofPath cutDraft.cutMember.path = .ok mainType.entryPath := by
  decide +kernel

theorem size_cutMember : cutDraft.cutMember.content.size = 1536 := by
  rw [Tar.Draft.cutMember, ByteArray.size_append, Tar.size_padded, size_zeros]
  decide

def cutItem : Item :=
  ⟨mainType.entryPath, 2000, cutDraft.cutMember.content, false⟩

theorem readEntry_cutDisk : readEntry cutDisk "main.tgz" mainType.entryPath =
    .ok cutDraft.cutMember.content := by
  have hat : Contents.at cutDisk "main.tgz" = ⟨[cutItem], some (.brokenEntry .cutShort)⟩ := by
    rw [Contents.at, entry_cutDisk]
    simp only [Contents.ofListing, overstated_cutDraft.listing_eq, Contents.walk, name_cutDraft]
    rfl
  have hread : cutItem.read maxContent = .ok cutDraft.cutMember.content := by
    have hall : cutDraft.cutMember.content.extract 0 maxContent = cutDraft.cutMember.content :=
      extract_of_size_le (by rw [size_cutMember]; decide)
    have hdeclared : cutItem.declared ≤ maxContent := by decide
    exact (Item.read_undamaged hdeclared rfl).trans (congrArg _ hall)
  have hfind : [cutItem].find? (·.name == mainType.entryPath) = some cutItem :=
    List.find?_cons_of_pos (beq_self_eq_true mainType.entryPath)
  rw [readEntry_eq_ok_iff, Archive.readEntry, hat, Contents.readEntry, hfind]
  simp only [hread, Except.map]

theorem cut_class_as_far_as_there :
    ∃ bytes, readEntry cutDisk "main.tgz" mainType.entryPath = .ok bytes ∧
      AsFarAsThere (Tar.file [cutDraft]) mainType.entryPath bytes :=
  ⟨_, readEntry_cutDisk, (defined_as_far_as_there entry_cutDisk overstated_cutDraft.noSizeRecords).1
    _ _ readEntry_cutDisk⟩

theorem firstNamed_cutDisk : FirstNamed (Tar.listing (Tar.file [cutDraft])).members
    mainType.entryPath cutDraft.cutMember := by
  rw [overstated_cutDraft.listing_eq]
  exact ⟨[], [], rfl, rfl, name_cutDraft, by simp⟩

theorem cut_class_defined :
    ∃ m bytes, cutDisk.entry "main.tgz" = .ok (.file (Tar.file [cutDraft])) ∧
      Tar.NoSizeRecords (Gzip.decode (Tar.file [cutDraft])) ∧
      FirstNamed (Tar.listing (Tar.file [cutDraft])).members mainType.entryPath m ∧
      m.declared = 2000 ∧ bytes.size = 1536 ∧
      mainTable.resolve cutDisk ⟨0⟩ mainType =
        .ok (⟨⟨0⟩, mainType, bytes⟩, mainTable.define ⟨0⟩ mainType bytes) :=
  ⟨cutDraft.cutMember, cutDraft.cutMember.content, entry_cutDisk,
    overstated_cutDraft.noSizeRecords, firstNamed_cutDisk, rfl, size_cutMember,
    resolve_of_readEntry (s := ⟨"main.tgz", .default, .ofPackages .default, []⟩) rfl (by decide) rfl
      readEntry_cutDisk⟩

end PluginAgent.Namespaces
