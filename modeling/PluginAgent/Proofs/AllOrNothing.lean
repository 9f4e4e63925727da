import PluginAgent.Proofs.LoadParts
import PluginAgent.Proofs.PackedEntries
import PluginAgent.Proofs.Watching

namespace PluginAgent

namespace Listed

variable {disk : Disk}

theorem ofArchives_fails {before : List String} {archive : String} {flaw : Archive.Flaw}
    (hbefore : ∀ x ∈ before, ∃ index, Archive.Index.ofFile disk x = .ok index)
    (hflaw : Archive.Index.ofFile disk archive = .error flaw) (after : List String) :
    ∃ events, ofArchives disk (before ++ archive :: after) =
      (.error (.archiveOpen archive flaw), events) := by
  induction before with
  | nil => exact ⟨[], by simp only [List.nil_append, ofArchives, hflaw]⟩
  | cons x before ih =>
    obtain ⟨index, hindex⟩ := hbefore x List.mem_cons_self
    obtain ⟨events, hrest⟩ := ih fun y hy => hbefore y (List.mem_cons_of_mem _ hy)
    simp only [List.cons_append, ofArchives, hindex, hrest]
    exact ⟨_, rfl⟩

theorem all_open_or_first_fails (disk : Disk) (archives : List String) :
    (∀ x ∈ archives, ∃ index, Archive.Index.ofFile disk x = .ok index) ∨
      ∃ before archive after flaw, archives = before ++ archive :: after ∧
        (∀ x ∈ before, ∃ index, Archive.Index.ofFile disk x = .ok index) ∧
        Archive.Index.ofFile disk archive = .error flaw := by
  induction archives with
  | nil => exact .inl (by simp)
  | cons archive rest ih =>
    cases hfile : Archive.Index.ofFile disk archive with
    | error flaw => exact .inr ⟨[], archive, rest, flaw, rfl, by simp, hfile⟩
    | ok index =>
      rcases ih with hall | ⟨before, x, after, flaw, rfl, hbefore, hflaw⟩
      · exact .inl (List.forall_mem_cons.mpr ⟨⟨index, hfile⟩, hall⟩)
      · refine .inr ⟨archive :: before, x, after, flaw, rfl, ?_, hflaw⟩
        exact List.forall_mem_cons.mpr ⟨⟨index, hfile⟩, hbefore⟩

end Listed

namespace Loader

variable {σ : Type} {l : Loader σ} {w : World σ}

theorem load_fails {before : List String} {archive : String} {flaw : Archive.Flaw}
    (hbefore : ∀ x ∈ before, ∃ index, Archive.Index.ofFile w.disk x = .ok index)
    (hflaw : Archive.Index.ofFile w.disk archive = .error flaw) (after : List String) :
    ∃ events, l.load (before ++ archive :: after) w =
        (.error (.archiveOpen archive flaw), w.emit events) ∧
      ∀ notes, l.watched.load (before ++ archive :: after) (w.watched notes) =
        (.error (.archiveOpen archive flaw), (w.emit events).watched notes) := by
  obtain ⟨events, hlisted⟩ := Listed.ofArchives_fails hbefore hflaw after
  refine ⟨events, by simp only [load, hlisted], ?_⟩
  intro notes
  have hsame : Listed.ofArchives (w.watched notes).disk (before ++ archive :: after) =
      (.error (.archiveOpen archive flaw), events) := hlisted
  simp only [load, hsame, World.watched_emit]

theorem load_succeeds (hl : l.Avoids .panic) {archives : List String}
    (hopen : ∀ x ∈ archives, ∃ index, Archive.Index.ofFile w.disk x = .ok index) :
    ∃ results w', l.load archives w = (.ok results, w') ∧
      w'.spaces.size = w.spaces.size + archives.length ∧
      (∀ k, k < w.spaces.size → w'.spaces.spaces[k]? = w.spaces.spaces[k]?) ∧
      ∀ (j : Nat) (archive : String), archives[j]? = some archive → ∃ index s,
        Archive.Index.ofFile w.disk archive = .ok index ∧
        w'.spaces.get ⟨w.spaces.size + j⟩ = .ok s ∧ s.IsOf ⟨index, index.packages.1⟩ := by
  obtain ⟨listed, events, hlisted⟩ := Listed.ofArchives_opens archives hopen
  obtain ⟨results, w₁, hall⟩ := setUpListed_ends hl listed (w.emit events)
  have hfollows := follows_of_setUpListed hall
  have hkept {k : Nat} (hk : k < w.spaces.size) :=
    setUpListed_getElem?_of_lt l listed (w := w.emit events) hk
  rw [hall] at hkept
  have hlength : archives.length = listed.length :=
    (Listed.ofArchives_eq_ok archives hlisted).length_eq
  refine ⟨results, _, load_of_setUpListed hlisted hall, ?_, ?_, ?_⟩
  · rw [World.spaces_emit, hfollows.size, hlength, World.spaces_emit]
  · intro k hk
    exact hkept hk
  · intro j archive hj
    obtain ⟨index, hindex, hget⟩ := Listed.ofArchives_getElem? hlisted hj
    obtain ⟨s, hs, hof⟩ := hfollows.fresh j _ hget
    exact ⟨index, s, hindex, Namespaces.get_eq_ok_iff.mpr hs, hof⟩

theorem load_all_or_nothing (l : Loader σ) (hl : l.Avoids .panic) (archives : List String)
    (w : World σ) :
    ((∃ e w', l.load archives w = (.error e, w')) ↔
      ∃ x ∈ archives, ∃ flaw, Archive.Index.ofFile w.disk x = .error flaw) ∧
    (∀ before archive after flaw, archives = before ++ archive :: after →
      (∀ x ∈ before, ∃ index, Archive.Index.ofFile w.disk x = .ok index) →
      Archive.Index.ofFile w.disk archive = .error flaw →
      ∃ w', l.load archives w = (.error (.archiveOpen archive flaw), w') ∧
        w'.spaces = w.spaces ∧
        l.watched.load archives (w.watched []) =
          (.error (.archiveOpen archive flaw), w'.watched [])) ∧
    ((∀ x ∈ archives, ∃ index, Archive.Index.ofFile w.disk x = .ok index) →
      ∃ results w', l.load archives w = (.ok results, w') ∧
        w'.spaces.size = w.spaces.size + archives.length ∧
        (∀ k, k < w.spaces.size → w'.spaces.spaces[k]? = w.spaces.spaces[k]?) ∧
        ∀ (j : Nat) (archive : String), archives[j]? = some archive → ∃ index s,
          Archive.Index.ofFile w.disk archive = .ok index ∧
          w'.spaces.get ⟨w.spaces.size + j⟩ = .ok s ∧
          s.archive = archive ∧ s.packages = index.packages.1 ∧
          s.scope = .ofPackages index.packages.1) := by
  have hfails : ∀ before archive after flaw, archives = before ++ archive :: after →
      (∀ x ∈ before, ∃ index, Archive.Index.ofFile w.disk x = .ok index) →
      Archive.Index.ofFile w.disk archive = .error flaw →
      ∃ w', l.load archives w = (.error (.archiveOpen archive flaw), w') ∧
        w'.spaces = w.spaces ∧
        l.watched.load archives (w.watched []) =
          (.error (.archiveOpen archive flaw), w'.watched []) := by
    rintro before archive after flaw rfl hbefore hflaw
    obtain ⟨events, hload, hwatched⟩ := load_fails (l := l) hbefore hflaw after
    exact ⟨w.emit events, hload, rfl, hwatched []⟩
  refine ⟨⟨?_, ?_⟩, hfails, ?_⟩
  · rintro ⟨e, w', hload⟩
    rcases Listed.all_open_or_first_fails w.disk archives with
      hall | ⟨before, archive, after, flaw, rfl, -, hflaw⟩
    · obtain ⟨results, w'', hok, -⟩ := load_succeeds hl hall
      exact absurd (hload.symm.trans hok) (by simp)
    · exact ⟨archive, by simp, flaw, hflaw⟩
  · rintro ⟨x, hx, flaw, hflaw⟩
    rcases Listed.all_open_or_first_fails w.disk archives with
      hall | ⟨before, archive, after, flaw', harchives, hbefore, hflaw'⟩
    · obtain ⟨index, hindex⟩ := hall x hx
      exact absurd (hflaw.symm.trans hindex) (by simp)
    · obtain ⟨w', hload, -⟩ := hfails before archive after flaw' harchives hbefore hflaw'
      exact ⟨_, w', hload⟩
  · intro hopen
    obtain ⟨results, w', hload, hsize, hkept, hnew⟩ := load_succeeds hl hopen
    refine ⟨results, w', hload, hsize, hkept, ?_⟩
    intro j archive hj
    obtain ⟨index, s, hindex, hs, hof⟩ := hnew j archive hj
    have hpath : index.path = archive := Archive.Index.path_ofFile hindex
    exact ⟨index, s, hindex, hs, hof.archive.trans hpath, hof.packages, hof.scope⟩

open Archive

theorem choir_fails_with_absent :
    ∃ (e : PluginError) (w w' : World Unit) (results : List SetupResult),
      load ⟨{}, .uniform choir fun _ => .done (.ok ()), Setup.standard⟩
        ["choir.tgz", "absent.tgz"] { disk := choirDisk, own := () } = (.error e, w) ∧
      w.spaces.size = 0 ∧
      load ⟨{}, .uniform choir fun _ => .done (.ok ()), Setup.standard⟩
        ["choir.tgz"] { disk := choirDisk, own := () } = (.ok results, w') ∧
      w'.spaces.size = 1 := by
  have hcode : (Catalog.uniform choir fun _ => .done (.ok ())).Avoids .panic :=
    Catalog.avoids_uniform fun _ => trivial
  have hopen : ∀ x ∈ ["choir.tgz"], ∃ index, Index.ofFile choirDisk x = .ok index := by
    simp [packed_choir.opens]
  obtain ⟨flaw, hflaw⟩ : ∃ flaw, Index.ofFile choirDisk "absent.tgz" = .error flaw := by
    have habsent : (choirDisk.entry "absent.tgz").isOk = false := by decide +kernel
    cases hentry : choirDisk.entry "absent.tgz" with
    | ok found => simp [hentry, Except.isOk, Except.toBool] at habsent
    | error e => exact ⟨.notOpened e, by simp only [Index.ofFile, Contents.at, hentry]; rfl⟩
  obtain ⟨-, hfails, -⟩ := load_all_or_nothing _ (avoids_standard hcode) ["choir.tgz", "absent.tgz"]
    ({ disk := choirDisk, own := () } : World Unit)
  obtain ⟨-, -, hsucceeds⟩ := load_all_or_nothing _ (avoids_standard hcode) ["choir.tgz"]
    ({ disk := choirDisk, own := () } : World Unit)
  obtain ⟨w, hload, hspaces, -⟩ := hfails ["choir.tgz"] "absent.tgz" [] flaw rfl hopen hflaw
  obtain ⟨results, w', hload', hsize, -, -⟩ := hsucceeds hopen
  exact ⟨_, w, w', results, hload, by rw [hspaces]; rfl, hload', hsize⟩

end Loader

end PluginAgent
