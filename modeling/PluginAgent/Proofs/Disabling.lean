import PluginAgent.Proofs.Accounts
import PluginAgent.Proofs.LoadParts
import PluginAgent.Proofs.PackedEntries

namespace PluginAgent

def Listed.answer (a : Listed) (disk : Disk) (id : NamespaceId) (name : ClassName) :
    Except PluginError LoadedClass :=
  if (Scope.ofPackages a.packages).accepts name.text then
    (Namespaces.readEntry disk a.index.path name.entryPath).map (⟨id, name, ·⟩)
  else .error (.outOfScope name.text id)

def Namespace.Faithful (s : Namespace) (disk : Disk) : Prop :=
  ∀ name bytes, s.defined.lookup name = some bytes →
    Namespaces.readEntry disk s.archive name.entryPath = .ok bytes

theorem Namespace.Faithful.define {s : Namespace} {disk : Disk} {name : ClassName}
    {bytes : ByteArray} (h : s.Faithful disk)
    (hread : Namespaces.readEntry disk s.archive name.entryPath = .ok bytes) :
    ({ s with defined := s.defined ++ [(name, bytes)] } : Namespace).Faithful disk := by
  intro other found hfound
  rw [List.lookup_append] at hfound
  cases hknown : s.defined.lookup other with
  | some known =>
    rw [hknown] at hfound
    obtain rfl : known = found := by simpa using hfound
    exact h other known hknown
  | none =>
    rw [hknown, Option.none_or, List.lookup_cons] at hfound
    split at hfound
    · rename_i hsame
      obtain rfl : other = name := beq_iff_eq.mp hsame
      obtain rfl := Option.some.inj hfound
      exact hread
    · cases hfound

namespace World

variable {σ : Type} {disk : Disk} {id : NamespaceId} {a : Listed} {w w₁ w₂ : World σ}

structure Serves (disk : Disk) (id : NamespaceId) (a : Listed) (w : World σ) : Prop where
  space : ∃ s, w.spaces.get id = .ok s ∧ s.IsOf a ∧ s.Faithful disk
  disk : w.disk = disk
  quiet : w.Quiet

theorem Serves.emit (h : w.Serves disk id a) (events : List Event) :
    (w.emit events).Serves disk id a :=
  ⟨h.space, h.disk, h.quiet⟩

theorem serves_registering (hdisk : w.disk = disk) (hquiet : w.Quiet) (a : Listed) :
    (w.registering a).Serves disk ⟨w.spaces.size⟩ a := by
  refine ⟨⟨_, Namespaces.get_eq_ok_iff.mpr (w.getElem?_registering a), ⟨rfl, rfl, rfl⟩, ?_⟩, hdisk,
    hquiet⟩
  intro name bytes hnone
  cases hnone

theorem Serves.resolve (h : w.Serves disk id a) (name : ClassName) :
    (∃ e, w.spaces.resolve w.disk id name = .error e ∧ a.answer disk id name = .error e) ∨
    ∃ c t, w.spaces.resolve w.disk id name = .ok (c, t) ∧ a.answer disk id name = .ok c ∧
      Serves disk id a { w with spaces := t } := by
  obtain ⟨⟨s, hs, hof, hfaithful⟩, rfl, hquiet⟩ := h
  simp only [Namespaces.resolve, hs, Listed.answer, ← hof.scope, ← hof.archive]
  cases haccepts : s.scope.accepts name.text with
  | false => exact .inl ⟨_, rfl, rfl⟩
  | true =>
    cases hknown : s.defined.lookup name with
    | some bytes =>
      have hread := hfaithful name bytes hknown
      refine .inr ⟨_, w.spaces, rfl, by simp [hread, Except.map], ?_⟩
      exact ⟨⟨s, hs, hof, hfaithful⟩, rfl, hquiet⟩
    | none =>
      cases hread : Namespaces.readEntry w.disk s.archive name.entryPath with
      | error e => exact .inl ⟨e, by simp, by simp [Except.map]⟩
      | ok bytes =>
        refine .inr ⟨_, w.spaces.define id name bytes, by simp; rfl, by simp [Except.map], ?_⟩
        exact ⟨⟨_, Namespaces.get_define hs name bytes, ⟨hof.archive, hof.packages, hof.scope⟩,
          hfaithful.define hread⟩, rfl, hquiet⟩

theorem blind_serves (i : Injector) (disk : Disk) (a : Listed) :
    i.Blind fun w₁ w₂ : World σ => w₁.Serves disk i.space a ∧ w₂.Serves disk i.space a where
  resolve := by
    rintro w₁ w₂ name ⟨h₁, h₂⟩
    rcases h₁.resolve name with ⟨e, he₁, he⟩ | ⟨c, t₁, hc₁, hc, hafter₁⟩
    · rcases h₂.resolve name with ⟨e', he₂, he'⟩ | ⟨c, t₂, hc₂, hc, hafter₂⟩
      · obtain rfl := Except.error.inj (he.symm.trans he')
        exact .inl ⟨e, he₁, he₂⟩
      · exact absurd (he.symm.trans hc) (by simp)
    · rcases h₂.resolve name with ⟨e', he₂, he'⟩ | ⟨c', t₂, hc₂, hc', hafter₂⟩
      · exact absurd (he'.symm.trans hc) (by simp)
      · obtain rfl := Except.ok.inj (hc.symm.trans hc')
        exact .inr ⟨c, t₁, t₂, hc₁, hc₂, hafter₁, hafter₂⟩
  resource := by
    rintro w₁ w₂ path ⟨⟨⟨s₁, hs₁, hof₁, -⟩, hdisk₁, -⟩, ⟨⟨s₂, hs₂, hof₂, -⟩, hdisk₂, -⟩⟩
    simp only [Injector.resource, Namespaces.resource, hs₁, hs₂, hof₁.scope, hof₂.scope,
      hof₁.archive, hof₂.archive, hdisk₁, hdisk₂]
  inScope := by
    rintro w₁ w₂ name ⟨⟨⟨s₁, hs₁, hof₁, -⟩, -, -⟩, ⟨⟨s₂, hs₂, hof₂, -⟩, -, -⟩⟩
    simp only [Injector.inScope, Namespaces.inScope, hs₁, hs₂, Except.map, hof₁.scope, hof₂.scope]
  emit := by
    rintro w₁ w₂ events ⟨h₁, h₂⟩
    exact ⟨h₁.emit events, h₂.emit events⟩

end World

namespace Loader

variable {σ : Type} {l : Loader σ} {disk : Disk} {a : Listed} {space : NamespaceId}

def enablingAll (l : Loader σ) : Loader σ :=
  { l with disabled := {} }

theorem verify_of_ofFile {archive : String} {index : Archive.Index}
    (h : Archive.Index.ofFile disk archive = .ok index) : verify disk archive = .ok () := by
  simp only [Archive.Index.ofFile, Archive.Contents.at] at h
  split at h
  · cases h
  · cases h
  · rename_i bytes hentry
    simp only [verify, Archive.accessFlaw?, hentry]

theorem setUp_serves {c : Candidate} (h : ∀ k i, (l.setup c.plugin i).Avoids k) {w₁ w₂ : World σ}
    (h₁ : w₁.Serves disk space a) (h₂ : w₂.Serves disk space a) :
    (setUp l a space c w₁).1 = (setUp l a space c w₂).1 ∧
      (setUp l a space c w₁).2.Serves disk space a ∧
      (setUp l a space c w₂).2.Serves disk space a := by
  have hready₁ := h₁.emit [loading a c]
  have hready₂ := h₂.emit [loading a c]
  simp only [setUp, hready₁.quiet.meanwhile, hready₂.quiet.meanwhile, World.disk_emit, h₁.disk,
    h₂.disk]
  split
  · exact ⟨rfl, hready₁, hready₂⟩
  · exact Script.run_blind (World.blind_serves ⟨space, c.type, a.index.path⟩ disk a) _
      (fun k => h k _) ⟨hready₁, hready₂⟩

theorem setUpAll_world {c : Candidate} {rest : List Candidate} {r : SetupResult} {w w₁ : World σ}
    (h : setUp l a space c w = (.ok r, w₁)) :
    (setUpAll l a space (c :: rest) w).2 = (setUpAll l a space rest w₁).2 := by
  simp only [setUpAll, h]
  split <;> rename_i hrest <;> rw [hrest]

theorem Course.stopped_eq_none {cs : List Candidate} {w w' : World σ} {p : Progress}
    (h : Course l a space cs w p w') (hall : ∀ c ∈ cs, ∀ k i, (l.setup c.plugin i).Avoids k)
    (haccess : verify disk a.index.path = .ok ()) : ∀ {notes : List Note},
      w.Serves disk space a →
      (∀ i e, .returned i (.error e) ∈ (setUpAll l.watched a space cs (w.watched notes)).2.own.2 →
        e.isUnavailable = false) →
      p.stopped = none := by
  induction h with
  | done => intros; rfl
  | @stopped c rest w e w' hc he =>
    intro notes hw hnotes
    obtain ⟨t, rfl, ht, hgone, -, hwatched⟩ := setUp_turn (r := .error e) hc
    cases hending : t.ending with
    | inaccessible e' =>
      have hgone := hgone e' hending
      rw [(hw.emit _).quiet.meanwhile, (hw.emit _).disk, haccess] at hgone
      cases hgone
    | returned said r =>
      obtain rfl : r = .error e := by simpa [Turn.answer, hending] using ht
      have hrun : (setUpAll l.watched a space (t.candidate :: rest) (w.watched notes)).2 =
          w'.watched (notes ++ t.notes space a) := by
        simp [setUpAll, hwatched, Outcome.ofExcept, he]
      have hnote : .returned (t.injector space a) (.error e) ∈ t.notes space a := by
        simp [Turn.notes, hending]
      have havailable : e.isUnavailable = false := by
        refine hnotes (t.injector space a) e ?_
        rw [hrun]
        exact List.mem_append_right notes hnote
      rw [he] at havailable
      cases havailable
  | @failed c rest w e w₁ p w' hc he hrest ih =>
    intro notes hw hnotes
    obtain ⟨t, rfl, ht, -, -, hwatched⟩ := setUp_turn (r := .error e) hc
    have hafter := (setUp_serves (hall _ List.mem_cons_self) hw hw).2.1
    rw [hc] at hafter
    have hlater : ∀ i e', .returned i (.error e') ∈ (setUpAll l.watched a space rest
        ((w₁.emit [skippedPlugin a t.candidate e]).watched (notes ++ t.notes space a))).2.own.2 →
          e'.isUnavailable = false := by
      simpa [setUpAll, hwatched, Outcome.ofExcept, he, World.watched_emit] using hnotes
    exact ih (fun c hc => hall c (List.mem_cons_of_mem _ hc)) (hafter.emit _) hlater
  | @made c rest w r w₁ p w' hc hrest ih =>
    intro notes hw hnotes
    obtain ⟨t, rfl, ht, -, -, hwatched⟩ := setUp_turn (r := .ok r) hc
    have hafter := (setUp_serves (hall _ List.mem_cons_self) hw hw).2.1
    rw [hc] at hafter
    rw [setUpAll_world (hwatched notes)] at hnotes
    exact ih (fun c hc => hall c (List.mem_cons_of_mem _ hc)) hafter hnotes

theorem Course.keep (hl : l.setup = Setup.standard) {cs : List Candidate} {w₂ w₂' : World σ}
    {p : Progress} (h : Course l.enablingAll a space cs w₂ p w₂')
    (hall : ∀ c ∈ cs, ∀ k i, (l.setup c.plugin i).Avoids k) (hstopped : p.stopped = none) :
    ∀ {w₁ : World σ}, w₁.Serves disk space a → w₂.Serves disk space a →
      ∃ w₁', Course l a space (l.disabled.keep cs) w₁
          { results := p.results.filter fun r => !l.disabled.contains r.plugin.text } w₁' ∧
        w₁'.Serves disk space a ∧ w₂'.Serves disk space a := by
  induction h with
  | done => intro w₁ hw₁ hw₂; exact ⟨w₁, .done, hw₁, hw₂⟩
  | stopped => cases hstopped
  | @failed c rest w e w₂₁ p w₂' hc he hrest ih =>
    intro w₁ hw₁ hw₂
    have hc : setUp l a space c w = (.error e, w₂₁) := hc
    have hlater {w₁ : World σ} :=
      @ih (fun c hc => hall c (List.mem_cons_of_mem _ hc)) hstopped w₁
    obtain ⟨hsame, hafter₁, hafter₂⟩ := setUp_serves (hall c List.mem_cons_self) hw₁ hw₂
    rw [hc] at hsame hafter₂
    cases henabled : c.enabled l.disabled with
    | false =>
      rw [Disabled.keep, List.filter_cons_of_neg (by simp [henabled])]
      exact hlater hw₁ (hafter₂.emit _)
    | true =>
      have hstep : setUp l a space c w₁ = (.error e, (setUp l a space c w₁).2) :=
        Prod.ext hsame rfl
      obtain ⟨w₁', hcourse, hserves⟩ := hlater (hafter₁.emit _) (hafter₂.emit _)
      rw [Disabled.keep, List.filter_cons_of_pos henabled]
      exact ⟨w₁', .failed hstep he hcourse, hserves⟩
  | @made c rest w r w₂₁ p w₂' hc hrest ih =>
    intro w₁ hw₁ hw₂
    have hc : setUp l a space c w = (.ok r, w₂₁) := hc
    have hlater {w₁ : World σ} :=
      @ih (fun c hc => hall c (List.mem_cons_of_mem _ hc)) hstopped w₁
    obtain ⟨hsame, hafter₁, hafter₂⟩ := setUp_serves (hall c List.mem_cons_self) hw₁ hw₂
    rw [hc] at hsame hafter₂
    have hplugin : r.plugin = c.type := (setUp_bound hl hc).1
    cases henabled : c.enabled l.disabled with
    | false =>
      have hout : l.disabled.contains r.plugin.text = true := by
        simpa [Candidate.enabled, hplugin] using henabled
      rw [Disabled.keep, List.filter_cons_of_neg (by simp [henabled])]
      simp only [List.filter_cons, hout, Bool.not_true, Bool.false_eq_true, if_false]
      exact hlater hw₁ hafter₂
    | true =>
      have hin : l.disabled.contains r.plugin.text = false := by
        simpa [Candidate.enabled, hplugin] using henabled
      have hstep : setUp l a space c w₁ = (.ok r, (setUp l a space c w₁).2) := Prod.ext hsame rfl
      obtain ⟨w₁', hcourse, hserves⟩ := hlater hafter₁ hafter₂
      rw [Disabled.keep, List.filter_cons_of_pos henabled]
      simp only [List.filter_cons, hin, Bool.not_false, if_true]
      exact ⟨w₁', .made hstep hcourse, hserves⟩

theorem setUpArchive_keep (hl : l.setup = Setup.standard) (hall : ∀ k, l.Avoids k)
    (haccess : verify disk a.index.path = .ok ()) {w₁ w₂ w₂' : World σ} {p : Progress}
    {notes : List Note} (h₁ : w₁.Serves disk space a) (h₂ : w₂.Serves disk space a)
    (h : setUpArchive l.enablingAll a space w₂ = (.ok p, w₂'))
    (hnotes : ∀ i e, .returned i (.error e) ∈
      (setUpArchive l.enablingAll.watched a space (w₂.watched notes)).2.own.2 →
        e.isUnavailable = false) :
    ∃ p₁ w₁', setUpArchive l a space w₁ = (.ok p₁, w₁') ∧
      p₁.results = p.results.filter (fun r => !l.disabled.contains r.plugin.text) ∧
      w₁'.Serves disk space a ∧ w₂'.Serves disk space a := by
  obtain ⟨e, he, rfl, rfl⟩ | ⟨cs, hcs, hcourse⟩ := setUpArchive_eq_ok h
  · have he : Candidate.discover a.index l.catalog = .error e := he
    exact ⟨{ stopped := some e }, w₁, by simp only [setUpArchive, he], rfl, h₁, h₂⟩
  · have hcs : Candidate.discover a.index l.catalog = .ok cs := hcs
    have hwatched : Candidate.discover a.index l.enablingAll.watched.catalog = .ok cs := hcs
    have hkept : l.enablingAll.disabled.keep cs = cs := by
      simp [enablingAll, Disabled.keep, Candidate.enabled, Disabled.contains]
    have hkept' : l.enablingAll.watched.disabled.keep cs = cs := hkept
    have hcandidates : ∀ c ∈ cs, ∀ k i, (l.setup c.plugin i).Avoids k := fun c hc k i =>
      (hall k).setup (Candidate.isFrom_of_discover hcs c hc) i
    rw [hkept] at hcourse
    simp only [setUpArchive, hwatched, hkept'] at hnotes
    have hstopped := hcourse.stopped_eq_none hcandidates haccess (h₂.emit _) hnotes
    obtain ⟨w₁', hcourse', hserves₁, hserves₂⟩ :=
      hcourse.keep hl hcandidates hstopped (h₁.emit (l.disabled.skips cs)) (h₂.emit _)
    refine ⟨{ results := p.results.filter fun r => !l.disabled.contains r.plugin.text }, w₁', ?_,
      rfl, hserves₁, hserves₂⟩
    simp only [setUpArchive, hcs]
    exact (course_iff l a space).mp hcourse'

theorem setUpListed_keep (hl : l.setup = Setup.standard) (hall : ∀ k, l.Avoids k)
    {listed : List Listed} (haccess : ∀ a ∈ listed, verify disk a.index.path = .ok ())
    {w₁ w₂ w₂' : World σ} {results : List SetupResult} {notes : List Note}
    (hsize : w₁.spaces.size = w₂.spaces.size) (hdisk₁ : w₁.disk = disk) (hdisk₂ : w₂.disk = disk)
    (hquiet₁ : w₁.Quiet) (hquiet₂ : w₂.Quiet)
    (h : setUpListed l.enablingAll listed w₂ = (.ok results, w₂'))
    (hnotes : ∀ i e, .returned i (.error e) ∈
      (setUpListed l.enablingAll.watched listed (w₂.watched notes)).2.own.2 →
        e.isUnavailable = false) :
    ∃ w₁', setUpListed l listed w₁ =
      (.ok (results.filter fun r => !l.disabled.contains r.plugin.text), w₁') := by
  rw [← pass_iff] at h
  induction h generalizing w₁ notes with
  | done => exact ⟨w₁, rfl⟩
  | @next a rest w₂ p w₂₁ later w₂' hp hlater ih =>
    have hserves₁ := World.serves_registering hdisk₁ hquiet₁ a
    have hserves₂ := World.serves_registering hdisk₂ hquiet₂ a
    rw [hsize] at hserves₁
    obtain ⟨acc, -, -, -, -, -, hown⟩ := setUpArchive_account hp
    obtain ⟨accounts, -, -, -, -, hbehind⟩ := setUpListed_accounts (pass_iff.mp hlater)
    rw [setUpListed_watched hown hbehind notes] at hnotes
    have hfirst : ∀ i e, .returned i (.error e) ∈
        (setUpArchive l.enablingAll.watched a ⟨w₂.spaces.size⟩
          ((w₂.registering a).watched notes)).2.own.2 → e.isUnavailable = false := by
      intro i e hnote
      rw [hown] at hnote
      refine hnotes i e ?_
      rw [← List.append_assoc]
      exact List.mem_append_left _ hnote
    obtain ⟨p₁, w₁₁, hp₁, hresults, hafter₁, hafter₂⟩ :=
      setUpArchive_keep hl hall (haccess a List.mem_cons_self) hserves₁ hserves₂ hp hfirst
    have hsame : (w₁₁.emit (p₁.events a)).spaces.size = (w₂₁.emit (p.events a)).spaces.size := by
      rw [World.spaces_emit, World.spaces_emit, size_of_setUpArchive hp₁, size_of_setUpArchive hp,
        hsize]
    have hothers : ∀ i e, .returned i (.error e) ∈
        (setUpListed l.enablingAll.watched rest
          ((w₂₁.emit (p.events a)).watched (notes ++ acc.notes))).2.own.2 →
            e.isUnavailable = false := by
      intro i e hnote
      rw [hbehind, List.append_assoc] at hnote
      exact hnotes i e hnote
    obtain ⟨w₁', hrest⟩ := ih (fun b hb => haccess b (List.mem_cons_of_mem _ hb)) hsame
      hafter₁.disk hafter₂.disk hafter₁.quiet hafter₂.quiet hothers
    refine ⟨w₁', ?_⟩
    rw [setUpListed_cons, hsize, hp₁]
    simp only [hrest, hresults, List.filter_append]

theorem notes_available (hpanic : l.Avoids .panic)
    (havailable : ∀ {c : Candidate}, c.IsFrom l.catalog → ∀ {i : Injector} {w w' : World σ}
      {e : PluginError}, (l.setup c.plugin i).run i w = (.error e, w') → e.isUnavailable = false)
    (archives : List String) (w : World σ) :
    ∀ i e, .returned i (.error e) ∈ l.notes archives w → e.isUnavailable = false := by
  cases hlisted : Listed.ofArchives w.disk archives with
  | mk opened events =>
    cases opened with
    | error e =>
      have hsame : Listed.ofArchives (w.watched []).disk archives = (.error e, events) := hlisted
      have hnone : l.notes archives w = [] := by
        simp only [notes, load, hsame]
        rfl
      simp [hnone]
    | ok listed =>
      rw [notes_eq hlisted]
      have hnone : ∀ (i : Injector) (e : PluginError),
          .returned i (.error e) ∈ ((w.emit events).watched []).own.2 → e.isUnavailable = false := by
        intro i e hnote
        cases hnote
      refine setUpListed_keeps l.watched (P := fun w => ∀ (i : Injector) (e : PluginError),
        .returned i (.error e) ∈ w.own.2 → e.isUnavailable = false) (fun _ h => h) (fun _ _ h => h)
        (fun _ h => h) ?_ listed hnone
      intro c hc i w' hw'
      let w₀ : World σ := ⟨w'.disk, w'.spaces, w'.own.1, w'.log, w'.outside⟩
      obtain ⟨r, w₁, hrun⟩ := Script.run_eq_ofExcept (l.setup c.plugin i) (hpanic.setup hc i) w₀
      obtain ⟨said, -, hwatched⟩ := Setup.run_watched hrun
      have hwatched : (l.watched.setup c.plugin i).run i w' = _ := hwatched w'.own.2
      rw [hwatched]
      intro j e hnote
      rcases List.mem_append.mp hnote with hnote | hnote
      · rcases List.mem_append.mp hnote with hbefore | hsaid
        · exact hw' j e hbefore
        · simp at hsaid
      · obtain ⟨-, rfl⟩ : j = i ∧ .error e = r := by simpa using hnote
        exact havailable hc hrun

theorem disabling_removes_results (disabled : Disabled) (catalog : Catalog)
    (hcatalog : ∀ k, catalog.Avoids k) (archives : List String) (w₁ w₂ : World σ)
    (hfresh₁ : w₁.spaces = {}) (hfresh₂ : w₂.spaces = {}) (hdisk : w₂.disk = w₁.disk)
    (hquiet₁ : w₁.Quiet) (hquiet₂ : w₂.Quiet)
    (hopen : ∀ x ∈ archives, ∃ index, Archive.Index.ofFile w₁.disk x = .ok index)
    (havailable : ∀ i e, .returned i (.error e) ∈
      notes ⟨{}, catalog, Setup.standard⟩ archives w₂ → e.isUnavailable = false) :
    ∃ (results : List SetupResult) (w₁' w₂' : World σ),
      load ⟨disabled, catalog, Setup.standard⟩ archives w₁ =
        (.ok (results.filter fun r => !disabled.contains r.plugin.text), w₁') ∧
      load ⟨{}, catalog, Setup.standard⟩ archives w₂ = (.ok results, w₂') := by
  let l : Loader σ := ⟨disabled, catalog, Setup.standard⟩
  have hall (k : Liberty) : l.Avoids k := avoids_standard (hcatalog k)
  have hpanic : l.enablingAll.Avoids .panic := avoids_standard (hcatalog .panic)
  obtain ⟨listed, events, hlisted⟩ := Listed.ofArchives_opens archives hopen
  have hlisted' : Listed.ofArchives w₂.disk archives = (.ok listed, events) := hdisk ▸ hlisted
  have haccess : ∀ a ∈ listed, verify w₁.disk a.index.path = .ok () := by
    intro a ha
    obtain ⟨k, hk⟩ := List.getElem?_of_mem ha
    exact verify_of_ofFile (Listed.opened_of_getElem? hlisted hk).2.1
  have hsize : (w₁.emit events).spaces.size = (w₂.emit events).spaces.size := by
    simp [hfresh₁, hfresh₂]
  rw [notes_eq hlisted'] at havailable
  obtain ⟨results, w₂', hrun⟩ := setUpListed_ends hpanic listed (w₂.emit events)
  obtain ⟨w₁', hkept⟩ := setUpListed_keep (l := l) rfl hall haccess hsize rfl hdisk hquiet₁
    hquiet₂ hrun havailable
  exact ⟨results, _, _, load_of_setUpListed hlisted hkept, load_of_setUpListed hlisted' hrun⟩

open Archive

def sharingCode : Plugin := fun _ =>
  .inject bass.text fun _ => .done (.ok ())

theorem choir_without_soprano :
    ∃ (results : List SetupResult) (w₁ w₂ : World Unit),
      load ⟨⟨[soprano.text, tenor.text]⟩, .uniform choir sharingCode, Setup.standard⟩
        ["choir.tgz", "choir.tgz"] { disk := choirDisk, own := () } =
        (.ok (results.filter fun r =>
          !Disabled.contains ⟨[soprano.text, tenor.text]⟩ r.plugin.text), w₁) ∧
      load ⟨{}, .uniform choir sharingCode, Setup.standard⟩ ["choir.tgz", "choir.tgz"]
        { disk := choirDisk, own := () } = (.ok results, w₂) := by
  have hcatalog (k : Liberty) : (Catalog.uniform choir sharingCode).Avoids k :=
    Catalog.avoids_uniform fun _ _ => trivial
  refine disabling_removes_results _ _ hcatalog _ _ _ rfl rfl rfl (fun _ _ _ => rfl)
    (fun _ _ _ => rfl) (by simp [packed_choir.opens])
    (notes_available (avoids_standard (hcatalog .panic)) ?_ _ _)
  intro c hc i w w' e hrun
  have hcode : c.plugin = sharingCode := by
    obtain ⟨type, -, heq⟩ := List.mem_map.mp hc
    exact (Outcome.ok.inj (Prod.mk.inj heq).2).symm
  simp only [hcode, sharingCode, Setup.standard, PluginScript.within, Script.run_andThen] at hrun
  -- Whatever the request comes to, the code goes on and ends well.
  split at hrun <;> rename_i hinject <;> split at hinject <;>
    simp [Script.run, Except.map, Outcome.ofExcept] at hinject hrun

end Loader

end PluginAgent
