import PluginAgent.Proofs.Accounts
import PluginAgent.Proofs.AllOrNothing

namespace PluginAgent

namespace World

variable {σ : Type}

structure Agree (w v : World σ) : Prop where
  disk : v.disk = w.disk
  spaces : v.spaces = w.spaces
  own : v.own = w.own
  outside : v.outside = w.outside

namespace Agree

variable {w v : World σ}

theorem refl (w : World σ) : w.Agree w :=
  ⟨rfl, rfl, rfl, rfl⟩

theorem emit (h : w.Agree v) (events events' : List Event) :
    (w.emit events).Agree (v.emit events') :=
  ⟨h.disk, h.spaces, h.own, h.outside⟩

theorem meanwhile (h : w.Agree v) (space : NamespaceId) (type : ClassName) :
    (w.meanwhile space type).Agree (v.meanwhile space type) := by
  refine ⟨?_, h.spaces, h.own, h.outside⟩
  simp only [World.meanwhile, h.disk, h.outside]

theorem registering (h : w.Agree v) (a : Listed) : (w.registering a).Agree (v.registering a) := by
  refine ⟨h.disk, ?_, h.own, h.outside⟩
  simp only [World.registering, h.spaces]

end Agree

end World

theorem Script.run_agree {σ α : Type} {i : Injector} (s : Script σ α) : ∀ {w v : World σ},
    w.Agree v → (s.run i v).1 = (s.run i w).1 ∧ (s.run i w).2.Agree (s.run i v).2 := by
  induction s with
  | done result => intro w v h; exact ⟨rfl, h⟩
  | panic m => intro w v h; exact ⟨rfl, h⟩
  | resolve space name next ih =>
    intro w v h
    simp only [run, h.disk, h.spaces]
    cases i.resolve w.spaces w.disk space name with
    | error e => exact ih _ h
    | ok answer => exact ih _ ⟨rfl, rfl, h.own, h.outside⟩
  | resource path next ih =>
    intro w v h
    simp only [run, h.disk, h.spaces]
    exact ih _ h
  | inScope name next ih =>
    intro w v h
    simp only [run, h.spaces]
    exact ih _ h
  | look next ih =>
    intro w v h
    simp only [run, h.disk]
    exact ih _ h
  | change f next ih =>
    intro w v h
    exact ih ⟨congrArg f h.disk, h.spaces, h.own, h.outside⟩
  | log e next ih => intro w v h; exact ih (h.emit [e] [e])
  | own next ih =>
    intro w v h
    simp only [run, h.own]
    exact ih _ h
  | keep f next ih =>
    intro w v h
    exact ih ⟨h.disk, h.spaces, congrArg f h.own, h.outside⟩

theorem Listed.ofArchives_append {disk : Disk} {ys : List String} {later : List Listed}
    {events' : List Event} (hlater : ofArchives disk ys = (.ok later, events')) (xs : List String) :
    ∀ {first : List Listed} {events : List Event}, ofArchives disk xs = (.ok first, events) →
      ofArchives disk (xs ++ ys) = (.ok (first ++ later), events ++ events') := by
  induction xs with
  | nil =>
    intro first events h
    obtain ⟨rfl, rfl⟩ : first = [] ∧ events = [] := by simpa [ofArchives] using h
    exact hlater
  | cons x rest ih =>
    intro first events h
    obtain ⟨index, opened, logged, hindex, hrest, rfl, rfl⟩ := ofArchives_cons_eq_ok h
    simp only [List.cons_append, ofArchives, hindex, ih hrest, Except.map, List.append_assoc]

namespace Loader

variable {σ : Type} {l : Loader σ}

section Agree

variable {a : Listed} {space : NamespaceId} {w w' v : World σ}

theorem setUp_agree {c : Candidate} {r : Outcome PluginError SetupResult}
    (h : setUp l a space c w = (r, w')) (hagree : w.Agree v) :
    ∃ v', setUp l a space c v = (r, v') ∧ w'.Agree v' := by
  have hready := (hagree.emit [loading a c] [loading a c]).meanwhile space c.type
  simp only [setUp, hready.disk] at h ⊢
  split at h
  · obtain ⟨rfl, rfl⟩ := Prod.mk.inj h
    exact ⟨_, rfl, hready⟩
  · obtain ⟨hsame, hafter⟩ :=
      (l.setup c.plugin ⟨space, c.type, a.index.path⟩).run_agree
        (i := ⟨space, c.type, a.index.path⟩) hready
    rw [h] at hsame hafter
    refine ⟨_, ?_, hafter⟩
    exact Prod.ext hsame rfl

theorem Course.agree {cs : List Candidate} {p : Progress} (h : Course l a space cs w p w') :
    ∀ {v}, w.Agree v → ∃ v', Course l a space cs v p v' ∧ w'.Agree v' := by
  induction h with
  | done => intro v hagree; exact ⟨v, .done, hagree⟩
  | stopped hc he =>
    intro v hagree
    obtain ⟨v', hv, hagree'⟩ := setUp_agree hc hagree
    exact ⟨v', .stopped hv he, hagree'⟩
  | @failed c rest w e w₁ p w' hc he _ ih =>
    intro v hagree
    obtain ⟨v₁, hv, hagree₁⟩ := setUp_agree hc hagree
    obtain ⟨v', hrest, hagree'⟩ := ih (hagree₁.emit _ [skippedPlugin a c e])
    exact ⟨v', .failed hv he hrest, hagree'⟩
  | made hc _ ih =>
    intro v hagree
    obtain ⟨v₁, hv, hagree₁⟩ := setUp_agree hc hagree
    obtain ⟨v', hrest, hagree'⟩ := ih hagree₁
    exact ⟨v', .made hv hrest, hagree'⟩

theorem setUpArchive_agree {p : Progress} (h : setUpArchive l a space w = (.ok p, w'))
    (hagree : w.Agree v) : ∃ v', setUpArchive l a space v = (.ok p, v') ∧ w'.Agree v' := by
  obtain ⟨e, he, rfl, rfl⟩ | ⟨cs, hcs, hcourse⟩ := setUpArchive_eq_ok h
  · exact ⟨v, by simp only [setUpArchive, he], hagree⟩
  · obtain ⟨v', hv, hagree'⟩ := hcourse.agree (hagree.emit _ (l.disabled.skips cs))
    refine ⟨v', ?_, hagree'⟩
    simp only [setUpArchive, hcs]
    exact (course_iff l a space).mp hv

theorem Pass.agree {listed : List Listed} {results : List SetupResult}
    (h : Pass l listed w results w') :
    ∀ {v}, w.Agree v → ∃ v', Pass l listed v results v' ∧ w'.Agree v' := by
  induction h with
  | done => intro v hagree; exact ⟨v, .done, hagree⟩
  | @next a rest w p w₁ later w' hp _ ih =>
    intro v hagree
    obtain ⟨v₁, hv, hagree₁⟩ := setUpArchive_agree hp (hagree.registering a)
    rw [← hagree.spaces] at hv
    obtain ⟨v', hrest, hagree'⟩ := ih (hagree₁.emit _ (p.events a))
    exact ⟨v', .next hv hrest, hagree'⟩

end Agree

theorem Pass.append {first rest : List Listed} {w w₁ w₂ : World σ}
    {earlier later : List SetupResult} (hfirst : Pass l first w earlier w₁)
    (hrest : Pass l rest w₁ later w₂) : Pass l (first ++ rest) w (earlier ++ later) w₂ := by
  rw [pass_iff] at hfirst hrest ⊢
  rw [setUpListed_append, hfirst]
  simp only [hrest]

theorem load_fused {xs ys : List String} {w w₁ w₂ : World σ} {first second : List SetupResult}
    (hfirst : l.load xs w = (.ok first, w₁)) (hsecond : l.load ys w₁ = (.ok second, w₂))
    (hdisk : w₁.disk = w.disk) :
    ∃ w', l.load (xs ++ ys) w = (.ok (first ++ second), w') ∧ w₂.Agree w' := by
  obtain ⟨listed, events, v₁, hlisted, hall, rfl⟩ := load_eq_ok hfirst
  obtain ⟨listed', events', v₂, hlisted', hall', rfl⟩ := load_eq_ok hsecond
  rw [hdisk] at hlisted'
  have hopened := Listed.ofArchives_append hlisted' xs hlisted
  -- When the joined load begins to set up, it has logged the opening of all archives already.
  obtain ⟨u₁, hpass, hu₁⟩ :=
    (pass_iff.mpr hall).agree ((World.Agree.refl w).emit _ (events ++ events'))
  have hbetween : ((v₁.emit [loaded xs.length first.length]).emit events').Agree u₁ :=
    ⟨hu₁.disk, hu₁.spaces, hu₁.own, hu₁.outside⟩
  obtain ⟨u₂, hpass', hu₂⟩ := (pass_iff.mpr hall').agree hbetween
  exact ⟨_, load_of_setUpListed hopened (pass_iff.mp (hpass.append hpass')), hu₂.emit _ _⟩

theorem load_watched {archives : List String} {w w' : World σ} {results : List SetupResult}
    (h : l.load archives w = (.ok results, w')) (notes : List Note) :
    l.watched.load archives (w.watched notes) =
      (.ok results, w'.watched (notes ++ l.notes archives w)) := by
  obtain ⟨listed, events, w₁, hlisted, hall, rfl⟩ := load_eq_ok h
  obtain ⟨accounts, -, -, -, -, hwatched⟩ := setUpListed_accounts hall
  have hnotes : l.notes archives w = accounts.flatMap (·.notes) := by
    rw [notes_eq hlisted, hwatched]
    rfl
  have hsame : Listed.ofArchives (w.watched notes).disk archives = (.ok listed, events) := hlisted
  rw [hnotes, load_of_setUpListed hsame (hwatched notes)]
  rfl

theorem load_disk (h : l.Avoids .change) {w : World σ} (hquiet : w.Quiet) (archives : List String) :
    (l.load archives w).2.disk = w.disk := by
  simp only [load]
  split
  · rfl
  · rename_i listed events _
    have hdisk := (setUpListed_disk h listed (w := w.emit events) hquiet).1
    split <;> rename_i hall <;> rw [hall] at hdisk <;> exact hdisk

theorem load_append (l : Loader σ) (xs ys : List String) (w : World σ)
    (hopen : ∀ x ∈ xs ++ ys, ∃ index, Archive.Index.ofFile w.disk x = .ok index)
    (hdisk : (l.load xs w).2.disk = w.disk) :
    (∀ first w₁ second w₂, l.load xs w = (.ok first, w₁) → l.load ys w₁ = (.ok second, w₂) →
      ∃ w', l.load (xs ++ ys) w = (.ok (first ++ second), w') ∧ w'.spaces = w₂.spaces ∧
        w'.own = w₂.own ∧ w'.disk = w₂.disk ∧
        l.notes (xs ++ ys) w = l.notes xs w ++ l.notes ys w₁) ∧
    (l.Avoids .panic → ∃ first w₁ second w₂,
      l.load xs w = (.ok first, w₁) ∧ l.load ys w₁ = (.ok second, w₂)) := by
  refine ⟨?_, ?_⟩
  · intro first w₁ second w₂ hfirst hsecond
    rw [hfirst] at hdisk
    obtain ⟨w', hload, hagree⟩ := load_fused hfirst hsecond hdisk
    -- The notes are kept by a loader too, the watched one, so that its loads compose as well.
    have hnoted := load_watched hfirst []
    have hnoted' := load_watched hsecond (l.notes xs w)
    obtain ⟨v, hwatched, hnotes⟩ := load_fused hnoted hnoted' hdisk
    refine ⟨w', hload, hagree.spaces, hagree.own, hagree.disk, ?_⟩
    rw [notes, hwatched, hnotes.own]
    rfl
  · intro hl
    obtain ⟨hxs, hys⟩ := List.forall_mem_append.mp hopen
    obtain ⟨first, w₁, hfirst, -⟩ := load_succeeds hl hxs
    rw [hfirst] at hdisk
    have hys : ∀ x ∈ ys, ∃ index, Archive.Index.ofFile w₁.disk x = .ok index := by
      rwa [hdisk]
    obtain ⟨second, w₂, hsecond, -⟩ := load_succeeds hl hys
    exact ⟨first, w₁, second, w₂, hfirst, hsecond⟩

open Archive

def sevenSetups : Setup Nat := fun plugin i => .own fun made =>
  if made < 7 then .keep (· + 1) (Setup.standard plugin i)
  else .done (.error (.setupFailed i.plugin.text "seven are enough"))

theorem avoids_sevenSetups {types : List ClassName} {code : Plugin} {k : Liberty}
    (hk : k ≠ .own) (h : ∀ i, PluginScript.Avoids k (code i)) :
    (⟨{}, .uniform types code, sevenSetups⟩ : Loader Nat).Avoids k := by
  have hcode : (Catalog.uniform types code).Avoids k := Catalog.avoids_uniform h
  refine ⟨hcode.factories, fun hc i => ⟨hk, fun made => ?_⟩⟩
  beta_reduce
  split
  · exact ⟨hk, Setup.standard_avoids (hcode.plugins _ _ hc i)⟩
  · trivial

theorem choir_loaded_twice :
    let l : Loader Nat := ⟨{}, .uniform choir fun _ => .done (.ok ()), sevenSetups⟩
    let w : World Nat := { disk := choirDisk, own := 0 }
    let first := choir.map fun type => (⟨type, "choir.tgz", ⟨0⟩, [], []⟩ : SetupResult)
    let second := [soprano, alto].map fun type => (⟨type, "choir.tgz", ⟨1⟩, [], []⟩ : SetupResult)
    ∃ w₁ w₂ w', l.load ["choir.tgz"] w = (.ok first, w₁) ∧
      l.load ["choir.tgz"] w₁ = (.ok second, w₂) ∧
      l.load ["choir.tgz", "choir.tgz"] w = (.ok (first ++ second), w') ∧
      w'.spaces = w₂.spaces := by
  intro l w first second
  have havoids {k : Liberty} (hk : k ≠ .own) : l.Avoids k :=
    avoids_sevenSetups hk fun _ => trivial
  have hopen : ∀ x ∈ ["choir.tgz"], ∃ index, Index.ofFile w.disk x = .ok index := by
    simp [w, packed_choir.opens]
  have hquiet : w.Quiet := fun _ _ _ => rfl
  have hdisk : (l.load ["choir.tgz"] w).2.disk = w.disk :=
    load_disk (havoids (by decide)) hquiet _
  obtain ⟨hfused, hends⟩ := load_append l ["choir.tgz"] ["choir.tgz"] w (by simpa using hopen) hdisk
  obtain ⟨first', w₁, second', w₂, hfirst, hsecond⟩ := hends (havoids (by decide))
  obtain ⟨w', hboth, hspaces, -⟩ := hfused first' w₁ second' w₂ hfirst hsecond
  have hchoir : ∀ x ∈ [("choir.tgz", choirEntries)], Packed choirDisk x.1 x.2 := by
    simp [packed_choir]
  obtain ⟨v₁, hload⟩ := load_packed l w [("choir.tgz", choirEntries)] first hchoir
    (by decide +kernel)
  obtain ⟨v₂, hload'⟩ := load_packed l w [("choir.tgz", choirEntries), ("choir.tgz", choirEntries)]
    (first ++ second) (by simpa using hchoir) (by decide +kernel)
  obtain rfl : first' = first := by
    have hsame := congrArg Prod.fst (hfirst.symm.trans hload)
    exact Outcome.ok.inj hsame
  obtain rfl : second' = second := by
    have hsame := congrArg Prod.fst (hboth.symm.trans hload')
    exact List.append_cancel_left (Outcome.ok.inj hsame)
  exact ⟨w₁, w₂, w', hfirst, hsecond, hboth, hspaces⟩

end Loader

end PluginAgent
