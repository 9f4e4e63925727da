import PluginAgent.Proofs.Watching

namespace PluginAgent

def Event.tells (level : Level) (message : String) (type : ClassName) (e : Event) : Bool :=
  decide (e.level = level ∧ e.message = message ∧ ("plugin", Field.text type.text) ∈ e.fields)

namespace Note

def calls (type : ClassName) : Note → Bool
  | called i => decide (i.plugin = type)
  | _ => false

def result? : Note → Option SetupResult
  | returned _ (.ok r) => some r
  | _ => none

def yields (type : ClassName) : Note → Bool
  | returned i (.ok _) => decide (i.plugin = type)
  | _ => false

end Note

namespace Loader

variable {σ : Type}

inductive Ending where
  | inaccessible (e : PluginError)
  | returned (said : List Event) (r : Except PluginError SetupResult)

structure Turn where
  candidate : Candidate
  ending : Ending

namespace Turn

def answer (t : Turn) : Except PluginError SetupResult :=
  match t.ending with
  | .inaccessible e => .error e
  | .returned _ r => r

def said (t : Turn) : List Event :=
  match t.ending with
  | .inaccessible _ => []
  | .returned said _ => said

def injector (space : NamespaceId) (a : Listed) (t : Turn) : Injector :=
  ⟨space, t.candidate.type, a.index.path⟩

def notes (space : NamespaceId) (a : Listed) (t : Turn) : List Note :=
  match t.ending with
  | .inaccessible _ => []
  | .returned said r =>
      .called (t.injector space a) :: said.map .logged ++ [.returned (t.injector space a) r]

def made (t : Turn) : Bool :=
  match t.answer with
  | .ok _ => true
  | .error _ => false

def failed (t : Turn) : Bool :=
  match t.answer with
  | .ok _ => false
  | .error e => !e.isUnavailable

def verdict (a : Listed) (t : Turn) : List Event :=
  match t.answer with
  | .ok _ => []
  | .error e => if e.isUnavailable then [] else [skippedPlugin a t.candidate e]

def events (a : Listed) (t : Turn) : List Event :=
  loading a t.candidate :: t.verdict a

def log (a : Listed) (t : Turn) : List Event :=
  loading a t.candidate :: (t.said ++ t.verdict a)

theorem results_notes (t : Turn) (space : NamespaceId) (a : Listed) :
    (t.notes space a).filterMap Note.result? = t.answer.toOption.toList := by
  rcases t with ⟨c, e | ⟨said, r⟩⟩
  · rfl
  · have hsaid : (said.map Note.logged).filterMap Note.result? = [] := by
      simp [List.filterMap_eq_nil_iff, Note.result?]
    simp only [notes, List.filterMap_append, List.filterMap_cons, hsaid]
    cases r <;> rfl

def Genuine (a : Listed) (finds : Candidate → Disk → Prop) (t : Turn) : Prop :=
  ∀ e, t.ending = .inaccessible e →
    ∃ disk, finds t.candidate disk ∧ verify disk a.index.path = .error e

theorem Genuine.imp {a : Listed} {f g : Candidate → Disk → Prop} {t : Turn}
    (h : t.Genuine a f) (himp : ∀ c disk, f c disk → g c disk) : t.Genuine a g := by
  intro e he
  obtain ⟨disk, hfinds, hverify⟩ := h e he
  exact ⟨disk, himp _ _ hfinds, hverify⟩

end Turn

inductive FindsIn (l : Loader σ) (a : Listed) (space : NamespaceId) :
    List Candidate → World σ → Candidate → Disk → Prop
  | first {c rest w} :
      FindsIn l a space (c :: rest) w c ((w.emit [loading a c]).meanwhile space c.type).disk
  | failed {c rest w e w₁ d disk} : setUp l a space c w = (.error e, w₁) →
      e.isUnavailable = false → FindsIn l a space rest (w₁.emit [skippedPlugin a c e]) d disk →
      FindsIn l a space (c :: rest) w d disk
  | made {c rest w r w₁ d disk} : setUp l a space c w = (.ok r, w₁) →
      FindsIn l a space rest w₁ d disk → FindsIn l a space (c :: rest) w d disk

/-- The files as the turn of a candidate finds them in a second pass, by the place of its archive
in the list. -/
inductive Finds (l : Loader σ) : List Listed → World σ → Nat → Candidate → Disk → Prop
  | here {a rest w cs c disk} : Candidate.discover a.index l.catalog = .ok cs →
      FindsIn l a ⟨w.spaces.size⟩ (l.disabled.keep cs)
        ((w.registering a).emit (l.disabled.skips cs)) c disk →
      Finds l (a :: rest) w 0 c disk
  | later {a rest w p w₁ k c disk} :
      setUpArchive l a ⟨w.spaces.size⟩ (w.registering a) = (.ok p, w₁) →
      Finds l rest (w₁.emit (p.events a)) k c disk → Finds l (a :: rest) w (k + 1) c disk

/-- The turns that candidates took, those that were left, and the error that left them. A candidate
at whose turn the archive became unavailable is left itself. -/
inductive Taken : List Candidate → List Turn → List Candidate → Option PluginError → Prop
  | none : Taken [] [] [] none
  | next {t cs ts left e} : t.made = true ∨ t.failed = true → Taken cs ts left e →
      Taken (t.candidate :: cs) (t :: ts) left e
  | stop {t cs e} : t.answer = .error e → e.isUnavailable = true →
      Taken (t.candidate :: cs) [t] (t.candidate :: cs) (some e)

structure Account where
  listed : Listed
  space : NamespaceId
  skipped : List Candidate := []
  turns : List Turn := []
  stopped : Option PluginError := none

namespace Account

def events (acc : Account) : List Event :=
  acc.skipped.map (·.skipped) ++ acc.turns.flatMap (·.events acc.listed) ++
    (acc.stopped.map (skippedRest acc.listed)).toList

def log (acc : Account) : List Event :=
  acc.skipped.map (·.skipped) ++ acc.turns.flatMap (·.log acc.listed) ++
    (acc.stopped.map (skippedRest acc.listed)).toList

def notes (acc : Account) : List Note :=
  acc.turns.flatMap (·.notes acc.space acc.listed)

def results (acc : Account) : List SetupResult :=
  acc.notes.filterMap Note.result?

/-- The candidates found in an archive, sorted by what the account has of them: those switched off
are skipped, and the others take their turns until the archive is gone. -/
structure Sorted (acc : Account) (disabled : Disabled) (finds : Candidate → Disk → Prop)
    (cs left : List Candidate) : Prop where
  distinct : (cs.map (·.type)).Nodup
  skipped : acc.skipped = cs.filter (!·.enabled disabled)
  taken : Taken (disabled.keep cs) acc.turns left acc.stopped
  genuine : ∀ t ∈ acc.turns, t.Genuine acc.listed finds

inductive Of (l : Loader σ) (finds : Candidate → Disk → Prop) : Account → Prop
  | undiscovered {a space e} : Candidate.discover a.index l.catalog = .error e →
      Of l finds { listed := a, space, stopped := some e }
  | discovered {acc cs left} : Candidate.discover acc.listed.index l.catalog = .ok cs →
      Sorted acc l.disabled finds cs left → Of l finds acc

theorem Of.imp {l : Loader σ} {f g : Candidate → Disk → Prop} {acc : Account}
    (h : Of l f acc) (himp : ∀ c disk, f c disk → g c disk) : Of l g acc := by
  cases h with
  | undiscovered he => exact .undiscovered he
  | discovered hcs h =>
    exact .discovered hcs ⟨h.distinct, h.skipped, h.taken, fun t ht => (h.genuine t ht).imp himp⟩

end Account

variable {l : Loader σ} {a : Listed} {space : NamespaceId}

theorem setUp_watched (c : Candidate) (w : World σ) (notes : List Note) :
    setUp l.watched a space c (w.watched notes) =
      match verify ((w.emit [loading a c]).meanwhile space c.type).disk a.index.path with
      | .error e => (.error e, ((w.emit [loading a c]).meanwhile space c.type).watched notes)
      | .ok () => (l.setup.watched c.plugin ⟨space, c.type, a.index.path⟩).run
          ⟨space, c.type, a.index.path⟩
          (((w.emit [loading a c]).meanwhile space c.type).watched notes) :=
  rfl

theorem setUp_turn {c : Candidate} {w w' : World σ} {r : Except PluginError SetupResult}
    (h : setUp l a space c w = (.ofExcept r, w')) :
    ∃ t : Turn, t.candidate = c ∧ t.answer = r ∧
      (∀ e, t.ending = .inaccessible e →
        verify ((w.emit [loading a c]).meanwhile space c.type).disk a.index.path = .error e) ∧
      w'.log = w.log ++ loading a c :: t.said ∧
      ∀ notes, setUp l.watched a space c (w.watched notes) =
        (.ofExcept r, w'.watched (notes ++ t.notes space a)) := by
  simp only [setUp] at h
  split at h
  · rename_i e he
    obtain ⟨hr, rfl⟩ := Prod.mk.inj h
    obtain rfl : r = .error e := by cases r <;> cases hr; rfl
    refine ⟨⟨c, .inaccessible e⟩, rfl, rfl, ?_, rfl, ?_⟩
    · rintro e' ⟨⟩
      exact he
    · intro notes
      rw [setUp_watched, he]
      simp [Turn.notes, Outcome.ofExcept]
  · rename_i hok
    obtain ⟨said, hlog, hrun⟩ := Setup.run_watched h
    refine ⟨⟨c, .returned said r⟩, rfl, rfl, by rintro e ⟨⟩, ?_, ?_⟩
    · rw [hlog]
      simp [World.meanwhile, Turn.said]
    · intro notes
      rw [setUp_watched, hok]
      exact (hrun notes).trans (by simp [Turn.notes, Turn.injector])

structure Played (l : Loader σ) (a : Listed) (space : NamespaceId) (cs : List Candidate)
    (turns : List Turn) (w : World σ) (p : Progress) (w' : World σ) : Prop where
  genuine : ∀ t ∈ turns, t.Genuine a (FindsIn l a space cs w)
  results : p.results = (turns.flatMap (·.notes space a)).filterMap Note.result?
  log : w'.log = w.log ++ turns.flatMap (·.log a)
  watched : ∀ notes, setUpAll l.watched a space cs (w.watched notes) =
    (.ok p, w'.watched (notes ++ turns.flatMap (·.notes space a)))

theorem Course.played {cs : List Candidate} {w w' : World σ} {p : Progress}
    (h : Course l a space cs w p w') :
    ∃ turns left, Taken cs turns left p.stopped ∧ Played l a space cs turns w p w' := by
  induction h with
  | done =>
    refine ⟨[], [], .none, ?_⟩
    exact ⟨by simp, rfl, by simp, by simp [setUpAll]⟩
  | @stopped c rest w e w' hc he =>
    obtain ⟨t, rfl, ht, hgone, hlog, hwatched⟩ := setUp_turn (r := .error e) hc
    refine ⟨[t], _, .stop ht he, ?_, ?_, ?_, ?_⟩
    · exact List.forall_mem_singleton.mpr fun e he => ⟨_, .first, hgone e he⟩
    · simp [Turn.results_notes, ht, Except.toOption]
    · simp [hlog, Turn.log, Turn.verdict, ht, he]
    · intro notes
      simp [setUpAll, hwatched, Outcome.ofExcept, he]
  | @failed c rest w e w₁ p w' hc he hrest ih =>
    obtain ⟨t, rfl, ht, hgone, hlog, hwatched⟩ := setUp_turn (r := .error e) hc
    obtain ⟨turns, left, htaken, hplayed⟩ := ih
    refine ⟨t :: turns, left, .next (.inr (by simp [Turn.failed, ht, he])) htaken, ?_, ?_, ?_, ?_⟩
    · exact List.forall_mem_cons.mpr ⟨fun e he => ⟨_, .first, hgone e he⟩,
        fun t ht => (hplayed.genuine t ht).imp fun _ _ => .failed hc he⟩
    · simp [Turn.results_notes, ht, Except.toOption, hplayed.results]
    · simp [hplayed.log, hlog, Turn.log, Turn.verdict, ht, he]
    · intro notes
      simp [setUpAll, hwatched, Outcome.ofExcept, he, World.watched_emit, hplayed.watched]
  | @made c rest w r w₁ p w' hc hrest ih =>
    obtain ⟨t, rfl, ht, hgone, hlog, hwatched⟩ := setUp_turn (r := .ok r) hc
    obtain ⟨turns, left, htaken, hplayed⟩ := ih
    refine ⟨t :: turns, left, .next (.inl (by simp [Turn.made, ht])) htaken, ?_, ?_, ?_, ?_⟩
    · exact List.forall_mem_cons.mpr ⟨fun e he => ⟨_, .first, hgone e he⟩,
        fun t ht => (hplayed.genuine t ht).imp fun _ _ => .made hc⟩
    · simp [Turn.results_notes, ht, Except.toOption, hplayed.results]
    · simp [hplayed.log, hlog, Turn.log, Turn.verdict, ht]
    · intro notes
      simp [setUpAll, hwatched, Outcome.ofExcept, hplayed.watched]

theorem setUpArchive_account {w w' : World σ} {p : Progress}
    (h : setUpArchive l a space w = (.ok p, w')) :
    ∃ acc : Account, acc.listed = a ∧ acc.space = space ∧
      acc.Of l (fun c disk => ∃ cs, Candidate.discover a.index l.catalog = .ok cs ∧
        FindsIn l a space (l.disabled.keep cs) (w.emit (l.disabled.skips cs)) c disk) ∧
      p.results = acc.results ∧ w'.log ++ p.events a = w.log ++ acc.log ∧
      ∀ notes, setUpArchive l.watched a space (w.watched notes) =
        (.ok p, w'.watched (notes ++ acc.notes)) := by
  obtain ⟨e, he, rfl, rfl⟩ | ⟨cs, hcs, hcourse⟩ := setUpArchive_eq_ok h
  · have hwatched : Candidate.discover a.index l.watched.catalog = .error e := he
    refine ⟨_, rfl, rfl, .undiscovered he, rfl, rfl, ?_⟩
    intro notes
    simp [setUpArchive, hwatched, Account.notes]
  · obtain ⟨turns, left, htaken, hplayed⟩ := hcourse.played
    have hwatched : Candidate.discover a.index l.watched.catalog = .ok cs := hcs
    refine ⟨⟨a, space, cs.filter (!·.enabled l.disabled), turns, p.stopped⟩, rfl, rfl, ?_,
      hplayed.results, ?_, ?_⟩
    · exact .discovered hcs ⟨Candidate.nodup_of_discover hcs, rfl, htaken,
        fun t ht => (hplayed.genuine t ht).imp fun _ _ hfinds => ⟨cs, hcs, hfinds⟩⟩
    · simp [hplayed.log, Account.log, Progress.events, Disabled.skips]
    · intro notes
      simp only [setUpArchive, hwatched]
      exact hplayed.watched notes

theorem setUpListed_watched {rest : List Listed} {w w₁ w' : World σ} {p : Progress}
    {later : List SetupResult} {own behind : List Note}
    (hp : ∀ notes, setUpArchive l.watched a ⟨w.spaces.size⟩ ((w.registering a).watched notes) =
      (.ok p, w₁.watched (notes ++ own)))
    (hlater : ∀ notes, setUpListed l.watched rest ((w₁.emit (p.events a)).watched notes) =
      (.ok later, w'.watched (notes ++ behind))) (notes : List Note) :
    setUpListed l.watched (a :: rest) (w.watched notes) =
      (.ok (p.results ++ later), w'.watched (notes ++ (own ++ behind))) := by
  have hregistering : (w.watched notes).registering a = (w.registering a).watched notes := rfl
  have hsize : (w.watched notes).spaces.size = w.spaces.size := rfl
  rw [setUpListed_cons, hregistering, hsize, hp]
  simp only [World.watched_emit, hlater, List.append_assoc]

theorem setUpListed_accounts {listed : List Listed} {w w' : World σ} {results : List SetupResult}
    (h : setUpListed l listed w = (.ok results, w')) :
    ∃ accounts : List Account, accounts.map (·.listed) = listed ∧
      (∀ (k : Nat) (acc : Account), accounts[k]? = some acc →
        acc.space = ⟨w.spaces.size + k⟩ ∧ acc.Of l (l.Finds listed w k)) ∧
      results = accounts.flatMap (·.results) ∧ w'.log = w.log ++ accounts.flatMap (·.log) ∧
      ∀ notes, setUpListed l.watched listed (w.watched notes) =
        (.ok results, w'.watched (notes ++ accounts.flatMap (·.notes))) := by
  rw [← pass_iff] at h
  induction h with
  | done => exact ⟨[], rfl, by simp, rfl, by simp, by simp [setUpListed]⟩
  | next hp _ ih =>
    obtain ⟨acc, rfl, hspace, hof, hresults, hlog, hwatched⟩ := setUpArchive_account hp
    obtain ⟨accounts, rfl, hall, rfl, hlogs, hrest⟩ := ih
    refine ⟨acc :: accounts, rfl, ?_, ?_, ?_, ?_⟩
    · intro k acc' hk
      cases k with
      | zero =>
        obtain rfl : acc = acc' := by simpa using hk
        refine ⟨hspace, hof.imp ?_⟩
        rintro c disk ⟨cs, hcs, hfinds⟩
        exact .here hcs hfinds
      | succ k =>
        obtain ⟨hspace', hof'⟩ := hall k acc' (by simpa using hk)
        refine ⟨?_, hof'.imp fun _ _ => .later hp⟩
        rw [hspace', World.spaces_emit, size_of_setUpArchive hp, Nat.add_assoc, Nat.add_comm 1 k]
    · rw [hresults, List.flatMap_cons]
    · rw [hlogs, World.log_emit, hlog, List.flatMap_cons, List.append_assoc]
      rfl
    · exact setUpListed_watched hwatched hrest

end Loader

end PluginAgent
