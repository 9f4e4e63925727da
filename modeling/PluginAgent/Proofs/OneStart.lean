import Mathlib.Data.List.Perm.Basic
import Mathlib.Logic.Relation
import PluginAgent.Proofs.StartEffects

namespace PluginAgent

open Boot Premain

variable {A α : Type}

namespace Boot

inductive Does : Boot A α → List (Move A) → Boot A α → Prop
  | log e next : Does (.log e next) [] next
  | enter passed next : Does (.enter next) [.enter passed] (next passed)
  | look d next : Does (.look next) [.look d] (next d)
  | property key value next : Does (.property key next) [.property key value] (next value)
  | setProperty key value next : Does (.setProperty key value next) [.setProperty key value] next
  | append archive answer next :
      Does (.append archive next) [.append archive answer] (next answer)
  | create c o answer next : Does (.create c o next) [.create c o answer] (next answer)
  | start agent answer next : Does (.start agent next) [.start agent answer] (next answer)
  | hook agent next : Does (.hook agent next) [.hook agent] next

theorem Does.runs {b b' : Boot A α} {ms more : List (Move A)} {r : α} (h : Does b ms b')
    (hrest : Runs b' more r) : Runs b (ms ++ more) r := by
  cases h with
  | log e next => exact hrest
  | enter passed next => exact ⟨passed, more, rfl, hrest⟩
  | look d next => exact ⟨d, more, rfl, hrest⟩
  | property key value next => exact ⟨value, more, rfl, hrest⟩
  | setProperty key value next => exact ⟨more, rfl, hrest⟩
  | append archive answer next => exact ⟨answer, more, rfl, hrest⟩
  | create c o answer next => exact ⟨answer, more, rfl, hrest⟩
  | start agent answer next => exact ⟨answer, more, rfl, hrest⟩
  | hook agent next => exact ⟨more, rfl, hrest⟩

end Boot

def Gate.Answers (g : Gate) (ms : List (Move A)) (after : Gate) : Prop :=
  match ms with
  | [.enter passed] => (passed, after) = g.enter
  | _ => after = g

def Move.isPass : Move A → Bool
  | .enter passed => passed
  | _ => false

structure Call (A : Type) where
  args : Option String
  moves : List (Move A) := []
  rest : Boot A BootOutcome

theorem Boot.Does.answers {b b' : Boot A α} {ms : List (Move A)} {g after : Gate}
    (h : Does b ms b') (hgate : g.Answers ms after) :
    (∃ passed, ms = [.enter passed] ∧ (passed, after) = g.enter) ∨
      ms.any Move.isPass = false ∧ after = g := by
  cases h with
  | enter passed next => exact .inl ⟨passed, rfl, hgate⟩
  | _ => exact .inr ⟨rfl, hgate⟩

namespace Call

def passed (c : Call A) : Bool :=
  c.moves.any Move.isPass

def outcome? (c : Call A) : Option BootOutcome :=
  match c.rest with
  | .done outcome => some outcome
  | _ => none

def unwound (message : Option String) : Boot A BootOutcome := do
  emit (ending (.error (.panicked message)))
  return .failed

/-- A step of a call at a gate. Behind the gate, foreign code may panic at any time. -/
inductive Step : Gate → Call A → Gate → Call A → Prop
  | act {g after : Gate} {c : Call A} {ms : List (Move A)} {rest : Boot A BootOutcome}
      (hdoes : c.rest.Does ms rest) (hgate : g.Answers ms after) :
      Step g c after { c with moves := c.moves ++ ms, rest }
  | panic (g : Gate) {c : Call A} (message : Option String) (hpassed : c.passed = true) :
      Step g c g { c with rest := unwound message }

end Call

structure Race (A : Type) where
  gate : Gate := {}
  calls : List (Call A) := []

namespace Race

inductive Step (p : Plan) : Race A → Race A → Prop
  | call (r : Race A) (args : Option String) :
      Step p r { r with calls := r.calls ++ [{ args, rest := premain p args }] }
  | move {g after : Gate} {c c' : Call A} (before later : List (Call A))
      (h : c.Step g after c') : Step p ⟨g, before ++ c :: later⟩ ⟨after, before ++ c' :: later⟩

abbrev Leads (p : Plan) : Race A → Race A → Prop :=
  Relation.ReflTransGen (Step p)

end Race

namespace Call

variable {p : Plan} {g after : Gate} {c c' : Call A}

def answered (p : Plan) (args : Option String) (passed : Bool) : Boot A BootOutcome :=
  match premain p args with
  | .log _ (.enter next) => next passed
  | b => b

theorem premain_eq (p : Plan) (args : Option String) : (premain p args : Boot A BootOutcome) =
    .log (given (args.getD "")) (.enter (answered p args)) :=
  rfl

theorem answered_false (p : Plan) (args : Option String) :
    (answered p args false : Boot A BootOutcome) =
      .log Premain.alreadyStarted (.done .alreadyStarted) :=
  rfl

/-- Where a call can stand. One that has passed can still be brought to the end of a start that did
what it did so far, and it goes on as that start does unless it panicked. -/
inductive Stands (p : Plan) : Call A → Prop
  | called args : Stands p ⟨args, [], premain p args⟩
  | waiting args : Stands p ⟨args, [], .enter (answered p args)⟩
  | refused args : Stands p ⟨args, [.enter false], answered p args false⟩
  | returned args : Stands p ⟨args, [.enter false], .done .alreadyStarted⟩
  | passed {args ms rest}
      (hwhole : ∃ more o, Runs (premain p args) (.enter true :: ms ++ more) o)
      (honward :
        (∀ more o, Runs rest more o → Runs (premain p args) (.enter true :: ms ++ more) o) ∨
          ∀ more o, Runs rest more o → more = []) :
      Stands p ⟨args, .enter true :: ms, rest⟩

theorem Stands.step (h : c.Stands p) (hstep : c.Step g after c') : c'.Stands p := by
  cases hstep with
  | @act _ _ ms rest hdoes hgate =>
    cases h with
    | called args =>
      rw [premain_eq] at hdoes
      cases hdoes
      exact .waiting args
    | waiting args =>
      cases hdoes with
      | enter passed =>
        cases passed with
        | false => exact .refused args
        | true =>
          have honward (more : List (Move A)) (o : BootOutcome)
              (hrest : Runs (answered p args true) more o) :
              Runs (premain p args) (.enter true :: [] ++ more) o := ⟨true, more, rfl, hrest⟩
          obtain ⟨more, o, hrest⟩ := exists_runs (answered (A := A) p args true)
          exact .passed ⟨more, o, honward more o hrest⟩ (.inl honward)
    | refused args =>
      rw [answered_false] at hdoes
      cases hdoes
      exact .returned args
    | returned args => cases hdoes
    | @passed args done _ hwhole honward =>
      obtain ⟨more, o, hrest⟩ := exists_runs rest
      rcases honward with honward | hidle
      · have hnext (more : List (Move A)) (o : BootOutcome) (hrest : Runs rest more o) :
            Runs (premain p args) (.enter true :: (done ++ ms) ++ more) o := by
          simpa using honward _ o (hdoes.runs hrest)
        exact .passed ⟨more, o, hnext more o hrest⟩ (.inl hnext)
      -- after a panic the call only reports, so its moves stay those of the start it left
      · obtain rfl : ms = [] := (List.append_eq_nil_iff.mp (hidle _ o (hdoes.runs hrest))).1
        refine .passed (by simpa using hwhole) (.inr ?_)
        intro more o hrest
        exact hidle more o (hdoes.runs hrest)
  | panic message hpassed =>
    cases h with
    | called args => cases hpassed
    | waiting args => cases hpassed
    | refused args => cases hpassed
    | returned args => cases hpassed
    | passed hwhole honward =>
      refine .passed hwhole (.inr ?_)
      rintro more o ⟨rfl, -⟩
      rfl

theorem Step.balance (hstep : c.Step g after c') (hshut : c.passed = true → g.started = true) :
    after.started.toNat + c.passed.toNat = g.started.toNat + c'.passed.toNat := by
  cases hstep with
  | @act _ _ ms rest hdoes hgate =>
    have hpassed : ({ c with moves := c.moves ++ ms, rest } : Call A).passed =
        (c.passed || ms.any Move.isPass) := List.any_append
    rw [hpassed]
    rcases hdoes.answers hgate with ⟨passed, rfl, hanswer⟩ | ⟨hnone, rfl⟩
    · obtain ⟨rfl, rfl⟩ := Prod.mk.inj hanswer
      cases hopen : g.started with
      | true => simp [Move.isPass]
      | false =>
        -- nobody passed an open gate before, so this call adds the one that did
        have hwaiting : c.passed = false := by
          cases hc : c.passed with
          | false => rfl
          | true => simp [hshut hc] at hopen
        simp [Move.isPass, hwaiting]
    · simp [hnone]
  | panic message hpassed => rfl

theorem Step.args_eq (hstep : c.Step g after c') : c'.args = c.args := by
  cases hstep <;> rfl

theorem Step.moves_isPrefix (hstep : c.Step g after c') : c.moves <+: c'.moves := by
  cases hstep with
  | act => exact List.prefix_append _ _
  | panic => exact List.prefix_rfl

theorem passed_of_isPrefix (h : c.moves <+: c'.moves) (hpassed : c.passed = true) :
    c'.passed = true := by
  obtain ⟨m, hmem, hpass⟩ := List.any_eq_true.mp hpassed
  exact List.any_eq_true.mpr ⟨m, h.subset hmem, hpass⟩

theorem Step.started (hstep : c.Step g after c') (hstarted : g.started = true) :
    after.started = true := by
  cases hstep with
  | act hdoes hgate =>
    rcases hdoes.answers hgate with ⟨passed, -, hanswer⟩ | ⟨-, rfl⟩
    · exact (Prod.mk.inj hanswer).2 ▸ rfl
    · exact hstarted
  | panic => exact hstarted

theorem Stands.idle (h : c.Stands p) (hpassed : c.passed = false) :
    c.moves = [] ∨ c.moves = [.enter false] := by
  cases h with
  | called args => exact .inl rfl
  | waiting args => exact .inl rfl
  | refused args => exact .inr rfl
  | returned args => exact .inr rfl
  | passed hwhole honward => cases hpassed

theorem Stands.effects_eq_nil (h : c.Stands p) (hpassed : c.passed = false) :
    effects c.moves = [] := by
  rcases h.idle hpassed with hmoves | hmoves
  · rw [hmoves, effects_nil]
  · rw [hmoves]
    rfl

theorem Stands.outcome_of_not_passed {outcome : BootOutcome} (h : c.Stands p)
    (hpassed : c.passed = false) (hend : c.outcome? = some outcome) :
    outcome = .alreadyStarted := by
  cases h with
  | called args => cases hend
  | waiting args => cases hend
  | refused args => cases hend
  | returned args => exact (Option.some.inj hend).symm
  | passed hwhole honward => cases hpassed

theorem Stands.effects_isPrefix (h : c.Stands p) (hpassed : c.passed = true) :
    ∃ f : Findings A, effects c.moves <+: f.sequence p (Args.parse (c.args.getD "")) := by
  cases h with
  | called args => cases hpassed
  | waiting args => cases hpassed
  | refused args => cases hpassed
  | returned args => cases hpassed
  | @passed args ms _ hwhole honward =>
    obtain ⟨more, outcome, hruns⟩ := hwhole
    rcases premain_course hruns with ⟨hrefused, -⟩ | ⟨f, rest, _, hmoves, ⟨rfl, -⟩, -⟩
    · cases hrefused
    · have hsteps : ms ++ more = Step.upToFailure (f.steps p (Args.parse (args.getD ""))) :=
        (List.cons.inj hmoves).2
      refine ⟨f, .trans ?_ f.effects_isPrefix⟩
      rw [← hsteps, effects_append]
      exact List.prefix_append _ _

theorem Stands.returns (h : c.Stands p) (hpassed : c.passed = false) (hshut : g.started = true) :
    ∃ c', Relation.ReflTransGen (Step g · g ·) c c' ∧ c'.outcome? = some .alreadyStarted := by
  have hgate : (false, g) = g.enter := by
    cases g
    simp_all [Gate.enter]
  have hreturned args : Step g ⟨args, [.enter false], answered (A := A) p args false⟩ g
      ⟨args, [.enter false], .done .alreadyStarted⟩ := .act (.log _ _) rfl
  have hrefused args : Step g ⟨args, [], .enter (answered (A := A) p args)⟩ g
      ⟨args, [.enter false], answered p args false⟩ := .act (.enter _ _) hgate
  have hwaiting args : Step g ⟨args, [], premain (A := A) p args⟩ g
      ⟨args, [], .enter (answered p args)⟩ := .act (.log _ _) rfl
  cases h with
  | called args =>
    exact ⟨_, .head (hwaiting args) (.head (hrefused args) (.single (hreturned args))), rfl⟩
  | waiting args => exact ⟨_, .head (hrefused args) (.single (hreturned args)), rfl⟩
  | refused args => exact ⟨_, .single (hreturned args), rfl⟩
  | returned args => exact ⟨_, .refl, rfl⟩
  | passed hwhole honward => cases hpassed

end Call

namespace Race

variable {p : Plan} {r r' : Race A}

theorem countP_passed_cons (c : Call A) (calls : List (Call A)) :
    (c :: calls).countP (·.passed) = calls.countP (·.passed) + c.passed.toNat := by
  rw [List.countP_cons]
  cases c.passed <;> rfl

structure Sound (p : Plan) (r : Race A) : Prop where
  stands : ∀ c ∈ r.calls, c.Stands p
  passed_eq : r.calls.countP (·.passed) = r.gate.started.toNat

theorem Sound.started (h : r.Sound p) {c : Call A} (hmem : c ∈ r.calls)
    (hpassed : c.passed = true) : r.gate.started = true := by
  have hpos : 0 < r.calls.countP (·.passed) := List.countP_pos_iff.mpr ⟨c, hmem, hpassed⟩
  rw [h.passed_eq] at hpos
  cases hgate : r.gate.started with
  | false => simp [hgate] at hpos
  | true => rfl

theorem Sound.passed_le_one (h : r.Sound p) : r.calls.countP (·.passed) ≤ 1 := by
  rw [h.passed_eq]
  exact Bool.toNat_le _

theorem Sound.step (h : r.Sound p) (hstep : Step p r r') : r'.Sound p := by
  cases hstep with
  | call r args =>
    constructor
    · intro c hmem
      rcases List.mem_append.mp hmem with hold | hnew
      · exact h.stands c hold
      · rw [List.mem_singleton.mp hnew]
        exact .called args
    · rw [List.countP_append, h.passed_eq]
      rfl
  | @move g after c c' before later hcall =>
    constructor
    · intro d hmem
      rcases List.mem_append.mp hmem with hd | hd
      · exact h.stands d (List.mem_append_left _ hd)
      · rcases List.mem_cons.mp hd with rfl | hd
        · exact (h.stands c (by simp)).step hcall
        · exact h.stands d (by simp [hd])
    · have hbalance := hcall.balance (h.started (by simp))
      have hcount : (before ++ c :: later).countP (·.passed) = g.started.toNat := h.passed_eq
      change (before ++ c' :: later).countP (·.passed) = after.started.toNat
      rw [List.countP_append, countP_passed_cons] at hcount ⊢
      omega

theorem Sound.leads (h : r.Sound p) (hleads : Leads p r r') : r'.Sound p := by
  induction hleads with
  | refl => exact h
  | tail _ hstep ih => exact ih.step hstep

theorem sound_of_leads (h : Leads p {} r) : r.Sound p :=
  Sound.leads ⟨by simp, rfl⟩ h

theorem Leads.started (h : Leads p r r') (hstarted : r.gate.started = true) :
    r'.gate.started = true := by
  induction h with
  | refl => exact hstarted
  | tail _ hstep ih =>
    cases hstep with
    | call => exact ih
    | move _ _ hcall => exact hcall.started ih

theorem Step.keeps (h : Step p r r') {k : Nat} {c : Call A} (hc : r.calls[k]? = some c) :
    ∃ c', r'.calls[k]? = some c' ∧ c'.args = c.args ∧ c.moves <+: c'.moves := by
  cases h with
  | call r args =>
    refine ⟨c, ?_, rfl, List.prefix_rfl⟩
    rw [List.getElem?_append_left (List.getElem?_eq_some_iff.mp hc).1]
    exact hc
  | @move _ _ d d' before later hcall =>
    have hset : before ++ d' :: later = (before ++ d :: later).set before.length d' := by simp
    simp only [hset, List.getElem?_set]
    by_cases hk : before.length = k
    · subst hk
      obtain rfl : d = c := by simpa using hc
      exact ⟨d', by simp, hcall.args_eq, hcall.moves_isPrefix⟩
    · exact ⟨c, by rw [if_neg hk, hc], rfl, List.prefix_rfl⟩

theorem Leads.keeps (h : Leads p r r') {k : Nat} {c : Call A} (hc : r.calls[k]? = some c) :
    ∃ c', r'.calls[k]? = some c' ∧ c'.args = c.args ∧ c.moves <+: c'.moves := by
  induction h with
  | refl => exact ⟨c, hc, rfl, List.prefix_rfl⟩
  | tail _ hstep ih =>
    obtain ⟨d, hd, hargs, hmoves⟩ := ih
    obtain ⟨e, he, hargs', hmoves'⟩ := hstep.keeps hd
    exact ⟨e, he, hargs'.trans hargs, hmoves.trans hmoves'⟩

theorem Sound.alone (h : r.Sound p) {k : Nat} {c : Call A} (hc : r.calls[k]? = some c)
    (hpassed : c.passed = true) : ∀ d ∈ r.calls.eraseIdx k, d.passed = false := by
  obtain ⟨hlt, rfl⟩ := List.getElem?_eq_some_iff.mp hc
  have hcount := h.passed_le_one
  rw [← (List.getElem_cons_eraseIdx_perm hlt).countP_eq, List.countP_cons_of_pos hpassed] at hcount
  have hnone := Nat.le_zero.mp (Nat.le_of_succ_le_succ hcount)
  simpa using hnone

theorem effects_of_idle {calls : List (Call A)} (hstands : ∀ c ∈ calls, c.Stands p)
    (hidle : ∀ c ∈ calls, c.passed = false) : effects (calls.flatMap (·.moves)) = [] := by
  induction calls with
  | nil => rfl
  | cons c rest ih =>
    rw [List.flatMap_cons, effects_append, (hstands c (by simp)).effects_eq_nil (hidle c (by simp)),
      ih (fun d hd => hstands d (by simp [hd])) (fun d hd => hidle d (by simp [hd]))]
    rfl

theorem Sound.effects_isPrefix (h : r.Sound p) : ∃ (f : Findings A) (args : Args),
    effects (r.calls.flatMap (·.moves)) <+: f.sequence p args := by
  by_cases hpass : ∃ c ∈ r.calls, c.passed = true
  · obtain ⟨c, hmem, hpassed⟩ := hpass
    obtain ⟨f, hinitial⟩ := (h.stands c hmem).effects_isPrefix hpassed
    obtain ⟨before, later, hcalls⟩ := List.append_of_mem hmem
    have halone := h.alone (k := before.length) (c := c) (by simp [hcalls]) hpassed
    have hothers : r.calls.eraseIdx before.length = before ++ later := by
      rw [hcalls, List.eraseIdx_append_of_length_le (Nat.le_refl _), Nat.sub_self]
      rfl
    rw [hothers] at halone
    have hstands := h.stands
    rw [hcalls] at hstands ⊢
    have hbefore : effects (before.flatMap (·.moves)) = [] :=
      effects_of_idle (fun d hd => hstands d (by simp [hd])) (fun d hd => halone d (by simp [hd]))
    have hlater : effects (later.flatMap (·.moves)) = [] :=
      effects_of_idle (fun d hd => hstands d (by simp [hd])) (fun d hd => halone d (by simp [hd]))
    refine ⟨f, Args.parse (c.args.getD ""), ?_⟩
    simpa [hbefore, hlater] using hinitial
  · refine ⟨{}, {}, ?_⟩
    rw [effects_of_idle h.stands fun c hc => by simpa using fun hpassed => hpass ⟨c, hc, hpassed⟩]
    exact List.nil_prefix

structure OneStart (p : Plan) (r : Race A) : Prop where
  passed_le_one : r.calls.countP (·.passed) ≤ 1
  started_iff : r.gate.started = true ↔ ∃ c ∈ r.calls, c.passed = true
  others_idle : ∀ c ∈ r.calls, c.passed = false → effects c.moves = []
  others_refused : ∀ c ∈ r.calls, c.passed = false →
    ∀ outcome, c.outcome? = some outcome → outcome = .alreadyStarted
  others_return : r.gate.started = true → ∀ c ∈ r.calls, c.passed = false →
    ∃ c', Relation.ReflTransGen (Call.Step r.gate · r.gate ·) c c' ∧
      c'.outcome? = some .alreadyStarted
  outcomes_le_one : r.calls.countP (·.outcome?.any (· ≠ .alreadyStarted)) ≤ 1
  effects_isPrefix : ∃ (f : Findings A) (args : Args),
    effects (r.calls.flatMap (·.moves)) <+: f.sequence p args
  starts_le_one : (effects (r.calls.flatMap (·.moves))).countP Effect.isStart ≤ 1

theorem Sound.oneStart (h : r.Sound p) : r.OneStart p where
  passed_le_one := h.passed_le_one
  started_iff := by
    constructor
    · intro hstarted
      have hcount := h.passed_eq
      rw [hstarted] at hcount
      exact List.countP_pos_iff.mp (by rw [hcount]; exact Nat.one_pos)
    · rintro ⟨c, hmem, hpassed⟩
      exact h.started hmem hpassed
  others_idle c hmem := (h.stands c hmem).effects_eq_nil
  others_refused c hmem hpassed _ := (h.stands c hmem).outcome_of_not_passed hpassed
  others_return hshut c hmem hpassed := (h.stands c hmem).returns hpassed hshut
  outcomes_le_one := by
    refine Nat.le_trans (List.countP_mono_left fun c hmem hother => ?_) h.passed_le_one
    cases hpassed : c.passed with
    | true => rfl
    | false =>
      cases hend : c.outcome? with
      | none => simp [hend] at hother
      | some outcome =>
        obtain rfl := (h.stands c hmem).outcome_of_not_passed hpassed hend
        simp [hend] at hother
  effects_isPrefix := h.effects_isPrefix
  starts_le_one := by
    obtain ⟨f, args, hinitial⟩ := h.effects_isPrefix
    have hle := hinitial.sublist.countP_le (p := Effect.isStart)
    rwa [f.countP_start_sequence] at hle

end Race

/-- Surroundings whose states show one gate, which nothing but an attempt changes. -/
structure Surroundings.Gated {S : Type} (i : Surroundings A S) (gate : S → Gate) : Prop where
  log : ∀ e s, gate (i.log e s) = gate s
  enter : ∀ s, ((i.enter s).1, gate (i.enter s).2) = (gate s).enter
  setProperty : ∀ key value s, gate (i.setProperty key value s) = gate s
  append : ∀ archive s, gate (i.append archive s).2 = gate s
  create : ∀ c o s, gate (i.create c o s).2 = gate s
  start : ∀ agent s, gate (i.start agent s).2 = gate s
  hook : ∀ agent s, gate (i.hook agent s) = gate s

theorem Session.gated : Session.surroundings.Gated (·.gate) where
  log _ _ := rfl
  enter _ := rfl
  setProperty _ _ _ := rfl
  append archive s := by
    simp only [Session.surroundings, Session.append]
    split <;> rfl
  create c o s := by
    simp only [Session.surroundings, Session.create]
    split <;> rfl
  start _ _ := rfl
  hook _ _ := rfl

namespace Race

variable {S : Type} {p : Plan} {i : Surroundings A S} {gate : S → Gate}

theorem leads_next {g after last : Gate} {m : Move A} {ms done : List (Move A)}
    {b b' : Boot A BootOutcome} {outcome : BootOutcome} {args : Option String}
    (before later : List (Call A)) (h : Does b [m] b') (hgate : g.Answers [m] after)
    (hrest : Leads p ⟨after, before ++ ⟨args, done ++ [m], b'⟩ :: later⟩
      ⟨last, before ++ ⟨args, done ++ [m] ++ ms, .done outcome⟩ :: later⟩) :
    Leads p ⟨g, before ++ ⟨args, done, b⟩ :: later⟩
      ⟨last, before ++ ⟨args, done ++ m :: ms, .done outcome⟩ :: later⟩ := by
  rw [List.append_assoc] at hrest
  exact .head (.move before later (.act h hgate)) hrest

theorem leads_run (hi : i.Gated gate) (before later : List (Call A)) (args : Option String)
    (b : Boot A BootOutcome) (done : List (Move A)) (s : S) :
    Leads p ⟨gate s, before ++ ⟨args, done, b⟩ :: later⟩
      ⟨gate (b.run i s).2,
        before ++ ⟨args, done ++ b.moves i s, .done (b.run i s).1⟩ :: later⟩ := by
  induction b generalizing done s with
  | done outcome =>
    rw [moves, List.append_nil]
    exact .refl
  | log e next ih =>
    have hstep : Step p ⟨gate s, before ++ ⟨args, done, .log e next⟩ :: later⟩
        ⟨gate (i.log e s), before ++ ⟨args, done ++ [], next⟩ :: later⟩ :=
      .move before later (.act (.log e next) (hi.log e s))
    rw [List.append_nil] at hstep
    exact .head hstep (ih done _)
  | enter next ih => exact leads_next before later (.enter _ _) (hi.enter s) (ih _ _ _)
  | look next ih => exact leads_next before later (.look _ _) rfl (ih _ _ _)
  | property key next ih => exact leads_next before later (.property _ _ _) rfl (ih _ _ _)
  | setProperty key value next ih =>
    exact leads_next before later (.setProperty _ _ _) (hi.setProperty key value s) (ih _ _)
  | append archive next ih =>
    exact leads_next before later (.append _ _ _) (hi.append archive s) (ih _ _ _)
  | create c o next ih =>
    exact leads_next before later (.create _ _ _ _) (hi.create c o s) (ih _ _ _)
  | start agent next ih =>
    exact leads_next before later (.start _ _ _) (hi.start agent s) (ih _ _ _)
  | hook agent next ih => exact leads_next before later (.hook _ _) (hi.hook agent s) (ih _ _)

theorem one_call_passes (p : Plan) {r r' : Race A} (h : Leads p {} r) (hlater : Leads p r r') :
    r'.OneStart p ∧ (r.gate.started = true → r'.gate.started = true) ∧
      ∀ k c, r.calls[k]? = some c → c.passed = true →
        (∃ c', r'.calls[k]? = some c' ∧ c'.args = c.args ∧ c'.passed = true) ∧
          ∀ d ∈ r'.calls.eraseIdx k, d.passed = false := by
  have hsound := (sound_of_leads h).leads hlater
  refine ⟨hsound.oneStart, hlater.started, ?_⟩
  intro k c hc hpassed
  obtain ⟨c', hc', hargs, hmoves⟩ := hlater.keeps hc
  have hpassed' := Call.passed_of_isPrefix hmoves hpassed
  exact ⟨⟨c', hc', hargs, hpassed'⟩, hsound.alone hc' hpassed'⟩

def homeless : Plan where
  layout := ⟨"home"⟩
  known _ := true

theorem one_call_passes_of_two : ∃ r r' : Race LoadingAgent, Leads homeless {} r ∧
    Leads homeless r r' ∧ r.calls.map (·.outcome?) = [some .failed, none] ∧
    r'.calls.map (·.outcome?) = [some .failed, some .alreadyStarted] ∧
    r'.OneStart homeless ∧ ∀ d ∈ r'.calls.eraseIdx 0, d.passed = false := by
  let first : Call LoadingAgent := ⟨none, [], premain homeless none⟩
  let failed : Call LoadingAgent := ⟨none, first.rest.moves Session.surroundings {},
    .done (first.rest.run Session.surroundings {}).1⟩
  let waiting : Call LoadingAgent :=
    ⟨some "agentId=a", [], .enter (Call.answered homeless (some "agentId=a"))⟩
  have hcalls : Leads homeless {} ⟨{}, [first, waiting]⟩ := by
    refine .head (.call _ none) (.head (.call _ (some "agentId=a")) (.single ?_))
    exact .move [first] [] (.act (.log _ _) rfl)
  have hfirst := leads_run (p := homeless) Session.gated [] [waiting] none first.rest [] {}
  have hsecond := leads_run (p := homeless) Session.gated [failed] [] waiting.args waiting.rest []
    (first.rest.run Session.surroundings {}).2
  have hbefore := hcalls.trans hfirst
  obtain ⟨hone, -, hstays⟩ := one_call_passes homeless hbefore hsecond
  exact ⟨_, _, hbefore, hsecond, rfl, rfl, hone, (hstays 0 failed rfl rfl).2⟩

end Race

end PluginAgent
