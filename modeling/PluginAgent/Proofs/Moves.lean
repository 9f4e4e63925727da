import PluginAgent.Startup.Premain

/-!
What a start does, and what it is answered. `Boot.Runs` takes every answer as it comes, so that it
covers surroundings of every kind; `Boot.moves` are the moves of a run in given ones. Logging is no
move.
-/

namespace PluginAgent

inductive Move (A : Type) where
  | enter (passed : Bool)
  | look (disk : Disk)
  | property (key : String) (value : Option String)
  | setProperty (key value : String)
  | append (archive : String) (answer : Except BootError Unit)
  | create (bootClass : String) (option : AgentOption) (answer : Outcome BootError A)
  | start (agent : A) (answer : Outcome BootError Unit)
  | hook (agent : A)

namespace Boot

variable {A S α β : Type}

def Runs : Boot A α → List (Move A) → α → Prop
  | done a, ms, r => ms = [] ∧ r = a
  | log _ next, ms, r => Runs next ms r
  | enter next, ms, r => ∃ passed rest, ms = .enter passed :: rest ∧ Runs (next passed) rest r
  | look next, ms, r => ∃ d rest, ms = .look d :: rest ∧ Runs (next d) rest r
  | property key next, ms, r => ∃ v rest, ms = .property key v :: rest ∧ Runs (next v) rest r
  | setProperty key value next, ms, r => ∃ rest, ms = .setProperty key value :: rest ∧
      Runs next rest r
  | append archive next, ms, r => ∃ answer rest, ms = .append archive answer :: rest ∧
      Runs (next answer) rest r
  | create c o next, ms, r => ∃ answer rest, ms = .create c o answer :: rest ∧
      Runs (next answer) rest r
  | start agent next, ms, r => ∃ answer rest, ms = .start agent answer :: rest ∧
      Runs (next answer) rest r
  | hook agent next, ms, r => ∃ rest, ms = .hook agent :: rest ∧ Runs next rest r

def moves (i : Surroundings A S) : Boot A α → S → List (Move A)
  | done _, _ => []
  | log e next, s => moves i next (i.log e s)
  | enter next, s => .enter (i.enter s).1 :: moves i (next (i.enter s).1) (i.enter s).2
  | look next, s => .look (i.look s) :: moves i (next (i.look s)) s
  | property key next, s => .property key (i.property key s) :: moves i (next (i.property key s)) s
  | setProperty key value next, s => .setProperty key value ::
      moves i next (i.setProperty key value s)
  | append archive next, s => .append archive (i.append archive s).1 ::
      moves i (next (i.append archive s).1) (i.append archive s).2
  | create c o next, s => .create c o (i.create c o s).1 ::
      moves i (next (i.create c o s).1) (i.create c o s).2
  | start agent next, s => .start agent (i.start agent s).1 ::
      moves i (next (i.start agent s).1) (i.start agent s).2
  | hook agent next, s => .hook agent :: moves i next (i.hook agent s)

theorem runs_moves (i : Surroundings A S) (b : Boot A α) :
    ∀ s, Runs b (moves i b s) (run i b s).1 := by
  induction b with
  | done a => intro s; exact ⟨rfl, rfl⟩
  | log e next ih => intro s; exact ih _
  | enter next ih => intro s; exact ⟨_, _, rfl, ih _ _⟩
  | look next ih => intro s; exact ⟨_, _, rfl, ih _ _⟩
  | property key next ih => intro s; exact ⟨_, _, rfl, ih _ _⟩
  | setProperty key value next ih => intro s; exact ⟨_, rfl, ih _⟩
  | append archive next ih => intro s; exact ⟨_, _, rfl, ih _ _⟩
  | create c o next ih => intro s; exact ⟨_, _, rfl, ih _ _⟩
  | start agent next ih => intro s; exact ⟨_, _, rfl, ih _ _⟩
  | hook agent next ih => intro s; exact ⟨_, rfl, ih _⟩

theorem exists_runs (b : Boot A α) : ∃ ms r, Runs b ms r := by
  induction b with
  | done a => exact ⟨[], a, rfl, rfl⟩
  | log e next ih => exact ih
  | enter next ih => obtain ⟨ms, r, h⟩ := ih false; exact ⟨_, r, _, ms, rfl, h⟩
  | look next ih => obtain ⟨ms, r, h⟩ := ih {}; exact ⟨_, r, _, ms, rfl, h⟩
  | property key next ih => obtain ⟨ms, r, h⟩ := ih none; exact ⟨_, r, _, ms, rfl, h⟩
  | setProperty key value next ih => obtain ⟨ms, r, h⟩ := ih; exact ⟨_, r, ms, rfl, h⟩
  | append archive next ih => obtain ⟨ms, r, h⟩ := ih (.ok ()); exact ⟨_, r, _, ms, rfl, h⟩
  | create c o next ih => obtain ⟨ms, r, h⟩ := ih (.panic none); exact ⟨_, r, _, ms, rfl, h⟩
  | start agent next ih => obtain ⟨ms, r, h⟩ := ih (.ok ()); exact ⟨_, r, _, ms, rfl, h⟩
  | hook agent next ih => obtain ⟨ms, r, h⟩ := ih; exact ⟨_, r, ms, rfl, h⟩

theorem runs_pure {a r : α} {ms : List (Move A)} :
    Runs (pure a : Boot A α) ms r ↔ ms = [] ∧ r = a :=
  Iff.rfl

theorem runs_bind {b : Boot A α} {f : α → Boot A β} :
    ∀ {ms : List (Move A)} {r : β}, Runs (b >>= f) ms r ↔
      ∃ a before after, ms = before ++ after ∧ Runs b before a ∧ Runs (f a) after r := by
  change ∀ {ms : List (Move A)} {r : β}, Runs (b.andThen f) ms r ↔ _
  induction b with
  | done a =>
    intro ms r
    constructor
    · intro h
      exact ⟨a, [], ms, rfl, ⟨rfl, rfl⟩, h⟩
    · rintro ⟨_, _, after, rfl, ⟨rfl, rfl⟩, h⟩
      exact h
  | log e next ih => intro ms r; simp only [andThen, Runs]; exact ih
  | enter next ih => intro ms r; simp only [andThen, Runs, ih]; grind
  | look next ih => intro ms r; simp only [andThen, Runs, ih]; grind
  | property key next ih => intro ms r; simp only [andThen, Runs, ih]; grind
  | setProperty key value next ih => intro ms r; simp only [andThen, Runs, ih]; grind
  | append archive next ih => intro ms r; simp only [andThen, Runs, ih]; grind
  | create c o next ih => intro ms r; simp only [andThen, Runs, ih]; grind
  | start agent next ih => intro ms r; simp only [andThen, Runs, ih]; grind
  | hook agent next ih => intro ms r; simp only [andThen, Runs, ih]; grind

theorem runs_disk_bind {f : Disk → Boot A β} {ms : List (Move A)} {r : β} :
    Runs (disk >>= f) ms r ↔ ∃ d rest, ms = .look d :: rest ∧ Runs (f d) rest r :=
  Iff.rfl

theorem runs_emitAll_bind {events : List Event} {f : Unit → Boot A β} {ms : List (Move A)} {r : β} :
    Runs (emitAll events >>= f) ms r ↔ Runs (f ()) ms r := by
  induction events with
  | nil => exact Iff.rfl
  | cons e rest ih => exact ih

end Boot

namespace Starting

open Boot

variable {A α β : Type} {ms : List (Move A)}

theorem runs_bind {x : Starting A α} {f : α → Starting A β} {r : Except Stop β} :
    Runs (x >>= f).run ms r ↔
      (∃ e, Runs x.run ms (.error e) ∧ r = .error e) ∨
        ∃ a before after, ms = before ++ after ∧ Runs x.run before (.ok a) ∧
          Runs (f a).run after r := by
  rw [ExceptT.run_bind, Boot.runs_bind]
  constructor
  · rintro ⟨answer, before, after, rfl, hx, hrest⟩
    cases answer with
    | error e =>
      obtain ⟨rfl, rfl⟩ := Boot.runs_pure.mp hrest
      exact .inl ⟨e, by simpa using hx, rfl⟩
    | ok a => exact .inr ⟨a, before, after, rfl, hx, hrest⟩
  · rintro (⟨e, hx, rfl⟩ | ⟨a, before, after, rfl, hx, hrest⟩)
    · exact ⟨.error e, ms, [], by simp, hx, rfl, rfl⟩
    · exact ⟨.ok a, before, after, rfl, hx, hrest⟩

variable {f : α → Starting A β} {r : Except Stop β}

theorem runs_act {b : Boot A α} {r : Except Stop α} :
    Runs (act b).run ms r ↔ ∃ a, r = .ok a ∧ Runs b ms a := by
  change Runs (b >>= fun a => pure (.ok a)) ms r ↔ _
  rw [Boot.runs_bind]
  constructor
  · rintro ⟨a, before, after, rfl, hb, rfl, rfl⟩
    exact ⟨a, rfl, by simpa using hb⟩
  · rintro ⟨a, rfl, hb⟩
    exact ⟨a, ms, [], by simp, hb, rfl, rfl⟩

theorem runs_emitAll_bind {events : List Event} {f : Unit → Starting A β} :
    Runs (act (emitAll events) >>= f).run ms r ↔ Runs (f ()).run ms r := by
  induction events with
  | nil => exact Iff.rfl
  | cons e rest ih => exact ih

theorem runs_require_bind {x : Except BootError α} (h : Runs (require x >>= f).run ms r) :
    (∃ a, x = .ok a ∧ Runs (f a).run ms r) ∨
      ∃ e, x = .error e ∧ ms = [] ∧ r = .error (.failed e) := by
  cases x with
  | ok a => exact .inl ⟨a, rfl, h⟩
  | error e => exact .inr ⟨e, rfl, h⟩

theorem runs_complete_bind {x : Outcome BootError α} (h : Runs (complete x >>= f).run ms r) :
    (∃ a, x = .ok a ∧ Runs (f a).run ms r) ∨
      (∀ a, x ≠ .ok a) ∧ ms = [] ∧ ∃ stop, r = .error stop := by
  cases x with
  | ok a => exact .inl ⟨a, rfl, h⟩
  | error e => exact .inr ⟨by simp, h.1, _, h.2⟩
  | panic m => exact .inr ⟨by simp, h.1, _, h.2⟩

end Starting

end PluginAgent
