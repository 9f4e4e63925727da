import Mathlib.Data.List.Forall2
import PluginAgent.Startup.Host

namespace PluginAgent.Host

variable {H S : Type}

inductive UpToPanic : List H → List (H × Bool) → Prop
  | nil : UpToPanic [] []
  | back {hook batch called} (h : UpToPanic batch called) :
      UpToPanic (hook :: batch) ((hook, true) :: called)
  | panic (hook batch) : UpToPanic (hook :: batch) [(hook, false)]

namespace UpToPanic

variable {batch : List H} {called : List (H × Bool)}

theorem isPrefix (h : UpToPanic batch called) : called.map (·.1) <+: batch := by
  induction h with
  | nil => exact List.prefix_rfl
  | back _ ih => exact (List.prefix_cons_inj _).mpr ih
  | panic hook batch => exact (List.prefix_cons_inj hook).mpr List.nil_prefix

theorem succ_eq_length (h : UpToPanic batch called) {k : Nat} {hook : H}
    (hk : called[k]? = some (hook, false)) : k + 1 = called.length := by
  induction h generalizing k with
  | nil => cases hk
  | back _ ih =>
    cases k with
    | zero => cases hk
    | succ k => exact congrArg (· + 1) (ih hk)
  | panic hook batch =>
    cases k with
    | zero => rfl
    | succ k => cases hk

theorem eq_of_no_panic (h : UpToPanic batch called)
    (hback : ∀ hook, (hook, false) ∉ called) : called.map (·.1) = batch := by
  induction h with
  | nil => rfl
  | @back hook _ _ _ ih =>
    rw [List.map_cons, ih fun other hother => hback other (List.mem_cons_of_mem _ hother)]
  | panic hook batch => exact absurd List.mem_cons_self (hback hook)

theorem map_eq_iff (h : UpToPanic batch called) : called.map (·.1) = batch ↔
    ∀ k hook, called[k]? = some (hook, false) → k + 1 = batch.length := by
  constructor
  · intro heq k hook hk
    rw [h.succ_eq_length hk, ← heq, List.length_map]
  · intro hlast
    by_cases hback : ∃ hook, (hook, false) ∈ called
    · obtain ⟨hook, hmem⟩ := hback
      obtain ⟨k, hk⟩ := List.mem_iff_getElem?.mp hmem
      refine h.isPrefix.eq_of_length ?_
      rw [List.length_map, ← h.succ_eq_length hk, hlast k hook hk]
    · exact h.eq_of_no_panic fun hook hmem => hback ⟨hook, hmem⟩

end UpToPanic

def recording (call : H → S → Bool × S) (hook : H) (s : S × List (H × Bool)) :
    Bool × S × List (H × Bool) :=
  ((call hook s.1).1, (call hook s.1).2, s.2 ++ [(hook, (call hook s.1).1)])

variable (call : H → S → Bool × S) (log : Event → S → S)

theorem runAll_recording (batch : List H) (s : S) (before : List (H × Bool)) :
    ∃ called, UpToPanic batch called ∧ runAll (recording call) batch (s, before) =
      ((runAll call batch s).1, (runAll call batch s).2, before ++ called) := by
  induction batch generalizing s before with
  | nil => exact ⟨[], .nil, by simp [runAll]⟩
  | cons hook rest ih =>
    rcases hcall : call hook s with ⟨back, after⟩
    cases back with
    | false => exact ⟨_, .panic hook rest, by simp [runAll, recording, hcall]⟩
    | true =>
      obtain ⟨called, hcalled, hrun⟩ := ih after (before ++ [(hook, true)])
      exact ⟨_, .back hcalled, by simp [runAll, recording, hcall, hrun]⟩

theorem runHooks_recording (h : Host H) (s : S) :
    ∃ called, UpToPanic h.hooks called ∧ ∃ after,
      h.runHooks call log s = (h.hooks.length, { h with hooks := [] }, after) ∧
      h.runHooks (recording call) (fun e s => (log e s.1, s.2)) (s, []) =
        (h.hooks.length, { h with hooks := [] }, after, called) := by
  obtain ⟨search, hooks⟩ := h
  cases hooks with
  | nil => exact ⟨[], .nil, s, rfl, rfl⟩
  | cons hook rest =>
    obtain ⟨called, hcalled, hrun⟩ :=
      runAll_recording call (hook :: rest) (log (running (hook :: rest).length) s) []
    rcases hplain : runAll call (hook :: rest) (log (running (hook :: rest).length) s) with
      ⟨back, after⟩
    rw [hplain, List.nil_append] at hrun
    refine ⟨called, hcalled, ?_⟩
    cases back with
    | true =>
      refine ⟨after, ?_, ?_⟩ <;>
        simp only [runHooks, List.isEmpty_cons, Bool.false_eq_true, if_false, hplain, hrun]
    | false =>
      refine ⟨log hookPanicked after, ?_, ?_⟩ <;>
        simp only [runHooks, List.isEmpty_cons, Bool.false_eq_true, if_false, hplain, hrun]

end PluginAgent.Host

namespace PluginAgent

inductive HookCall (H : Type) where
  | add (hook : H)
  | run

def HookCall.added? {H : Type} : HookCall H → Option H
  | add hook => some hook
  | run => none

structure HookRun (H : Type) where
  count : Nat
  called : List (H × Bool)
  deriving DecidableEq, Repr

structure HookRun.Of {H : Type} (batch : List H) (run : HookRun H) : Prop where
  called : Host.UpToPanic batch run.called
  count : run.count = batch.length

structure HookRun.Complete {H : Type} (batch : List H) (run : HookRun H) : Prop where
  called : run.called.map (·.1) = batch
  count : run.count = run.called.length

theorem HookRun.Of.complete_iff {H : Type} {batch : List H} {run : HookRun H}
    (h : run.Of batch) : run.Complete batch ↔
      ∀ k hook, run.called[k]? = some (hook, false) → k + 1 = run.count := by
  rw [h.count, ← h.called.map_eq_iff]
  constructor
  · exact HookRun.Complete.called
  · intro hcalled
    refine ⟨hcalled, ?_⟩
    rw [h.count, ← hcalled, List.length_map]

theorem HookRun.forall₂_complete_iff {H : Type} {batches : List (List H)} {runs : List (HookRun H)}
    (h : List.Forall₂ (fun batch run => run.Of batch) batches runs) :
    List.Forall₂ (fun batch run => run.Complete batch) batches runs ↔
      ∀ run ∈ runs, ∀ k hook, run.called[k]? = some (hook, false) → k + 1 = run.count := by
  induction h with
  | nil => simp
  | cons hof _ ih => rw [List.forall₂_cons, List.forall_mem_cons, hof.complete_iff, ih]

structure HookHistory (H S : Type) where
  host : Host H := {}
  state : S
  runs : List (HookRun H) := []

namespace HookHistory

variable {H S : Type} (call : H → S → Bool × S) (log : Event → S → S)

def perform (x : HookHistory H S) : HookCall H → HookHistory H S
  | .add hook => { x with host := x.host.addHook hook }
  | .run =>
    match x.host.runHooks (Host.recording call) (fun e s => (log e s.1, s.2)) (x.state, []) with
    | (count, host, state, called) => ⟨host, state, x.runs ++ [⟨count, called⟩]⟩

def after (x : HookHistory H S) (calls : List (HookCall H)) : HookHistory H S :=
  calls.foldl (perform call log) x

end HookHistory

/-- The hooks that each run of the calls finds: those registered since the run before it, after
those that wait already. -/
def HookCall.batches {H : Type} (waiting : List H) : List (HookCall H) → List (List H)
  | [] => []
  | .add hook :: rest => batches (waiting ++ [hook]) rest
  | .run :: rest => waiting :: batches [] rest

namespace HookHistory

variable {H S : Type} (call : H → S → Bool × S) (log : Event → S → S)

theorem runs_after (x : HookHistory H S) (calls : List (HookCall H)) :
    ∃ later, (x.after call log calls).runs = x.runs ++ later ∧
      List.Forall₂ (fun batch run => run.Of batch) (HookCall.batches x.host.hooks calls) later ∧
      (HookCall.batches x.host.hooks calls).flatten ++ (x.after call log calls).host.hooks =
        x.host.hooks ++ calls.filterMap HookCall.added? := by
  induction calls generalizing x with
  | nil => exact ⟨[], by simp [after], .nil, by simp [after, HookCall.batches]⟩
  | cons c rest ih =>
    cases c with
    | add hook =>
      obtain ⟨later, hruns, hlater, hall⟩ := ih { x with host := x.host.addHook hook }
      refine ⟨later, hruns, hlater, ?_⟩
      refine hall.trans ?_
      rw [Host.addHook, List.append_assoc]
      rfl
    | run =>
      obtain ⟨called, hcalled, state, -, hrun⟩ := x.host.runHooks_recording call log x.state
      have hnext : x.perform call log .run = ⟨{ x.host with hooks := [] }, state,
          x.runs ++ [⟨x.host.hooks.length, called⟩]⟩ := by
        simp only [perform, hrun]
      obtain ⟨later, hruns, hlater, hall⟩ := ih (x.perform call log .run)
      rw [hnext, List.append_assoc] at hruns
      rw [hnext] at hlater hall
      have hrest : x.after call log (.run :: rest) =
          (x.perform call log .run).after call log rest := rfl
      refine ⟨⟨x.host.hooks.length, called⟩ :: later, by rw [hrest, hnext, hruns]; rfl,
        .cons ⟨hcalled, rfl⟩ hlater, ?_⟩
      rw [hrest, hnext, HookCall.batches, List.flatten_cons,
        List.append_assoc]
      exact congrArg (x.host.hooks ++ ·) hall

theorem hooks_called_up_to_panic (s : S) (calls : List (HookCall H)) :
    let x : HookHistory H S := { state := s }
    let runs := (x.after call log calls).runs
    List.Forall₂ (fun batch run => run.Of batch) (HookCall.batches [] calls) runs ∧
      (HookCall.batches [] calls).flatten ++ (x.after call log calls).host.hooks =
        calls.filterMap HookCall.added? ∧
      (List.Forall₂ (fun batch run => run.Complete batch) (HookCall.batches [] calls) runs ↔
        ∀ run ∈ runs, ∀ k hook, run.called[k]? = some (hook, false) → k + 1 = run.count) := by
  intro x runs
  obtain ⟨later, hruns, hlater, hall⟩ := x.runs_after call log calls
  obtain rfl : runs = later := hruns
  exact ⟨hlater, hall, HookRun.forall₂_complete_iff hlater⟩

theorem hook_behind_panic_lost :
    let calls : List (HookCall String) := [.add "one", .add "boom", .add "after", .run]
    let x : HookHistory String Unit := { state := () }
    let runs := (x.after (fun hook s => (hook != "boom", s)) (fun _ s => s) calls).runs
    runs = [⟨3, [("one", true), ("boom", false)]⟩] ∧
      ¬List.Forall₂ (fun batch run => run.Complete batch) (HookCall.batches [] calls) runs := by
  intro calls x runs
  have hruns : runs = [⟨3, [("one", true), ("boom", false)]⟩] := by decide
  refine ⟨hruns, ?_⟩
  rw [hruns]
  intro hall
  have hcount := (List.forall₂_cons.mp hall).1.count
  exact absurd hcount (by decide)

end HookHistory

end PluginAgent
