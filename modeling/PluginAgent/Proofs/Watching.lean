import PluginAgent.Proofs.LoadRuns

namespace PluginAgent

inductive Note where
  | called (i : Injector)
  | logged (e : Event)
  | returned (i : Injector) (r : Except PluginError SetupResult)

def Note.after {σ : Type} (n : Note) (s : σ × List Note) : σ × List Note :=
  (s.1, s.2 ++ [n])

namespace World

variable {σ : Type}

def watched (w : World σ) (notes : List Note) : World (σ × List Note) where
  disk := w.disk
  spaces := w.spaces
  own := (w.own, notes)
  log := w.log
  outside := w.outside

theorem watched_emit (w : World σ) (notes : List Note) (events : List Event) :
    (w.watched notes).emit events = (w.emit events).watched notes :=
  rfl

end World

namespace Script

variable {σ α : Type}

def watched : Script σ α → Script (σ × List Note) α
  | done result => done result
  | panic m => panic m
  | resolve space name next => resolve space name fun r => (next r).watched
  | resource path next => resource path fun r => (next r).watched
  | inScope name next => inScope name fun r => (next r).watched
  | look next => look fun d => (next d).watched
  | change f next => change f next.watched
  | log e next => log e (keep (Note.after (.logged e)) next.watched)
  | own next => own fun s => (next s.1).watched
  | keep f next => keep (fun s => (f s.1, s.2)) next.watched

theorem run_watched (i : Injector) (s : Script σ α) : ∀ w : World σ, ∃ said : List Event,
    (s.run i w).2.log = w.log ++ said ∧ ∀ notes, s.watched.run i (w.watched notes) =
      ((s.run i w).1, (s.run i w).2.watched (notes ++ said.map .logged)) := by
  induction s with
  | done result => intro w; exact ⟨[], by simp [run], by simp [watched, run]⟩
  | panic m => intro w; exact ⟨[], by simp [run], by simp [watched, run]⟩
  | resolve space name next ih =>
    intro w
    simp only [watched, run]
    cases hresolve : i.resolve w.spaces w.disk space name with
    | error e =>
      obtain ⟨said, hlog, hrun⟩ := ih (.error e) w
      refine ⟨said, hlog, ?_⟩
      intro notes
      simp only [World.watched, hresolve]
      exact hrun notes
    | ok answer =>
      obtain ⟨c, spaces⟩ := answer
      obtain ⟨said, hlog, hrun⟩ := ih (.ok c) { w with spaces }
      refine ⟨said, hlog, ?_⟩
      intro notes
      simp only [World.watched, hresolve]
      exact hrun notes
  | resource path next ih => intro w; exact ih _ w
  | inScope name next ih => intro w; exact ih _ w
  | look next ih => intro w; exact ih _ w
  | change f next ih => intro w; exact ih { w with disk := f w.disk }
  | log e next ih =>
    intro w
    obtain ⟨said, hlog, hrun⟩ := ih (w.emit [e])
    refine ⟨e :: said, ?_, ?_⟩
    · simp [run, hlog]
    · intro notes
      have hnext := hrun (notes ++ [.logged e])
      rw [List.append_assoc] at hnext
      exact hnext
  | own next ih => intro w; exact ih _ w
  | keep f next ih => intro w; exact ih { w with own := f w.own }

end Script

def Setup.watched {σ : Type} (s : Setup σ) : Setup (σ × List Note) := fun plugin i =>
  .keep (Note.after (.called i)) <| (s plugin i).watched.andThen fun r =>
    .keep (Note.after (.returned i r)) (.done r)

theorem Setup.run_watched {σ : Type} {s : Setup σ} {plugin : Plugin} {i : Injector}
    {r : Except PluginError SetupResult} {w w' : World σ}
    (h : (s plugin i).run i w = (.ofExcept r, w')) : ∃ said : List Event, w'.log = w.log ++ said ∧
      ∀ notes, (s.watched plugin i).run i (w.watched notes) =
        (.ofExcept r, w'.watched (notes ++ .called i :: said.map .logged ++ [.returned i r])) := by
  obtain ⟨said, hlog, hrun⟩ := (s plugin i).run_watched i w
  rw [h] at hlog hrun
  refine ⟨said, hlog, ?_⟩
  intro notes
  have hcalled := hrun (notes ++ [.called i])
  rw [List.append_assoc] at hcalled
  simp only [watched, Script.run, Script.run_andThen]
  rw [show { w.watched notes with own := Note.after (.called i) (w.watched notes).own } =
    w.watched (notes ++ [.called i]) from rfl, hcalled]
  cases r <;> rfl

namespace Loader

variable {σ : Type}

def watched (l : Loader σ) : Loader (σ × List Note) :=
  ⟨l.disabled, l.catalog, l.setup.watched⟩

def notes (l : Loader σ) (archives : List String) (w : World σ) : List Note :=
  (l.watched.load archives (w.watched [])).2.own.2

theorem notes_eq {l : Loader σ} {archives : List String} {w : World σ} {listed : List Listed}
    {events : List Event} (h : Listed.ofArchives w.disk archives = (.ok listed, events)) :
    l.notes archives w =
      (setUpListed l.watched listed ((w.emit events).watched [])).2.own.2 := by
  have hsame : Listed.ofArchives (w.watched []).disk archives = (.ok listed, events) := h
  simp only [notes, load, hsame, World.watched_emit]
  split <;> rename_i hrun <;> rw [hrun]
  rfl

end Loader

end PluginAgent
