namespace PluginAgent

structure Gate where
  started : Bool := false
  deriving DecidableEq, Repr

namespace Gate

def enter (g : Gate) : Bool × Gate :=
  (!g.started, ⟨true⟩)

def race : Nat → Gate → Nat × Gate
  | 0, g => (0, g)
  | n + 1, g =>
    let (passed, g) := g.enter
    let (winners, g) := race n g
    (winners + passed.toNat, g)

theorem race_started (n : Nat) : race n ⟨true⟩ = (0, ⟨true⟩) := by
  induction n with
  | zero => rfl
  | succ n ih => simp [race, enter, ih]

theorem race_succ (n : Nat) (g : Gate) : (race (n + 1) g).1 = (!g.started).toNat := by
  simp [race, enter, race_started]

end Gate

end PluginAgent
