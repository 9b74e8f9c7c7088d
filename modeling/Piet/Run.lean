import Piet.Step

/-! Runs of many steps, with a limit or without. -/
namespace Piet.Grid

/-- As many steps as given, fewer if the program ends or fails. The log is kept newest first and
`taken` counts the steps so far. -/
def runFrom (g : Grid) : Nat → State → Nat → List Record → Outcome Nat
  | 0, s, taken, log => ⟨.ok taken, s, log.reverse⟩
  | n + 1, s, taken, log =>
    if s.terminated g then ⟨.ok taken, s, log.reverse⟩
    else
      let o := g.step s
      let log := o.log.reverse ++ log
      match o.result with
      | .ok _ => g.runFrom n o.state (taken + 1) log
      | .error e => ⟨.error e, o.state, log.reverse⟩

def run (g : Grid) (n : Nat) (s : State) : Outcome Nat := g.runFrom n s 0 []

@[simp] theorem run_zero (g : Grid) (s : State) : g.run 0 s = ⟨.ok 0, s, []⟩ := rfl

/-- Steps taken and records logged before only add to the answer. -/
theorem runFrom_eq (g : Grid) (n : Nat) (s : State) (taken : Nat) (log : List Record) :
    g.runFrom n s taken log =
      ⟨(g.run n s).result.map (taken + ·), (g.run n s).state, log.reverse ++ (g.run n s).log⟩ := by
  induction n generalizing s taken log with
  | zero => simp [run, runFrom, Except.map]
  | succ n ih =>
    unfold run runFrom
    split
    · simp [Except.map]
    · dsimp only
      split
      · rw [ih, ih _ 1]
        cases (g.run n (g.step s).state).result <;> simp [Except.map]
        omega
      · simp [Except.map]

/-- A run of one more step is a step and a run from there. -/
theorem run_succ {g : Grid} {s : State} (n : Nat) (h : s.terminated g = false) {a : Option Op}
    (ha : (g.step s).result = .ok a) :
    g.run (n + 1) s =
      ⟨(g.run n (g.step s).state).result.map (1 + ·), (g.run n (g.step s).state).state,
        (g.step s).log ++ (g.run n (g.step s).state).log⟩ := by
  rw [run, runFrom, if_neg (by simp [h])]
  simp only [ha]
  rw [runFrom_eq]
  simp

/-- As `runFrom`, but only the end of the program or a failure ends the run, and there is no answer
before one of them. -/
def runOnFrom? (g : Grid) : Nat → State → Nat → List Record → Option (Outcome Nat)
  | patience, s, taken, log =>
    if s.terminated g then some ⟨.ok taken, s, log.reverse⟩
    else match patience with
      | 0 => none
      | n + 1 =>
        let o := g.step s
        let log := o.log.reverse ++ log
        match o.result with
        | .ok _ => g.runOnFrom? n o.state (taken + 1) log
        | .error e => some ⟨.error e, o.state, log.reverse⟩

/-- Steps without a limit; none if more than `patience` of them are needed. A program that never ends
has no answer for any patience. -/
def runOn? (g : Grid) (patience : Nat) (s : State) : Option (Outcome Nat) :=
  g.runOnFrom? patience s 0 []

/-- A limit that is not positive allows no step. Patience counts only where there is no limit. -/
def runWithin? (g : Grid) (patience : Nat) (limit : Option Int) (s : State) :
    Option (Outcome Nat) :=
  match limit with
  | some n => some (g.run n.toNat s)
  | none => g.runOn? patience s

end Piet.Grid
