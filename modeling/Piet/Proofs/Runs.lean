import Piet.Proofs.Consumption

/-! Runs as steps in a row. A run stops at its limit, at the end of the program or at a failure, and
runs one after another are one run. -/
namespace Piet

/-- Nothing is left to do: the program has ended or a step has failed. -/
def Outcome.Over (o : Outcome Nat) (g : Grid) : Prop :=
  o.state.terminated g = true ∨ ∃ e, o.result = .error e

/-- Two runs in a row as one. The steps add up, and a failure of the first is that of both. -/
def Outcome.andThen (o : Outcome Nat) (next : State → Outcome Nat) : Outcome Nat :=
  match o.result with
  | .ok taken =>
    ⟨(next o.state).result.map (taken + ·), (next o.state).state, o.log ++ (next o.state).log⟩
  | .error _ => o

namespace Grid

/-- So many steps in a row lead from one state to another. None of them fails, and the program does
not end before the last. -/
inductive Runs (g : Grid) : State → Nat → State → Prop where
  | refl (s : State) : Runs g s 0 s
  | step {s t : State} {n : Nat} {a : Option Op} (ht : s.terminated g = false)
      (ha : (g.step s).result = .ok a) (h : Runs g (g.step s).state n t) : Runs g s (n + 1) t

/-- One case for each way in which a run of at most `n` steps ends. -/
inductive Ran (g : Grid) (s : State) (n : Nat) (o : Outcome Nat) : Prop where
  | halted {k : Nat} (h : g.Runs s k o.state) (hk : k ≤ n) (ht : o.state.terminated g = true)
      (hr : o.result = .ok k) : Ran g s n o
  | limited (h : g.Runs s n o.state) (ht : o.state.terminated g = false) (hr : o.result = .ok n) :
      Ran g s n o
  | failed {k : Nat} {t : State} {e : Error} (h : g.Runs s k t) (hk : k < n)
      (ht : t.terminated g = false) (he : (g.step t).result = .error e) (hr : o.result = .error e)
      (hs : o.state = (g.step t).state) : Ran g s n o

variable {g : Grid} {s t u : State} {j k m n patience : Nat} {o : Outcome Nat}

theorem run_of_terminated (n : Nat) (h : s.terminated g = true) : g.run n s = ⟨.ok 0, s, []⟩ := by
  cases n with
  | zero => rfl
  | succ n => exact run_succ_of_terminated n h

theorem Ran.of_step {a : Option Op} (ht : s.terminated g = false)
    (ha : (g.step s).result = .ok a) {log : List Record} (h : g.Ran (g.step s).state n o) :
    g.Ran s (n + 1) ⟨o.result.map (1 + ·), o.state, log⟩ := by
  cases h with
  | halted h hk ht' hr =>
    refine .halted (.step ht ha h) (Nat.succ_le_succ hk) ht' ?_
    rw [hr, Nat.add_comm]
    rfl
  | limited h ht' hr =>
    refine .limited (.step ht ha h) ht' ?_
    rw [hr, Nat.add_comm]
    rfl
  | failed h hk ht' he hr hs =>
    refine .failed (.step ht ha h) (Nat.succ_lt_succ hk) ht' he ?_ hs
    rw [hr]
    rfl

theorem ran (g : Grid) (s : State) (n : Nat) : g.Ran s n (g.run n s) := by
  induction n generalizing s with
  | zero =>
    cases ht : s.terminated g with
    | true => exact .halted (.refl s) le_rfl ht rfl
    | false => exact .limited (.refl s) ht rfl
  | succ n ih =>
    cases ht : s.terminated g with
    | true =>
      rw [run_succ_of_terminated n ht]
      exact .halted (.refl s) (Nat.zero_le _) ht rfl
    | false =>
      cases ha : (g.step s).result with
      | ok a =>
        rw [run_succ n ht ha]
        exact .of_step ht ha (ih _)
      | error e =>
        rw [run_succ_of_error n ht ha]
        exact .failed (.refl s) (Nat.succ_pos n) ht ha rfl rfl

/-- A run splits in two after any number of steps. -/
theorem run_add (m n : Nat) (s : State) : g.run (m + n) s = (g.run m s).andThen (g.run n) := by
  induction m generalizing s with
  | zero =>
    rw [Nat.zero_add, run_zero, Outcome.andThen]
    cases g.run n s with
    | mk result state log => cases result <;> simp [Except.map]
  | succ m ih =>
    rw [Nat.add_right_comm]
    cases ht : s.terminated g with
    | true =>
      rw [run_of_terminated _ ht, run_of_terminated _ ht, Outcome.andThen]
      simp only [run_of_terminated n ht]
      rfl
    | false =>
      cases ha : (g.step s).result with
      | error e =>
        rw [run_succ_of_error _ ht ha, run_succ_of_error _ ht ha]
        rfl
      | ok a =>
        rw [run_succ _ ht ha, run_succ _ ht ha, ih, Outcome.andThen, Outcome.andThen]
        cases hr : (g.run m (g.step s).state).result with
        | error e => simp [hr, Except.map]
        | ok taken =>
          dsimp only [Except.map]
          cases (g.run n (g.run m (g.step s).state).state).result <;>
            simp [Nat.add_assoc]

theorem Runs.run_eq (h : g.Runs s k t) : ∃ log, g.run k s = ⟨.ok k, t, log⟩ := by
  induction h with
  | refl s => exact ⟨[], rfl⟩
  | @step s t k a ht ha h ih =>
    obtain ⟨log, hlog⟩ := ih
    refine ⟨(g.step s).log ++ log, ?_⟩
    rw [run_succ _ ht ha, hlog, Nat.add_comm k]
    rfl

theorem Runs.run_eq_of_error (h : g.Runs s k t) (ht : t.terminated g = false) {e : Error}
    (he : (g.step t).result = .error e) :
    ∃ log, g.run (k + 1) s = ⟨.error e, (g.step t).state, log⟩ := by
  obtain ⟨log, hlog⟩ := h.run_eq
  refine ⟨log ++ (g.step t).log, ?_⟩
  rw [run_add, hlog, Outcome.andThen]
  simp only [run_succ_of_error 0 ht he]
  rfl

/-- A run that has nothing left to do stays as it is under a higher limit. -/
theorem run_of_over (h : (g.run m s).Over g) (hle : m ≤ n) : g.run n s = g.run m s := by
  obtain ⟨d, rfl⟩ := Nat.exists_eq_add_of_le hle
  rw [run_add, Outcome.andThen]
  generalize g.run m s = o at h
  obtain ⟨result, state, log⟩ := o
  cases result with
  | error e => rfl
  | ok taken =>
    have ht : state.terminated g = true := h.resolve_right fun ⟨e, he⟩ => by cases he
    simp [run_of_terminated d ht, Except.map]

theorem run_eq_of_over (hm : (g.run m s).Over g) (hn : (g.run n s).Over g) :
    g.run n s = g.run m s := by
  rcases Nat.le_total m n with hle | hle
  · exact run_of_over hm hle
  · exact (run_of_over hn hle).symm

/-- What a run has written stands at the beginning of what a longer one writes. -/
theorem output_run_prefix (s : State) (hle : m ≤ n) :
    (g.run m s).state.output.toList <+: (g.run n s).state.output.toList := by
  obtain ⟨d, rfl⟩ := Nat.exists_eq_add_of_le hle
  rw [run_add, Outcome.andThen]
  split
  · rw [run_state g d]
    exact output_after ..
  · exact List.prefix_rfl

end Grid
end Piet
