import Piet.Proofs.Runs

/-! Runs that are taken up again. It does not matter at which limit a run is interrupted, and a
program that has ended stays as it is. -/
namespace Piet

/-- What a program that has ended answers: it runs no operation and takes no step. -/
def Call.idleAnswer : Call → Answer
  | .step => .op none
  | .run _ => .taken 0
  | .feed _ => .fed

/-- A call on a program that has ended in state `s`. All that can change is the attached text. -/
structure Outcome.Idle (s : State) (c : Call) (o : Outcome Answer) : Prop where
  result : o.result = .ok c.idleAnswer
  state : ∃ text, o.state = { s with input.text := text }
  log : o.log = []

namespace Grid

/-- The program runs, but the way ahead is blocked, so that its next step only turns. -/
def isObstructed (g : Grid) (s : State) : Bool :=
  !s.terminated g && g.passage s.position s.heading matches .ok (.blocked _ _)

variable {g : Grid} {s t : State} {n i : Nat} {o : Outcome Nat}

theorem isObstructed_iff :
    g.isObstructed s = true ↔ s.terminated g = false ∧ g.Blocked s.position s.heading := by
  unfold isObstructed
  rw [Bool.and_eq_true, Bool.not_eq_true', blocked_iff]
  apply and_congr_right
  intro _
  split
  · next exit target hp => simp [hp]
  · next hp => simpa using hp

/-- A step of a running program runs an operation or is obstructed, unless it fails. -/
theorem isObstructed_eq_not_isSome (ht : s.terminated g = false) {a : Option Op}
    (ha : (g.step s).result = .ok a) :
    g.isObstructed s = !(g.operation? s .step).isSome := by
  have hs := g.stepped s
  unfold isObstructed operation?
  generalize g.step s = o at hs ha ⊢
  cases hs with
  | ended h =>
    rw [ht] at h
    cases h
  | failed | faulted => cases ha
  | obstructed _ hp => simp [ht, hp, obstruct, Except.toOption]
  | moved _ hp => simp [hp, Except.toOption]

theorem Runs.state_eq (h : g.Runs s n t) : t = g.after s (.replicate n .step) := by
  induction h with
  | refl => rfl
  | step _ _ _ ih => exact ih

/-- The program runs before each of the steps, and none of them fails. -/
theorem Runs.running (h : g.Runs s n t) (hi : i < n) :
    (g.after s (.replicate i .step)).terminated g = false ∧
      ∃ a, (g.step (g.after s (.replicate i .step))).result = .ok a := by
  induction h generalizing i with
  | refl => exact absurd hi (Nat.not_lt_zero i)
  | step ht ha _ ih =>
    cases i with
    | zero => exact ⟨ht, _, ha⟩
    | succ i => exact ih (Nat.lt_of_succ_lt_succ hi)

/-- Each step in a row is either an operation or an obstruction. -/
theorem Runs.length_eq (h : g.Runs s n t) :
    n = ((List.range n).countP fun i =>
        (g.operation? (g.after s (.replicate i .step)) .step).isSome) +
      (List.range n).countP fun i => g.isObstructed (g.after s (.replicate i .step)) := by
  have hsplit := (List.range n).length_eq_countP_add_countP fun i =>
    (g.operation? (g.after s (.replicate i .step)) .step).isSome
  rw [List.length_range] at hsplit
  refine hsplit.trans (congrArg _ (List.countP_congr fun i hi => ?_))
  obtain ⟨ht, a, ha⟩ := h.running (List.mem_range.1 hi)
  rw [isObstructed_eq_not_isSome ht ha]
  simp

/-- A run that returns a number has taken that many steps, and it has ended if they are fewer than its
limit. -/
theorem runs_of_result_eq_ok {a : Nat} (h : (g.run a s).result = .ok n) :
    n ≤ a ∧ g.Runs s n (g.run a s).state ∧
      (n < a → (g.run a s).state.terminated g = true) := by
  have hran := g.ran s a
  generalize g.run a s = o at hran h
  cases hran with
  | halted hk hle ht hr =>
    obtain rfl := Except.ok.inj (hr.symm.trans h)
    exact ⟨hle, hk, fun _ => ht⟩
  | limited hk ht hr =>
    obtain rfl := Except.ok.inj (hr.symm.trans h)
    exact ⟨le_rfl, hk, fun hlt => absurd hlt (Nat.lt_irrefl _)⟩
  | failed _ _ _ _ hr =>
    rw [hr] at h
    cases h

theorem call?_of_terminated (h : s.terminated g = true) (patience : Nat) (c : Call) :
    ∃ o, g.call? patience s c = some o ∧ o.Idle s c ∧ o.state.terminated g = true := by
  cases c with
  | step =>
    refine ⟨_, rfl, ?_, ?_⟩ <;> rw [step_of_terminated h]
    · exact ⟨rfl, ⟨_, rfl⟩, rfl⟩
    · exact h
  | feed text => exact ⟨_, rfl, ⟨rfl, ⟨_, rfl⟩, rfl⟩, h⟩
  | run limit =>
    have hrun : g.runWithin? patience limit s = some ⟨.ok 0, s, []⟩ := by
      cases limit with
      | none =>
        have hzero := run_of_terminated patience h
        exact runOn?_eq_some_iff.2 ⟨hzero, Or.inl h⟩
      | some n => exact congrArg some (run_of_terminated n.toNat h)
    exact ⟨_, by rw [call?, hrun]; rfl, ⟨rfl, ⟨_, rfl⟩, rfl⟩, h⟩

/-- Whatever is called after the end of a program gets its answer, and nothing but the attached text
changes. -/
theorem play?_of_terminated (h : s.terminated g = true) (patience : Nat) (calls : List Call) :
    ∃ os, g.play? patience s calls = some os ∧ List.Forall₂ (Outcome.Idle s) calls os := by
  -- The text may have changed since the program ended.
  have hfed : ∀ text, ∃ os, g.play? patience { s with input.text := text } calls = some os ∧
      List.Forall₂ (Outcome.Idle s) calls os := by
    induction calls with
    | nil => exact fun _ => ⟨[], rfl, .nil⟩
    | cons c cs ih =>
      intro text
      obtain ⟨o, ho, hidle, -⟩ := call?_of_terminated
        (s := { s with input.text := text }) h patience c
      obtain ⟨text', ho'⟩ := hidle.state
      obtain ⟨os, hos, hall⟩ := ih text'
      refine ⟨o :: os, ?_, .cons ⟨hidle.result, ⟨text', ho'⟩, hidle.log⟩ hall⟩
      rw [play?, ho, Option.bind_some, ho']
      exact congrArg (Option.map _) hos
  exact hfed s.input.text

/-- To go on after a run is to raise its limit, and to run without a limit is to run under one that
is high enough. -/
theorem run_in_parts (g : Grid) (s : State) :
    let steps (i : Nat) := g.after s (.replicate i .step)
    (∀ a b : Nat, let first := g.run a s; let second := g.run b first.state
      (∀ e, first.result = .error e → g.run (a + b) s = first) ∧
      ∀ n, first.result = .ok n → g.run (a + b) s =
        ⟨second.result.map (n + ·), second.state, first.log ++ second.log⟩) ∧
    (∀ a n : Nat, (g.run a s).result = .ok n →
      n ≤ a ∧ (g.run a s).state = steps n ∧
      (n < a → (g.run a s).state.terminated g = true) ∧
      n = ((List.range n).countP fun i => (g.operation? (steps i) .step).isSome) +
        (List.range n).countP fun i => g.isObstructed (steps i)) ∧
    (∀ o, (∃ patience, g.runWithin? patience none s = some o) ↔ ∃ m, g.run m s = o ∧ o.Over g) ∧
    (∀ m, (g.run m s).Over g → ∀ m', m ≤ m' → g.run m' s = g.run m s) ∧
    (s.terminated g = true → ∀ patience calls, ∃ os, g.play? patience s calls = some os ∧
      List.Forall₂ (Outcome.Idle s) calls os) := by
  intro steps
  refine ⟨fun a b => ⟨fun e he => ?_, fun n hn => ?_⟩, fun a n hn => ?_, fun o => ?_,
    fun m hm m' hle => run_of_over hm hle, play?_of_terminated⟩
  · rw [run_add, Outcome.andThen, he]
  · rw [run_add, Outcome.andThen, hn]
  · obtain ⟨hle, hruns, hlt⟩ := runs_of_result_eq_ok hn
    exact ⟨hle, hruns.state_eq, hlt, hruns.length_eq⟩
  · exact exists_congr fun patience => runOn?_eq_some_iff

/-- Five steps that go well, and a sixth that fails; and eight obstructions that end a program. -/
theorem run_in_parts_reader :
    let s := State.initial (some "4")
    let halted := (cell.run 8 (.initial none)).state
    (∃ f, (reader.run 5 s).result = .ok 5 ∧
      (reader.run 1 (reader.run 5 s).state).result = .error (.fault f) ∧
      (reader.run (5 + 1) s).result = .error (.fault f)) ∧
    5 = ((List.range 5).countP fun i =>
        (reader.operation? (reader.after s (.replicate i .step)) .step).isSome) +
      ((List.range 5).countP fun i => reader.isObstructed (reader.after s (.replicate i .step))) ∧
    (∃ patience, cell.runWithin? patience none (.initial none) = some (cell.run 8 (.initial none))) ∧
    cell.run 30 (.initial none) = cell.run 8 (.initial none) ∧
    halted.terminated cell = true ∧
    ∃ os, cell.play? 0 halted [.run none, .feed "7", .step] = some os ∧
      List.Forall₂ (Outcome.Idle halted) [.run none, .feed "7", .step] os := by
  intro s halted
  have hfive : (reader.run 5 s).result = .ok 5 := by decide +kernel
  have hfault : (reader.run 1 (reader.run 5 s).state).result =
      .error (.fault (.stackUnderflow .mod 2 1)) := by decide +kernel
  have ht : halted.terminated cell = true := by decide +kernel
  obtain ⟨hadd, hcount, -, -, -⟩ := run_in_parts reader s
  obtain ⟨-, -, hunlimited, hmore, -⟩ := run_in_parts cell (.initial none)
  obtain ⟨-, -, -, -, hidle⟩ := run_in_parts cell halted
  have hsix : (reader.run (5 + 1) s).result = .error (.fault (.stackUnderflow .mod 2 1)) := by
    rw [(hadd 5 1).2 5 hfive, hfault]
    rfl
  refine ⟨⟨_, hfive, hfault, hsix⟩, (hcount 5 5 hfive).2.2.2, ?_, ?_, ht, hidle ht 0 _⟩
  · exact (hunlimited _).2 ⟨8, rfl, Or.inl ht⟩
  · exact hmore 8 (Or.inl ht) 30 (by decide)

end Grid
end Piet
