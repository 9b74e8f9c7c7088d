import Piet.Proofs.Step
import Mathlib.Logic.Function.Iterate

/-! Rolls. A roll turns the top values around as one rotation, however often it is told to bury the top
value, and it touches nothing below. -/
namespace Piet

namespace Stack

/-- A single roll: the top value goes beneath all others. -/
def bury : Stack → Stack
  | [] => []
  | v :: rest => rest ++ [v]

theorem bury_eq_rotate (s : Stack) : s.bury = List.rotate s 1 := by
  cases s with
  | nil => rfl
  | cons v rest => simp [bury]

theorem iterate_bury (s : Stack) (n : Nat) : bury^[n] s = List.rotate s n := by
  induction n with
  | zero => simp
  | succ n ih => rw [Function.iterate_succ_apply', ih, bury_eq_rotate, List.rotate_rotate]

theorem roll_eq (s : Stack) (depth rolls : Nat) :
    s.roll depth rolls = bury^[rolls] (s.take depth) ++ s.drop depth := by
  rw [roll, rotateLeft_eq_rotate, iterate_bury]

theorem roll_perm (s : Stack) (depth rolls : Nat) : (s.roll depth rolls).Perm s := by
  have htop : (bury^[rolls] (s.take depth)).Perm (s.take depth) := by
    rw [iterate_bury]
    exact List.rotate_perm _ _
  rw [roll_eq]
  exact (htop.append_right _).trans (.of_eq (List.take_append_drop depth s))

end Stack

/-- Faults of operations that find too few values. -/
def Fault.wantsValues : Fault → Bool
  | stackUnderflow _ _ _ | rollTooDeep _ _ => true
  | _ => false

namespace Grid

variable {m : Move} {s : State}

/-- One case for each way a roll can go, with what it answers and the stack it leaves. -/
inductive Rolled : Stack → Except Error (Option Op) → Stack → Prop where
  | short {stack : Stack} (h : stack.length < 2) :
      Rolled stack (.error (.fault (.stackUnderflow .roll 2 stack.length))) stack
  | deep {rolls depth : Word} {rest : Stack} (h : rest.length < depth.toNat) :
      Rolled (rolls :: depth :: rest) (.error (.fault (.rollTooDeep depth.toNat rest.length)))
        (rolls :: depth :: rest)
  | done {rolls depth : Word} {rest : Stack} (h : depth.toNat ≤ rest.length) :
      Rolled (rolls :: depth :: rest) (.ok (some .roll)) (rest.roll depth.toNat rolls.toNat)

theorem rolled (hm : m.op = .roll) (s : State) :
    Rolled s.stack (cross s m).result (cross s m).state.stack := by
  obtain ⟨hd, p, stack, n, out, input, steps⟩ := s
  have hroll : m.op.perform m.size ⟨hd, p, stack, 0, out, input, steps⟩ =
      State.roll ⟨hd, p, stack, 0, out, input, steps⟩ := by rw [hm]; rfl
  rcases stack with _ | ⟨rolls, _ | ⟨depth, rest⟩⟩
  · rw [cross_of_error hroll]
    exact .short (by simp)
  · rw [cross_of_error hroll]
    exact .short (by simp)
  · by_cases h : depth.toNat ≤ rest.length
    · rw [cross_of_ok (hroll.trans (if_pos h)), hm]
      exact .done h
    · rw [cross_of_error (hroll.trans (if_neg h))]
      exact .deep (Nat.lt_of_not_le h)

/-- A roll fails exactly if too few values are there; otherwise it buries the top values one after
another. -/
theorem cross_roll (hm : m.op = .roll) (s : State) :
    let o := cross s m
    ((∃ e, o.result = .error e) ↔ s.stack.length < 2 ∨
      ∃ rolls depth rest, s.stack = rolls :: depth :: rest ∧ rest.length < depth.toNat) ∧
    (∀ e, o.result = .error e →
      (∃ f, e = .fault f ∧ f.wantsValues = true) ∧ o.state.stack = s.stack) ∧
    ∀ rolls depth rest, s.stack = rolls :: depth :: rest → depth.toNat ≤ rest.length →
      o.result = .ok (some .roll) ∧
      o.state.stack =
        Stack.bury^[rolls.toNat] (rest.take depth.toNat) ++ rest.drop depth.toNat ∧
      (depth = 0 → o.state.stack = rest) ∧ o.state.stack.Perm rest := by
  intro o
  have h : Rolled s.stack o.result o.state.stack := rolled hm s
  generalize s.stack = stack at h ⊢
  generalize o.result = result at h ⊢
  generalize o.state.stack = stack' at h ⊢
  cases h with
  | short h =>
    refine ⟨iff_of_true ⟨_, rfl⟩ (Or.inl h), ?_, ?_⟩
    · rintro e ⟨⟩
      exact ⟨⟨_, rfl, rfl⟩, rfl⟩
    · rintro rolls depth rest rfl -
      simp only [List.length_cons] at h
      omega
  | deep h =>
    refine ⟨iff_of_true ⟨_, rfl⟩ (Or.inr ⟨_, _, _, rfl, h⟩), ?_, ?_⟩
    · rintro e ⟨⟩
      exact ⟨⟨_, rfl, rfl⟩, rfl⟩
    · rintro rolls depth rest ⟨⟩ henough
      omega
  | done h =>
    refine ⟨iff_of_false ?_ ?_, ?_, ?_⟩
    · rintro ⟨e, ⟨⟩⟩
    · rintro (hshort | ⟨rolls, depth, rest, ⟨⟩, hdeep⟩)
      · simp only [List.length_cons] at hshort
        omega
      · omega
    · rintro e ⟨⟩
    · rintro rolls depth rest ⟨⟩ -
      refine ⟨rfl, Stack.roll_eq _ _ _, ?_, Stack.roll_perm _ _ _⟩
      rintro rfl
      simp [Stack.roll_eq, Stack.iterate_bury]

/-- Five rolls of the top three values turn them around by two. -/
theorem cross_roll_three :
    let s : State := { State.initial none with stack := [5, 3, 1, 2, 3, 4] }
    let m : Move := ⟨.origin, 1, .chromatic .red .normal, ⟨1, 0⟩, .chromatic .blue .dark, .roll⟩
    (cross s m).result = .ok (some .roll) ∧ (cross s m).state.stack = [3, 1, 2, 4] ∧
      (cross s m).state.stack.Perm [1, 2, 3, 4] := by
  intro s m
  obtain ⟨-, -, hroll⟩ := cross_roll (m := m) rfl s
  obtain ⟨hok, hstack, -, hperm⟩ := hroll 5 3 [1, 2, 3, 4] rfl (by decide)
  exact ⟨hok, hstack.trans (by decide), hperm⟩

end Grid
end Piet
