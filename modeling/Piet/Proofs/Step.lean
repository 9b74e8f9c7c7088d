import Piet.Step
import Piet.Proofs.Operation
import Piet.Proofs.Passage

/-! The ways in which a step can go. -/
namespace Piet

theorem State.terminated_iff {g : Grid} {s : State} :
    s.terminated g = true ↔ g.colorAt .origin = .ok .black ∨ 8 ≤ s.obstructions := by
  unfold terminated maxObstructions
  rw [Bool.or_eq_true, decide_eq_true_iff]
  refine or_congr_left ?_
  split
  · next h => simp [h]
  · next h => simpa using h

theorem State.terminated_eq_false_iff {g : Grid} {s : State} :
    s.terminated g = false ↔ g.colorAt .origin ≠ .ok .black ∧ s.obstructions < 8 := by
  rw [← Bool.not_eq_true, terminated_iff, not_or, Int.not_le]

namespace Grid

theorem cross_of_ok {s s' : State} {m : Move}
    (h : m.op.perform m.size { s with obstructions := 0 } = .ok s') :
    cross s m = ⟨.ok (some m.op), { s' with position := m.target, steps := s'.steps + 1 },
      [.crossing s.position m]⟩ := by
  have hmove : (move m).run s =
      .ok (some m.op) { s' with position := m.target, steps := s'.steps + 1 } := by
    rw [move, Handler.run_bind_of_ok (EStateM.run_modify _ s),
      Handler.run_bind_of_ok (Op.run_handler_eq_ok_iff.2 h)]
    rfl
  rw [cross, hmove]

/-- The counter is set back although the operation fails. -/
theorem cross_of_error {s : State} {m : Move} {f : Fault}
    (h : m.op.perform m.size { s with obstructions := 0 } = .error f) :
    cross s m =
      ⟨.error (.fault f), { s with obstructions := 0 }, [.crossing s.position m]⟩ := by
  have hmove : (move m).run s = .error (.fault f) { s with obstructions := 0 } := by
    rw [move, Handler.run_bind_of_ok (EStateM.run_modify _ s)]
    exact Handler.run_bind_of_error (Op.run_handler_of_error h)
  rw [cross, hmove]

theorem cross_log (s : State) (m : Move) : (cross s m).log = [.crossing s.position m] := by
  unfold cross
  dsimp only
  split <;> rfl

/-- One case for each way through a step, with the whole outcome. -/
inductive Stepped (g : Grid) (s : State) : Outcome (Option Op) → Prop where
  | ended (h : s.terminated g = true) : Stepped g s ⟨.ok none, s, []⟩
  | failed {e : Error} (h : s.terminated g = false)
      (hp : g.passage s.position s.heading = .error e) : Stepped g s ⟨.error e, s, []⟩
  | obstructed {exit : Position} {target : Option Position} (h : s.terminated g = false)
      (hp : g.passage s.position s.heading = .ok (.blocked exit target)) :
      Stepped g s (g.obstruct s exit target)
  | moved {m : Move} {s' : State} (h : s.terminated g = false)
      (hp : g.passage s.position s.heading = .ok (.crossing m))
      (ho : m.op.perform m.size { s with obstructions := 0 } = .ok s') :
      Stepped g s ⟨.ok (some m.op), { s' with position := m.target, steps := s'.steps + 1 },
        [.crossing s.position m]⟩
  | faulted {m : Move} {f : Fault} (h : s.terminated g = false)
      (hp : g.passage s.position s.heading = .ok (.crossing m))
      (ho : m.op.perform m.size { s with obstructions := 0 } = .error f) :
      Stepped g s ⟨.error (.fault f), { s with obstructions := 0 }, [.crossing s.position m]⟩

theorem stepped (g : Grid) (s : State) : g.Stepped s (g.step s) := by
  unfold step
  split
  · next h => exact .ended h
  · next h =>
    have hf : s.terminated g = false := by simpa using h
    split
    · next e hp => exact .failed hf hp
    · next exit target hp => exact .obstructed hf hp
    · next m hp =>
      cases ho : m.op.perform m.size { s with obstructions := 0 } with
      | ok s' =>
        rw [cross_of_ok ho]
        exact .moved hf hp ho
      | error f =>
        rw [cross_of_error ho]
        exact .faulted hf hp ho

end Grid
end Piet
