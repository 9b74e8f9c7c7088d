import Piet.Proofs.Session
import Piet.Proofs.Step

/-! Steps that fail. A failure leaves the state as it was, but a fault has reset the counter of
obstructions; only a program that waits for input can get over its fault. -/
namespace Piet.Grid

variable {g : Grid} {s : State} {e : Error} {f : Fault}

/-- A step that fails changes nothing, except that a fault of an operation sets the counter back. -/
theorem state_of_step_error (h : (g.step s).result = .error e) :
    (∃ f, e = .fault f ∧ (g.step s).state = { s with obstructions := 0 }) ∨
    ((∃ p, e = .outOfBounds p g.width g.height) ∨ (∃ rgb, e = .unrecognizedColor rgb none) ∨
        ∃ c, e = .offCycle c) ∧ (g.step s).state = s := by
  have hs := g.stepped s
  generalize g.step s = o at hs h
  cases hs with
  | ended | obstructed | moved => cases h
  | failed _ hp =>
    cases h
    exact Or.inr ⟨passage_error hp, rfl⟩
  | faulted =>
    cases h
    exact Or.inl ⟨_, rfl, rfl⟩

theorem state_of_step_error_reader : ∃ s : State, s.obstructions = 5 ∧
    (reader.step s).result = .error (.fault (.notDigit 'x')) ∧
      (reader.step s).state = { s with obstructions := 0 } := by
  let s : State := { State.initial (some " x") with stack := [7], obstructions := 5 }
  have h : (reader.step s).result = .error (.fault (.notDigit 'x')) := by decide +kernel
  refine ⟨s, rfl, h, ?_⟩
  rcases state_of_step_error h with ⟨f, -, hs⟩ | ⟨⟨p, he⟩ | ⟨rgb, he⟩ | ⟨c, he⟩, -⟩
  · exact hs
  all_goals cases he

theorem step_of_crossing {m : Move} (ht : s.terminated g = false)
    (hp : g.passage s.position s.heading = .ok (.crossing m)) : g.step s = cross s m := by
  unfold step
  rw [if_neg (by simp [ht]), hp]

/-- A fault is an operation that fails on the way into another region. -/
theorem exists_move_of_fault (h : (g.step s).result = .error (.fault f)) :
    s.terminated g = false ∧ (g.step s).state = { s with obstructions := 0 } ∧
      ∃ m, g.passage s.position s.heading = .ok (.crossing m) ∧
        m.op.perform m.size { s with obstructions := 0 } = .error f := by
  have hs := g.stepped s
  generalize g.step s = o at hs h
  cases hs with
  | ended | obstructed | moved => cases h
  | failed _ hp =>
    cases h
    rcases passage_error hp with ⟨p, he⟩ | ⟨rgb, he⟩ | ⟨c, he⟩ <;> cases he
  | faulted ht hp ho =>
    cases h
    exact ⟨ht, rfl, _, hp, ho⟩

/-- Where the way is open a step does not look at the counter, whatever there is to read. -/
theorem step_reset (h : (g.step s).result = .error (.fault f)) (i : Input) :
    g.step { s with obstructions := 0, input := i } = g.step { s with input := i } := by
  obtain ⟨ht, -, m, hp, -⟩ := exists_move_of_fault h
  have hreset : ({ s with obstructions := 0, input := i } : State).terminated g = false :=
    State.terminated_eq_false_iff.2
      ⟨(State.terminated_eq_false_iff.1 ht).1, (by decide : (0 : Int) < 8)⟩
  rw [step_of_crossing (s := { s with input := i }) ht hp, step_of_crossing hreset hp]
  rfl

theorem step_feed_of_fault (h : (g.step s).result = .error (.fault f)) (hf : f.wantsInput = false)
    (text : String) : (g.step (s.feed text)).result = .error (.fault f) := by
  obtain ⟨ht, -, m, hp, ho⟩ := exists_move_of_fault h
  rw [step_of_crossing (s := s.feed text) ht hp]
  exact congrArg Outcome.result (cross_of_error (s := s.feed text)
    (Op.perform_feed_error ho hf text))

/-- A fault that does not ask for input comes back at every later step, and nothing but the text of
the input changes any more. -/
theorem after_of_fault (h : (g.step s).result = .error (.fault f)) (hf : f.wantsInput = false)
    (hs : s.obstructions = 0) (as : List Act) :
    (g.step (g.after s as)).result = .error (.fault f) ∧
      ∃ text, g.after s as = { s with input := ⟨text, s.input.cursor⟩ } := by
  refine after_induction (P := fun t => (g.step t).result = .error (.fault f) ∧
    ∃ text, t = { s with input := ⟨text, s.input.cursor⟩ }) ?_ ?_ ⟨h, s.input.text, rfl⟩ as
  · rintro t ⟨ht, text, rfl⟩
    obtain ⟨-, hstate, -⟩ := exists_move_of_fault ht
    rw [hstate, ← hs]
    exact ⟨ht, text, rfl⟩
  · rintro t fed ⟨ht, text, rfl⟩
    exact ⟨step_feed_of_fault ht hf fed, _, rfl⟩

/-- A step that faulted goes as if it had not been tried, and only a want of input can be cured. -/
theorem retry_of_fault (h : (g.step s).result = .error (.fault f)) :
    (∀ text, g.step ((g.step s).state.feed text) = g.step (s.feed text)) ∧
    (f.wantsInput = false → ∀ as, let t := g.after (g.step s).state as
      (g.step t).result = .error (.fault f) ∧
        ∃ text, t = { s with obstructions := 0, input := ⟨text, s.input.cursor⟩ }) := by
  obtain ⟨-, hstate, -⟩ := exists_move_of_fault h
  rw [hstate]
  refine ⟨fun text => step_reset h (s.input.feed text), fun hf => after_of_fault ?_ hf rfl⟩
  rw [step_reset h s.input]
  exact h

theorem retry_of_fault_reader :
    (reader.step (.initial (some " x"))).result = .error (.fault (.notDigit 'x')) ∧
    (reader.step (reader.after (reader.step (.initial (some " x"))).state
      [.feed "1", .step, .feed "2"])).result = .error (.fault (.notDigit 'x')) := by
  have h : (reader.step (.initial (some " x"))).result = .error (.fault (.notDigit 'x')) := by
    decide +kernel
  exact ⟨h, ((retry_of_fault h).2 rfl [.feed "1", .step, .feed "2"]).1⟩

end Piet.Grid
