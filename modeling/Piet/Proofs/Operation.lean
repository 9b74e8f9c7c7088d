import Piet.Proofs.Atomicity
import Mathlib.Tactic.ByContra

/-! What operations leave alone. An operation changes no more than the heading, the stack, the output
and the cursor, and the cursor moves over unread text only. -/
namespace Piet

/-- Faults that more input may cure. -/
def Fault.wantsInput : Fault → Bool
  | endOfInput _ | noInput _ => true
  | _ => false

/-- What an operation that succeeds takes over from the state before it. -/
structure Op.Frame (s s' : State) : Prop where
  position : s'.position = s.position
  obstructions : s'.obstructions = s.obstructions
  steps : s'.steps = s.steps
  input : ∃ n ≤ s.input.unread.length, s'.input = s.input.advance n

namespace Input

variable {i i' : Input}

theorem readChar_eq_ok {c : Char} (h : i.readChar = .ok (c, i')) :
    i.unread.head? = some c ∧ i' = i.advance 1 := by
  unfold readChar at h
  split at h
  · cases h
  · cases h
  · next hu =>
    cases h
    exact ⟨by rw [hu]; rfl, rfl⟩

/-- The cursor moves over the blanks and the digits, which stand next to each other. -/
theorem readNumber_eq_ok {v : Word} (h : i.readNumber = .ok (v, i')) :
    ∃ n ≤ i.unread.length, i' = i.advance n := by
  have hsplit := Text.length_takeWhile_isBlank_add i.unread
  have hdigits := List.IsPrefix.length_le
    (List.takeWhile_prefix Char.isDigit (l := i.unread.dropWhile Text.isBlank))
  unfold readNumber at h
  dsimp only at h
  split at h
  · cases h
  · cases h
  · cases h
  · cases h
    exact ⟨_, by omega, rfl⟩

theorem cursor_advance_le {n : Nat} (hn : n ≤ i.unread.length)
    (hi : i.cursor ≤ (i.text.getD []).length) :
    (i.advance n).cursor ≤ (i.text.getD []).length := by
  unfold unread at hn
  rw [List.length_drop] at hn
  change i.cursor + n ≤ _
  omega

/-- A first character that is neither blank nor digit stays the first whatever arrives. -/
theorem readNumber_feed {c : Char} (h : i.readNumber = .error (.notDigit c)) (text : String) :
    (i.feed text).readNumber = .error (.notDigit c) := by
  unfold readNumber at h
  dsimp only at h
  split at h
  · cases h
  · cases h
  · next cs _ hdigits hrest =>
    cases h
    have hc : c.isDigit = false := by
      by_contra hc
      rw [hrest, List.takeWhile_cons_of_pos (by simpa using hc)] at hdigits
      cases hdigits
    have hcursor : i.cursor ≤ (i.text.getD []).length := by
      by_contra hcursor
      have hu : i.unread = [] := List.drop_eq_nil_of_le (by omega)
      rw [hu] at hrest
      cases hrest
    have hfed : (i.feed text).unread.dropWhile Text.isBlank = c :: (cs ++ text.toList) := by
      rw [unread_feed hcursor, List.dropWhile_append, hrest]
      rfl
    unfold readNumber
    dsimp only
    rw [hfed, List.takeWhile_cons_of_neg (by simp [hc])]
    rfl
  · cases h

end Input

namespace Op

variable {op : Op} {size : Nat} {s s' : State} {f : Fault}

theorem Frame.of_input_eq (hp : s'.position = s.position) (ho : s'.obstructions = s.obstructions)
    (hs : s'.steps = s.steps) (hi : s'.input = s.input) : Frame s s' :=
  ⟨hp, ho, hs, 0, Nat.zero_le _, hi⟩

theorem exists_of_pop {op' : Op} {k : Word × State → State} (h : (s.pop op').map k = .ok s') :
    ∃ a rest, s' = k (a, { s with stack := rest }) := by
  unfold State.pop at h
  split at h
  · cases h
    exact ⟨_, _, rfl⟩
  · cases h

theorem exists_of_combine {op' : Op} {k : Word → Word → Word} (h : s.combine op' k = .ok s') :
    ∃ stack, s' = { s with stack } := by
  unfold State.combine at h
  split at h
  · cases h
    exact ⟨_, rfl⟩
  · cases h

theorem exists_of_combineNonzero {op' : Op} {zero : Fault} {k : Word → Word → Word}
    (h : s.combineNonzero op' zero k = .ok s') : ∃ stack, s' = { s with stack } := by
  unfold State.combineNonzero at h
  split at h
  · split at h
    · cases h
    · cases h
      exact ⟨_, rfl⟩
  · cases h

theorem exists_of_roll (h : s.roll = .ok s') : ∃ stack, s' = { s with stack } := by
  unfold State.roll at h
  split at h
  · split at h
    · cases h
      exact ⟨_, rfl⟩
    · cases h
  · cases h

theorem exists_of_writeChar {op' : Op} (h : ((s.pop op').bind fun r => r.2.writeChar r.1) = .ok s') :
    ∃ c rest, s' = ({ s with stack := rest } : State).write c := by
  unfold State.pop at h
  split at h
  · change State.writeChar _ _ = _ at h
    unfold State.writeChar at h
    split at h
    · cases h
      exact ⟨_, _, rfl⟩
    · cases h
  · cases h

theorem perform_frame (h : op.perform size s = .ok s') : Frame s s' := by
  cases op with
  | none | push =>
    cases h
    exact .of_input_eq rfl rfl rfl rfl
  | add | subtract | multiply | greater =>
    obtain ⟨stack, rfl⟩ := exists_of_combine h
    exact .of_input_eq rfl rfl rfl rfl
  | divide | mod =>
    obtain ⟨stack, rfl⟩ := exists_of_combineNonzero h
    exact .of_input_eq rfl rfl rfl rfl
  | pop | not | pointer | duplicate | outNumber =>
    obtain ⟨a, rest, rfl⟩ := exists_of_pop h
    exact .of_input_eq rfl rfl rfl rfl
  | switch =>
    obtain ⟨a, rest, rfl⟩ := exists_of_pop h
    dsimp only
    split <;> exact .of_input_eq rfl rfl rfl rfl
  | roll =>
    obtain ⟨stack, rfl⟩ := exists_of_roll h
    exact .of_input_eq rfl rfl rfl rfl
  | inNumber =>
    change s.input.readNumber.map _ = _ at h
    cases hr : s.input.readNumber with
    | error f =>
      rw [hr] at h
      cases h
    | ok r =>
      rw [hr] at h
      cases h
      obtain ⟨n, hn, hi⟩ := Input.readNumber_eq_ok hr
      exact ⟨rfl, rfl, rfl, n, hn, hi⟩
  | inChar =>
    change s.input.readChar.map _ = _ at h
    cases hr : s.input.readChar with
    | error f =>
      rw [hr] at h
      cases h
    | ok r =>
      rw [hr] at h
      cases h
      obtain ⟨hc, hi⟩ := Input.readChar_eq_ok hr
      exact ⟨rfl, rfl, rfl, 1, List.length_pos_of_mem (List.mem_of_head? hc), hi⟩
  | outChar =>
    obtain ⟨c, rest, rfl⟩ := exists_of_writeChar h
    exact .of_input_eq rfl rfl rfl rfl

/-- Only the two reading operations look at the input. -/
theorem perform_input (hn : op ≠ .inNumber) (hc : op ≠ .inChar) (i : Input) :
    op.perform size { s with input := i } =
      (op.perform size s).map fun s' => { s' with input := i } := by
  obtain ⟨hd, p, stack, n, out, input, steps⟩ := s
  cases op with
  | inNumber => exact absurd rfl hn
  | inChar => exact absurd rfl hc
  | none | push => rfl
  | add | subtract | multiply | greater =>
    rcases stack with _ | ⟨a, _ | ⟨b, rest⟩⟩ <;> rfl
  | divide | mod =>
    rcases stack with _ | ⟨a, _ | ⟨b, rest⟩⟩
    · rfl
    · rfl
    · simp only [perform, State.combineNonzero]
      split <;> rfl
  | pop | not | pointer | duplicate | outNumber => cases stack <;> rfl
  | switch =>
    cases stack with
    | nil => rfl
    | cons a rest =>
      simp only [perform, State.pop, Except.map]
      split <;> rfl
  | roll =>
    rcases stack with _ | ⟨a, _ | ⟨b, rest⟩⟩
    · rfl
    · rfl
    · simp only [perform, State.roll]
      split <;> rfl
  | outChar =>
    cases stack with
    | nil => rfl
    | cons a rest =>
      simp only [perform, State.pop, Except.bind, State.writeChar]
      split <;> rfl

/-- A fault that does not ask for input stays when input arrives. -/
theorem perform_feed_error (h : op.perform size s = .error f) (hf : f.wantsInput = false)
    (text : String) : op.perform size (s.feed text) = .error f := by
  by_cases hn : op = .inNumber
  · subst hn
    change s.input.readNumber.map _ = _ at h
    change (s.input.feed text).readNumber.map _ = _
    cases hr : s.input.readNumber with
    | ok r =>
      rw [hr] at h
      cases h
    | error f' =>
      rw [hr] at h
      obtain rfl := Except.error.inj h
      have hd : ∃ c, f' = .notDigit c := by
        unfold Input.readNumber at hr
        dsimp only at hr
        split at hr <;> cases hr
        · cases hf
        · cases hf
        · exact ⟨_, rfl⟩
      obtain ⟨c, rfl⟩ := hd
      rw [Input.readNumber_feed hr]
      rfl
  · by_cases hc : op = .inChar
    · subst hc
      change s.input.readChar.map _ = _ at h
      unfold Input.readChar at h
      split at h <;> cases h <;> cases hf
    · rw [State.feed, perform_input hn hc, h]
      rfl

/-- Operations one after another, each on leaving a region of its size. The first fault ends them. -/
def performAll (tasks : List (Op × Nat)) : Handler Unit := tasks.forM fun t => t.1.handler t.2

theorem performAll_cons_of_ok (h : op.perform size s = .ok s') (tasks : List (Op × Nat)) :
    (performAll ((op, size) :: tasks)).run s = (performAll tasks).run s' :=
  Handler.run_bind_of_ok (run_handler_eq_ok_iff.2 h)

theorem exists_of_map_fst_eq_cons {tasks : List (Op × Nat)} {ops : List Op}
    (h : tasks.map (·.1) = op :: ops) :
    ∃ size rest, tasks = (op, size) :: rest ∧ rest.map (·.1) = ops := by
  obtain ⟨⟨op, size⟩, rest, rfl, rfl, hrest⟩ := List.map_eq_cons_iff.1 h
  exact ⟨size, rest, rfl, hrest⟩

end Op
end Piet
