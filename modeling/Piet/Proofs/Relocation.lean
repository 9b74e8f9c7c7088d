import Piet.Proofs.Step
import Mathlib.Data.List.Forall2

/-! Walkers at other places. Where two walkers find the same way out, they take the same step,
wherever they stand and whichever way they face; only what a push pushes depends on the region that
is left. -/
namespace Piet

namespace Direction

theorem clockwise_zero (d : Direction) : d.clockwise 0 = d := rfl

theorem clockwise_one (d : Direction) : d.clockwise 1 = d.turn := rfl

theorem turn_repeat (n : Nat) (d : Direction) :
    (Nat.repeat turn n d).turn = Nat.repeat turn n d.turn := by
  induction n with
  | zero => rfl
  | succ n ih => exact congrArg turn ih

theorem turn_clockwise (d : Direction) (n : Int) : (d.clockwise n).turn = d.turn.clockwise n :=
  turn_repeat _ d

theorem clockwise_comm (d : Direction) (m n : Int) :
    (d.clockwise m).clockwise n = (d.clockwise n).clockwise m := by
  have h : ∀ k e, (Nat.repeat turn k e).clockwise n = Nat.repeat turn k (e.clockwise n) := by
    intro k e
    induction k with
    | zero => rfl
    | succ k ih =>
      change (turn _).clockwise n = turn _
      rw [← turn_clockwise, ih]
  exact h _ d

end Direction

/-- The same heading, turned clockwise. -/
def Heading.clockwise (hd : Heading) (turns : Int) : Heading :=
  { hd with direction := hd.direction.clockwise turns }

theorem Heading.recover_clockwise (hd : Heading) (turns n : Int) :
    (hd.clockwise turns).recover n = (hd.recover n).clockwise turns := by
  unfold recover
  split
  · rfl
  · unfold clockwise
    dsimp only
    rw [Direction.turn_clockwise]

/-- The same state of a walker who stands at `p`, turned clockwise. -/
def State.relocate (s : State) (turns : Int) (p : Position) : State :=
  { s with position := p, heading := s.heading.clockwise turns }

/-- No operation looks at the position, and none looks at the heading but to turn it. -/
theorem Op.perform_relocate (op : Op) (size : Nat) (s : State) (turns : Int) (p : Position) :
    op.perform size (s.relocate turns p) = (op.perform size s).map (·.relocate turns p) := by
  obtain ⟨hd, q, stack, n, out, input, steps⟩ := s
  cases op with
  | none | push => rfl
  | add | subtract | multiply | greater =>
    rcases stack with _ | ⟨a, _ | ⟨b, rest⟩⟩ <;> rfl
  | divide | mod =>
    rcases stack with _ | ⟨a, _ | ⟨b, rest⟩⟩
    · rfl
    · rfl
    · simp only [perform, State.relocate, State.combineNonzero]
      split <;> rfl
  | pop | not | duplicate | outNumber => cases stack <;> rfl
  | pointer =>
    cases stack with
    | nil => rfl
    | cons a rest =>
      simp only [perform, State.relocate, State.pop, Except.map, Heading.clockwise]
      rw [Direction.clockwise_comm]
  | switch =>
    cases stack with
    | nil => rfl
    | cons a rest =>
      simp only [perform, State.relocate, State.pop, Except.map]
      split <;> rfl
  | roll =>
    rcases stack with _ | ⟨a, _ | ⟨b, rest⟩⟩
    · rfl
    · rfl
    · simp only [perform, State.relocate, State.roll]
      split <;> rfl
  | inNumber =>
    change input.readNumber.map _ = (input.readNumber.map _).map _
    cases input.readNumber <;> rfl
  | inChar =>
    change input.readChar.map _ = (input.readChar.map _).map _
    cases input.readChar <;> rfl
  | outChar =>
    cases stack with
    | nil => rfl
    | cons a rest =>
      simp only [perform, State.relocate, State.pop, Except.bind, State.writeChar]
      split <;> rfl

theorem Op.perform_size {op : Op} (h : op ≠ .push) (size size' : Nat) (s : State) :
    op.perform size s = op.perform size' s := by
  cases op with
  | push => exact absurd rfl h
  | _ => rfl

/-- Ways out that a step does not tell apart, but the second leads out of a region `n` times as
large. -/
inductive Passage.Alike (T : Position → Position → Prop) (n : Nat) :
    Except Error Passage → Except Error Passage → Prop where
  | failed (e : Error) : Alike T n (.error e) (.error e)
  | blocked {x x' : Position} {t t' : Option Position} :
      Alike T n (.ok (.blocked x t)) (.ok (.blocked x' t'))
  | crossing {m m' : Move} (op : m'.op = m.op) (size : m'.size = n * m.size)
      (target : T m.target m'.target) : Alike T n (.ok (.crossing m)) (.ok (.crossing m'))

/-- Two lines of a log that tell the same of other places and headings. -/
inductive Record.Alike : Record → Record → Prop where
  | crossing {p p' : Position} {m m' : Move} (op : m'.op = m.op) :
      Alike (.crossing p m) (.crossing p' m')
  | blocked {p p' x x' : Position} {t t' : Option Position} {n : Int} {hd hd' : Heading} :
      Alike (.blocked p x t n hd) (.blocked p' x' t' n hd')
  | halted {steps : Nat} {output : String} : Alike (.halted steps output) (.halted steps output)
  | blackOrigin : Alike .blackOrigin .blackOrigin

namespace Grid

/-- What a step makes of the way out that it finds. -/
def proceed (g : Grid) (s : State) : Except Error Passage → Outcome (Option Op)
  | .error e => ⟨.error e, s, []⟩
  | .ok (.blocked exit target) => g.obstruct s exit target
  | .ok (.crossing m) => cross s m

/-- A step of a program that has not ended. -/
def advance (g : Grid) (s : State) : Outcome (Option Op) :=
  g.proceed s (g.passage s.position s.heading)

/-- Steps from `s` and of a walker at `p'` who is turned clockwise; after a push the top values
differ. -/
inductive Twins (g : Grid) (T : Position → Position → Prop) (n : Nat) (turns : Int) (s : State)
    (p' : Position) : Outcome (Option Op) → Outcome (Option Op) → Prop where
  | stayed {result : Except Error (Option Op)} {t : State} {log log' : List Record}
      (hr : ∀ op, result ≠ .ok (some op)) (hp : t.position = s.position) :
      Twins g T n turns s p' ⟨result, t, log⟩ ⟨result, t.relocate turns p', log'⟩
  | moved {op : Op} {t : State} {q' : Position} {log log' : List Record} (hop : op ≠ .push)
      (hq : T t.position q') :
      Twins g T n turns s p' ⟨.ok (some op), t, log⟩ ⟨.ok (some op), t.relocate turns q', log'⟩
  | pushed {m : Move} {t : State} {q' : Position} {log log' : List Record}
      (hm : g.passage s.position s.heading = .ok (.crossing m)) (hq : T t.position q')
      (hs : t.stack = .ofNat m.size :: s.stack) :
      Twins g T n turns s p' ⟨.ok (some .push), t, log⟩ ⟨.ok (some .push),
        { t.relocate turns q' with stack := .ofNat (n * m.size) :: s.stack }, log'⟩

variable {g g' : Grid} {T : Position → Position → Prop} {n : Nat} {turns : Int} {s : State}
  {p' : Position}

theorem step_of_running (h : s.terminated g = false) : g.step s = g.advance s := by
  unfold step advance
  rw [if_neg (by simp [h])]
  cases g.passage s.position s.heading with
  | error e => rfl
  | ok psg => cases psg <;> rfl

theorem step_of_terminated (h : s.terminated g = true) : g.step s = ⟨.ok none, s, []⟩ := by
  unfold step
  rw [if_pos h]

theorem obstruct_relocate (g g' : Grid) (s : State) (turns : Int) (p' x x' : Position)
    (t t' : Option Position) :
    (g'.obstruct (s.relocate turns p') x' t').state =
      (g.obstruct s x t).state.relocate turns p' := by
  change ({ s.relocate turns p' with
    heading := (s.heading.clockwise turns).recover s.obstructions
    obstructions := s.obstructions + 1 } : State) = _
  rw [Heading.recover_clockwise]
  rfl

theorem cross_of_push {m : Move} (hm : m.op = .push) (s : State) :
    cross s m = ⟨.ok (some .push), { s with
      position := m.target
      obstructions := 0
      steps := s.steps + 1
      stack := .ofNat m.size :: s.stack }, [.crossing s.position m]⟩ := by
  have hop : m.op.perform m.size { s with obstructions := 0 } =
      .ok { s with obstructions := 0, stack := .ofNat m.size :: s.stack } := by
    rw [hm]
    rfl
  rw [cross_of_ok hop, hm]

theorem cross_twins {m m' : Move} (hm : g.passage s.position s.heading = .ok (.crossing m))
    (op : m'.op = m.op) (size : m'.size = n * m.size) (target : T m.target m'.target) :
    Twins g T n turns s p' (cross s m) (cross (s.relocate turns p') m') := by
  -- Push alone looks at the size of the region.
  by_cases hop : m.op = .push
  · rw [cross_of_push hop, cross_of_push (op.trans hop), size]
    exact .pushed hm target rfl
  · have hmoved : m'.op.perform m'.size { s.relocate turns p' with obstructions := 0 } =
        (m.op.perform m.size { s with obstructions := 0 }).map (·.relocate turns p') := by
      rw [op, Op.perform_size hop m'.size m.size]
      exact Op.perform_relocate m.op m.size { s with obstructions := 0 } turns p'
    cases ho : m.op.perform m.size { s with obstructions := 0 } with
    | ok t =>
      rw [ho] at hmoved
      rw [cross_of_ok ho, cross_of_ok hmoved, op]
      exact .moved hop target
    | error f =>
      rw [ho] at hmoved
      rw [cross_of_error ho, cross_of_error hmoved]
      exact .stayed (fun _ h => nomatch h) rfl

/-- Where the ways out are alike, so are the steps. -/
theorem advance_twins (h : Passage.Alike T n (g.passage s.position s.heading)
    (g'.passage p' (s.heading.clockwise turns))) :
    Twins g T n turns s p' (g.advance s) (g'.advance (s.relocate turns p')) := by
  change Twins g T n turns s p' (g.proceed s _)
    (g'.proceed (s.relocate turns p') (g'.passage p' (s.heading.clockwise turns)))
  generalize ha : g.passage s.position s.heading = a at h ⊢
  generalize g'.passage p' (s.heading.clockwise turns) = a' at h ⊢
  cases h with
  | failed e => exact .stayed (fun _ h => nomatch h) rfl
  | @blocked x x' t t' =>
    have hstate := obstruct_relocate g g' s turns p' x x' t t'
    change Twins g T n turns s p' ⟨.ok none, _, _⟩ ⟨.ok none, (g'.obstruct _ x' t').state, _⟩
    rw [hstate]
    exact .stayed (fun _ h => nomatch h) rfl
  | crossing op size target => exact cross_twins ha op size target

/-- Programs end together if both or neither start on black. -/
theorem terminated_congr {s' : State}
    (horigin : g'.colorAt .origin = .ok .black ↔ g.colorAt .origin = .ok .black)
    (h : s'.obstructions = s.obstructions) : s'.terminated g' = s.terminated g := by
  rw [Bool.eq_iff_iff, State.terminated_iff, State.terminated_iff, horigin, h]

theorem step_twins (horigin : g'.colorAt .origin = .ok .black ↔ g.colorAt .origin = .ok .black)
    (h : s.terminated g = false → Passage.Alike T n (g.passage s.position s.heading)
      (g'.passage p' (s.heading.clockwise turns))) :
    Twins g T n turns s p' (g.step s) (g'.step (s.relocate turns p')) := by
  have ht : (s.relocate turns p').terminated g' = s.terminated g := terminated_congr horigin rfl
  cases hs : s.terminated g with
  | true =>
    rw [hs] at ht
    rw [step_of_terminated hs, step_of_terminated ht]
    exact .stayed (fun _ h => nomatch h) rfl
  | false =>
    rw [hs] at ht
    rw [step_of_running hs, step_of_running ht]
    exact advance_twins (h hs)

theorem obstruct_log (horigin : g'.colorAt .origin = .ok .black ↔ g.colorAt .origin = .ok .black)
    (x x' : Position) (t t' : Option Position) : List.Forall₂ Record.Alike
      (g.obstruct s x t).log (g'.obstruct (s.relocate turns p') x' t').log := by
  have ht : (g'.obstruct (s.relocate turns p') x' t').state.terminated g' =
      (g.obstruct s x t).state.terminated g := terminated_congr horigin rfl
  unfold obstruct at ht ⊢
  dsimp only at ht ⊢
  rw [ht]
  refine .cons .blocked ?_
  split
  · exact .cons .halted .nil
  · exact .nil

/-- Such steps also log the same, but for the places. -/
theorem step_log (horigin : g'.colorAt .origin = .ok .black ↔ g.colorAt .origin = .ok .black)
    (h : s.terminated g = false → Passage.Alike T n (g.passage s.position s.heading)
      (g'.passage p' (s.heading.clockwise turns))) :
    List.Forall₂ Record.Alike (g.step s).log (g'.step (s.relocate turns p')).log := by
  have ht : (s.relocate turns p').terminated g' = s.terminated g := terminated_congr horigin rfl
  cases hs : s.terminated g with
  | true =>
    rw [hs] at ht
    rw [step_of_terminated hs, step_of_terminated ht]
    exact .nil
  | false =>
    rw [hs] at ht
    rw [step_of_running hs, step_of_running ht]
    have ha := h hs
    change List.Forall₂ Record.Alike (g.proceed s _).log (g'.proceed (s.relocate turns p')
      (g'.passage p' (s.heading.clockwise turns))).log
    generalize g.passage s.position s.heading = a at ha ⊢
    generalize g'.passage p' (s.heading.clockwise turns) = a' at ha ⊢
    cases ha with
    | failed e => exact .nil
    | blocked => exact obstruct_log horigin _ _ _ _
    | @crossing m m' op =>
      change List.Forall₂ _ (cross s m).log (cross _ m').log
      rw [cross_log, cross_log]
      exact .cons (.crossing op) .nil

theorem Twins.result {o o' : Outcome (Option Op)} (h : Twins g T n turns s p' o o') :
    o'.result = o.result := by
  cases h <;> rfl

/-- Unless a push tells the regions apart, nothing but their places tells the twins apart. -/
theorem Twins.state {o o' : Outcome (Option Op)} (h : Twins g T n turns s p' o o')
    (hn : o.result = .ok (some .push) → n = 1) :
    ((∀ op, o.result ≠ .ok (some op)) ∧ o.state.position = s.position ∧
      o'.state = o.state.relocate turns p') ∨
    ∃ op q', o.result = .ok (some op) ∧ T o.state.position q' ∧
      o'.state = o.state.relocate turns q' := by
  cases h with
  | stayed hr hp => exact Or.inl ⟨hr, hp, rfl⟩
  | moved hop hq => exact Or.inr ⟨_, _, rfl, hq, rfl⟩
  | @pushed m t q' _ _ hm hq hs =>
    obtain rfl := hn rfl
    refine Or.inr ⟨_, q', rfl, hq, ?_⟩
    change ({ t.relocate turns q' with stack := .ofNat (1 * m.size) :: s.stack } : State) = _
    rw [Nat.one_mul, ← hs]
    rfl

end Grid
end Piet
