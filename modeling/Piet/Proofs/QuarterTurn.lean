import Piet.Proofs.Cover

/-! Turned pictures. A picture that is turned by a quarter runs as it did, by a walker who stands on
the turned pixel and faces the turned way. -/
namespace Piet

/-- Where a pixel comes to lie when a picture of the given height is turned clockwise. -/
def Position.quarterTurn (p : Position) (height : Nat) : Position := ⟨height - 1 - p.y, p.x⟩

/-- Where it came from. -/
def Position.unturn (p : Position) (height : Nat) : Position := ⟨p.y, height - 1 - p.x⟩

/-- The picture, turned clockwise by a quarter. -/
def Grid.quarterTurn (g : Grid) : Grid := g.pullback g.height g.width (·.unturn g.height)

/-- The walker is turned together with the picture. -/
def State.quarterTurn (s : State) (g : Grid) : State :=
  { s with
    position := s.position.quarterTurn g.height
    heading.direction := s.heading.direction.turn }

theorem Position.unturn_quarterTurn (p : Position) (height : Nat) :
    (p.quarterTurn height).unturn height = p := by
  ext
  · rfl
  · change (height : Int) - 1 - (height - 1 - p.y) = p.y
    omega

theorem Position.quarterTurn_unturn (p : Position) (height : Nat) :
    (p.unturn height).quarterTurn height = p := by
  ext
  · change (height : Int) - 1 - (height - 1 - p.x) = p.x
    omega
  · rfl

theorem projection_unturn (height : Nat) : Projection 1 1 (·.unturn height) := by
  refine .of_inverse (fun p => p.unturn_quarterTurn height) (fun p => p.quarterTurn_unturn height)
    ?_ ?_
  · intro d p
    cases d <;> ext <;> simp only [Position.unturn, Direction.clockwise_one, Direction.turn,
      Direction.unit, Position.add_x, Position.add_y] <;> omega
  · intro d p q
    cases d <;> simp only [Position.unturn, Direction.clockwise_one, Direction.turn,
      Position.along_right, Position.along_down, Position.along_left, Position.along_up] <;> omega

namespace Grid

variable {g : Grid} {s : State} {p : Position}

theorem mem_quarterTurn_iff : p ∈ g.quarterTurn ↔ p.unturn g.height ∈ g := by
  rw [mem_iff, mem_iff]
  change (0 ≤ p.x ∧ p.x < g.height) ∧ 0 ≤ p.y ∧ p.y < g.width ↔
    (0 ≤ p.y ∧ p.y < g.width) ∧ 0 ≤ (g.height : Int) - 1 - p.x ∧
      (g.height : Int) - 1 - p.x < g.height
  omega

theorem quarterTurn_covers (g : Grid) : g.quarterTurn.Covers g (·.unturn g.height) :=
  covers_pullback fun _ => mem_quarterTurn_iff.2

theorem codeAt?_quarterTurn (h : p ∈ g) :
    g.quarterTurn.codeAt? (p.quarterTurn g.height) = g.codeAt? p := by
  have hp := p.unturn_quarterTurn g.height
  rw [g.quarterTurn_covers.codeAt?_eq _ (by rwa [hp]), hp]

theorem Validated.quarterTurn (hg : g.Validated) : g.quarterTurn.Validated :=
  hg.pullback hg.height_pos hg.width_pos _

theorem over_quarterTurn_iff {t : State} (h : g.colorAt .origin ≠ .ok .black) :
    g.Over (·.unturn g.height) 1 s t ↔ g.Colored s.position ∧ t = s.quarterTurn g := by
  constructor
  · intro ho
    refine ⟨ho.colored h, ?_⟩
    rw [ho.state, State.quarterTurn, ← ho.position, Position.quarterTurn_unturn]
    rfl
  · rintro ⟨hc, rfl⟩
    exact ⟨fun _ => hc, s.position.unturn_quarterTurn g.height, rfl⟩

/-- A program and its walker may be turned together, unless one of the pictures starts on black. -/
theorem step_quarterTurn (hg : g.Validated) (ho : g.colorAt .origin ≠ .ok .black)
    (ho' : g.quarterTurn.colorAt .origin ≠ .ok .black) (hs : g.Colored s.position) :
    g.quarterTurn.Validated ∧
    ((g.quarterTurn.step (s.quarterTurn g)).result = (g.step s).result ∧
      (g.quarterTurn.step (s.quarterTurn g)).state = (g.step s).state.quarterTurn g) ∧
    ∀ patience calls, Option.Rel
      (List.Forall₂ (Outcome.Agrees Record.Alike fun a b => b = a.quarterTurn g))
      (g.play? patience s calls) (g.quarterTurn.play? patience (s.quarterTurn g) calls) := by
  have hsim := g.quarterTurn_covers.simulates (projection_unturn g.height) hg
    (iff_of_false ho' ho)
  have hover := (over_quarterTurn_iff ho).2 ⟨hs, rfl⟩
  have hturned : ∀ s t, g.Over (·.unturn g.height) 1 s t → t = s.quarterTurn g :=
    fun s t h => ((over_quarterTurn_iff ho).1 h).2
  refine ⟨hg.quarterTurn, ⟨hsim.result hover, hturned _ _ (hsim.step hover fun _ _ _ => rfl)⟩, ?_⟩
  intro patience calls
  exact hsim.play?_mono hover patience calls (fun _ _ _ => rfl) hturned

theorem step_quarterTurn_corridor : corridor.Validated ∧
    corridor.colorAt .origin ≠ .ok .black ∧ corridor.quarterTurn.colorAt .origin ≠ .ok .black ∧
    corridor.Colored .origin ∧
    (corridor.quarterTurn.step ((State.initial none).quarterTurn corridor)).result =
      (corridor.step (.initial none)).result ∧
    (corridor.quarterTurn.step ((State.initial none).quarterTurn corridor)).state =
      (corridor.step (.initial none)).state.quarterTurn corridor := by
  have hg := corridor_accepted.validated
  have ho : corridor.colorAt .origin ≠ .ok .black := by decide
  have ho' : corridor.quarterTurn.colorAt .origin ≠ .ok .black := by decide +kernel
  have hs : corridor.Colored (State.initial none).position := ⟨hg.origin_mem, ho⟩
  obtain ⟨-, hstep, -⟩ := step_quarterTurn hg ho ho' hs
  exact ⟨hg, ho, ho', hs, hstep⟩

end Grid
end Piet
