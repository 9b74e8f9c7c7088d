import Piet.Position

/-! The direction pointer, the codel chooser and the rule by which an obstruction turns them. -/
namespace Piet

inductive Direction where
  | right | down | left | up
  deriving DecidableEq

/-- The hand on which the exit of a region is sought. -/
inductive Chooser where
  | left | right
  deriving DecidableEq

namespace Direction

def all : List Direction := [.right, .down, .left, .up]

def name : Direction → String
  | .right => "RIGHT"
  | .down => "DOWN"
  | .left => "LEFT"
  | .up => "UP"

def unit : Direction → Position
  | .right => ⟨1, 0⟩
  | .down => ⟨0, 1⟩
  | .left => ⟨-1, 0⟩
  | .up => ⟨0, -1⟩

/-- A quarter turn clockwise as seen on the canvas. -/
def turn : Direction → Direction
  | .right => .down
  | .down => .left
  | .left => .up
  | .up => .right

/-- Only the remainder modulo four counts, so a negative number turns the other way. -/
def clockwise (d : Direction) (turns : Int) : Direction :=
  Nat.repeat turn (turns % 4).toNat d

@[simp] theorem turn_turn_turn_turn (d : Direction) : d.turn.turn.turn.turn = d := by
  cases d <;> rfl

end Direction

namespace Chooser

def all : List Chooser := [.left, .right]

def name : Chooser → String
  | .left => "LEFT"
  | .right => "RIGHT"

def flip : Chooser → Chooser
  | .left => .right
  | .right => .left

@[simp] theorem flip_flip (c : Chooser) : c.flip.flip = c := by cases c <;> rfl

end Chooser

/-- Where a walker faces and which hand leads. -/
structure Heading where
  direction : Direction
  chooser : Chooser
  deriving DecidableEq

namespace Heading

/-- How every program starts out. -/
def initial : Heading := ⟨.right, .left⟩

def all : List Heading := Direction.all.flatMap fun d => Chooser.all.map fun c => ⟨d, c⟩

def text (h : Heading) : String := s!"{h.direction.name}/{h.chooser.name}"

/-- After an even number of obstructions the chooser flips, after an odd number the direction
turns. -/
def recover (h : Heading) (obstructions : Int) : Heading :=
  if obstructions % 2 = 0 then { h with chooser := h.chooser.flip }
  else { h with direction := h.direction.turn }

end Heading

/-- The neighbour one step on; none when that would go below zero. -/
def Position.next? (p : Position) (d : Direction) : Option Position :=
  let q := p + d.unit
  if q.x < 0 ∨ q.y < 0 then none else some q

theorem Position.next?_eq_some_iff {p q : Position} {d : Direction} :
    p.next? d = some q ↔ q = p + d.unit ∧ 0 ≤ q.x ∧ 0 ≤ q.y := by
  unfold next?
  dsimp only
  split
  · next h =>
    constructor
    · intro hs
      cases hs
    · rintro ⟨rfl, hx, hy⟩
      omega
  · next h =>
    constructor
    · intro hs
      have hq : p + d.unit = q := Option.some.inj hs
      subst hq
      exact ⟨rfl, by omega, by omega⟩
    · rintro ⟨rfl, _, _⟩
      rfl

end Piet
