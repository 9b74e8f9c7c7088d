/-! Positions on the canvas: x grows to the right and y downwards. -/
namespace Piet

structure Position where
  x : Int
  y : Int
  deriving DecidableEq

namespace Position

def origin : Position := ⟨0, 0⟩

instance : Add Position := ⟨fun p q => ⟨p.x + q.x, p.y + q.y⟩⟩

/-- Positions are ordered by column and then by row. -/
instance : LE Position := ⟨fun p q => p.x < q.x ∨ p.x = q.x ∧ p.y ≤ q.y⟩

instance : DecidableLE Position :=
  fun p q => inferInstanceAs (Decidable (p.x < q.x ∨ p.x = q.x ∧ p.y ≤ q.y))

instance : Min Position := minOfLe

def neighbours (p : Position) : List Position :=
  [p + ⟨1, 0⟩, p + ⟨0, 1⟩, p + ⟨-1, 0⟩, p + ⟨0, -1⟩]

def text (p : Position) : String := s!"({p.x}, {p.y})"

@[simp] theorem add_x (p q : Position) : (p + q).x = p.x + q.x := rfl

@[simp] theorem add_y (p q : Position) : (p + q).y = p.y + q.y := rfl

theorem le_iff {p q : Position} : p ≤ q ↔ p.x < q.x ∨ p.x = q.x ∧ p.y ≤ q.y := Iff.rfl

end Position
end Piet
