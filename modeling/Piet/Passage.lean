import Piet.Fill

/-! What a walker meets on leaving the region it stands in. -/
namespace Piet

/-- A step across the border of two regions, and the operation that the change of color encodes. -/
structure Move where
  exit : Position
  size : Nat
  exitColor : Color
  target : Position
  entryColor : Color
  op : Op
  deriving DecidableEq

/-- Black, the far sides of the canvas and what would lie below zero stand in the way alike; only in
the last case there is no target. -/
inductive Passage where
  | blocked (exit : Position) (target : Option Position)
  | crossing (move : Move)
  deriving DecidableEq

/-- Where a walker would go from a position. Nothing moves yet. -/
def Grid.passage (g : Grid) (p : Position) (h : Heading) : Except Error Passage :=
  (g.region p).bind fun region =>
  (region.exit h).bind fun exit =>
  match exit.position.next? h.direction with
  | none => .ok (.blocked exit.position none)
  | some target =>
    if target ∈ g then
      (g.colorAt target).bind fun entry =>
      if entry = .black then .ok (.blocked exit.position (some target))
      else (Op.ofColors region.color entry).map fun op =>
        .crossing ⟨exit.position, exit.size, region.color, target, entry, op⟩
    else .ok (.blocked exit.position (some target))

end Piet
