import Piet.Grid
import Piet.Region

/-! Flood fill: the pixels of one code that are joined to a seed. Pixels are found in breadth-first
order and marked when found, so none is found twice. -/
namespace Piet

/-- Found pixels in order of discovery. The first `expanded` of them have had their neighbours
looked at and lie in the box; the others still wait. -/
structure Fill where
  found : Array Position
  expanded : Nat
  seen : Array Bool
  box : Box

namespace Fill

/-- Pixels whose neighbours have been looked at. -/
def members (f : Fill) : List Position := f.found.toList.take f.expanded

/-- Pixels that wait for their turn, the next one first. -/
def queue (f : Fill) : List Position := f.found.toList.drop f.expanded

def start (g : Grid) (seed : Position) : Fill where
  found := #[seed]
  expanded := 0
  seen := (Array.replicate (g.width * g.height) false).setIfInBounds (g.index seed) true
  box := .single seed

def isSeen (g : Grid) (f : Fill) (p : Position) : Bool := f.seen.getD (g.index p) false

/-- Neighbours of a pixel that hold the code and are met for the first time. -/
def fresh (g : Grid) (code : Nat) (f : Fill) (p : Position) : List Position :=
  p.neighbours.filter fun q => g.codeAt? q = some code && !f.isSeen g q

/-- One turn: the box takes in the pixel, and its fresh neighbours are marked and join the end of
the queue. -/
def expand (g : Grid) (code : Nat) (f : Fill) (p : Position) : Fill :=
  let new := f.fresh g code p
  { found := f.found.appendList new
    expanded := f.expanded + 1
    seen := new.foldl (fun seen q => seen.setIfInBounds (g.index q) true) f.seen
    box := f.box.extend p }

/-- At most this many turns, fewer if the queue runs empty. -/
def run (g : Grid) (code : Nat) : Nat → Fill → Fill
  | 0, f => f
  | turns + 1, f =>
    match f.found[f.expanded]? with
    | some p => run g code turns (f.expand g code p)
    | none => f

end Fill

namespace Grid

/-- The region of a pixel. No pixel is found twice, so as many turns as the grid has pixels are
enough. -/
def region (g : Grid) (seed : Position) : Except Error Region :=
  (g.colorAt seed).map fun color =>
    let f := (Fill.start g seed).run g ((g.codeAt? seed).getD 0) (g.width * g.height)
    ⟨color, f.found.toList, f.box⟩

end Grid
end Piet
