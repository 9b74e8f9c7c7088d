import Piet.Error

/-! Regions of one color and the pixel through which a walker leaves them. -/
namespace Piet

/-- A rectangle of pixels, by the least and greatest coordinates in it. -/
structure Box where
  minX : Int
  maxX : Int
  minY : Int
  maxY : Int
  deriving DecidableEq

namespace Box

def single (p : Position) : Box := ⟨p.x, p.x, p.y, p.y⟩

/-- Grow just enough to hold one more pixel. -/
def extend (b : Box) (p : Position) : Box :=
  ⟨min b.minX p.x, max b.maxX p.x, min b.minY p.y, max b.maxY p.y⟩

end Box

/-- Each member is listed once. The box is stated, not computed. -/
structure Region where
  color : Color
  members : List Position
  box : Box

inductive Axis where
  | x | y
  deriving DecidableEq

/-- The exit is the pixel of the edge with the greatest or least coordinate on this axis. -/
structure ExitRule where
  axis : Axis
  pickMax : Bool
  deriving DecidableEq

/-- The pixel a walker leaves from, with the number of pixels left behind. -/
structure Exit where
  position : Position
  size : Nat
  deriving DecidableEq

def Axis.name : Axis → String
  | .x => "x"
  | .y => "y"

def Position.coordinate (p : Position) : Axis → Int
  | .x => p.x
  | .y => p.y

/-- The axis runs along the edge ahead, and the chooser picks its end on the left or right hand. -/
def Heading.exitRule (h : Heading) : ExitRule :=
  match h.direction, h.chooser with
  | .right, .left => ⟨.y, false⟩
  | .right, .right => ⟨.y, true⟩
  | .down, .left => ⟨.x, true⟩
  | .down, .right => ⟨.x, false⟩
  | .left, .left => ⟨.y, true⟩
  | .left, .right => ⟨.y, false⟩
  | .up, .left => ⟨.x, false⟩
  | .up, .right => ⟨.x, true⟩

def ExitRule.pick? (r : ExitRule) (candidates : List Position) : Option Position :=
  if r.pickMax then candidates.maxOn? (·.coordinate r.axis)
  else candidates.minOn? (·.coordinate r.axis)

namespace Region

/-- Members may be given in any order and more than once. -/
def ofMembers (color : Color) (members : List Position) (box : Box) : Region :=
  ⟨color, members.eraseDups, box⟩

def size (r : Region) : Nat := r.members.length

def contains (r : Region) (p : Position) : Bool := r.members.contains p

/-- Whether a pixel lies on the side of the stated box that a direction faces. -/
def onEdge (r : Region) : Direction → Position → Bool
  | .right, p => p.x = r.box.maxX
  | .down, p => p.y = r.box.maxY
  | .left, p => p.x = r.box.minX
  | .up, p => p.y = r.box.minY

/-- Members on the side that the direction faces; they need not touch each other. -/
def edge (r : Region) (d : Direction) : List Position := r.members.filter (r.onEdge d)

def exit (r : Region) (h : Heading) : Except Error Exit :=
  match h.exitRule.pick? (r.edge h.direction) with
  | some p => .ok ⟨p, r.size⟩
  | none => match r.members.min? with
    | some p => .error (.noEdge p h.direction)
    | none => .error .emptyRegion

end Region
end Piet
