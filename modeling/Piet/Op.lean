import Piet.Color

/-! Operations and the color change that encodes each of them. -/
namespace Piet

inductive Op where
  | none | push | pop
  | add | subtract | multiply
  | divide | mod | not
  | greater | pointer | switch
  | duplicate | roll | inNumber
  | inChar | outNumber | outChar
  deriving DecidableEq

/-- Steps from one color of the cycle to another, counted forwards on both axes. -/
structure Delta where
  darkness : Fin 3
  hue : Fin 6
  deriving DecidableEq

namespace Delta

/-- Subtraction wraps, so only the distance along the cycle counts. -/
def between (h : Hue) (l : Lightness) (h' : Hue) (l' : Lightness) : Delta :=
  ⟨l'.index - l.index, h'.index - h.index⟩

def all : List Delta :=
  (List.finRange 3).flatMap fun d => (List.finRange 6).map fun h => ⟨d, h⟩

end Delta

namespace Op

def all : List Op :=
  [.none, .push, .pop, .add, .subtract, .multiply, .divide, .mod, .not, .greater, .pointer, .switch,
    .duplicate, .roll, .inNumber, .inChar, .outNumber, .outChar]

def name : Op → String
  | .none => "none"
  | .push => "push"
  | .pop => "pop"
  | .add => "add"
  | .subtract => "subtract"
  | .multiply => "multiply"
  | .divide => "divide"
  | .mod => "mod"
  | .not => "not"
  | .greater => "greater"
  | .pointer => "pointer"
  | .switch => "switch"
  | .duplicate => "duplicate"
  | .roll => "roll"
  | .inNumber => "in(number)"
  | .inChar => "in(char)"
  | .outNumber => "out(number)"
  | .outChar => "out(char)"

/-- A row for each step of hue, a column for each step of darkness. -/
def ofDelta (d : Delta) : Op :=
  match d.hue, d.darkness with
  | 0, 0 => .none
  | 0, 1 => .push
  | 0, 2 => .pop
  | 1, 0 => .add
  | 1, 1 => .subtract
  | 1, 2 => .multiply
  | 2, 0 => .divide
  | 2, 1 => .mod
  | 2, 2 => .not
  | 3, 0 => .greater
  | 3, 1 => .pointer
  | 3, 2 => .switch
  | 4, 0 => .duplicate
  | 4, 1 => .roll
  | 4, 2 => .inNumber
  | 5, 0 => .inChar
  | 5, 1 => .outNumber
  | 5, 2 => .outChar

end Op
end Piet
