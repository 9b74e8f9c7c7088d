import Piet.Heading
import Piet.Op
import Piet.Text.Quoted

/-! What can go wrong. A fault is the program's own doing; any other error lies in its picture, or in a
stack whose values were not counted first. -/
namespace Piet

/-- Values of the stack; arithmetic on them wraps. -/
abbrev Word := UInt32

inductive Fault where
  | stackUnderflow (op : Op) (needed held : Nat)
  /-- A roll deeper than what lies below its two operands. -/
  | rollTooDeep (depth available : Nat)
  | divideByZero
  | modByZero
  | notScalar (value : Word)
  /-- The first unread character that is not blank is no digit. -/
  | notDigit (found : Char)
  | endOfInput (op : Op)
  /-- No input was ever attached. -/
  | noInput (op : Op)
  deriving DecidableEq

namespace Fault

def op : Fault → Op
  | stackUnderflow op _ _ => op
  | rollTooDeep _ _ => .roll
  | divideByZero => .divide
  | modByZero => .mod
  | notScalar _ => .outChar
  | notDigit _ => .inNumber
  | endOfInput op => op
  | noInput op => op

def message : Fault → String
  | stackUnderflow op needed held => s!"{op.name} needs {needed} value(s), stack has {held}"
  | rollTooDeep depth available => s!"roll depth {depth} exceeds stack of {available}"
  | divideByZero => "divide by zero"
  | modByZero => "mod by zero"
  | notScalar v =>
    "0x" ++ String.ofList (Text.Hex.lower v.toNat) ++ " is not a Unicode scalar value"
  | notDigit c => "in(number) expected digits, got " ++ Text.Quoted.text c.toString
  | endOfInput op => s!"{op.name} reached end of input"
  | noInput op => s!"{op.name} with no input source attached"

end Fault

inductive Error where
  /-- A color sample of fewer than three numbers. -/
  | shortSample
  | unrecognizedColor (rgb : Rgb) (position : Option Position)
  /-- Black and white have no place on the cycle. -/
  | offCycle (color : Color)
  | invalidSize (width height : Int)
  | bufferSize (bytes : Nat) (width height : Int)
  /-- Sides of an array that is no picture of three channels. -/
  | invalidShape (sides : List Nat)
  | noRows
  | unequalRows (rows : Nat)
  | outOfBounds (position : Position) (width height : Nat)
  | emptyRegion
  /-- No pixel lies on the side that the direction asks for; `least` names the region. -/
  | noEdge (least : Position) (direction : Direction)
  /-- A value was looked at that the stack does not hold. -/
  | noSuchValue
  /-- A value was taken off a stack that holds none. -/
  | emptyStack
  | fault (fault : Fault)
  deriving DecidableEq

namespace Rgb

/-- Each part has at least two hexadecimal digits. -/
def text (c : Rgb) : String :=
  String.ofList ([c.red, c.green, c.blue].flatMap (Text.Hex.upperPadded 2))

end Rgb

namespace Error

/-- Numbers in round brackets; a single one is followed by a comma. -/
def sidesText : List Nat → String
  | [n] => s!"({n},)"
  | ns => "(" ++ String.intercalate ", " (ns.map toString) ++ ")"

def message : Error → String
  | shortSample => "list index out of range"
  | unrecognizedColor rgb none => "Unrecognized color #" ++ rgb.text
  | unrecognizedColor rgb (some p) => "Unrecognized color #" ++ rgb.text ++ " at " ++ p.text
  | offCycle c => s!"{c.name} is not on the hue/lightness cycle"
  | invalidSize w h => s!"Invalid grid size {w}x{h}"
  | bufferSize n w h => s!"Buffer holds {n} bytes, expected {w * h * 3} for {w}x{h} RGB"
  | invalidShape sides => "Expected (h, w, 3) RGB array, got shape " ++ sidesText sides
  | noRows => "not enough values to unpack (expected 2, got 1)"
  | unequalRows n =>
    "setting an array element with a sequence. The requested array has an inhomogeneous shape after "
      ++ s!"1 dimensions. The detected shape was ({n},) + inhomogeneous part."
  | outOfBounds p w h => p.text ++ s!" outside {w}x{h} grid"
  | emptyRegion => "min() arg is an empty sequence"
  | noEdge p d => s!"Region at Position(x={p.x}, y={p.y}) has no {d.name} edge"
  | noSuchValue => "list index out of range"
  | emptyStack => "pop from empty list"
  | fault f => f.message

end Error
end Piet
