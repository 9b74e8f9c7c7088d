import Piet.Input

/-! The state of a running program. -/
namespace Piet

/-- The top is in front. -/
abbrev Stack := List Word

structure State where
  heading : Heading
  position : Position
  stack : Stack
  /-- Steps obstructed in a row. -/
  obstructions : Int
  output : String
  input : Input
  /-- Steps that ended in another region. -/
  steps : Nat
  deriving DecidableEq

namespace State

def initial (input : Option String) : State where
  heading := .initial
  position := .origin
  stack := []
  obstructions := 0
  output := ""
  input := .ofText? input
  steps := 0

def feed (s : State) (text : String) : State := { s with input := s.input.feed text }

/-- One line for each value, numbered from the bottom. -/
def stackText (s : State) : String :=
  String.join (s.stack.reverse.zipIdx.map fun (v, i) =>
    s!"{i}:\t0x" ++ String.ofList (Text.Hex.upper v.toNat) ++ "\n")

end State
end Piet
