import Piet.Operation
import Piet.Record

/-! Single steps of a program. -/
namespace Piet

/-- What a call answered, the state it left and what it logged. -/
structure Outcome (α : Type) where
  result : Except Error α
  state : State
  log : List Record

/-- Obstructions in a row that end a program. -/
def State.maxObstructions : Int := 8

/-- A program with a black origin never runs; any other ends when every way out has been tried. -/
def State.terminated (s : State) (g : Grid) : Bool :=
  g.colorAt .origin matches .ok .black || State.maxObstructions ≤ s.obstructions

namespace Grid

/-- The state before the first step, unless the origin has no color. -/
def launch (g : Grid) (input : Option String) : Except Error (State × List Record) :=
  (g.colorAt .origin).map fun c => (.initial input, if c = .black then [.blackOrigin] else [])

def obstruct (g : Grid) (s : State) (exit : Position) (target : Option Position) :
    Outcome (Option Op) :=
  let s' := { s with
    heading := s.heading.recover s.obstructions
    obstructions := s.obstructions + 1 }
  { result := .ok none
    state := s'
    log := .blocked s.position exit target s'.obstructions s'.heading ::
      if s'.terminated g then [.halted s'.steps s'.output] else [] }

/-- The counter is set back before the operation runs; the position and the steps follow it. -/
def move (m : Move) : Handler (Option Op) := do
  modify ({ · with obstructions := 0 })
  m.op.handler m.size
  modify fun s => { s with position := m.target, steps := s.steps + 1 }
  return some m.op

def cross (s : State) (m : Move) : Outcome (Option Op) :=
  let log := [.crossing s.position m]
  match (move m).run s with
  | .ok op s' => ⟨.ok op, s', log⟩
  | .error e s' => ⟨.error e, s', log⟩

/-- The operation that ran; none if the way was blocked or the program has ended. -/
def step (g : Grid) (s : State) : Outcome (Option Op) :=
  if s.terminated g then ⟨.ok none, s, []⟩
  else match g.passage s.position s.heading with
    | .error e => ⟨.error e, s, []⟩
    | .ok (.blocked exit target) => g.obstruct s exit target
    | .ok (.crossing m) => cross s m

end Grid
end Piet
