import Piet.Passage

/-! The log of a run: what each step did, in words. -/
namespace Piet

/-- Steps are of interest when debugging; the end of a run is of interest to all. -/
inductive Level where
  | debug | info
  deriving DecidableEq

def Level.name : Level → String
  | .debug => "DEBUG"
  | .info => "INFO"

inductive Record where
  /-- The origin is black, so there is nothing to run. -/
  | blackOrigin
  /-- An operation is about to run; `position` is where the walker stands. -/
  | crossing (position : Position) (move : Move)
  /-- The walker turned to `heading` after so many obstructions in a row. -/
  | blocked (position exit : Position) (target : Option Position) (obstructions : Int)
      (heading : Heading)
  /-- The last obstruction ended the run. -/
  | halted (steps : Nat) (output : String)
  deriving DecidableEq

namespace Record

def level : Record → Level
  | blackOrigin => .info
  | crossing _ _ => .debug
  | blocked _ _ _ _ _ => .debug
  | halted _ _ => .info

def text : Record → String
  | blackOrigin => "Origin pixel is black, nothing to run"
  | crossing p m =>
    p.text ++ " | " ++ m.exit.text ++ "/" ++ m.exitColor.name ++ " => " ++ m.target.text ++ "/" ++
      m.entryColor.name ++ " [" ++ m.op.name ++ "]"
  | blocked p exit target n h =>
    p.text ++ " | " ++ exit.text ++ " => " ++ (target.map Position.text).getD "None" ++
      s!" blocked #{n}, now " ++ h.text
  | halted steps output =>
    s!"Terminated after {steps} steps, output " ++ Text.Quoted.text output

def line (r : Record) : String := r.level.name ++ " pietcore.machine: " ++ r.text

end Record
end Piet
