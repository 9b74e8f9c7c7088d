import Piet.Arguments
import Piet.Load
import Piet.Run

/-! What running a command line leaves behind: an exit status and two texts. -/
namespace Piet

structure Report where
  status : Nat
  stdout : String
  stderr : String
  deriving DecidableEq

/-- Why a run breaks off without a report. -/
inductive Breakdown where
  /-- The input file holds no UTF-8 text. -/
  | undecodableInput
  /-- The name of the input file holds the character NUL. -/
  | nulInName
  /-- A number that was left out had to be compared. -/
  | missingNumber
  deriving DecidableEq

def Breakdown.message : Breakdown → String
  | undecodableInput => "the input file is not UTF-8 text"
  | nulInName => nulMessage
  | missingNumber => "'<' not supported between instances of 'list' and 'int'"

inductive Ending where
  | report (report : Report)
  | brokenOff (cause : Breakdown)
  deriving DecidableEq

namespace Report

def refusal (message : String) : Report := ⟨1, "", message ++ "\n"⟩

end Report

namespace Settings

/-- The text given as an argument and after it that of the file. A file with an empty name is not
asked for. -/
def readInput (s : Settings) (files : Files) : Except TextError (Option String) :=
  match s.inputFile with
  | none => .ok s.input
  | some "" => .ok s.input
  | some name => (files.readText name).map fun text => some (s.input.getD "" ++ text)

/-- The codel size and the greatest number of steps, in the order in which they are checked. -/
def numbers (s : Settings) : Except Ending (Int × Int) :=
  match s.codelSize with
  | none => .error (.brokenOff .missingNumber)
  | some codelSize =>
    if codelSize < 1 then .error (.report (.refusal "Error: codel size must be at least 1"))
    else match s.maxSteps with
      | none => .error (.brokenOff .missingNumber)
      | some maxSteps =>
        if maxSteps < 0 then .error (.report (.refusal "Error: max steps must be 0 or more"))
        else .ok (codelSize, maxSteps)

def limit? (maxSteps : Int) : Option Int := if maxSteps = 0 then none else some maxSteps

/-- How a run ended: the status, and a notice unless the program halted by itself. -/
def verdict (g : Grid) (maxSteps : Int) (o : Outcome Nat) : Nat × String :=
  match o.result with
  | .ok _ =>
    if o.state.terminated g then (0, "") else (2, s!"\n[Step limit of {maxSteps} reached]\n")
  | .error (.fault f) => (1, s!"\n[Runtime error at {o.state.position.text}: {f.message}]\n")
  | .error e => (1, s!"\n[Interpreter error: {e.message}]\n")

/-- The log comes first, then the notice and the stack. -/
def report (s : Settings) (g : Grid) (maxSteps : Int) (launchLog : List Record) (o : Outcome Nat) :
    Report :=
  let (status, notice) := verdict g maxSteps o
  let log := (launchLog ++ o.log).map fun r => r.line ++ "\n"
  { status := status
    stdout := o.state.output ++ "\n"
    stderr := (if s.verbose then String.join log else "") ++ notice ++
      if s.showStack then o.state.stackText else "" }

/-- The first failure ends it all. There is no ending only where a run without a limit needs more
steps than `patience`. -/
def execute (s : Settings) (files : Files) (patience : Nat) : Option Ending :=
  match s.numbers with
  | .error ending => some ending
  | .ok (codelSize, maxSteps) =>
    match s.readInput files with
    | .error .notUtf8 => some (.brokenOff .undecodableInput)
    | .error .nulInName => some (.brokenOff .nulInName)
    | .error (.unopened name e) =>
      some (.report (.refusal ("Error reading input file: " ++ e.message name)))
    | .ok input =>
      match files.loadGrid s.image codelSize with
      | .error e => some (.report (.refusal ("Error: " ++ e.message)))
      | .ok g =>
        match g.launch input with
        | .error e => some (.report (.refusal ("Error: " ++ e.message)))
        | .ok (state, log) =>
          (g.runWithin? patience (limit? maxSteps) state).map fun o =>
            .report (s.report g maxSteps log o)

end Settings
end Piet
