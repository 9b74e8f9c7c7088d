import Piet.Execution

/-! The command line. It looks up the files that the settings name, and prints the report. -/
namespace Piet

def openFile (name : String) : IO (Except OpenError File) := do
  match ← (IO.FS.readBinFile name).toBaseIO with
  | .ok content => return .ok (.ofContent content)
  | .error (.inappropriateType _ code _) =>
    return .error (if code = 21 then .isDirectory else .notDirectory)
  | .error (.invalidArgument ..) => return .error .nameTooLong
  | .error (.permissionDenied ..) => return .error .denied
  | .error _ => return .error .notFound

/-- The image and the input file, if there is one. -/
def gather (s : Settings) : IO Files := do
  let image ← openFile s.image
  let entries ← s.inputFile.toList.mapM fun name => return (name, ← openFile name)
  let entries := (s.image, image) :: entries
  return fun name => (entries.lookup name).getD (.error .notFound)

/-- Ask again with twice the patience until there is an answer. -/
partial def await {α : Type} (attempt : Nat → Option α) (patience : Nat) : IO α :=
  match attempt patience with
  | some a => return a
  | none => await attempt (2 * patience)

def usage : String :=
  "usage: piet_interpreter.py [-h] [-i INPUT] [--input-file INPUT_FILE] [-n MAX_STEPS]\n" ++
  "                           [-c CODEL_SIZE] [--stack] [-v]\n" ++
  "                           image\n"

end Piet

def main (args : List String) : IO UInt32 := do
  match Piet.Settings.ofArguments args with
  | .error .helpWanted =>
    IO.print Piet.usage
    return 0
  | .error (.refused e) =>
    IO.eprint (Piet.usage ++ e.line ++ "\n")
    return 2
  | .ok settings =>
    let files ← Piet.gather settings
    match ← Piet.await (settings.execute files) 0x10000 with
    | .report r =>
      IO.print r.stdout
      IO.eprint r.stderr
      return r.status.toUInt32
    | .brokenOff cause =>
      IO.eprintln cause.message
      return 1
