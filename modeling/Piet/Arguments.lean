import Piet.Text.Integer
import Piet.Text.Quoted

/-! Reading the command line: one image, and options that may stand anywhere around it. -/
namespace Piet

structure Settings where
  image : String
  input : Option String
  inputFile : Option String
  /-- Zero stands for no limit. None if the option was given without a number. -/
  maxSteps : Option Int
  /-- None if the option was given without a number. -/
  codelSize : Option Int
  showStack : Bool
  verbose : Bool
  deriving DecidableEq

inductive Switch where
  | help | input | inputFile | maxSteps | codelSize | stack | verbose
  deriving DecidableEq

namespace Switch

def all : List Switch := [.help, .input, .inputFile, .maxSteps, .codelSize, .stack, .verbose]

def names : Switch → List String
  | .help => ["-h", "--help"]
  | .input => ["-i", "--input"]
  | .inputFile => ["--input-file"]
  | .maxSteps => ["-n", "--max-steps"]
  | .codelSize => ["-c", "--codel-size"]
  | .stack => ["--stack"]
  | .verbose => ["-v", "--verbose"]

def takesValue : Switch → Bool
  | .input | .inputFile | .maxSteps | .codelSize => true
  | .help | .stack | .verbose => false

def label (s : Switch) : String := String.intercalate "/" s.names

def spellings : List (String × Switch) := all.flatMap fun s => s.names.map fun name => (name, s)

def ofName? (cs : List Char) : Option Switch := spellings.lookup (String.ofList cs)

end Switch

inductive UsageError where
  /-- The argument begins the names of several options. -/
  | ambiguous (argument : String) (candidates : List String)
  | missingValue (switch : Switch)
  /-- A value is attached to an option that takes none. -/
  | unwantedValue (switch : Switch) (value : String)
  | invalidInteger (switch : Switch) (value : String)
  | missingImage
  | unrecognized (arguments : List String)
  deriving DecidableEq

namespace UsageError

def message : UsageError → String
  | ambiguous arg candidates =>
    s!"ambiguous option: {arg} could match " ++ String.intercalate ", " candidates
  | missingValue s => s!"argument {s.label}: expected one argument"
  | unwantedValue s v => s!"argument {s.label}: ignored explicit argument " ++ Text.Quoted.text v
  | invalidInteger s v => s!"argument {s.label}: invalid int value: " ++ Text.Quoted.text v
  | missingImage => "the following arguments are required: image"
  | unrecognized args => "unrecognized arguments: " ++ String.intercalate " " args

def line (e : UsageError) : String := "piet_interpreter.py: error: " ++ e.message

end UsageError

inductive NoSettings where
  | helpWanted
  | refused (error : UsageError)
  deriving DecidableEq

namespace Arguments

/-- What a single argument is before its neighbours are looked at. -/
inductive Token where
  | word (text : String)
  /-- An option, with the value that is written in the same argument. -/
  | option (switch : Switch) (isShort : Bool) (attached : Option (List Char))
  | unknown (text : String)
  /-- Two dashes alone: only words follow. -/
  | separator
  deriving DecidableEq

/-- A minus sign before digits with at most one point among them, and at least one digit at the end;
a final line break does not count. -/
def isNegativeNumber : List Char → Bool
  | '-' :: cs =>
    let cs := if cs.getLast? = some '\n' then cs.dropLast else cs
    match cs.dropWhile Text.isDecimalDigit with
    | [] => !cs.isEmpty
    | '.' :: fraction => !fraction.isEmpty && fraction.all Text.isDecimalDigit
    | _ => false
  | _ => false

/-- What stands before the first equals sign, and the value after it. -/
def splitEquals (cs : List Char) : List Char × Option (List Char) :=
  match cs.dropWhile (· != '=') with
  | _ :: value => (cs.takeWhile (· != '='), some value)
  | [] => (cs, none)

/-- Long options whose names the argument begins, and the short option to which it attaches a
value. -/
def candidates (cs : List Char) : List (String × Token) :=
  match cs with
  | '-' :: '-' :: _ =>
    let (stem, attached) := splitEquals cs
    (Switch.spellings.filter fun s => stem.isPrefixOf s.1.toList).map fun s =>
      (s.1, .option s.2 false attached)
  | '-' :: c :: value =>
    (Switch.spellings.filter fun s => s.1.toList = ['-', c]).map fun s =>
      (s.1, .option s.2 true (some value))
  | _ => []

/-- What is no option, but looks like a negative number or holds a space, is a word. -/
def classify (arg : String) : Except UsageError Token :=
  match arg.toList with
  | '-' :: c :: cs =>
    let (stem, attached) := splitEquals ('-' :: c :: cs)
    match Switch.ofName? arg.toList, attached, Switch.ofName? stem with
    | some s, _, _ => .ok (.option s (c != '-') none)
    | none, some v, some s => .ok (.option s (c != '-') (some v))
    | _, _, _ =>
      match candidates ('-' :: c :: cs) with
      | [] =>
        if isNegativeNumber ('-' :: c :: cs) || (c :: cs).contains ' ' then .ok (.word arg)
        else .ok (.unknown arg)
      | [(_, token)] => .ok token
      | several => .error (.ambiguous arg (several.map (·.1)))
  | _ => .ok (.word arg)

def tokens : List String → Except UsageError (List Token)
  | [] => .ok []
  | arg :: args =>
    if arg = "--" then .ok (.separator :: args.map .word)
    else (classify arg).bind fun token => (tokens args).map (token :: ·)

inductive Tail where
  | nothing
  | value (switch : Switch) (text : List Char)
  /-- The value is the next word. -/
  | valueFollows (switch : Switch)
  deriving DecidableEq

/-- Take a short option with text attached to it. After an option without a value the text is read as
more options behind the same dash. -/
def cluster (s : Switch) (text : List Char) : Except UsageError (List Switch × Tail) :=
  if s.takesValue then .ok ([], .value s text)
  else match text with
    | [] => .error (.unwantedValue s "")
    | c :: rest =>
      match Switch.ofName? ['-', c], rest with
      | none, _ => .error (.unwantedValue s (String.ofList (c :: rest)))
      | some t, [] => .ok (if t.takesValue then ([s], .valueFollows t) else ([s, t], .nothing))
      | some t, rest => (cluster t rest).map fun (ts, e) => (s :: ts, e)

/-- The options of one argument. A long one takes a value or none. -/
def expand (s : Switch) (isShort : Bool) :
    Option (List Char) → Except UsageError (List Switch × Tail)
  | some value =>
    if isShort then cluster s value
    else if s.takesValue then .ok ([], .value s value)
    else .error (.unwantedValue s (String.ofList value))
  | none => .ok (if s.takesValue then ([], .valueFollows s) else ([s], .nothing))

structure Draft where
  settings : Settings
  hasImage : Bool
  /-- Arguments that nothing asked for. -/
  extras : List String

namespace Draft

def initial : Draft where
  settings := ⟨"", none, none, some 200000, some 1, false, false⟩
  hasImage := false
  extras := []

def setImage (d : Draft) (name : String) : Draft :=
  { d with settings.image := name, hasImage := true }

def addExtra (d : Draft) (arg : String) : Draft := { d with extras := d.extras ++ [arg] }

/-- Options without a value, in the order given. -/
def setFlags (d : Draft) : List Switch → Except NoSettings Draft
  | [] => .ok d
  | .help :: _ => .error .helpWanted
  | .stack :: rest => { d with settings.showStack := true }.setFlags rest
  | .verbose :: rest => { d with settings.verbose := true }.setFlags rest
  | _ :: rest => d.setFlags rest

def setInteger (s : Switch) (text : List Char) (set : Int → Draft) : Except NoSettings Draft :=
  match Text.Integer.parse? text with
  | some n => .ok (set n)
  | none => .error (.refused (.invalidInteger s (String.ofList text)))

/-- What an option stands for when its value is left out: an empty text, no file, and no number. -/
def omitValue (d : Draft) : Switch → Draft
  | .input => { d with settings.input := some "" }
  | .inputFile => { d with settings.inputFile := none }
  | .maxSteps => { d with settings.maxSteps := none }
  | .codelSize => { d with settings.codelSize := none }
  | .help | .stack | .verbose => d

/-- A later value takes the place of an earlier one. Two dashes alone leave the value out. -/
def setValue (d : Draft) (s : Switch) (text : List Char) : Except NoSettings Draft :=
  if text = ['-', '-'] then .ok (d.omitValue s)
  else match s with
    | .input => .ok { d with settings.input := some (String.ofList text) }
    | .inputFile => .ok { d with settings.inputFile := some (String.ofList text) }
    | .maxSteps => setInteger s text fun n => { d with settings.maxSteps := some n }
    | .codelSize => setInteger s text fun n => { d with settings.codelSize := some n }
    | .help | .stack | .verbose => .ok d

end Draft

/-- The first word that is no value is the image, with the separator next to it on either side. -/
def consume (d : Draft) : List Token → Except NoSettings Draft
  | [] => .ok d
  | .word arg :: .separator :: rest =>
    if d.hasImage then consume ((d.addExtra arg).addExtra "--") rest
    else consume (d.setImage arg) rest
  | .word arg :: rest => consume (if d.hasImage then d.addExtra arg else d.setImage arg) rest
  | .separator :: .word arg :: rest =>
    if d.hasImage then consume ((d.addExtra "--").addExtra arg) rest
    else consume (d.setImage arg) rest
  | .separator :: rest => consume (d.addExtra "--") rest
  | .unknown arg :: rest => consume (d.addExtra arg) rest
  | .option s isShort attached :: rest =>
    match expand s isShort attached, rest with
    | .error e, _ => .error (.refused e)
    | .ok (flags, .nothing), rest => (d.setFlags flags).bind (consume · rest)
    | .ok (flags, .value t text), rest =>
      ((d.setFlags flags).bind (·.setValue t text)).bind (consume · rest)
    | .ok (flags, .valueFollows t), .word arg :: rest =>
      ((d.setFlags flags).bind (·.setValue t arg.toList)).bind (consume · rest)
    | .ok (_, .valueFollows t), _ => .error (.refused (.missingValue t))

def Draft.finish (d : Draft) : Except NoSettings Settings :=
  if !d.hasImage then .error (.refused .missingImage)
  else if !d.extras.isEmpty then .error (.refused (.unrecognized d.extras))
  else .ok d.settings

end Arguments

def Settings.ofArguments (args : List String) : Except NoSettings Settings :=
  match Arguments.tokens args with
  | .error e => .error (.refused e)
  | .ok ts => (Arguments.consume .initial ts).bind (·.finish)

end Piet
