import Piet.State

/-! What each operation does to a running program. Operations change the state in place, and one that
fails leaves behind what it has done by then; so each of them looks before it takes. -/
namespace Piet

/-- The character of a word, unless it is beyond the last code point or a surrogate. -/
def Word.char? (v : Word) : Option Char :=
  if h : v.isValidChar then some ⟨v, h⟩ else none

namespace State

def push (s : State) (v : Word) : State := { s with stack := v :: s.stack }

def write (s : State) (text : String) : State := { s with output := s.output ++ text }

end State

/-- Work on the state of a program. A failure does not undo what was done before it. -/
abbrev Handler := EStateM Error State

namespace Handler

def fail {α : Type} (f : Fault) : Handler α := throw (.fault f)

/-- Go on only if the stack holds so many values. -/
def require (op : Op) (count : Nat) : Handler Unit := do
  let held := (← get).stack.length
  if held < count then fail (.stackUnderflow op count held)

/-- Look at a value; they are counted from zero at the top. -/
def peek (i : Nat) : Handler Word := do
  match (← get).stack[i]? with
  | some v => return v
  | none => throw .noSuchValue

def pop : Handler Word := do
  match (← get).stack with
  | v :: rest =>
    modify ({ · with stack := rest })
    return v
  | [] => throw .emptyStack

def push (v : Word) : Handler Unit := modify (·.push v)

def write (text : String) : Handler Unit := modify (·.write text)

/-- The top value and the one below it. -/
def popTwo (op : Op) : Handler (Word × Word) := do
  require op 2
  let a ← pop
  let b ← pop
  return (a, b)

/-- Take the top value and go on with it. -/
def unary (op : Op) (use : Word → Handler Unit) : Handler Unit := do
  require op 1
  use (← pop)

/-- Replace the two top values by one; the second value is the left operand. -/
def binary (op : Op) (f : Word → Word → Word) : Handler Unit := do
  let (a, b) ← popTwo op
  push (f b a)

/-- As `binary`, but the right operand must not be zero. -/
def binaryNonzero (op : Op) (zero : Fault) (f : Word → Word → Word) : Handler Unit := do
  require op 2
  if (← peek 0) = 0 then fail zero
  binary op f

def turn (a : Word) : Handler Unit :=
  modify fun s => { s with heading.direction := s.heading.direction.clockwise (a % 4).toNat }

def switch (a : Word) : Handler Unit := do
  if a % 2 ≠ 0 then modify fun s => { s with heading.chooser := s.heading.chooser.flip }

def duplicate : Handler Unit := do
  require .duplicate 1
  push (← peek 0)

/-- Of the `depth` values on top, the first `rolls` modulo `depth` go beneath the others. -/
def rotate (rolls depth : Word) : Handler Unit := do
  if depth ≠ 0 then
    let r := (rolls % depth).toNat
    if r ≠ 0 then
      modify fun s =>
        let top := s.stack.take depth.toNat
        { s with stack := top.drop r ++ top.take r ++ s.stack.drop depth.toNat }

/-- The operands are removed before the values below them are rolled. -/
def roll : Handler Unit := do
  require .roll 2
  let rolls ← peek 0
  let depth ← peek 1
  let available := (← get).stack.length - 2
  if available < depth.toNat then fail (.rollTooDeep depth.toNat available)
  else
    modify fun s => { s with stack := s.stack.drop 2 }
    rotate rolls depth

/-- The next unread character and all that follow it. -/
def unread (op : Op) : Handler (Char × List Char) := do
  let input := (← get).input
  match input.text, input.unread with
  | none, _ => fail (.noInput op)
  | some _, [] => fail (.endOfInput op)
  | some _, c :: cs => return (c, cs)

def advance (n : Nat) : Handler Unit := modify fun s => { s with input := s.input.advance n }

/-- Skip blanks and take as many digits as follow. -/
def readNumber : Handler Unit := do
  let (c, cs) ← unread .inNumber
  let stripped := (c :: cs).dropWhile Text.isBlank
  match stripped.takeWhile Char.isDigit, stripped with
  | [], [] => fail (.endOfInput .inNumber)
  | [], found :: _ => fail (.notDigit found)
  | digits, _ =>
    advance ((c :: cs).length - stripped.length + digits.length)
    push (.ofDigits digits)

def readChar : Handler Unit := do
  let (c, _) ← unread .inChar
  advance 1
  push c.val

/-- Only a Unicode scalar value can be written as a character. -/
def writeChar : Handler Unit := do
  require .outChar 1
  let v ← peek 0
  match v.char? with
  | some c =>
    let _ ← pop
    write c.toString
  | none => fail (.notScalar v)

end Handler

/-- Words wrap; `size` is the number of pixels of the region that was left. -/
def Op.handler (op : Op) (size : Nat) : Handler Unit :=
  match op with
  | .none => return
  | .push => .push (.ofNat size)
  | .pop => .unary op fun _ => return
  | .add => .binary op (· + ·)
  | .subtract => .binary op (· - ·)
  | .multiply => .binary op (· * ·)
  | .divide => .binaryNonzero op .divideByZero (· / ·)
  | .mod => .binaryNonzero op .modByZero (· % ·)
  | .not => .unary op fun a => .push (if a = 0 then 1 else 0)
  | .greater => .binary op fun b a => if b > a then 1 else 0
  | .pointer => .unary op .turn
  | .switch => .unary op .switch
  | .duplicate => .duplicate
  | .roll => .roll
  | .inNumber => .readNumber
  | .inChar => .readChar
  | .outNumber => .unary op fun a => .write (toString a.toNat)
  | .outChar => .writeChar

end Piet
