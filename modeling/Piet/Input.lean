import Piet.Error
import Piet.Text.Character

/-! The text that a program reads. Its characters are Unicode scalar values: a lone surrogate, as it may
stand for a byte of an argument that is not UTF-8, is not modelled. -/
namespace Piet

/-- Without a text no input is attached, which is not the same as an empty text. What stands before
the cursor has been read. -/
structure Input where
  text : Option (List Char)
  cursor : Nat
  deriving DecidableEq

/-- The decimal digits that count in a number are those of ASCII. -/
def Word.ofDigits (digits : List Char) : Word :=
  digits.foldl (fun n c => n * 10 + .ofNat (c.toNat - '0'.toNat)) 0

namespace Input

def ofText? (text : Option String) : Input := ⟨text.map String.toList, 0⟩

/-- Text arrives at the end, and the first to arrive attaches the input. -/
def feed (i : Input) (text : String) : Input :=
  { i with text := some (i.text.getD [] ++ text.toList) }

def unread (i : Input) : List Char := (i.text.getD []).drop i.cursor

def advance (i : Input) (n : Nat) : Input := { i with cursor := i.cursor + n }

@[simp] theorem unread_advance (i : Input) (n : Nat) : (i.advance n).unread = i.unread.drop n := by
  unfold unread advance
  rw [List.drop_drop]

/-- Text that arrives is read after all that is still unread. -/
theorem unread_feed {i : Input} (h : i.cursor ≤ (i.text.getD []).length) (text : String) :
    (i.feed text).unread = i.unread ++ text.toList := by
  unfold unread feed
  exact List.drop_append_of_le_length h

end Input
end Piet
