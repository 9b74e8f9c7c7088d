import Piet.Text.Printable

/-! Text in print: hexadecimal numerals, and quoted text, one line of printable characters from which any
text can be read off. -/
namespace Piet.Text

namespace Hex

/-- No needless zeros. -/
def lower (n : Nat) : List Char := Nat.toDigits 16 n

def upper (n : Nat) : List Char := (lower n).map Char.toUpper

def lowerPadded (places n : Nat) : List Char := (lower n).leftpad places '0'

/-- A minus sign takes one of the places. -/
def upperPadded (places : Nat) : Int → List Char
  | .ofNat n => (upper n).leftpad places '0'
  | .negSucc n => '-' :: (upper (n + 1)).leftpad (places - 1) '0'

end Hex

namespace Quoted

/-- Single quotes stand around the text unless that would force an escape which double quotes
avoid. -/
def mark (cs : List Char) : Char :=
  if cs.contains '\x27' && !cs.contains '\x22' then '\x22' else '\x27'

/-- The shortest of the three widths that holds the code point. -/
def escapeCode (n : Nat) : List Char :=
  if n < 0x100 then '\\' :: 'x' :: Hex.lowerPadded 2 n
  else if n < 0x10000 then '\\' :: 'u' :: Hex.lowerPadded 4 n
  else '\\' :: 'U' :: Hex.lowerPadded 8 n

/-- A printable character stands for itself; the quote in use and the backslash follow a
backslash. -/
def escape (quote c : Char) : List Char :=
  if c = quote || c = '\\' then ['\\', c]
  else if c = '\t' then ['\\', 't']
  else if c = '\n' then ['\\', 'n']
  else if c = '\r' then ['\\', 'r']
  else if isPrintable c then [c]
  else escapeCode c.toNat

def encode (cs : List Char) : List Char :=
  let quote := mark cs
  quote :: cs.flatMap (escape quote) ++ [quote]

def text (s : String) : String := String.ofList (encode s.toList)

end Quoted
end Piet.Text
