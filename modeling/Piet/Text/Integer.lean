import Piet.Text.Character

/-! Integers as they are given on a command line. -/
namespace Piet.Text.Integer

/-- What may stand around the number: white space, but no information separator. -/
def isPadding (c : Char) : Bool :=
  (0x09 ≤ c.toNat && c.toNat ≤ 0x0d) || c == ' ' || wideBlanks.contains c.toNat

def maxDigits : Nat := 4300

/-- Digits of any script, at least one; a single underscore may stand between two of them. -/
def digits? : List Char → Option (List Nat)
  | [] => none
  | [c] => (digitValue? c).map ([·])
  | c :: '_' :: rest => (digitValue? c).bind fun d => (digits? rest).map (d :: ·)
  | c :: rest => (digitValue? c).bind fun d => (digits? rest).map (d :: ·)

def natural? (cs : List Char) : Option Nat :=
  (digits? cs).bind fun ds =>
    if ds.length ≤ maxDigits then some (ds.foldl (fun n d => n * 10 + d) 0) else none

def trim (cs : List Char) : List Char :=
  ((cs.dropWhile isPadding).reverse.dropWhile isPadding).reverse

/-- A sign may stand directly before the digits. -/
def parse? (cs : List Char) : Option Int :=
  match trim cs with
  | '+' :: ds => (natural? ds).map Int.ofNat
  | '-' :: ds => (natural? ds).map fun n => -(n : Int)
  | ds => (natural? ds).map Int.ofNat

end Piet.Text.Integer
