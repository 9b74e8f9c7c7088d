import Piet.Image

/-! Plain picture files: a short header in ASCII and one byte for each sample. -/
namespace Piet.Image.Netpbm

def isSpace (b : UInt8) : Bool := (9 ≤ b && b ≤ 13) || b == 32

def isDigit (b : UInt8) : Bool := 48 ≤ b && b ≤ 57

/-- White space and comments, which run from a number sign to the end of the line. -/
def skip (inComment : Bool) : List UInt8 → List UInt8
  | [] => []
  | b :: rest =>
    if inComment then skip (b != 10) rest
    else if b == 35 then skip true rest
    else if isSpace b then skip false rest
    else b :: rest

def number? (bytes : List UInt8) : Option (Nat × List UInt8) :=
  let bytes := skip false bytes
  match bytes.takeWhile isDigit with
  | [] => none
  | digits => some (digits.foldl (fun n b => n * 10 + (b.toNat - 48)) 0, bytes.dropWhile isDigit)

/-- The first two bytes tell gray from color. -/
def channels? : List UInt8 → Option (Channels × List UInt8)
  | 80 :: 53 :: rest => some (.gray, rest)
  | 80 :: 54 :: rest => some (.rgb, rest)
  | _ => none

/-- Samples must have 256 levels and fill a picture that is not empty; one byte of white space stands
before them. -/
def decode? (bytes : List UInt8) : Option Image := do
  let (channels, rest) ← channels? bytes
  let (width, rest) ← number? rest
  let (height, rest) ← number? rest
  let (maximum, rest) ← number? rest
  match rest with
  | b :: samples =>
    if maximum = 255 && 0 < width && 0 < height && isSpace b then
      ofSamples? channels width height samples.toArray
    else none
  | [] => none

end Piet.Image.Netpbm
