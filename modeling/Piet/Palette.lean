import Piet.Error

/-! Reading colors off numbers, and operations off color changes. -/
namespace Piet

namespace Bits

/-- Bitwise or of integers, as if written in two's complement with endless sign bits. -/
def or : Int → Int → Int
  | .ofNat m, .ofNat n => .ofNat (m ||| n)
  | .ofNat m, .negSucc n => .negSucc (n ^^^ (n &&& m))
  | .negSucc m, .ofNat n => .negSucc (m ^^^ (m &&& n))
  | .negSucc m, .negSucc n => .negSucc (m &&& n)

end Bits

namespace Rgb

/-- One number from three: red is shifted by sixteen places and green by eight. -/
def pack (c : Rgb) : Int := Bits.or (Bits.or (c.red * 0x10000) (c.green * 0x100)) c.blue

def IsBytes (c : Rgb) : Prop :=
  (0 ≤ c.red ∧ c.red < 256) ∧ (0 ≤ c.green ∧ c.green < 256) ∧ (0 ≤ c.blue ∧ c.blue < 256)

instance (c : Rgb) : Decidable c.IsBytes :=
  inferInstanceAs (Decidable ((0 ≤ c.red ∧ c.red < 256) ∧ (0 ≤ c.green ∧ c.green < 256) ∧
    (0 ≤ c.blue ∧ c.blue < 256)))

/-- The low three bytes of a number, of its two's complement if it is negative. -/
def ofCode (n : Int) : Rgb := ⟨n / 0x10000 % 0x100, n / 0x100 % 0x100, n % 0x100⟩

end Rgb

namespace Color

/-- A packed color; any other number is reported by its low three bytes. -/
def ofCode (n : Int) : Except Error Color :=
  match ofCode? n with
  | some c => .ok c
  | none => .error (.unrecognizedColor (.ofCode n) none)

/-- The first three numbers must be the bytes of a color; what follows them is ignored. -/
def decode : List Int → Except Error Color
  | r :: g :: b :: _ =>
    let rgb : Rgb := ⟨r, g, b⟩
    match if rgb.IsBytes then ofCode? rgb.pack else none with
    | some c => .ok c
    | none => .error (.unrecognizedColor rgb none)
  | _ => .error .shortSample

def scale : Color → Except Error (Hue × Lightness)
  | chromatic h l => .ok (h, l)
  | c => .error (.offCycle c)

end Color

/-- The color change on leaving one color for another; the color left is looked up first. -/
def Delta.ofColors (exit entry : Color) : Except Error Delta := do
  let (h, l) ← exit.scale
  let (h', l') ← entry.scale
  return .between h l h' l'

/-- A passage into or out of white carries no operation. -/
def Op.ofColors (exit entry : Color) : Except Error Op :=
  if exit = .white ∨ entry = .white then .ok .none
  else (Delta.ofColors exit entry).map Op.ofDelta

end Piet
