/-! The palette: eighteen colors on a cycle of six hues and three lightnesses, with black and white
beside it. -/
namespace Piet

/-- Hues in the order of the cycle. -/
inductive Hue where
  | red | yellow | green | cyan | blue | magenta
  deriving DecidableEq

/-- Lightness levels, each one step darker than the one before. -/
inductive Lightness where
  | light | normal | dark
  deriving DecidableEq

/-- Only chromatic colors have a place on the hue and lightness cycle. -/
inductive Color where
  | chromatic (hue : Hue) (lightness : Lightness)
  | black
  | white
  deriving DecidableEq

structure Pixel where
  red : UInt8
  green : UInt8
  blue : UInt8
  deriving DecidableEq

/-- Three integers offered as a color; nothing bounds them. -/
structure Rgb where
  red : Int
  green : Int
  blue : Int
  deriving DecidableEq

namespace Hue

def all : List Hue := [.red, .yellow, .green, .cyan, .blue, .magenta]

def index : Hue → Fin 6
  | .red => 0
  | .yellow => 1
  | .green => 2
  | .cyan => 3
  | .blue => 4
  | .magenta => 5

def name : Hue → String
  | .red => "red"
  | .yellow => "yellow"
  | .green => "green"
  | .cyan => "cyan"
  | .blue => "blue"
  | .magenta => "magenta"

/-- Whether the red, green and blue channels are on. -/
def channels : Hue → Bool × Bool × Bool
  | .red => (true, false, false)
  | .yellow => (true, true, false)
  | .green => (false, true, false)
  | .cyan => (false, true, true)
  | .blue => (false, false, true)
  | .magenta => (true, false, true)

end Hue

namespace Lightness

def all : List Lightness := [.light, .normal, .dark]

def index : Lightness → Fin 3
  | .light => 0
  | .normal => 1
  | .dark => 2

def label : Lightness → String
  | .light => "light_"
  | .normal => ""
  | .dark => "dark_"

def level : Lightness → Bool → UInt8
  | .light, true => 0xff
  | .light, false => 0xc0
  | .normal, true => 0xff
  | .normal, false => 0x00
  | .dark, true => 0xc0
  | .dark, false => 0x00

end Lightness

namespace Pixel

/-- The three bytes as one number, red first. -/
def code (p : Pixel) : Nat :=
  p.red.toNat * 0x10000 + p.green.toNat * 0x100 + p.blue.toNat

def rgb (p : Pixel) : Rgb :=
  ⟨p.red.toNat, p.green.toNat, p.blue.toNat⟩

def toBytes (p : Pixel) : List UInt8 := [p.red, p.green, p.blue]

end Pixel

namespace Color

/-- Every color: the cycle row by row from light to dark, then black and white. -/
def all : List Color :=
  (Lightness.all.flatMap fun l => Hue.all.map fun h => chromatic h l) ++ [black, white]

def name : Color → String
  | chromatic h l => l.label ++ h.name
  | black => "black"
  | white => "white"

def isChromatic : Color → Bool
  | chromatic _ _ => true
  | _ => false

def pixel : Color → Pixel
  | chromatic h l =>
    let (r, g, b) := h.channels
    ⟨l.level r, l.level g, l.level b⟩
  | black => ⟨0x00, 0x00, 0x00⟩
  | white => ⟨0xff, 0xff, 0xff⟩

def code (c : Color) : Nat := c.pixel.code

def ofCode? (n : Int) : Option Color := all.find? fun c => (c.code : Int) = n

theorem code_lt (c : Color) : c.code < 0x1000000 := by
  rcases c with ⟨h, l⟩ | _ | _
  · cases h <;> cases l <;> decide
  · decide
  · decide

@[simp] theorem ofCode?_code (c : Color) : ofCode? c.code = some c := by
  rcases c with ⟨h, l⟩ | _ | _
  · cases h <;> cases l <;> decide
  · decide
  · decide

theorem code_injective {c d : Color} (h : c.code = d.code) : c = d := by
  have hc := ofCode?_code c
  rw [h, ofCode?_code] at hc
  exact (Option.some.inj hc).symm

theorem ofCode?_eq_some_iff {n : Int} {c : Color} : ofCode? n = some c ↔ n = c.code := by
  constructor
  · intro h
    have hp := List.find?_some h
    exact (of_decide_eq_true hp).symm
  · rintro rfl
    exact ofCode?_code c

end Color
end Piet
