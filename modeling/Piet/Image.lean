import Piet.Color

/-! Pictures as rows of pixels, and their enlargement and reduction by whole factors. -/
namespace Piet

/-- Pixels are stored row by row from the top. -/
structure Image where
  width : Nat
  height : Nat
  pixels : Array Pixel
  size_pixels : pixels.size = width * height

/-- The samples that make a pixel: one of gray, three of color, or three of color with an opacity. -/
inductive Channels where
  | gray | rgb | rgba
  deriving DecidableEq

namespace Channels

def count : Channels → Nat
  | gray => 1
  | rgb => 3
  | rgba => 4

/-- Pixel `i` of a row of samples. Gray is the same on all channels, and opacity is dropped. -/
def pixel (channels : Channels) (samples : Array UInt8) (i : Nat) : Pixel :=
  let sample k := samples.getD (channels.count * i + k) 0
  match channels with
  | gray => ⟨sample 0, sample 0, sample 0⟩
  | rgb | rgba => ⟨sample 0, sample 1, sample 2⟩

end Channels

namespace Image

/-- The picture whose pixel in column `x` and row `y` is `f x y`. -/
def ofFn (width height : Nat) (f : Nat → Nat → Pixel) : Image where
  width := width
  height := height
  pixels := Array.ofFn fun i : Fin (width * height) => f (i % width) (i / width)
  size_pixels := Array.size_ofFn

/-- None if the samples do not fill the picture exactly. -/
def ofSamples? (channels : Channels) (width height : Nat) (samples : Array UInt8) : Option Image :=
  if samples.size = width * height * channels.count then
    some {
      width := width
      height := height
      pixels := Array.ofFn fun i : Fin (width * height) => channels.pixel samples i
      size_pixels := Array.size_ofFn }
  else none

/-- Black outside of the picture. -/
def get (im : Image) (x y : Nat) : Pixel :=
  im.pixels.getD (y * im.width + x) Color.black.pixel

/-- Every pixel becomes a square block of `k` times `k`. -/
def enlarge (im : Image) (k : Nat) : Image :=
  ofFn (im.width * k) (im.height * k) fun x y => im.get (x / k) (y / k)

/-- Every block of `c` times `c` becomes the pixel at its middle, for an even `c` the one right of
and below the middle. -/
def shrink (im : Image) (c : Nat) : Image :=
  ofFn (im.width / c) (im.height / c) fun x y => im.get (c * x + c / 2) (c * y + c / 2)

end Image
end Piet
