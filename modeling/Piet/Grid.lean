import Piet.Image
import Piet.Palette

/-! Programs as grids of packed colors. A grid that was read from a picture holds palette colors
only; one made from bare codes may hold any, and a lookup then tells. -/
namespace Piet

/-- Codes are stored row by row from the top. -/
structure Grid where
  width : Nat
  height : Nat
  codes : Array Nat
  size_codes : codes.size = width * height

namespace Grid

instance : Membership Position Grid :=
  ⟨fun g p => (0 ≤ p.x ∧ p.x < g.width) ∧ (0 ≤ p.y ∧ p.y < g.height)⟩

theorem mem_iff {g : Grid} {p : Position} :
    p ∈ g ↔ (0 ≤ p.x ∧ p.x < g.width) ∧ (0 ≤ p.y ∧ p.y < g.height) := Iff.rfl

instance (g : Grid) (p : Position) : Decidable (p ∈ g) :=
  decidable_of_iff _ (mem_iff (g := g) (p := p)).symm

/-- The place of a pixel in the row-by-row order. -/
def index (g : Grid) (p : Position) : Nat := p.y.toNat * g.width + p.x.toNat

/-- The pixel at a place in the row-by-row order. -/
def positionOf (g : Grid) (i : Nat) : Position := ⟨(i % g.width : Nat), (i / g.width : Nat)⟩

theorem index_lt {g : Grid} {p : Position} (h : p ∈ g) : g.index p < g.codes.size := by
  obtain ⟨⟨hx, hw⟩, hy, hh⟩ := mem_iff.1 h
  have hxn : p.x.toNat < g.width := by omega
  have hyn : p.y.toNat + 1 ≤ g.height := by omega
  have hm : (p.y.toNat + 1) * g.width ≤ g.height * g.width := Nat.mul_le_mul_right _ hyn
  rw [Nat.add_mul, Nat.one_mul] at hm
  rw [g.size_codes, Nat.mul_comm]
  unfold index
  omega

@[simp] theorem positionOf_index {g : Grid} {p : Position} (h : p ∈ g) :
    g.positionOf (g.index p) = p := by
  obtain ⟨⟨hx, hw⟩, hy, _⟩ := mem_iff.1 h
  have hxn : p.x.toNat < g.width := by omega
  have hr : (p.y.toNat * g.width + p.x.toNat) % g.width = p.x.toNat := by
    rw [Nat.mul_add_mod_self_right, Nat.mod_eq_of_lt hxn]
  have hq : (p.y.toNat * g.width + p.x.toNat) / g.width = p.y.toNat := by
    rw [Nat.mul_comm, Nat.mul_add_div (by omega), Nat.div_eq_of_lt hxn, Nat.add_zero]
  unfold positionOf index
  rw [hr, hq, Int.toNat_of_nonneg hx, Int.toNat_of_nonneg hy]

def text (g : Grid) : String := s!"Grid({g.width}x{g.height})"

/-- None outside of the grid. -/
def codeAt? (g : Grid) (p : Position) : Option Nat :=
  if p ∈ g then g.codes[g.index p]? else none

theorem codeAt?_eq_none_iff {g : Grid} {p : Position} : g.codeAt? p = none ↔ p ∉ g := by
  unfold codeAt?
  split
  · next h => simp [Array.getElem?_eq_getElem (index_lt h), h]
  · next h => simp [h]

def colorAt (g : Grid) (p : Position) : Except Error Color :=
  match g.codeAt? p with
  | some n => Color.ofCode n
  | none => .error (.outOfBounds p g.width g.height)

/-- The grid itself if every code is a palette color; the first other code in the row-by-row order
is reported with its position. -/
def validate (g : Grid) : Except Error Grid :=
  match g.codes.findIdx? fun n : Nat => (Color.ofCode? n).isNone with
  | some i => .error (.unrecognizedColor (.ofCode (g.codes.getD i 0 : Nat)) (g.positionOf i))
  | none => .ok g

/-- A picture without pixels is refused before its colors are looked at. -/
def ofImage (im : Image) : Except Error Grid :=
  if im.width = 0 ∨ im.height = 0 then .error (.invalidShape [im.height, im.width, 3])
  else validate {
    width := im.width
    height := im.height
    codes := im.pixels.map Pixel.code
    size_codes := by rw [Array.size_map, im.size_pixels] }

/-- Bytes of the pixels row by row, three for each. -/
def ofBuffer (bytes : Array UInt8) (width height : Int) : Except Error Grid :=
  if width ≤ 0 ∨ height ≤ 0 then .error (.invalidSize width height)
  else match Image.ofSamples? .rgb width.toNat height.toNat bytes with
    | some im => ofImage im
    | none => .error (.bufferSize bytes.size width height)

/-- Samples of an array with the given sides, the last side running fastest; only rows of pixels of
three channels will do. -/
def ofArray (sides : List Nat) (samples : Array UInt8) : Except Error Grid :=
  match sides with
  | [height, width, 3] =>
    let sample x y channel := samples.getD ((y * width + x) * 3 + channel) 0
    ofImage (.ofFn width height fun x y => ⟨sample x y 0, sample x y 1, sample x y 2⟩)
  | _ => .error (.invalidShape sides)

theorem length_flatten_of_length_eq {rows : List (List Nat)} {n : Nat}
    (h : ∀ row ∈ rows, row.length = n) : rows.flatten.length = n * rows.length := by
  induction rows with
  | nil => rfl
  | cons row rows ih =>
    have hr : row.length = n := h row (by simp)
    have hs := ih fun r hm => h r (by simp [hm])
    rw [List.flatten_cons, List.length_append, hr, hs, List.length_cons, Nat.mul_succ, Nat.add_comm]

/-- Bare codes, row by row. Nothing but the lengths of the rows is checked. -/
def ofRows : List (List Nat) → Except Error Grid
  | [] => .error .noRows
  | row :: rows =>
    if h : ∀ r ∈ row :: rows, r.length = row.length then
      .ok {
        width := row.length
        height := (row :: rows).length
        codes := (row :: rows).flatten.toArray
        size_codes := by rw [List.size_toArray, length_flatten_of_length_eq h] }
    else .error (.unequalRows (row :: rows).length)

def rows (g : Grid) : List (List Nat) :=
  (List.range g.height).map fun y => (List.range g.width).map fun x => g.codes.getD (y * g.width + x) 0

end Grid
end Piet
