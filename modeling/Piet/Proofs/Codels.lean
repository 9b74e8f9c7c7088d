import Piet.Load
import Piet.Proofs.Arrays

/-! Programs drawn with codels. What is loaded depends only on the pixel in the middle of each codel, and
drawing a program with larger codels changes nothing once they are taken for single pixels again. -/
namespace Piet

/-- The pixel that stands for the codel in column `x` and row `y`. -/
def Image.codel (im : Image) (c x y : Nat) : Pixel := im.get (c * x + c / 2) (c * y + c / 2)

/-- A picture is found under the name. -/
structure Files.Holds (files : Files) (name : String) (im : Image) : Prop where
  holdsNul_eq : holdsNul name = false
  exists_file : ∃ file, files name = .ok file ∧ file.picture = .ok im

theorem Image.size_map_code (im : Image) :
    (im.pixels.map Pixel.code).size = im.width * im.height := by
  rw [Array.size_map, im.size_pixels]

/-- The grid of a picture, whether its pixels have a color or not. -/
def Image.grid (im : Image) : Grid where
  width := im.width
  height := im.height
  codes := im.pixels.map Pixel.code
  size_codes := im.size_map_code

theorem mapError_eq_ok_iff {α ε ε' : Type} {x : Except ε α} {f : ε → ε'} {a : α} :
    x.mapError f = .ok a ↔ x = .ok a := by
  cases x <;> simp [Except.mapError]

theorem mapError_eq_error_iff {α ε ε' : Type} {x : Except ε α} {f : ε → ε'} {e' : ε'} :
    x.mapError f = .error e' ↔ ∃ e, x = .error e ∧ f e = e' := by
  cases x <;> simp [Except.mapError]

theorem Color.ofCode_pixel_eq_ok_iff {p : Pixel} {c : Color} :
    ofCode p.code = .ok c ↔ c.pixel = p := by
  rw [ofCode_eq_ok_iff, Int.ofNat_inj]
  exact Pixel.code_eq_code_iff

namespace Image

variable {im im' : Image} {w h x y c : Nat} {f : Nat → Nat → Pixel}

theorem place_lt_mul (hx : x < w) (hy : y < h) : y * w + x < w * h := by
  rw [Nat.mul_comm w h]
  exact Canvas.place_lt ⟨x, hx⟩ ⟨y, hy⟩

theorem get_ofFn (hx : x < w) (hy : y < h) : (ofFn w h f).get x y = f x y := by
  have hlt : y * w + x < w * h := place_lt_mul hx hy
  have hdiv : (y * w + x) / w = y := Canvas.place_div ⟨x, hx⟩ y
  have hmod : (y * w + x) % w = x := Canvas.place_mod ⟨x, hx⟩ y
  unfold get ofFn
  simp [hlt, hdiv, hmod]

/-- A picture is all that can be seen in it. -/
theorem eq_of_get (hw : im.width = im'.width) (hh : im.height = im'.height)
    (h : ∀ x < im.width, ∀ y < im.height, im.get x y = im'.get x y) : im = im' := by
  obtain ⟨w, h', pixels, hsize⟩ := im
  obtain ⟨w', h'', pixels', hsize'⟩ := im'
  obtain rfl : w = w' := hw
  obtain rfl : h' = h'' := hh
  have hpixels : pixels = pixels' := by
    apply Array.ext (hsize.trans hsize'.symm)
    intro i hi hi'
    have hpos : 0 < w := Nat.pos_of_mul_pos_right (Nat.zero_lt_of_lt (hsize ▸ hi))
    have hget := h (i % w) (Nat.mod_lt i hpos) (i / w) (Nat.div_lt_of_lt_mul (hsize ▸ hi))
    unfold get at hget
    rw [Nat.div_add_mod'] at hget
    rwa [Array.getElem_eq_getD Color.black.pixel, Array.getElem_eq_getD Color.black.pixel]
  subst hpixels
  rfl

/-- The middle of a codel lies within the codel. -/
theorem middle_div (hc : 0 < c) : (c * x + c / 2) / c = x := by
  rw [Nat.mul_add_div hc, Nat.div_eq_of_lt (Nat.div_lt_self hc (by decide)), Nat.add_zero]

theorem middle_lt (hc : 0 < c) (hx : x < w) : c * x + c / 2 < w * c := by
  rw [← Nat.div_lt_iff_lt_mul hc, middle_div hc]
  exact hx

theorem get_shrink (hx : x < im.width / c) (hy : y < im.height / c) :
    (im.shrink c).get x y = im.codel c x y := get_ofFn hx hy

theorem get_enlarge (hx : x < im.width * c) (hy : y < im.height * c) :
    (im.enlarge c).get x y = im.get (x / c) (y / c) := get_ofFn hx hy

theorem enlarge_one (im : Image) : im.enlarge 1 = im := by
  apply eq_of_get (Nat.mul_one _) (Nat.mul_one _)
  intro x hx y hy
  rw [get_enlarge hx hy, Nat.div_one, Nat.div_one]

theorem shrink_enlarge (im : Image) (hc : 0 < c) : (im.enlarge c).shrink c = im := by
  have hw : (im.enlarge c).width / c = im.width := Nat.mul_div_cancel _ hc
  have hh : (im.enlarge c).height / c = im.height := Nat.mul_div_cancel _ hc
  apply eq_of_get hw hh
  intro x hx y hy
  have hxw : x < im.width := hx.trans_eq hw
  have hyh : y < im.height := hy.trans_eq hh
  rw [get_shrink hx hy, codel, get_enlarge (middle_lt hc hxw) (middle_lt hc hyh), middle_div hc,
    middle_div hc]

theorem shrink_pos (hw : 0 < im.width) (hh : 0 < im.height) (hd : c ∣ im.width ∧ c ∣ im.height) :
    0 < (im.shrink c).width ∧ 0 < (im.shrink c).height :=
  ⟨Nat.div_pos (Nat.le_of_dvd hw hd.1) (Nat.pos_of_dvd_of_pos hd.1 hw),
    Nat.div_pos (Nat.le_of_dvd hh hd.2) (Nat.pos_of_dvd_of_pos hd.1 hw)⟩

/-- Pictures with the same codels are reduced to the same picture. -/
theorem shrink_congr (hw : im'.width = im.width) (hh : im'.height = im.height)
    (h : ∀ x < im.width / c, ∀ y < im.height / c, im'.codel c x y = im.codel c x y) :
    im'.shrink c = im.shrink c := by
  have hwidth : (im'.shrink c).width = (im.shrink c).width := congrArg (· / c) hw
  have hheight : (im'.shrink c).height = (im.shrink c).height := congrArg (· / c) hh
  apply eq_of_get hwidth hheight
  intro x hx y hy
  rw [get_shrink hx hy, get_shrink (hx.trans_eq hwidth) (hy.trans_eq hheight)]
  exact h x (hx.trans_eq hwidth) y (hy.trans_eq hheight)

theorem mem_grid : (⟨x, y⟩ : Position) ∈ im.grid ↔ x < im.width ∧ y < im.height := by
  rw [Grid.mem_iff]
  simp [grid]

theorem exists_of_mem_grid {p : Position} (hp : p ∈ im.grid) :
    ∃ x y : Nat, x < im.width ∧ y < im.height ∧ p = ⟨x, y⟩ := by
  obtain ⟨⟨hx, hxw⟩, hy, hyh⟩ := Grid.mem_iff.1 hp
  obtain ⟨px, py⟩ := p
  obtain ⟨x, rfl⟩ := Int.eq_ofNat_of_zero_le hx
  obtain ⟨y, rfl⟩ := Int.eq_ofNat_of_zero_le hy
  exact ⟨x, y, Int.ofNat_lt.1 hxw, Int.ofNat_lt.1 hyh, rfl⟩

theorem colorAt_grid (hx : x < im.width) (hy : y < im.height) :
    im.grid.colorAt ⟨x, y⟩ = Color.ofCode (im.get x y).code := by
  have hm : (⟨x, y⟩ : Position) ∈ im.grid := mem_grid.2 ⟨hx, hy⟩
  have hlt : y * im.width + x < im.pixels.size := by
    rw [im.size_pixels]
    exact place_lt_mul hx hy
  have hcode : im.grid.codeAt? ⟨x, y⟩ = some (im.get x y).code := by
    rw [Grid.codeAt?, if_pos hm, get]
    simp [Grid.index, grid, hlt]
  rw [Grid.colorAt, hcode]

theorem colorAt_grid_eq_ok_iff (hx : x < im.width) (hy : y < im.height) {color : Color} :
    im.grid.colorAt ⟨x, y⟩ = .ok color ↔ color.pixel = im.get x y := by
  rw [colorAt_grid hx hy, Color.ofCode_pixel_eq_ok_iff]

end Image

namespace Grid

variable {im im' : Image} {g : Grid} {e : Error} {x y c : Nat}

theorem ofImage_of_empty (h : im.width = 0 ∨ im.height = 0) :
    ofImage im = .error (.invalidShape [im.height, im.width, 3]) := by
  unfold ofImage
  rw [if_pos h]

theorem ofImage_eq_validate (hw : 0 < im.width) (hh : 0 < im.height) :
    ofImage im = im.grid.validate := by
  unfold ofImage
  rw [if_neg (by omega)]
  rfl

theorem ofImage_eq_ok_iff (hw : 0 < im.width) (hh : 0 < im.height) : ofImage im = .ok g ↔
    g = im.grid ∧ ∀ x < im.width, ∀ y < im.height, ∃ c : Color, c.pixel = im.get x y := by
  have hlookup : (∀ p ∈ im.grid, ∃ c, im.grid.colorAt p = .ok c) ↔
      ∀ x < im.width, ∀ y < im.height, ∃ c : Color, c.pixel = im.get x y := by
    constructor
    · intro h x hx y hy
      obtain ⟨c, hc⟩ := h _ (Image.mem_grid.2 ⟨hx, hy⟩)
      exact ⟨c, (Image.colorAt_grid_eq_ok_iff hx hy).1 hc⟩
    · intro h p hp
      obtain ⟨x, y, hx, hy, rfl⟩ := Image.exists_of_mem_grid hp
      obtain ⟨c, hc⟩ := h x hx y hy
      exact ⟨c, (Image.colorAt_grid_eq_ok_iff hx hy).2 hc⟩
  rw [ofImage_eq_validate hw hh, ← hlookup, ← validate_eq_ok_iff_colorAt]
  constructor
  · intro h
    obtain ⟨rfl, -⟩ := validate_eq_ok_iff.1 h
    exact ⟨rfl, h⟩
  · rintro ⟨rfl, h⟩
    exact h

/-- The first pixel without a color is reported, row by row. -/
theorem ofImage_eq_error (hw : 0 < im.width) (hh : 0 < im.height) (h : ofImage im = .error e) :
    ∃ x < im.width, ∃ y < im.height, (∀ c : Color, c.pixel ≠ im.get x y) ∧
      e = .unrecognizedColor (im.get x y).rgb (some ⟨x, y⟩) ∧
      ∀ x' < im.width, ∀ y' < im.height, y' < y ∨ y' = y ∧ x' < x →
        ∃ c : Color, c.pixel = im.get x' y' := by
  rw [ofImage_eq_validate hw hh] at h
  obtain ⟨p, hp, rgb, rfl, hfail, hbefore⟩ := colorAt_of_validate_eq_error h
  obtain ⟨x, y, hx, hy, rfl⟩ := Image.exists_of_mem_grid hp
  rw [Image.colorAt_grid hx hy] at hfail
  have hne : ∀ c : Color, c.pixel ≠ im.get x y := by
    intro c hc
    rw [Color.ofCode_pixel_eq_ok_iff.2 hc] at hfail
    cases hfail
  have hrgb : rgb = (im.get x y).rgb := by
    have hunknown : ¬∃ c : Color, (im.get x y).code = c.code :=
      fun ⟨c, hc⟩ => hne c (Pixel.code_eq_code_iff.1 hc)
    rw [Color.ofCode_of_forall_ne hunknown, Pixel.ofCode_code] at hfail
    cases hfail
    rfl
  refine ⟨x, hx, y, hy, hne, by rw [hrgb], fun x' hx' y' hy' hlt => ?_⟩
  have hearlier : (y' : Int) < y ∨ (y' : Int) = y ∧ (x' : Int) < x := by exact_mod_cast hlt
  obtain ⟨c, hc⟩ := hbefore _ (Image.mem_grid.2 ⟨hx', hy'⟩) hearlier
  exact ⟨c, (Image.colorAt_grid_eq_ok_iff hx' hy').1 hc⟩

end Grid

namespace Files

variable {files files' : Files} {name name' : String} {im im' : Image} {c : Nat} {g : Grid}

theorem Holds.loadGrid_eq (h : files.Holds name im) (codelSize : Int) :
    files.loadGrid name codelSize = Grid.ofCodels im codelSize := by
  obtain ⟨file, hfile, hpicture⟩ := h.exists_file
  unfold loadGrid
  rw [if_neg (by simp [h.holdsNul_eq]), hfile]
  simp only [hpicture]

theorem Holds.loadGrid_one (h : files.Holds name im) :
    files.loadGrid name 1 = (Grid.ofImage im).mapError .grid := h.loadGrid_eq 1

theorem Holds.loadGrid_of_dvd (h : files.Holds name im) (hc : 1 < c)
    (hd : c ∣ im.width ∧ c ∣ im.height) :
    files.loadGrid name c = (Grid.ofImage (im.shrink c)).mapError .grid := by
  rw [h.loadGrid_eq, Grid.ofCodels, if_neg (by omega), Int.toNat_natCast]
  exact if_pos ⟨Nat.mod_eq_zero_of_dvd hd.1, Nat.mod_eq_zero_of_dvd hd.2⟩

theorem Holds.loadGrid_of_not_dvd (h : files.Holds name im) (hc : 1 < c)
    (hd : ¬(c ∣ im.width ∧ c ∣ im.height)) :
    files.loadGrid name c = .error (.notMultiple im.width im.height c) := by
  rw [h.loadGrid_eq, Grid.ofCodels, if_neg (by omega), Int.toNat_natCast]
  exact if_neg fun hm => hd ⟨Nat.dvd_of_mod_eq_zero hm.1, Nat.dvd_of_mod_eq_zero hm.2⟩

/-- An enlarged picture is loaded with codels of its scale as the picture itself is loaded without. -/
theorem Holds.loadGrid_enlarge (h : files.Holds name im) (h' : files'.Holds name' (im.enlarge c))
    (hc : 1 ≤ c) : files'.loadGrid name' c = files.loadGrid name 1 := by
  rcases hc.eq_or_lt with rfl | hlt
  · rw [h.loadGrid_one, h'.loadGrid_eq, Image.enlarge_one]
    rfl
  · have hd : c ∣ (im.enlarge c).width ∧ c ∣ (im.enlarge c).height :=
      ⟨Nat.dvd_mul_left c _, Nat.dvd_mul_left c _⟩
    rw [h'.loadGrid_of_dvd hlt hd, h.loadGrid_one, Image.shrink_enlarge im hc]

/-- A picture is refused for its size exactly if the codels do not fill it. -/
theorem Holds.loadGrid_eq_notMultiple_iff (h : files.Holds name im) (hc : 1 < c) :
    files.loadGrid name c = .error (.notMultiple im.width im.height c) ↔
      ¬(c ∣ im.width ∧ c ∣ im.height) := by
  constructor
  · intro he hd
    rw [h.loadGrid_of_dvd hc hd] at he
    obtain ⟨e, -, he⟩ := mapError_eq_error_iff.1 he
    cases he
  · exact h.loadGrid_of_not_dvd hc

theorem Holds.loadGrid_eq_ok_iff (h : files.Holds name im) (hc : 1 < c)
    (hd : c ∣ im.width ∧ c ∣ im.height) : files.loadGrid name c = .ok g ↔
      0 < im.width ∧ 0 < im.height ∧ g = (im.shrink c).grid ∧
        ∀ x < im.width / c, ∀ y < im.height / c, ∃ color : Color, color.pixel = im.codel c x y := by
  rw [h.loadGrid_of_dvd hc hd, mapError_eq_ok_iff]
  by_cases hpos : 0 < im.width ∧ 0 < im.height
  · obtain ⟨hw, hh⟩ := hpos
    obtain ⟨hws, hhs⟩ := Image.shrink_pos hw hh hd
    have hcodels : (∀ x < (im.shrink c).width, ∀ y < (im.shrink c).height,
          ∃ color : Color, color.pixel = (im.shrink c).get x y) ↔
        ∀ x < im.width / c, ∀ y < im.height / c, ∃ color : Color, color.pixel = im.codel c x y := by
      refine forall₂_congr fun x hx => forall₂_congr fun y hy => ?_
      rw [Image.get_shrink hx hy]
    rw [Grid.ofImage_eq_ok_iff hws hhs, hcodels]
    simp only [hw, hh, true_and]
  · have hempty : (im.shrink c).width = 0 ∨ (im.shrink c).height = 0 := by
      rcases Nat.eq_zero_or_pos im.width with hw | hw
      · exact Or.inl (by simp [Image.shrink, Image.ofFn, hw])
      · have hh : im.height = 0 := by omega
        exact Or.inr (by simp [Image.shrink, Image.ofFn, hh])
    rw [Grid.ofImage_of_empty hempty]
    constructor
    · intro he
      cases he
    · rintro ⟨hw, hh, -⟩
      exact absurd ⟨hw, hh⟩ hpos

/-- The first codel without a color is reported, row by row. -/
theorem Holds.exists_of_loadGrid_eq_error (h : files.Holds name im) (hc : 1 < c)
    (hd : c ∣ im.width ∧ c ∣ im.height) (hw : 0 < im.width) (hh : 0 < im.height) {e : LoadError}
    (he : files.loadGrid name c = .error e) :
    ∃ x < im.width / c, ∃ y < im.height / c, (∀ color : Color, color.pixel ≠ im.codel c x y) ∧
      e = .grid (.unrecognizedColor (im.codel c x y).rgb (some ⟨x, y⟩)) ∧
      ∀ x' < im.width / c, ∀ y' < im.height / c, y' < y ∨ y' = y ∧ x' < x →
        ∃ color : Color, color.pixel = im.codel c x' y' := by
  obtain ⟨hws, hhs⟩ := Image.shrink_pos hw hh hd
  rw [h.loadGrid_of_dvd hc hd] at he
  obtain ⟨e', he', rfl⟩ := mapError_eq_error_iff.1 he
  obtain ⟨x, hx, y, hy, hne, rfl, hbefore⟩ := Grid.ofImage_eq_error hws hhs he'
  rw [Image.get_shrink hx hy] at hne ⊢
  refine ⟨x, hx, y, hy, hne, rfl, fun x' hx' y' hy' hlt => ?_⟩
  obtain ⟨color, hcolor⟩ := hbefore x' hx' y' hy' hlt
  exact ⟨color, hcolor.trans (Image.get_shrink hx' hy')⟩

/-- A picture is loaded by the middle pixels of its codels, and refused if its sides are no
multiples of a codel. -/
theorem loadGrid_exact (h : files.Holds name im) :
    (∀ c : Nat, 1 ≤ c → ∀ (files' : Files) (name' : String), files'.Holds name' (im.enlarge c) →
      files'.loadGrid name' c = files.loadGrid name 1) ∧
    ∀ c : Nat, 1 < c →
      let columns := im.width / c
      let rows := im.height / c
      let known x y := ∃ color : Color, color.pixel = im.codel c x y
      (files.loadGrid name c = .error (.notMultiple im.width im.height c) ↔
        ¬(c ∣ im.width ∧ c ∣ im.height)) ∧
      (∀ x < columns, ∀ y < rows, c * x + c / 2 < im.width ∧ c * y + c / 2 < im.height) ∧
      (c ∣ im.width → c ∣ im.height →
        ((∃ g, files.loadGrid name c = .ok g) ↔
          0 < im.width ∧ 0 < im.height ∧ ∀ x < columns, ∀ y < rows, known x y) ∧
        (∀ g, files.loadGrid name c = .ok g → g.width = columns ∧ g.height = rows ∧
          ∀ x < columns, ∀ y < rows, ∀ color,
            g.colorAt ⟨x, y⟩ = .ok color ↔ color.pixel = im.codel c x y) ∧
        (∀ (files' : Files) (name' : String) (im' : Image), files'.Holds name' im' →
          im'.width = im.width → im'.height = im.height →
          (∀ x < columns, ∀ y < rows, im'.codel c x y = im.codel c x y) →
          files'.loadGrid name' c = files.loadGrid name c) ∧
        ∀ e, files.loadGrid name c = .error e → 0 < im.width → 0 < im.height →
          ∃ x < columns, ∃ y < rows, ¬known x y ∧
            e = .grid (.unrecognizedColor (im.codel c x y).rgb (some ⟨x, y⟩)) ∧
            ∀ x' < columns, ∀ y' < rows, y' < y ∨ y' = y ∧ x' < x → known x' y') := by
  refine ⟨fun c hc files' name' h' => h.loadGrid_enlarge h' hc, fun c hc => ?_⟩
  intro columns rows known
  have hpos : 0 < c := Nat.zero_lt_of_lt hc
  refine ⟨h.loadGrid_eq_notMultiple_iff hc, fun x hx y hy => ?_, fun hdw hdh => ?_⟩
  · exact ⟨(Image.middle_lt hpos hx).trans_le (Nat.div_mul_le_self _ _),
      (Image.middle_lt hpos hy).trans_le (Nat.div_mul_le_self _ _)⟩
  have hd := And.intro hdw hdh
  refine ⟨⟨?_, ?_⟩, fun g hg => ?_, fun files' name' im' h' hw hh hcodels => ?_,
    fun e he hw hh => ?_⟩
  · rintro ⟨g, hg⟩
    obtain ⟨hw, hh, -, hknown⟩ := (h.loadGrid_eq_ok_iff hc hd).1 hg
    exact ⟨hw, hh, hknown⟩
  · rintro ⟨hw, hh, hknown⟩
    exact ⟨_, (h.loadGrid_eq_ok_iff hc hd).2 ⟨hw, hh, rfl, hknown⟩⟩
  · obtain ⟨-, -, rfl, -⟩ := (h.loadGrid_eq_ok_iff hc hd).1 hg
    refine ⟨rfl, rfl, fun x hx y hy color => ?_⟩
    rw [Image.colorAt_grid_eq_ok_iff hx hy, Image.get_shrink hx hy]
  · have hd' : c ∣ im'.width ∧ c ∣ im'.height := by rwa [hw, hh]
    rw [h'.loadGrid_of_dvd hc hd', h.loadGrid_of_dvd hc hd, Image.shrink_congr hw hh hcodels]
  · obtain ⟨x, hx, y, hy, hne, he, hbefore⟩ := h.exists_of_loadGrid_eq_error hc hd hw hh he
    exact ⟨x, hx, y, hy, fun ⟨color, hcolor⟩ => hne color hcolor, he, hbefore⟩

/-- Four pixels by two, of which only the middles of two codels have a color. -/
def speckled : Image :=
  .ofFn 4 2 fun x y => if y = 1 ∧ x % 2 = 1 then Color.white.pixel else ⟨1, 2, 3⟩

/-- The picture as it is, and drawn twice as large. -/
def speckledFiles : Files := fun name =>
  .ok ⟨⟨#[0x89, 0x50, 0x4e, 0x47]⟩,
    .ok (if name = "large.png" then speckled.enlarge 2 else speckled)⟩

theorem loadGrid_exact_speckled :
    speckledFiles.Holds "small.png" speckled ∧
    speckledFiles.Holds "large.png" (speckled.enlarge 2) ∧
    speckledFiles.loadGrid "large.png" 2 = speckledFiles.loadGrid "small.png" 1 ∧
    speckledFiles.loadGrid "small.png" 3 = .error (.notMultiple 4 2 3) ∧
    (∃ g, speckledFiles.loadGrid "small.png" 2 = .ok g ∧ g.width = 2 ∧ g.height = 1 ∧
      g.colorAt ⟨1, 0⟩ = .ok .white) ∧
    ∃ e x y, speckledFiles.loadGrid "large.png" 2 = .error e ∧
      e = .grid (.unrecognizedColor ((speckled.enlarge 2).codel 2 x y).rgb (some ⟨x, y⟩)) := by
  have hsmall : speckledFiles.Holds "small.png" speckled :=
    ⟨by decide +kernel, _, rfl, rfl⟩
  have hlarge : speckledFiles.Holds "large.png" (speckled.enlarge 2) :=
    ⟨by decide +kernel, _, rfl, rfl⟩
  have hwhite : ∀ x < speckled.width / 2, ∀ y < speckled.height / 2,
      Color.white.pixel = speckled.codel 2 x y := by decide +kernel
  have hfails : speckledFiles.loadGrid "large.png" 2 =
      .error (.grid (.unrecognizedColor ⟨1, 2, 3⟩ (some ⟨0, 0⟩))) := by with_unfolding_all rfl
  obtain ⟨henlarged, hloads⟩ := loadGrid_exact hsmall
  obtain ⟨-, hlarger⟩ := loadGrid_exact hlarge
  obtain ⟨hthree, -, -⟩ := hloads 3 (by decide)
  obtain ⟨-, -, htwo⟩ := hloads 2 (by decide)
  obtain ⟨hok, hgrid, -, -⟩ := htwo (by decide) (by decide)
  obtain ⟨g, hg⟩ := hok.2 ⟨by decide, by decide, fun x hx y hy => ⟨_, hwhite x hx y hy⟩⟩
  obtain ⟨hw, hh, hcolor⟩ := hgrid g hg
  have hlast := (hcolor 1 (by decide) 0 (by decide) .white).2 (hwhite 1 (by decide) 0 (by decide))
  obtain ⟨-, -, htwo⟩ := hlarger 2 (by decide)
  obtain ⟨-, -, -, herror⟩ := htwo (by decide) (by decide)
  obtain ⟨x, -, y, -, -, he, -⟩ := herror _ hfails (by decide) (by decide)
  exact ⟨hsmall, hlarge, henlarged 2 (by decide) _ _ hlarge, hthree.2 (by decide),
    ⟨g, hg, hw, hh, hlast⟩, _, x, y, hfails, he⟩

end Files
end Piet
