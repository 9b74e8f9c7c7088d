import Piet.Proofs.Grid
import Mathlib.Order.Bounds.Basic
import Mathlib.Data.Nat.Find

/-! Pictures as rows of bytes. A buffer is refused for its size or for its first color outside of
the palette; any other is the encoding of the colors that its grid shows. -/
namespace Piet

namespace Pixel

/-- The bytes as the numbers that a color is decoded from. -/
def samples (p : Pixel) : List Int := p.toBytes.map fun b => (b.toNat : Int)

def bytes (p : Pixel) : Vector UInt8 3 := ⟨p.toBytes.toArray, rfl⟩

end Pixel

/-- Rows of colors, all of one length. -/
abbrev Canvas (width height : Nat) := Vector (Vector Color width) height

/-- The colors row by row, three bytes for each. -/
def Canvas.bytes {width height : Nat} (canvas : Canvas width height) : Array UInt8 :=
  (canvas.flatten.flatMap fun c => c.pixel.bytes).toArray

/-- The three bytes of pixel `i`. -/
def pixelAt (bytes : Array UInt8) (i : Nat) : Pixel :=
  ⟨bytes.getD (3 * i) 0, bytes.getD (3 * i + 1) 0, bytes.getD (3 * i + 2) 0⟩

/-- No color of the palette has the bytes of pixel `i`. -/
def Unknown (bytes : Array UInt8) (i : Nat) : Prop := ∀ c : Color, c.pixel ≠ pixelAt bytes i

/-- Something is wrong with a size, a shape or a length, and not with a color. -/
def Error.isValue : Error → Bool
  | .invalidSize .. | .bufferSize .. | .invalidShape _ => true
  | .noRows | .unequalRows _ | .emptyRegion => true
  | _ => false

namespace Pixel

theorem ofCode_code (p : Pixel) : Rgb.ofCode p.code = p.rgb := by
  have hg := p.green.toNat_lt
  have hb := p.blue.toNat_lt
  have hr := p.red.toNat_lt
  unfold Rgb.ofCode code rgb
  rw [Rgb.mk.injEq]
  omega

/-- The three bytes are the digits of the code to the base 256. -/
theorem code_injective {p q : Pixel} (h : p.code = q.code) : p = q := by
  have hrgb : p.rgb = q.rgb := by rw [← ofCode_code, h, ofCode_code]
  obtain ⟨hr, hg, hb⟩ := Rgb.mk.inj hrgb
  cases p
  cases q
  rw [mk.injEq]
  exact ⟨UInt8.toNat_inj.1 (Int.ofNat.inj hr), UInt8.toNat_inj.1 (Int.ofNat.inj hg),
    UInt8.toNat_inj.1 (Int.ofNat.inj hb)⟩

theorem code_eq_code_iff {p : Pixel} {c : Color} : p.code = c.code ↔ c.pixel = p :=
  ⟨fun h => (code_injective h).symm, fun h => congrArg code h.symm⟩

end Pixel

theorem not_unknown_iff {bytes : Array UInt8} {i : Nat} :
    ¬Unknown bytes i ↔ ∃ c : Color, c.pixel = pixelAt bytes i := by
  unfold Unknown
  rw [not_forall]
  exact exists_congr fun c => not_not

theorem exists_code_iff {bytes : Array UInt8} {i : Nat} :
    (∃ c : Color, (pixelAt bytes i).code = c.code) ↔ ¬Unknown bytes i := by
  rw [not_unknown_iff]
  exact exists_congr fun c => Pixel.code_eq_code_iff

theorem Color.decode_samples (c : Color) : decode c.pixel.samples = .ok c := by
  rcases c with ⟨h, l⟩ | _ | _
  · cases h <;> cases l <;> decide
  · decide
  · decide

/-- Buffers of whole pixels are equal if their pixels are. -/
theorem eq_of_pixelAt {b b' : Array UInt8} {n : Nat} (hb : b.size = 3 * n) (hb' : b'.size = 3 * n)
    (h : ∀ i < n, pixelAt b i = pixelAt b' i) : b = b' := by
  refine Array.ext (hb.trans hb'.symm) fun k hk hk' => ?_
  obtain ⟨h₀, h₁, h₂⟩ := Pixel.mk.inj (h (k / 3) (by omega))
  have hcases : k = 3 * (k / 3) ∨ k = 3 * (k / 3) + 1 ∨ k = 3 * (k / 3) + 2 := by omega
  rw [Array.getElem_eq_getD 0, Array.getElem_eq_getD 0]
  rcases hcases with hk | hk | hk <;> rw [hk] <;> assumption

namespace Canvas

variable {w h : Nat} (canvas : Canvas w h)

theorem size_bytes : canvas.bytes.size = 3 * (w * h) := by
  rw [Nat.mul_comm, Nat.mul_comm w h]
  exact Vector.size_toArray _

theorem getD_bytes {i r : Nat} (hi : i < h * w) (hr : r < 3) : canvas.bytes.getD (3 * i + r) 0 =
    canvas.flatten[i].pixel.bytes[r] := by
  have hlt : 3 * i + r < h * w * 3 := by omega
  have hdiv : (3 * i + r) / 3 = i := by omega
  have hmod : (3 * i + r) % 3 = r := by omega
  have hsize : 3 * i + r < canvas.bytes.size := hlt.trans_eq (Vector.size_toArray _).symm
  calc canvas.bytes.getD (3 * i + r) 0 = canvas.bytes[3 * i + r] := (Array.getElem_eq_getD 0).symm
    _ = (canvas.flatten.flatMap fun c => c.pixel.bytes)[3 * i + r] := Vector.getElem_toArray hsize
    _ = canvas.flatten[i].pixel.bytes[r] := by
      rw [Vector.getElem_flatMap hlt]
      simp only [hdiv, hmod]

theorem pixelAt_bytes {i : Nat} (hi : i < h * w) :
    pixelAt canvas.bytes i = canvas.flatten[i].pixel := by
  have h₀ := canvas.getD_bytes hi (show 0 < 3 by decide)
  have h₁ := canvas.getD_bytes hi (show 1 < 3 by decide)
  have h₂ := canvas.getD_bytes hi (show 2 < 3 by decide)
  exact congr (congr (congrArg Pixel.mk h₀) h₁) h₂

theorem place_lt (x : Fin w) (y : Fin h) : y * w + x < h * w := by
  have hm : (y + 1) * w ≤ h * w := Nat.mul_le_mul_right w y.isLt
  rw [Nat.succ_mul] at hm
  omega

theorem place_div (x : Fin w) (y : Nat) : (y * w + x) / w = y := by
  rw [Nat.mul_comm, Nat.mul_add_div (Nat.zero_lt_of_lt x.isLt), Nat.div_eq_of_lt x.isLt,
    Nat.add_zero]

theorem place_mod (x : Fin w) (y : Nat) : (y * w + x) % w = x := by
  rw [Nat.mul_add_mod_self_right, Nat.mod_eq_of_lt x.isLt]

theorem getElem_flatten_place (x : Fin w) (y : Fin h) (hi : y * w + x < h * w) :
    canvas.flatten[y * w + x] = canvas[y][x] := by
  rw [Vector.getElem_flatten]
  simp only [place_div, place_mod]
  rfl

end Canvas

namespace Grid

/-- The grid of the buffer's pixels, whatever their colors are. -/
def ofPixels (bytes : Array UInt8) (w h : Nat) : Grid :=
  ⟨w, h, Array.ofFn fun i : Fin (w * h) => (pixelAt bytes i).code, Array.size_ofFn⟩

/-- The grid shows the colors of the canvas. -/
structure Shows {w h : Nat} (g : Grid) (canvas : Canvas w h) : Prop where
  width_eq : g.width = w
  height_eq : g.height = h
  colorAt_eq : ∀ (x : Fin w) (y : Fin h), g.colorAt ⟨x, y⟩ = .ok canvas[y][x]

/-- The bytes make up a picture of these sides. -/
structure Fits (bytes : Array UInt8) (w h : Nat) : Prop where
  width_pos : 0 < w
  height_pos : 0 < h
  size_eq : bytes.size = 3 * (w * h)

variable {bytes : Array UInt8} {w h : Nat}

theorem Fits.ofBuffer_eq (hf : Fits bytes w h) :
    ofBuffer bytes w h = (ofPixels bytes w h).validate := by
  have hw := hf.width_pos
  have hh := hf.height_pos
  have hsize : bytes.size = w * h * Channels.rgb.count := hf.size_eq.trans (Nat.mul_comm ..)
  unfold ofBuffer Image.ofSamples?
  rw [if_neg (by omega), Int.toNat_natCast, Int.toNat_natCast, if_pos hsize]
  dsimp only [ofImage]
  rw [if_neg (by omega)]
  simp only [Array.map_ofFn]
  rfl

theorem Fits.ofBuffer_eq_ok_iff (hf : Fits bytes w h) {g : Grid} : ofBuffer bytes w h = .ok g ↔
    g = ofPixels bytes w h ∧ ∀ i < w * h, ¬Unknown bytes i := by
  rw [hf.ofBuffer_eq, validate_eq_ok_iff]
  refine and_congr_right fun _ => ?_
  simp only [ofPixels, Array.mem_ofFn, forall_exists_index, forall_apply_eq_imp_iff,
    exists_code_iff]
  exact ⟨fun hk i hi => hk ⟨i, hi⟩, fun hk i => hk i i.isLt⟩

theorem Fits.ofBuffer_eq_error_iff (hf : Fits bytes w h) {e : Error} :
    ofBuffer bytes w h = .error e ↔ ∃ i, IsLeast {i | i < w * h ∧ Unknown bytes i} i ∧
      e = .unrecognizedColor (pixelAt bytes i).rgb (some ⟨(i % w : Nat), (i / w : Nat)⟩) := by
  have hsize : (ofPixels bytes w h).codes.size = w * h := Array.size_ofFn
  have hcode : ∀ i, (hi : i < (ofPixels bytes w h).codes.size) →
      (ofPixels bytes w h).codes[i] = (pixelAt bytes i).code := fun i _ => Array.getElem_ofFn _
  rw [hf.ofBuffer_eq, validate_eq_error_iff]
  constructor
  · rintro ⟨i, hi, hunknown, hknown, rfl⟩
    rw [hcode i hi, exists_code_iff, not_not] at hunknown
    refine ⟨i, ⟨⟨hsize ▸ hi, hunknown⟩, fun j hj => ?_⟩, ?_⟩
    · by_contra hlt
      have hk := hknown j (by omega)
      rw [hcode j (hsize ▸ hj.1), exists_code_iff] at hk
      exact hk hj.2
    · rw [hcode i hi, Pixel.ofCode_code]
      rfl
  · rintro ⟨i, ⟨⟨hi, hunknown⟩, hleast⟩, rfl⟩
    rw [← hsize] at hi
    refine ⟨i, hi, ?_, fun j hj => ?_, ?_⟩
    · rw [hcode i hi, exists_code_iff, not_not]
      exact hunknown
    · rw [hcode j (by omega), exists_code_iff]
      intro hu
      have hle : i ≤ j := hleast ⟨by omega, hu⟩
      omega
    · rw [hcode i hi, Pixel.ofCode_code]
      rfl

theorem colorAt_ofPixels {p : Position} (hp : p ∈ ofPixels bytes w h) {c : Color} :
    (ofPixels bytes w h).colorAt p = .ok c ↔
      c.pixel = pixelAt bytes ((ofPixels bytes w h).index p) := by
  have hcode : (ofPixels bytes w h).codeAt? p =
      some (pixelAt bytes ((ofPixels bytes w h).index p)).code := by
    rw [codeAt?, if_pos hp, Array.getElem?_eq_getElem (index_lt hp)]
    exact congrArg _ (Array.getElem_ofFn _)
  rw [colorAt_eq_ok_iff, hcode, Option.some.injEq]
  exact Pixel.code_eq_code_iff

theorem shows_ofPixels_iff {canvas : Canvas w h} :
    (ofPixels bytes w h).Shows canvas ↔
      ∀ i, (hi : i < h * w) → canvas.flatten[i].pixel = pixelAt bytes i := by
  have hcolor : ∀ (x : Fin w) (y : Fin h) {c : Color},
      (ofPixels bytes w h).colorAt ⟨x, y⟩ = .ok c ↔ c.pixel = pixelAt bytes (y * w + x) := by
    intro x y c
    exact colorAt_ofPixels (mem_iff.2 ⟨⟨Int.natCast_nonneg _, Int.ofNat_lt.2 x.isLt⟩,
      Int.natCast_nonneg _, Int.ofNat_lt.2 y.isLt⟩)
  constructor
  · intro hs i hi
    have hw : 0 < w := Nat.pos_of_mul_pos_left (Nat.zero_lt_of_lt hi)
    have hh : i / w < h := Nat.div_lt_of_lt_mul (Nat.mul_comm h w ▸ hi)
    have hc := hs.colorAt_eq ⟨i % w, Nat.mod_lt i hw⟩ ⟨i / w, hh⟩
    rw [hcolor] at hc
    rw [Vector.getElem_flatten]
    exact hc.trans (congrArg _ (Nat.div_add_mod' i w))
  · intro hk
    refine ⟨rfl, rfl, fun x y => ?_⟩
    rw [hcolor, ← hk _ (Canvas.place_lt x y), Canvas.getElem_flatten_place]

/-- A grid that shows a canvas was read from its bytes. -/
theorem bytes_eq_of_shows (hf : Fits bytes w h) {w' h' : Nat} {canvas : Canvas w' h'}
    (hs : (ofPixels bytes w h).Shows canvas) : canvas.bytes = bytes := by
  obtain rfl : w = w' := hs.width_eq
  obtain rfl : h = h' := hs.height_eq
  refine eq_of_pixelAt canvas.size_bytes hf.size_eq fun i hi => ?_
  rw [Nat.mul_comm] at hi
  rw [canvas.pixelAt_bytes hi]
  exact shows_ofPixels_iff.1 hs i hi

/-- Where no color is unknown there is a canvas to be seen. -/
theorem exists_shows (hk : ∀ i < w * h, ¬Unknown bytes i) :
    ∃ canvas : Canvas w h, (ofPixels bytes w h).Shows canvas := by
  have hcolor : ∀ i, i < h * w → ∃ c : Color, c.pixel = pixelAt bytes i :=
    fun i hi => not_unknown_iff.1 (hk i (Nat.mul_comm h w ▸ hi))
  choose color hpixel using hcolor
  refine ⟨.ofFn fun y => .ofFn fun x => color _ (Canvas.place_lt x y),
    shows_ofPixels_iff.2 fun i hi => ?_⟩
  rw [Vector.getElem_flatten, Vector.getElem_ofFn, Vector.getElem_ofFn, hpixel]
  exact congrArg _ (Nat.div_add_mod' i w)

theorem Fits.of_not {width height : Int}
    (h : ¬(width ≤ 0 ∨ height ≤ 0 ∨ (bytes.size : Int) ≠ 3 * width * height)) :
    ∃ w h : Nat, width = w ∧ height = h ∧ Fits bytes w h := by
  rw [not_or, not_or, not_not] at h
  obtain ⟨hw, hh, hsize⟩ := h
  obtain ⟨w, rfl⟩ := Int.eq_ofNat_of_zero_le (show 0 ≤ width by omega)
  obtain ⟨h, rfl⟩ := Int.eq_ofNat_of_zero_le (show 0 ≤ height by omega)
  refine ⟨w, h, rfl, rfl, by omega, by omega, ?_⟩
  rw [Int.mul_assoc] at hsize
  exact_mod_cast hsize

/-- A buffer that does not make up a picture is refused for its size. -/
theorem ofBuffer_of_misfit {width height : Int}
    (h : width ≤ 0 ∨ height ≤ 0 ∨ (bytes.size : Int) ≠ 3 * width * height) :
    ∃ e, ofBuffer bytes width height = .error e ∧ e.isValue = true := by
  unfold ofBuffer
  split
  · exact ⟨_, rfl, rfl⟩
  · next hsides =>
    obtain ⟨w, rfl⟩ := Int.eq_ofNat_of_zero_le (show 0 ≤ width by omega)
    obtain ⟨h', rfl⟩ := Int.eq_ofNat_of_zero_le (show 0 ≤ height by omega)
    have hsize : bytes.size ≠ w * h' * Channels.rgb.count := by
      intro hs
      have hs' : (bytes.size : Int) = 3 * w * h' := by
        rw [hs, Nat.mul_comm, ← Nat.mul_assoc]
        rfl
      omega
    rw [Int.toNat_natCast, Int.toNat_natCast, Image.ofSamples?, if_neg hsize]
    exact ⟨_, rfl, rfl⟩

/-- Where no color is unknown each place has the color that its bytes decode to. -/
theorem colorAt_ofPixels_eq_decode (hk : ∀ i < w * h, ¬Unknown bytes i) {p : Position}
    (hp : p ∈ ofPixels bytes w h) : (ofPixels bytes w h).colorAt p =
      Color.decode (pixelAt bytes ((ofPixels bytes w h).index p)).samples := by
  have hi : (ofPixels bytes w h).index p < w * h := (index_lt hp).trans_eq Array.size_ofFn
  obtain ⟨c, hc⟩ := not_unknown_iff.1 (hk _ hi)
  rw [(colorAt_ofPixels hp).2 hc, ← hc, Color.decode_samples]

/-- What a canvas is encoded to is read as that canvas. -/
theorem ofBuffer_bytes (canvas : Canvas w h) (hw : 0 < w) (hh : 0 < h) :
    ∃ g, ofBuffer canvas.bytes w h = .ok g ∧ g.Shows canvas := by
  have hf : Fits canvas.bytes w h := ⟨hw, hh, canvas.size_bytes⟩
  refine ⟨_, hf.ofBuffer_eq_ok_iff.2 ⟨rfl, fun i hi hu => ?_⟩,
    shows_ofPixels_iff.2 fun i hi => (canvas.pixelAt_bytes hi).symm⟩
  rw [Nat.mul_comm] at hi
  exact hu _ (canvas.pixelAt_bytes hi).symm

/-- A buffer is refused for its size, then for its first color outside of the palette; otherwise it
encodes what its grid shows. -/
theorem ofBuffer_exact (bytes : Array UInt8) (width height : Int) :
    let misfit := width ≤ 0 ∨ height ≤ 0 ∨ (bytes.size : Int) ≠ 3 * width * height
    let unknown := {i : Nat | (i : Int) < width * height ∧ Unknown bytes i}
    ((∃ e, ofBuffer bytes width height = .error e ∧ e.isValue = true) ↔ misfit) ∧
    ((∃ rgb p, ofBuffer bytes width height = .error (.unrecognizedColor rgb p)) ↔
      ¬misfit ∧ unknown.Nonempty) ∧
    (∀ rgb p, ofBuffer bytes width height = .error (.unrecognizedColor rgb p) →
      ∃ i, IsLeast unknown i ∧ rgb = (pixelAt bytes i).rgb ∧ p = some ⟨i % width, i / width⟩) ∧
    (¬misfit → unknown = ∅ → ∃ g, ofBuffer bytes width height = .ok g ∧
      g.width = width ∧ g.height = height ∧
      ∀ p ∈ g, g.colorAt p = Color.decode (pixelAt bytes (g.index p)).samples) ∧
    (∀ g, ofBuffer bytes width height = .ok g →
      (∃ canvas : Canvas g.width g.height, g.Shows canvas) ∧
      ∀ w h (canvas : Canvas w h), g.Shows canvas → canvas.bytes = bytes) ∧
    ∀ w h (canvas : Canvas w h), 0 < w → 0 < h →
      ∃ g, ofBuffer canvas.bytes w h = .ok g ∧ g.Shows canvas := by
  intro misfit unknown
  -- The size decides first; where it is right the sides are numbers of pixels.
  by_cases hm : misfit
  · obtain ⟨e, he, hv⟩ := ofBuffer_of_misfit hm
    have hcolor : ∀ rgb p, ofBuffer bytes width height ≠ .error (.unrecognizedColor rgb p) := by
      intro rgb p h
      cases he.symm.trans h
      cases hv
    refine ⟨⟨fun _ => hm, fun _ => ⟨e, he, hv⟩⟩,
      ⟨fun ⟨rgb, p, h⟩ => absurd h (hcolor rgb p), fun h => absurd hm h.1⟩,
      fun rgb p h => absurd h (hcolor rgb p), fun h => absurd hm h, fun g hg => ?_,
      fun w h => ofBuffer_bytes⟩
    cases he.symm.trans hg
  · obtain ⟨w, h, rfl, rfl, hf⟩ := Fits.of_not hm
    have hset : unknown = {i | i < w * h ∧ Unknown bytes i} := by
      ext i
      exact and_congr_left fun _ => by rw [← Int.natCast_mul, Int.ofNat_lt]
    rw [hset]
    refine ⟨⟨fun ⟨e, he, hv⟩ => ?_, fun h => absurd h hm⟩, ⟨fun ⟨rgb, p, he⟩ => ⟨hm, ?_⟩, ?_⟩,
      fun rgb p he => ?_, fun _ hnone => ?_, fun g hg => ?_, fun w h => ofBuffer_bytes⟩
    · obtain ⟨i, -, rfl⟩ := hf.ofBuffer_eq_error_iff.1 he
      cases hv
    · obtain ⟨i, hi, -⟩ := hf.ofBuffer_eq_error_iff.1 he
      exact ⟨i, hi.1⟩
    · rintro ⟨-, hsome⟩
      classical
      exact ⟨_, _, hf.ofBuffer_eq_error_iff.2
        ⟨Nat.find hsome, ⟨Nat.find_spec hsome, fun _ => Nat.find_min' hsome⟩, rfl⟩⟩
    · obtain ⟨i, hi, he⟩ := hf.ofBuffer_eq_error_iff.1 he
      cases he
      exact ⟨i, hi, rfl, rfl⟩
    · have hk : ∀ i < w * h, ¬Unknown bytes i := fun i hi hu =>
        hnone.subset (show i ∈ {i | i < w * h ∧ Unknown bytes i} from ⟨hi, hu⟩)
      exact ⟨_, hf.ofBuffer_eq_ok_iff.2 ⟨rfl, hk⟩, rfl, rfl,
        fun p hp => colorAt_ofPixels_eq_decode hk hp⟩
    · obtain ⟨rfl, hk⟩ := hf.ofBuffer_eq_ok_iff.1 hg
      exact ⟨exists_shows hk, fun w' h' canvas => bytes_eq_of_shows hf⟩

theorem ofBuffer_exact_pair :
    (∃ g, ofBuffer #[0xff, 0, 0, 0xff, 0xff, 0xff] 2 1 = .ok g ∧
      ∃ canvas : Canvas g.width g.height, g.Shows canvas ∧
        canvas.bytes = #[0xff, 0, 0, 0xff, 0xff, 0xff]) ∧
    (∃ g, ofBuffer (Canvas.bytes #v[#v[.black], #v[.white]]) 1 2 = .ok g ∧
      g.Shows #v[#v[.black], #v[.white]]) ∧
    ∃ rgb p, ofBuffer #[0xff, 0, 0, 1, 2, 3] 2 1 = .error (.unrecognizedColor rgb p) ∧
      ∃ i, rgb = (pixelAt #[0xff, 0, 0, 1, 2, 3] i).rgb ∧ p = some ⟨i % 2, i / 2⟩ := by
  have hknown : {i : Nat | (i : Int) < 2 * 1 ∧ Unknown #[0xff, 0, 0, 0xff, 0xff, 0xff] i} = ∅ := by
    refine Set.eq_empty_of_forall_notMem ?_
    rintro i ⟨hi, hu⟩
    obtain rfl | rfl : i = 0 ∨ i = 1 := by omega
    · exact hu (.chromatic .red .normal) rfl
    · exact hu .white rfl
  have hunknown : Unknown #[0xff, 0, 0, 1, 2, 3] 1 := by
    intro c hc
    rcases c with ⟨h, l⟩ | _ | _
    · cases h <;> cases l <;> cases hc
    · cases hc
    · cases hc
  refine ⟨?_, ?_, ?_⟩
  · obtain ⟨-, -, -, hok, hshows, -⟩ := ofBuffer_exact #[0xff, 0, 0, 0xff, 0xff, 0xff] 2 1
    obtain ⟨g, hg, -⟩ := hok (by decide) hknown
    obtain ⟨⟨canvas, hs⟩, hbytes⟩ := hshows g hg
    exact ⟨g, hg, canvas, hs, hbytes _ _ canvas hs⟩
  · obtain ⟨-, -, -, -, -, hcanvas⟩ := ofBuffer_exact #[] 1 2
    exact hcanvas 1 2 _ (by decide) (by decide)
  · obtain ⟨-, hiff, hfirst, -⟩ := ofBuffer_exact #[0xff, 0, 0, 1, 2, 3] 2 1
    obtain ⟨rgb, p, he⟩ := hiff.2 ⟨by decide, 1, by decide, hunknown⟩
    obtain ⟨i, -, hrgb, hp⟩ := hfirst rgb p he
    exact ⟨rgb, p, he, i, hrgb, hp⟩

end Grid
end Piet
