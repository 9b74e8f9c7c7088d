import Piet.Proofs.Arrays
import Mathlib.Algebra.Group.Int.Defs
import Mathlib.Algebra.Group.Nat.Defs

/-! Colors read off bare integers. Three bytes are the digits of their code to the base 256; other
integers may have the code of a color between them. -/
namespace Piet

/-- Bits below all bits of the other number are added to it. -/
theorem Bits.or_of_lt {m n i : Nat} (h : n < 2 ^ i) : or (m * 2 ^ i : Nat) n = (m * 2 ^ i + n : Nat) := by
  have hor := Nat.two_pow_add_eq_or_of_lt h m
  rw [Nat.mul_comm] at hor
  exact congrArg Int.ofNat hor.symm

namespace Rgb

variable {c d : Rgb}

theorem pack_natCast (r : Nat) {g b : Nat} (hg : g < 256) (hb : b < 256) :
    pack ⟨r, g, b⟩ = (r * 2 ^ 16 + g * 2 ^ 8 + b : Nat) := by
  have hgreen : g * 2 ^ 8 < 2 ^ 16 := by omega
  have hsplit : r * 2 ^ 16 + g * 2 ^ 8 = (r * 2 ^ 8 + g) * 2 ^ 8 := by omega
  change Bits.or (Bits.or (r * 2 ^ 16 : Nat) (g * 2 ^ 8 : Nat)) b = _
  rw [Bits.or_of_lt hgreen, hsplit, Bits.or_of_lt hb]

/-- The bits of bytes do not overlap, so to combine them is to add them up. -/
theorem pack_of_isBytes (h : c.IsBytes) :
    c.pack = c.red * 0x10000 + c.green * 0x100 + c.blue := by
  obtain ⟨red, green, blue⟩ := c
  obtain ⟨⟨hr, -⟩, ⟨hg, hg'⟩, hb, hb'⟩ := h
  obtain ⟨r, rfl⟩ := Int.eq_ofNat_of_zero_le hr
  obtain ⟨g, rfl⟩ := Int.eq_ofNat_of_zero_le hg
  obtain ⟨b, rfl⟩ := Int.eq_ofNat_of_zero_le hb
  rw [pack_natCast r (Int.ofNat_lt.1 hg') (Int.ofNat_lt.1 hb')]
  dsimp only
  omega

theorem isBytes_ofCode (n : Int) : (ofCode n).IsBytes := by
  unfold IsBytes ofCode
  dsimp only
  omega

theorem ofCode_pack (h : c.IsBytes) : ofCode c.pack = c := by
  rw [pack_of_isBytes h]
  obtain ⟨hr, hg, hb⟩ := h
  obtain ⟨red, green, blue⟩ := c
  simp only [ofCode, mk.injEq]
  dsimp only at hr hg hb
  omega

/-- The low three bytes of a number are packed to its remainder. -/
theorem pack_ofCode (n : Int) : (ofCode n).pack = n % 2 ^ 24 := by
  rw [pack_of_isBytes (isBytes_ofCode n)]
  simp only [ofCode]
  omega

theorem pack_injective (hc : c.IsBytes) (hd : d.IsBytes) (h : c.pack = d.pack) : c = d := by
  rw [← ofCode_pack hc, h, ofCode_pack hd]

theorem pack_bounds (h : c.IsBytes) : 0 ≤ c.pack ∧ c.pack < 2 ^ 24 := by
  rw [← ofCode_pack h, pack_ofCode]
  omega

end Rgb

namespace Color

variable {c : Color} {sample : List Int} {rgb : Rgb} {n : Int} {e : Error}

/-- What is looked up for three integers: the code that they have if they are bytes. -/
theorem lookup_eq_some_iff :
    (if rgb.IsBytes then ofCode? rgb.pack else none) = some c ↔ rgb = c.pixel.rgb := by
  have hcode : c.pixel.rgb = .ofCode c.code := (Pixel.ofCode_code c.pixel).symm
  have hlt : (c.code : Int) < 2 ^ 24 := by exact_mod_cast code_lt c
  constructor
  · intro h
    split at h
    · next hbytes =>
      rw [hcode, ← ofCode?_eq_some_iff.1 h, Rgb.ofCode_pack hbytes]
    · cases h
  · rintro rfl
    rw [hcode, if_pos (Rgb.isBytes_ofCode _), Rgb.pack_ofCode, ofCode?_eq_some_iff]
    omega

/-- The first three integers are the bytes of the color. -/
theorem decode_eq_ok_iff : decode sample = .ok c ↔ c.pixel.samples <+: sample := by
  rcases sample with _ | ⟨r, _ | ⟨g, _ | ⟨b, rest⟩⟩⟩
  · simp [decode, Pixel.samples, Pixel.toBytes]
  · simp [decode, Pixel.samples, Pixel.toBytes]
  · simp [decode, Pixel.samples, Pixel.toBytes]
  · have hbytes : c.pixel.samples <+: r :: g :: b :: rest ↔ (⟨r, g, b⟩ : Rgb) = c.pixel.rgb := by
      simp [Pixel.samples, Pixel.toBytes, Pixel.rgb, eq_comm]
    rw [hbytes, ← lookup_eq_some_iff, decode]
    split
    · next c' h => simp [h]
    · next h => simp [h]

theorem decode_eq_shortSample_iff : decode sample = .error .shortSample ↔ sample.length < 3 := by
  rcases sample with _ | ⟨r, _ | ⟨g, _ | ⟨b, rest⟩⟩⟩
  · simp [decode]
  · simp [decode]
  · simp [decode]
  · simp only [decode, List.length_cons]
    split <;> simp

/-- Three integers that are no color are reported as they are. -/
theorem decode_eq_error (h : decode sample = .error e) (hlength : 3 ≤ sample.length) :
    ∃ r g b rest, sample = r :: g :: b :: rest ∧ e = .unrecognizedColor ⟨r, g, b⟩ none := by
  rcases sample with _ | ⟨r, _ | ⟨g, _ | ⟨b, rest⟩⟩⟩
  · cases hlength
  · simp at hlength
  · simp at hlength
  · refine ⟨r, g, b, rest, rfl, ?_⟩
    simp only [decode] at h
    split at h
    · cases h
    · exact (Except.error.inj h).symm

theorem ofCode_pack_eq_decode (h : rgb.IsBytes) :
    ofCode rgb.pack = decode [rgb.red, rgb.green, rgb.blue] := by
  simp only [ofCode, decode, if_pos h, Rgb.ofCode_pack h]

theorem ofCode_eq_error (h : ofCode n = .error e) : e = .unrecognizedColor (.ofCode n) none := by
  unfold ofCode at h
  split at h
  · cases h
  · exact (Except.error.inj h).symm

/-- Of all integers only the bytes of a color and the codes of the palette are read as colors. -/
theorem decode_exact :
    (∀ sample : List Int,
      (∀ c, decode sample = .ok c ↔ c.pixel.samples <+: sample) ∧
      (decode sample = .error .shortSample ↔ sample.length < 3) ∧
      ∀ e, decode sample = .error e → 3 ≤ sample.length →
        ∃ r g b rest, sample = r :: g :: b :: rest ∧ e = .unrecognizedColor ⟨r, g, b⟩ none) ∧
    (∀ x y : Rgb, x.IsBytes → y.IsBytes → x.pack = y.pack → x = y) ∧
    (∀ x : Rgb, x.IsBytes → 0 ≤ x.pack ∧ x.pack < 2 ^ 24 ∧
      ofCode x.pack = decode [x.red, x.green, x.blue]) ∧
    ∀ n : Int,
      (∀ c, ofCode n = .ok c ↔ n = c.code) ∧
      ∀ e, ofCode n = .error e → ∃ rgb : Rgb, e = .unrecognizedColor rgb none ∧
        rgb.IsBytes ∧ rgb.pack = n % 2 ^ 24 := by
  refine ⟨fun sample => ?_, fun x y => Rgb.pack_injective, fun x hx => ?_, fun n => ?_⟩
  · exact ⟨fun c => decode_eq_ok_iff, decode_eq_shortSample_iff, fun e => decode_eq_error⟩
  · obtain ⟨hnonneg, hlt⟩ := Rgb.pack_bounds hx
    exact ⟨hnonneg, hlt, ofCode_pack_eq_decode hx⟩
  · refine ⟨fun c => ofCode_eq_ok_iff, fun e he => ?_⟩
    exact ⟨_, ofCode_eq_error he, Rgb.isBytes_ofCode n, Rgb.pack_ofCode n⟩

/-- Three integers that have the code of red between them without being its bytes, and a negative
number with the low bytes of white. -/
theorem decode_exact_collision :
    decode [0xc0, 0, 0, 7] = .ok (.chromatic .red .dark) ∧ decode [0xff, 0] = .error .shortSample ∧
    Rgb.pack ⟨0, 0xff00, 0⟩ = (chromatic .red .normal).code ∧
    (∃ e, decode [0, 0xff00, 0] = .error e ∧
      ∃ r g b rest, [0, 0xff00, 0] = r :: g :: b :: rest ∧ e = .unrecognizedColor ⟨r, g, b⟩ none) ∧
    (Rgb.IsBytes ⟨0xff, 0, 0⟩ ∧ ofCode (Rgb.pack ⟨0xff, 0, 0⟩) = decode [0xff, 0, 0]) ∧
    (Rgb.pack ⟨1, 2, 3⟩ = Rgb.pack (.ofCode 0x010203) → ⟨1, 2, 3⟩ = Rgb.ofCode 0x010203) ∧
    ∃ e, ofCode (-1) = .error e ∧ ∃ rgb : Rgb, e = .unrecognizedColor rgb none ∧
      rgb.pack = 0xffffff := by
  obtain ⟨hsample, hinjective, hpack, hcode⟩ := decode_exact
  have hcollision : ∃ e, decode [0, 0xff00, 0] = .error e := ⟨_, rfl⟩
  have hnegative : ∃ e, ofCode (-1) = .error e := ⟨_, rfl⟩
  have hred : Rgb.IsBytes ⟨0xff, 0, 0⟩ := by decide
  obtain ⟨e, he⟩ := hcollision
  obtain ⟨e', he'⟩ := hnegative
  obtain ⟨rgb, hrgb, -, hrepacked⟩ := (hcode (-1)).2 e' he'
  refine ⟨((hsample _).1 _).2 ⟨[7], rfl⟩, (hsample _).2.1.2 (by decide), by decide,
    ⟨e, he, (hsample _).2.2 e he (by decide)⟩, ⟨hred, (hpack _ hred).2.2⟩,
    hinjective _ _ (by decide) (by decide), e', he', rgb, hrgb, hrepacked.trans (by decide)⟩

end Color
end Piet
