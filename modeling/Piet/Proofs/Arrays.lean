import Piet.Proofs.Buffer

/-! Arrays and buffers, and two checks of the colors. An array of rows of pixels is read as the buffer of
its bytes is, and a grid passes its check exactly if every lookup in it succeeds. -/
namespace Piet

theorem Color.ofCode_of_forall_ne {n : Nat} (h : ¬∃ c : Color, n = c.code) :
    ofCode n = .error (.unrecognizedColor (.ofCode n) none) := by
  have hnone : ofCode? n = none := Option.isNone_iff_eq_none.1 (Grid.isNone_ofCode?_iff.2 h)
  unfold ofCode
  rw [hnone]

namespace Grid

variable {g : Grid} {p q : Position} {i : Nat}

theorem positionOf_mem (h : i < g.codes.size) : g.positionOf i ∈ g := by
  rw [g.size_codes] at h
  have hw : 0 < g.width := Nat.pos_of_mul_pos_right (Nat.zero_lt_of_lt h)
  have hx : i % g.width < g.width := Nat.mod_lt i hw
  have hy : i / g.width < g.height := Nat.div_lt_of_lt_mul h
  exact mem_iff.2 ⟨⟨Int.natCast_nonneg _, Int.ofNat_lt.2 hx⟩, Int.natCast_nonneg _,
    Int.ofNat_lt.2 hy⟩

theorem index_positionOf (g : Grid) (i : Nat) : g.index (g.positionOf i) = i := by
  unfold index positionOf
  rw [Int.toNat_natCast, Int.toNat_natCast]
  exact Nat.div_add_mod' i g.width

/-- To look up a pixel by its place is to decode the code stored there. -/
theorem colorAt_positionOf (h : i < g.codes.size) :
    g.colorAt (g.positionOf i) = Color.ofCode g.codes[i] := by
  unfold colorAt codeAt?
  rw [if_pos (positionOf_mem h), index_positionOf, Array.getElem?_eq_getElem h]

/-- Places count row by row, and in a row from the left. -/
theorem index_lt_index (hq : q ∈ g) (hp : p ∈ g) (h : q.y < p.y ∨ q.y = p.y ∧ q.x < p.x) :
    g.index q < g.index p := by
  obtain ⟨⟨hx, hw⟩, hy, -⟩ := mem_iff.1 hq
  obtain ⟨⟨hx', -⟩, hy', -⟩ := mem_iff.1 hp
  unfold index
  rcases h with hrow | ⟨hrow, hcolumn⟩
  · have hle : (q.y.toNat + 1) * g.width ≤ p.y.toNat * g.width :=
      Nat.mul_le_mul_right _ (by omega)
    rw [Nat.succ_mul] at hle
    omega
  · rw [hrow]
    omega

/-- The check of all codes at once passes what every lookup accepts. -/
theorem validate_eq_ok_iff_colorAt :
    g.validate = .ok g ↔ ∀ p ∈ g, ∃ c, g.colorAt p = .ok c := by
  rw [validate_eq_ok_iff]
  constructor
  · rintro ⟨-, hknown⟩ p hp
    obtain ⟨n, hn, hcode⟩ := codeAt?_of_mem hp
    obtain ⟨c, rfl⟩ := hknown n hn
    exact ⟨c, colorAt_eq_ok_iff.2 hcode⟩
  · intro hlookup
    refine ⟨rfl, fun n hn => ?_⟩
    obtain ⟨i, hi, rfl⟩ := Array.mem_iff_getElem.1 hn
    obtain ⟨c, hc⟩ := hlookup _ (positionOf_mem hi)
    rw [colorAt_positionOf hi, Color.ofCode_eq_ok_iff] at hc
    exact ⟨c, Int.ofNat_inj.1 hc⟩

/-- What the check refuses is the first lookup that fails, row by row. -/
theorem colorAt_of_validate_eq_error {e : Error} (h : g.validate = .error e) :
    ∃ p ∈ g, ∃ rgb, e = .unrecognizedColor rgb (some p) ∧
      g.colorAt p = .error (.unrecognizedColor rgb none) ∧
      ∀ q ∈ g, q.y < p.y ∨ q.y = p.y ∧ q.x < p.x → ∃ c, g.colorAt q = .ok c := by
  obtain ⟨i, hi, hunknown, hknown, rfl⟩ := validate_eq_error_iff.1 h
  refine ⟨g.positionOf i, positionOf_mem hi, _, rfl, ?_, fun q hq hbefore => ?_⟩
  · rw [colorAt_positionOf hi, Color.ofCode_of_forall_ne hunknown]
  · have hlt : g.index q < i := by
      have hlt := index_lt_index hq (positionOf_mem hi) hbefore
      rwa [index_positionOf] at hlt
    obtain ⟨c, hc⟩ := hknown _ hlt
    refine ⟨c, colorAt_eq_ok_iff.2 ?_⟩
    rw [codeAt?, if_pos hq, Array.getElem?_eq_getElem (index_lt hq), hc]

variable {samples : Array UInt8} {w h : Nat}

/-- An array of rows of pixels holds the pixels of its bytes. -/
theorem ofArray_eq_validate (hw : 0 < w) (hh : 0 < h) :
    ofArray [h, w, 3] samples = (ofPixels samples w h).validate := by
  have hpixel : ∀ i, (⟨samples.getD ((i / w * w + i % w) * 3 + 0) 0,
      samples.getD ((i / w * w + i % w) * 3 + 1) 0,
      samples.getD ((i / w * w + i % w) * 3 + 2) 0⟩ : Pixel) = pixelAt samples i := by
    intro i
    rw [Nat.div_add_mod', Nat.mul_comm]
    rfl
  change ofImage (.ofFn w h _) = _
  dsimp only [ofImage, Image.ofFn]
  rw [if_neg (by omega)]
  simp only [hpixel, Array.map_ofFn]
  rfl

theorem ofArray_of_misshapen {sides : List Nat}
    (hsides : ¬∃ h w, sides = [h, w, 3] ∧ 0 < h ∧ 0 < w) :
    ofArray sides samples = .error (.invalidShape sides) := by
  unfold ofArray
  split
  · next h w =>
    have hempty : w = 0 ∨ h = 0 := by
      by_contra hne
      exact hsides ⟨h, w, rfl, by omega, by omega⟩
    dsimp only [ofImage, Image.ofFn]
    rw [if_pos hempty]
  · rfl

/-- An array is read as the buffer of its bytes, and a grid passes its check exactly if every lookup
does. -/
theorem constructions_agree :
    (∀ (sides : List Nat) (samples : Array UInt8),
      ((∃ e, ofArray sides samples = .error e ∧ e.isValue = true) ↔
        ¬∃ h w, sides = [h, w, 3] ∧ 0 < h ∧ 0 < w) ∧
      ∀ h w : Nat, sides = [h, w, 3] → 0 < h → 0 < w → samples.size = h * w * 3 →
        ofArray sides samples = ofBuffer samples w h ∧
          ((∃ g, ofArray sides samples = .ok g) ∨
            ∃ rgb p, ofArray sides samples = .error (.unrecognizedColor rgb (some p)))) ∧
    ∀ g : Grid,
      (g.validate = .ok g ↔ ∀ p ∈ g, ∃ c, g.colorAt p = .ok c) ∧
      ∀ e, g.validate = .error e → ∃ p ∈ g, ∃ rgb, e = .unrecognizedColor rgb (some p) ∧
        g.colorAt p = .error (.unrecognizedColor rgb none) ∧
        ∀ q ∈ g, q.y < p.y ∨ q.y = p.y ∧ q.x < p.x → ∃ c, g.colorAt q = .ok c := by
  refine ⟨fun sides samples => ⟨⟨?_, fun hs => ?_⟩, ?_⟩,
    fun g => ⟨validate_eq_ok_iff_colorAt, fun e => colorAt_of_validate_eq_error⟩⟩
  · rintro ⟨e, he, hv⟩ ⟨h, w, rfl, hh, hw⟩
    rw [ofArray_eq_validate hw hh] at he
    obtain ⟨p, -, rgb, rfl, -⟩ := colorAt_of_validate_eq_error he
    cases hv
  · exact ⟨_, ofArray_of_misshapen hs, rfl⟩
  · rintro h w rfl hh hw hsize
    have hfits : Fits samples w h := ⟨hw, hh, by rw [hsize, Nat.mul_comm, Nat.mul_comm h]⟩
    rw [hfits.ofBuffer_eq, ofArray_eq_validate hw hh]
    refine ⟨rfl, ?_⟩
    cases hg : (ofPixels samples w h).validate with
    | ok g => exact Or.inl ⟨g, rfl⟩
    | error e =>
      obtain ⟨p, -, rgb, rfl, -⟩ := colorAt_of_validate_eq_error hg
      exact Or.inr ⟨rgb, p, rfl⟩

/-- Two colors side by side of which the second is unknown, as an array and as a grid. -/
theorem constructions_agree_unknown :
    let samples : Array UInt8 := #[0xff, 0, 0, 1, 2, 3]
    let g : Grid := ⟨2, 1, #[0xff0000, 0x010203], rfl⟩
    ofArray [1, 2, 3] samples = ofBuffer samples 2 1 ∧
      (∃ e, ofArray [2, 3] samples = .error e ∧ e.isValue = true) ∧
      g.validate = .error (.unrecognizedColor ⟨1, 2, 3⟩ (some ⟨1, 0⟩)) ∧
      g.colorAt ⟨1, 0⟩ = .error (.unrecognizedColor ⟨1, 2, 3⟩ none) := by
  intro samples g
  obtain ⟨hread, hcheck⟩ := constructions_agree
  have hfirst : (g.codes.findIdx? fun n : Nat => (Color.ofCode? n).isNone) = some 1 := by
    decide +kernel
  have hrgb : Rgb.ofCode (0x010203 : Nat) = ⟨1, 2, 3⟩ := by decide +kernel
  have hplace : g.positionOf 1 = ⟨1, 0⟩ := by decide +kernel
  have he : g.validate = .error (.unrecognizedColor ⟨1, 2, 3⟩ (some ⟨1, 0⟩)) := by
    rw [← hrgb, ← hplace, validate, hfirst]
    rfl
  obtain ⟨p, -, rgb, heq, hlookup, -⟩ := (hcheck g).2 _ he
  cases heq
  obtain ⟨harray, -⟩ := (hread [1, 2, 3] samples).2 1 2 rfl (by decide) (by decide) rfl
  refine ⟨harray, (hread [2, 3] samples).1.2 ?_, he, hlookup⟩
  rintro ⟨h, w, hsides, -⟩
  cases hsides

end Grid
end Piet
