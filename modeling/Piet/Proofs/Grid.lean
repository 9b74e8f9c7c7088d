import Piet.Grid
import Mathlib.Logic.Function.Basic

/-! Lookups in a grid. A grid that was read from a picture has a color at each of its pixels. -/
namespace Piet

theorem Color.ofCode_eq_ok_iff {n : Int} {c : Color} : ofCode n = .ok c ↔ n = c.code := by
  unfold ofCode
  rw [← ofCode?_eq_some_iff]
  split <;> simp_all

namespace Grid

/-- What reading a picture checks: there are pixels, and each holds the code of a color. -/
structure Validated (g : Grid) : Prop where
  width_pos : 0 < g.width
  height_pos : 0 < g.height
  code_of_mem : ∀ n ∈ g.codes, ∃ c : Color, n = c.code

/-- Grids that come out of one of the two ways to read a picture. -/
def Accepted (g : Grid) : Prop :=
  (∃ bytes width height, ofBuffer bytes width height = .ok g) ∨
    ∃ sides samples, ofArray sides samples = .ok g

theorem index_inj {g : Grid} {p q : Position} (hp : p ∈ g) (hq : q ∈ g)
    (h : g.index p = g.index q) : p = q := by
  rw [← positionOf_index hp, ← positionOf_index hq, h]

theorem mem_of_codeAt?_eq_some {g : Grid} {p : Position} {n : Nat} (h : g.codeAt? p = some n) :
    p ∈ g := by
  by_contra hp
  rw [codeAt?_eq_none_iff.2 hp] at h
  cases h

theorem codeAt?_of_mem {g : Grid} {p : Position} (h : p ∈ g) :
    ∃ n ∈ g.codes, g.codeAt? p = some n := by
  have hlt := index_lt h
  refine ⟨g.codes[g.index p], Array.getElem_mem _, ?_⟩
  unfold codeAt?
  rw [if_pos h, Array.getElem?_eq_getElem hlt]

theorem colorAt_eq_ok_iff {g : Grid} {p : Position} {c : Color} :
    g.colorAt p = .ok c ↔ g.codeAt? p = some c.code := by
  unfold colorAt
  cases g.codeAt? p with
  | none => simp
  | some n =>
    simp only [Color.ofCode_eq_ok_iff, Option.some.injEq]
    norm_cast

theorem mem_of_colorAt_eq_ok {g : Grid} {p : Position} {c : Color} (h : g.colorAt p = .ok c) :
    p ∈ g := mem_of_codeAt?_eq_some (colorAt_eq_ok_iff.1 h)

/-- A lookup fails outside of the grid, and inside at a code that is no color. -/
theorem colorAt_error {g : Grid} {p : Position} {e : Error} (h : g.colorAt p = .error e) :
    (p ∉ g ∧ e = .outOfBounds p g.width g.height) ∨
      (p ∈ g ∧ ∃ rgb, e = .unrecognizedColor rgb none) := by
  unfold colorAt at h
  cases hn : g.codeAt? p with
  | none =>
    rw [hn] at h
    exact Or.inl ⟨codeAt?_eq_none_iff.1 hn, (Except.error.inj h).symm⟩
  | some n =>
    rw [hn] at h
    refine Or.inr ⟨mem_of_codeAt?_eq_some hn, .ofCode n, ?_⟩
    simp only [Color.ofCode] at h
    split at h
    · cases h
    · exact (Except.error.inj h).symm

theorem Validated.colorAt_of_mem {g : Grid} (hg : g.Validated) {p : Position} (h : p ∈ g) :
    ∃ c, g.colorAt p = .ok c := by
  obtain ⟨n, hm, hn⟩ := codeAt?_of_mem h
  obtain ⟨c, rfl⟩ := hg.code_of_mem n hm
  exact ⟨c, colorAt_eq_ok_iff.2 hn⟩

theorem Validated.origin_mem {g : Grid} (hg : g.Validated) : Position.origin ∈ g := by
  have hw := hg.width_pos
  have hh := hg.height_pos
  exact mem_iff.2 ⟨⟨Int.le_refl _, by simpa [Position.origin] using hw⟩,
    Int.le_refl _, by simpa [Position.origin] using hh⟩

theorem isNone_ofCode?_iff {n : Nat} :
    (Color.ofCode? n).isNone = true ↔ ¬∃ c : Color, n = c.code := by
  rw [Option.isNone_iff_eq_none, Option.eq_none_iff_forall_ne_some, not_exists]
  refine forall_congr' fun c => not_congr ?_
  rw [Color.ofCode?_eq_some_iff]
  exact Int.ofNat_inj

theorem validate_eq_ok_iff {g g' : Grid} :
    g.validate = .ok g' ↔ g' = g ∧ ∀ n ∈ g.codes, ∃ c : Color, n = c.code := by
  have hnone : (g.codes.findIdx? fun n : Nat => (Color.ofCode? n).isNone) = none ↔
      ∀ n ∈ g.codes, ∃ c : Color, n = c.code := by
    rw [Array.findIdx?_eq_none_iff]
    refine forall₂_congr fun n _ => ?_
    rw [← Bool.not_eq_true, isNone_ofCode?_iff, not_not]
  unfold validate
  rw [← hnone]
  split
  · next hi => simp [hi]
  · next hi => simp [hi, eq_comm]

/-- The first code that no color has is reported. -/
theorem validate_eq_error_iff {g : Grid} {e : Error} : g.validate = .error e ↔
    ∃ (i : Nat) (h : i < g.codes.size), (¬∃ c : Color, g.codes[i] = c.code) ∧
      (∀ j, (hj : j < i) → ∃ c : Color, g.codes[j] = c.code) ∧
      e = .unrecognizedColor (.ofCode g.codes[i]) (g.positionOf i) := by
  have hsome : ∀ i, (g.codes.findIdx? fun n : Nat => (Color.ofCode? n).isNone) = some i ↔
      ∃ h : i < g.codes.size, (¬∃ c : Color, g.codes[i] = c.code) ∧
        ∀ j, (hj : j < i) → ∃ c : Color, g.codes[j] = c.code := by
    intro i
    simp only [Array.findIdx?_eq_some_iff_getElem, isNone_ofCode?_iff, not_not]
  unfold validate
  constructor
  · intro h
    split at h
    · next i hi =>
      obtain ⟨hlt, hunknown, hknown⟩ := (hsome i).1 hi
      refine ⟨i, hlt, hunknown, hknown, (Except.error.inj h).symm.trans ?_⟩
      rw [Array.getElem_eq_getD 0]
    · cases h
  · rintro ⟨i, hlt, hunknown, hknown, rfl⟩
    rw [(hsome i).2 ⟨hlt, hunknown, hknown⟩, Array.getElem_eq_getD 0]

theorem validated_of_ofImage {im : Image} {g : Grid} (h : ofImage im = .ok g) : g.Validated := by
  unfold ofImage at h
  split at h
  · cases h
  · next hsides =>
    obtain ⟨rfl, hcodes⟩ := validate_eq_ok_iff.1 h
    exact ⟨Nat.pos_of_ne_zero fun hw => hsides (Or.inl hw),
      Nat.pos_of_ne_zero fun hh => hsides (Or.inr hh), hcodes⟩

theorem Accepted.validated {g : Grid} (h : g.Accepted) : g.Validated := by
  rcases h with ⟨bytes, width, height, h⟩ | ⟨sides, samples, h⟩
  · unfold ofBuffer at h
    split at h
    · cases h
    · split at h
      · exact validated_of_ofImage h
      · cases h
  · unfold ofArray at h
    split at h
    · exact validated_of_ofImage h
    · cases h

def cell : Grid := ⟨1, 1, #[0xff0000], rfl⟩

/-- A red pixel beside a light blue one: to cross over is to read a number. -/
def reader : Grid := ⟨2, 1, #[0xff0000, 0xc0c0ff], rfl⟩

/-- Two red pixels and a dark red one behind them: to cross over is to push. -/
def corridor : Grid := ⟨3, 1, #[0xff0000, 0xff0000, 0xc00000], rfl⟩

theorem cell_accepted : cell.Accepted :=
  Or.inl ⟨#[0xff, 0, 0], 1, 1, by with_unfolding_all rfl⟩

theorem reader_accepted : reader.Accepted :=
  Or.inl ⟨#[0xff, 0, 0, 0xc0, 0xc0, 0xff], 2, 1, by with_unfolding_all rfl⟩

theorem corridor_accepted : corridor.Accepted :=
  Or.inl ⟨#[0xff, 0, 0, 0xff, 0, 0, 0xc0, 0, 0], 3, 1, by with_unfolding_all rfl⟩

end Grid
end Piet
