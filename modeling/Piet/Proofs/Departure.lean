import Piet.Proofs.Component
import Piet.Proofs.Exit
import Piet.Proofs.Recolor

/-! Departures. Past the exit of a region lies another region or none, so a walker who moves changes
color with every step, and a move that carries no operation leads into white or out of it. -/
namespace Piet

theorem Hue.index_injective : Function.Injective index := by
  intro h h' he
  rw [← h.getD_index, he, h'.getD_index]

theorem Lightness.index_injective : Function.Injective index := by
  intro l l' he
  rw [← l.getD_index, he, l'.getD_index]

/-- Colors no step apart on the cycle are one color. -/
theorem Delta.between_eq_zero_iff {h h' : Hue} {l l' : Lightness} :
    between h l h' l' = ⟨0, 0⟩ ↔ h' = h ∧ l' = l := by
  rw [← Hue.index_injective.eq_iff, ← Lightness.index_injective.eq_iff, between, Delta.mk.injEq,
    Fin.ext_iff, Fin.ext_iff, Fin.ext_iff, Fin.ext_iff, Fin.sub_def, Fin.sub_def]
  dsimp only
  omega

theorem Op.ofDelta_eq_none_iff {d : Delta} : ofDelta d = .none ↔ d = ⟨0, 0⟩ := by
  obtain ⟨darkness, hue⟩ := d
  revert darkness hue
  decide

/-- Between two colors there is no operation only where one of them is white. -/
theorem Op.eq_none_iff_of_ofColors {c d : Color} {op : Op} (h : ofColors c d = .ok op)
    (hne : d ≠ c) : op = .none ↔ Xor (c = .white) (d = .white) := by
  cases c with
  | chromatic hue l =>
    cases d with
    | chromatic hue' l' =>
      have hop : ofDelta (.between hue l hue' l') = op := Except.ok.inj h
      have hdelta : Delta.between hue l hue' l' ≠ ⟨0, 0⟩ := by
        rw [Ne, Delta.between_eq_zero_iff]
        rintro ⟨rfl, rfl⟩
        exact hne rfl
      rw [← hop, ofDelta_eq_none_iff]
      simp [hdelta, Xor]
    | black => cases h
    | white =>
      cases h
      simp [Xor]
  | black =>
    cases d with
    | chromatic hue' l' => cases h
    | black => exact absurd rfl hne
    | white =>
      cases h
      simp [Xor]
  | white =>
    cases h
    simp [Xor, hne]

namespace Grid

variable {g : Grid} {seed x : Position} {hd : Heading} {s : State} {op : Op}

/-- Nothing in a region lies farther ahead than its exit. -/
theorem not_joined_onward (h : hd.Leads {q | g.Joined seed q} x) :
    ¬ g.Joined seed (x + hd.direction.unit) := by
  intro hj
  have hle := h.ahead _ hj
  rw [Position.along_add_unit] at hle
  omega

/-- The pixel past the exit would be part of the region if it held the same code. -/
theorem codeAt?_onward_ne (h : hd.Leads {q | g.Joined seed q} x) (hs : seed ∈ g) :
    g.codeAt? (x + hd.direction.unit) ≠ g.codeAt? seed := by
  intro he
  have hx : g.Joined seed x := h.mem
  have hcode : g.codeAt? x = g.codeAt? seed := hx.codeAt?_eq
  have hmem : x ∈ g := by
    obtain ⟨n, -, hn⟩ := codeAt?_of_mem hs
    exact mem_of_codeAt?_eq_some (hcode.trans hn)
  have htouch : g.Touches x (x + hd.direction.unit) :=
    ⟨Position.mem_neighbours_iff.2 ⟨_, rfl⟩, hmem, he.trans hcode.symm⟩
  exact not_joined_onward h (hx.tail htouch)

/-- A region with its exit, and what is known of the pixel past it. -/
theorem onward_of_exit {r : Region} {e : Exit} (hr : g.region seed = .ok r)
    (hx : r.exit hd = .ok e) : e.position ∈ r.members ∧
      e.position + hd.direction.unit ∉ r.members ∧
      g.colorAt (e.position + hd.direction.unit) ≠ .ok r.color := by
  have hreg := isRegion_of_region hr
  have hset : {q | q ∈ r.members} = {q | g.Joined seed q} := Set.ext hreg.mem_iff
  have hleads := Region.leads_of_exit hreg.tight hx
  refine ⟨hleads.mem, ?_, fun hc => ?_⟩
  · rw [hreg.mem_iff]
    exact not_joined_onward (hset ▸ hleads)
  · apply codeAt?_onward_ne (hset ▸ hleads) (mem_of_colorAt_eq_ok hreg.colorAt_seed)
    rw [colorAt_eq_ok_iff.1 hc, colorAt_eq_ok_iff.1 hreg.colorAt_seed]

/-- A step that runs an operation goes where a crossing leads. -/
theorem exists_crosses_of_step (h : (g.step s).result = .ok (some op)) :
    ∃ m, g.Crosses s.position s.heading m ∧ m.op = op ∧ (g.step s).state.position = m.target := by
  have hs := g.stepped s
  generalize g.step s = o at hs h
  cases hs with
  | ended | failed | obstructed | faulted => cases h
  | @moved m s' _ hp _ =>
    cases h
    exact ⟨m, crosses_of_passage hp, rfl, rfl⟩

/-- A step that runs an operation leaves its region for a pixel of another color, and no effect
means that white is on one side. -/
theorem step_leaves_region (hg : g.Validated) :
    (∀ p ∈ g, ∀ hd : Heading, ∃ r e, g.region p = .ok r ∧ r.exit hd = .ok e ∧
      let q := e.position + hd.direction.unit
      q ∉ r.members ∧ (q ∈ g → ∃ c, g.colorAt q = .ok c ∧ c ≠ r.color)) ∧
    ∀ (s : State) (op : Op), (g.step s).result = .ok (some op) →
      ∃ r c, g.region s.position = .ok r ∧
        let q := (g.step s).state.position
        (∃ p ∈ r.members, p.Beside q) ∧ q ∉ r.members ∧
        g.colorAt q = .ok c ∧ c ≠ .black ∧ c ≠ r.color ∧
        (op = .none ↔ Xor (r.color = .white) (c = .white)) ∧
        (op = .none → ¬(r.color.isChromatic = true ∧ c.isChromatic = true)) := by
  constructor
  · intro p hp hd
    obtain ⟨c, hc⟩ := hg.colorAt_of_mem hp
    obtain ⟨r, hr, -⟩ := exists_region hc
    obtain ⟨e, he⟩ := exists_exit hr hd
    obtain ⟨-, hout, hcolor⟩ := onward_of_exit hr he
    refine ⟨r, e, hr, he, hout, fun hq => ?_⟩
    obtain ⟨d, hd'⟩ := hg.colorAt_of_mem hq
    exact ⟨d, hd', fun h => hcolor (h ▸ hd')⟩
  · intro s op h
    obtain ⟨m, hm, rfl, htarget⟩ := exists_crosses_of_step h
    obtain ⟨r, hr, hx, hcolor⟩ := hm.exit
    obtain ⟨hmem, hout, hne⟩ := onward_of_exit hr hx
    obtain ⟨hq, -⟩ := Position.next?_eq_some_iff.1 hm.next?
    change m.exit ∈ r.members at hmem
    rw [← hq] at hout hne
    have hother : m.entryColor ≠ r.color := fun he => hne (he ▸ hm.colorAt_target)
    have hnone := Op.eq_none_iff_of_ofColors (hcolor ▸ hm.ofColors) hother
    have hbeside : m.exit.Beside m.target :=
      Position.mem_neighbours_iff_beside.1 (Position.mem_neighbours_iff.2 ⟨_, hq⟩)
    rw [htarget]
    refine ⟨r, m.entryColor, hr, ⟨_, hmem, hbeside⟩, hout, hm.colorAt_target,
      hm.entryColor_ne, hother, hnone, fun hop => ?_⟩
    rintro ⟨hc, hc'⟩
    rcases hnone.1 hop with ⟨hw, -⟩ | ⟨hw, -⟩
    · rw [hw] at hc
      cases hc
    · rw [hw] at hc'
      cases hc'

/-- A red pixel beside a white one: to cross over is to do nothing. -/
def threshold : Grid := ⟨2, 1, #[0xff0000, 0xffffff], rfl⟩

theorem threshold_accepted : threshold.Accepted :=
  Or.inl ⟨#[0xff, 0, 0, 0xff, 0xff, 0xff], 2, 1, by with_unfolding_all rfl⟩

theorem step_leaves_region_threshold : threshold.Validated ∧ .origin ∈ threshold ∧
    (∃ r e, threshold.region .origin = .ok r ∧ r.exit .initial = .ok e ∧
      e.position + ⟨1, 0⟩ ∉ r.members) ∧
    (threshold.step (.initial none)).result = .ok (some .none) ∧
    ∃ r c, threshold.region .origin = .ok r ∧
      threshold.colorAt (threshold.step (.initial none)).state.position = .ok c ∧
      c ≠ r.color ∧ Xor (r.color = .white) (c = .white) := by
  have hg := threshold_accepted.validated
  have ho : Position.origin ∈ threshold := by decide
  have hstep : (threshold.step (.initial none)).result = .ok (some .none) := by decide +kernel
  obtain ⟨hexit, hmove⟩ := step_leaves_region hg
  obtain ⟨r, e, hr, he, hout, -⟩ := hexit .origin ho .initial
  obtain ⟨r', c, hr', -, -, hc, -, hne, hnone, -⟩ := hmove _ _ hstep
  exact ⟨hg, ho, ⟨r, e, hr, he, hout⟩, hstep, r', c, hr', hc, hne, hnone.1 rfl⟩

end Grid
end Piet
