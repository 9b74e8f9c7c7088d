import Piet.Passage
import Piet.Proofs.Fill

/-! Ways out of a region. Every region has an exit for each heading, and in a grid that was read from
a picture the passage through it is either blocked or encodes an operation. -/
namespace Piet

theorem ExitRule.mem_of_pick? {rule : ExitRule} {ps : List Position} {p : Position}
    (h : rule.pick? ps = some p) : p ∈ ps := by
  unfold pick? at h
  split at h
  · exact List.maxOn?_mem h
  · exact List.minOn?_mem h

theorem ExitRule.exists_pick? (rule : ExitRule) {ps : List Position} (h : ps ≠ []) :
    ∃ p, rule.pick? ps = some p := by
  obtain ⟨p, hp⟩ := List.exists_mem_of_ne_nil ps h
  unfold pick?
  split
  · exact Option.isSome_iff_exists.1 (List.isSome_maxOn?_of_mem hp)
  · exact Option.isSome_iff_exists.1 (List.isSome_minOn?_of_mem hp)

namespace Region

variable {r : Region}

/-- Each side of a tight box is attained, so no edge is empty. -/
theorem edge_ne_nil (h : r.box.Tight {p | p ∈ r.members}) (d : Direction) : r.edge d ≠ [] := by
  have hedge : ∃ p ∈ r.members, r.onEdge d p = true := by
    cases d with
    | right =>
      obtain ⟨p, hp, hx⟩ := h.maxX.1
      exact ⟨p, hp, decide_eq_true hx⟩
    | down =>
      obtain ⟨p, hp, hy⟩ := h.maxY.1
      exact ⟨p, hp, decide_eq_true hy⟩
    | left =>
      obtain ⟨p, hp, hx⟩ := h.minX.1
      exact ⟨p, hp, decide_eq_true hx⟩
    | up =>
      obtain ⟨p, hp, hy⟩ := h.minY.1
      exact ⟨p, hp, decide_eq_true hy⟩
  obtain ⟨p, hp, he⟩ := hedge
  exact List.ne_nil_of_mem (List.mem_filter.2 ⟨hp, he⟩)

theorem exit_of_tight (h : r.box.Tight {p | p ∈ r.members}) (hd : Heading) :
    ∃ p ∈ r.edge hd.direction, r.exit hd = .ok ⟨p, r.size⟩ := by
  obtain ⟨p, hp⟩ := hd.exitRule.exists_pick? (edge_ne_nil h hd.direction)
  refine ⟨p, ExitRule.mem_of_pick? hp, ?_⟩
  unfold exit
  rw [hp]

end Region

theorem Op.exists_ofColors {c d : Color} (hc : c ≠ .black) (hd : d ≠ .black) :
    ∃ op, ofColors c d = .ok op := by
  unfold ofColors
  split
  · exact ⟨_, rfl⟩
  · next hw =>
    cases c with
    | black => exact absurd rfl hc
    | white => exact absurd (Or.inl rfl) hw
    | chromatic h l =>
      cases d with
      | black => exact absurd rfl hd
      | white => exact absurd (Or.inr rfl) hw
      | chromatic h' l' => exact ⟨_, rfl⟩

theorem Op.ofColors_error {c d : Color} {e : Error} (h : ofColors c d = .error e) :
    ∃ x, e = .offCycle x := by
  cases c <;> cases d <;>
    simp [ofColors, Delta.ofColors, Color.scale, bind, Except.bind, Except.map, pure,
      Except.pure] at h <;>
    exact ⟨_, h.symm⟩

namespace Grid

variable {g : Grid} {p : Position} {hd : Heading} {e : Error} {m : Move}

/-- The pixel one step past the exit lies below zero, outside of the grid or is black. -/
def Blocked (g : Grid) (p : Position) (hd : Heading) : Prop :=
  ∃ r x, g.region p = .ok r ∧ r.exit hd = .ok x ∧
    ∀ q, x.position.next? hd.direction = some q → q ∈ g → g.colorAt q = .ok .black

/-- What is known of a move across the border of the region around `p`. -/
structure Crosses (g : Grid) (p : Position) (hd : Heading) (m : Move) : Prop where
  exit : ∃ r, g.region p = .ok r ∧ r.exit hd = .ok ⟨m.exit, m.size⟩ ∧ r.color = m.exitColor
  next? : m.exit.next? hd.direction = some m.target
  colorAt_target : g.colorAt m.target = .ok m.entryColor
  entryColor_ne : m.entryColor ≠ .black
  ofColors : Op.ofColors m.exitColor m.entryColor = .ok m.op

theorem region_error (h : g.region p = .error e) : g.colorAt p = .error e := by
  unfold region at h
  cases hc : g.colorAt p with
  | ok c =>
    rw [hc] at h
    cases h
  | error e' =>
    rw [hc] at h
    exact congrArg _ (Except.error.inj h)

theorem exists_exit {r : Region} (h : g.region p = .ok r) (hd : Heading) :
    ∃ x, r.exit hd = .ok x := by
  obtain ⟨q, -, hx⟩ := Region.exit_of_tight (isRegion_of_region h).tight hd
  exact ⟨_, hx⟩

theorem passage_of_next?_eq_none {r : Region} {x : Exit} (hr : g.region p = .ok r)
    (hx : r.exit hd = .ok x) (hn : x.position.next? hd.direction = none) :
    g.passage p hd = .ok (.blocked x.position none) := by
  rw [passage, hr]
  simp only [Except.bind, hx, hn]

theorem passage_of_next?_eq_some {r : Region} {x : Exit} {q : Position}
    (hr : g.region p = .ok r) (hx : r.exit hd = .ok x)
    (hn : x.position.next? hd.direction = some q) :
    g.passage p hd = if q ∈ g then
        (g.colorAt q).bind fun c =>
        if c = .black then .ok (.blocked x.position (some q))
        else (Op.ofColors r.color c).map fun op =>
          .crossing ⟨x.position, x.size, r.color, q, c, op⟩
      else .ok (.blocked x.position (some q)) := by
  rw [passage, hr]
  simp only [Except.bind, hx, hn]

/-- A crossing is not blocked: what lies past the exit is in the grid and not black. -/
theorem Crosses.not_blocked (h : g.Crosses p hd m) : ¬ g.Blocked p hd := by
  rintro ⟨r, x, hr, hx, hb⟩
  obtain ⟨r', hr', hx', -⟩ := h.exit
  obtain rfl := Except.ok.inj (hr.symm.trans hr')
  obtain rfl := Except.ok.inj (hx.symm.trans hx')
  have hblack := hb _ h.next? (mem_of_colorAt_eq_ok h.colorAt_target)
  exact h.entryColor_ne (Except.ok.inj (h.colorAt_target.symm.trans hblack))

/-- From a region with its exit the passage is blocked or a crossing, or the color past the exit
tells no operation. -/
theorem passage_cases {r : Region} {x : Exit} (hr : g.region p = .ok r) (hx : r.exit hd = .ok x) :
    (g.Blocked p hd ∧
      g.passage p hd = .ok (.blocked x.position (x.position.next? hd.direction))) ∨
    (∃ m, g.Crosses p hd m ∧ g.passage p hd = .ok (.crossing m)) ∨
    ∃ q e, q ∈ g ∧ x.position.next? hd.direction = some q ∧ g.passage p hd = .error e ∧
      (g.colorAt q = .error e ∨
        ∃ c, g.colorAt q = .ok c ∧ c ≠ .black ∧ Op.ofColors r.color c = .error e) := by
  cases hn : x.position.next? hd.direction with
  | none => exact Or.inl ⟨⟨r, x, hr, hx, by simp [hn]⟩, passage_of_next?_eq_none hr hx hn⟩
  | some q =>
    rw [passage_of_next?_eq_some hr hx hn]
    by_cases hq : q ∈ g
    · cases hc : g.colorAt q with
      | error e =>
        simp only [if_pos hq, Except.bind]
        exact Or.inr (Or.inr ⟨q, e, hq, rfl, rfl, Or.inl hc⟩)
      | ok c =>
        simp only [if_pos hq, Except.bind]
        by_cases hb : c = .black
        · subst hb
          refine Or.inl ⟨⟨r, x, hr, hx, fun q' hq' _ => ?_⟩, if_pos rfl⟩
          rw [hn] at hq'
          exact Option.some.inj hq' ▸ hc
        · simp only [if_neg hb]
          cases ho : Op.ofColors r.color c with
          | error e => exact Or.inr (Or.inr ⟨q, e, hq, rfl, rfl, Or.inr ⟨c, hc, hb, ho⟩⟩)
          | ok op =>
            exact Or.inr (Or.inl ⟨⟨x.position, x.size, r.color, q, c, op⟩,
              ⟨⟨r, hr, hx, rfl⟩, hn, hc, hb, ho⟩, rfl⟩)
    · refine Or.inl ⟨⟨r, x, hr, hx, fun q' hq' hm => ?_⟩, if_neg hq⟩
      rw [hn] at hq'
      exact absurd (Option.some.inj hq' ▸ hm) hq

/-- Whoever gets an answer stands in a region that has an exit. -/
private theorem exists_region_of_passage {psg : Passage} (h : g.passage p hd = .ok psg) :
    ∃ r x, g.region p = .ok r ∧ r.exit hd = .ok x := by
  cases hr : g.region p with
  | error e =>
    rw [passage, hr] at h
    cases h
  | ok r =>
    obtain ⟨x, hx⟩ := exists_exit hr hd
    exact ⟨r, x, rfl, hx⟩

theorem crosses_of_passage (h : g.passage p hd = .ok (.crossing m)) : g.Crosses p hd m := by
  obtain ⟨r, x, hr, hx⟩ := exists_region_of_passage h
  rcases passage_cases hr hx with ⟨-, hp⟩ | ⟨m', hm, hp⟩ | ⟨q, e, -, -, hp, -⟩ <;>
    rw [hp] at h <;> cases h
  exact hm

theorem blocked_iff : g.Blocked p hd ↔ ∃ x t, g.passage p hd = .ok (.blocked x t) := by
  constructor
  · rintro ⟨r, x, hr, hx, hb⟩
    rcases passage_cases hr hx with ⟨-, hp⟩ | ⟨m, hm, -⟩ | ⟨q, e, hq, hn, -, he⟩
    · exact ⟨_, _, hp⟩
    · exact absurd ⟨r, x, hr, hx, hb⟩ hm.not_blocked
    · have hblack := hb q hn hq
      rcases he with he | ⟨c, hc, hne, -⟩
      · rw [hblack] at he
        cases he
      · exact absurd (Except.ok.inj (hc.symm.trans hblack)) hne
  · rintro ⟨x, t, h⟩
    obtain ⟨r, x', hr, hx⟩ := exists_region_of_passage h
    rcases passage_cases hr hx with ⟨hb, -⟩ | ⟨m, -, hp⟩ | ⟨q, e, -, -, hp, -⟩
    · exact hb
    all_goals
      rw [hp] at h
      cases h

theorem passage_error (h : g.passage p hd = .error e) :
    (∃ q, e = .outOfBounds q g.width g.height) ∨ (∃ rgb, e = .unrecognizedColor rgb none) ∨
      ∃ c, e = .offCycle c := by
  cases hr : g.region p with
  | error e' =>
    rw [passage, hr] at h
    obtain rfl := Except.error.inj h
    rcases colorAt_error (region_error hr) with ⟨-, he⟩ | ⟨-, he⟩
    · exact Or.inl ⟨p, he⟩
    · exact Or.inr (Or.inl he)
  | ok r =>
    obtain ⟨x, hx⟩ := exists_exit hr hd
    rcases passage_cases hr hx with ⟨-, hp⟩ | ⟨m, -, hp⟩ | ⟨q, e', hq, -, hp, he⟩ <;>
      rw [hp] at h <;> cases h
    rcases he with hc | ⟨c, -, -, ho⟩
    · rcases colorAt_error hc with ⟨hn, -⟩ | ⟨-, he⟩
      · exact absurd hq hn
      · exact Or.inr (Or.inl he)
    · exact Or.inr (Or.inr (Op.ofColors_error ho))

/-- A walker who does not stand on black always learns whether the way is blocked or which move
awaits. -/
theorem Validated.exists_passage (hg : g.Validated) {c : Color} (hp : g.colorAt p = .ok c)
    (hc : c ≠ .black) (hd : Heading) : ∃ psg, g.passage p hd = .ok psg := by
  obtain ⟨r, hr, hreg⟩ := exists_region hp
  obtain ⟨x, hx⟩ := exists_exit hr hd
  obtain rfl : r.color = c := Except.ok.inj (hreg.colorAt_seed.symm.trans hp)
  rcases passage_cases hr hx with ⟨-, h⟩ | ⟨m, -, h⟩ | ⟨q, e, hq, -, -, he | ⟨d, -, hd', he⟩⟩
  · exact ⟨_, h⟩
  · exact ⟨_, h⟩
  · obtain ⟨d, hd'⟩ := hg.colorAt_of_mem hq
    rw [hd'] at he
    cases he
  · obtain ⟨op, ho⟩ := Op.exists_ofColors hc hd'
    rw [ho] at he
    cases he

end Grid
end Piet
