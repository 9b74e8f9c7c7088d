import Piet.Proofs.Passage

/-! Exits as extremes. The exit of a region is its farthest pixel ahead, and of several the one
farthest on the side of the chooser's hand. -/
namespace Piet

/-- How far a position lies in a direction. -/
def Position.along (p : Position) (d : Direction) : Int := p.x * d.unit.x + p.y * d.unit.y

/-- The side of the chooser's hand. -/
def Heading.hand (hd : Heading) : Direction :=
  match hd.chooser with
  | .left => hd.direction.turn.turn.turn
  | .right => hd.direction.turn

/-- The farthest ahead in a set, and of those the farthest on the side of the hand. -/
structure Heading.Leads (hd : Heading) (ps : Set Position) (p : Position) : Prop where
  mem : p ∈ ps
  ahead : ∀ q ∈ ps, q.along hd.direction ≤ p.along hd.direction
  aside : ∀ q ∈ ps, q.along hd.direction = p.along hd.direction → q.along hd.hand ≤ p.along hd.hand

namespace Position

variable {p q : Position}

@[simp] theorem along_right (p : Position) : p.along .right = p.x := by
  simp [along, Direction.unit]

@[simp] theorem along_down (p : Position) : p.along .down = p.y := by
  simp [along, Direction.unit]

@[simp] theorem along_left (p : Position) : p.along .left = -p.x := by
  simp [along, Direction.unit]

@[simp] theorem along_up (p : Position) : p.along .up = -p.y := by
  simp [along, Direction.unit]

theorem along_add_unit (p : Position) (d : Direction) : (p + d.unit).along d = p.along d + 1 := by
  cases d <;> simp [Direction.unit] <;> omega

theorem mem_neighbours_iff : q ∈ p.neighbours ↔ ∃ d : Direction, q = p + d.unit := by
  constructor
  · intro h
    simp only [neighbours, List.mem_cons, List.not_mem_nil, or_false] at h
    rcases h with h | h | h | h
    · exact ⟨.right, h⟩
    · exact ⟨.down, h⟩
    · exact ⟨.left, h⟩
    · exact ⟨.up, h⟩
  · rintro ⟨d, rfl⟩
    cases d <;> simp [neighbours, Direction.unit]

/-- Ahead and aside are the two axes of the canvas. -/
theorem eq_of_along_eq {hd : Heading} (h : p.along hd.direction = q.along hd.direction)
    (hh : p.along hd.hand = q.along hd.hand) : p = q := by
  obtain ⟨d, c⟩ := hd
  cases d <;> cases c <;> simp only [Heading.hand, Direction.turn, along_right, along_down,
    along_left, along_up] at h hh <;> ext <;> omega

end Position

namespace Heading

variable {hd : Heading} {ps : Set Position} {p q : Position}

theorem Leads.unique (hp : hd.Leads ps p) (hq : hd.Leads ps q) : p = q := by
  have ha : p.along hd.direction = q.along hd.direction :=
    le_antisymm (hq.ahead p hp.mem) (hp.ahead q hq.mem)
  exact Position.eq_of_along_eq ha
    (le_antisymm (hq.aside p hp.mem ha) (hp.aside q hq.mem ha.symm))

theorem along_hand (hd : Heading) (p : Position) : p.along hd.hand =
    if hd.exitRule.pickMax then p.coordinate hd.exitRule.axis
    else -p.coordinate hd.exitRule.axis := by
  obtain ⟨d, c⟩ := hd
  cases d <;> cases c <;> simp [hand, Direction.turn, exitRule, Position.coordinate]

/-- The rule picks what lies farthest on the side of the hand. -/
theorem along_hand_le_of_pick? {candidates : List Position}
    (h : hd.exitRule.pick? candidates = some p) (hq : q ∈ candidates) :
    q.along hd.hand ≤ p.along hd.hand := by
  rw [along_hand, along_hand]
  unfold ExitRule.pick? at h
  split at h
  · next hm =>
    have hle := List.le_apply_get_maxOn?_of_mem
      (f := fun r : Position => r.coordinate hd.exitRule.axis) hq
    simp only [h, Option.get_some] at hle
    rwa [if_pos hm, if_pos hm]
  · next hm =>
    have hle := List.apply_get_minOn?_le_of_mem
      (f := fun r : Position => r.coordinate hd.exitRule.axis) hq
    simp only [h, Option.get_some] at hle
    rw [if_neg hm, if_neg hm]
    exact Int.neg_le_neg hle

end Heading

namespace Region

variable {r : Region} {hd : Heading} {p : Position}

private theorem eq_greatest_iff {ps : Set Position} {f : Position → Int} {b : Int}
    (h : IsGreatest (f '' ps) b) (hp : p ∈ ps) : f p = b ↔ ∀ q ∈ ps, f q ≤ f p := by
  refine ⟨fun he q hq => he ▸ h.2 ⟨q, hq, rfl⟩, fun hle => ?_⟩
  obtain ⟨q, hq, he⟩ := h.1
  exact le_antisymm (h.2 ⟨p, hp, rfl⟩) (he ▸ hle q hq)

private theorem eq_least_iff {ps : Set Position} {f : Position → Int} {b : Int}
    (h : IsLeast (f '' ps) b) (hp : p ∈ ps) : f p = b ↔ ∀ q ∈ ps, f p ≤ f q := by
  refine ⟨fun he q hq => he ▸ h.2 ⟨q, hq, rfl⟩, fun hle => ?_⟩
  obtain ⟨q, hq, he⟩ := h.1
  exact le_antisymm (he ▸ hle q hq) (h.2 ⟨p, hp, rfl⟩)

/-- Of a tight box an edge holds the members that no other lies ahead of. -/
theorem mem_edge_iff (h : r.box.Tight {p | p ∈ r.members}) (d : Direction) :
    p ∈ r.edge d ↔ p ∈ r.members ∧ ∀ q ∈ r.members, q.along d ≤ p.along d := by
  rw [edge, List.mem_filter]
  refine and_congr_right fun hp => ?_
  cases d <;> simp only [onEdge, decide_eq_true_eq, Position.along_right, Position.along_down,
    Position.along_left, Position.along_up, Int.neg_le_neg_iff]
  · exact eq_greatest_iff h.maxX hp
  · exact eq_greatest_iff h.maxY hp
  · exact eq_least_iff h.minX hp
  · exact eq_least_iff h.minY hp

theorem pick?_of_exit {x : Exit} (h : r.exit hd = .ok x) :
    hd.exitRule.pick? (r.edge hd.direction) = some x.position ∧ x.size = r.size := by
  unfold exit at h
  split at h
  · next p hp =>
    cases h
    exact ⟨hp, rfl⟩
  · split at h <;> cases h

/-- The exit of a region leads all its pixels. -/
theorem leads_of_exit (h : r.box.Tight {p | p ∈ r.members}) {x : Exit} (hx : r.exit hd = .ok x) :
    hd.Leads {p | p ∈ r.members} x.position := by
  obtain ⟨hpick, -⟩ := pick?_of_exit hx
  obtain ⟨hmem, hahead⟩ := (mem_edge_iff h hd.direction).1 (ExitRule.mem_of_pick? hpick)
  refine ⟨hmem, hahead, fun q hq he => ?_⟩
  refine Heading.along_hand_le_of_pick? hpick ((mem_edge_iff h hd.direction).2 ⟨hq, fun s hs => ?_⟩)
  rw [he]
  exact hahead s hs

end Region

namespace Grid

variable {g : Grid} {p q : Position}

/-- A colored pixel has a region with an exit, which leads all that is joined to the pixel. -/
theorem exists_leading_exit {c : Color} (h : g.colorAt p = .ok c) (hd : Heading) :
    ∃ r x, g.region p = .ok r ∧ g.IsRegion p r ∧ r.color = c ∧ r.exit hd = .ok ⟨x, r.size⟩ ∧
      hd.Leads {q | g.Joined p q} x := by
  obtain ⟨r, hr, hreg⟩ := exists_region h
  obtain ⟨⟨x, n⟩, hx⟩ := exists_exit hr hd
  have hset : {q | q ∈ r.members} = {q | g.Joined p q} := Set.ext hreg.mem_iff
  obtain rfl : n = r.size := (Region.pick?_of_exit hx).2
  have hc : r.color = c := Except.ok.inj (hreg.colorAt_seed.symm.trans h)
  exact ⟨r, x, hr, hreg, hc, hx, hset ▸ Region.leads_of_exit hreg.tight hx⟩

/-- Nothing past the exit, or black. -/
theorem passage_of_shut {r : Region} {x : Exit} {hd : Heading} (hr : g.region p = .ok r)
    (hx : r.exit hd = .ok x) (h : g.codeAt? (x.position + hd.direction.unit) = none ∨
      g.codeAt? (x.position + hd.direction.unit) = some Color.black.code) :
    g.passage p hd = .ok (.blocked x.position (x.position.next? hd.direction)) := by
  cases hn : x.position.next? hd.direction with
  | none => exact passage_of_next?_eq_none hr hx hn
  | some q =>
    obtain ⟨rfl, -, -⟩ := Position.next?_eq_some_iff.1 hn
    rw [passage_of_next?_eq_some hr hx hn]
    rcases h with h | h
    · rw [if_neg (codeAt?_eq_none_iff.1 h)]
    · rw [if_pos (mem_of_codeAt?_eq_some h), colorAt_eq_ok_iff.2 h]
      rfl

theorem passage_of_open {r : Region} {x : Exit} {hd : Heading} {c : Color} {op : Op}
    (hr : g.region p = .ok r) (hx : r.exit hd = .ok x)
    (hc : g.colorAt (x.position + hd.direction.unit) = .ok c) (hb : c ≠ .black)
    (ho : Op.ofColors r.color c = .ok op) : g.passage p hd =
      .ok (.crossing ⟨x.position, x.size, r.color, x.position + hd.direction.unit, c, op⟩) := by
  have hm := mem_of_colorAt_eq_ok hc
  obtain ⟨⟨hx₀, -⟩, hy₀, -⟩ := mem_iff.1 hm
  rw [passage_of_next?_eq_some hr hx (Position.next?_eq_some_iff.2 ⟨rfl, hx₀, hy₀⟩), if_pos hm, hc]
  simp only [Except.bind, if_neg hb, ho]
  rfl

end Grid
end Piet
