import Piet.Proofs.Exit
import Mathlib.Data.Prod.Lex

/-! The exit rule as geometry. All rows of its table say one thing: the exit lies farthest ahead,
and then farthest on the side of the chooser's hand. -/
namespace Piet

def Position.dot (p v : Position) : Int := p.x * v.x + p.y * v.y

/-- The vector on the side of the chooser's hand. Since y grows downwards, left is a quarter turn
counterclockwise. -/
def Heading.sideways (hd : Heading) : Position :=
  let v := hd.direction.unit
  match hd.chooser with
  | .left => ⟨v.y, -v.x⟩
  | .right => ⟨-v.y, v.x⟩

/-- How far ahead comes first; how far aside decides between equals. -/
def Heading.rank (hd : Heading) (p : Position) : Int ×ₗ Int :=
  toLex (p.dot hd.direction.unit, p.dot hd.sideways)

instance : Std.IsLinearOrder Position where
  le_refl p := by
    rw [Position.le_iff]
    omega
  le_trans p q r := by
    simp only [Position.le_iff]
    omega
  le_antisymm p q := by
    simp only [Position.le_iff, Position.ext_iff]
    omega
  le_total p q := by
    simp only [Position.le_iff]
    omega

theorem Position.min?_perm {ps qs : List Position} (h : ps.Perm qs) : ps.min? = qs.min? := by
  refine Option.ext fun p => ?_
  rw [List.min?_eq_some_iff, List.min?_eq_some_iff, h.mem_iff]
  exact and_congr_right fun _ => forall_congr' fun q => by rw [h.mem_iff]

namespace Heading

variable {hd : Heading} {ps : Set Position} {p q : Position}

theorem unit_hand (hd : Heading) : hd.hand.unit = hd.sideways := by
  obtain ⟨d, c⟩ := hd
  cases d <;> cases c <;> rfl

theorem dot_sideways (hd : Heading) (p : Position) : p.dot hd.sideways = p.along hd.hand := by
  rw [← unit_hand]
  rfl

/-- The one that leads outranks all others. -/
theorem Leads.rank_lt (h : hd.Leads ps p) (hq : q ∈ ps) (hne : q ≠ p) : hd.rank q < hd.rank p := by
  have hahead : q.along hd.direction ≤ p.along hd.direction := h.ahead q hq
  rw [rank, rank, Prod.Lex.toLex_lt_toLex, dot_sideways, dot_sideways]
  rcases hahead.lt_or_eq with hlt | heq
  · exact Or.inl hlt
  · have haside : q.along hd.hand ≤ p.along hd.hand := h.aside q hq heq
    have hdiffer : q.along hd.hand ≠ p.along hd.hand := fun he =>
      hne (Position.eq_of_along_eq heq he)
    exact Or.inr ⟨heq, lt_of_le_of_ne haside hdiffer⟩

end Heading

namespace Region

variable {r : Region} {hd : Heading} {p q : Position}

/-- An edge is straight. -/
theorem along_eq_of_mem_edge {d : Direction} (hp : p ∈ r.edge d) (hq : q ∈ r.edge d) :
    p.along d = q.along d := by
  have hp' : r.onEdge d p = true := (List.mem_filter.1 hp).2
  have hq' : r.onEdge d q = true := (List.mem_filter.1 hq).2
  cases d <;> simp only [onEdge, decide_eq_true_eq] at hp' hq' <;>
    simp only [Position.along_right, Position.along_down, Position.along_left, Position.along_up,
      hp', hq']

/-- On an edge the rule finds one pixel, in whichever order it looks. -/
theorem pick?_perm {ps : List Position} (h : ps.Perm (r.edge hd.direction)) :
    hd.exitRule.pick? ps = hd.exitRule.pick? (r.edge hd.direction) := by
  by_cases hnil : r.edge hd.direction = []
  · rw [hnil] at h ⊢
    rw [h.eq_nil]
  · have hne : ps ≠ [] := fun hps => hnil (h.symm.trans (hps ▸ .refl _)).eq_nil
    obtain ⟨p, hp⟩ := hd.exitRule.exists_pick? hne
    obtain ⟨q, hq⟩ := hd.exitRule.exists_pick? hnil
    have hpe : p ∈ r.edge hd.direction := h.mem_iff.1 (ExitRule.mem_of_pick? hp)
    have hqe : q ∈ r.edge hd.direction := ExitRule.mem_of_pick? hq
    have haside : p.along hd.hand = q.along hd.hand := by
      apply le_antisymm
      · exact Heading.along_hand_le_of_pick? hq hpe
      · exact Heading.along_hand_le_of_pick? hp (h.mem_iff.2 hqe)
    rw [hp, hq, Position.eq_of_along_eq (along_eq_of_mem_edge hpe hqe) haside]

/-- Members may be listed in any order. -/
theorem exit_perm {ms : List Position} (h : ms.Perm r.members) (hd : Heading) :
    ({ r with members := ms } : Region).exit hd = r.exit hd := by
  have hedge : (({ r with members := ms } : Region).edge hd.direction).Perm
      (r.edge hd.direction) := h.filter _
  have hsize : ({ r with members := ms } : Region).size = r.size := h.length_eq
  unfold exit
  rw [pick?_perm hedge, hsize, Position.min?_perm h]

/-- The ways in which the search for an exit can go. -/
theorem exit_cases (r : Region) (hd : Heading) :
    (∃ p ∈ r.edge hd.direction, r.exit hd = .ok ⟨p, r.size⟩) ∨
    (r.members ≠ [] ∧ r.edge hd.direction = [] ∧
      ∃ p, r.exit hd = .error (.noEdge p hd.direction)) ∨
    (r.members = [] ∧ r.exit hd = .error .emptyRegion) := by
  unfold exit
  cases hp : hd.exitRule.pick? (r.edge hd.direction) with
  | some p => exact Or.inl ⟨p, ExitRule.mem_of_pick? hp, rfl⟩
  | none =>
    have hedge : r.edge hd.direction = [] := by
      by_contra hne
      obtain ⟨p, hp'⟩ := hd.exitRule.exists_pick? hne
      rw [hp] at hp'
      cases hp'
    cases hm : r.members.min? with
    | none => exact Or.inr (Or.inr ⟨List.min?_eq_none_iff.1 hm, rfl⟩)
    | some p => exact Or.inr (Or.inl ⟨List.ne_nil_of_mem (List.min?_mem hm), hedge, p, rfl⟩)

theorem edge_eq_nil_iff {d : Direction} :
    r.edge d = [] ↔ ∀ p ∈ r.members, r.onEdge d p = false := by
  simp [edge, List.filter_eq_nil_iff]

/-- The exit of a region is the member that outranks all others, and the order of the members does
not matter. -/
theorem exit_exact :
    (∀ (g : Grid) (seed : Position) (r : Region), g.region seed = .ok r → ∀ hd : Heading,
      ∃ p, r.exit hd = .ok ⟨p, r.size⟩ ∧ p ∈ r.members ∧
        ∀ q ∈ r.members, q ≠ p → hd.rank q < hd.rank p) ∧
    ∀ (r : Region) (hd : Heading),
      (∀ ms, ms.Perm r.members → ({ r with members := ms } : Region).exit hd = r.exit hd) ∧
      ((∃ x, r.exit hd = .ok x) ↔ ∃ p ∈ r.members, r.onEdge hd.direction p = true) ∧
      ((∃ p d, r.exit hd = .error (.noEdge p d)) ↔
        r.members ≠ [] ∧ ∀ p ∈ r.members, r.onEdge hd.direction p = false) ∧
      (r.exit hd = .error .emptyRegion ↔ r.members = []) := by
  constructor
  · intro g seed r hr hd
    have htight := (Grid.isRegion_of_region hr).tight
    obtain ⟨p, -, hx⟩ := exit_of_tight htight hd
    have hleads := leads_of_exit htight hx
    exact ⟨p, hx, hleads.mem, fun q hq hne => hleads.rank_lt hq hne⟩
  · intro r hd
    refine ⟨fun ms h => exit_perm h hd, ?_⟩
    rw [← edge_eq_nil_iff]
    rcases r.exit_cases hd with ⟨p, hp, hx⟩ | ⟨hne, hedge, p, hx⟩ | ⟨hnil, hx⟩
    · have hmem : p ∈ r.members ∧ r.onEdge hd.direction p = true := List.mem_filter.1 hp
      simpa [hx, List.ne_nil_of_mem hp, List.ne_nil_of_mem hmem.1] using ⟨p, hmem⟩
    · have hno := edge_eq_nil_iff.1 hedge
      simpa [hx, hne, hedge] using hno
    · simp [hx, hnil]

end Region

/-- Seven red pixels whose right edge falls into two pieces. -/
def Grid.fork : Grid :=
  ⟨3, 3, #[0xff0000, 0xff0000, 0xff0000, 0xff0000, 0x000000, 0x000000, 0xff0000, 0xff0000, 0xff0000],
    rfl⟩

theorem Region.exit_exact_fork : ∃ r, Grid.fork.region ⟨0, 1⟩ = .ok r ∧
    r.exit ⟨.right, .right⟩ = .ok ⟨⟨2, 2⟩, 7⟩ ∧
    (∀ q ∈ r.members, q ≠ ⟨2, 2⟩ →
      (⟨.right, .right⟩ : Heading).rank q < (⟨.right, .right⟩ : Heading).rank ⟨2, 2⟩) ∧
    ({ r with members := r.members.reverse } : Region).exit ⟨.right, .right⟩ =
      .ok ⟨⟨2, 2⟩, 7⟩ ∧
    ∃ p d, ({ r with box := ⟨0, 5, 0, 2⟩ } : Region).exit ⟨.right, .right⟩ =
      .error (.noEdge p d) := by
  have hr : ∃ r, Grid.fork.region ⟨0, 1⟩ = .ok r ∧ r.exit ⟨.right, .right⟩ = .ok ⟨⟨2, 2⟩, 7⟩ ∧
      r.members ≠ [] ∧
      ∀ p ∈ r.members, ({ r with box := ⟨0, 5, 0, 2⟩ } : Region).onEdge .right p = false :=
    ⟨_, rfl, by decide +kernel⟩
  obtain ⟨r, hr, hx, hne, hno⟩ := hr
  obtain ⟨p, hp, -, hrank⟩ := exit_exact.1 Grid.fork ⟨0, 1⟩ r hr ⟨.right, .right⟩
  obtain rfl : p = ⟨2, 2⟩ := congrArg Exit.position (Except.ok.inj (hp.symm.trans hx))
  obtain ⟨hperm, -⟩ := exit_exact.2 r ⟨.right, .right⟩
  obtain ⟨-, -, hedge, -⟩ := exit_exact.2 { r with box := ⟨0, 5, 0, 2⟩ } ⟨.right, .right⟩
  refine ⟨r, hr, hx, hrank, ?_, hedge.2 ⟨hne, hno⟩⟩
  rw [hperm _ r.members.reverse_perm, hx]

end Piet
