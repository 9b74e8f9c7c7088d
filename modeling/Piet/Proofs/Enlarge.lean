import Piet.Proofs.Cover
import Mathlib.Data.List.ProdSigma

/-! Enlarged pictures. A picture whose pixels are drawn as square blocks runs as it did, wherever in
its block the walker stands, but regions are larger, and a push tells. -/
namespace Piet

/-- The block that a pixel lies in, where blocks are `k` pixels wide and high. -/
def Position.block (k : Nat) (p : Position) : Position := ⟨p.x / k, p.y / k⟩

/-- State `t` is that of a walker somewhere in the block of the pixel on which the walker of
state `s` stands. -/
structure State.Within (k : Nat) (s t : State) : Prop where
  position : t.position.block k = s.position
  state : t = { s with position := t.position }

/-- The picture with every pixel drawn as a block of `k` times `k`. -/
def Grid.enlarge (g : Grid) (k : Nat) : Grid :=
  g.pullback (g.width * k) (g.height * k) (Position.block k)

section Blocks

variable {k : Nat}

theorem ediv_eq_iff_exists (hk : 0 < k) {x q : Int} :
    x / k = q ↔ ∃ i < k, x = k * q + (i : Nat) := by
  have hk' : (0 : Int) < k := by exact_mod_cast hk
  constructor
  · rintro rfl
    have hlt := Int.emod_lt_of_pos x hk'
    have hnn := Int.emod_nonneg x hk'.ne'
    have hadd := Int.mul_ediv_add_emod x k
    exact ⟨(x % k).toNat, by omega, by omega⟩
  · rintro ⟨i, hi, rfl⟩
    have hi' : (i : Int) / k = 0 := Int.ediv_eq_zero_of_lt (by omega) (by omega)
    rw [Int.mul_add_ediv_left _ _ hk'.ne', hi', Int.add_zero]

theorem mul_ediv_block (hk : 0 < k) (q : Int) : k * q / k = q :=
  (ediv_eq_iff_exists hk).2 ⟨0, hk, by simp⟩

theorem succ_ediv (hk : 0 < k) (x : Int) : (x + 1) / k = x / k ∨ (x + 1) / k = x / k + 1 := by
  obtain ⟨i, hi, hx⟩ := (ediv_eq_iff_exists hk).1 (rfl : x / k = x / k)
  by_cases hlast : i + 1 < k
  · exact Or.inl ((ediv_eq_iff_exists hk).2 ⟨i + 1, hlast, by push_cast; omega⟩)
  · refine Or.inr ((ediv_eq_iff_exists hk).2 ⟨0, hk, ?_⟩)
    have hik : (i : Int) + 1 = k := by omega
    rw [Int.mul_add, Int.mul_one]
    omega

theorem ediv_eq_of_between (hk : 0 < k) {a b c : Int} (h : c / k = a / k)
    (hb : a ≤ b ∧ b ≤ c ∨ c ≤ b ∧ b ≤ a) : b / k = a / k := by
  have hk' : (0 : Int) < k := by exact_mod_cast hk
  rcases hb with ⟨hab, hbc⟩ | ⟨hcb, hba⟩
  · have hlo := Int.ediv_le_ediv hk' hab
    have hhi := Int.ediv_le_ediv hk' hbc
    omega
  · have hlo := Int.ediv_le_ediv hk' hcb
    have hhi := Int.ediv_le_ediv hk' hba
    omega

theorem block_add_unit (hk : 0 < k) (d : Direction) (p : Position) :
    (p + d.unit).block k = p.block k ∨ (p + d.unit).block k = p.block k + d.unit := by
  have hx := succ_ediv hk p.x
  have hx' := succ_ediv hk (p.x - 1)
  have hy := succ_ediv hk p.y
  have hy' := succ_ediv hk (p.y - 1)
  rw [Int.sub_add_cancel] at hx' hy'
  cases d <;> simp only [Position.block, Direction.unit, Position.ext_iff, Position.add_x,
    Position.add_y, Int.add_zero, ← Int.sub_eq_add_neg, and_true, true_and] <;> omega

/-- One step takes a walker nearer to where he wants to go, and not past it. -/
private theorem exists_step_toward {p q : Position} (h : p ≠ q) : ∃ d : Direction,
    (p.x ≤ (p + d.unit).x ∧ (p + d.unit).x ≤ q.x ∨ q.x ≤ (p + d.unit).x ∧ (p + d.unit).x ≤ p.x) ∧
    (p.y ≤ (p + d.unit).y ∧ (p + d.unit).y ≤ q.y ∨ q.y ≤ (p + d.unit).y ∧ (p + d.unit).y ≤ p.y) ∧
    (q.x - (p + d.unit).x).natAbs + (q.y - (p + d.unit).y).natAbs <
      (q.x - p.x).natAbs + (q.y - p.y).natAbs := by
  have hne : p.x < q.x ∨ q.x < p.x ∨ p.x = q.x ∧ p.y < q.y ∨ p.x = q.x ∧ q.y < p.y := by
    by_contra hno
    exact h (Position.ext (by omega) (by omega))
  rcases hne with hlt | hlt | ⟨he, hlt⟩ | ⟨he, hlt⟩
  · exact ⟨.right, by simp only [Direction.unit, Position.add_x, Position.add_y]; omega⟩
  · exact ⟨.left, by simp only [Direction.unit, Position.add_x, Position.add_y]; omega⟩
  · exact ⟨.down, by simp only [Direction.unit, Position.add_x, Position.add_y]; omega⟩
  · exact ⟨.up, by simp only [Direction.unit, Position.add_x, Position.add_y]; omega⟩

theorem block_origin (k : Nat) : Position.origin.block k = .origin :=
  Position.ext (Int.zero_ediv _) (Int.zero_ediv _)

theorem joined_in_block (hk : 0 < k) (p q : Position) (h : q.block k = p.block k) :
    Relation.ReflTransGen (fun a b => b ∈ a.neighbours ∧ b.block k = a.block k) p q := by
  -- By the distance that is left to go: on the way nearer to `q` no step leaves the block.
  induction hn : (q.x - p.x).natAbs + (q.y - p.y).natAbs using Nat.strong_induction_on
    generalizing p with
  | _ n ih =>
    by_cases hpq : p = q
    · exact hpq ▸ .refl
    · obtain ⟨d, hx, hy, hlt⟩ := exists_step_toward hpq
      obtain ⟨hqx, hqy⟩ := Position.mk.inj h
      have hblock : (p + d.unit).block k = p.block k :=
        Position.ext (ediv_eq_of_between hk hqx hx) (ediv_eq_of_between hk hqy hy)
      exact .head ⟨Position.mem_neighbours_iff.2 ⟨d, rfl⟩, hblock⟩
        (ih _ (hn ▸ hlt) (p + d.unit) (h.trans hblock.symm) rfl)

/-- The pixels of a block. -/
def blockPixels (k : Nat) (q : Position) : List Position :=
  (List.range k ×ˢ List.range k).map fun i => ⟨k * q.x + i.1, k * q.y + i.2⟩

theorem mem_blockPixels_iff (hk : 0 < k) {p q : Position} :
    p ∈ blockPixels k q ↔ p.block k = q := by
  rw [Position.ext_iff]
  change _ ↔ p.x / k = q.x ∧ p.y / k = q.y
  rw [ediv_eq_iff_exists hk, ediv_eq_iff_exists hk, blockPixels, List.mem_map]
  constructor
  · rintro ⟨⟨i, j⟩, hij, rfl⟩
    obtain ⟨hi, hj⟩ := List.mem_product.1 hij
    exact ⟨⟨i, List.mem_range.1 hi, rfl⟩, j, List.mem_range.1 hj, rfl⟩
  · rintro ⟨⟨i, hi, hx⟩, j, hj, hy⟩
    exact ⟨(i, j), List.mem_product.2 ⟨List.mem_range.2 hi, List.mem_range.2 hj⟩,
      Position.ext hx.symm hy.symm⟩

theorem nodup_blockPixels (k : Nat) (q : Position) : (blockPixels k q).Nodup := by
  refine List.Nodup.map ?_ (List.nodup_range.product List.nodup_range)
  rintro ⟨i, j⟩ ⟨i', j'⟩ h
  obtain ⟨hx, hy⟩ := Position.mk.inj h
  rw [Prod.mk.injEq]
  omega

theorem length_blockPixels (k : Nat) (q : Position) : (blockPixels k q).length = k * k := by
  simp [blockPixels, List.length_product]

theorem projection_block (hk : 0 < k) : Projection 0 (k * k) (Position.block k) where
  onward d p := block_add_unit hk d p
  along_le := by
    intro d p q h
    have hk' : (0 : Int) < k := by exact_mod_cast hk
    cases d <;> simp only [Direction.clockwise_zero, Position.along_right, Position.along_down,
      Position.along_left, Position.along_up, Int.neg_le_neg_iff] at h ⊢ <;>
      exact Int.ediv_le_ediv hk' h
  level := by
    intro d p q h
    cases d with
    | right | left =>
      simp only [Position.along_right, Position.along_left, Int.neg_inj] at h
      exact ⟨⟨p.x, k * q.y⟩, Position.ext h.symm (mul_ediv_block hk q.y), by
        simp [Direction.clockwise_zero]⟩
    | down | up =>
      simp only [Position.along_down, Position.along_up, Int.neg_inj] at h
      exact ⟨⟨k * q.x, p.y⟩, Position.ext (mul_ediv_block hk q.x) h.symm, by
        simp [Direction.clockwise_zero]⟩
  border := by
    intro d q
    -- The pixels at the four sides of a block, and those past them.
    have hlast : ∀ a : Int, (k * a + (k - 1)) / k = a := fun a =>
      (ediv_eq_iff_exists hk).2 ⟨k - 1, by omega, by omega⟩
    have hnext : ∀ a : Int, (k * a + (k - 1) + 1) / k = a + 1 := fun a =>
      (ediv_eq_iff_exists hk).2 ⟨0, hk, by rw [Int.mul_add, Int.mul_one]; omega⟩
    have hprev : ∀ a : Int, (k * a - 1) / k = a - 1 := fun a =>
      (ediv_eq_iff_exists hk).2 ⟨k - 1, by omega, by rw [Int.mul_sub, Int.mul_one]; omega⟩
    have hfirst := mul_ediv_block hk
    have hsame : ∀ a : Int, (k * a + 0) / k = a + 0 := fun a => by
      rw [Int.add_zero, Int.add_zero, hfirst]
    cases d with
    | right =>
      refine ⟨⟨k * q.x + (k - 1), k * q.y⟩, Position.ext (hlast q.x) (hfirst q.y), ?_⟩
      exact Position.ext (hnext q.x) (hsame q.y)
    | down =>
      refine ⟨⟨k * q.x, k * q.y + (k - 1)⟩, Position.ext (hfirst q.x) (hlast q.y), ?_⟩
      exact Position.ext (hsame q.x) (hnext q.y)
    | left =>
      refine ⟨⟨k * q.x, k * q.y⟩, Position.ext (hfirst q.x) (hfirst q.y), ?_⟩
      exact Position.ext (hprev q.x) (hsame q.y)
    | up =>
      refine ⟨⟨k * q.x, k * q.y⟩, Position.ext (hfirst q.x) (hfirst q.y), ?_⟩
      exact Position.ext (hsame q.x) (hprev q.y)
  joined := joined_in_block hk
  fiber q := ⟨blockPixels k q, nodup_blockPixels k q, length_blockPixels k q,
    fun _ => mem_blockPixels_iff hk⟩

end Blocks

namespace Grid

variable {g : Grid} {k : Nat} {s t : State} {p : Position}

theorem mem_enlarge_iff (hk : 0 < k) : p ∈ g.enlarge k ↔ p.block k ∈ g := by
  have hk' : (0 : Int) < k := by exact_mod_cast hk
  rw [mem_iff, mem_iff]
  change (0 ≤ p.x ∧ p.x < (g.width * k : Nat)) ∧ 0 ≤ p.y ∧ p.y < (g.height * k : Nat) ↔
    (0 ≤ p.x / k ∧ p.x / k < g.width) ∧ 0 ≤ p.y / k ∧ p.y / k < g.height
  rw [Int.ediv_nonneg_iff_of_pos hk', Int.ediv_nonneg_iff_of_pos hk',
    Int.ediv_lt_iff_lt_mul hk', Int.ediv_lt_iff_lt_mul hk']
  push_cast
  rfl

theorem enlarge_covers (g : Grid) (hk : 0 < k) : (g.enlarge k).Covers g (Position.block k) :=
  covers_pullback fun _ => (mem_enlarge_iff hk).2

theorem codeAt?_enlarge (hk : 0 < k) (p : Position) :
    (g.enlarge k).codeAt? p = g.codeAt? (p.block k) := by
  by_cases hp : p.block k ∈ g
  · exact (g.enlarge_covers hk).codeAt?_eq p hp
  · rw [codeAt?_eq_none_iff.2 hp, codeAt?_eq_none_iff.2 (mt (mem_enlarge_iff hk).1 hp)]

theorem Validated.enlarge (hg : g.Validated) (hk : 0 < k) : (g.enlarge k).Validated :=
  hg.pullback (Nat.mul_pos hg.width_pos hk) (Nat.mul_pos hg.height_pos hk) _

theorem colorAt_origin_enlarge (hg : g.Validated) (hk : 0 < k) :
    (g.enlarge k).colorAt .origin = g.colorAt .origin := by
  have hmem : Position.origin.block k ∈ g := (block_origin k).symm ▸ hg.origin_mem
  have h := (g.enlarge_covers hk).colorAt_eq hmem
  rwa [block_origin] at h

/-- A step on a picture and one on the enlarged picture, told apart by the place within a block and
by pushes. -/
structure EnlargedStep (g : Grid) (k : Nat) (s : State) (o o' : Outcome (Option Op)) : Prop where
  result : o'.result = o.result
  within : o.result ≠ .ok (some .push) → o.state.Within k o'.state
  pushed : o.result = .ok (some .push) → ∃ r, g.region s.position = .ok r ∧
    o.state.stack = .ofNat r.size :: s.stack ∧ ∃ t, o.state.Within k t ∧
      o'.state = { t with stack := .ofNat (k * k * r.size) :: s.stack }

theorem Over.within (h : g.Over (Position.block k) 0 s t) : s.Within k t := ⟨h.position, h.state⟩

theorem enlargedStep (hg : g.Validated) (hk : 0 < k) (hs : g.Colored s.position)
    (hst : s.Within k t) : g.EnlargedStep k s (g.step s) ((g.enlarge k).step t) := by
  have horigin := colorAt_origin_enlarge hg hk
  have hover : g.Over (Position.block k) 0 s t := ⟨fun _ => hs, hst.position, hst.state⟩
  have htwins := (g.enlarge_covers hk).twins (projection_block hk) hg (by rw [horigin]) hover
  generalize g.step s = o at htwins ⊢
  generalize (g.enlarge k).step t = o' at htwins ⊢
  refine ⟨htwins.result, ?_, ?_⟩
  · intro hpush
    rcases htwins.state fun h => absurd h hpush with ⟨-, hp, hstate⟩ | ⟨op, q', -, hq, hstate⟩ <;>
      rw [hstate]
    · exact ⟨hst.position.trans hp.symm, rfl⟩
    · exact ⟨hq, rfl⟩
  · intro hpush
    cases htwins with
    | stayed hr => exact absurd hpush (hr _)
    | moved hop =>
      cases hpush
      exact absurd rfl hop
    | @pushed m u q' _ _ hm hq hstack =>
      obtain ⟨r, hr, hx, -⟩ := (crosses_of_passage hm).exit
      have hsize : m.size = r.size := (Region.pick?_of_exit hx).2
      refine ⟨r, hr, hsize ▸ hstack, u.relocate 0 q', ⟨hq, rfl⟩, ?_⟩
      rw [← hsize]

/-- Up to the first push, a picture and its enlargement answer alike in every session. -/
theorem play_enlarge (hg : g.Validated) (hk : 0 < k) :
    (g.enlarge k).Validated ∧
    (∀ s t, g.Colored s.position → s.Within k t →
      g.EnlargedStep k s (g.step s) ((g.enlarge k).step t)) ∧
    ∀ (input : Option String) (patience : Nat) (calls : List Call),
      let s := State.initial input
      let as := g.acts patience s calls
      (∃ log, g.launch input = .ok (s, log) ∧ (g.enlarge k).launch input = .ok (s, log)) ∧
      (∀ past, past <+: as → .push ∉ g.operations s past →
        past <+: (g.enlarge k).acts patience s calls ∧
        (g.after s past).Within k ((g.enlarge k).after s past)) ∧
      (.push ∉ g.operations s as → Option.Rel
        (List.Forall₂ (Outcome.Agrees Record.Alike (State.Within k)))
        (g.play? patience s calls) ((g.enlarge k).play? patience s calls)) := by
  refine ⟨hg.enlarge hk, fun s t => enlargedStep hg hk, fun input patience calls => ?_⟩
  intro s as
  have horigin := colorAt_origin_enlarge hg hk
  have hsim := (g.enlarge_covers hk).simulates (projection_block hk) hg (by rw [horigin])
  have hover : g.Over (Position.block k) 0 s s :=
    ⟨fun ho => ⟨hg.origin_mem, ho⟩, block_origin k, rfl⟩
  have hfree : ∀ {past}, .push ∉ g.operations s past →
      ∀ op ∈ g.operations s past, op = .push → k * k = 1 :=
    fun hpush op hop he => absurd (he ▸ hop) hpush
  refine ⟨?_, fun past hpast hpush => ?_, fun hpush => ?_⟩
  · obtain ⟨c, hc⟩ := hg.colorAt_of_mem hg.origin_mem
    exact ⟨_, by rw [launch, hc]; rfl, by rw [launch, horigin, hc]; rfl⟩
  · exact ⟨hsim.acts_prefix hover hpast (hfree hpush), (hsim.after hover past (hfree hpush)).within⟩
  · exact hsim.play?_mono hover patience calls (hfree hpush) fun _ _ => Over.within

theorem play_enlarge_corridor : corridor.Validated ∧ 0 < 3 ∧
    ∃ r, corridor.region .origin = .ok r ∧
      (corridor.step (.initial none)).state.stack = [.ofNat r.size] ∧
      ((corridor.enlarge 3).step (.initial none)).state.stack = [.ofNat (3 * 3 * r.size)] := by
  have hg := corridor_accepted.validated
  obtain ⟨-, hstep, -⟩ := play_enlarge hg (by decide : 0 < 3)
  obtain ⟨-, -, hpushed⟩ := hstep (.initial none) (.initial none) ⟨by decide, by decide⟩ ⟨rfl, rfl⟩
  obtain ⟨r, hr, hstack, t, -, hstate⟩ := hpushed (by decide +kernel)
  exact ⟨hg, by decide, r, hr, hstack, congrArg State.stack hstate⟩

end Grid
end Piet
