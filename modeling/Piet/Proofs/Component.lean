import Piet.Proofs.Fill
import Mathlib.Data.List.Chain
import Mathlib.Data.Set.Card

/-! Regions as sets of pixels. The fill ends, and what it finds are the pixels that a path leads to,
pixel by pixel through one code; it counts each of them once and measures them exactly. -/
namespace Piet

/-- One coordinate differs by one and the other not at all. -/
def Position.Beside (p q : Position) : Prop := (q.x - p.x).natAbs + (q.y - p.y).natAbs = 1

/-- A way from one pixel to another, from each pixel to one beside it, through a single code. -/
structure Grid.IsPath (g : Grid) (code : Nat) (p q : Position) (path : List Position) : Prop where
  head? : path.head? = some p
  getLast? : path.getLast? = some q
  beside : path.IsChain Position.Beside
  mem : ∀ x ∈ path, x ∈ g
  codeAt? : ∀ x ∈ path, g.codeAt? x = some code

theorem Position.mem_neighbours_iff_beside {p q : Position} :
    q ∈ p.neighbours ↔ p.Beside q := by
  simp only [neighbours, List.mem_cons, List.not_mem_nil, or_false, Position.ext_iff, add_x, add_y,
    Beside]
  omega

namespace Grid

variable {g : Grid} {seed p : Position} {code : Nat}

/-- The pixels of a path of touching pixels hold the code of the first. -/
theorem isPath_of_isChain {path : List Position} (hne : path ≠ [])
    (h : path.IsChain g.Touches) (hc : g.codeAt? (path.head hne) = some code) :
    g.IsPath code (path.head hne) (path.getLast hne) path := by
  have hcodes : ∀ x ∈ path, g.codeAt? x = some code :=
    h.induction (g.codeAt? · = some code) path (fun x y ht hx => ht.2.2.trans hx) fun _ => hc
  refine ⟨List.head?_eq_some_head hne, List.getLast?_eq_some_getLast hne, ?_, ?_, hcodes⟩
  · exact h.imp fun x y ht => Position.mem_neighbours_iff_beside.1 ht.1
  · exact fun x hx => mem_of_codeAt?_eq_some (hcodes x hx)

theorem IsPath.joined {path : List Position} (h : g.IsPath code seed p path) :
    g.Joined seed p := by
  obtain ⟨hhead, hlast, hbeside, hmem, hcodes⟩ := h
  have hne : path ≠ [] := by
    rintro rfl
    cases hhead
  have hchain : path.IsChain g.Touches := by
    refine hbeside.imp_of_mem_imp fun x y hx hy hxy => ?_
    have hcode : g.codeAt? y = g.codeAt? x := (hcodes y hy).trans (hcodes x hx).symm
    exact ⟨Position.mem_neighbours_iff_beside.2 hxy, hmem x hx, hcode⟩
  have hjoined := List.relationReflTransGen_of_exists_isChain path hchain hne
  rw [List.head?_eq_some_head hne, Option.some_inj] at hhead
  rw [List.getLast?_eq_some_getLast hne, Option.some_inj] at hlast
  rwa [hhead, hlast] at hjoined

/-- Joined pixels are those that a path leads between. -/
theorem joined_iff_exists_isPath (hc : g.codeAt? seed = some code) :
    g.Joined seed p ↔ ∃ path, g.IsPath code seed p path := by
  constructor
  · intro h
    obtain ⟨path, hne, hchain, rfl, rfl⟩ := List.exists_isChain_ne_nil_of_relationReflTransGen h
    exact ⟨path, isPath_of_isChain hne hchain hc⟩
  · rintro ⟨path, h⟩
    exact h.joined

/-- A list without duplicates counts the set of its members. -/
theorem size_eq_ncard {r : Region} (h : r.members.Nodup) :
    r.size = {p | p ∈ r.members}.ncard := by
  rw [Region.size, ← List.toFinset_card_of_nodup h, ← Set.ncard_coe_finset, List.coe_toFinset]

/-- The region is made of what the fill has found when nothing waits any more. -/
theorem region_eq_of_fill {c : Color} (h : g.codeAt? seed = some c.code) :
    let f := (Fill.start g seed).run g c.code (g.width * g.height)
    f.queue = [] ∧ g.region seed = .ok ⟨c, f.members, f.box⟩ := by
  intro f
  have hdone : f.expanded = f.found.size :=
    (Fill.Invariant.start h).expanded_run (g.width * g.height) (Nat.le_add_right _ _)
  have hlength : f.found.toList.length ≤ f.expanded := by
    rw [Array.length_toList, hdone]
  refine ⟨List.drop_eq_nil_of_le hlength, ?_⟩
  rw [region, colorAt_eq_ok_iff.2 h, h, Fill.members, List.take_of_length_le hlength]
  rfl

/-- The fill ends, and the region holds exactly the pixels that a path through the code of the seed
leads to. -/
theorem region_exact {c : Color} (h : g.codeAt? seed = some c.code) :
    let reached := {p | ∃ path, g.IsPath c.code seed p path}
    ∃ turns ≤ g.width * g.height, ∃ f r,
      (Fill.start g seed).run g c.code turns = f ∧ f.queue = [] ∧
      g.region seed = .ok r ∧ r.members = f.members ∧ r.box = f.box ∧
      (∀ p, r.contains p = true ↔ p ∈ reached) ∧
      reached.Finite ∧ r.size = reached.ncard ∧
      g.colorAt seed = .ok r.color ∧ r.box.Tight reached := by
  intro reached
  obtain ⟨hqueue, hr⟩ := region_eq_of_fill h
  generalize hf : (Fill.start g seed).run g c.code (g.width * g.height) = f at hqueue hr
  have hreg := isRegion_of_region hr
  have hreached : reached = {p | p ∈ f.members} := by
    ext p
    exact (joined_iff_exists_isPath h).symm.trans (hreg.mem_iff p).symm
  refine ⟨_, le_rfl, f, _, hf, hqueue, hr, rfl, rfl, ?_, ?_, ?_, hreg.colorAt_seed, ?_⟩
  · intro p
    rw [hreached]
    exact List.contains_iff_mem
  · rw [hreached]
    exact List.finite_toSet _
  · rw [hreached]
    exact size_eq_ncard hreg.nodup
  · rw [hreached]
    exact hreg.tight

/-- Seven red pixels around a code that is no color, and an eighth that touches them at a corner
only. -/
def ring : Grid :=
  ⟨4, 3, #[0xff0000, 0xff0000, 0xff0000, 0x123456,
    0xff0000, 0x123456, 0xff0000, 0x000000,
    0xff0000, 0xff0000, 0x000000, 0xff0000], rfl⟩

theorem region_exact_ring : ring.codeAt? .origin = some (Color.chromatic .red .normal).code ∧
    ∃ r, ring.region .origin = .ok r ∧ r.size = 7 ∧ r.box = ⟨0, 2, 0, 2⟩ ∧
      r.size = {p | ∃ path, ring.IsPath 0xff0000 .origin p path}.ncard ∧
      (∃ path, ring.IsPath 0xff0000 .origin ⟨2, 1⟩ path) ∧
      ¬ ∃ path, ring.IsPath 0xff0000 .origin ⟨3, 2⟩ path := by
  have h : ring.codeAt? .origin = some (Color.chromatic .red .normal).code := by decide
  have hregion : ∃ r, ring.region .origin = .ok r ∧ r.size = 7 ∧ r.box = ⟨0, 2, 0, 2⟩ ∧
      r.contains ⟨2, 1⟩ = true ∧ r.contains ⟨3, 2⟩ = false :=
    ⟨_, rfl, by decide +kernel⟩
  obtain ⟨r, hr, hsize, hbox, hin, hout⟩ := hregion
  obtain ⟨-, -, -, r', -, -, hr', -, -, hmem, -, hncard, -⟩ := region_exact h
  obtain rfl : r' = r := Except.ok.inj (hr'.symm.trans hr)
  refine ⟨h, r', hr, hsize, hbox, hncard, (hmem _).1 hin, fun hp => ?_⟩
  rw [(hmem _).2 hp] at hout
  cases hout

end Grid
end Piet
