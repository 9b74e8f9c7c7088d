import Piet.Fill
import Piet.Proofs.Grid
import Mathlib.Data.List.Nodup
import Mathlib.Data.List.Perm.Subperm
import Mathlib.Logic.Relation
import Mathlib.Order.Bounds.Basic

/-! Flood fill finds exactly the pixels that a path of one code joins to the seed, each of them
once, and the tight box around them. -/
namespace Piet

attribute [ext] Position

/-- The sides are the least and greatest coordinates, and each of them is attained. -/
structure Box.Tight (b : Box) (ps : Set Position) : Prop where
  minX : IsLeast (Position.x '' ps) b.minX
  maxX : IsGreatest (Position.x '' ps) b.maxX
  minY : IsLeast (Position.y '' ps) b.minY
  maxY : IsGreatest (Position.y '' ps) b.maxY

theorem Box.tight_single (p : Position) : (single p).Tight {p} := by
  constructor <;> simp [single, isLeast_singleton, isGreatest_singleton]

theorem Box.Tight.extend {b : Box} {ps : Set Position} (h : b.Tight ps) (p : Position) :
    (b.extend p).Tight (insert p ps) := by
  constructor <;> rw [Set.image_insert_eq]
  · change IsLeast _ (min b.minX p.x)
    rw [min_comm]
    exact h.minX.insert p.x
  · change IsGreatest _ (max b.maxX p.x)
    rw [max_comm]
    exact h.maxX.insert p.x
  · change IsLeast _ (min b.minY p.y)
    rw [min_comm]
    exact h.minY.insert p.y
  · change IsGreatest _ (max b.maxY p.y)
    rw [max_comm]
    exact h.maxY.insert p.y

theorem Position.nodup_neighbours (p : Position) : p.neighbours.Nodup := by
  simp only [neighbours, List.nodup_cons, List.mem_cons, List.not_mem_nil, Position.ext_iff, add_x,
    add_y, List.nodup_nil, or_false, and_true, not_false_eq_true]
  omega

namespace Grid

/-- Two pixels side by side that hold the same code. -/
def Touches (g : Grid) (p q : Position) : Prop :=
  q ∈ p.neighbours ∧ p ∈ g ∧ g.codeAt? q = g.codeAt? p

/-- A path of touching pixels leads from one to the other. -/
def Joined (g : Grid) : Position → Position → Prop := Relation.ReflTransGen g.Touches

theorem Joined.codeAt?_eq {g : Grid} {p q : Position} (h : g.Joined p q) :
    g.codeAt? q = g.codeAt? p := by
  induction h with
  | refl => rfl
  | tail _ ht ih => exact ht.2.2.trans ih

end Grid

namespace Fill

variable {g : Grid} {seed p : Position} {code : Nat} {f : Fill}

/-- What holds before every turn. -/
structure Invariant (g : Grid) (seed : Position) (code : Nat) (f : Fill) : Prop where
  expanded_le : f.expanded ≤ f.found.size
  seed_mem : seed ∈ f.found.toList
  nodup : f.found.toList.Nodup
  codeAt?_eq : ∀ p ∈ f.found.toList, g.codeAt? p = some code
  joined : ∀ p ∈ f.found.toList, g.Joined seed p
  size_seen : f.seen.size = g.width * g.height
  isSeen_iff : ∀ p ∈ g, f.isSeen g p = true ↔ p ∈ f.found.toList
  closed : ∀ p ∈ f.members, ∀ q ∈ p.neighbours, g.codeAt? q = some code → q ∈ f.found.toList
  tight : f.box.Tight (insert seed {p | p ∈ f.members})

theorem found_expand (g : Grid) (code : Nat) (f : Fill) (p : Position) :
    (f.expand g code p).found.toList = f.found.toList ++ f.fresh g code p := by
  simp [expand]

theorem mem_found_expand {q : Position} :
    q ∈ (f.expand g code p).found.toList ↔ q ∈ f.found.toList ∨ q ∈ f.fresh g code p := by
  rw [found_expand, List.mem_append]

theorem mem_found_of_getElem? {i : Nat} (hp : f.found[i]? = some p) : p ∈ f.found.toList := by
  rw [Array.mem_toList_iff]
  exact Array.mem_of_getElem? hp

theorem members_expand (hp : f.found[f.expanded]? = some p) :
    (f.expand g code p).members = f.members ++ [p] := by
  have hl : f.found.toList[f.expanded]? = some p := by rwa [Array.getElem?_toList]
  obtain ⟨hlt, -⟩ := List.getElem?_eq_some_iff.1 hl
  unfold members
  rw [found_expand]
  change List.take (f.expanded + 1) _ = _
  rw [List.take_append_of_le_length hlt, List.take_add_one, hl]
  rfl

theorem mem_members_expand (hp : f.found[f.expanded]? = some p) {q : Position} :
    q ∈ (f.expand g code p).members ↔ q ∈ f.members ∨ q = p := by
  rw [members_expand hp, List.mem_append, List.mem_singleton]

theorem mem_fresh {q : Position} : q ∈ f.fresh g code p ↔
    q ∈ p.neighbours ∧ g.codeAt? q = some code ∧ f.isSeen g q = false := by
  simp [fresh]

theorem mem_of_mem_fresh {q : Position} (h : q ∈ f.fresh g code p) : q ∈ g :=
  Grid.mem_of_codeAt?_eq_some (mem_fresh.1 h).2.1

/-- Marking pixels makes them seen and leaves all others as they were. -/
private theorem getD_mark (qs : List Position) (hq : ∀ q ∈ qs, q ∈ g) (hp : p ∈ g)
    (seen : Array Bool) (hs : seen.size = g.width * g.height) :
    (qs.foldl (fun seen q => seen.setIfInBounds (g.index q) true) seen).getD (g.index p) false ↔
      p ∈ qs ∨ seen.getD (g.index p) false := by
  induction qs generalizing seen with
  | nil => simp
  | cons q qs ih =>
    have hm : q ∈ g := hq q (by simp)
    rw [List.foldl_cons, ih (fun r hr => hq r (by simp [hr])) _ (by simpa using hs)]
    have hlt : g.index q < seen.size := by
      rw [hs, ← g.size_codes]
      exact Grid.index_lt hm
    by_cases hpq : p = q
    · subst hpq
      simp [hlt]
    · have hne : g.index q ≠ g.index p := fun h => hpq (Grid.index_inj hp hm h.symm)
      simp [hpq, hne]

private theorem size_mark (seen : Array Bool) (qs : List Position) :
    (qs.foldl (fun seen q => seen.setIfInBounds (g.index q) true) seen).size = seen.size := by
  induction qs generalizing seen with
  | nil => rfl
  | cons q qs ih => rw [List.foldl_cons, ih, Array.size_setIfInBounds]

theorem Invariant.start (h : g.codeAt? seed = some code) : Invariant g seed code (start g seed) where
  expanded_le := by simp [Fill.start]
  seed_mem := by simp [Fill.start]
  nodup := by simp [Fill.start]
  codeAt?_eq := by simpa [Fill.start] using h
  joined := by
    intro p hp
    obtain rfl : p = seed := by simpa [Fill.start] using hp
    exact .refl
  size_seen := by simp [Fill.start]
  isSeen_iff := by
    intro p hp
    have hs := Grid.mem_of_codeAt?_eq_some h
    have hm := getD_mark [seed] (by simpa using hs) hp
      (.replicate (g.width * g.height) false) (by simp)
    have hno : (Array.replicate (g.width * g.height) false).getD (g.index p) false = false := by
      simp [Array.getElem?_replicate]
      split <;> rfl
    rw [hno] at hm
    simpa [isSeen, Fill.start] using hm
  closed := by simp [Fill.start, members]
  tight := by simpa [Fill.start, members] using Box.tight_single seed

/-- A turn keeps the invariant: the fresh neighbours are new, hold the code and are joined to the
seed through the pixel that is expanded. -/
theorem Invariant.expand (h : Invariant g seed code f) (hp : f.found[f.expanded]? = some p) :
    Invariant g seed code (f.expand g code p) where
  expanded_le := by
    obtain ⟨hlt, -⟩ := Array.getElem?_eq_some_iff.1 hp
    rw [← Array.length_toList, found_expand, List.length_append, Array.length_toList]
    change f.expanded + 1 ≤ _
    omega
  seed_mem := mem_found_expand.2 (Or.inl h.seed_mem)
  nodup := by
    rw [found_expand]
    refine List.nodup_append.2 ⟨h.nodup, (Position.nodup_neighbours p).filter _, ?_⟩
    rintro q hq r hr rfl
    have hseen := (h.isSeen_iff q (mem_of_mem_fresh hr)).2 hq
    have hunseen := (mem_fresh.1 hr).2.2
    rw [hseen] at hunseen
    cases hunseen
  codeAt?_eq := by
    intro q hq
    rcases mem_found_expand.1 hq with hq | hq
    · exact h.codeAt?_eq q hq
    · exact (mem_fresh.1 hq).2.1
  joined := by
    intro q hq
    have hpm := mem_found_of_getElem? hp
    have hpc := h.codeAt?_eq p hpm
    rcases mem_found_expand.1 hq with hq | hq
    · exact h.joined q hq
    · obtain ⟨hn, hc, -⟩ := mem_fresh.1 hq
      have ht : g.Touches p q := ⟨hn, Grid.mem_of_codeAt?_eq_some hpc, hc.trans hpc.symm⟩
      exact (h.joined p hpm).tail ht
  size_seen := (size_mark f.seen _).trans h.size_seen
  isSeen_iff := by
    intro q hq
    have hfresh : ∀ r ∈ f.fresh g code p, r ∈ g := fun r hr => mem_of_mem_fresh hr
    rw [mem_found_expand, ← h.isSeen_iff q hq, or_comm]
    exact getD_mark _ hfresh hq _ h.size_seen
  closed := by
    intro q hq r hr hc
    rw [mem_found_expand]
    rcases (mem_members_expand hp).1 hq with hq | rfl
    · exact Or.inl (h.closed q hq r hr hc)
    · by_cases hs : f.isSeen g r = true
      · exact Or.inl ((h.isSeen_iff r (Grid.mem_of_codeAt?_eq_some hc)).1 hs)
      · exact Or.inr (mem_fresh.2 ⟨hr, hc, by simpa using hs⟩)
  tight := by
    have hset : insert seed {q | q ∈ (f.expand g code p).members} =
        insert p (insert seed {q | q ∈ f.members}) := by
      ext q
      simp only [mem_members_expand hp, Set.mem_insert_iff, Set.mem_ofPred_eq]
      tauto
    rw [hset]
    exact h.tight.extend p

theorem Invariant.run (h : Invariant g seed code f) (turns : Nat) :
    Invariant g seed code (f.run g code turns) := by
  induction turns generalizing f with
  | zero => exact h
  | succ turns ih =>
    unfold Fill.run
    split
    · next p hp => exact ih (h.expand hp)
    · exact h

/-- No pixel is found twice, so there are at most as many as the grid has. -/
theorem Invariant.size_found_le (h : Invariant g seed code f) :
    f.found.size ≤ g.width * g.height := by
  have hinj : (f.found.toList.map g.index).Nodup := by
    refine List.Nodup.map_on (fun p hp q hq he => Grid.index_inj ?_ ?_ he) h.nodup
    · exact Grid.mem_of_codeAt?_eq_some (h.codeAt?_eq p hp)
    · exact Grid.mem_of_codeAt?_eq_some (h.codeAt?_eq q hq)
  have hsub : f.found.toList.map g.index ⊆ List.range (g.width * g.height) := by
    intro i hi
    obtain ⟨p, hp, rfl⟩ := List.mem_map.1 hi
    rw [List.mem_range, ← g.size_codes]
    exact Grid.index_lt (Grid.mem_of_codeAt?_eq_some (h.codeAt?_eq p hp))
  simpa using (hinj.subperm hsub).length_le

/-- With a turn for each pixel of the grid the queue runs empty. -/
theorem Invariant.expanded_run (h : Invariant g seed code f) (turns : Nat)
    (ht : g.width * g.height ≤ turns + f.expanded) :
    (f.run g code turns).expanded = (f.run g code turns).found.size := by
  induction turns generalizing f with
  | zero =>
    have hle := h.expanded_le
    have hsize := h.size_found_le
    change f.expanded = f.found.size
    omega
  | succ turns ih =>
    unfold Fill.run
    split
    · next p hp =>
      refine ih (h.expand hp) ?_
      change _ ≤ turns + (f.expanded + 1)
      omega
    · next hnone =>
      have hle := h.expanded_le
      have hge : f.found.size ≤ f.expanded := Array.getElem?_eq_none_iff.1 hnone
      omega

end Fill

namespace Grid

variable {g : Grid} {seed : Position} {r : Region}

/-- The maximal region around a seed. -/
structure IsRegion (g : Grid) (seed : Position) (r : Region) : Prop where
  colorAt_seed : g.colorAt seed = .ok r.color
  nodup : r.members.Nodup
  mem_iff : ∀ p, p ∈ r.members ↔ g.Joined seed p
  tight : r.box.Tight {p | p ∈ r.members}

theorem isRegion_of_region (h : g.region seed = .ok r) : g.IsRegion seed r := by
  unfold region at h
  cases hc : g.colorAt seed with
  | error e =>
    rw [hc] at h
    cases h
  | ok c =>
    rw [hc] at h
    obtain rfl := Except.ok.inj h
    have hcode := colorAt_eq_ok_iff.1 hc
    have h₀ := Fill.Invariant.start hcode
    have hinv := h₀.run (g.width * g.height)
    have hdone := h₀.expanded_run (g.width * g.height) (by omega)
    simp only [hcode, Option.getD_some]
    set f := (Fill.start g seed).run g c.code (g.width * g.height) with hf
    have hmem : f.members = f.found.toList := by
      rw [Fill.members, hdone, ← Array.length_toList, List.take_length]
    refine ⟨hc, hinv.nodup, fun p => ⟨hinv.joined p, fun hj => ?_⟩, ?_⟩
    · induction hj with
      | refl => exact hinv.seed_mem
      | tail _ ht ih =>
        have hp := hinv.codeAt?_eq _ ih
        exact hinv.closed _ (hmem ▸ ih) _ ht.1 (ht.2.2.trans hp)
    · have ht := hinv.tight
      rwa [hmem, Set.insert_eq_of_mem (show seed ∈ {p | p ∈ f.found.toList} from hinv.seed_mem)]
        at ht

theorem exists_region {c : Color} (h : g.colorAt seed = .ok c) :
    ∃ r, g.region seed = .ok r ∧ g.IsRegion seed r := by
  cases hr : g.region seed with
  | ok r => exact ⟨r, rfl, isRegion_of_region hr⟩
  | error e =>
    rw [region, h] at hr
    cases hr

end Grid
end Piet
