import Piet.Proofs.Component
import Mathlib.Data.Nat.Find

/-! The flood fill turn by turn. Pixels are marked when they join the queue, so none joins it twice,
and there is one turn for each member. -/
namespace Piet

namespace Fill

/-- A single turn, unless no pixel waits. -/
def turn (g : Grid) (code : Nat) (f : Fill) : Fill :=
  match f.found[f.expanded]? with
  | some p => f.expand g code p
  | none => f

/-- The pixels that join the end of the queue in the next turn. -/
def joining (g : Grid) (code : Nat) (f : Fill) : List Position :=
  match f.found[f.expanded]? with
  | some p => f.fresh g code p
  | none => []

/-- The accounts of a fill between two turns. -/
structure Bookkeeping (g : Grid) (seed : Position) (code : Nat) (f : Fill) : Prop where
  seen : ∀ p, p ∈ g ∧ f.isSeen g p = true ↔ p ∈ f.members ∨ p ∈ f.queue
  disjoint : f.members.Disjoint f.queue
  nodup_members : f.members.Nodup
  nodup_queue : f.queue.Nodup
  codeAt? : ∀ p, p ∈ f.members ∨ p ∈ f.queue → p ∈ g ∧ g.codeAt? p = some code
  closed : ∀ p ∈ f.members, ∀ q ∈ g, p.Beside q → g.codeAt? q = some code →
    f.isSeen g q = true
  tight : f.box.Tight (insert seed {p | p ∈ f.members})

variable {g : Grid} {seed p : Position} {code i j n : Nat} {f : Fill}

theorem head?_queue (f : Fill) : f.queue.head? = f.found[f.expanded]? := by
  rw [queue, List.head?_drop, Array.getElem?_toList]

theorem queue_eq_nil_iff : f.queue = [] ↔ f.found[f.expanded]? = none := by
  rw [← head?_queue, List.head?_eq_none_iff]

theorem found_eq_append (f : Fill) : f.found.toList = f.members ++ f.queue :=
  (List.take_append_drop f.expanded f.found.toList).symm

theorem Invariant.bookkeeping (h : Invariant g seed code f) : Bookkeeping g seed code f := by
  have hnodup := h.nodup
  have hfound : ∀ p, p ∈ f.found.toList ↔ p ∈ f.members ∨ p ∈ f.queue := by
    intro p
    rw [found_eq_append, List.mem_append]
  rw [found_eq_append, List.nodup_append'] at hnodup
  obtain ⟨hmembers, hqueue, hdisjoint⟩ := hnodup
  have hcode : ∀ p, p ∈ f.members ∨ p ∈ f.queue → p ∈ g ∧ g.codeAt? p = some code := by
    intro p hp
    have hc := h.codeAt?_eq p ((hfound p).2 hp)
    exact ⟨Grid.mem_of_codeAt?_eq_some hc, hc⟩
  refine ⟨fun p => ?_, hdisjoint, hmembers, hqueue, hcode, ?_, h.tight⟩
  · rw [← hfound]
    constructor
    · rintro ⟨hp, hs⟩
      exact (h.isSeen_iff p hp).1 hs
    · intro hp
      have hm := (hcode p ((hfound p).1 hp)).1
      exact ⟨hm, (h.isSeen_iff p hm).2 hp⟩
  · intro p hp q hq hbeside hc
    rw [h.isSeen_iff q hq]
    exact h.closed p hp q (Position.mem_neighbours_iff_beside.2 hbeside) hc

theorem members_turn (g : Grid) (code : Nat) (f : Fill) :
    (f.turn g code).members = f.members ++ f.queue.head?.toList := by
  rw [head?_queue, turn]
  split
  · next p hp => rw [members_expand hp, hp]; rfl
  · next hp => rw [hp]; exact (List.append_nil _).symm

theorem found_turn (g : Grid) (code : Nat) (f : Fill) :
    (f.turn g code).found.toList = f.found.toList ++ f.joining g code := by
  unfold turn joining
  split
  · next p hp => exact found_expand g code f p
  · exact (List.append_nil _).symm

theorem expanded_turn (h : f.queue ≠ []) : (f.turn g code).expanded = f.expanded + 1 := by
  obtain ⟨p, hp⟩ := Option.ne_none_iff_exists'.1 (mt queue_eq_nil_iff.2 h)
  rw [turn, hp]
  rfl

theorem turn_of_queue_eq_nil (h : f.queue = []) : f.turn g code = f := by
  rw [turn, queue_eq_nil_iff.1 h]

theorem queue_turn (g : Grid) (code : Nat) (f : Fill) :
    (f.turn g code).queue = f.queue.tail ++ f.joining g code := by
  by_cases hq : f.queue = []
  · rw [turn_of_queue_eq_nil hq, joining, queue_eq_nil_iff.1 hq, hq]
    rfl
  · have hlt : f.expanded < f.found.toList.length := by
      by_contra hge
      exact hq (List.drop_eq_nil_of_le (Nat.not_lt.1 hge))
    rw [queue, found_turn, expanded_turn hq, List.drop_append_of_le_length hlt, queue,
      List.tail_drop]

/-- A fill that stops early is one whose further turns change nothing. -/
theorem run_eq_iterate (g : Grid) (code n : Nat) (f : Fill) :
    f.run g code n = (turn g code)^[n] f := by
  induction n generalizing f with
  | zero => rfl
  | succ n ih =>
    cases hp : f.found[f.expanded]? with
    | some p =>
      have hturn : f.turn g code = f.expand g code p := by rw [turn, hp]
      rw [Function.iterate_succ_apply, hturn, ← ih]
      simp only [run, hp]
    | none =>
      have hturn : f.turn g code = f := turn_of_queue_eq_nil (queue_eq_nil_iff.2 hp)
      rw [Function.iterate_fixed hturn]
      simp only [run, hp]

/-- The next turn comes after all others. -/
theorem run_succ_eq (g : Grid) (code n : Nat) (f : Fill) :
    f.run g code (n + 1) = (f.run g code n).turn g code := by
  rw [run_eq_iterate, run_eq_iterate, Function.iterate_succ_apply']

/-- What has been found so far joined the queue in one of the turns. -/
theorem found_run (g : Grid) (code n : Nat) (f : Fill) :
    (f.run g code n).found.toList =
      f.found.toList ++ (List.range n).flatMap fun i => (f.run g code i).joining g code := by
  induction n with
  | zero => exact (List.append_nil _).symm
  | succ n ih =>
    rw [run_succ_eq, found_turn, ih, List.range_succ, List.flatMap_append, List.append_assoc]
    simp

theorem expanded_run_of_ne_nil (h : ∀ j < i, (f.run g code j).queue ≠ []) :
    (f.run g code i).expanded = f.expanded + i := by
  induction i with
  | zero => rfl
  | succ i ih =>
    rw [run_succ_eq, expanded_turn (h i (Nat.lt_succ_self i)),
      ih fun j hj => h j (Nat.lt_succ_of_lt hj), Nat.add_assoc]

/-- An empty queue stays empty. -/
theorem run_of_queue_eq_nil (h : (f.run g code i).queue = []) (hle : i ≤ j) :
    f.run g code j = f.run g code i := by
  induction hle with
  | refl => rfl
  | step _ ih => rw [run_succ_eq, ih, turn_of_queue_eq_nil h]

/-- The queue is empty after as many turns as there are pixels to find, and not before. -/
theorem Invariant.exists_last_turn (h : Invariant g seed code f) (hf : f.expanded = 0) :
    ∃ n ≤ g.width * g.height, (f.run g code n).found.size = n ∧
      (∀ i, (f.run g code i).queue = [] ↔ n ≤ i) ∧
      ∀ i, n ≤ i → f.run g code i = f.run g code n := by
  classical
  have hdone : (f.run g code (g.width * g.height)).queue = [] := by
    rw [queue_eq_nil_iff, h.expanded_run _ (Nat.le_add_right _ _)]
    exact Array.getElem?_size
  have hex : ∃ n, (f.run g code n).queue = [] := ⟨_, hdone⟩
  have hempty := Nat.find_spec hex
  have hexpanded : (f.run g code (Nat.find hex)).expanded = Nat.find hex := by
    rw [expanded_run_of_ne_nil fun j => Nat.find_min hex, hf, Nat.zero_add]
  refine ⟨Nat.find hex, Nat.find_min' hex hdone, ?_, fun i => ⟨Nat.find_min' hex, fun hle => ?_⟩,
    fun i => run_of_queue_eq_nil hempty⟩
  · have hle := (h.run (Nat.find hex)).expanded_le
    have hge := Array.getElem?_eq_none_iff.1 (queue_eq_nil_iff.1 hempty)
    omega
  · rw [run_of_queue_eq_nil hempty hle]
    exact hempty

end Fill

/-- To drop duplicates where there are none changes nothing. -/
theorem eraseDups_of_nodup {ps : List Position} (h : ps.Nodup) : ps.eraseDups = ps := by
  induction ps with
  | nil => rfl
  | cons p ps ih =>
    obtain ⟨hp, hps⟩ := List.nodup_cons.1 h
    have hfilter : ps.filter (fun q => !q == p) = ps := by
      rw [List.filter_eq_self]
      intro q hq
      have hne : q ≠ p := fun he => hp (he ▸ hq)
      simpa using hne
    rw [List.eraseDups_cons, hfilter, ih hps]

namespace Grid

variable {g : Grid} {seed : Position}

/-- The fill takes as many turns as the region has pixels, each of which moves one pixel from the
queue to the members. -/
theorem region_turns {c : Color} (h : g.codeAt? seed = some c.code) :
    let before (i : Nat) := (Fill.start g seed).run g c.code i
    let joining (i : Nat) := (before i).joining g c.code
    (∀ i, (before i).Bookkeeping g seed c.code) ∧
    (∀ i, (before (i + 1)).members = (before i).members ++ (before i).queue.head?.toList ∧
      (before (i + 1)).queue = (before i).queue.tail ++ joining i) ∧
    (∀ n, (seed :: (List.range n).flatMap joining).Nodup) ∧
    ∃ r, g.region seed = .ok r ∧ r.size ≤ g.width * g.height ∧
      (∀ i, (before i).queue = [] ↔ r.size ≤ i) ∧
      (before r.size).members.length = r.size ∧
      r = .ofMembers c (before r.size).members (before r.size).box := by
  intro before joining
  have hstart := Fill.Invariant.start h
  have hinv : ∀ i, (before i).Invariant g seed c.code := hstart.run
  obtain ⟨n, hn, hsize, hqueue, hlater⟩ := hstart.exists_last_turn rfl
  obtain ⟨-, hregion⟩ := region_eq_of_fill h
  rw [hlater _ hn] at hregion
  have hmembers : (before n).found.toList = (before n).members := by
    rw [Fill.found_eq_append, (hqueue n).2 le_rfl, List.append_nil]
  have hlength : (before n).members.length = n := by
    rw [← hmembers, Array.length_toList, hsize]
  refine ⟨fun i => (hinv i).bookkeeping, fun i => ?_, fun n => ?_, _, hregion, ?_⟩
  · have hsucc : before (i + 1) = (before i).turn g c.code := Fill.run_succ_eq ..
    rw [hsucc]
    exact ⟨Fill.members_turn .., Fill.queue_turn ..⟩
  · have hfound : (before n).found.toList = seed :: (List.range n).flatMap joining :=
      Fill.found_run ..
    rw [← hfound]
    exact (hinv n).nodup
  · have hr : Region.size ⟨c, (before n).members, (before n).box⟩ = n := hlength
    have hnodup := (hinv n).bookkeeping.nodup_members
    rw [hr, Region.ofMembers, eraseDups_of_nodup hnodup]
    exact ⟨hn, hqueue, hlength, rfl⟩

/-- Two fronts of the fill meet where the ring closes, and the pixel there takes a single turn. -/
theorem region_turns_ring :
    ring.codeAt? .origin = some (Color.chromatic .red .normal).code ∧
    let before (i : Nat) := (Fill.start ring .origin).run ring 0xff0000 i
    (before 3).Bookkeeping ring .origin 0xff0000 ∧
    (before 6).queue ≠ [] ∧ (before 7).queue = [] ∧ (before 7).members.length = 7 ∧
    ∃ r, ring.region .origin = .ok r ∧ r.size = 7 := by
  have h : ring.codeAt? .origin = some (Color.chromatic .red .normal).code := by decide
  have hregion : ∃ r, ring.region .origin = .ok r ∧ r.size = 7 := ⟨_, rfl, by decide +kernel⟩
  obtain ⟨r, hr, hsize⟩ := hregion
  obtain ⟨hbook, -, -, r', hr', -, hqueue, hlength, -⟩ := region_turns h
  obtain rfl : r' = r := Except.ok.inj (hr'.symm.trans hr)
  rw [hsize] at hqueue hlength
  refine ⟨h, hbook 3, fun hq => ?_, (hqueue 7).2 le_rfl, hlength, r', hr, hsize⟩
  have hle := (hqueue 6).1 hq
  omega

end Grid
end Piet
