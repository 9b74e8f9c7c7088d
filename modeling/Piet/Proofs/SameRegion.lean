import Piet.Proofs.Exit
import Piet.Proofs.Lockstep
import Piet.Proofs.Relocation

/-! Runs from one region. Two walkers in one region find the same exits, and once they have left it
they stand on the same pixel. -/
namespace Piet

theorem Box.Tight.unique {b b' : Box} {ps : Set Position} (h : b.Tight ps) (h' : b'.Tight ps) :
    b' = b := by
  cases b
  cases b'
  rw [Box.mk.injEq]
  exact ⟨h'.minX.unique h.minX, h'.maxX.unique h.maxX, h'.minY.unique h.minY,
    h'.maxY.unique h.maxY⟩

theorem Passage.Alike.of_eq {a a' : Except Error Passage} (h : a' = a) : Alike Eq 1 a a' := by
  subst h
  match a' with
  | .error e => exact .failed e
  | .ok (.blocked x t) => exact .blocked
  | .ok (.crossing m) => exact .crossing rfl (Nat.one_mul _).symm rfl

namespace Grid

variable {g : Grid} {p q : Position} {r : Region} {s t : State}

theorem Touches.symm (h : g.Touches p q) : g.Touches q p := by
  obtain ⟨hn, hp, hc⟩ := h
  refine ⟨?_, ?_, hc.symm⟩
  · simp only [Position.neighbours, List.mem_cons, List.not_mem_nil, or_false] at hn ⊢
    simp only [Position.ext_iff, Position.add_x, Position.add_y] at hn ⊢
    omega
  · obtain ⟨n, -, hn⟩ := codeAt?_of_mem hp
    exact mem_of_codeAt?_eq_some (hc.trans hn)

theorem Joined.symm (h : g.Joined p q) : g.Joined q p :=
  have _ : Std.Symm g.Touches := ⟨fun _ _ => Touches.symm⟩
  Relation.ReflTransGen.stdSymm.symm p q h

theorem Joined.iff_of_joined (h : g.Joined p q) (x : Position) : g.Joined q x ↔ g.Joined p x :=
  ⟨h.trans, h.symm.trans⟩

/-- The region of a member is the region itself. -/
theorem region_of_mem (hr : g.region p = .ok r) (hq : q ∈ r.members) :
    ∃ r', g.region q = .ok r' ∧ r'.color = r.color ∧ r'.members.Perm r.members ∧
      r'.box = r.box := by
  have hreg := isRegion_of_region hr
  have hj : g.Joined p q := (hreg.mem_iff q).1 hq
  have hc : g.colorAt q = .ok r.color :=
    colorAt_eq_ok_iff.2 (hj.codeAt?_eq.trans (colorAt_eq_ok_iff.1 hreg.colorAt_seed))
  obtain ⟨r', hr', hreg'⟩ := exists_region hc
  have hmem : ∀ x, x ∈ r'.members ↔ x ∈ r.members := by
    intro x
    rw [hreg'.mem_iff, hreg.mem_iff, hj.iff_of_joined]
  have hset : {x | x ∈ r'.members} = {x | x ∈ r.members} := Set.ext hmem
  refine ⟨r', hr', Except.ok.inj (hreg'.colorAt_seed.symm.trans hc), ?_, ?_⟩
  · exact (List.perm_ext_iff_of_nodup hreg'.nodup hreg.nodup).2 hmem
  · have ht := hreg'.tight
    rw [hset] at ht
    exact hreg.tight.unique ht

/-- The ways out of a region are the same for all its pixels. -/
theorem passage_of_mem (hr : g.region p = .ok r) (hq : q ∈ r.members) (hd : Heading) :
    g.passage q hd = g.passage p hd := by
  have hreg := isRegion_of_region hr
  have hj : g.Joined p q := (hreg.mem_iff q).1 hq
  obtain ⟨r', hr', hc, hperm, -⟩ := region_of_mem hr hq
  have hreg' := isRegion_of_region hr'
  obtain ⟨x, hx⟩ := exists_exit hr hd
  obtain ⟨x', hx'⟩ := exists_exit hr' hd
  have hset : {x | x ∈ r'.members} = {x | x ∈ r.members} := Set.ext fun x => hperm.mem_iff
  have hlead := Region.leads_of_exit hreg.tight hx
  have hlead' := Region.leads_of_exit hreg'.tight hx'
  rw [hset] at hlead'
  have hsize : x'.size = x.size := by
    rw [(Region.pick?_of_exit hx).2, (Region.pick?_of_exit hx').2]
    exact hperm.length_eq
  obtain rfl : x' = x := by
    cases x
    cases x'
    exact congrArg₂ Exit.mk (hlead'.unique hlead) hsize
  rw [passage, passage, hr, hr']
  simp only [Except.bind, hx, hx', hc]

/-- Two walkers who differ in their places alone and find the same ways out. -/
structure SameWays (g : Grid) (s t : State) : Prop where
  state : t = { s with position := t.position }
  passage : ∀ hd, g.passage t.position hd = g.passage s.position hd

theorem SameWays.alike (h : g.SameWays s t) : Passage.Alike Eq 1 (g.passage s.position s.heading)
    (g.passage t.position (s.heading.clockwise 0)) := .of_eq (h.passage s.heading)

theorem SameWays.twins (h : g.SameWays s t) :
    Twins g Eq 1 0 s t.position (g.step s) (g.step t) := by
  have htwins := step_twins Iff.rfl fun _ => h.alike
  rwa [show s.relocate 0 t.position = t from h.state.symm] at htwins

/-- Either both stay where they are, or both come to the same pixel. -/
theorem SameWays.step (h : g.SameWays s t) :
    (g.operation? s .step = none ∧ (g.step s).state.position = s.position ∧
      (g.step t).state = { (g.step s).state with position := t.position }) ∨
    g.operation? s .step ≠ none ∧ (g.step t).state = (g.step s).state := by
  rcases h.twins.state (fun _ => rfl) with ⟨hnone, hp, hstate⟩ | ⟨op, q', hop, rfl, hstate⟩
  · refine Or.inl ⟨Option.eq_none_iff_forall_ne_some.2 fun op hop => ?_, hp, hstate⟩
    exact hnone op (operation?_step_eq_some_iff.1 hop)
  · refine Or.inr ⟨?_, hstate⟩
    rw [operation?_step_eq_some_iff.2 hop]
    exact Option.some_ne_none op

theorem sameWays_refl (g : Grid) (s : State) : g.SameWays s s := ⟨rfl, fun _ => rfl⟩

theorem SameWays.of_stay {s' t' : State} (h : g.SameWays s t) (hs : s'.position = s.position)
    (ht : t' = { s' with position := t.position }) : g.SameWays s' t' := by
  subst ht
  refine ⟨rfl, fun hd => ?_⟩
  rw [hs]
  exact h.passage hd

theorem sameWays_simulates (g : Grid) :
    g.Simulates g (fun _ => True) Record.Alike g.SameWays where
  terminated h := terminated_congr Iff.rfl (by rw [h.state])
  result h := h.twins.result
  log h := by
    have hlog := step_log Iff.rfl fun _ => h.alike
    rwa [show State.relocate _ 0 _ = _ from h.state.symm] at hlog
  step h _ := by
    rcases h.step with ⟨-, hp, hstate⟩ | ⟨-, hstate⟩
    · exact h.of_stay hp hstate
    · rw [hstate]
      exact sameWays_refl g _
  feed text h := ⟨congrArg (State.feed · text) h.state, h.passage⟩

/-- Before the first operation both walkers stay, and from then on they are one. -/
theorem SameWays.after (h : g.SameWays s t) (as : List Act) :
    (g.operations s as = [] → (g.after s as).position = s.position ∧
      (g.after t as).position = t.position) ∧
    (g.operations s as ≠ [] → g.after t as = g.after s as) := by
  induction as generalizing s t with
  | nil => exact ⟨fun _ => ⟨rfl, rfl⟩, fun hne => absurd rfl hne⟩
  | cons a as ih =>
    cases a with
    | feed text => exact ih ((sameWays_simulates g).feed text h)
    | step =>
      change (((g.operation? s .step).toList ++ g.operations (g.step s).state as = [] →
        (g.after (g.step s).state as).position = _ ∧ (g.after (g.step t).state as).position = _) ∧
        ((g.operation? s .step).toList ++ g.operations (g.step s).state as ≠ [] →
          g.after (g.step t).state as = g.after (g.step s).state as))
      rcases h.step with ⟨hnone, hp, hstate⟩ | ⟨hsome, hstate⟩
      · rw [hnone, ← hp, show t.position = (g.step t).state.position by rw [hstate]]
        exact ih (h.of_stay hp hstate)
      · obtain ⟨op, hop⟩ := Option.ne_none_iff_exists'.1 hsome
        rw [hop, hstate]
        exact ⟨(fun hnil => nomatch hnil), fun _ => rfl⟩

/-- Walkers on two pixels of one region get the same answers in every session, and stand together
once an operation has run. -/
theorem play_of_mem_region (hr : g.region p = .ok r) (hq : q ∈ r.members) :
    (∃ r', g.region q = .ok r' ∧ r'.color = r.color ∧ r'.members.Perm r.members ∧
      r'.box = r.box) ∧
    ∀ (s : State) (patience : Nat) (calls : List Call),
      let sp : State := { s with position := p }
      let sq : State := { s with position := q }
      let ops := g.operations sp (g.acts patience sp calls)
      Option.Rel (fun os os' =>
          List.Forall₂ (Outcome.Agrees Record.Alike fun a b => b = { a with position := b.position })
            os os' ∧
          (ops = [] → (sp.latest os).position = p ∧ (sq.latest os').position = q) ∧
          (ops ≠ [] → sq.latest os' = sp.latest os))
        (g.play? patience sp calls) (g.play? patience sq calls) := by
  refine ⟨region_of_mem hr hq, fun s patience calls => ?_⟩
  intro sp sq ops
  have hways : g.SameWays sp sq := ⟨rfl, passage_of_mem hr hq⟩
  have hsim := sameWays_simulates g
  have hacts := hsim.acts_eq hways patience calls fun _ _ => trivial
  have hplay := hsim.play? hways patience calls fun _ _ => trivial
  refine rel_imp hplay fun os os' hos hos' hagree => ?_
  obtain ⟨hstay, hmove⟩ := hways.after (g.acts patience sp calls)
  rw [play?_latest hos, play?_latest hos', hacts]
  exact ⟨hagree.imp fun o o' ho => ho.mono fun _ _ => SameWays.state, hstay, hmove⟩

theorem play_of_mem_region_corridor : ∃ r, corridor.region .origin = .ok r ∧
    ⟨1, 0⟩ ∈ r.members ∧
    ∃ os os', corridor.play? 0 (.initial none) [.step, .run (some 3)] = some os ∧
      corridor.play? 0 { State.initial none with position := ⟨1, 0⟩ } [.step, .run (some 3)] =
        some os' ∧
      State.latest { State.initial none with position := ⟨1, 0⟩ } os' =
        (State.initial none).latest os := by
  have hg := corridor_accepted.validated
  obtain ⟨c, hc⟩ := hg.colorAt_of_mem hg.origin_mem
  obtain ⟨r, hr, hreg⟩ := exists_region hc
  have hq : ⟨1, 0⟩ ∈ r.members :=
    (hreg.mem_iff _).2 (.single ⟨by decide, by decide, by decide⟩)
  have hcalls : Call.run none ∉ [.step, .run (some 3)] := by decide
  obtain ⟨os, hos⟩ := exists_play? corridor 0 (.initial none) hcalls
  obtain ⟨os', hos'⟩ :=
    exists_play? corridor 0 { State.initial none with position := ⟨1, 0⟩ } hcalls
  have hplay := (play_of_mem_region hr hq).2 (.initial none) 0 [.step, .run (some 3)]
  change Option.Rel _ (corridor.play? 0 (.initial none) _) _ at hplay
  rw [hos, hos'] at hplay
  refine ⟨r, hr, hq, os, os', hos, hos', ?_⟩
  cases hplay with
  | some h => exact h.2.2 (by decide +kernel)

end Grid
end Piet
