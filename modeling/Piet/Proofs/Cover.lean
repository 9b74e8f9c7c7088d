import Piet.Proofs.Exit
import Piet.Proofs.Lockstep
import Piet.Proofs.Relocation

/-! Canvases that show the same picture. Where pixels of a grid are laid out on another plane,
perhaps turned and perhaps several times each, the ways out stay the same. -/
namespace Piet

/-- A step in a direction that is turned clockwise stays over its position or leads over the next;
`n` positions lie over each. -/
structure Projection (turns : Int) (n : Nat) (π : Position → Position) : Prop where
  onward : ∀ (d : Direction) p, π (p + (d.clockwise turns).unit) = π p ∨
    π (p + (d.clockwise turns).unit) = π p + d.unit
  along_le : ∀ (d : Direction) p q, p.along (d.clockwise turns) ≤ q.along (d.clockwise turns) →
    (π p).along d ≤ (π q).along d
  level : ∀ (d : Direction) p q, q.along d = (π p).along d →
    ∃ q', π q' = q ∧ q'.along (d.clockwise turns) = p.along (d.clockwise turns)
  border : ∀ (d : Direction) q, ∃ p, π p = q ∧ π (p + (d.clockwise turns).unit) = q + d.unit
  joined : ∀ p q, π q = π p →
    Relation.ReflTransGen (fun a b => b ∈ a.neighbours ∧ π b = π a) p q
  fiber : ∀ q, ∃ ps : List Position, ps.Nodup ∧ ps.length = n ∧ ∀ p, p ∈ ps ↔ π p = q

/-- A plane laid over another one to one. -/
theorem Projection.of_inverse {turns : Int} {π σ : Position → Position} (hπσ : ∀ p, π (σ p) = p)
    (hσπ : ∀ p, σ (π p) = p)
    (onward : ∀ (d : Direction) p, π (p + (d.clockwise turns).unit) = π p + d.unit)
    (along : ∀ (d : Direction) p q, (π p).along d - (π q).along d =
      p.along (d.clockwise turns) - q.along (d.clockwise turns)) : Projection turns 1 π where
  onward d p := Or.inr (onward d p)
  along_le d p q hle := by
    have h := along d p q
    omega
  level d p q he := by
    have h := along d (σ q) p
    rw [hπσ] at h
    exact ⟨σ q, hπσ q, by omega⟩
  border d q := ⟨σ q, hπσ q, by rw [onward, hπσ]⟩
  joined p q he := by
    obtain rfl : q = p := by rw [← hσπ q, he, hσπ]
    exact .refl
  fiber q := by
    refine ⟨[σ q], List.nodup_singleton _, rfl, fun p => ?_⟩
    rw [List.mem_singleton]
    exact ⟨fun h => h ▸ hπσ q, fun h => h ▸ (hσπ p).symm⟩

theorem Direction.exists_clockwise (d : Direction) (turns : Int) :
    ∃ d' : Direction, d'.clockwise turns = d := by
  have hn : turns % 4 = 0 ∨ turns % 4 = 1 ∨ turns % 4 = 2 ∨ turns % 4 = 3 := by omega
  unfold clockwise
  rcases hn with h | h | h | h <;> rw [h]
  · exact ⟨d, rfl⟩
  · exact ⟨d.turn.turn.turn, turn_turn_turn_turn d⟩
  · exact ⟨d.turn.turn, turn_turn_turn_turn d⟩
  · exact ⟨d.turn, turn_turn_turn_turn d⟩

theorem Heading.hand_clockwise (hd : Heading) (turns : Int) :
    (hd.clockwise turns).hand = hd.hand.clockwise turns := by
  obtain ⟨d, c⟩ := hd
  cases c <;> simp only [hand, clockwise, Direction.turn_clockwise]

namespace Grid

/-- The canvas `g'` shows grid `g` through a projection, and black where it lies beyond the grid. -/
structure Covers (g' g : Grid) (π : Position → Position) : Prop where
  codeAt?_eq : ∀ p, π p ∈ g → g'.codeAt? p = g.codeAt? (π p)
  black : ∀ p, π p ∉ g → g'.codeAt? p = none ∨ g'.codeAt? p = some Color.black.code

/-- A pixel of the grid that is not black. -/
def Colored (g : Grid) (p : Position) : Prop := p ∈ g ∧ g.colorAt p ≠ .ok .black

/-- The walker of `t` stands over that of `s`, turned clockwise; unless the origin is black, neither
stands on black. -/
structure Over (g : Grid) (π : Position → Position) (turns : Int) (s t : State) : Prop where
  colored : g.colorAt .origin ≠ .ok .black → g.Colored s.position
  position : π t.position = s.position
  state : t = s.relocate turns t.position

/-- The canvas of the given size that shows at each pixel what the grid shows at its image. -/
def pullback (g : Grid) (width height : Nat) (π : Position → Position) : Grid where
  width := width
  height := height
  codes := Array.ofFn fun i : Fin (width * height) =>
    (g.codeAt? (π ⟨(i % width : Nat), (i / width : Nat)⟩)).getD Color.black.code
  size_codes := Array.size_ofFn

variable {g g' : Grid} {π : Position → Position} {turns : Int} {n : Nat} {p q x : Position}
  {c : Color} {hd : Heading} {r r' : Region} {s t : State}

theorem Validated.exists_color (hg : g.Validated) (hp : g.Colored p) :
    ∃ c, g.colorAt p = .ok c ∧ c ≠ .black := by
  obtain ⟨c, hc⟩ := hg.colorAt_of_mem hp.1
  exact ⟨c, hc, fun hb => hp.2 (hb ▸ hc)⟩

/-- A walker on a colored pixel only ever enters others. -/
theorem colored_step (h : g.Colored s.position) : g.Colored (g.step s).state.position := by
  have hs := g.stepped s
  generalize g.step s = o at hs
  cases hs with
  | ended | failed | obstructed | faulted => exact h
  | @moved m _ _ hp =>
    have hm := crosses_of_passage hp
    refine ⟨mem_of_colorAt_eq_ok hm.colorAt_target, fun hb => ?_⟩
    exact hm.entryColor_ne (Except.ok.inj (hm.colorAt_target.symm.trans hb))

theorem getElem_codes_pullback {width height i : Nat}
    (hi : i < (g.pullback width height π).codes.size) :
    (g.pullback width height π).codes[i] =
      (g.codeAt? (π ((g.pullback width height π).positionOf i))).getD Color.black.code :=
  Array.getElem_ofFn hi

theorem codeAt?_pullback {width height : Nat} (h : p ∈ g.pullback width height π) :
    (g.pullback width height π).codeAt? p = some ((g.codeAt? (π p)).getD Color.black.code) := by
  rw [codeAt?, if_pos h, Array.getElem?_eq_getElem (index_lt h), getElem_codes_pullback,
    positionOf_index h]

theorem Validated.pullback (hg : g.Validated) {width height : Nat} (hw : 0 < width)
    (hh : 0 < height) (π : Position → Position) : (g.pullback width height π).Validated where
  width_pos := hw
  height_pos := hh
  code_of_mem := by
    intro m hm
    obtain ⟨i, hi, rfl⟩ := Array.getElem_of_mem hm
    rw [getElem_codes_pullback]
    cases hc : g.codeAt? (π ((g.pullback width height π).positionOf i)) with
    | none => exact ⟨.black, rfl⟩
    | some m =>
      obtain ⟨m', hm', hcode⟩ := codeAt?_of_mem (mem_of_codeAt?_eq_some hc)
      obtain rfl : m' = m := Option.some.inj (hcode.symm.trans hc)
      exact hg.code_of_mem _ hm'

theorem covers_pullback {width height : Nat} (h : ∀ p, π p ∈ g → p ∈ g.pullback width height π) :
    (g.pullback width height π).Covers g π where
  codeAt?_eq p hp := by
    obtain ⟨m, -, hm⟩ := codeAt?_of_mem hp
    rw [codeAt?_pullback (h p hp), hm, Option.getD_some]
  black p hp := by
    by_cases hm : p ∈ g.pullback width height π
    · rw [codeAt?_pullback hm, codeAt?_eq_none_iff.2 hp]
      exact Or.inr rfl
    · exact Or.inl (codeAt?_eq_none_iff.2 hm)

namespace Covers

theorem mem (h : g'.Covers g π) (hp : π p ∈ g) : p ∈ g' := by
  obtain ⟨m, -, hm⟩ := codeAt?_of_mem hp
  exact mem_of_codeAt?_eq_some ((h.codeAt?_eq p hp).trans hm)

theorem colorAt_eq (h : g'.Covers g π) (hp : π p ∈ g) : g'.colorAt p = g.colorAt (π p) := by
  obtain ⟨m, -, hm⟩ := codeAt?_of_mem hp
  unfold colorAt
  rw [h.codeAt?_eq p hp, hm]

/-- What is seen in a color other than black belongs to the grid. -/
theorem mem_of_codeAt? (h : g'.Covers g π) (hp : g'.codeAt? p = some c.code) (hc : c ≠ .black) :
    π p ∈ g := by
  by_contra hm
  rcases h.black p hm with hn | hb
  · rw [hn] at hp
    cases hp
  · exact hc (Color.code_injective (Option.some.inj (hp.symm.trans hb)))

theorem joined_of_eq (h : g'.Covers g π) (hπ : Projection turns n π) (hp : π p ∈ g)
    (he : π q = π p) : g'.Joined p q := by
  have hpath : ∀ x, Relation.ReflTransGen (fun a b => b ∈ a.neighbours ∧ π b = π a) p x →
      π x = π p ∧ g'.Joined p x := by
    intro x hx
    induction hx with
    | refl => exact ⟨rfl, .refl⟩
    | @tail a b _ hab ih =>
      obtain ⟨hpa, hj⟩ := ih
      have ha : π a ∈ g := hpa ▸ hp
      have hb : π b ∈ g := hab.2 ▸ ha
      refine ⟨hab.2.trans hpa, hj.tail ⟨hab.1, h.mem ha, ?_⟩⟩
      rw [h.codeAt?_eq b hb, h.codeAt?_eq a ha, hab.2]
  exact (hpath q (hπ.joined p q he)).2

/-- Paths of one color lie over paths of that color. -/
theorem joined_image (h : g'.Covers g π) (hπ : Projection turns n π)
    (hp : g.colorAt (π p) = .ok c) (hc : c ≠ .black) (hj : g'.Joined p q) :
    g.Joined (π p) (π q) := by
  induction hj with
  | refl => exact .refl
  | @tail a b _ hab ih =>
    have hca : g.codeAt? (π a) = some c.code := ih.codeAt?_eq.trans (colorAt_eq_ok_iff.1 hp)
    have ha : π a ∈ g := mem_of_codeAt?_eq_some hca
    have hcb : g'.codeAt? b = some c.code := hab.2.2.trans ((h.codeAt?_eq a ha).trans hca)
    have hb : π b ∈ g := h.mem_of_codeAt? hcb hc
    obtain ⟨d', hd'⟩ := Position.mem_neighbours_iff.1 hab.1
    obtain ⟨d, rfl⟩ := d'.exists_clockwise turns
    rcases hπ.onward d a with he | he
    · rwa [hd', he]
    · refine ih.tail ⟨Position.mem_neighbours_iff.2 ⟨d, hd' ▸ he⟩, ha, ?_⟩
      rw [← h.codeAt?_eq b hb, hcb, hca]

/-- A path of one color is covered by paths between any two ends over its own. -/
theorem joined_lift (h : g'.Covers g π) (hπ : Projection turns n π) (hp : π p ∈ g)
    (hj : g.Joined (π p) x) (hq : π q = x) : g'.Joined p q := by
  induction hj generalizing q with
  | refl => exact h.joined_of_eq hπ hp hq
  | @tail a b _ hab ih =>
    obtain ⟨d, hb⟩ := Position.mem_neighbours_iff.1 hab.1
    obtain ⟨s, hs, hst⟩ := hπ.border d a
    have hbg : b ∈ g := by
      obtain ⟨m, -, hm⟩ := codeAt?_of_mem hab.2.1
      exact mem_of_codeAt?_eq_some (hab.2.2.trans hm)
    -- From `p` to the border over `a`, across it, and on over `b` to `q`.
    have htouch : g'.Touches s (s + (d.clockwise turns).unit) := by
      refine ⟨Position.mem_neighbours_iff.2 ⟨_, rfl⟩, h.mem (hs ▸ hab.2.1), ?_⟩
      rw [h.codeAt?_eq _ (by rwa [hst, ← hb]), h.codeAt?_eq s (hs ▸ hab.2.1), hst, ← hb, hs]
      exact hab.2.2
    have hlast : g'.Joined (s + (d.clockwise turns).unit) q :=
      h.joined_of_eq hπ (by rwa [hst, ← hb]) (by rw [hq, hst, hb])
    exact ((ih hs).tail htouch).trans hlast

theorem joined_iff (h : g'.Covers g π) (hπ : Projection turns n π) (hp : g.colorAt (π p) = .ok c)
    (hc : c ≠ .black) : g'.Joined p q ↔ g.Joined (π p) (π q) :=
  ⟨h.joined_image hπ hp hc, fun hj => h.joined_lift hπ (mem_of_colorAt_eq_ok hp) hj rfl⟩

/-- Over a region of `m` pixels lies one of `n * m`. -/
theorem size_eq (h : g'.Covers g π) (hπ : Projection turns n π) (hp : g.colorAt (π p) = .ok c)
    (hc : c ≠ .black) (hr : g.IsRegion (π p) r) (hr' : g'.IsRegion p r') :
    r'.size = n * r.size := by
  choose f hnodup hlength hf using hπ.fiber
  have hperm : r'.members.Perm (r.members.flatMap f) := by
    refine (List.perm_ext_iff_of_nodup hr'.nodup ?_).2 fun q => ?_
    · refine List.nodup_flatMap.2 ⟨fun q _ => hnodup q, hr.nodup.imp fun hne s ha hb => ?_⟩
      exact hne (((hf _ s).1 ha).symm.trans ((hf _ s).1 hb))
    · rw [hr'.mem_iff, h.joined_iff hπ hp hc, List.mem_flatMap]
      constructor
      · exact fun hj => ⟨π q, (hr.mem_iff _).2 hj, (hf _ q).2 rfl⟩
      · rintro ⟨s, hs, hq⟩
        rw [(hf s q).1 hq]
        exact (hr.mem_iff s).1 hs
  unfold Region.size
  rw [hperm.length_eq, List.length_flatMap, Nat.mul_comm]
  simp [hlength]

/-- What leads a region lies over what leads the region below. -/
theorem leads_image (h : g'.Covers g π) (hπ : Projection turns n π)
    (hp : g.colorAt (π p) = .ok c) (hc : c ≠ .black)
    (hx : (hd.clockwise turns).Leads {q | g'.Joined p q} x) :
    hd.Leads {q | g.Joined (π p) q} (π x) where
  mem := h.joined_image hπ hp hc hx.mem
  ahead := by
    intro q hq
    obtain ⟨q', rfl, -⟩ := hπ.border hd.direction q
    have hq' : g'.Joined p q' := (h.joined_iff hπ hp hc).2 hq
    exact hπ.along_le _ _ _ (hx.ahead q' hq')
  aside := by
    intro q hq hlevel
    obtain ⟨q', rfl, hq'⟩ := hπ.level hd.direction x q hlevel
    have hle := hx.aside q' ((h.joined_iff hπ hp hc).2 hq) hq'
    rw [Heading.hand_clockwise] at hle
    exact hπ.along_le _ _ _ hle

/-- A step past the exit leads over the pixel past the exit below. -/
theorem onward_of_leads (h : g'.Covers g π) (hπ : Projection turns n π)
    (hp : g.colorAt (π p) = .ok c) (hc : c ≠ .black)
    (hx : (hd.clockwise turns).Leads {q | g'.Joined p q} x) :
    π (x + (hd.direction.clockwise turns).unit) = π x + hd.direction.unit := by
  -- A pixel ahead over the same one below would belong to the region, and lie farther.
  refine (hπ.onward hd.direction x).resolve_left fun he => ?_
  have hxm : π x ∈ g := by
    have hj := h.joined_image hπ hp hc hx.mem
    exact mem_of_codeAt?_eq_some (hj.codeAt?_eq.trans (colorAt_eq_ok_iff.1 hp))
  have hmem : g'.Joined p (x + (hd.direction.clockwise turns).unit) :=
    hx.mem.trans (h.joined_of_eq hπ hxm he)
  have hle : (x + (hd.direction.clockwise turns).unit).along (hd.direction.clockwise turns) ≤ _ :=
    hx.ahead _ hmem
  rw [Position.along_add_unit] at hle
  exact absurd hle (by change ¬ _ ≤ x.along (hd.direction.clockwise turns); omega)

/-- The ways out of a cover are those below: either both are blocked, or both carry the same
operation to pixels that lie over each other. -/
theorem passage (h : g'.Covers g π) (hπ : Projection turns n π) (hg : g.Validated)
    (hp : g.colorAt (π p) = .ok c) (hc : c ≠ .black) (hd : Heading) :
    (∃ x, g.passage (π p) hd = .ok (.blocked (π x) ((π x).next? hd.direction)) ∧
      g'.passage p (hd.clockwise turns) =
        .ok (.blocked x (x.next? (hd.clockwise turns).direction))) ∨
    ∃ m m', g.passage (π p) hd = .ok (.crossing m) ∧
      g'.passage p (hd.clockwise turns) = .ok (.crossing m') ∧
      m = { m' with exit := π m'.exit, target := π m'.target, size := m.size } ∧
      m'.size = n * m.size := by
  have hp' : g'.colorAt p = .ok c := (h.colorAt_eq (mem_of_colorAt_eq_ok hp)).trans hp
  obtain ⟨r, x, hr, hreg, hcolor, hx, hlead⟩ := exists_leading_exit hp hd
  obtain ⟨r', x', hr', hreg', hcolor', hx', hlead'⟩ :=
    exists_leading_exit hp' (hd.clockwise turns)
  have hover : π x' = x := (h.leads_image hπ hp hc hlead').unique hlead
  have honward := h.onward_of_leads hπ hp hc hlead'
  subst hover
  -- The pixel past the exit decides, and the cover shows it as it is.
  cases hcode : g.codeAt? (π x' + hd.direction.unit) with
  | none =>
    have hshut := h.black (x' + (hd.direction.clockwise turns).unit)
      (by rw [honward]; exact codeAt?_eq_none_iff.1 hcode)
    exact Or.inl ⟨x', passage_of_shut hr hx (Or.inl hcode), passage_of_shut hr' hx' hshut⟩
  | some m =>
    have hmem : π x' + hd.direction.unit ∈ g := mem_of_codeAt?_eq_some hcode
    obtain ⟨b, hb⟩ := hg.colorAt_of_mem hmem
    have hb' : g'.colorAt (x' + (hd.direction.clockwise turns).unit) = .ok b := by
      rw [h.colorAt_eq (by rwa [honward]), honward, hb]
    by_cases hblack : b = .black
    · subst hblack
      exact Or.inl ⟨x', passage_of_shut hr hx (Or.inr (colorAt_eq_ok_iff.1 hb)),
        passage_of_shut hr' hx' (Or.inr (colorAt_eq_ok_iff.1 hb'))⟩
    · obtain ⟨op, hop⟩ := Op.exists_ofColors hc hblack
      refine Or.inr ⟨_, _, passage_of_open hr hx hb hblack (hcolor ▸ hop),
        passage_of_open hr' hx' hb' hblack (hcolor' ▸ hop), ?_, h.size_eq hπ hp hc hreg hreg'⟩
      simp only [hcolor, hcolor', Heading.clockwise, honward]

theorem alike (h : g'.Covers g π) (hπ : Projection turns n π) (hg : g.Validated)
    (hp : g.Colored (π p)) (hd : Heading) : Passage.Alike (fun a b => π b = a) n
      (g.passage (π p) hd) (g'.passage p (hd.clockwise turns)) := by
  obtain ⟨c, hpc, hc⟩ := hg.exists_color hp
  rcases h.passage hπ hg hpc hc hd with ⟨x, hb, hb'⟩ | ⟨m, m', hm, hm', hover, hsize⟩
  · rw [hb, hb']
    exact .blocked
  · rw [hm, hm', hover]
    exact .crossing rfl hsize rfl

theorem alike_of_over (h : g'.Covers g π) (hπ : Projection turns n π) (hg : g.Validated)
    (hs : g.Over π turns s t) (hrun : s.terminated g = false) :
    Passage.Alike (fun a b => π b = a) n (g.passage s.position s.heading)
      (g'.passage t.position (s.heading.clockwise turns)) := by
  have hp := hs.colored (State.terminated_eq_false_iff.1 hrun).1
  rw [← hs.position] at hp ⊢
  exact h.alike hπ hg hp s.heading

theorem twins (h : g'.Covers g π) (hπ : Projection turns n π) (hg : g.Validated)
    (horigin : g'.colorAt .origin = .ok .black ↔ g.colorAt .origin = .ok .black)
    (hs : g.Over π turns s t) :
    Twins g (fun a b => π b = a) n turns s t.position (g.step s) (g'.step t) := by
  have htwins := step_twins horigin (h.alike_of_over hπ hg hs)
  rwa [← hs.state] at htwins

/-- A program runs on a canvas over its grid as on the grid, until a push tells the size of a larger
region. -/
theorem simulates (h : g'.Covers g π) (hπ : Projection turns n π) (hg : g.Validated)
    (horigin : g'.colorAt .origin = .ok .black ↔ g.colorAt .origin = .ok .black) :
    g.Simulates g' (fun op => op = .push → n = 1) Record.Alike (g.Over π turns) where
  terminated hs := terminated_congr horigin (by rw [hs.state]; rfl)
  result hs := (h.twins hπ hg horigin hs).result
  log hs := by
    have hlog := step_log horigin (h.alike_of_over hπ hg hs)
    rwa [← hs.state] at hlog
  feed text hs := ⟨hs.colored, hs.position, congrArg (State.feed · text) hs.state⟩
  step := by
    intro s t hs hfree
    have hpush : (g.step s).result = .ok (some .push) → n = 1 :=
      fun hr => hfree _ (operation?_step_eq_some_iff.2 hr) rfl
    have hcolored := fun ho => colored_step (hs.colored ho)
    rcases (h.twins hπ hg horigin hs).state hpush with
      ⟨-, hp, hstate⟩ | ⟨op, q', -, hq, hstate⟩ <;> rw [hstate]
    · exact ⟨hcolored, hs.position.trans hp.symm, rfl⟩
    · exact ⟨hcolored, hq, rfl⟩

end Covers
end Grid
end Piet
