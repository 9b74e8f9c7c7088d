import Piet.Proofs.Cover

/-! Black margins. A picture on a larger black canvas runs as it does alone: where the picture ends,
black stops a walker as the edge of the canvas did. -/
namespace Piet

/-- Where a pixel comes to lie when a picture is moved to the right and down. -/
def Position.shift (p : Position) (left top : Nat) : Position := ⟨p.x + left, p.y + top⟩

/-- Where it came from. -/
def Position.unshift (p : Position) (left top : Nat) : Position := ⟨p.x - left, p.y - top⟩

def State.shift (s : State) (left top : Nat) : State :=
  { s with position := s.position.shift left top }

namespace Grid

/-- The picture on a canvas that is black but for it, with margins as given on the four sides. -/
def place (g : Grid) (left top right bottom : Nat) : Grid :=
  g.pullback (left + g.width + right) (top + g.height + bottom) (·.unshift left top)

/-- What a step answers, and the state it leaves, in a program that a black origin does not stop. -/
def stepAnyway (g : Grid) (s : State) : Except Error (Option Op) × State :=
  if State.maxObstructions ≤ s.obstructions then (.ok none, s)
  else ((g.advance s).result, (g.advance s).state)

end Grid

section Shift

variable (p : Position) (left top : Nat)

theorem Position.unshift_shift : (p.shift left top).unshift left top = p := by
  ext
  · exact Int.add_sub_cancel ..
  · exact Int.add_sub_cancel ..

theorem Position.shift_unshift : (p.unshift left top).shift left top = p := by
  ext
  · exact Int.sub_add_cancel ..
  · exact Int.sub_add_cancel ..

theorem Position.unshift_zero : (·.unshift 0 0) = (id : Position → Position) :=
  funext fun _ => Position.ext (Int.sub_zero _) (Int.sub_zero _)

theorem projection_unshift (left top : Nat) : Projection 0 1 (·.unshift left top) := by
  refine .of_inverse (fun p => p.unshift_shift left top) (fun p => p.shift_unshift left top) ?_ ?_
  · intro d p
    cases d <;> ext <;> simp only [Position.unshift, Direction.clockwise_zero, Direction.unit,
      Position.add_x, Position.add_y] <;> omega
  · intro d p q
    cases d <;> simp only [Position.unshift, Direction.clockwise_zero, Position.along_right,
      Position.along_down, Position.along_left, Position.along_up] <;> omega

end Shift

namespace Grid

variable {g g' : Grid} {s : State} {p : Position} {left top right bottom : Nat}

theorem mem_place (h : p.unshift left top ∈ g) : p ∈ g.place left top right bottom := by
  rw [mem_iff] at h ⊢
  change (0 ≤ p.x ∧ p.x < (left + g.width + right : Nat)) ∧
    0 ≤ p.y ∧ p.y < (top + g.height + bottom : Nat)
  change (0 ≤ p.x - left ∧ p.x - left < g.width) ∧ 0 ≤ p.y - top ∧ p.y - top < g.height at h
  omega

theorem place_covers (g : Grid) (left top right bottom : Nat) :
    (g.place left top right bottom).Covers g (·.unshift left top) :=
  covers_pullback fun _ => mem_place

theorem codeAt?_place (h : p ∈ g) :
    (g.place left top right bottom).codeAt? (p.shift left top) = g.codeAt? p := by
  have hp := p.unshift_shift left top
  rw [(g.place_covers left top right bottom).codeAt?_eq _ (by rwa [hp]), hp]

theorem stepAnyway_eq (h : g.colorAt .origin ≠ .ok .black) (s : State) :
    g.stepAnyway s = ((g.step s).result, (g.step s).state) := by
  unfold stepAnyway
  split
  · next hs =>
    rw [step_of_terminated (State.terminated_iff.2 (Or.inr hs))]
  · next hs =>
    rw [step_of_running (State.terminated_eq_false_iff.2 ⟨h, Int.not_le.1 hs⟩)]

theorem Validated.place (hg : g.Validated) (left top right bottom : Nat) :
    (g.place left top right bottom).Validated := by
  have hw := hg.width_pos
  have hh := hg.height_pos
  exact hg.pullback (by omega) (by omega) _

/-- On a canvas that shows the grid where it was, all ways out are what they were. -/
theorem Covers.passage_of_id (h : g'.Covers g id) (hg : g.Validated) (hp : g.Colored p)
    (hd : Heading) : g'.passage p hd = g.passage p hd := by
  have hπ : Projection 0 1 id := Position.unshift_zero ▸ projection_unshift 0 0
  obtain ⟨c, hpc, hc⟩ := hg.exists_color hp
  rcases h.passage hπ hg hpc hc hd with ⟨x, hb, hb'⟩ | ⟨m, m', hm, hm', hover, hsize⟩
  · exact hb'.trans hb.symm
  · have hm : g.passage p hd = .ok (.crossing m) := hm
    have hmove : m = m' := by
      rw [hover, ← Nat.one_mul m.size, ← hsize]
      rfl
    rw [hm, hmove]
    exact hm'

theorem Covers.step_of_id (h : g'.Covers g id) (hg : g.Validated)
    (hs : g.colorAt .origin ≠ .ok .black → g.Colored s.position) : g'.step s = g.step s := by
  have horigin : g'.colorAt .origin = g.colorAt .origin := h.colorAt_eq hg.origin_mem
  have hterminated : ∀ s : State, s.terminated g' = s.terminated g := fun s =>
    terminated_congr (by rw [horigin]) rfl
  cases hrun : s.terminated g with
  | true => rw [step_of_terminated hrun, step_of_terminated ((hterminated s).trans hrun)]
  | false =>
    rw [step_of_running hrun, step_of_running ((hterminated s).trans hrun)]
    unfold advance
    rw [h.passage_of_id hg (hs (State.terminated_eq_false_iff.1 hrun).1)]
    unfold proceed obstruct
    simp only [hterminated]

theorem advance_place (hg : g.Validated) (hs : g.Colored s.position) (left top right bottom : Nat) :
    ((g.place left top right bottom).advance (s.shift left top)).result = (g.advance s).result ∧
      ((g.place left top right bottom).advance (s.shift left top)).state =
        (g.advance s).state.shift left top := by
  have hback := s.position.unshift_shift left top
  have halike := (g.place_covers left top right bottom).alike (projection_unshift left top) hg
    (by rwa [hback]) s.heading
  rw [hback] at halike
  have htwins : Twins g _ 1 0 s _ (g.advance s)
    ((g.place left top right bottom).advance (s.shift left top)) := advance_twins halike
  refine ⟨htwins.result, ?_⟩
  rcases htwins.state (fun _ => rfl) with ⟨-, hp, hstate⟩ | ⟨-, q', -, hq, hstate⟩ <;>
    rw [hstate]
  · rw [← hp]
    rfl
  · rw [← q'.shift_unshift left top, hq]
    rfl

/-- A step on the canvas is the step on the picture, moved. -/
theorem stepAnyway_place (hg : g.Validated) (hs : g.Colored s.position)
    (left top right bottom : Nat) :
    (g.place left top right bottom).stepAnyway (s.shift left top) =
      ((g.stepAnyway s).1, (g.stepAnyway s).2.shift left top) := by
  obtain ⟨hresult, hstate⟩ := advance_place hg hs left top right bottom
  unfold stepAnyway
  rw [hresult, hstate]
  change (if State.maxObstructions ≤ s.obstructions then _ else _) = _
  split <;> rfl

/-- Black to the right and below changes nothing; black all around only moves the walker, unless it
lies on the origin. -/
theorem play_place (hg : g.Validated) :
    (∀ right bottom, (g.place 0 0 right bottom).Validated ∧
      ∀ (input : Option String) (patience : Nat) (calls : List Call),
        (∃ log, g.launch input = .ok (.initial input, log)) ∧
        (g.place 0 0 right bottom).launch input = g.launch input ∧
        (g.place 0 0 right bottom).play? patience (.initial input) calls =
          g.play? patience (.initial input) calls) ∧
    ∀ left top right bottom s, g.Colored s.position →
      let canvas := g.place left top right bottom
      let s' := s.shift left top
      canvas.stepAnyway s' = ((g.stepAnyway s).1, (g.stepAnyway s).2.shift left top) ∧
      (g.colorAt .origin ≠ .ok .black → canvas.colorAt .origin ≠ .ok .black →
        (canvas.step s').result = (g.step s).result ∧
        (canvas.step s').state = (g.step s).state.shift left top) := by
  refine ⟨fun right bottom => ⟨hg.place 0 0 right bottom, fun input patience calls => ?_⟩, ?_⟩
  · have hcovers : (g.place 0 0 right bottom).Covers g id :=
      Position.unshift_zero ▸ g.place_covers 0 0 right bottom
    have horigin : (g.place 0 0 right bottom).colorAt .origin = g.colorAt .origin :=
      hcovers.colorAt_eq hg.origin_mem
    obtain ⟨c, hc⟩ := hg.colorAt_of_mem hg.origin_mem
    refine ⟨⟨_, by rw [launch, hc]; rfl⟩, by rw [launch, horigin, launch], ?_⟩
    refine play?_congr (P := fun s => g.colorAt .origin ≠ .ok .black → g.Colored s.position)
      (fun s => terminated_congr (by rw [horigin]) rfl) (fun s => hcovers.step_of_id hg)
      (fun s hs ho => colored_step (hs ho)) (fun s text hs => hs)
      (fun ho => ⟨hg.origin_mem, ho⟩) patience calls
  · intro left top right bottom s hs canvas s'
    have hstep := stepAnyway_place hg hs left top right bottom
    refine ⟨hstep, fun ho ho' => ?_⟩
    rw [stepAnyway_eq ho, stepAnyway_eq ho'] at hstep
    exact ⟨congrArg Prod.fst hstep, congrArg Prod.snd hstep⟩

theorem play_place_corridor : corridor.Validated ∧
    (corridor.place 0 0 2 1).play? 0 (.initial none) [.step, .run (some 9)] =
      corridor.play? 0 (.initial none) [.step, .run (some 9)] ∧
    (corridor.place 4 1 0 2).stepAnyway ((State.initial none).shift 4 1) =
      ((corridor.stepAnyway (.initial none)).1,
        (corridor.stepAnyway (.initial none)).2.shift 4 1) := by
  have hg := corridor_accepted.validated
  obtain ⟨hmargin, hcanvas⟩ := play_place hg
  obtain ⟨-, -, hplay⟩ := (hmargin 2 1).2 none 0 [.step, .run (some 9)]
  exact ⟨hg, hplay, (hcanvas 4 1 0 2 (.initial none) ⟨by decide, by decide⟩).1⟩

end Grid
end Piet
