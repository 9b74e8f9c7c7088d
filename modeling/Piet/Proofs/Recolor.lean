import Piet.Proofs.Lockstep
import Piet.Proofs.Relocation

/-! Recolored pictures. A change of colors that keeps black, tells colors apart and respects how far
they lie apart on the cycle shows in the log alone. -/
namespace Piet

/-- A change of colors that merges none, moves no black and turns no operation into another. -/
structure Recoloring (f : Color → Color) : Prop where
  injective : Function.Injective f
  black : f .black = .black
  ofColors : ∀ c d, Op.ofColors (f c) (f d) = Op.ofColors c d

/-- The code of the new color in place of that of the old; what is no color stays. -/
def Color.recode (f : Color → Color) (n : Nat) : Nat :=
  ((ofCode? n).map fun c => (f c).code).getD n

/-- The same picture in other colors. -/
def Grid.recolor (g : Grid) (f : Color → Color) : Grid where
  width := g.width
  height := g.height
  codes := g.codes.map (Color.recode f)
  size_codes := by rw [Array.size_map, g.size_codes]

def Region.recolor (f : Color → Color) (r : Region) : Region := { r with color := f r.color }

def Move.recolor (f : Color → Color) (m : Move) : Move :=
  { m with exitColor := f m.exitColor, entryColor := f m.entryColor }

def Passage.recolor (f : Color → Color) : Passage → Passage
  | .blocked exit target => .blocked exit target
  | .crossing m => .crossing (m.recolor f)

def Record.recolor (f : Color → Color) : Record → Record
  | .crossing p m => .crossing p (m.recolor f)
  | r => r

theorem Recoloring.eq_black_iff {f : Color → Color} (hf : Recoloring f) {c : Color} :
    f c = .black ↔ c = .black :=
  ⟨fun h => hf.injective (h.trans hf.black.symm), fun h => h ▸ hf.black⟩

namespace Color

variable {f : Color → Color}

@[simp] theorem recode_code (f : Color → Color) (c : Color) : recode f c.code = (f c).code := by
  simp [recode]

theorem ofCode_code (c : Color) : ofCode c.code = .ok c := ofCode_eq_ok_iff.2 rfl

theorem recode_of_error {n : Nat} {e : Error} (h : ofCode n = .error e) : recode f n = n := by
  unfold recode
  cases hc : ofCode? n with
  | none => rfl
  | some c =>
    rw [ofCode, hc] at h
    cases h

theorem ofCode_recode (f : Color → Color) (n : Nat) :
    ofCode (recode f n : Nat) = (ofCode n).map f := by
  cases h : ofCode n with
  | ok c =>
    obtain rfl : n = c.code := by exact_mod_cast ofCode_eq_ok_iff.1 h
    rw [recode_code, ofCode_code]
    rfl
  | error e =>
    rw [recode_of_error h, h]
    rfl

theorem recode_injective (hf : Function.Injective f) : Function.Injective (recode f) := by
  intro m n h
  have hmap : (ofCode m).map f = (ofCode n).map f := by rw [← ofCode_recode, h, ofCode_recode]
  cases hm : ofCode m with
  | ok c =>
    cases hn : ofCode n with
    | ok d =>
      rw [hm, hn, Except.map, Except.map, Except.ok.injEq, hf.eq_iff] at hmap
      subst hmap
      exact_mod_cast (ofCode_eq_ok_iff.1 hm).trans (ofCode_eq_ok_iff.1 hn).symm
    | error e =>
      rw [hm, hn] at hmap
      cases hmap
  | error e =>
    cases hn : ofCode n with
    | ok d =>
      rw [hm, hn] at hmap
      cases hmap
    | error e' => exact (recode_of_error hm).symm.trans (h.trans (recode_of_error hn))

end Color

namespace Grid

variable {g : Grid} {f : Color → Color} {p : Position} {hd : Heading} {s : State}

theorem codeAt?_recolor (g : Grid) (f : Color → Color) (p : Position) :
    (g.recolor f).codeAt? p = (g.codeAt? p).map (Color.recode f) := by
  by_cases hp : p ∈ g
  · have hp' : p ∈ g.recolor f := hp
    rw [codeAt?, codeAt?, if_pos hp, if_pos hp']
    exact Array.getElem?_map
  · have hp' : p ∉ g.recolor f := hp
    rw [codeAt?_eq_none_iff.2 hp, codeAt?_eq_none_iff.2 hp']
    rfl

theorem colorAt_recolor (g : Grid) (f : Color → Color) (p : Position) :
    (g.recolor f).colorAt p = (g.colorAt p).map f := by
  unfold colorAt
  rw [codeAt?_recolor]
  cases g.codeAt? p with
  | none => rfl
  | some n => exact Color.ofCode_recode f n

theorem Validated.recolor (hg : g.Validated) (f : Color → Color) : (g.recolor f).Validated where
  width_pos := hg.width_pos
  height_pos := hg.height_pos
  code_of_mem := by
    intro n hn
    obtain ⟨m, hm, rfl⟩ := Array.mem_map.1 hn
    obtain ⟨c, rfl⟩ := hg.code_of_mem m hm
    exact ⟨f c, Color.recode_code f c⟩

/-- Whether a neighbour is fresh depends on which codes are equal only. -/
theorem fresh_recolor (hf : Function.Injective f) (g : Grid) (code : Nat) (fill : Fill)
    (p : Position) : fill.fresh (g.recolor f) (Color.recode f code) p = fill.fresh g code p := by
  unfold Fill.fresh
  refine List.filter_congr fun q _ => congrArg (· && !fill.isSeen g q) ?_
  rw [codeAt?_recolor, decide_eq_decide]
  cases g.codeAt? q with
  | none => simp
  | some n => simp [(Color.recode_injective hf).eq_iff]

theorem fill_recolor (hf : Function.Injective f) (g : Grid) (code turns : Nat) (fill : Fill) :
    fill.run (g.recolor f) (Color.recode f code) turns = fill.run g code turns := by
  induction turns generalizing fill with
  | zero => rfl
  | succ turns ih =>
    have hexpand (p : Position) :
        fill.expand (g.recolor f) (Color.recode f code) p = fill.expand g code p := by
      unfold Fill.expand
      rw [fresh_recolor hf]
      rfl
    unfold Fill.run
    split
    · next p hp =>
      rw [hexpand]
      exact ih _
    · rfl

/-- The region of a colored pixel is what the fill from it finds. -/
theorem region_of_colorAt {c : Color} (h : g.colorAt p = .ok c) :
    g.region p = .ok ⟨c, ((Fill.start g p).run g c.code (g.width * g.height)).found.toList,
      ((Fill.start g p).run g c.code (g.width * g.height)).box⟩ := by
  rw [region, h, colorAt_eq_ok_iff.1 h]
  rfl

theorem region_recolor (hf : Function.Injective f) (g : Grid) (p : Position) :
    (g.recolor f).region p = (g.region p).map (Region.recolor f) := by
  have hcolor := colorAt_recolor g f p
  cases hc : g.colorAt p with
  | error e =>
    rw [hc] at hcolor
    rw [region, region, hcolor, hc]
    rfl
  | ok c =>
    rw [hc] at hcolor
    have hfill : (Fill.start (g.recolor f) p).run (g.recolor f) (f c).code
        ((g.recolor f).width * (g.recolor f).height) =
        (Fill.start g p).run g c.code (g.width * g.height) := by
      rw [← Color.recode_code]
      exact fill_recolor hf g c.code _ _
    rw [region_of_colorAt hc, region_of_colorAt hcolor, hfill]
    rfl

/-- The ways out are the same, and lead between the new colors. -/
theorem passage_recolor (hf : Recoloring f) (g : Grid) (p : Position) (hd : Heading) :
    (g.recolor f).passage p hd = (g.passage p hd).map (Passage.recolor f) := by
  cases hr : g.region p with
  | error e => rw [passage, passage, region_recolor hf.injective, hr]; rfl
  | ok r =>
    obtain ⟨x, hx⟩ := exists_exit hr hd
    have hr' : (g.recolor f).region p = .ok (r.recolor f) := by
      rw [region_recolor hf.injective, hr]
      rfl
    have hx' : (r.recolor f).exit hd = .ok x := hx
    cases hn : x.position.next? hd.direction with
    | none =>
      rw [passage_of_next?_eq_none hr hx hn, passage_of_next?_eq_none hr' hx' hn]
      rfl
    | some q =>
      rw [passage_of_next?_eq_some hr hx hn, passage_of_next?_eq_some hr' hx' hn, colorAt_recolor]
      by_cases hq : q ∈ g
      · have hq' : q ∈ g.recolor f := hq
        rw [if_pos hq, if_pos hq']
        cases g.colorAt q with
        | error e => rfl
        | ok c =>
          simp only [Except.map, Except.bind, Region.recolor, hf.eq_black_iff, hf.ofColors]
          split
          · rfl
          · cases Op.ofColors r.color c <;> rfl
      · have hq' : q ∉ g.recolor f := hq
        rw [if_neg hq, if_neg hq']
        rfl

theorem colorAt_recolor_eq_black_iff (hf : Recoloring f) :
    (g.recolor f).colorAt p = .ok .black ↔ g.colorAt p = .ok .black := by
  rw [colorAt_recolor]
  cases g.colorAt p with
  | error e => simp [Except.map]
  | ok c => simp [Except.map, hf.eq_black_iff]

theorem terminated_recolor (hf : Recoloring f) (g : Grid) (s : State) :
    s.terminated (g.recolor f) = s.terminated g :=
  terminated_congr (colorAt_recolor_eq_black_iff hf) rfl

/-- A step is the same in other colors, but for the colors in its log. -/
theorem step_recolor (hf : Recoloring f) (g : Grid) (s : State) :
    (g.recolor f).step s =
      ⟨(g.step s).result, (g.step s).state, (g.step s).log.map (Record.recolor f)⟩ := by
  have hended := terminated_recolor hf g s
  cases ht : s.terminated g with
  | true =>
    rw [step_of_terminated ht, step_of_terminated (hended.trans ht)]
    rfl
  | false =>
    rw [step_of_running ht, step_of_running (hended.trans ht), advance, advance,
      passage_recolor hf]
    cases g.passage s.position s.heading with
    | error e => rfl
    | ok psg =>
      cases psg with
      | blocked exit target =>
        simp only [Except.map, Passage.recolor, proceed, obstruct, terminated_recolor hf]
        split <;> rfl
      | crossing m =>
        -- An operation does not look at the colors.
        have hmove : move (m.recolor f) = move m := rfl
        simp only [Except.map, Passage.recolor, proceed, cross, hmove]
        split <;> rfl

theorem simulates_recolor (hf : Recoloring f) (g : Grid) : g.Simulates (g.recolor f)
    (fun _ => True) (fun r r' => r' = r.recolor f) (fun s t => t = s) where
  terminated := by
    rintro s _ rfl
    exact terminated_recolor hf g _
  result := by
    rintro s _ rfl
    rw [step_recolor hf]
  log := by
    rintro s _ rfl
    rw [step_recolor hf]
    exact List.forall₂_map_right_iff.2 (List.forall₂_same.2 fun _ _ => rfl)
  step := by
    rintro s _ rfl -
    rw [step_recolor hf]
  feed := by
    rintro s _ text rfl
    rfl

theorem launch_recolor (hf : Recoloring f) (g : Grid) (input : Option String) :
    (g.recolor f).launch input = g.launch input := by
  unfold launch
  rw [colorAt_recolor]
  cases g.colorAt .origin with
  | error e => rfl
  | ok c => simp [Except.map, hf.eq_black_iff]

end Grid

/-- The hue so many steps along the cycle, backwards if the number is negative. -/
def Hue.shift (h : Hue) (steps : Int) : Hue :=
  all.getD ((h.index.val + steps) % 6).toNat .red

/-- The lightness so many steps darker, starting over after the darkest. -/
def Lightness.shift (l : Lightness) (steps : Int) : Lightness :=
  all.getD ((l.index.val + steps) % 3).toNat .light

/-- Chromatic colors move along both axes of the cycle, black and white stay. -/
def Color.shift (hues lightnesses : Int) : Color → Color
  | .chromatic h l => .chromatic (h.shift hues) (l.shift lightnesses)
  | c => c

/-- The picture in the colors of the shifted palette. -/
def Grid.shiftPalette (g : Grid) (hues lightnesses : Int) : Grid :=
  g.recolor (.shift hues lightnesses)

section Shift

variable (h h' : Hue) (l l' : Lightness) (a b : Int)

theorem Hue.index_shift : ((h.shift a).index.val : Int) = (h.index.val + a) % 6 := by
  have hall : ∀ k < 6, (all.getD k .red).index.val = k := by decide
  rw [shift, hall _ (by omega)]
  omega

theorem Lightness.index_shift : ((l.shift b).index.val : Int) = (l.index.val + b) % 3 := by
  have hall : ∀ k < 3, (all.getD k .light).index.val = k := by decide
  rw [shift, hall _ (by omega)]
  omega

theorem Hue.getD_index : all.getD h.index.val .red = h := by cases h <;> rfl

theorem Lightness.getD_index : all.getD l.index.val .light = l := by cases l <;> rfl

theorem Hue.shift_injective : Function.Injective (Hue.shift · a) := by
  intro h h' he
  have hs := h.index_shift a
  have hs' := h'.index_shift a
  rw [show h.shift a = h'.shift a from he] at hs
  rw [← h.getD_index, ← h'.getD_index, show h.index.val = h'.index.val by omega]

theorem Lightness.shift_injective : Function.Injective (Lightness.shift · b) := by
  intro l l' he
  have hs := l.index_shift b
  have hs' := l'.index_shift b
  rw [show l.shift b = l'.shift b from he] at hs
  rw [← l.getD_index, ← l'.getD_index, show l.index.val = l'.index.val by omega]

/-- Both ends of a color change move alike, so their distance stays. -/
theorem Delta.between_shift :
    between (h.shift a) (l.shift b) (h'.shift a) (l'.shift b) = between h l h' l' := by
  have hh := h.index_shift a
  have hh' := h'.index_shift a
  have hl := l.index_shift b
  have hl' := l'.index_shift b
  unfold between
  rw [Delta.mk.injEq, Fin.ext_iff, Fin.ext_iff, Fin.sub_def, Fin.sub_def, Fin.sub_def, Fin.sub_def]
  dsimp only
  omega

theorem Color.shift_injective : Function.Injective (shift a b) := by
  intro c d he
  cases c with
  | chromatic h l =>
    cases d with
    | chromatic h' l' =>
      obtain ⟨hh, hl⟩ := Color.chromatic.inj he
      rw [Hue.shift_injective a hh, Lightness.shift_injective b hl]
    | black | white => cases he
  | black =>
    cases d with
    | black => rfl
    | chromatic h' l' | white => cases he
  | white =>
    cases d with
    | white => rfl
    | chromatic h' l' | black => cases he

theorem Op.ofColors_chromatic :
    ofColors (.chromatic h l) (.chromatic h' l') = .ok (ofDelta (.between h l h' l')) := rfl

theorem recoloring_shift : Recoloring (.shift a b) where
  injective := Color.shift_injective a b
  black := rfl
  ofColors c d := by
    cases c with
    | chromatic h l =>
      cases d with
      | chromatic h' l' =>
        rw [Color.shift, Color.shift, Op.ofColors_chromatic, Op.ofColors_chromatic,
          Delta.between_shift]
      | black | white => rfl
    | black | white => cases d <;> rfl

end Shift

namespace Grid

variable {g : Grid}

/-- A program runs the same after its palette is shifted around the cycle; only the log names other
colors. -/
theorem play_shiftPalette (hg : g.Validated) (hues lightnesses : Int) :
    (g.shiftPalette hues lightnesses).Validated ∧
    ∀ (input : Option String) (patience : Nat) (calls : List Call),
      (∃ log, g.launch input = .ok (.initial input, log) ∧
        (g.shiftPalette hues lightnesses).launch input = .ok (.initial input, log)) ∧
      Option.Rel (List.Forall₂ (Outcome.Agrees
          (fun r r' => r' = r.recolor (.shift hues lightnesses)) fun s t => t = s))
        (g.play? patience (.initial input) calls)
        ((g.shiftPalette hues lightnesses).play? patience (.initial input) calls) := by
  have hf := recoloring_shift hues lightnesses
  refine ⟨hg.recolor _, fun input patience calls => ⟨?_, ?_⟩⟩
  · obtain ⟨c, hc⟩ := hg.colorAt_of_mem hg.origin_mem
    exact ⟨_, by rw [launch, hc]; rfl, by rw [shiftPalette, launch_recolor hf, launch, hc]; rfl⟩
  · exact (simulates_recolor hf g).play? rfl patience calls fun _ _ => trivial

theorem play_shiftPalette_corridor : corridor.Validated ∧
    (corridor.shiftPalette 8 (-1)).colorAt .origin = .ok (.chromatic .green .light) ∧
    ∃ os os', corridor.play? 0 (.initial none) [.step, .run (some 9)] = some os ∧
      (corridor.shiftPalette 8 (-1)).play? 0 (.initial none) [.step, .run (some 9)] = some os' ∧
      List.Forall₂ (fun o o' => o'.result = o.result ∧ o'.state = o.state) os os' := by
  have hg := corridor_accepted.validated
  obtain ⟨-, hplay⟩ := play_shiftPalette hg 8 (-1)
  obtain ⟨-, hrel⟩ := hplay none 0 [.step, .run (some 9)]
  have hcalls : Call.run none ∉ [.step, .run (some 9)] := by decide
  obtain ⟨os, hos⟩ := exists_play? corridor 0 (.initial none) hcalls
  obtain ⟨os', hos'⟩ := exists_play? (corridor.shiftPalette 8 (-1)) 0 (.initial none) hcalls
  refine ⟨hg, by decide +kernel, os, os', hos, hos', ?_⟩
  rw [hos, hos'] at hrel
  cases hrel with
  | some hall => exact hall.imp fun o o' h => ⟨h.result, h.state⟩

end Grid
end Piet
