import Piet.Proofs.Session
import Piet.Proofs.Step

/-! Programs from pictures never leave their canvas. Whatever is asked of them, the walker stands on a
colored pixel, the counter and the cursor stay in their bounds, and nothing fails but operations. -/
namespace Piet

/-- What every state of a program from a picture satisfies. An input that is not attached counts as
empty. -/
structure State.Sound (g : Grid) (s : State) : Prop where
  position_mem : s.position ∈ g
  color_ne_black : g.colorAt .origin ≠ .ok .black → g.colorAt s.position ≠ .ok .black
  obstructions_nonneg : 0 ≤ s.obstructions
  obstructions_le : s.obstructions ≤ 8
  cursor_le : s.input.cursor ≤ (s.input.text.getD []).length

namespace Grid

variable {g : Grid} {s : State}

theorem Validated.sound_initial (hg : g.Validated) (input : Option String) :
    (State.initial input).Sound g where
  position_mem := hg.origin_mem
  color_ne_black := id
  obstructions_nonneg := Int.le_refl 0
  obstructions_le := (by decide : (0 : Int) ≤ 8)
  cursor_le := Nat.zero_le _

theorem sound_feed (h : s.Sound g) (text : String) : (s.feed text).Sound g where
  position_mem := h.position_mem
  color_ne_black := h.color_ne_black
  obstructions_nonneg := h.obstructions_nonneg
  obstructions_le := h.obstructions_le
  cursor_le := by
    have hc := h.cursor_le
    change s.input.cursor ≤ (s.input.text.getD [] ++ text.toList).length
    rw [List.length_append]
    omega

theorem sound_step (h : s.Sound g) : (g.step s).state.Sound g := by
  have hs := g.stepped s
  generalize g.step s = o at hs
  cases hs with
  | ended | failed => exact h
  | obstructed ht =>
    have hn := h.obstructions_nonneg
    have hlt := (State.terminated_eq_false_iff.1 ht).2
    exact ⟨h.position_mem, h.color_ne_black, by change 0 ≤ s.obstructions + 1; omega,
      by change s.obstructions + 1 ≤ 8; omega, h.cursor_le⟩
  | @moved m s' ht hp ho =>
    have hm := crosses_of_passage hp
    have hf := Op.perform_frame ho
    obtain ⟨n, hn, hi⟩ := hf.input
    refine ⟨mem_of_colorAt_eq_ok hm.colorAt_target, fun _ hb => ?_, ?_, ?_, ?_⟩
    · exact hm.entryColor_ne (Except.ok.inj (hm.colorAt_target.symm.trans hb))
    · exact hf.obstructions.ge
    · change s'.obstructions ≤ 8
      rw [hf.obstructions]
      exact (by decide : (0 : Int) ≤ 8)
    · change s'.input.cursor ≤ (s'.input.text.getD []).length
      rw [hi]
      exact Input.cursor_advance_le hn h.cursor_le
  | faulted =>
    exact ⟨h.position_mem, h.color_ne_black, Int.le_refl 0, (by decide : (0 : Int) ≤ 8), h.cursor_le⟩

theorem sound_after (h : s.Sound g) (as : List Act) : (g.after s as).Sound g :=
  after_induction (P := State.Sound g) (fun _ => sound_step) (fun _ t h => sound_feed h t) h as

/-- A walker who stands on a colored pixel always finds a passage, so only the operation can fail. -/
theorem Validated.fault_of_step_error (hg : g.Validated) (h : s.Sound g) {e : Error}
    (he : (g.step s).result = .error e) : ∃ f, e = .fault f := by
  have hs := g.stepped s
  generalize g.step s = o at hs he
  cases hs with
  | ended | obstructed | moved => cases he
  | faulted =>
    cases he
    exact ⟨_, rfl⟩
  | failed ht hp =>
    obtain ⟨c, hc⟩ := hg.colorAt_of_mem h.position_mem
    have hb : c ≠ .black := by
      rintro rfl
      exact h.color_ne_black (State.terminated_eq_false_iff.1 ht).1 hc
    obtain ⟨psg, hpsg⟩ := hg.exists_passage hc hb s.heading
    rw [hpsg] at hp
    cases hp

/-- A program that was read from a picture launches, stays sound in every session and meets no
failures but faults. -/
theorem session_sound (hg : g.Accepted) (input : Option String) (patience : Nat)
    (calls : List Call) :
    (∃ log, g.launch input = .ok (.initial input, log)) ∧
    (Call.run none ∉ calls → ∃ os, g.play? patience (.initial input) calls = some os) ∧
    ∀ os, g.play? patience (.initial input) calls = some os →
      let s := (State.initial input).latest os
      s.Sound g ∧ (∀ v ∈ s.stack, v.toNat < 0x100000000) ∧
      (∀ c ∈ s.output.toList, c.toNat < 0xd800 ∨ 0xdfff < c.toNat ∧ c.toNat < 0x110000) ∧
      (∀ o ∈ os, ∀ e, o.result = .error e → ∃ f, e = .fault f) ∧
      ∀ e, (g.step s).result = .error e → ∃ f, e = .fault f := by
  have hv := hg.validated
  have h₀ := hv.sound_initial input
  obtain ⟨c, hc⟩ := hv.colorAt_of_mem hv.origin_mem
  refine ⟨⟨_, by rw [launch, hc]; rfl⟩, exists_play? g patience _, fun os hos => ?_⟩
  have hs : ((State.initial input).latest os).Sound g := by
    rw [play?_latest hos]
    exact sound_after h₀ _
  refine ⟨hs, fun v _ => v.toNat_lt, fun c _ => c.valid, fun o ho e he => ?_,
    fun e => hv.fault_of_step_error hs⟩
  exact play?_error (P := State.Sound g) (fun _ => sound_step) (fun _ t h => sound_feed h t)
    (fun _ _ h => hv.fault_of_step_error h) h₀ hos ho he

theorem session_sound_reader : reader.Accepted ∧
    ∃ os, reader.play? 0 (.initial (some " 4x")) [.step, .feed "7", .run (some 9)] = some os ∧
      ((State.initial (some " 4x")).latest os).Sound reader := by
  obtain ⟨-, hplay, hsound⟩ :=
    session_sound reader_accepted (some " 4x") 0 [.step, .feed "7", .run (some 9)]
  obtain ⟨os, hos⟩ := hplay (by decide)
  exact ⟨reader_accepted, os, hos, (hsound os hos).1⟩

end Grid
end Piet
