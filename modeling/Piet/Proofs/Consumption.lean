import Piet.Proofs.Feeding

/-! The history of input and output. What the reading operations of a session have taken, piece by
piece, is the text before the cursor; nothing else moves the cursor, and what was written stays. -/
namespace Piet

theorem Act.arriving_append (as bs : List Act) :
    arriving (as ++ bs) = arriving as ++ arriving bs := by
  induction as with
  | nil => simp [arriving]
  | cons a as ih => cases a <;> simp [arriving, ih, String.append_assoc]

/-- What a step has taken from the input: a character, or blanks and all digits up to what is still
unread. -/
inductive State.Takes (s s' : State) : Option Op → List Char → Prop where
  | char {c : Char} (hu : s.input.unread = c :: s'.input.unread)
      (hs : s'.stack = c.val :: s.stack) : Takes s s' (some .inChar) [c]
  | number {blanks digits : List Char} (hn : Numeral blanks digits s'.input.unread)
      (hu : s.input.unread = blanks ++ (digits ++ s'.input.unread))
      (hs : s'.stack = .ofDigits digits :: s.stack) :
      Takes s s' (some .inNumber) (blanks ++ digits)
  | nothing {op : Option Op} (hn : op ≠ some .inNumber) (hc : op ≠ some .inChar) : Takes s s' op []

/-- The text that calls feed. -/
def Call.fedText (calls : List Call) : List Char :=
  calls.flatMap fun
    | .feed text => text.toList
    | _ => []

namespace Grid

/-- The text that an act moves the cursor over. -/
def taken (g : Grid) (s : State) (a : Act) : List Char :=
  s.input.unread.take ((g.act s a).input.cursor - s.input.cursor)

/-- What an act takes if its operation is one that reads. -/
def reading? (g : Grid) (s : State) (a : Act) : Option (List Char) :=
  match g.operation? s a with
  | some .inChar | some .inNumber => some (g.taken s a)
  | _ => none

/-- What the reading operations take on the way through the acts, in their order. -/
def readings (g : Grid) : State → List Act → List (List Char)
  | _, [] => []
  | s, a :: as => (g.reading? s a).toList ++ g.readings (g.act s a) as

/-- The bookkeeping of an act: how far the cursor moves and over what, and that the output only
grows and the steps count the operations. -/
structure Accounted (g : Grid) (s : State) (a : Act) : Prop where
  takes : s.Takes (g.act s a) (g.operation? s a) (g.taken s a)
  cursor : (g.act s a).input.cursor = s.input.cursor + (g.taken s a).length
  output : s.output.toList <+: (g.act s a).output.toList
  steps : (g.act s a).steps = s.steps + (g.operation? s a).toList.length

end Grid

theorem Op.perform_output {op : Op} {size : Nat} {s s' : State} (h : op.perform size s = .ok s') :
    s.output.toList <+: s'.output.toList := by
  have hwrite : ∀ (t : State) text, t.output.toList <+: (t.write text).output.toList := by
    intro t text
    rw [State.write, String.toList_append]
    exact List.prefix_append _ _
  cases op with
  | none | push =>
    cases h
    exact List.prefix_rfl
  | add | subtract | multiply | greater =>
    obtain ⟨stack, rfl⟩ := exists_of_combine h
    exact List.prefix_rfl
  | divide | mod =>
    obtain ⟨stack, rfl⟩ := exists_of_combineNonzero h
    exact List.prefix_rfl
  | pop | not | pointer | duplicate =>
    obtain ⟨a, rest, rfl⟩ := exists_of_pop h
    exact List.prefix_rfl
  | switch =>
    obtain ⟨a, rest, rfl⟩ := exists_of_pop h
    dsimp only
    split <;> exact List.prefix_rfl
  | roll =>
    obtain ⟨stack, rfl⟩ := exists_of_roll h
    exact List.prefix_rfl
  | inNumber =>
    obtain ⟨v, i, -, rfl⟩ := perform_inNumber_eq_ok_iff.1 h
    exact List.prefix_rfl
  | inChar =>
    obtain ⟨c, i, -, rfl⟩ := perform_inChar_eq_ok_iff.1 h
    exact List.prefix_rfl
  | outNumber =>
    obtain ⟨a, rest, rfl⟩ := exists_of_pop h
    exact hwrite _ _
  | outChar =>
    obtain ⟨c, rest, rfl⟩ := exists_of_writeChar h
    exact hwrite _ _

/-- Where there is no operation nothing is taken. -/
theorem State.Takes.of_none {s s' : State} : s.Takes s' none [] :=
  .nothing (Option.some_ne_none _).symm (Option.some_ne_none _).symm

/-- Only the input and the stack tell what was taken. -/
theorem State.Takes.congr {s s' t t' : State} {op : Option Op} {cs : List Char}
    (h : s.Takes s' op cs) (hi : t.input = s.input) (hs : t.stack = s.stack)
    (hi' : t'.input = s'.input) (hs' : t'.stack = s'.stack) : t.Takes t' op cs := by
  cases h with
  | char hu hst => exact .char (by rw [hi, hi', hu]) (by rw [hs, hs', hst])
  | number hn hu hst => exact .number (hi' ▸ hn) (by rw [hi, hi', hu]) (by rw [hs, hs', hst])
  | nothing hn hc => exact .nothing hn hc

theorem Op.perform_takes {op : Op} {size : Nat} {s s' : State} (h : op.perform size s = .ok s') :
    ∃ cs, cs <+: s.input.unread ∧ s.Takes s' (some op) cs ∧
      s'.input = s.input.advance cs.length := by
  by_cases hn : op = .inNumber
  · subst hn
    obtain ⟨v, i, hr, rfl⟩ := perform_inNumber_eq_ok_iff.1 h
    obtain ⟨blanks, digits, rest, hnum, hu, rfl, rfl⟩ := Input.readNumber_eq_ok_iff.1 hr
    have hrest := Input.unread_advance_numeral hu
    refine ⟨blanks ++ digits, ⟨rest, by rw [hu, List.append_assoc]⟩, ?_, ?_⟩
    · exact .number (hrest.symm ▸ hnum) (by rw [hu]; exact congrArg _ (congrArg _ hrest.symm)) rfl
    · rw [List.length_append]
      rfl
  · by_cases hc : op = .inChar
    · subst hc
      obtain ⟨c, i, hr, rfl⟩ := perform_inChar_eq_ok_iff.1 h
      obtain ⟨⟨rest, hu⟩, rfl⟩ := Input.readChar_eq_ok_iff.1 hr
      have hrest : (s.input.advance 1).unread = rest := by rw [Input.unread_advance, hu]; rfl
      exact ⟨[c], ⟨rest, hu.symm⟩, .char (hu.trans (congrArg _ hrest.symm)) rfl, rfl⟩
    · exact ⟨[], List.nil_prefix, .nothing (by simpa using hn) (by simpa using hc),
        input_eq_of_perform hn hc h⟩

namespace Grid

variable {g : Grid} {s : State}

/-- A step takes a beginning of the unread text, and the cursor moves over it. -/
theorem step_takes (g : Grid) (s : State) : ∃ cs, cs <+: s.input.unread ∧
    s.Takes (g.step s).state (g.operation? s .step) cs ∧
    (g.step s).state.input = s.input.advance cs.length := by
  have hs := g.stepped s
  unfold operation?
  generalize g.step s = o at hs ⊢
  cases hs with
  | ended | failed | obstructed | faulted =>
    exact ⟨[], List.nil_prefix, .of_none, rfl⟩
  | @moved m s' ht hp ho =>
    obtain ⟨cs, hpre, htakes, hi⟩ := Op.perform_takes ho
    exact ⟨cs, hpre, htakes.congr rfl rfl rfl rfl, hi⟩

theorem step_output_steps (g : Grid) (s : State) :
    s.output.toList <+: (g.step s).state.output.toList ∧
      (g.step s).state.steps = s.steps + (g.operation? s .step).toList.length := by
  have hs := g.stepped s
  unfold operation?
  generalize g.step s = o at hs ⊢
  cases hs with
  | ended | failed | obstructed | faulted => exact ⟨List.prefix_rfl, rfl⟩
  | @moved m s' ht hp ho =>
    have houtput := Op.perform_output ho
    exact ⟨houtput, congrArg (· + 1) (Op.perform_frame ho).steps⟩

theorem accounted (g : Grid) (s : State) (a : Act) : g.Accounted s a := by
  cases a with
  | feed text =>
    have hnil : g.taken s (.feed text) = [] := by simp [taken, act, State.feed, Input.feed]
    refine ⟨?_, ?_, List.prefix_rfl, rfl⟩
    · rw [hnil]
      exact .of_none
    · rw [hnil]
      rfl
  | step =>
    obtain ⟨cs, hpre, htakes, hi⟩ := g.step_takes s
    obtain ⟨houtput, hsteps⟩ := g.step_output_steps s
    have hcursor : (g.act s .step).input.cursor = s.input.cursor + cs.length :=
      congrArg Input.cursor hi
    have htaken : g.taken s .step = cs := by
      rw [taken, hcursor, Nat.add_sub_cancel_left]
      exact (List.prefix_iff_eq_take.1 hpre).symm
    rw [← htaken] at htakes hcursor
    exact ⟨htakes, hcursor, houtput, hsteps⟩

/-- What is taken is a reading, and where nothing is read nothing is taken. -/
theorem toList_reading?_flatten (g : Grid) (s : State) (a : Act) :
    (g.reading? s a).toList.flatten = g.taken s a := by
  have h := (g.accounted s a).takes
  unfold reading?
  generalize g.operation? s a = op at h ⊢
  generalize g.taken s a = cs at h ⊢
  cases h with
  | char | number => simp
  | nothing hn hc =>
    split
    · exact absurd rfl hc
    · exact absurd rfl hn
    · rfl

theorem text_act (g : Grid) (s : State) (a : Act) : (g.act s a).input.text.getD [] =
    s.input.text.getD [] ++ (Act.arriving [a]).toList := by
  cases a with
  | feed text => simp [act, State.feed, Input.feed, Act.arriving]
  | step =>
    obtain ⟨cs, -, -, hi⟩ := g.step_takes s
    rw [act, hi]
    simp [Act.arriving, Input.advance]

theorem isSome_text_act (g : Grid) (s : State) (a : Act) :
    (g.act s a).input.text.isSome = true ↔ s.input.text.isSome = true ∨ a ≠ .step := by
  cases a with
  | feed text => simp [act, State.feed, Input.feed]
  | step =>
    obtain ⟨cs, -, -, hi⟩ := g.step_takes s
    rw [act, hi]
    simp [Input.advance]

theorem length_taken_le (h : s.input.cursor ≤ (s.input.text.getD []).length) (a : Act) :
    s.input.cursor + (g.taken s a).length ≤ (s.input.text.getD []).length := by
  have hle : (g.taken s a).length ≤ s.input.unread.length := List.length_take_le' ..
  rw [Input.unread, List.length_drop] at hle
  omega

theorem cursor_act_le (h : s.input.cursor ≤ (s.input.text.getD []).length) (a : Act) :
    (g.act s a).input.cursor ≤ ((g.act s a).input.text.getD []).length := by
  have hle := length_taken_le (g := g) h a
  rw [(g.accounted s a).cursor, text_act, List.length_append]
  omega

/-- The text before the cursor grows by what is taken. -/
theorem take_cursor_act (h : s.input.cursor ≤ (s.input.text.getD []).length) (a : Act) :
    ((g.act s a).input.text.getD []).take (g.act s a).input.cursor =
      (s.input.text.getD []).take s.input.cursor ++ g.taken s a := by
  have htaken : s.input.unread.take (g.taken s a).length = g.taken s a :=
    (List.prefix_iff_eq_take.1 (List.take_prefix ..)).symm
  rw [(g.accounted s a).cursor, text_act,
    List.take_append_of_le_length (length_taken_le h a), List.take_add]
  exact congrArg _ htaken

theorem after_cons (g : Grid) (s : State) (a : Act) (as : List Act) :
    g.after s (a :: as) = g.after (g.act s a) as := rfl

/-- What is read on the way through the acts adds up to the text that the cursor moves over. -/
theorem take_cursor_after (h : s.input.cursor ≤ (s.input.text.getD []).length) (as : List Act) :
    ((g.after s as).input.text.getD []).take (g.after s as).input.cursor =
      (s.input.text.getD []).take s.input.cursor ++ (g.readings s as).flatten := by
  induction as generalizing s with
  | nil => exact (List.append_nil _).symm
  | cons a as ih =>
    rw [after_cons, ih (cursor_act_le h a), take_cursor_act h a, readings, List.flatten_append,
      toList_reading?_flatten, List.append_assoc]

theorem text_after (g : Grid) (s : State) (as : List Act) :
    (g.after s as).input.text.getD [] =
      s.input.text.getD [] ++ (Act.arriving as).toList := by
  induction as generalizing s with
  | nil => simp [after, Act.arriving]
  | cons a as ih =>
    have harriving : Act.arriving (a :: as) = Act.arriving [a] ++ Act.arriving as := by
      cases a <;> simp [Act.arriving]
    rw [after_cons, ih, text_act, harriving, String.toList_append, List.append_assoc]

theorem isSome_text_after (g : Grid) (s : State) (as : List Act) :
    (g.after s as).input.text.isSome = true ↔
      s.input.text.isSome = true ∨ ∃ a ∈ as, a ≠ .step := by
  induction as generalizing s with
  | nil => simp [after]
  | cons a as ih =>
    rw [after_cons, ih, isSome_text_act]
    simp only [List.mem_cons, exists_eq_or_imp, or_assoc]

/-- Each operation counts as one step. -/
theorem steps_after (g : Grid) (s : State) (as : List Act) :
    (g.after s as).steps = s.steps + (g.operations s as).length := by
  induction as generalizing s with
  | nil => rfl
  | cons a as ih =>
    rw [after_cons, ih, (g.accounted s a).steps, operations, List.length_append, Nat.add_assoc]

theorem output_after (g : Grid) (s : State) (as : List Act) :
    s.output.toList <+: (g.after s as).output.toList := by
  refine after_induction (P := fun t => s.output.toList <+: t.output.toList) ?_ ?_
    List.prefix_rfl as
  · exact fun t h => h.trans (g.accounted t .step).output
  · exact fun t text h => h

/-- Runs feed nothing, and a call that feeds is one act. -/
theorem arriving_callActs (g : Grid) (patience : Nat) (s : State) (c : Call) :
    (Act.arriving (g.callActs patience s c)).toList = Call.fedText [c] := by
  cases c with
  | step => rfl
  | feed text => simp [callActs, Act.arriving, Call.fedText]
  | run limit =>
    have hsteps : ∀ n, Act.arriving (.replicate n .step) = "" := by
      intro n
      induction n with
      | zero => rfl
      | succ n ih => exact ih
    rw [callActs, hsteps]
    rfl

theorem arriving_acts (g : Grid) (patience : Nat) (s : State) (calls : List Call) :
    (Act.arriving (g.acts patience s calls)).toList = Call.fedText calls := by
  induction calls generalizing s with
  | nil => rfl
  | cons c cs ih =>
    rw [acts, Act.arriving_append, String.toList_append, arriving_callActs, ih]
    simp [Call.fedText]

theorem exists_feed_acts_iff (g : Grid) (patience : Nat) (s : State) (calls : List Call) :
    (∃ a ∈ g.acts patience s calls, a ≠ .step) ↔ ∃ text, .feed text ∈ calls := by
  induction calls generalizing s with
  | nil => simp [acts]
  | cons c cs ih =>
    have hc : (∃ a ∈ g.callActs patience s c, a ≠ .step) ↔ ∃ text, .feed text = c := by
      cases c with
      | step => simp [callActs]
      | feed text => simp [callActs]
      | run limit => simp [callActs]
    rw [acts]
    simp only [List.mem_append, List.mem_cons, or_and_right, exists_or, hc, ih]

/-- From call to call the output only grows. -/
theorem play?_output {patience : Nat} {calls : List Call} {os : List (Outcome Answer)}
    (hos : g.play? patience s calls = some os) :
    (s :: os.map Outcome.state).Pairwise fun a b => a.output.toList <+: b.output.toList := by
  induction calls generalizing s os with
  | nil =>
    cases hos
    exact List.pairwise_singleton ..
  | cons c cs ih =>
    obtain ⟨o, os', ho, hos', rfl⟩ := exists_of_play?_cons hos
    have hrest := ih hos'
    have hfirst : s.output.toList <+: o.state.output.toList := by
      rw [call?_state ho]
      exact output_after ..
    refine List.pairwise_cons.2 ⟨fun t ht => ?_, hrest⟩
    rcases List.mem_cons.1 ht with rfl | ht
    · exact hfirst
    · exact hfirst.trans (List.rel_of_pairwise_cons hrest ht)

/-- What the reading operations of a session took, piece by piece, is the text before the cursor;
the output only grows. -/
theorem session_history {input : Option String} {patience : Nat} {calls : List Call}
    {os : List (Outcome Answer)} (hos : g.play? patience (.initial input) calls = some os) :
    let s₀ := State.initial input
    let s := s₀.latest os
    let as := g.acts patience s₀ calls
    s.input.text.getD [] = (input.getD "").toList ++ Call.fedText calls ∧
    (s.input.text.isSome = true ↔ input.isSome = true ∨ ∃ text, .feed text ∈ calls) ∧
    (g.readings s₀ as).flatten = (s.input.text.getD []).take s.input.cursor ∧
    (∀ past a, past ++ [a] <+: as → g.Accounted (g.after s₀ past) a) ∧
    s.steps = (g.operations s₀ as).length ∧
    (s₀ :: os.map Outcome.state).Pairwise fun a b => a.output.toList <+: b.output.toList := by
  intro s₀ s as
  have hs : s = g.after s₀ as := play?_latest hos
  have htext : s₀.input.text.getD [] = (input.getD "").toList := by cases input <;> rfl
  have hsome : s₀.input.text.isSome = input.isSome := by cases input <;> rfl
  refine ⟨?_, ?_, ?_, fun past a _ => g.accounted _ a, ?_, play?_output hos⟩
  · rw [hs, text_after, htext, arriving_acts]
  · rw [hs, isSome_text_after, hsome, exists_feed_acts_iff]
  · rw [hs, take_cursor_after (Nat.zero_le _)]
    rfl
  · rw [hs, steps_after]
    exact Nat.zero_add _

theorem session_history_reader : ∃ os,
    reader.play? 0 (.initial (some " 4x")) [.step, .feed "7", .run (some 9)] = some os ∧
    let s := (State.initial (some " 4x")).latest os
    s.input.text.getD [] = " 4x7".toList ∧ s.steps = 1 ∧
    (s.input.text.getD []).take s.input.cursor = " 4".toList := by
  obtain ⟨os, hos⟩ := exists_play? reader 0 (.initial (some " 4x"))
    (show Call.run none ∉ [.step, .feed "7", .run (some 9)] by decide)
  obtain ⟨htext, -, hread, -, hsteps, -⟩ := session_history hos
  refine ⟨os, hos, htext, hsteps.trans ?_, hread.symm.trans ?_⟩ <;> decide +kernel

end Grid
end Piet
