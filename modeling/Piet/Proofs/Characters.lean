import Piet.Proofs.Reading

/-! Characters read and characters written. The words that reading pushes are those that can be
written, so a text that is read and written character by character comes out as it went in. -/
namespace Piet

namespace Word

/-- Code points that are no surrogates. -/
def IsScalar (v : Word) : Prop := v.toNat ≤ 0x10ffff ∧ ¬(0xd800 ≤ v.toNat ∧ v.toNat ≤ 0xdfff)

theorem isValidChar_iff_isScalar {v : Word} : v.isValidChar ↔ v.IsScalar := by
  unfold IsScalar UInt32.isValidChar Nat.isValidChar
  omega

theorem char?_val (c : Char) : char? c.val = some c := by
  unfold char?
  rw [dif_pos c.valid]

theorem char?_eq_none {v : Word} (h : ¬v.IsScalar) : v.char? = none := by
  unfold char?
  rw [dif_neg (isValidChar_iff_isScalar.not.2 h)]

end Word

namespace Input

variable {i : Input}

theorem readChar_of_unread_eq_nil {cs : List Char} (ht : i.text = some cs) (hu : i.unread = []) :
    i.readChar = .error (.endOfInput .inChar) := by
  unfold readChar
  rw [ht, hu]

/-- A text that arrives where all has been read is what is unread. -/
theorem unread_feed_of_cursor_eq (h : i.cursor = (i.text.getD []).length) (text : String) :
    (i.feed text).unread = text.toList := by
  rw [unread_feed h.le, unread, h, List.drop_length, List.nil_append]

end Input

namespace Op

variable {s : State} {t rest : List Char} {tasks : List (Op × Nat)}

theorem perform_inChar_of_unread {c : Char} (hu : s.input.unread = c :: rest) (size : Nat) :
    perform .inChar size s = .ok { s with stack := c.val :: s.stack, input := s.input.advance 1 } :=
  perform_inChar_eq_ok_iff.2 ⟨c, _, Input.readChar_eq_ok_iff.2 ⟨⟨rest, hu⟩, rfl⟩, rfl⟩

theorem perform_outChar {c : Char} {below : Stack} (h : s.stack = c.val :: below) (size : Nat) :
    perform .outChar size s = .ok { s with stack := below, output := s.output.push c } := by
  have hpush : s.output ++ c.toString = s.output.push c := (String.push_eq_append c).symm
  simp only [perform, State.pop, h, Except.bind, State.writeChar, Word.char?_val, State.write,
    hpush]

theorem perform_outChar_of_not_isScalar {v : Word} {below : Stack} (h : s.stack = v :: below)
    (hv : ¬v.IsScalar) (size : Nat) : perform .outChar size s = .error (.notScalar v) := by
  simp only [perform, State.pop, h, Except.bind, State.writeChar, Word.char?_eq_none hv]

/-- As many characters as are read are pushed, one after another. -/
theorem performAll_inChar (hu : s.input.unread = t ++ rest)
    (htasks : tasks.map (·.1) = List.replicate t.length .inChar) :
    (performAll tasks).run s = .ok () { s with
      stack := (t.map Char.val).reverse ++ s.stack
      input := s.input.advance t.length } := by
  induction t generalizing s tasks with
  | nil =>
    obtain rfl : tasks = [] := List.map_eq_nil_iff.1 htasks
    rfl
  | cons c t ih =>
    obtain ⟨size, later, rfl, hlater⟩ := exists_of_map_fst_eq_cons htasks
    have hfirst : s.input.unread = [c] ++ (t ++ rest) := hu
    rw [performAll_cons_of_ok (perform_inChar_of_unread hu size),
      ih (Input.unread_advance_length hfirst) hlater]
    simp only [Input.advance_advance, List.map_cons, List.reverse_cons, List.append_assoc,
      List.singleton_append, List.length_cons, Nat.add_comm]

/-- A character that is written as soon as it was read leaves nothing on the stack. -/
theorem performAll_inChar_outChar_cons {c : Char} (hu : s.input.unread = c :: rest)
    (size size' : Nat) (tasks : List (Op × Nat)) :
    (performAll ((.inChar, size) :: (.outChar, size') :: tasks)).run s =
      (performAll tasks).run { s with
        output := s.output.push c
        input := s.input.advance 1 } := by
  rw [performAll_cons_of_ok (perform_inChar_of_unread hu size)]
  exact performAll_cons_of_ok (perform_outChar rfl size') tasks

theorem performAll_inChar_outChar (hu : s.input.unread = t ++ rest)
    (htasks : tasks.map (·.1) = (List.replicate t.length [.inChar, .outChar]).flatten) :
    (performAll tasks).run s = .ok () { s with
      output := s.output ++ String.ofList t
      input := s.input.advance t.length } := by
  induction t generalizing s tasks with
  | nil =>
    obtain rfl : tasks = [] := List.map_eq_nil_iff.1 htasks
    have houtput : s.output ++ String.ofList [] = s.output := String.append_empty
    rw [houtput]
    rfl
  | cons c t ih =>
    obtain ⟨size, others, rfl, hothers⟩ := exists_of_map_fst_eq_cons htasks
    obtain ⟨size', later, rfl, hlater⟩ := exists_of_map_fst_eq_cons hothers
    have hfirst : s.input.unread = [c] ++ (t ++ rest) := hu
    have houtput : s.output.push c ++ String.ofList t = s.output ++ String.ofList (c :: t) :=
      String.toList_inj.1 (by simp)
    rw [performAll_inChar_outChar_cons hu, ih (Input.unread_advance_length hfirst) hlater]
    simp only [Input.advance_advance, houtput, List.length_cons, Nat.add_comm]

/-- A text that is read and written character by character comes out as it is, and only scalar
values are written. -/
theorem inChar_outChar_inverse :
    (∀ (s : State) (cs : List Char), s.input.text = some cs →
      let t := s.input.unread
      let after k : State := { s with
        stack := ((t.take k).map Char.val).reverse ++ s.stack
        input := s.input.advance k }
      (∀ k ≤ t.length, ∀ tasks : List (Op × Nat), tasks.map (·.1) = List.replicate k .inChar →
        (performAll tasks).run s = .ok () (after k)) ∧
      (∀ size, (handler .inChar size).run (after t.length) =
        .error (.fault (.endOfInput .inChar)) (after t.length)) ∧
      ∀ tasks : List (Op × Nat),
        tasks.map (·.1) = (List.replicate t.length [.inChar, .outChar]).flatten →
        (performAll tasks).run s = .ok () { s with
          output := s.output ++ String.ofList t
          input := s.input.advance t.length }) ∧
    (∀ (c : Char) (s : State) (below : Stack) (size : Nat), s.stack = c.val :: below →
      (handler .outChar size).run s =
        .ok () { s with stack := below, output := s.output.push c }) ∧
    ∀ (v : Word) (s : State) (below : Stack) (size : Nat), s.stack = v :: below →
      ((∃ s', (handler .outChar size).run s = .ok () s') ↔ v.IsScalar) ∧
      (¬v.IsScalar → (handler .outChar size).run s = .error (.fault (.notScalar v)) s) ∧
      ∀ s', (handler .outChar size).run s = .ok () s' → ∃ c : Char, s'.output = s.output.push c ∧
        ∀ (u : State) (size' : Nat), u.input.cursor = (u.input.text.getD []).length →
          (handler .inChar size').run (u.feed c.toString) = .ok () { u.feed c.toString with
            stack := v :: u.stack
            input := (u.feed c.toString).input.advance 1 } := by
  refine ⟨fun s cs ht => ?_,
    fun c s below size h => run_handler_eq_ok_iff.2 (perform_outChar h size),
    fun v s below size h => ?_⟩
  · intro t after
    refine ⟨fun k hk tasks htasks => ?_, fun size => ?_, fun tasks htasks => ?_⟩
    · have hlength : (t.take k).length = k := List.length_take_of_le hk
      have hread := performAll_inChar (List.take_append_drop k t).symm (hlength.symm ▸ htasks)
      rwa [hlength] at hread
    · have hnil : (after t.length).input.unread = [] :=
        Input.unread_advance_length (List.append_nil t).symm
      have hread : (after t.length).input.readChar = .error (.endOfInput .inChar) :=
        Input.readChar_of_unread_eq_nil ht hnil
      exact run_handler_of_error (congrArg (Except.map _) hread)
    · exact performAll_inChar_outChar (List.append_nil t).symm htasks
  · by_cases hv : v.IsScalar
    · obtain ⟨c, rfl⟩ : ∃ c : Char, c.val = v := ⟨⟨v, Word.isValidChar_iff_isScalar.2 hv⟩, rfl⟩
      have hwrite := run_handler_eq_ok_iff.2 (perform_outChar h size)
      refine ⟨iff_of_true ⟨_, hwrite⟩ hv, fun hnot => absurd hv hnot, fun s' hs' => ⟨c, ?_, ?_⟩⟩
      · rw [hwrite] at hs'
        cases hs'
        rfl
      · intro u size' hu
        have hunread : (u.feed c.toString).input.unread = [c] :=
          (Input.unread_feed_of_cursor_eq hu _).trans (by simp)
        exact run_handler_eq_ok_iff.2 (perform_inChar_of_unread hunread size')
    · have hfault := run_handler_of_error (perform_outChar_of_not_isScalar h hv size)
      have hnone : ∀ s', (handler .outChar size).run s ≠ .ok () s' := by
        intro s' hs'
        rw [hfault] at hs'
        cases hs'
      exact ⟨iff_of_false (fun ⟨s', hs'⟩ => hnone s' hs') hv, fun _ => hfault,
        fun s' hs' => absurd hs' (hnone s')⟩

/-- A text of two and four bytes in UTF-8, and the first and the last of the surrogates. -/
theorem inChar_outChar_inverse_wide :
    let s : State := { State.initial (some "é😀") with stack := [5], output := "x" }
    let turns : List (Op × Nat) := [(.inChar, 1), (.outChar, 2), (.inChar, 3), (.outChar, 4)]
    let withStack stack : State := { s with stack := stack }
    (performAll [(.inChar, 1), (.inChar, 3)]).run s =
      .ok () { s with stack := [0x1f600, 0xe9, 5], input := s.input.advance 2 } ∧
    (performAll turns).run s = .ok () { s with output := "xé😀", input := s.input.advance 2 } ∧
    (handler .outChar 1).run (withStack [0xd800]) =
      .error (.fault (.notScalar 0xd800)) (withStack [0xd800]) ∧
    (handler .outChar 1).run (withStack [0xdfff]) =
      .error (.fault (.notScalar 0xdfff)) (withStack [0xdfff]) ∧
    ∃ s' c u, (handler .outChar 1).run (withStack [0x10ffff]) = .ok () s' ∧
      s'.output = s.output.push c ∧
      (handler .inChar 1).run ((State.initial (some "")).feed c.toString) = .ok () u ∧
      u.stack = [0x10ffff] := by
  intro s turns withStack
  obtain ⟨hread, -, hword⟩ := inChar_outChar_inverse
  obtain ⟨hpush, -, hecho⟩ := hread s _ rfl
  obtain ⟨-, hfirst, -⟩ := hword 0xd800 (withStack [0xd800]) [] 1 rfl
  obtain ⟨-, hlast, -⟩ := hword 0xdfff (withStack [0xdfff]) [] 1 rfl
  obtain ⟨hiff, -, hback⟩ := hword 0x10ffff (withStack [0x10ffff]) [] 1 rfl
  obtain ⟨s', hs'⟩ := hiff.2 (by unfold Word.IsScalar; decide)
  obtain ⟨c, hc, hfed⟩ := hback s' hs'
  exact ⟨hpush 2 (by decide) _ rfl, hecho turns rfl, hfirst (by unfold Word.IsScalar; decide),
    hlast (by unfold Word.IsScalar; decide), s', c, _, hs', hc,
    hfed (State.initial (some "")) 1 rfl, rfl⟩

end Op
end Piet
