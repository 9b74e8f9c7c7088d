import Piet.Proofs.Feeding

/-! Numbers read and numbers written. However many digits are read, their value is reduced to a word
once, and what was written is read as it was. -/
namespace Piet

/-- The longest beginning of a text that holds nothing but characters which pass. -/
structure LongestSpan (p : Char → Bool) (span cs : List Char) : Prop where
  starts : span <+: cs
  passes : ∀ c ∈ span, p c = true
  longest : ∀ other, other <+: cs → (∀ c ∈ other, p c = true) → other.length ≤ span.length

theorem LongestSpan.unique {p : Char → Bool} {as bs cs : List Char} (ha : LongestSpan p as cs)
    (hb : LongestSpan p bs cs) : as = bs := by
  have hab := hb.longest as ha.starts ha.passes
  exact (List.prefix_of_prefix_length_le ha.starts hb.starts hab).eq_of_length_le
    (ha.longest bs hb.starts hb.passes)

theorem longestSpan_takeWhile (p : Char → Bool) (cs : List Char) :
    LongestSpan p (cs.takeWhile p) cs where
  starts := List.takeWhile_prefix p
  passes _ hc := List.mem_takeWhile_imp hc
  longest := by
    rintro other ⟨more, rfl⟩ hother
    rw [List.takeWhile_append_of_pos hother, List.length_append]
    exact Nat.le_add_right _ _

theorem drop_length_takeWhile (p : Char → Bool) (cs : List Char) :
    cs.drop (cs.takeWhile p).length = cs.dropWhile p := by
  have h : (cs.takeWhile p ++ cs.dropWhile p).drop (cs.takeWhile p).length = cs.dropWhile p :=
    List.drop_left
  rwa [List.takeWhile_append_dropWhile] at h

namespace Word

/-- To wrap at every digit is to wrap once. -/
theorem ofDigits_eq_ofNat (digits : List Char) :
    ofDigits digits = .ofNat (Nat.ofDigitChars 10 digits 0) := by
  -- The value of the digits before is any number, and the word that holds it has wrapped already.
  have hfold : ∀ n, digits.foldl (fun (v : Word) c => v * 10 + .ofNat (c.toNat - '0'.toNat))
      (.ofNat n) = .ofNat (Nat.ofDigitChars 10 digits n) := by
    induction digits with
    | nil =>
      intro n
      rfl
    | cons c cs ih =>
      intro n
      have hstep : UInt32.ofNat n * 10 + .ofNat (c.toNat - '0'.toNat) =
          .ofNat (10 * n + (c.toNat - '0'.toNat)) := by
        rw [UInt32.ofNat_add, UInt32.ofNat_mul, UInt32.mul_comm]
        rfl
      rw [List.foldl_cons, hstep, ih, Nat.ofDigitChars_cons]
  exact hfold 0

theorem toNat_ofDigits (digits : List Char) :
    (ofDigits digits).toNat = Nat.ofDigitChars 10 digits 0 % 0x100000000 := by
  rw [ofDigits_eq_ofNat, UInt32.toNat_ofNat']

/-- The decimal digits of a word. -/
def numeral (v : Word) : List Char := Nat.toDigits 10 v.toNat

theorem ofDigits_numeral (v : Word) : ofDigits v.numeral = v := by
  rw [ofDigits_eq_ofNat, numeral, Nat.ofDigitChars_ten_toDigits, UInt32.ofNat_toNat]

end Word

namespace Input

variable {i : Input}

theorem readNumber_of_text_eq_none (h : i.text = none) :
    i.readNumber = .error (.noInput .inNumber) := by
  unfold readNumber
  rw [h]

theorem readNumber_of_dropWhile_eq_nil (ht : i.text ≠ none)
    (h : i.unread.dropWhile Text.isBlank = []) : i.readNumber = .error (.endOfInput .inNumber) := by
  obtain ⟨cs, ht⟩ := Option.ne_none_iff_exists'.1 ht
  unfold readNumber
  rw [ht, h]
  rfl

theorem readNumber_of_dropWhile_eq_cons (ht : i.text ≠ none) {c : Char} {after : List Char}
    (h : i.unread.dropWhile Text.isBlank = c :: after)
    (hd : (i.unread.dropWhile Text.isBlank).takeWhile Char.isDigit = []) :
    i.readNumber = .error (.notDigit c) := by
  obtain ⟨cs, ht⟩ := Option.ne_none_iff_exists'.1 ht
  unfold readNumber
  dsimp only
  rw [ht, hd, h]

/-- Where digits follow the blanks, the cursor comes to stand behind both. -/
theorem readNumber_of_takeWhile_ne_nil
    (h : (i.unread.dropWhile Text.isBlank).takeWhile Char.isDigit ≠ []) :
    i.readNumber = .ok (.ofDigits ((i.unread.dropWhile Text.isBlank).takeWhile Char.isDigit),
      i.advance ((i.unread.takeWhile Text.isBlank).length +
        ((i.unread.dropWhile Text.isBlank).takeWhile Char.isDigit).length)) := by
  refine readNumber_eq_ok_iff.2 ⟨_, _, _, .of_takeWhile h, ?_, rfl, rfl⟩
  rw [List.takeWhile_append_dropWhile, List.takeWhile_append_dropWhile]

end Input

namespace Grid

variable {m : Move} {s : State}

theorem cross_of_readNumber_eq_ok (hm : m.op = .inNumber) {v : Word} {i : Input}
    (h : s.input.readNumber = .ok (v, i)) :
    cross s m = ⟨.ok (some .inNumber), { s with
      position := m.target
      obstructions := 0
      steps := s.steps + 1
      stack := v :: s.stack
      input := i }, [.crossing s.position m]⟩ := by
  have hop : m.op.perform m.size { s with obstructions := 0 } =
      .ok { s with obstructions := 0, stack := v :: s.stack, input := i } := by
    rw [hm]
    exact congrArg (Except.map _) h
  rw [cross_of_ok hop, hm]

theorem cross_of_readNumber_eq_error (hm : m.op = .inNumber) {f : Fault}
    (h : s.input.readNumber = .error f) :
    cross s m =
      ⟨.error (.fault f), { s with obstructions := 0 }, [.crossing s.position m]⟩ := by
  refine cross_of_error ?_
  rw [hm]
  exact congrArg (Except.map _) h

/-- To read a number is to skip the longest run of blanks and to take the longest run of digits
behind it. -/
theorem cross_inNumber (hm : m.op = .inNumber) (s : State) :
    let o := cross s m
    let rest := s.input.unread
    let fails f := o.result = .error (.fault f) ∧ o.state = { s with obstructions := 0 }
    (s.input.text = none → fails (.noInput .inNumber)) ∧
    (s.input.text ≠ none → ∃ w d : List Char,
      LongestSpan Text.isBlank w rest ∧ LongestSpan Char.isDigit d (rest.drop w.length) ∧
      (d ≠ [] → ∃ v : Word, v.toNat = Nat.ofDigitChars 10 d 0 % 0x100000000 ∧
        o.result = .ok (some .inNumber) ∧
        o.state = { s with
          position := m.target
          obstructions := 0
          steps := s.steps + 1
          stack := v :: s.stack
          input := s.input.advance (w.length + d.length) }) ∧
      (d = [] → rest = w → fails (.endOfInput .inNumber)) ∧
      ∀ c after, d = [] → rest = w ++ c :: after → fails (.notDigit c)) := by
  intro o rest fails
  have hfails : ∀ f, s.input.readNumber = .error f → fails f := by
    intro f hf
    have hcross : o = _ := cross_of_readNumber_eq_error hm hf
    exact ⟨congrArg Outcome.result hcross, congrArg Outcome.state hcross⟩
  refine ⟨fun ht => hfails _ (Input.readNumber_of_text_eq_none ht), fun ht => ?_⟩
  have hdrop := drop_length_takeWhile Text.isBlank rest
  refine ⟨rest.takeWhile Text.isBlank, (rest.dropWhile Text.isBlank).takeWhile Char.isDigit,
    longestSpan_takeWhile _ _, hdrop ▸ longestSpan_takeWhile _ _, fun hd => ?_, fun hd hw => ?_,
    fun c after hd hw => ?_⟩
  · have hcross : o = _ :=
      cross_of_readNumber_eq_ok hm (Input.readNumber_of_takeWhile_ne_nil hd)
    exact ⟨_, Word.toNat_ofDigits _, congrArg Outcome.result hcross,
      congrArg Outcome.state hcross⟩
  · have hnil : rest.dropWhile Text.isBlank = [] := by rw [← hdrop, ← hw, List.drop_length]
    exact hfails _ (Input.readNumber_of_dropWhile_eq_nil ht hnil)
  · have hcons : rest.dropWhile Text.isBlank = c :: after := by
      rw [← hdrop]
      exact (congrArg _ hw).trans List.drop_left
    exact hfails _ (Input.readNumber_of_dropWhile_eq_cons ht hcons hd)

/-- A number of ten digits that does not fit a word. -/
theorem cross_inNumber_overlong :
    let s := State.initial (some "\t 4294967297;")
    let m : Move :=
      ⟨.origin, 1, .chromatic .red .normal, ⟨1, 0⟩, .chromatic .blue .light, .inNumber⟩
    (cross s m).result = .ok (some .inNumber) ∧ (cross s m).state.stack = [1] ∧
      (cross s m).state.input.unread = [';'] := by
  intro s m
  obtain ⟨-, hread⟩ := cross_inNumber (m := m) rfl s
  obtain ⟨w, d, hw, hd, hdigits, -⟩ := hread (by decide)
  obtain rfl := hw.unique (longestSpan_takeWhile _ _)
  obtain rfl := hd.unique (longestSpan_takeWhile _ _)
  obtain ⟨v, hv, hok, hstate⟩ := hdigits (by decide)
  obtain rfl : v = 1 := UInt32.toNat_inj.1 (hv.trans (by decide))
  rw [hstate]
  exact ⟨hok, rfl, by decide⟩

end Grid

/-- Words one after another as they are written, each behind its blanks. -/
def listing (items : List (List Char × Word)) : List Char :=
  items.flatMap fun item => item.1 ++ item.2.numeral

/-- Nothing but blanks stands before the numbers, at least one between any two of them, and no digit
follows the last. -/
structure Legible (items : List (List Char × Word)) (rest : List Char) : Prop where
  blank : ∀ item ∈ items, ∀ c ∈ item.1, Text.isBlank c = true
  apart : ∀ item ∈ items.tail, item.1 ≠ []
  rest_head : ∀ c ∈ rest.head?, c.isDigit = false

namespace Legible

variable {item : List Char × Word} {items : List (List Char × Word)} {rest : List Char}

theorem tail (h : Legible (item :: items) rest) : Legible items rest where
  blank other hm := h.blank other (List.mem_cons_of_mem _ hm)
  apart other hm := h.apart other (List.mem_of_mem_tail hm)
  rest_head := h.rest_head

/-- Digits do not run into what follows them. -/
theorem head?_listing (h : Legible (item :: items) rest) :
    ∀ c ∈ (listing items ++ rest).head?, c.isDigit = false := by
  intro c hc
  cases items with
  | nil => exact h.rest_head c hc
  | cons next items =>
    -- What follows is the first of the blanks before the next number, and no blank is a digit.
    have hne : next.1 ≠ [] := h.apart next List.mem_cons_self
    obtain ⟨b, bs, hb⟩ := List.exists_cons_of_ne_nil hne
    have hbc : b = c := by
      simpa [listing, hb] using hc
    subst hbc
    have hblank : Text.isBlank b = true :=
      h.blank next (List.mem_cons_of_mem _ List.mem_cons_self) b (hb ▸ List.mem_cons_self)
    by_contra hdigit
    have hnot := not_isBlank_of_isDigit (by simpa using hdigit)
    rw [hblank] at hnot
    cases hnot

theorem numeral (h : Legible (item :: items) rest) :
    Numeral item.1 item.2.numeral (listing items ++ rest) where
  blank := h.blank item List.mem_cons_self
  digit _ hc := Nat.isDigit_of_mem_toDigits (by decide) (by decide) hc
  digits_ne_nil := Nat.toDigits_ne_nil
  rest_head := h.head?_listing

end Legible

theorem listing_cons (item : List Char × Word) (items : List (List Char × Word)) :
    listing (item :: items) = item.1 ++ (item.2.numeral ++ listing items) := by
  rw [listing, List.flatMap_cons, List.append_assoc]
  rfl

theorem listing_cons_append (item : List Char × Word) (items : List (List Char × Word))
    (rest : List Char) : listing (item :: items) ++ rest =
      item.1 ++ (item.2.numeral ++ (listing items ++ rest)) := by
  rw [listing_cons, List.append_assoc, List.append_assoc]

namespace Op

/-- What is written goes behind the output; the text of a word is its digits. -/
theorem perform_outNumber {s : State} {v : Word} {below : Stack} (h : s.stack = v :: below)
    (size : Nat) : perform .outNumber size s =
      .ok { s with stack := below, output := s.output ++ String.ofList v.numeral } := by
  simp only [perform, State.pop, h, Except.map, State.write, Word.numeral,
    Nat.toString_eq_ofList_toDigits]

/-- The first of the words is read, and the cursor comes to stand behind its digits. -/
theorem perform_inNumber_of_legible {s : State} {item : List Char × Word}
    {items : List (List Char × Word)} {rest : List Char} (h : Legible (item :: items) rest)
    (hu : s.input.unread = listing (item :: items) ++ rest) (size : Nat) :
    perform .inNumber size s = .ok { s with
      stack := item.2 :: s.stack
      input := s.input.advance (item.1.length + item.2.numeral.length) } := by
  have hsplit := hu.trans (listing_cons_append item items rest)
  have hread : s.input.readNumber = .ok (item.2, _) := Input.readNumber_eq_ok_iff.2
    ⟨_, _, _, h.numeral, hsplit, (Word.ofDigits_numeral item.2).symm, rfl⟩
  exact perform_inNumber_eq_ok_iff.2 ⟨_, _, hread, rfl⟩

theorem performAll_inNumber {items : List (List Char × Word)} {rest : List Char} {s : State}
    {tasks : List (Op × Nat)} (h : Legible items rest) (hu : s.input.unread = listing items ++ rest)
    (ht : tasks.map (·.1) = List.replicate items.length .inNumber) :
    (performAll tasks).run s = .ok () { s with
      stack := (items.map (·.2)).reverse ++ s.stack
      input := s.input.advance (listing items).length } := by
  induction items generalizing s tasks with
  | nil =>
    obtain rfl : tasks = [] := List.map_eq_nil_iff.1 ht
    rfl
  | cons item items ih =>
    obtain ⟨size, later, rfl, hlater⟩ := exists_of_map_fst_eq_cons ht
    have hread := perform_inNumber_of_legible h hu size
    have hrest := Input.unread_advance_numeral (hu.trans (listing_cons_append item items rest))
    rw [performAll_cons_of_ok hread, ih h.tail hrest hlater]
    simp only [Input.advance_advance, listing_cons, List.length_append, List.map_cons,
      List.reverse_cons, List.append_assoc, List.singleton_append, Nat.add_assoc]

/-- Numbers that were written one after another, with blanks between them, are read as they were
written, and what follows them is left. -/
theorem performAll_inNumber_listing :
    (∀ (v : Word) (s : State) (below : Stack) (size : Nat), s.stack = v :: below →
      (handler .outNumber size).run s =
        .ok () { s with stack := below, output := s.output ++ String.ofList v.numeral }) ∧
    ∀ (items : List (List Char × Word)) (rest : List Char), Legible items rest →
      ∀ (s : State) (tasks : List (Op × Nat)), s.input.unread = listing items ++ rest →
        tasks.map (·.1) = List.replicate items.length .inNumber →
        let s' := { s with
          stack := (items.map (·.2)).reverse ++ s.stack
          input := s.input.advance (listing items).length }
        (performAll tasks).run s = .ok () s' ∧ s'.input.unread = rest := by
  refine ⟨fun v s below size h => run_handler_eq_ok_iff.2 (perform_outNumber h size),
    fun items rest h s tasks hu ht => ?_⟩
  exact ⟨performAll_inNumber h hu ht, Input.unread_advance_length hu⟩

theorem performAll_inNumber_listing_three :
    let s : State := { State.initial (some "7 \n4294967295\t0x") with stack := [5] }
    let items : List (List Char × Word) := [([], 7), ([' ', '\n'], 0xffffffff), (['\t'], 0)]
    let tasks : List (Op × Nat) := [(.inNumber, 1), (.inNumber, 4), (.inNumber, 2)]
    Legible items ['x'] ∧ s.input.unread = listing items ++ ['x'] ∧
      (performAll tasks).run s =
        .ok () { s with stack := [0, 0xffffffff, 7, 5], input := s.input.advance 15 } ∧
      (s.input.advance 15).unread = ['x'] ∧
      (handler .outNumber 1).run s = .ok () { s with stack := [], output := "5" } := by
  intro s items tasks
  have hblank : items.all (fun item => item.1.all Text.isBlank) = true := by decide
  have hapart : items.tail.all (fun item => item.1 != []) = true := by decide
  have h : Legible items ['x'] := by
    refine ⟨fun item hm => ?_, fun item hm => ?_, by simp⟩
    · exact List.all_eq_true.1 (List.all_eq_true.1 hblank item hm)
    · exact bne_iff_ne.1 (List.all_eq_true.1 hapart item hm)
  have hu : s.input.unread = listing items ++ ['x'] := by decide
  obtain ⟨hwrite, hread⟩ := performAll_inNumber_listing
  obtain ⟨hall, hrest⟩ := hread items ['x'] h s tasks hu rfl
  exact ⟨h, hu, hall, hrest, hwrite 5 s [] 1 rfl⟩

end Op
end Piet
