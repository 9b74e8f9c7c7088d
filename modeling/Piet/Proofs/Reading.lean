import Piet.Proofs.Operation
import Mathlib.Data.List.TakeWhile

/-! What reading takes from the input: a character, or blanks and digits that no digit follows. Text
which arrives later is read later. -/
namespace Piet

/-- Text that begins with a number: blanks, at least one digit, and a rest that does not go on with
another digit. -/
structure Numeral (blanks digits rest : List Char) : Prop where
  blank : ∀ c ∈ blanks, Text.isBlank c = true
  digit : ∀ c ∈ digits, c.isDigit = true
  digits_ne_nil : digits ≠ []
  rest_head : ∀ c ∈ rest.head?, c.isDigit = false

theorem not_isBlank_of_isDigit {c : Char} (h : c.isDigit = true) : Text.isBlank c = false := by
  have hc : 48 ≤ c.toNat ∧ c.toNat ≤ 57 := by simpa [Char.isDigit, UInt32.le_iff_toNat_le] using h
  simp only [Text.isBlank, Text.wideBlanks, List.contains_eq_mem, List.mem_cons, List.not_mem_nil,
    or_false, Bool.or_eq_false_iff, Bool.and_eq_false_iff, decide_eq_false_iff_not]
  omega

theorem map_eq_ok_iff {ε α β : Type} {f : α → β} {a : Except ε α} {b : β} :
    a.map f = .ok b ↔ ∃ x, a = .ok x ∧ f x = b := by
  cases a <;> simp [Except.map]

section Span

variable {α : Type} {p : α → Bool} {as bs : List α}

theorem takeWhile_append_of_stop (ha : ∀ a ∈ as, p a = true) (hb : ∀ b ∈ bs.head?, p b = false) :
    (as ++ bs).takeWhile p = as := by
  rw [List.takeWhile_append_of_pos ha]
  cases bs with
  | nil => simp
  | cons b bs => rw [List.takeWhile_cons_of_neg (by simp [hb b rfl]), List.append_nil]

theorem dropWhile_append_of_stop (ha : ∀ a ∈ as, p a = true) (hb : ∀ b ∈ bs.head?, p b = false) :
    (as ++ bs).dropWhile p = bs := by
  rw [List.dropWhile_append_of_pos ha]
  cases bs with
  | nil => rfl
  | cons b bs => rw [List.dropWhile_cons_of_neg (by simp [hb b rfl])]

theorem head?_dropWhile_eq_false (as : List α) {b : α} (h : b ∈ (as.dropWhile p).head?) :
    p b = false := by
  have hstop := List.head?_dropWhile_not p as
  rw [Option.mem_def] at h
  rwa [h] at hstop

end Span

namespace Numeral

variable {blanks digits rest cs : List Char}

/-- To skip blanks and take digits finds the number. -/
theorem of_takeWhile (h : (cs.dropWhile Text.isBlank).takeWhile Char.isDigit ≠ []) :
    Numeral (cs.takeWhile Text.isBlank) ((cs.dropWhile Text.isBlank).takeWhile Char.isDigit)
      ((cs.dropWhile Text.isBlank).dropWhile Char.isDigit) where
  blank _ hc := List.mem_takeWhile_imp hc
  digit _ hc := List.mem_takeWhile_imp hc
  digits_ne_nil := h
  rest_head _ hc := head?_dropWhile_eq_false _ hc

theorem not_isBlank_head (h : Numeral blanks digits rest) :
    ∀ c ∈ (digits ++ rest).head?, Text.isBlank c = false := by
  obtain ⟨d, ds, rfl⟩ := List.exists_cons_of_ne_nil h.digits_ne_nil
  rintro _ ⟨⟩
  exact not_isBlank_of_isDigit (h.digit d List.mem_cons_self)

theorem takeWhile_isBlank (h : Numeral blanks digits rest) :
    (blanks ++ (digits ++ rest)).takeWhile Text.isBlank = blanks :=
  takeWhile_append_of_stop h.blank h.not_isBlank_head

theorem dropWhile_isBlank (h : Numeral blanks digits rest) :
    (blanks ++ (digits ++ rest)).dropWhile Text.isBlank = digits ++ rest :=
  dropWhile_append_of_stop h.blank h.not_isBlank_head

theorem takeWhile_isDigit (h : Numeral blanks digits rest) :
    (digits ++ rest).takeWhile Char.isDigit = digits :=
  takeWhile_append_of_stop h.digit h.rest_head

/-- Later text continues the rest, unless nothing is left and it begins with a digit. -/
theorem append (h : Numeral blanks digits rest) {more : List Char}
    (hmore : rest = [] → ∀ c ∈ more.head?, c.isDigit = false) :
    Numeral blanks digits (rest ++ more) where
  blank := h.blank
  digit := h.digit
  digits_ne_nil := h.digits_ne_nil
  rest_head := by
    cases rest with
    | nil => exact hmore rfl
    | cons c cs => exact h.rest_head

end Numeral

namespace Input

variable {i i' : Input} {v : Word}

theorem exists_text_of_unread_ne_nil (h : i.unread ≠ []) : ∃ cs, i.text = some cs := by
  cases ht : i.text with
  | none => exact absurd (by rw [unread, ht]; exact List.drop_nil) h
  | some cs => exact ⟨cs, rfl⟩

theorem readChar_eq_ok_iff {c : Char} :
    i.readChar = .ok (c, i') ↔ (∃ rest, i.unread = c :: rest) ∧ i' = i.advance 1 := by
  constructor
  · intro h
    obtain ⟨hc, hi⟩ := readChar_eq_ok h
    exact ⟨List.head?_eq_some_iff.1 hc, hi⟩
  · rintro ⟨⟨rest, hu⟩, rfl⟩
    obtain ⟨cs, ht⟩ := exists_text_of_unread_ne_nil (i := i) (by simp [hu])
    rw [readChar, ht, hu]

/-- A number is read where one is written, and the cursor comes to stand behind it. -/
theorem readNumber_eq_ok_iff : i.readNumber = .ok (v, i') ↔
    ∃ blanks digits rest, Numeral blanks digits rest ∧ i.unread = blanks ++ (digits ++ rest) ∧
      v = .ofDigits digits ∧ i' = i.advance (blanks.length + digits.length) := by
  constructor
  · intro h
    unfold readNumber at h
    dsimp only at h
    split at h
    · cases h
    · cases h
    · cases h
    · next hend hstop =>
      cases h
      have hne : (i.unread.dropWhile Text.isBlank).takeWhile Char.isDigit ≠ [] := by
        intro hnil
        cases hrest : i.unread.dropWhile Text.isBlank with
        | nil => exact hend hnil hrest
        | cons c cs => exact hstop c cs hnil hrest
      refine ⟨_, _, _, .of_takeWhile hne, ?_, rfl, rfl⟩
      rw [List.takeWhile_append_dropWhile, List.takeWhile_append_dropWhile]
  · rintro ⟨blanks, digits, rest, hn, hu, rfl, rfl⟩
    obtain ⟨cs, ht⟩ := exists_text_of_unread_ne_nil (i := i) (by simp [hu, hn.digits_ne_nil])
    unfold readNumber
    dsimp only
    rw [ht, hu, hn.takeWhile_isBlank, hn.dropWhile_isBlank, hn.takeWhile_isDigit]
    obtain ⟨d, ds, rfl⟩ := List.exists_cons_of_ne_nil hn.digits_ne_nil
    rfl

theorem advance_advance (i : Input) (m n : Nat) : (i.advance m).advance n = i.advance (m + n) := by
  unfold advance
  rw [Nat.add_assoc]

theorem unread_advance_length {read rest : List Char} (hu : i.unread = read ++ rest) :
    (i.advance read.length).unread = rest := by
  rw [unread_advance, hu]
  exact List.drop_left

/-- Behind the number stands what was its rest. -/
theorem unread_advance_numeral {blanks digits rest : List Char}
    (hu : i.unread = blanks ++ (digits ++ rest)) :
    (i.advance (blanks.length + digits.length)).unread = rest := by
  rw [← advance_advance]
  exact unread_advance_length (unread_advance_length hu)

theorem unread_feed_of_ne_nil (h : i.unread ≠ []) (text : String) :
    (i.feed text).unread = i.unread ++ text.toList := by
  refine unread_feed ?_ text
  by_contra hcursor
  exact h (List.drop_eq_nil_of_le (by omega))

theorem readChar_feed {c : Char} (h : i.readChar = .ok (c, i')) (text : String) :
    (i.feed text).readChar = .ok (c, i'.feed text) := by
  obtain ⟨⟨rest, hu⟩, rfl⟩ := readChar_eq_ok_iff.1 h
  refine readChar_eq_ok_iff.2 ⟨⟨rest ++ text.toList, ?_⟩, rfl⟩
  rw [unread_feed_of_ne_nil (by simp [hu]), hu, List.cons_append]

/-- A number that was read is read as well when more text has arrived, unless it ended where the
text did and more digits follow. -/
theorem readNumber_feed_ok (h : i.readNumber = .ok (v, i')) {text : String}
    (hmore : i'.unread = [] → ∀ c ∈ text.toList.head?, c.isDigit = false) :
    (i.feed text).readNumber = .ok (v, i'.feed text) := by
  obtain ⟨blanks, digits, rest, hn, hu, rfl, rfl⟩ := readNumber_eq_ok_iff.1 h
  rw [unread_advance_numeral hu] at hmore
  refine readNumber_eq_ok_iff.2 ⟨blanks, digits, rest ++ text.toList, hn.append hmore, ?_, rfl, rfl⟩
  rw [unread_feed_of_ne_nil (by simp [hu, hn.digits_ne_nil]), hu]
  simp only [List.append_assoc]

end Input

namespace Op

variable {op : Op} {size : Nat} {s s' : State}

theorem perform_inChar_eq_ok_iff : perform .inChar size s = .ok s' ↔
    ∃ c i, s.input.readChar = .ok (c, i) ∧ s' = ({ s with input := i } : State).push c.val := by
  change s.input.readChar.map _ = _ ↔ _
  rw [map_eq_ok_iff, Prod.exists]
  simp only [eq_comm]

theorem perform_inNumber_eq_ok_iff : perform .inNumber size s = .ok s' ↔
    ∃ v i, s.input.readNumber = .ok (v, i) ∧ s' = ({ s with input := i } : State).push v := by
  change s.input.readNumber.map _ = _ ↔ _
  rw [map_eq_ok_iff, Prod.exists]
  simp only [eq_comm]

/-- Operations that do not read leave the input as it is. -/
theorem input_eq_of_perform (hn : op ≠ .inNumber) (hc : op ≠ .inChar)
    (h : op.perform size s = .ok s') : s'.input = s.input := by
  have hsame : op.perform size s = (op.perform size s).map fun s' => { s' with input := s.input } :=
    perform_input hn hc s.input
  rw [h] at hsame
  rw [Except.ok.inj hsame]

/-- An operation that succeeded does so as well when text has arrived, provided that the text does
not go on with the number that was read. -/
theorem perform_feed_ok (h : op.perform size s = .ok s') {text : String}
    (hmore : op = .inNumber → s'.input.unread = [] → ∀ c ∈ text.toList.head?, c.isDigit = false) :
    op.perform size (s.feed text) = .ok (s'.feed text) := by
  by_cases hn : op = .inNumber
  · subst hn
    obtain ⟨v, i, hr, rfl⟩ := perform_inNumber_eq_ok_iff.1 h
    exact perform_inNumber_eq_ok_iff.2 ⟨v, _, Input.readNumber_feed_ok hr (hmore rfl), rfl⟩
  · by_cases hc : op = .inChar
    · subst hc
      obtain ⟨c, i, hr, rfl⟩ := perform_inChar_eq_ok_iff.1 h
      exact perform_inChar_eq_ok_iff.2 ⟨c, _, Input.readChar_feed hr text, rfl⟩
    · rw [State.feed, perform_input hn hc, h, State.feed, input_eq_of_perform hn hc h]
      rfl

end Op
end Piet
