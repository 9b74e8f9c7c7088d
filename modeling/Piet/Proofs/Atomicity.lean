import Piet.Operation
import Mathlib.Data.List.Rotate

/-! Operations as transactions. Handlers change the state piece by piece, but none of them fails
once it has changed anything. -/
namespace Piet

namespace Stack

/-- Bury the top value beneath `depth - 1` others, `rolls` times over. -/
def roll (s : Stack) (depth rolls : Nat) : Stack :=
  (s.take depth).rotateLeft rolls ++ s.drop depth

theorem rotateLeft_eq_rotate (s : Stack) (n : Nat) : List.rotateLeft s n = List.rotate s n := by
  unfold List.rotateLeft
  dsimp only
  split
  · next hlength =>
    -- Fewer than two values look the same whichever way they are turned.
    rcases s with _ | ⟨v, _ | ⟨w, rest⟩⟩
    · simp
    · simp
    · simp at hlength
  · exact List.rotate_eq_drop_append_take_mod.symm

theorem roll_zero (s : Stack) (rolls : Nat) : s.roll 0 rolls = s := rfl

theorem roll_eq_of_le {s : Stack} {depth : Nat} (hle : depth ≤ s.length) (rolls : Nat) :
    s.roll depth rolls = (s.take depth).drop (rolls % depth) ++
      (s.take depth).take (rolls % depth) ++ s.drop depth := by
  have htop : (s.take depth).length = depth := List.length_take_of_le hle
  rw [roll, rotateLeft_eq_rotate, List.rotate_eq_drop_append_take_mod, htop]

end Stack

namespace Input

def readChar (i : Input) : Except Fault (Char × Input) :=
  match i.text, i.unread with
  | none, _ => .error (.noInput .inChar)
  | some _, [] => .error (.endOfInput .inChar)
  | some _, c :: _ => .ok (c, i.advance 1)

/-- Skip blanks and take as many digits as follow. -/
def readNumber (i : Input) : Except Fault (Word × Input) :=
  let blanks := i.unread.takeWhile Text.isBlank
  let rest := i.unread.dropWhile Text.isBlank
  match i.text, rest.takeWhile Char.isDigit, rest with
  | none, _, _ => .error (.noInput .inNumber)
  | some _, [], [] => .error (.endOfInput .inNumber)
  | some _, [], c :: _ => .error (.notDigit c)
  | some _, digits, _ =>
    .ok (.ofDigits digits, i.advance (blanks.length + digits.length))

end Input

namespace State

def underflow (s : State) (op : Op) (needed : Nat) : Fault :=
  .stackUnderflow op needed s.stack.length

def pop (s : State) (op : Op) : Except Fault (Word × State) :=
  match s.stack with
  | a :: rest => .ok (a, { s with stack := rest })
  | [] => .error (s.underflow op 1)

/-- Replace the two top values by one; the second value is the left operand. -/
def combine (s : State) (op : Op) (f : Word → Word → Word) : Except Fault State :=
  match s.stack with
  | a :: b :: rest => .ok { s with stack := f b a :: rest }
  | _ => .error (s.underflow op 2)

/-- As `combine`, but the right operand must not be zero. -/
def combineNonzero (s : State) (op : Op) (zero : Fault) (f : Word → Word → Word) :
    Except Fault State :=
  match s.stack with
  | a :: b :: rest => if a = 0 then .error zero else .ok { s with stack := f b a :: rest }
  | _ => .error (s.underflow op 2)

/-- Only a Unicode scalar value can be written as a character. -/
def writeChar (s : State) (v : Word) : Except Fault State :=
  match v.char? with
  | some c => .ok (s.write c.toString)
  | none => .error (.notScalar v)

/-- The operands are removed before the values below them are rolled. -/
def roll (s : State) : Except Fault State :=
  match s.stack with
  | rolls :: depth :: rest =>
    if depth.toNat ≤ rest.length then
      .ok { s with stack := Stack.roll rest depth.toNat rolls.toNat }
    else .error (.rollTooDeep depth.toNat rest.length)
  | _ => .error (s.underflow .roll 2)

end State

/-- What an operation makes of a whole state. It is what its handler makes of it: `Op.run_handler`. -/
def Op.perform (op : Op) (size : Nat) (s : State) : Except Fault State :=
  match op with
  | .none => .ok s
  | .push => .ok (s.push (.ofNat size))
  | .pop => (s.pop op).map fun (_, s) => s
  | .add => s.combine op (· + ·)
  | .subtract => s.combine op (· - ·)
  | .multiply => s.combine op (· * ·)
  | .divide => s.combineNonzero op .divideByZero (· / ·)
  | .mod => s.combineNonzero op .modByZero (· % ·)
  | .not => (s.pop op).map fun (a, s) => s.push (if a = 0 then 1 else 0)
  | .greater => s.combine op fun b a => if b > a then 1 else 0
  | .pointer => (s.pop op).map fun (a, s) =>
      { s with heading.direction := s.heading.direction.clockwise a.toNat }
  | .switch => (s.pop op).map fun (a, s) =>
      if a % 2 = 0 then s else { s with heading.chooser := s.heading.chooser.flip }
  | .duplicate => (s.pop op).map fun (a, s) => (s.push a).push a
  | .roll => s.roll
  | .inNumber => s.input.readNumber.map fun (v, input) => { s with input }.push v
  | .inChar => s.input.readChar.map fun (c, input) => { s with input }.push c.val
  | .outNumber => (s.pop op).map fun (a, s) => s.write (toString a.toNat)
  | .outChar => (s.pop op).bind fun (a, s) => s.writeChar a

namespace Handler

/-- How a handler ends that does either all of its work or nothing. -/
def allOrNothing (s : State) : Except Fault State → EStateM.Result Error State Unit
  | .ok s' => .ok () s'
  | .error f => .error (.fault f) s

variable {α β : Type} {x : Handler α} {k : α → Handler β} {s s' : State} {a b v : Word} {rest : Stack}
  {op : Op} {count : Nat} {f : Word → Word → Word}

theorem run_bind_of_ok {r : α} (h : x.run s = .ok r s') : (x >>= k).run s = (k r).run s' := by
  rw [EStateM.run_bind, h]

theorem run_bind_of_error {e : Error} (h : x.run s = .error e s') :
    (x >>= k).run s = .error e s' := by
  rw [EStateM.run_bind, h]

theorem run_require_of_le (h : count ≤ s.stack.length) : (require op count).run s = .ok () s := by
  rw [require, run_bind_of_ok (EStateM.run_get s), if_neg (Nat.not_lt.2 h)]
  rfl

theorem run_require_of_lt (h : s.stack.length < count) :
    (require op count).run s = .error (.fault (.stackUnderflow op count s.stack.length)) s := by
  rw [require, run_bind_of_ok (EStateM.run_get s), if_pos h]
  rfl

theorem run_peek {i : Nat} (h : s.stack[i]? = some v) : (peek i).run s = .ok v s := by
  rw [peek, run_bind_of_ok (EStateM.run_get s), h]
  rfl

theorem run_pop (h : s.stack = v :: rest) : pop.run s = .ok v { s with stack := rest } := by
  rw [pop, run_bind_of_ok (EStateM.run_get s), h]
  rfl

theorem run_popTwo (h : s.stack = a :: b :: rest) :
    (popTwo op).run s = .ok (a, b) { s with stack := rest } := by
  have hle : 2 ≤ s.stack.length := by simp [h]
  rw [popTwo, run_bind_of_ok (run_require_of_le hle), run_bind_of_ok (run_pop h),
    run_bind_of_ok (run_pop rfl)]
  rfl

theorem run_popTwo_of_lt (h : s.stack.length < 2) :
    (popTwo op).run s = .error (.fault (s.underflow op 2)) s :=
  run_bind_of_error (run_require_of_lt h)

/-- A handler that goes on without fail after taking the top value. -/
theorem run_unary {use : Word → Handler Unit} {done : Word × State → State}
    (h : ∀ a s, (use a).run s = .ok () (done (a, s))) (op : Op) (s : State) :
    (unary op use).run s = allOrNothing s ((s.pop op).map done) := by
  unfold unary State.pop
  cases hs : s.stack with
  | nil =>
    rw [run_bind_of_error (run_require_of_lt (by simp [hs]))]
    rfl
  | cons a rest =>
    rw [run_bind_of_ok (run_require_of_le (by simp [hs])), run_bind_of_ok (run_pop hs), h]
    rfl

theorem run_binary (op : Op) (f : Word → Word → Word) (s : State) :
    (binary op f).run s = allOrNothing s (s.combine op f) := by
  unfold binary State.combine
  rcases hs : s.stack with _ | ⟨a, _ | ⟨b, rest⟩⟩
  · exact run_bind_of_error (run_popTwo_of_lt (by simp [hs]))
  · exact run_bind_of_error (run_popTwo_of_lt (by simp [hs]))
  · rw [run_bind_of_ok (run_popTwo hs)]
    rfl

theorem run_binaryNonzero (op : Op) (zero : Fault) (f : Word → Word → Word) (s : State) :
    (binaryNonzero op zero f).run s = allOrNothing s (s.combineNonzero op zero f) := by
  have hbinary := run_binary op f s
  unfold State.combine at hbinary
  unfold binaryNonzero State.combineNonzero
  rcases hs : s.stack with _ | ⟨a, _ | ⟨b, rest⟩⟩
  · exact run_bind_of_error (run_require_of_lt (by simp [hs]))
  · exact run_bind_of_error (run_require_of_lt (by simp [hs]))
  · have hpeek : (peek 0).run s = .ok a s := run_peek (by rw [hs]; rfl)
    rw [hs] at hbinary
    rw [run_bind_of_ok (run_require_of_le (by simp [hs])), run_bind_of_ok hpeek]
    by_cases ha : a = 0
    · simp only [if_pos ha]
      rfl
    · simp only [if_neg ha]
      exact hbinary

theorem run_duplicate (s : State) :
    duplicate.run s = allOrNothing s ((s.pop .duplicate).map fun (a, s) => (s.push a).push a) := by
  unfold duplicate State.pop
  cases hs : s.stack with
  | nil => exact run_bind_of_error (run_require_of_lt (by simp [hs]))
  | cons a rest =>
    have hpeek : (peek 0).run s = .ok a s := run_peek (by rw [hs]; rfl)
    have hpushed : s.push a = (({ s with stack := rest } : State).push a).push a := by
      rw [State.push, hs]
      rfl
    rw [run_bind_of_ok (run_require_of_le (by simp [hs])), run_bind_of_ok hpeek]
    exact congrArg (EStateM.Result.ok ()) hpushed

theorem run_rotate (rolls depth : Word) (hle : depth.toNat ≤ s.stack.length) :
    (rotate rolls depth).run s =
      .ok () { s with stack := s.stack.roll depth.toNat rolls.toNat } := by
  unfold rotate
  by_cases hdepth : depth = 0
  · subst hdepth
    rw [if_neg (not_not.2 rfl), UInt32.toNat_zero, Stack.roll_zero]
    rfl
  · rw [if_pos hdepth, UInt32.toNat_mod, Stack.roll_eq_of_le hle]
    by_cases hr : rolls.toNat % depth.toNat = 0
    · rw [if_neg (not_not.2 hr), hr, List.drop_zero, List.take_zero, List.append_nil,
        List.take_append_drop]
      rfl
    · rw [if_pos hr]
      rfl

theorem run_roll (s : State) : roll.run s = allOrNothing s s.roll := by
  unfold roll State.roll
  rcases hs : s.stack with _ | ⟨rolls, _ | ⟨depth, rest⟩⟩
  · exact run_bind_of_error (run_require_of_lt (by simp [hs]))
  · exact run_bind_of_error (run_require_of_lt (by simp [hs]))
  · have hrolls : (peek 0).run s = .ok rolls s := run_peek (by rw [hs]; rfl)
    have hdepth : (peek 1).run s = .ok depth s := run_peek (by rw [hs]; rfl)
    have havailable : s.stack.length - 2 = rest.length := by simp [hs]
    rw [run_bind_of_ok (run_require_of_le (by simp [hs])), run_bind_of_ok hrolls,
      run_bind_of_ok hdepth, run_bind_of_ok (EStateM.run_get s)]
    simp only [havailable]
    by_cases hle : depth.toNat ≤ rest.length
    · rw [if_neg (Nat.not_lt.2 hle), if_pos hle, run_bind_of_ok (EStateM.run_modify _ s),
        run_rotate rolls depth (by simpa [hs] using hle)]
      simp only [hs]
      rfl
    · rw [if_pos (Nat.not_le.1 hle), if_neg hle]
      rfl

theorem run_turn (a : Word) (s : State) : (turn a).run s =
    .ok () { s with heading.direction := s.heading.direction.clockwise a.toNat } := by
  have hmod : ((a % 4).toNat : Int) % 4 = a.toNat % 4 := by
    rw [UInt32.toNat_mod, Int.natCast_emod]
    exact Int.emod_emod_of_dvd _ (Int.dvd_refl 4)
  have hturns : s.heading.direction.clockwise (a % 4).toNat =
      s.heading.direction.clockwise a.toNat := by
    unfold Direction.clockwise
    rw [hmod]
  exact congrArg (fun d => EStateM.Result.ok () { s with heading.direction := d }) hturns

theorem run_switch (a : Word) (s : State) : (switch a).run s =
    .ok () (if a % 2 = 0 then s else { s with heading.chooser := s.heading.chooser.flip }) := by
  unfold switch
  by_cases ha : a % 2 = 0
  · rw [if_neg (not_not.2 ha), if_pos ha]
    rfl
  · rw [if_pos ha, if_neg ha]
    rfl

theorem run_unread_of_text_eq_none (ht : s.input.text = none) :
    (unread op).run s = .error (.fault (.noInput op)) s := by
  rw [unread, run_bind_of_ok (EStateM.run_get s)]
  simp only [ht]
  rfl

theorem run_unread_of_unread_eq_nil {text : List Char} (ht : s.input.text = some text)
    (hu : s.input.unread = []) : (unread op).run s = .error (.fault (.endOfInput op)) s := by
  rw [unread, run_bind_of_ok (EStateM.run_get s)]
  simp only [ht, hu]
  rfl

theorem run_unread_of_unread_eq_cons {text cs : List Char} {c : Char}
    (ht : s.input.text = some text) (hu : s.input.unread = c :: cs) :
    (unread op).run s = .ok (c, cs) s := by
  rw [unread, run_bind_of_ok (EStateM.run_get s)]
  simp only [ht, hu]
  rfl

theorem run_readNumber (s : State) : readNumber.run s = allOrNothing s
    (s.input.readNumber.map fun (v, input) => ({ s with input } : State).push v) := by
  unfold readNumber Input.readNumber
  cases ht : s.input.text with
  | none => exact run_bind_of_error (run_unread_of_text_eq_none ht)
  | some text =>
    cases hu : s.input.unread with
    | nil => exact run_bind_of_error (run_unread_of_unread_eq_nil ht hu)
    | cons c cs =>
      -- The handler counts the blanks by what is left without them.
      have hblanks : ((c :: cs).takeWhile Text.isBlank).length =
          (c :: cs).length - ((c :: cs).dropWhile Text.isBlank).length :=
        Nat.eq_sub_of_add_eq (Text.length_takeWhile_isBlank_add _)
      rw [run_bind_of_ok (run_unread_of_unread_eq_cons ht hu)]
      dsimp only
      rw [hblanks]
      generalize (c :: cs).dropWhile Text.isBlank = stripped
      cases stripped.takeWhile Char.isDigit with
      | nil => cases stripped <;> rfl
      | cons d ds => rfl

theorem run_readChar (s : State) : readChar.run s = allOrNothing s
    (s.input.readChar.map fun (c, input) => ({ s with input } : State).push c.val) := by
  unfold readChar Input.readChar
  cases ht : s.input.text with
  | none => exact run_bind_of_error (run_unread_of_text_eq_none ht)
  | some text =>
    cases hu : s.input.unread with
    | nil => exact run_bind_of_error (run_unread_of_unread_eq_nil ht hu)
    | cons c cs =>
      rw [run_bind_of_ok (run_unread_of_unread_eq_cons ht hu)]
      rfl

theorem run_writeChar (s : State) : writeChar.run s = allOrNothing s
    ((s.pop .outChar).bind fun (a, s) => s.writeChar a) := by
  unfold writeChar State.pop
  cases hs : s.stack with
  | nil => exact run_bind_of_error (run_require_of_lt (by simp [hs]))
  | cons a rest =>
    have hpeek : (peek 0).run s = .ok a s := run_peek (by rw [hs]; rfl)
    rw [run_bind_of_ok (run_require_of_le (by simp [hs])), run_bind_of_ok hpeek]
    change _ = allOrNothing s (State.writeChar _ a)
    unfold State.writeChar
    cases a.char? with
    | none => rfl
    | some c => exact run_bind_of_ok (run_pop hs)

end Handler

namespace Op

/-- No operation fails once it has changed anything, and all fail with faults. -/
theorem run_handler (op : Op) (size : Nat) (s : State) :
    (op.handler size).run s = Handler.allOrNothing s (op.perform size s) := by
  cases op with
  | none | push => rfl
  | pop | not | outNumber =>
    refine Handler.run_unary (fun a s => ?_) _ s
    rfl
  | pointer => exact Handler.run_unary Handler.run_turn .pointer s
  | switch => exact Handler.run_unary Handler.run_switch .switch s
  | add | subtract | multiply => exact Handler.run_binary _ _ s
  | greater => exact Handler.run_binary .greater (fun b a => if b > a then 1 else 0) s
  | divide | mod => exact Handler.run_binaryNonzero _ _ _ s
  | duplicate => exact Handler.run_duplicate s
  | roll => exact Handler.run_roll s
  | inNumber => exact Handler.run_readNumber s
  | inChar => exact Handler.run_readChar s
  | outChar => exact Handler.run_writeChar s

variable {op : Op} {size : Nat} {s s' : State}

theorem run_handler_eq_ok_iff :
    (op.handler size).run s = .ok () s' ↔ op.perform size s = .ok s' := by
  rw [run_handler]
  cases op.perform size s <;> simp [Handler.allOrNothing]

theorem run_handler_eq_error_iff {e : Error} : (op.handler size).run s = .error e s' ↔
    (∃ f, op.perform size s = .error f ∧ e = .fault f) ∧ s' = s := by
  rw [run_handler]
  cases op.perform size s <;> simp [Handler.allOrNothing, eq_comm]

theorem run_handler_of_error {f : Fault} (h : op.perform size s = .error f) :
    (op.handler size).run s = .error (.fault f) s :=
  run_handler_eq_error_iff.2 ⟨⟨f, h, rfl⟩, rfl⟩

end Op
end Piet
