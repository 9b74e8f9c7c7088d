import Piet.Proofs.Feeding
import Mathlib.Data.Int.ModEq

/-! Wrapping early or late. A stack that wraps at every push holds what one that never wraps would
hold, reduced once. -/
namespace Piet

/-- Operations that push, move, add, subtract or multiply values, or count them modulo four or two. -/
inductive RingOp where
  | push | pop | add | subtract | multiply | duplicate | pointer | switch
  deriving DecidableEq

/-- A heading and a stack of integers that never wrap. -/
structure Unbounded where
  heading : Heading
  stack : List Int

namespace RingOp

def op : RingOp → Op
  | push => .push
  | pop => .pop
  | add => .add
  | subtract => .subtract
  | multiply => .multiply
  | duplicate => .duplicate
  | pointer => .pointer
  | switch => .switch

/-- How many values the operation looks for on the stack. -/
def arity : RingOp → Nat
  | push => 0
  | pop | duplicate | pointer | switch => 1
  | add | subtract | multiply => 2

end RingOp

namespace Direction

/-- A quarter turn counterclockwise. -/
def turnBack : Direction → Direction
  | .right => .up
  | .up => .left
  | .left => .down
  | .down => .right

/-- As many quarter turns as the number says, modulo four: clockwise, but counterclockwise if the
number is negative. -/
def rotate (d : Direction) : Int → Direction
  | .ofNat n => Nat.repeat turn (n % 4) d
  | .negSucc n => Nat.repeat turnBack ((n + 1) % 4) d

theorem rotate_eq_clockwise (d : Direction) (n : Int) : d.rotate n = d.clockwise n := by
  cases n with
  | ofNat n =>
    have hn : (Int.ofNat n % 4).toNat = n % 4 := rfl
    rw [rotate, clockwise, hn]
  | negSucc n =>
    have hback : ∀ k < 4, Nat.repeat turnBack k d = Nat.repeat turn ((4 - k) % 4) d := by
      cases d <;> decide
    have hn : (Int.negSucc n % 4).toNat = (4 - (n + 1) % 4) % 4 := by
      rw [Int.negSucc_eq]
      omega
    rw [rotate, clockwise, hn, hback _ (by omega)]

/-- The range of a word is divisible by four, so nothing is lost for a turn. -/
theorem clockwise_congr (d : Direction) {m n : Int} (h : m ≡ n [ZMOD 0x100000000]) :
    d.clockwise m = d.clockwise n := by
  have h4 : m % 4 = n % 4 := h.of_dvd (by decide)
  rw [clockwise, clockwise, h4]

end Direction

theorem Word.toNat_ofInt (n : Int) : ((UInt32.ofInt n).toNat : Int) ≡ n [ZMOD 0x100000000] := by
  rw [UInt32.ofInt, UInt32.toNat_ofNat', Int.ModEq]
  omega

theorem Word.eq_ofInt_iff {v : Word} {n : Int} :
    v = UInt32.ofInt n ↔ (v.toNat : Int) ≡ n [ZMOD 0x100000000] := by
  constructor
  · rintro rfl
    exact toNat_ofInt n
  · intro h
    have hmod : (v.toNat : Int) ≡ (UInt32.ofInt n).toNat [ZMOD 0x100000000] :=
      h.trans (toNat_ofInt n).symm
    have hv := v.toNat_lt
    have hn := (UInt32.ofInt n).toNat_lt
    apply UInt32.toNat_inj.1
    rw [Int.ModEq] at hmod
    omega

theorem Word.ofInt_sub (m n : Int) : UInt32.ofInt (m - n) = UInt32.ofInt m - UInt32.ofInt n := by
  rw [Int.sub_eq_add_neg, UInt32.ofInt_add, UInt32.ofInt_neg, UInt32.sub_eq_add_neg]

theorem Word.ofInt_natCast (n : Nat) : UInt32.ofInt n = UInt32.ofNat n := by
  symm
  rw [eq_ofInt_iff, UInt32.toNat_ofNat', Int.ModEq]
  omega

/-- Whether a word is odd can be seen from the integer it was reduced from. -/
theorem Word.ofInt_mod_two_eq_zero_iff (n : Int) : UInt32.ofInt n % 2 = 0 ↔ n % 2 = 0 := by
  have h : (UInt32.ofInt n).toNat % 2 = 0 ↔ n % 2 = 0 := by
    have hn : ((UInt32.ofInt n).toNat : Int) % 2 = n % 2 := (toNat_ofInt n).of_dvd (by decide)
    omega
  rw [← h, ← UInt32.toNat_inj, UInt32.toNat_mod]
  rfl

namespace Unbounded

/-- The operation on integers; nothing is ever reduced. -/
def perform (o : RingOp) (size : Nat) (u : Unbounded) : Except Fault Unbounded :=
  match o, u.stack with
  | .push, ns => .ok { u with stack := size :: ns }
  | .pop, _ :: ns => .ok { u with stack := ns }
  | .add, a :: b :: ns => .ok { u with stack := (b + a) :: ns }
  | .subtract, a :: b :: ns => .ok { u with stack := (b - a) :: ns }
  | .multiply, a :: b :: ns => .ok { u with stack := (b * a) :: ns }
  | .duplicate, a :: ns => .ok { u with stack := a :: a :: ns }
  | .pointer, a :: ns =>
    .ok ⟨{ u.heading with direction := u.heading.direction.rotate a }, ns⟩
  | .switch, a :: ns =>
    .ok ⟨if a % 2 = 0 then u.heading else { u.heading with chooser := u.heading.chooser.flip }, ns⟩
  | o, ns => .error (.stackUnderflow o.op o.arity ns.length)

/-- What is left after a try; a fault leaves everything as it was. -/
def attempt (u : Unbounded) (t : RingOp × Nat) : Unbounded :=
  (u.perform t.1 t.2).toOption.getD u

/-- The state that faces the same way and whose stack holds the integers, reduced to words. -/
def wrap (u : Unbounded) (s : State) : State :=
  { s with heading := u.heading, stack := u.stack.map UInt32.ofInt }

/-- The state faces the same way, and its words are congruent to the integers, one by one. -/
structure Matches (u : Unbounded) (s : State) : Prop where
  heading : s.heading = u.heading
  stack : List.Forall₂ (fun (v : Word) (n : Int) => (v.toNat : Int) ≡ n [ZMOD 0x100000000])
    s.stack u.stack

end Unbounded

/-- What a handler leaves, whether it succeeds or fails. -/
def State.attempt (s : State) (t : RingOp × Nat) : State :=
  match (t.1.op.handler t.2).run s with
  | .ok _ s' => s'
  | .error _ s' => s'

namespace Unbounded

variable {u : Unbounded} {s : State}

theorem matches_wrap (u : Unbounded) (s : State) : u.Matches (u.wrap s) where
  heading := rfl
  stack := List.forall₂_map_left_iff.2 (List.forall₂_same.2 fun n _ => Word.toNat_ofInt n)

theorem Matches.eq_wrap (h : u.Matches s) : s = u.wrap s := by
  have hstack : s.stack = u.stack.map UInt32.ofInt := by
    have hwords := h.stack.imp fun v n => Word.eq_ofInt_iff.2
    rw [← List.forall₂_eq_eq_eq, List.forall₂_map_right_iff]
    exact hwords
  rw [wrap, ← h.heading, ← hstack]

/-- What replaces two words is the integer that replaces theirs, if the two ways to combine agree. -/
theorem combine_wrap (op : Op) {f : Word → Word → Word} {k : Int → Int → Int} {hd : Heading}
    {a b : Int} {ns : List Int}
    (hk : UInt32.ofInt (k b a) = f (UInt32.ofInt b) (UInt32.ofInt a)) :
    (wrap ⟨hd, a :: b :: ns⟩ s).combine op f = .ok (wrap ⟨hd, k b a :: ns⟩ s) := by
  simp only [wrap, State.combine, List.map_cons, hk]

/-- To reduce before an operation or after it is the same. This includes the operations that find too
few values. -/
theorem perform_wrap (o : RingOp) (size : Nat) (u : Unbounded) (s : State) :
    o.op.perform size (u.wrap s) = (u.perform o size).map (·.wrap s) := by
  obtain ⟨hd, ns⟩ := u
  cases o with
  | push =>
    have hpush : (wrap ⟨hd, ns⟩ s).push (.ofNat size) = wrap ⟨hd, size :: ns⟩ s := by
      rw [← Word.ofInt_natCast]
      rfl
    exact congrArg Except.ok hpush
  | pop | duplicate => cases ns <;> rfl
  | add =>
    rcases ns with _ | ⟨a, _ | ⟨b, ns⟩⟩
    · rfl
    · rfl
    · exact combine_wrap .add (UInt32.ofInt_add b a)
  | subtract =>
    rcases ns with _ | ⟨a, _ | ⟨b, ns⟩⟩
    · rfl
    · rfl
    · exact combine_wrap .subtract (Word.ofInt_sub b a)
  | multiply =>
    rcases ns with _ | ⟨a, _ | ⟨b, ns⟩⟩
    · rfl
    · rfl
    · exact combine_wrap .multiply (UInt32.ofInt_mul b a)
  | pointer =>
    cases ns with
    | nil => rfl
    | cons a ns =>
      have hturn := hd.direction.clockwise_congr (Word.toNat_ofInt a)
      simp only [perform, Except.map, wrap, hd.direction.rotate_eq_clockwise, ← hturn]
      rfl
  | switch =>
    cases ns with
    | nil => rfl
    | cons a ns =>
      simp only [RingOp.op, Op.perform, State.pop, perform, wrap, List.map_cons, Except.map,
        Word.ofInt_mod_two_eq_zero_iff]
      split <;> rfl

/-- Words fail where integers do, and for the same reason. -/
theorem perform_wrap_eq_error_iff {o : RingOp} {size : Nat} {f : Fault} (s : State) :
    o.op.perform size (u.wrap s) = .error f ↔ u.perform o size = .error f := by
  rw [perform_wrap]
  cases u.perform o size <;> simp [Except.map]

/-- The one way to fail is a stack that is too short. -/
theorem perform_eq_error_iff {o : RingOp} {size : Nat} {f : Fault} :
    u.perform o size = .error f ↔
      u.stack.length < o.arity ∧ f = .stackUnderflow o.op o.arity u.stack.length := by
  obtain ⟨hd, ns⟩ := u
  cases o <;> rcases ns with _ | ⟨a, _ | ⟨b, ns⟩⟩ <;> simp [perform, RingOp.arity, eq_comm]

theorem attempt_wrap (u : Unbounded) (s : State) (t : RingOp × Nat) :
    (u.wrap s).attempt t = (u.attempt t).wrap s := by
  rw [State.attempt, attempt, Op.run_handler, perform_wrap]
  cases u.perform t.1 t.2 <;> rfl

/-- To reduce before a sequence of operations or after it is the same. -/
theorem foldl_attempt_wrap (u : Unbounded) (s : State) (tasks : List (RingOp × Nat)) :
    tasks.foldl State.attempt (u.wrap s) = (tasks.foldl attempt u).wrap s := by
  induction tasks generalizing u with
  | nil => rfl
  | cons t tasks ih => rw [List.foldl_cons, List.foldl_cons, attempt_wrap, ih]

/-- Words stay congruent to unbounded integers, and the same operations fail on both sides. -/
theorem attempts_match (h : u.Matches s) (tasks : List (RingOp × Nat)) :
    let u' := tasks.foldl attempt u
    let s' := tasks.foldl State.attempt s
    u'.Matches s' ∧ (∀ v ∈ s'.stack, v.toNat < 0x100000000) ∧
    ∀ (o : RingOp) (size : Nat),
      (∀ e, (∃ t, (o.op.handler size).run s' = .error e t) ↔
        ∃ f, u'.perform o size = .error f ∧ e = .fault f) ∧
      ∀ f, (u'.perform o size = .error f ↔
          u'.stack.length < o.arity ∧ f = .stackUnderflow o.op o.arity s'.stack.length) ∧
        (u'.perform o size = .error f →
          u'.attempt (o, size) = u' ∧ s'.attempt (o, size) = s' ∧
          ∀ m : Move, m.op = o.op → m.size = size →
            (Grid.cross s' m).result = .error (.fault f) ∧
              (Grid.cross s' m).state.stack = s'.stack) := by
  intro u' s'
  have hwrap : s' = u'.wrap s := by
    change tasks.foldl State.attempt s = _
    rw [h.eq_wrap, foldl_attempt_wrap]
    rfl
  have hlength : s'.stack.length = u'.stack.length := by
    rw [hwrap]
    exact List.length_map _
  refine ⟨hwrap ▸ matches_wrap u' s, fun v _ => v.toNat_lt,
    fun o size => ⟨fun e => ?_, fun f => ⟨?_, fun hf => ?_⟩⟩⟩
  · have hfails : (∃ t, (o.op.handler size).run s' = .error e t) ↔
        ∃ f, o.op.perform size s' = .error f ∧ e = .fault f := by
      simp only [Op.run_handler_eq_error_iff, exists_and_left, exists_eq, and_true]
    rw [hfails, hwrap]
    exact exists_congr fun f => and_congr_left fun _ => perform_wrap_eq_error_iff s
  · rw [hlength]
    exact perform_eq_error_iff
  · have hword : o.op.perform size s' = .error f := by
      rw [hwrap]
      exact (perform_wrap_eq_error_iff s).2 hf
    refine ⟨?_, ?_, fun m hop hsize => ?_⟩
    · rw [attempt, hf]
      rfl
    · rw [State.attempt, Op.run_handler_of_error hword]
    · have hfault : m.op.perform m.size { s' with obstructions := 0 } = .error f := by
        rw [hop, hsize, hwrap]
        exact (perform_wrap_eq_error_iff { s with obstructions := 0 }).2 hf
      rw [Grid.cross_of_error hfault]
      exact ⟨rfl, rfl⟩

/-- A word of ones stands for minus one, and what follows it has lost a multiple of the range. -/
def negative : Unbounded := ⟨.initial, [-1, 0x100000003]⟩

theorem attempts_match_negative :
    let s : State := { State.initial none with stack := [0xffffffff, 3] }
    let tasks : List (RingOp × Nat) := [(.duplicate, 0), (.pointer, 0), (.multiply, 0)]
    let u' := tasks.foldl attempt negative
    let s' := tasks.foldl State.attempt s
    negative.Matches s ∧ u'.Matches s' ∧ u'.stack = [-0x100000003] ∧ s'.stack = [0xfffffffd] ∧
      s'.heading.direction = .up ∧
      ∃ t, (Op.add.handler 0).run s' = .error (.fault (.stackUnderflow .add 2 1)) t := by
  intro s tasks u' s'
  have h : negative.Matches s := ⟨rfl, .cons (by decide) (.cons (by decide) .nil)⟩
  obtain ⟨hmatches, -, hfail⟩ := attempts_match h tasks
  obtain ⟨hfails, hshort⟩ := hfail .add 0
  have hadd : u'.perform .add 0 = .error (.stackUnderflow .add 2 1) :=
    (hshort _).1.2 ⟨by decide, by decide⟩
  exact ⟨h, hmatches, by decide, by decide, by decide, (hfails _).2 ⟨_, hadd, rfl⟩⟩

end Unbounded
end Piet
