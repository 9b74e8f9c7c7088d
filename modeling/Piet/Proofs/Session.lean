import Piet.Run

/-! Sessions: calls on a program, one after another. Whatever is called, a state is changed by single
steps and by text that arrives, so a property that both keep holds after every session. -/
namespace Piet

/-- What can be asked of a program. A run has a limit or ends with the program. -/
inductive Call where
  | step
  | run (limit : Option Int)
  | feed (text : String)
  deriving DecidableEq

inductive Answer where
  | op (op : Option Op)
  | taken (steps : Nat)
  | fed
  deriving DecidableEq

inductive Act where
  | step
  | feed (text : String)
  deriving DecidableEq

def Outcome.map {α β : Type} (f : α → β) (o : Outcome α) : Outcome β :=
  ⟨o.result.map f, o.state, o.log⟩

theorem Outcome.error_of_map {α β : Type} {f : α → β} {o : Outcome α} {e : Error}
    (h : (o.map f).result = .error e) : o.result = .error e := by
  unfold map at h
  cases hr : o.result with
  | ok a =>
    rw [hr] at h
    cases h
  | error e' =>
    rw [hr] at h
    exact congrArg _ (Except.error.inj h)

/-- The state that a session has come to with its latest call. -/
def State.latest (s : State) (os : List (Outcome Answer)) : State :=
  (os.getLast?.map Outcome.state).getD s

namespace Grid

def call? (g : Grid) (patience : Nat) (s : State) : Call → Option (Outcome Answer)
  | .step => some ((g.step s).map .op)
  | .run limit => (g.runWithin? patience limit s).map (Outcome.map .taken)
  | .feed text => some ⟨.ok .fed, s.feed text, []⟩

/-- The session goes on after a failure. There is no answer only where a run without a limit needs
more steps than `patience`. -/
def play? (g : Grid) (patience : Nat) : State → List Call → Option (List (Outcome Answer))
  | _, [] => some []
  | s, c :: cs =>
    (g.call? patience s c).bind fun o => (g.play? patience o.state cs).map (o :: ·)

def act (g : Grid) (s : State) : Act → State
  | .step => (g.step s).state
  | .feed text => s.feed text

def after (g : Grid) (s : State) (as : List Act) : State := as.foldl g.act s

/-- How many steps a run of at most `n` executes, one that fails among them. -/
def executed (g : Grid) : Nat → State → Nat
  | 0, _ => 0
  | n + 1, s =>
    if s.terminated g then 0
    else match (g.step s).result with
      | .ok _ => g.executed n (g.step s).state + 1
      | .error _ => 1

def callActs (g : Grid) (patience : Nat) (s : State) : Call → List Act
  | .step => [.step]
  | .run limit => List.replicate (g.executed (limit.elim patience Int.toNat) s) .step
  | .feed text => [.feed text]

def acts (g : Grid) (patience : Nat) : State → List Call → List Act
  | _, [] => []
  | s, c :: cs =>
    let as := g.callActs patience s c
    as ++ g.acts patience (g.after s as) cs

variable {g : Grid} {s : State} {patience : Nat}

theorem after_append (g : Grid) (s : State) (as bs : List Act) :
    g.after s (as ++ bs) = g.after (g.after s as) bs := List.foldl_append

/-- A property that steps and arriving text keep is kept by all acts. -/
theorem after_induction {P : State → Prop} (hstep : ∀ s, P s → P (g.step s).state)
    (hfeed : ∀ s text, P s → P (s.feed text)) (hs : P s) (as : List Act) : P (g.after s as) := by
  induction as generalizing s with
  | nil => exact hs
  | cons a as ih =>
    cases a with
    | step => exact ih (hstep s hs)
    | feed text => exact ih (hfeed s text hs)

theorem run_succ_of_terminated (n : Nat) (h : s.terminated g = true) :
    g.run (n + 1) s = ⟨.ok 0, s, []⟩ := by
  rw [run, runFrom, if_pos h]
  rfl

theorem run_succ_of_error (n : Nat) (h : s.terminated g = false) {e : Error}
    (he : (g.step s).result = .error e) :
    g.run (n + 1) s = ⟨.error e, (g.step s).state, (g.step s).log⟩ := by
  rw [run, runFrom, if_neg (by simp [h])]
  simp [he]

theorem run_state (g : Grid) (n : Nat) (s : State) :
    (g.run n s).state = g.after s (List.replicate (g.executed n s) .step) := by
  induction n generalizing s with
  | zero => rfl
  | succ n ih =>
    unfold executed
    cases h : s.terminated g with
    | true =>
      rw [run_succ_of_terminated n h]
      rfl
    | false =>
      cases hr : (g.step s).result with
      | ok a =>
        rw [run_succ n h hr]
        exact ih _
      | error e =>
        rw [run_succ_of_error n h hr]
        rfl

theorem run_error {n : Nat} {e : Error} (h : (g.run n s).result = .error e) :
    ∃ k, (g.step (g.after s (List.replicate k .step))).result = .error e := by
  induction n generalizing s with
  | zero => cases h
  | succ n ih =>
    cases ht : s.terminated g with
    | true =>
      rw [run_succ_of_terminated n ht] at h
      cases h
    | false =>
      cases hr : (g.step s).result with
      | error e' =>
        rw [run_succ_of_error n ht hr] at h
        cases h
        exact ⟨0, hr⟩
      | ok a =>
        rw [run_succ n ht hr] at h
        cases hrest : (g.run n (g.step s).state).result with
        | ok m =>
          rw [hrest] at h
          cases h
        | error e' =>
          rw [hrest] at h
          cases h
          obtain ⟨k, hk⟩ := ih hrest
          exact ⟨k + 1, hk⟩

/-- A run without a limit that ends is a run with its patience for a limit. -/
theorem runOnFrom?_eq {taken : Nat} {log : List Record} {o : Outcome Nat}
    (h : g.runOnFrom? patience s taken log = some o) : o = g.runFrom patience s taken log := by
  induction patience generalizing s taken log with
  | zero =>
    unfold runOnFrom? at h
    split at h
    · exact (Option.some.inj h).symm
    · cases h
  | succ n ih =>
    unfold runOnFrom? at h
    unfold runFrom
    split at h
    · next ht =>
      rw [if_pos ht]
      exact (Option.some.inj h).symm
    · next ht =>
      rw [if_neg ht]
      dsimp only at h ⊢
      split at h
      · exact ih h
      · exact (Option.some.inj h).symm

theorem runWithin?_eq {limit : Option Int} {o : Outcome Nat}
    (h : g.runWithin? patience limit s = some o) :
    o = g.run (limit.elim patience Int.toNat) s := by
  cases limit with
  | none => exact runOnFrom?_eq h
  | some n => exact (Option.some.inj h).symm

theorem call?_state {c : Call} {o : Outcome Answer} (h : g.call? patience s c = some o) :
    o.state = g.after s (g.callActs patience s c) := by
  cases c with
  | step =>
    cases h
    rfl
  | feed text =>
    cases h
    rfl
  | run limit =>
    obtain ⟨o', ho, rfl⟩ := Option.map_eq_some_iff.1 h
    rw [runWithin?_eq ho]
    exact run_state g _ s

/-- A call fails only where a step does, after as many others. -/
theorem call?_error {c : Call} {o : Outcome Answer} (h : g.call? patience s c = some o) {e : Error}
    (he : o.result = .error e) :
    ∃ k, (g.step (g.after s (List.replicate k .step))).result = .error e := by
  cases c with
  | step =>
    cases h
    exact ⟨0, Outcome.error_of_map he⟩
  | feed text =>
    cases h
    cases he
  | run limit =>
    obtain ⟨o', ho, rfl⟩ := Option.map_eq_some_iff.1 h
    have hr := Outcome.error_of_map he
    rw [runWithin?_eq ho] at hr
    exact run_error hr

theorem exists_of_play?_cons {c : Call} {cs : List Call} {os : List (Outcome Answer)}
    (h : g.play? patience s (c :: cs) = some os) :
    ∃ o os', g.call? patience s c = some o ∧ g.play? patience o.state cs = some os' ∧
      os = o :: os' := by
  obtain ⟨o, ho, h⟩ := Option.bind_eq_some_iff.1 h
  obtain ⟨os', hos, rfl⟩ := Option.map_eq_some_iff.1 h
  exact ⟨o, os', ho, hos, rfl⟩

theorem play?_latest {cs : List Call} {os : List (Outcome Answer)}
    (h : g.play? patience s cs = some os) : s.latest os = g.after s (g.acts patience s cs) := by
  induction cs generalizing s os with
  | nil =>
    cases h
    rfl
  | cons c cs ih =>
    obtain ⟨o, os', ho, hos, rfl⟩ := exists_of_play?_cons h
    have hl : s.latest (o :: os') = o.state.latest os' := by
      unfold State.latest
      rw [List.getLast?_cons]
      cases os'.getLast? <;> rfl
    rw [hl, ih hos, call?_state ho, acts, after_append]

/-- All failures of a session are failures of steps, from states that have a property which steps and
arriving text keep. -/
theorem play?_error {P : State → Prop} {Q : Error → Prop} (hstep : ∀ s, P s → P (g.step s).state)
    (hfeed : ∀ s text, P s → P (s.feed text))
    (herror : ∀ s e, P s → (g.step s).result = .error e → Q e) (hs : P s) {cs : List Call}
    {os : List (Outcome Answer)} (h : g.play? patience s cs = some os) {o : Outcome Answer}
    (ho : o ∈ os) {e : Error} (he : o.result = .error e) : Q e := by
  induction cs generalizing s os with
  | nil =>
    cases h
    cases ho
  | cons c cs ih =>
    obtain ⟨o', os', ho', hos, rfl⟩ := exists_of_play?_cons h
    rcases List.mem_cons.1 ho with rfl | ho
    · obtain ⟨k, hk⟩ := call?_error ho' he
      exact herror _ e (after_induction hstep hfeed hs _) hk
    · exact ih (call?_state ho' ▸ after_induction hstep hfeed hs _) hos ho

/-- A session in which every run has a limit always has its answers. -/
theorem exists_play? (g : Grid) (patience : Nat) (s : State) {cs : List Call}
    (h : Call.run none ∉ cs) : ∃ os, g.play? patience s cs = some os := by
  induction cs generalizing s with
  | nil => exact ⟨[], rfl⟩
  | cons c cs ih =>
    have hc : ∃ o, g.call? patience s c = some o := by
      cases c with
      | step => exact ⟨_, rfl⟩
      | feed text => exact ⟨_, rfl⟩
      | run limit =>
        cases limit with
        | none => exact absurd List.mem_cons_self h
        | some n => exact ⟨_, rfl⟩
    obtain ⟨o, ho⟩ := hc
    obtain ⟨os, hos⟩ := ih o.state fun hm => h (List.mem_cons_of_mem _ hm)
    exact ⟨o :: os, by rw [play?, ho, Option.bind_some, hos]; rfl⟩

end Grid
end Piet
