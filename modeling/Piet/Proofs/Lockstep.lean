import Piet.Proofs.Session
import Mathlib.Data.List.Forall2

/-! Programs in lockstep. Where single steps agree and lead to related states, all sessions agree;
where they do so until some operation runs, so do sessions. -/
namespace Piet

/-- The same result, related states, and logs that are related line by line. -/
structure Outcome.Agrees {α : Type} (ρ : Record → Record → Prop) (R : State → State → Prop)
    (o o' : Outcome α) : Prop where
  result : o'.result = o.result
  state : R o.state o'.state
  log : List.Forall₂ ρ o.log o'.log

theorem Outcome.Agrees.map {α β : Type} {ρ : Record → Record → Prop} {R : State → State → Prop}
    {o o' : Outcome α} (h : o.Agrees ρ R o') (f : α → β) : (o.map f).Agrees ρ R (o'.map f) :=
  ⟨congrArg (Except.map f) h.result, h.state, h.log⟩

theorem Outcome.Agrees.mono {α : Type} {ρ : Record → Record → Prop} {R R' : State → State → Prop}
    {o o' : Outcome α} (h : o.Agrees ρ R o') (himp : ∀ s t, R s t → R' s t) : o.Agrees ρ R' o' :=
  ⟨h.result, himp _ _ h.state, h.log⟩

theorem Outcome.Agrees.eq {α : Type} {o o' : Outcome α} (h : o.Agrees Eq (fun s t => t = s) o') :
    o' = o := by
  obtain ⟨hresult, hstate, hlog⟩ := h
  rw [List.forall₂_eq_eq_eq] at hlog
  cases o
  cases o'
  rw [Outcome.mk.injEq]
  exact ⟨hresult, hstate, hlog.symm⟩

theorem rel_imp {α β : Type} {r r' : α → β → Prop} {a : Option α} {b : Option β}
    (h : Option.Rel r a b) (himp : ∀ x y, a = some x → b = some y → r x y → r' x y) :
    Option.Rel r' a b := by
  cases h with
  | none => exact .none
  | some h => exact .some (himp _ _ rfl rfl h)

namespace Grid

/-- The operation that an act runs. -/
def operation? (g : Grid) (s : State) : Act → Option Op
  | .step => (g.step s).result.toOption.join
  | .feed _ => none

/-- The operations that run on the way through the acts, in their order. -/
def operations (g : Grid) : State → List Act → List Op
  | _, [] => []
  | s, a :: as => (g.operation? s a).toList ++ g.operations (g.act s a) as

/-- Steps from related states agree, and those that run none but free operations lead to related
states. -/
structure Simulates (g g' : Grid) (free : Op → Prop) (ρ : Record → Record → Prop)
    (R : State → State → Prop) : Prop where
  terminated : ∀ {s s'}, R s s' → s'.terminated g' = s.terminated g
  result : ∀ {s s'}, R s s' → (g'.step s').result = (g.step s).result
  log : ∀ {s s'}, R s s' → List.Forall₂ ρ (g.step s).log (g'.step s').log
  step : ∀ {s s'}, R s s' → (∀ op ∈ g.operation? s .step, free op) →
    R (g.step s).state (g'.step s').state
  feed : ∀ {s s'} (text : String), R s s' → R (s.feed text) (s'.feed text)

variable {g g' : Grid} {free : Op → Prop} {ρ : Record → Record → Prop} {R : State → State → Prop}
  {s s' : State} {patience : Nat}

theorem operation?_step_eq_some_iff {op : Op} :
    g.operation? s .step = some op ↔ (g.step s).result = .ok (some op) := by
  unfold operation?
  cases (g.step s).result with
  | error e => simp [Except.toOption]
  | ok a => simp [Except.toOption]

theorem operations_append (g : Grid) (s : State) (as bs : List Act) :
    g.operations s (as ++ bs) = g.operations s as ++ g.operations (g.after s as) bs := by
  induction as generalizing s with
  | nil => rfl
  | cons a as ih =>
    rw [List.cons_append, operations, operations, ih, List.append_assoc]
    rfl

theorem forall_operations_cons {a : Act} {as : List Act} :
    (∀ op ∈ g.operations s (a :: as), free op) ↔
      (∀ op ∈ g.operation? s a, free op) ∧ ∀ op ∈ g.operations (g.act s a) as, free op := by
  rw [operations, List.forall_mem_append]
  simp only [Option.mem_toList, Option.mem_def]

theorem forall_operations_append {as bs : List Act} :
    (∀ op ∈ g.operations s (as ++ bs), free op) ↔
      (∀ op ∈ g.operations s as, free op) ∧ ∀ op ∈ g.operations (g.after s as) bs, free op := by
  rw [operations_append, List.forall_mem_append]

theorem executed_of_terminated (n : Nat) (h : s.terminated g = true) : g.executed n s = 0 := by
  cases n with
  | zero => rfl
  | succ n => rw [executed, if_pos h]

theorem executed_succ_of_ok (n : Nat) (h : s.terminated g = false) {a : Option Op}
    (ha : (g.step s).result = .ok a) :
    g.executed (n + 1) s = g.executed n (g.step s).state + 1 := by
  rw [executed, if_neg (by simp [h]), ha]

theorem executed_succ_of_error (n : Nat) (h : s.terminated g = false) {e : Error}
    (he : (g.step s).result = .error e) : g.executed (n + 1) s = 1 := by
  rw [executed, if_neg (by simp [h]), he]

/-- Without a limit a run answers as it does within its patience, provided that it ends there. -/
theorem runOnFrom?_eq_some_iff {taken : Nat} {log : List Record} {o : Outcome Nat} :
    g.runOnFrom? patience s taken log = some o ↔ g.runFrom patience s taken log = o ∧
      (o.state.terminated g = true ∨ ∃ e, o.result = .error e) := by
  induction patience generalizing s taken log with
  | zero =>
    unfold runOnFrom? runFrom
    cases ht : s.terminated g with
    | true =>
      simp only [if_true, Option.some.injEq]
      exact ⟨fun h => ⟨h, Or.inl (h ▸ ht)⟩, fun h => h.1⟩
    | false =>
      simp only [Bool.false_eq_true, if_false]
      constructor
      · intro h
        cases h
      · rintro ⟨rfl, h | ⟨e, h⟩⟩
        · rw [ht] at h
          cases h
        · cases h
  | succ n ih =>
    unfold runOnFrom? runFrom
    cases ht : s.terminated g with
    | true =>
      simp only [if_true, Option.some.injEq]
      exact ⟨fun h => ⟨h, Or.inl (h ▸ ht)⟩, fun h => h.1⟩
    | false =>
      simp only [Bool.false_eq_true, if_false]
      cases hr : (g.step s).result with
      | ok a => exact ih
      | error e =>
        simp only [Option.some.injEq]
        exact ⟨fun h => ⟨h, Or.inr ⟨e, h ▸ rfl⟩⟩, fun h => h.1⟩

theorem runOn?_eq_some_iff {o : Outcome Nat} : g.runOn? patience s = some o ↔
    g.run patience s = o ∧ (o.state.terminated g = true ∨ ∃ e, o.result = .error e) :=
  runOnFrom?_eq_some_iff

namespace Simulates

theorem act (h : Simulates g g' free ρ R) (hR : R s s') (a : Act)
    (hf : ∀ op ∈ g.operation? s a, free op) : R (g.act s a) (g'.act s' a) := by
  cases a with
  | step => exact h.step hR hf
  | feed text => exact h.feed text hR

theorem after (h : Simulates g g' free ρ R) (hR : R s s') (as : List Act)
    (hf : ∀ op ∈ g.operations s as, free op) : R (g.after s as) (g'.after s' as) := by
  induction as generalizing s s' with
  | nil => exact hR
  | cons a as ih =>
    obtain ⟨ha, has⟩ := forall_operations_cons.1 hf
    exact ih (h.act hR a ha) has

/-- As many steps are executed on the other side, up to and with the first that is not free. -/
theorem le_executed (h : Simulates g g' free ρ R) (hR : R s s') {m n : Nat}
    (hm : m ≤ g.executed n s) (hf : ∀ op ∈ g.operations s (.replicate m .step), free op) :
    m ≤ g'.executed n s' := by
  induction n generalizing s s' m with
  | zero => exact hm
  | succ n ih =>
    cases m with
    | zero => exact Nat.zero_le _
    | succ m =>
      have ht := h.terminated hR
      have hr := h.result hR
      cases hts : s.terminated g with
      | true =>
        rw [executed_of_terminated _ hts] at hm
        exact absurd hm (Nat.not_succ_le_zero m)
      | false =>
        rw [hts] at ht
        cases hrs : (g.step s).result with
        | error e =>
          rw [executed_succ_of_error n hts hrs] at hm
          rwa [executed_succ_of_error n ht (hr.trans hrs)]
        | ok a =>
          rw [executed_succ_of_ok n hts hrs] at hm
          rw [executed_succ_of_ok n ht (hr.trans hrs)]
          obtain ⟨ha, has⟩ := forall_operations_cons.1 hf
          have hle := ih (h.step hR ha) (Nat.le_of_succ_le_succ hm) has
          exact Nat.succ_le_succ hle

theorem executed_eq (h : Simulates g g' free ρ R) (hR : R s s') (n : Nat)
    (hf : ∀ op ∈ g.operations s (.replicate (g.executed n s) .step), free op) :
    g'.executed n s' = g.executed n s := by
  induction n generalizing s s' with
  | zero => rfl
  | succ n ih =>
    have ht := h.terminated hR
    have hr := h.result hR
    cases hts : s.terminated g with
    | true =>
      rw [hts] at ht
      rw [executed_of_terminated _ hts, executed_of_terminated _ ht]
    | false =>
      rw [hts] at ht
      cases hrs : (g.step s).result with
      | error e =>
        rw [executed_succ_of_error n hts hrs, executed_succ_of_error n ht (hr.trans hrs)]
      | ok a =>
        rw [executed_succ_of_ok n hts hrs] at hf ⊢
        rw [executed_succ_of_ok n ht (hr.trans hrs)]
        obtain ⟨ha, has⟩ := forall_operations_cons.1 hf
        rw [ih (h.step hR ha) has]

theorem run (h : Simulates g g' free ρ R) (hR : R s s') (n : Nat)
    (hf : ∀ op ∈ g.operations s (.replicate (g.executed n s) .step), free op) :
    (g.run n s).Agrees ρ R (g'.run n s') := by
  induction n generalizing s s' with
  | zero => exact ⟨rfl, hR, .nil⟩
  | succ n ih =>
    have ht := h.terminated hR
    have hr := h.result hR
    cases hts : s.terminated g with
    | true =>
      rw [hts] at ht
      rw [run_succ_of_terminated n hts, run_succ_of_terminated n ht]
      exact ⟨rfl, hR, .nil⟩
    | false =>
      rw [hts] at ht
      cases hrs : (g.step s).result with
      | error e =>
        rw [run_succ_of_error n hts hrs, run_succ_of_error n ht (hr.trans hrs)]
        have hnone : ∀ op ∈ g.operation? s .step, free op := by
          intro op hop
          rw [Option.mem_def, operation?_step_eq_some_iff, hrs] at hop
          cases hop
        exact ⟨rfl, h.step hR hnone, h.log hR⟩
      | ok a =>
        rw [executed_succ_of_ok n hts hrs] at hf
        rw [run_succ n hts hrs, run_succ n ht (hr.trans hrs)]
        obtain ⟨ha, has⟩ := forall_operations_cons.1 hf
        have hrest := ih (h.step hR ha) has
        exact ⟨congrArg (Except.map (1 + ·)) hrest.result, hrest.state,
          List.rel_append (h.log hR) hrest.log⟩

theorem runWithin? (h : Simulates g g' free ρ R) (hR : R s s') (patience : Nat)
    (limit : Option Int)
    (hf : ∀ op ∈ g.operations s
      (.replicate (g.executed (limit.elim patience Int.toNat) s) .step), free op) :
    Option.Rel (Outcome.Agrees ρ R) (g.runWithin? patience limit s)
      (g'.runWithin? patience limit s') := by
  have hrun := h.run hR _ hf
  cases limit with
  | some n => exact .some hrun
  | none =>
    change (g.run patience s).Agrees ρ R (g'.run patience s') at hrun
    change Option.Rel _ (g.runOn? patience s) (g'.runOn? patience s')
    have hends : ((g'.run patience s').state.terminated g' = true ∨
        ∃ e, (g'.run patience s').result = .error e) ↔
        ((g.run patience s).state.terminated g = true ∨
          ∃ e, (g.run patience s).result = .error e) := by
      rw [h.terminated hrun.state, hrun.result]
    by_cases he : (g.run patience s).state.terminated g = true ∨
        ∃ e, (g.run patience s).result = .error e
    · rw [runOn?_eq_some_iff.2 ⟨rfl, he⟩, runOn?_eq_some_iff.2 ⟨rfl, hends.2 he⟩]
      exact .some hrun
    · have hnone : g.runOn? patience s = none := by
        refine Option.eq_none_iff_forall_ne_some.2 fun o ho => ?_
        obtain ⟨rfl, ho⟩ := runOn?_eq_some_iff.1 ho
        exact he ho
      have hnone' : g'.runOn? patience s' = none := by
        refine Option.eq_none_iff_forall_ne_some.2 fun o ho => ?_
        obtain ⟨rfl, ho⟩ := runOn?_eq_some_iff.1 ho
        exact he (hends.1 ho)
      rw [hnone, hnone']
      exact .none

theorem call? (h : Simulates g g' free ρ R) (hR : R s s') (patience : Nat) (c : Call)
    (hf : ∀ op ∈ g.operations s (g.callActs patience s c), free op) :
    Option.Rel (Outcome.Agrees ρ R) (g.call? patience s c) (g'.call? patience s' c) := by
  cases c with
  | step =>
    obtain ⟨hfree, -⟩ := forall_operations_cons.1 hf
    have hstep : (g.step s).Agrees ρ R (g'.step s') := ⟨h.result hR, h.step hR hfree, h.log hR⟩
    exact .some (hstep.map Answer.op)
  | feed text => exact .some ⟨rfl, h.feed text hR, .nil⟩
  | run limit =>
    have hrun := h.runWithin? hR patience limit hf
    unfold Grid.call?
    dsimp only
    generalize g.runWithin? patience limit s = a at hrun ⊢
    generalize g'.runWithin? patience limit s' = a' at hrun ⊢
    cases hrun with
    | none => exact .none
    | some ho => exact .some (ho.map Answer.taken)

/-- A session that runs none but free operations gets the same answers on both sides. -/
theorem play? (h : Simulates g g' free ρ R) (hR : R s s') (patience : Nat) (calls : List Call)
    (hf : ∀ op ∈ g.operations s (g.acts patience s calls), free op) :
    Option.Rel (List.Forall₂ (Outcome.Agrees ρ R)) (g.play? patience s calls)
      (g'.play? patience s' calls) := by
  induction calls generalizing s s' with
  | nil => exact .some .nil
  | cons c cs ih =>
    obtain ⟨hc, hcs⟩ := forall_operations_append.1 hf
    have hcall := h.call? hR patience c hc
    unfold Grid.play?
    cases ha : g.call? patience s c with
    | none =>
      rw [ha] at hcall
      cases ha' : g'.call? patience s' c with
      | none => exact .none
      | some o' =>
        rw [ha'] at hcall
        cases hcall
    | some o =>
      rw [ha] at hcall
      cases ha' : g'.call? patience s' c with
      | none =>
        rw [ha'] at hcall
        cases hcall
      | some o' =>
        rw [ha'] at hcall
        cases hcall with
        | some ho =>
          rw [← call?_state ha] at hcs
          have hrest := ih ho.state hcs
          simp only [Option.bind_some]
          generalize g.play? patience o.state cs = a at hrest ⊢
          generalize g'.play? patience o'.state cs = a' at hrest ⊢
          cases hrest with
          | none => exact .none
          | some hos => exact .some (.cons ho hos)

theorem play?_mono (h : Simulates g g' free ρ R) (hR : R s s') (patience : Nat)
    (calls : List Call) (hf : ∀ op ∈ g.operations s (g.acts patience s calls), free op)
    {R' : State → State → Prop} (himp : ∀ s t, R s t → R' s t) :
    Option.Rel (List.Forall₂ (Outcome.Agrees ρ R')) (g.play? patience s calls)
      (g'.play? patience s' calls) := by
  refine rel_imp (h.play? hR patience calls hf) fun os os' _ _ hall => ?_
  exact hall.imp fun o o' ho => ho.mono himp

theorem callActs_eq (h : Simulates g g' free ρ R) (hR : R s s') (c : Call)
    (hf : ∀ op ∈ g.operations s (g.callActs patience s c), free op) :
    g'.callActs patience s' c = g.callActs patience s c := by
  cases c with
  | step | feed => rfl
  | run limit =>
    exact congrArg (List.replicate · Act.step) (h.executed_eq hR _ hf)

theorem acts_eq (h : Simulates g g' free ρ R) (hR : R s s') (patience : Nat) (calls : List Call)
    (hf : ∀ op ∈ g.operations s (g.acts patience s calls), free op) :
    g'.acts patience s' calls = g.acts patience s calls := by
  induction calls generalizing s s' with
  | nil => rfl
  | cons c cs ih =>
    obtain ⟨hc, hcs⟩ := forall_operations_append.1 hf
    unfold acts
    dsimp only
    rw [h.callActs_eq hR c hc, ih (h.after hR _ hc) hcs]

/-- On both sides a call goes the same way, up to and with the first operation that is not free. -/
theorem callActs_prefix (h : Simulates g g' free ρ R) (hR : R s s') {c : Call} {past : List Act}
    (hp : past <+: g.callActs patience s c) (hf : ∀ op ∈ g.operations s past, free op) :
    past <+: g'.callActs patience s' c := by
  cases c with
  | step | feed => exact hp
  | run limit =>
    obtain ⟨hle, hpast⟩ := List.prefix_replicate_iff.1 hp
    rw [hpast] at hf ⊢
    refine List.prefix_replicate_iff.2 ⟨?_, by simp⟩
    rw [List.length_replicate]
    exact h.le_executed hR hle hf

/-- Both sides of a session go the same way as long as none but free operations run. -/
theorem acts_prefix (h : Simulates g g' free ρ R) (hR : R s s') {calls : List Call}
    {past : List Act} (hp : past <+: g.acts patience s calls)
    (hf : ∀ op ∈ g.operations s past, free op) : past <+: g'.acts patience s' calls := by
  induction calls generalizing s s' past with
  | nil => exact hp
  | cons c cs ih =>
    unfold acts at hp ⊢
    dsimp only at hp ⊢
    -- The past ends within the first call or goes on after it.
    rcases List.prefix_or_prefix_of_prefix hp (List.prefix_append _ _) with hpast | ⟨rest, rfl⟩
    · exact (h.callActs_prefix hR hpast hf).trans (List.prefix_append _ _)
    · obtain ⟨hc, hcs⟩ := forall_operations_append.1 hf
      have hrest := (List.prefix_append_right_inj _).1 hp
      rw [h.callActs_eq hR c hc]
      exact (List.prefix_append_right_inj _).2 (ih (h.after hR _ hc) hrest hcs)

end Simulates

/-- Where the steps of two programs are the same from all states with a property that is kept, so are
the sessions. -/
theorem play?_congr {P : State → Prop} (hterminated : ∀ s : State, s.terminated g' = s.terminated g)
    (hsame : ∀ s, P s → g'.step s = g.step s) (hstep : ∀ s, P s → P (g.step s).state)
    (hfeed : ∀ s text, P s → P (s.feed text)) (hs : P s) (patience : Nat) (calls : List Call) :
    g'.play? patience s calls = g.play? patience s calls := by
  have hsim : g.Simulates g' (fun _ => True) Eq fun s t => t = s ∧ P s :=
    { terminated := by
        rintro _ s ⟨rfl, -⟩
        exact hterminated s
      result := by
        rintro _ s ⟨rfl, h⟩
        rw [hsame s h]
      log := by
        rintro _ s ⟨rfl, h⟩
        rw [hsame s h]
        exact List.forall₂_refl _
      step := by
        rintro _ s ⟨rfl, h⟩ -
        exact ⟨congrArg Outcome.state (hsame s h), hstep s h⟩
      feed := by
        rintro _ s text ⟨rfl, h⟩
        exact ⟨rfl, hfeed s text h⟩ }
  have hplay := hsim.play? ⟨rfl, hs⟩ patience calls fun _ _ => trivial
  generalize g.play? patience s calls = a at hplay ⊢
  generalize g'.play? patience s calls = a' at hplay ⊢
  cases hplay with
  | none => rfl
  | some hall =>
    have heq := hall.imp fun o o' h => (h.mono fun _ _ hR => hR.1).eq.symm
    rw [List.forall₂_eq_eq_eq] at heq
    exact congrArg some heq.symm

end Grid
end Piet
