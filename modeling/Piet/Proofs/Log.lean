import Piet.Proofs.Consumption
import Piet.Proofs.Soundness

/-! The log as an account of a session. Each step that a running program tries leaves one record of
what it met, and the end of the program leaves one more, after which nothing is logged. -/
namespace Piet

/-- What the end of a program leaves in its log; nothing as long as it runs. -/
def State.closing (s : State) (g : Grid) : List Record :=
  if s.terminated g then [.halted s.steps s.output] else []

namespace Grid

/-- The record of a try: a move over the border, also if its operation failed, or an obstruction. -/
inductive Describes (g : Grid) (s : State) : Record → Prop where
  | moved {m : Move} (h : g.Crosses s.position s.heading m)
      (hr : (g.step s).result = .ok (some m.op)) (hp : (g.step s).state.position = m.target) :
      Describes g s (.crossing s.position m)
  | faulted {m : Move} {f : Fault} (h : g.Crosses s.position s.heading m)
      (hr : (g.step s).result = .error (.fault f))
      (hp : (g.step s).state.position = s.position) : Describes g s (.crossing s.position m)
  | obstructed {exit : Position} {target : Option Position}
      (h : g.passage s.position s.heading = .ok (.blocked exit target))
      (hr : (g.step s).result = .ok none) :
      Describes g s (.blocked s.position exit target (g.step s).state.obstructions
        (g.step s).state.heading)

/-- The states on the way through the acts in which a running program tries a step. -/
def tries (g : Grid) : State → List Act → List State
  | _, [] => []
  | s, .step :: as => (if s.terminated g then [] else [s]) ++ g.tries (g.step s).state as
  | s, .feed text :: as => g.tries (s.feed text) as

/-- What the steps log on the way through the acts. -/
def logged (g : Grid) : State → List Act → List Record
  | _, [] => []
  | s, .step :: as => (g.step s).log ++ g.logged (g.step s).state as
  | s, .feed text :: as => g.logged (s.feed text) as

variable {g : Grid} {s : State} {patience : Nat}

theorem Describes.level_eq {r : Record} (h : g.Describes s r) : r.level = .debug := by
  cases h <;> rfl

theorem closing_of_running (h : s.terminated g = false) : s.closing g = [] := by
  rw [State.closing, h]
  rfl

theorem closing_of_terminated (h : s.terminated g = true) :
    s.closing g = [.halted s.steps s.output] := by
  rw [State.closing, h]
  rfl

theorem closing_of_zero (ho : g.colorAt .origin ≠ .ok .black) (h : s.obstructions = 0) :
    s.closing g = [] :=
  closing_of_running (State.terminated_eq_false_iff.2 ⟨ho, by rw [h]; decide⟩)

theorem logged_append (g : Grid) (s : State) (as bs : List Act) :
    g.logged s (as ++ bs) = g.logged s as ++ g.logged (g.after s as) bs := by
  induction as generalizing s with
  | nil => rfl
  | cons a as ih =>
    cases a with
    | step =>
      change (g.step s).log ++ g.logged (g.step s).state (as ++ bs) = _
      rw [ih, ← List.append_assoc]
      rfl
    | feed text => exact ih _

theorem run_log (g : Grid) (n : Nat) (s : State) :
    (g.run n s).log = g.logged s (.replicate (g.executed n s) .step) := by
  induction n generalizing s with
  | zero => rfl
  | succ n ih =>
    cases h : s.terminated g with
    | true =>
      rw [run_succ_of_terminated n h, executed_of_terminated _ h]
      rfl
    | false =>
      cases hr : (g.step s).result with
      | ok a =>
        rw [run_succ n h hr, executed_succ_of_ok n h hr, ih]
        rfl
      | error e =>
        rw [run_succ_of_error n h hr, executed_succ_of_error n h hr]
        exact (List.append_nil _).symm

theorem call?_log {c : Call} {o : Outcome Answer} (h : g.call? patience s c = some o) :
    o.log = g.logged s (g.callActs patience s c) := by
  cases c with
  | step =>
    cases h
    exact (List.append_nil _).symm
  | feed text =>
    cases h
    rfl
  | run limit =>
    obtain ⟨o', ho, rfl⟩ := Option.map_eq_some_iff.1 h
    rw [runWithin?_eq ho]
    exact run_log g _ s

theorem play?_log {calls : List Call} {os : List (Outcome Answer)}
    (h : g.play? patience s calls = some os) :
    os.flatMap Outcome.log = g.logged s (g.acts patience s calls) := by
  induction calls generalizing s os with
  | nil =>
    cases h
    rfl
  | cons c cs ih =>
    obtain ⟨o, os', ho, hos, rfl⟩ := exists_of_play?_cons h
    rw [List.flatMap_cons, ih hos, call?_state ho, call?_log ho, acts, logged_append]

/-- A program that has ended tries and logs nothing, and its steps and its output stay. -/
theorem ended_after (h : s.terminated g = true) (as : List Act) :
    g.tries s as = [] ∧ g.logged s as = [] ∧ (g.after s as).terminated g = true ∧
      (g.after s as).steps = s.steps ∧ (g.after s as).output = s.output := by
  induction as generalizing s with
  | nil => exact ⟨rfl, rfl, h, rfl, rfl⟩
  | cons a as ih =>
    cases a with
    | step =>
      rw [after_cons, act, tries, logged, step_of_terminated h, if_pos h]
      exact ih h
    | feed text => exact ih (s := s.feed text) h

/-- A step of a running program logs one record of its try, and the end of the program if it has come
to that. -/
theorem Validated.exists_record (hg : g.Validated) (hs : s.Sound g) (ht : s.terminated g = false) :
    ∃ r, g.Describes s r ∧ (g.step s).log = r :: (g.step s).state.closing g := by
  have horigin := (State.terminated_eq_false_iff.1 ht).1
  have hcase := g.stepped s
  generalize ho : g.step s = o at hcase
  cases hcase with
  | ended h =>
    rw [ht] at h
    cases h
  | failed _ hp =>
    obtain ⟨f, rfl⟩ := hg.fault_of_step_error hs (congrArg Outcome.result ho)
    rcases passage_error hp with ⟨q, he⟩ | ⟨rgb, he⟩ | ⟨c, he⟩ <;> cases he
  | obstructed _ hp =>
    refine ⟨_, .obstructed hp (congrArg Outcome.result ho), ?_⟩
    rw [ho]
    rfl
  | moved _ hp hop =>
    refine ⟨_, .moved (crosses_of_passage hp) (congrArg Outcome.result ho) (by rw [ho]), ?_⟩
    refine congrArg (List.cons _) (closing_of_zero horigin ?_).symm
    exact (Op.perform_frame hop).obstructions
  | faulted _ hp =>
    refine ⟨_, .faulted (crosses_of_passage hp) (congrArg Outcome.result ho) (by rw [ho]), ?_⟩
    exact congrArg (List.cons _) (closing_of_zero horigin rfl).symm

/-- The log of a running program goes through its tries one by one, and closes with its end. -/
theorem Validated.exists_account (hg : g.Validated) (hs : s.Sound g) (ht : s.terminated g = false)
    (as : List Act) : ∃ rs, List.Forall₂ g.Describes (g.tries s as) rs ∧
      g.logged s as = rs ++ (g.after s as).closing g := by
  induction as generalizing s with
  | nil => exact ⟨[], .nil, (closing_of_running ht).symm⟩
  | cons a as ih =>
    cases a with
    | feed text => exact ih (sound_feed hs text) ht
    | step =>
      obtain ⟨r, hr, hlog⟩ := hg.exists_record hs ht
      have htries : g.tries s (.step :: as) = s :: g.tries (g.step s).state as := by
        rw [tries, if_neg (by simp [ht])]
        rfl
      rw [after_cons, act, htries, logged, hlog]
      cases ht' : (g.step s).state.terminated g with
      | true =>
        obtain ⟨htries', hlogged', hended, hsteps, houtput⟩ := ended_after ht' as
        refine ⟨[r], ?_, ?_⟩
        · rw [htries']
          exact .cons hr .nil
        · rw [hlogged', closing_of_terminated ht', closing_of_terminated hended, hsteps, houtput]
          rfl
      | false =>
        obtain ⟨rs, hrs, hlogged⟩ := ih (sound_step hs) ht'
        refine ⟨r :: rs, .cons hr hrs, ?_⟩
        rw [closing_of_running ht', hlogged]
        rfl

/-- The records of the tries are those for debugging, and what closes the log is of interest to all. -/
theorem filter_level_account {ss : List State} {rs : List Record}
    (h : List.Forall₂ g.Describes ss rs) (s : State) :
    (rs ++ s.closing g).filter (·.level = .debug) = rs ∧
      (rs ++ s.closing g).filter (·.level = .info) = s.closing g := by
  induction h with
  | nil =>
    rw [List.nil_append, State.closing]
    split <;> exact ⟨rfl, rfl⟩
  | cons hr _ ih =>
    rw [List.cons_append, List.filter_cons_of_pos (by simp [hr.level_eq]),
      List.filter_cons_of_neg (by simp [hr.level_eq]), ih.1, ih.2]
    exact ⟨rfl, rfl⟩

/-- The log describes the steps that were tried, one for one, and then tells once how the program
ended. -/
theorem session_log (hg : g.Validated) {input : Option String} {calls : List Call}
    {os : List (Outcome Answer)} (hos : g.play? patience (.initial input) calls = some os) :
    let s₀ := State.initial input
    let s := s₀.latest os
    ∃ launchLog, g.launch input = .ok (s₀, launchLog) ∧
      let log := launchLog ++ os.flatMap Outcome.log
      List.Forall₂ g.Describes (g.tries s₀ (g.acts patience s₀ calls))
        (log.filter (·.level = .debug)) ∧
      (s.terminated g = false → log.filter (·.level = .info) = []) ∧
      (s.terminated g = true → ∃ r, log.filter (·.level = .info) = [r] ∧
        (g.colorAt .origin ≠ .ok .black →
          r = .halted s.steps s.output ∧ log.getLast? = some r) ∧
        ∀ patience' later os', g.play? patience' s later = some os' →
          os'.flatMap Outcome.log = [] ∧ (s.latest os').steps = s.steps ∧
            (s.latest os').output = s.output) := by
  intro s₀ s
  have hs : s = g.after s₀ (g.acts patience s₀ calls) := play?_latest hos
  have hlater : s.terminated g = true → ∀ patience' later os', g.play? patience' s later = some os' →
      os'.flatMap Outcome.log = [] ∧ (s.latest os').steps = s.steps ∧
        (s.latest os').output = s.output := by
    intro ht patience' later os' hos'
    obtain ⟨-, hlogged, -, hsteps, houtput⟩ := ended_after ht (g.acts patience' s later)
    rw [play?_log hos', play?_latest hos']
    exact ⟨hlogged, hsteps, houtput⟩
  have hlog : os.flatMap Outcome.log = g.logged s₀ (g.acts patience s₀ calls) := play?_log hos
  obtain ⟨c, hc⟩ := hg.colorAt_of_mem hg.origin_mem
  by_cases hblack : c = .black
  · subst hblack
    have ht₀ : s₀.terminated g = true := State.terminated_iff.2 (Or.inl hc)
    obtain ⟨htries, hlogged, ht, -, -⟩ := ended_after ht₀ (g.acts patience s₀ calls)
    rw [← hs] at ht
    refine ⟨[.blackOrigin], by rw [launch, hc]; rfl, ?_⟩
    rw [hlog, htries, hlogged]
    refine ⟨.nil, fun h => ?_, fun _ => ⟨_, rfl, fun ho => absurd hc ho, hlater ht⟩⟩
    rw [ht] at h
    cases h
  · have ho : g.colorAt .origin ≠ .ok .black := by
      rw [hc]
      exact fun h => hblack (Except.ok.inj h)
    have ht₀ : s₀.terminated g = false :=
      State.terminated_eq_false_iff.2 ⟨ho, (by decide : (0 : Int) < 8)⟩
    obtain ⟨rs, hrs, hlogged⟩ := hg.exists_account (s := s₀) (hg.sound_initial input) ht₀
      (g.acts patience s₀ calls)
    obtain ⟨hdebug, hinfo⟩ := filter_level_account hrs s
    rw [← hs, ← hlog] at hlogged
    refine ⟨[], by rw [launch, hc]; simp [Except.map, hblack, s₀], ?_⟩
    simp only [hlogged, List.nil_append, hdebug, hinfo]
    refine ⟨hrs, closing_of_running, fun ht => ⟨_, closing_of_terminated ht, fun _ => ⟨rfl, ?_⟩,
      hlater ht⟩⟩
    rw [closing_of_terminated ht, List.getLast?_concat]

theorem session_log_cell : cell.Validated ∧ ∃ os,
    cell.play? 0 (.initial none) [.run (some 5), .feed "7", .run (some 9), .step] = some os ∧
    ((State.initial none).latest os).terminated cell = true ∧
    (os.flatMap Outcome.log).getLast? = some (.halted 0 "") ∧
    ((os.flatMap Outcome.log).filter (·.level = .debug)).length = 8 := by
  have hv := cell_accepted.validated
  obtain ⟨os, hos⟩ := exists_play? cell 0 (.initial none)
    (show Call.run none ∉ [.run (some 5), .feed "7", .run (some 9), .step] by decide)
  obtain ⟨launchLog, hlaunch, htries, -, hended⟩ := session_log hv hos
  have hnone : cell.launch none = .ok (.initial none, []) := rfl
  obtain rfl : launchLog = [] := congrArg Prod.snd (Except.ok.inj (hlaunch.symm.trans hnone))
  have ht : ((State.initial none).latest os).terminated cell = true := by
    rw [play?_latest hos]
    decide +kernel
  have hhalted : Record.halted ((State.initial none).latest os).steps
      ((State.initial none).latest os).output = .halted 0 "" := by
    rw [play?_latest hos]
    decide +kernel
  obtain ⟨r, -, hlast, -⟩ := hended ht
  obtain ⟨rfl, hlast⟩ := hlast (by decide)
  refine ⟨hv, os, hos, ht, hlast.trans (congrArg some hhalted), ?_⟩
  exact htries.length_eq.symm.trans (by decide +kernel)

end Grid
end Piet
