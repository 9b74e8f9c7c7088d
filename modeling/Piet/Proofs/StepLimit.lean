import Piet.Proofs.Execution

/-! The same command line under two step limits. A higher limit changes nothing for a run that came to
its end under the lower one, and any other run it only takes further. -/
namespace Piet.Settings

def withLimit (s : Settings) (n : Int) : Settings := { s with maxSteps := some n }

variable {s : Settings} {files : Files} {g : Grid} {t : State} {o o' : Outcome Nat}
  {m n : Int} {patience patience' : Nat}

theorem numbers_withLimit (s : Settings) (hm : 0 ≤ m) (hn : 0 ≤ n) :
    (s.withLimit m).numbers = (s.withLimit n).numbers.map fun r => (r.1, m) := by
  unfold numbers withLimit
  cases s.codelSize with
  | none => rfl
  | some c =>
    by_cases hc : c < 1
    · simp only [if_pos hc]
      rfl
    · simp only [if_neg hc, if_neg (Int.not_lt.2 hm), if_neg (Int.not_lt.2 hn)]
      rfl

/-- Nothing but the run itself depends on a limit that is not negative. -/
theorem setUp_withLimit (s : Settings) (files : Files) (hm : 0 ≤ m) (hn : 0 ≤ n) :
    (s.withLimit m).setUp files = ((s.withLimit n).setUp files).map fun r => (m, r.2) := by
  have hi : (s.withLimit m).readInput files = (s.withLimit n).readInput files := rfl
  have hp : (s.withLimit m).image = (s.withLimit n).image := rfl
  unfold setUp
  rw [numbers_withLimit s hm hn, hi, hp]
  cases (s.withLimit n).numbers with
  | error e => rfl
  | ok numbers =>
    cases (s.withLimit n).readInput files with
    | error e => rfl
    | ok input =>
      simp only [Except.map, Except.bind, Except.mapError]
      cases files.loadGrid (s.withLimit n).image numbers.1 <;> rfl

/-- What ends before its run does not end with the status of a step limit. -/
theorem status_of_setUp_eq_error {e : Ending} (h : s.setUp files = .error e) {r : Report}
    (hr : e = .report r) : r.status ≠ 2 := by
  have hp := s.prepared files
  rw [h] at hp
  cases hp with
  | misnumbered hn =>
    have hnumbered := s.numbered
    rw [hn] at hnumbered
    cases hnumbered <;> cases hr <;> exact (by decide : 1 ≠ 2)
  | @unread _ _ e =>
    cases e with
    | nulInName | notUtf8 => cases hr
    | unopened name e =>
      cases hr
      exact (by decide : 1 ≠ 2)
  | unloaded =>
    cases hr
    exact (by decide : 1 ≠ 2)

/-- A run that ends by itself ends the same way under a higher limit, and any other has only more to
write. -/
theorem runWithin?_raise (hn : 1 ≤ n) (hm : n ≤ m ∨ m = 0)
    (h : g.runWithin? patience (limit? n) t = some o)
    (h' : g.runWithin? patience' (limit? m) t = some o') :
    (o.Over g → o' = o) ∧ o.state.output.toList <+: o'.state.output.toList := by
  obtain ⟨-, rfl⟩ := (runWithin?_limit?_eq_some_iff.1 h).resolve_left (by omega)
  rcases runWithin?_limit?_eq_some_iff.1 h' with ⟨-, hover', rfl⟩ | ⟨hne, rfl⟩
  · refine ⟨fun hover => Grid.run_eq_of_over hover hover', ?_⟩
    rcases Nat.le_total n.toNat patience' with hle | hle
    · exact Grid.output_run_prefix t hle
    · have heq : g.run n.toNat t = g.run patience' t := Grid.run_of_over hover' hle
      exact heq ▸ List.prefix_rfl
  · have hle : n.toNat ≤ m.toNat := by omega
    exact ⟨fun hover => Grid.run_of_over hover hle, Grid.output_run_prefix t hle⟩

theorem report_withLimit (s : Settings) (h : o.Over g) (m n : Int) (log : List Record) :
    (s.withLimit m).report g m log o = (s.withLimit n).report g n log o := by
  unfold report
  rw [verdict_of_over h m n]
  rfl

/-- A higher limit changes nothing unless the lower one was reached, and then there is only more to
write. -/
theorem execute_raise {e e' : Ending} (hn : 1 ≤ n) (hm : n ≤ m ∨ m = 0)
    (h : (s.withLimit n).execute files patience = some e)
    (h' : (s.withLimit m).execute files patience' = some e') :
    ((∀ r, e = .report r → r.status ≠ 2) → e' = e) ∧
      ∀ r, e = .report r → r.status = 2 → ∃ r' out out', e' = .report r' ∧
        r.stdout = out ++ "\n" ∧ r'.stdout = out' ++ "\n" ∧ out.toList <+: out'.toList := by
  have hup := setUp_withLimit s files (show 0 ≤ n by omega) le_rfl
  have hup' := setUp_withLimit s files (show 0 ≤ m by omega) le_rfl
  cases hs : (s.withLimit 0).setUp files with
  | error early =>
    rw [hs] at hup hup'
    rw [execute_of_setUp_eq_error hup] at h
    rw [execute_of_setUp_eq_error hup'] at h'
    cases h
    cases h'
    exact ⟨fun _ => rfl, fun r hr hstatus => absurd hstatus (status_of_setUp_eq_error hs hr)⟩
  | ok ready =>
    obtain ⟨_, input, g⟩ := ready
    rw [hs] at hup hup'
    obtain ⟨log, hlog, hexec⟩ := execute_of_setUp_eq_ok hup
    obtain ⟨log', hlog', hexec'⟩ := execute_of_setUp_eq_ok hup'
    have hlogs : log' = log := by
      rw [hlog] at hlog'
      cases hlog'
      rfl
    rw [hexec] at h
    rw [hexec', hlogs] at h'
    obtain ⟨o, ho, rfl⟩ := Option.map_eq_some_iff.1 h
    obtain ⟨o', ho', rfl⟩ := Option.map_eq_some_iff.1 h'
    obtain ⟨hover, hprefix⟩ := runWithin?_raise hn hm ho ho'
    constructor
    · intro hstatus
      have hend : o.Over g := by
        by_contra hrunning
        exact hstatus _ rfl (verdict_status_eq_two_iff.2 hrunning)
      rw [hover hend, report_withLimit s hend m n]
    · intro r hr _
      cases hr
      exact ⟨_, o.state.output, o'.state.output, rfl, rfl, rfl, hprefix⟩

theorem execute_doubling_unlimited : (doubling.withLimit 0).execute doublingFiles 9 =
    some (.report ⟨1, "22\n",
      "\n[Runtime error at (5, 0): multiply needs 2 value(s), stack has 0]\n"⟩) := by
  decide +kernel

theorem execute_raise_doubling : ∃ r r', (doubling.withLimit 3).execute doublingFiles 0 =
      some (.report r) ∧ (doubling.withLimit 0).execute doublingFiles 9 = some (.report r') ∧
    ∃ out out', r.stdout = out ++ "\n" ∧ r'.stdout = out' ++ "\n" ∧ out.toList <+: out'.toList := by
  have hthree : (doubling.withLimit 3).execute doublingFiles 0 = _ := execute_doubling
  obtain ⟨-, hlimited⟩ := execute_raise (by decide : (1 : Int) ≤ 3) (Or.inr rfl) hthree
    execute_doubling_unlimited
  obtain ⟨r', out, out', hr', hout, hout', hprefix⟩ := hlimited _ rfl rfl
  exact ⟨_, r', hthree, hr' ▸ execute_doubling_unlimited, out, out', hout, hout', hprefix⟩

end Piet.Settings
