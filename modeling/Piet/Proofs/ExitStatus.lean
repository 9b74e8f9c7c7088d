import Piet.Proofs.Execution

/-! What the exit status says. It tells a program that halted from one that met its step limit and one
that failed, and what ends before its run from all of them. -/
namespace Piet

namespace Grid

/-- How a program ends under a step limit, of which zero is none: the exit status that stands for it
and the state it leaves. -/
inductive Ends (g : Grid) (s : State) (limit : Nat) : Nat → State → Prop where
  | halted {k : Nat} {t : State} (h : g.Runs s k t) (hk : limit = 0 ∨ k ≤ limit)
      (ht : t.terminated g = true) : Ends g s limit 0 t
  | stopped {t : State} (hpos : 0 < limit) (h : g.Runs s limit t) (ht : t.terminated g = false) :
      Ends g s limit 2 t
  /-- The fault is that of the step after the first `k`. -/
  | faulted {k : Nat} {t : State} {f : Fault} (h : g.Runs s k t) (hk : limit = 0 ∨ k < limit)
      (hf : (g.step t).result = .error (.fault f)) : Ends g s limit 1 (g.step t).state

end Grid

namespace Settings

/-- A file is asked for by a name that is not empty. -/
def AsksFor (s : Settings) (name : String) : Prop := s.inputFile = some name ∧ name ≠ ""

/-- What a program reads: the text given as an argument and after it that of the file, or nothing
without either. -/
inductive Reads (s : Settings) (files : Files) : Option String → Prop where
  | argument (h : ∀ name, ¬s.AsksFor name) : Reads s files s.input
  | file {name text : String} {file : File} (h : s.AsksFor name) (hf : files name = .ok file)
      (ht : file.text? = some text) : Reads s files (some (s.input.getD "" ++ text))

/-- Options that have the numbers they ask for, and a name that a file can have. -/
structure Regular (s : Settings) (c n : Int) : Prop where
  codelSize : s.codelSize = some c
  maxSteps : s.maxSteps = some n
  inputFile : ∀ name, s.AsksFor name → holdsNul name = false

/-- The input and the program of a command line that nothing keeps from running. -/
structure Starts (s : Settings) (files : Files) (c n : Int) (input : Option String) (g : Grid) :
    Prop where
  codelSize : 1 ≤ c
  maxSteps : 0 ≤ n
  input : s.Reads files input
  image : files.loadGrid s.image c = .ok g

end Settings

namespace Grid

open Settings (limit? verdict runWithin?_limit?_eq_some_iff)

variable {g : Grid} {s t : State} {n : Int} {patience patience' status : Nat} {o o' : Outcome Nat}

theorem runWithin?_unique (h : g.runWithin? patience (limit? n) s = some o)
    (h' : g.runWithin? patience' (limit? n) s = some o') : o' = o := by
  rcases runWithin?_limit?_eq_some_iff.1 h with ⟨hz, hover, rfl⟩ | ⟨hne, rfl⟩
  · obtain ⟨-, hover', rfl⟩ := (runWithin?_limit?_eq_some_iff.1 h').resolve_right fun h => h.1 hz
    exact run_eq_of_over hover hover'
  · obtain ⟨-, rfl⟩ := (runWithin?_limit?_eq_some_iff.1 h').resolve_left fun h => hne h.1
    rfl

theorem ran_of_runWithin? (h : g.runWithin? patience (limit? n) s = some o) :
    ∃ k, g.Ran s k o ∧ (n = 0 → o.Over g) ∧ (n ≠ 0 → k = n.toNat) := by
  rcases runWithin?_limit?_eq_some_iff.1 h with ⟨hz, hover, rfl⟩ | ⟨hne, rfl⟩
  · exact ⟨patience, g.ran s patience, fun _ => hover, fun hne => absurd hz hne⟩
  · exact ⟨n.toNat, g.ran s _, fun hz => absurd hz hne, fun _ => rfl⟩

/-- The status of a run tells how the program ended. -/
theorem Validated.ends_of_runWithin? (hg : g.Validated) (hs : s.Sound g) (hn : 0 ≤ n)
    (h : g.runWithin? patience (limit? n) s = some o) :
    g.Ends s n.toNat (verdict g n o).1 o.state := by
  obtain ⟨k, hk, hzero, hpos⟩ := ran_of_runWithin? h
  have hbound : n.toNat = 0 ∨ k = n.toNat := by omega
  unfold verdict
  cases hk with
  | @halted j h hj ht hr =>
    rw [hr]
    simp only [ht, if_true]
    exact .halted h (by omega) ht
  | limited h ht hr =>
    rw [hr]
    simp only [ht]
    have hne : n ≠ 0 := by
      intro hz
      rcases hzero hz with hover | ⟨e, he⟩
      · rw [ht] at hover
        cases hover
      · rw [hr] at he
        cases he
    have hkn := hpos hne
    exact .stopped (by omega) (hkn ▸ h) ht
  | @failed j t e h hj ht he hr hstate =>
    obtain ⟨f, rfl⟩ := hg.fault_of_step_error (h.sound hs) he
    rw [hr, hstate]
    exact .faulted h (by omega) he

theorem Ends.exists_run (hn : 0 ≤ n) (h : g.Ends s n.toNat status t) :
    ∃ patience o, g.runWithin? patience (limit? n) s = some o ∧ (verdict g n o).1 = status ∧
      o.state = t := by
  -- A program that is over after some number of steps is so under every limit that is not lower.
  have hover : ∀ k, (n.toNat = 0 ∨ k ≤ n.toNat) → (g.run k s).Over g →
      g.runWithin? k (limit? n) s = some (g.run k s) := by
    intro k hk ho
    rw [runWithin?_limit?_eq_some_iff]
    by_cases hz : n = 0
    · exact Or.inl ⟨hz, ho, rfl⟩
    · exact Or.inr ⟨hz, run_of_over ho (by omega)⟩
  cases h with
  | @halted k _ h hk ht =>
    obtain ⟨log, hlog⟩ := h.run_eq
    have hrun := hover k hk (by rw [hlog]; exact Or.inl ht)
    refine ⟨k, _, hrun, ?_, ?_⟩
    · simp [hlog, verdict, ht]
    · rw [hlog]
  | stopped hpos h ht =>
    obtain ⟨log, hlog⟩ := h.run_eq
    have hne : n ≠ 0 := by omega
    refine ⟨0, _, runWithin?_limit?_eq_some_iff.2 (Or.inr ⟨hne, rfl⟩), ?_, ?_⟩
    · simp [hlog, verdict, ht]
    · rw [hlog]
  | @faulted k u f h hk hf =>
    have ht : u.terminated g = false := by
      by_contra ht
      rw [step_of_terminated (by simpa using ht)] at hf
      cases hf
    obtain ⟨log, hlog⟩ := h.run_eq_of_error ht hf
    have hrun := hover (k + 1) (hk.imp_right Nat.succ_le_of_lt) (by rw [hlog]; exact Or.inr ⟨_, rfl⟩)
    refine ⟨k + 1, _, hrun, ?_, ?_⟩
    · simp [hlog, verdict]
    · rw [hlog]

end Grid

namespace Settings

variable {s : Settings} {files : Files} {c n : Int} {name : String} {input : Option String}
  {g : Grid}

theorem readInput_of_asksFor (h : s.AsksFor name) :
    s.readInput files = (files.readText name).map fun text => some (s.input.getD "" ++ text) := by
  unfold readInput
  rw [h.1]
  split
  · next heq => cases heq
  · next heq => exact absurd (Option.some.inj heq) h.2
  · next heq => rw [Option.some.inj heq]

theorem readInput_of_not_asksFor (h : ∀ name, ¬s.AsksFor name) :
    s.readInput files = .ok s.input := by
  unfold readInput
  split
  · rfl
  · rfl
  · next name hne heq => exact absurd ⟨heq, hne⟩ (h name)

theorem Reads.readInput_eq (h : s.Reads files input) (hs : s.Regular c n) :
    s.readInput files = .ok input := by
  cases h with
  | argument h => exact readInput_of_not_asksFor h
  | file h hf ht =>
    rw [readInput_of_asksFor h, Files.readText_of_ok (hs.inputFile _ h) hf, ht]
    rfl

namespace Regular

theorem numbers_eq (hs : s.Regular c n) (hc : 1 ≤ c) (hn : 0 ≤ n) : s.numbers = .ok (c, n) := by
  simp only [numbers, hs.codelSize, hs.maxSteps, if_neg (Int.not_lt.2 hc), if_neg (Int.not_lt.2 hn)]

theorem setUp_of_starts (hs : s.Regular c n) (h : s.Starts files c n input g) :
    s.setUp files = .ok (n, input, g) := by
  simp only [setUp, hs.numbers_eq h.codelSize h.maxSteps, h.input.readInput_eq hs, h.image,
    Except.bind, Except.mapError]
  rfl

end Regular

/-- What a started program leaves is told by its ending. -/
theorem Starts.execute (hs : s.Regular c n) (h : s.Starts files c n input g) {patience : Nat}
    {e : Ending} (he : s.execute files patience = some e) :
    ∃ r t, e = .report r ∧ r.stdout = t.output ++ "\n" ∧
      ∀ status u, g.Ends (.initial input) n.toNat status u ↔ status = r.status ∧ u = t := by
  obtain ⟨log, -, hexec⟩ := execute_of_setUp_eq_ok (hs.setUp_of_starts h)
  rw [hexec] at he
  obtain ⟨o, ho, rfl⟩ := Option.map_eq_some_iff.1 he
  refine ⟨_, o.state, rfl, rfl, fun status u => ⟨fun hends => ?_, ?_⟩⟩
  · obtain ⟨patience', o', ho', rfl, rfl⟩ := hends.exists_run h.maxSteps
    rw [Grid.runWithin?_unique ho ho']
    exact ⟨rfl, rfl⟩
  · rintro ⟨rfl, rfl⟩
    have hv := Files.validated_of_loadGrid h.image
    exact hv.ends_of_runWithin? (hv.sound_initial input) h.maxSteps ho

end Settings
end Piet
