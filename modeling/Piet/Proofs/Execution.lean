import Piet.Execution
import Piet.Proofs.Codels
import Piet.Proofs.Runs
import Piet.Proofs.Soundness

/-! A command line before its run. The numbers, the input and the picture are settled first; what they
leave is a program that launches and a run that only faults can stop. -/
namespace Piet

def TextError.ending : TextError → Ending
  | nulInName => .brokenOff .nulInName
  | unopened name e => .report (.refusal ("Error reading input file: " ++ e.message name))
  | notUtf8 => .brokenOff .undecodableInput

def LoadError.ending (e : LoadError) : Ending := .report (.refusal ("Error: " ++ e.message))

namespace Files

variable {files : Files} {name : String}

theorem readText_of_ok {file : File} (hn : holdsNul name = false) (h : files name = .ok file) :
    files.readText name = file.text?.elim (.error .notUtf8) .ok := by
  unfold readText
  rw [if_neg (by simp [hn]), h]
  cases ht : file.text? <;> simp [ht]

/-- A single black pixel that is read as text. -/
example : let file := File.ofContent "P6\n1 1\n255\n\x00\x00\x00".toUTF8
    file.picture.isOk = true ∧ readText (fun _ => .ok file) "p.ppm" =
      .ok "P6\n1 1\n255\n\x00\x00\x00" := by
  decide +kernel

theorem validated_of_loadGrid {codelSize : Int} {g : Grid}
    (h : files.loadGrid name codelSize = .ok g) : g.Validated := by
  have himage : ∀ im : Image, (Grid.ofImage im).mapError LoadError.grid = .ok g → g.Validated :=
    fun im him => Grid.validated_of_ofImage (mapError_eq_ok_iff.1 him)
  have hcodels : ∀ im : Image, Grid.ofCodels im codelSize = .ok g → g.Validated := by
    intro im him
    unfold Grid.ofCodels at him
    dsimp only at him
    split at him
    · exact himage _ him
    · split at him
      · exact himage _ him
      · cases him
  unfold loadGrid at h
  split at h
  · cases h
  · split at h
    · cases h
    · cases h
    · split at h
      · cases h
      · exact hcodels _ h

end Files

namespace Grid

variable {g : Grid} {s t : State}

theorem Validated.exists_launch (hg : g.Validated) (input : Option String) :
    ∃ log, g.launch input = .ok (.initial input, log) := by
  obtain ⟨c, hc⟩ := hg.colorAt_of_mem hg.origin_mem
  exact ⟨_, by rw [launch, hc]; rfl⟩

theorem Runs.sound {k : Nat} (h : g.Runs s k t) (hs : s.Sound g) : t.Sound g := by
  induction h with
  | refl => exact hs
  | step _ _ _ ih => exact ih (sound_step hs)

end Grid

namespace Settings

/-- What a run needs: the greatest number of steps, the input and the program. -/
def setUp (s : Settings) (files : Files) : Except Ending (Int × Option String × Grid) :=
  s.numbers.bind fun (codelSize, maxSteps) =>
    ((s.readInput files).mapError TextError.ending).bind fun input =>
      ((files.loadGrid s.image codelSize).mapError LoadError.ending).map fun g =>
        (maxSteps, input, g)

/-- One case for each way in which the numbers are checked. -/
inductive Numbered (s : Settings) : Except Ending (Int × Int) → Prop where
  | noCodelSize (h : s.codelSize = none) : Numbered s (.error (.brokenOff .missingNumber))
  | codelTooSmall {c : Int} (hc : s.codelSize = some c) (h : c < 1) :
      Numbered s (.error (.report (.refusal "Error: codel size must be at least 1")))
  | noMaxSteps {c : Int} (hc : s.codelSize = some c) (hpos : 1 ≤ c) (h : s.maxSteps = none) :
      Numbered s (.error (.brokenOff .missingNumber))
  | negative {c n : Int} (hc : s.codelSize = some c) (hpos : 1 ≤ c) (hn : s.maxSteps = some n)
      (h : n < 0) : Numbered s (.error (.report (.refusal "Error: max steps must be 0 or more")))
  | valid {c n : Int} (hc : s.codelSize = some c) (hpos : 1 ≤ c) (hn : s.maxSteps = some n)
      (h : 0 ≤ n) : Numbered s (.ok (c, n))

/-- One case for each way in which the preparation of a run ends. -/
inductive Prepared (s : Settings) (files : Files) :
    Except Ending (Int × Option String × Grid) → Prop where
  | misnumbered {e : Ending} (h : s.numbers = .error e) : Prepared s files (.error e)
  | unread {c n : Int} {e : TextError} (hn : s.numbers = .ok (c, n))
      (h : s.readInput files = .error e) : Prepared s files (.error e.ending)
  | unloaded {c n : Int} {input : Option String} {e : LoadError} (hn : s.numbers = .ok (c, n))
      (hi : s.readInput files = .ok input) (h : files.loadGrid s.image c = .error e) :
      Prepared s files (.error e.ending)
  | ready {c n : Int} {input : Option String} {g : Grid} (hn : s.numbers = .ok (c, n))
      (hi : s.readInput files = .ok input) (h : files.loadGrid s.image c = .ok g) :
      Prepared s files (.ok (n, input, g))

variable {s : Settings} {files : Files}

theorem numbered (s : Settings) : s.Numbered s.numbers := by
  unfold numbers
  split
  · next hc => exact .noCodelSize hc
  · next c hc =>
    split
    · next hsmall => exact .codelTooSmall hc hsmall
    · next hpos =>
      split
      · next hn => exact .noMaxSteps hc (Int.not_lt.1 hpos) hn
      · next n hn =>
        split
        · next hneg => exact .negative hc (Int.not_lt.1 hpos) hn hneg
        · next hnn => exact .valid hc (Int.not_lt.1 hpos) hn (Int.not_lt.1 hnn)

theorem prepared (s : Settings) (files : Files) : s.Prepared files (s.setUp files) := by
  cases hn : s.numbers with
  | error e =>
    rw [setUp, hn]
    exact .misnumbered hn
  | ok numbers =>
    cases hi : s.readInput files with
    | error e =>
      rw [setUp, hn, hi]
      exact .unread hn hi
    | ok input =>
      cases hg : files.loadGrid s.image numbers.1 with
      | error e =>
        have h : s.setUp files = .error e.ending := by
          simp only [setUp, hn, hi, hg, Except.bind, Except.mapError, Except.map]
        rw [h]
        exact .unloaded hn hi hg
      | ok g =>
        have h : s.setUp files = .ok (numbers.2, input, g) := by
          simp only [setUp, hn, hi, hg, Except.bind, Except.mapError, Except.map]
        rw [h]
        exact .ready hn hi hg

theorem execute_of_setUp_eq_error {e : Ending} (h : s.setUp files = .error e) (patience : Nat) :
    s.execute files patience = some e := by
  have hp := s.prepared files
  rw [h] at hp
  cases hp with
  | misnumbered hn => simp only [execute, hn]
  | @unread _ _ e hn hi => cases e <;> simp only [execute, hn, hi, TextError.ending]
  | unloaded hn hi hg => simp only [execute, hn, hi, hg, LoadError.ending]

theorem execute_of_setUp_eq_ok {n : Int} {input : Option String} {g : Grid}
    (h : s.setUp files = .ok (n, input, g)) :
    ∃ log, g.launch input = .ok (.initial input, log) ∧ ∀ patience,
      s.execute files patience = (g.runWithin? patience (limit? n) (.initial input)).map fun o =>
        .report (s.report g n log o) := by
  have hp := s.prepared files
  rw [h] at hp
  cases hp with
  | ready hn hi hg =>
    obtain ⟨log, hlog⟩ := (Files.validated_of_loadGrid hg).exists_launch input
    exact ⟨log, hlog, fun patience => by simp only [execute, hn, hi, hg, hlog]⟩

variable {g : Grid} {o : Outcome Nat} {patience : Nat} {t : State} {m n : Int}

/-- The limit is only spoken of where it was what ended the run. -/
theorem verdict_of_over (h : o.Over g) (m n : Int) : verdict g m o = verdict g n o := by
  unfold verdict
  obtain ⟨result, state, log⟩ := o
  cases result with
  | error e => cases e <;> rfl
  | ok taken =>
    have ht : state.terminated g = true := h.resolve_right fun ⟨e, he⟩ => by cases he
    simp only [ht, if_true]

theorem verdict_status_eq_two_iff : (verdict g n o).1 = 2 ↔ ¬o.Over g := by
  unfold verdict Outcome.Over
  obtain ⟨result, state, log⟩ := o
  cases result with
  | error e => cases e <;> simp
  | ok taken => cases state.terminated g <;> simp

/-- A run without a limit has gone on until it was over, and any other for as long as its limit. -/
theorem runWithin?_limit?_eq_some_iff : g.runWithin? patience (limit? n) t = some o ↔
    (n = 0 ∧ o.Over g ∧ g.run patience t = o) ∨ (n ≠ 0 ∧ g.run n.toNat t = o) := by
  unfold limit?
  by_cases hz : n = 0
  · have hiff : g.runWithin? patience none t = some o ↔ g.run patience t = o ∧ o.Over g :=
      Grid.runOn?_eq_some_iff
    rw [if_pos hz, hiff]
    constructor
    · exact fun ⟨hrun, hover⟩ => Or.inl ⟨hz, hover, hrun⟩
    · rintro (⟨-, hover, hrun⟩ | ⟨hne, -⟩)
      · exact ⟨hrun, hover⟩
      · exact absurd hz hne
  · have hiff : g.runWithin? patience (some n) t = some o ↔ g.run n.toNat t = o := Option.some_inj
    rw [if_neg hz, hiff]
    constructor
    · exact fun hrun => Or.inr ⟨hz, hrun⟩
    · rintro (⟨h, -⟩ | ⟨-, hrun⟩)
      · exact absurd h hz
      · exact hrun

end Settings

/-- Six pixels in a row: push two, duplicate it, write both, and fail on the way back. -/
def doubler : Image :=
  .ofFn 6 1 fun x _ =>
    ([Color.chromatic .red .normal, .chromatic .red .normal, .chromatic .red .dark,
      .chromatic .blue .dark, .chromatic .cyan .light, .chromatic .green .normal].getD x .black).pixel

def doubling : Settings := ⟨"double.png", none, some "in.txt", some 3, some 1, false, false⟩

/-- The input is a four and a carriage return. -/
def doublingFiles : Files := fun name =>
  if name = "double.png" then .ok ⟨⟨#[0x89, 0x50, 0x4e, 0x47]⟩, .ok doubler⟩
  else if name = "in.txt" then .ok (.ofContent ⟨#[0x34, 0x0d]⟩)
  else .error .notFound

theorem execute_doubling : doubling.execute doublingFiles 0 =
    some (.report ⟨2, "2\n", "\n[Step limit of 3 reached]\n"⟩) := by decide +kernel

end Piet
