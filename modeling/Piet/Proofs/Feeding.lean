import Piet.Proofs.Lockstep
import Piet.Proofs.Reading
import Piet.Proofs.Relocation

/-! Early and late input. Text goes unnoticed unless a step asks for input in vain or reads a number
up to the very end of what is there. -/
namespace Piet

namespace Act

def isStep : Act → Bool
  | step => true
  | feed _ => false

/-- The text that arrives on the way through the acts. -/
def arriving : List Act → String
  | [] => ""
  | step :: as => arriving as
  | feed text :: as => text ++ arriving as

/-- The same steps and text, but text comes no later to the second sequence, which is `ahead` by
what the first still lacks. -/
inductive Sooner : Option String → List Act → List Act → Prop where
  | nil : Sooner none [] []
  | step {ahead : Option String} {as bs : List Act} (h : Sooner ahead as bs) :
      Sooner ahead (step :: as) (step :: bs)
  /-- The second sequence gets text before the first does. -/
  | early {ahead : Option String} {as bs : List Act} {text : String}
      (h : Sooner (some (ahead.getD "" ++ text)) as bs) : Sooner ahead as (feed text :: bs)
  /-- The first sequence gets text that the second has already. -/
  | late {ahead : Option String} {as bs : List Act} {text : String} (h : Sooner ahead as bs) :
      Sooner (some (text ++ ahead.getD "")) (feed text :: as) bs

end Act

/-- A state with text that has arrived, if any has. -/
def State.feed? (s : State) : Option String → State
  | none => s
  | some text => s.feed text

namespace Grid

/-- A step that does not notice the text: it neither asks for input in vain nor reads a number that
the text goes on with. -/
structure Settled (g : Grid) (s : State) (text : String) : Prop where
  not_starved : ∀ f, (g.step s).result = .error (.fault f) → f.wantsInput = false
  not_cut : (g.step s).result = .ok (some .inNumber) → (g.step s).state.input.unread = [] →
    ∀ c ∈ text.toList.head?, c.isDigit = false

/-- What the steps answer on the way through the acts. -/
def results (g : Grid) : State → List Act → List (Except Error (Option Op))
  | _, [] => []
  | s, .step :: as => (g.step s).result :: g.results (g.step s).state as
  | s, .feed text :: as => g.results (s.feed text) as

/-- No step on the way notices whether the text to come has arrived. -/
def Smooth (g : Grid) : State → List Act → Prop
  | _, [] => True
  | s, .step :: as => g.Settled s (Act.arriving as) ∧ g.Smooth (g.step s).state as
  | s, .feed text :: as => g.Smooth (s.feed text) as

end Grid

theorem State.feed?_feed (s : State) (ahead : Option String) (text : String) :
    (s.feed? ahead).feed text = s.feed? (some (ahead.getD "" ++ text)) := by
  cases ahead with
  | none => simp [feed?]
  | some t => simp [feed?, feed, Input.feed]

theorem State.feed_feed? (s : State) (text : String) (ahead : Option String) :
    (s.feed text).feed? ahead = s.feed? (some (text ++ ahead.getD "")) := by
  cases ahead with
  | none => simp [feed?]
  | some t => simp [feed?, feed, Input.feed]

namespace Act

variable {ahead : Option String} {as bs : List Act}

/-- In all the same text arrives. -/
theorem Sooner.arriving_eq (h : Sooner ahead as bs) :
    arriving as = ahead.getD "" ++ arriving bs := by
  induction h with
  | nil => rfl
  | step h ih => exact ih
  | early h ih => rw [ih, arriving, Option.getD_some, String.append_assoc]
  | late h ih => rw [arriving, ih, Option.getD_some, String.append_assoc]

theorem arriving_filter_isStep (as : List Act) : arriving (as.filter isStep) = "" := by
  induction as with
  | nil => rfl
  | cons a as ih => cases a <;> exact ih

/-- All the text can come to the second sequence before its first step. -/
theorem sooner_upFront {text : String} (h : feed text ∈ as) :
    Sooner none as (feed (arriving as) :: as.filter isStep) := by
  have hsteps : ∀ as : List Act, ∃ ahead, Sooner ahead as (as.filter isStep) ∧
      (ahead = none → ∀ text, feed text ∉ as) := by
    intro as
    induction as with
    | nil => exact ⟨none, .nil, fun _ _ hm => nomatch hm⟩
    | cons a as ih =>
      obtain ⟨ahead, hs, hnone⟩ := ih
      cases a with
      | step => exact ⟨ahead, hs.step, fun hn text hm => hnone hn text (by simpa using hm)⟩
      | feed text => exact ⟨_, hs.late, fun hn => nomatch hn⟩
  obtain ⟨ahead, hs, hnone⟩ := hsteps as
  obtain ⟨t, rfl⟩ : ∃ t, ahead = some t :=
    Option.ne_none_iff_exists'.1 fun hn => hnone hn text h
  have ht := hs.arriving_eq
  rw [arriving_filter_isStep, Option.getD_some, String.append_empty] at ht
  refine .early ?_
  rwa [Option.getD_none, String.empty_append, ht]

end Act

namespace Grid

variable {g : Grid} {s : State} {text more : String} {as bs : List Act}

/-- Of a text that is not noticed no beginning is. -/
theorem Settled.of_append (h : g.Settled s (text ++ more)) : g.Settled s text where
  not_starved := h.not_starved
  not_cut hr hu c hc := by
    refine h.not_cut hr hu c ?_
    rw [String.toList_append, List.head?_append, Option.mem_def.1 hc]
    rfl

theorem step_of_passage {a : Except Error Passage} (ht : s.terminated g = false)
    (hp : g.passage s.position s.heading = a) : g.step s = g.proceed s a := by
  rw [step_of_running ht, advance, hp]

/-- A step that does not notice the text goes the same way before and after it arrives. -/
theorem step_feed (h : g.Settled s text) :
    g.step (s.feed text) = ⟨(g.step s).result, (g.step s).state.feed text, (g.step s).log⟩ := by
  have hs := g.stepped s
  obtain ⟨hstarved, hcut⟩ := h
  generalize g.step s = o at hs hstarved hcut ⊢
  cases hs with
  | ended ht => exact step_of_terminated (s := s.feed text) ht
  | failed ht hp => exact step_of_passage (s := s.feed text) ht hp
  | obstructed ht hp => exact step_of_passage (s := s.feed text) ht hp
  | @moved m s' ht hp ho =>
    have hfed := Op.perform_feed_ok ho fun hn => hcut (by rw [hn])
    rw [step_of_passage (s := s.feed text) ht hp]
    exact cross_of_ok (s := s.feed text) hfed
  | @faulted m f ht hp ho =>
    have hfed := Op.perform_feed_error ho (hstarved f rfl) text
    rw [step_of_passage (s := s.feed text) ht hp]
    exact cross_of_error (s := s.feed text) hfed

theorem step_feed? {ahead : Option String} (h : g.Settled s (ahead.getD "")) :
    (g.step (s.feed? ahead)).result = (g.step s).result ∧
      (g.step (s.feed? ahead)).state = (g.step s).state.feed? ahead := by
  cases ahead with
  | none => exact ⟨rfl, rfl⟩
  | some text =>
    have hfed : g.step (s.feed text) = _ := step_feed h
    change (g.step (s.feed text)).result = _ ∧ (g.step (s.feed text)).state = _
    rw [hfed]
    exact ⟨rfl, rfl⟩

/-- A run in which no step notices the text to come answers the same, and ends in the same state, if
the text comes sooner. -/
theorem Smooth.after_sooner {ahead : Option String} (h : g.Smooth s as)
    (hb : Act.Sooner ahead as bs) :
    g.results (s.feed? ahead) bs = g.results s as ∧
      g.after (s.feed? ahead) bs = g.after s as := by
  induction hb generalizing s with
  | nil => exact ⟨rfl, rfl⟩
  | @step ahead as bs hb ih =>
    obtain ⟨hsettled, hrest⟩ := h
    rw [hb.arriving_eq] at hsettled
    obtain ⟨hresult, hstate⟩ := step_feed? hsettled.of_append
    obtain ⟨hresults, hafter⟩ := ih hrest
    rw [← hstate] at hresults hafter
    exact ⟨congrArg₂ List.cons hresult hresults, hafter⟩
  | @early ahead as bs text hb ih =>
    have hrest := ih h
    rw [← State.feed?_feed] at hrest
    exact hrest
  | @late ahead as bs text hb ih =>
    have hrest := ih (s := s.feed text) h
    rw [State.feed_feed?] at hrest
    exact hrest

/-- Text that a step does not notice may as well arrive before it, and so may the text of a whole
run. -/
theorem step_feed_comm (g : Grid) (s : State) :
    (∀ text, g.Settled s text →
      g.step (s.feed text) =
        ⟨(g.step s).result, (g.step s).state.feed text, (g.step s).log⟩) ∧
    ∀ as, g.Smooth s as →
      (∀ bs, Act.Sooner none as bs →
        g.results s bs = g.results s as ∧ g.after s bs = g.after s as) ∧
      ∀ text, .feed text ∈ as → let upFront := .feed (Act.arriving as) :: as.filter Act.isStep
        g.results s upFront = g.results s as ∧ g.after s upFront = g.after s as := by
  refine ⟨fun text => step_feed, fun as h => ⟨fun bs => h.after_sooner, fun text hm => ?_⟩⟩
  exact h.after_sooner (Act.sooner_upFront hm)

theorem step_feed_comm_reader :
    let s := State.initial (some " 12 ")
    let as := [.step, .feed "7", .step]
    let upFront := .feed (Act.arriving as) :: as.filter Act.isStep
    reader.Settled s "7" ∧ reader.Smooth s as ∧ .feed "7" ∈ as ∧ Act.Sooner none as upFront ∧
      reader.after s upFront = reader.after s as ∧
      reader.step (s.feed "7") =
        ⟨(reader.step s).result, (reader.step s).state.feed "7", (reader.step s).log⟩ := by
  intro s as upFront
  have hresult : (reader.step s).result = .ok (some .inNumber) := by decide +kernel
  have hunread : (reader.step s).state.input.unread ≠ [] := by decide +kernel
  have hblocked : (reader.step ((reader.step s).state.feed "7")).result = .ok none := by
    decide +kernel
  have hs : reader.Settled s "7" := by
    refine ⟨fun f hf => ?_, fun _ hu => absurd hu hunread⟩
    rw [hresult] at hf
    cases hf
  have hs' : reader.Settled ((reader.step s).state.feed "7") "" := by
    refine ⟨fun f hf => ?_, fun hr => ?_⟩
    · rw [hblocked] at hf
      cases hf
    · rw [hblocked] at hr
      cases hr
  have has : reader.Smooth s as := ⟨hs, hs', trivial⟩
  have hm : .feed "7" ∈ as := List.mem_cons_of_mem _ List.mem_cons_self
  have hsooner : Act.Sooner none as upFront := Act.sooner_upFront hm
  obtain ⟨hstep, hrun⟩ := step_feed_comm reader s
  exact ⟨hs, has, hm, hsooner, ((hrun as has).1 _ hsooner).2, hstep "7" hs⟩

end Grid
end Piet
