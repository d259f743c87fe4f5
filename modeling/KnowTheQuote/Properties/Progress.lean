import Mathlib.Algebra.Order.Field.Basic
import Mathlib.Algebra.Order.Field.Rat
import Mathlib.Tactic.Positivity
import KnowTheQuote.Model.App
import KnowTheQuote.Properties.PlaySteps

/-!
# Know the Quote — the progress bar

The bar divides by the number of quotes of the quiz. `createEmptyQuiz` saves a quiz
before it has any, and the editor can be left at once, so the list can offer a quiz
whose play has nothing to divide by. For every other quiz the bar runs from 0 to 1.

* `Progressing.step` — where the bar stands after each tap.
* `wellDefinedProgress_iff` — the quizzes whose plays have a well-defined progress.
* `listedQuiz_without_progress` — the list offers others.
-/

namespace KnowTheQuote

open Machine

namespace PlayState

/-- Quote number `k` of `qs` is on screen and the bar stands at `k / qs.length`; past
the last quote it stands at 1. -/
structure Progressing (s : PlayState) (qs : List ObjectID) (k : Nat) : Prop
    extends s.Showing qs k where
  pos : 0 < qs.length
  progress : s.view.progress = some ((k : ℚ) / qs.length)

theorem quotient_of_pos {a : Int} {k n : Nat} (ha : a = k) (hn : 0 < n) :
    quotient a n = some ((k : ℚ) / n) := by
  subst ha
  rw [quotient, if_neg (by omega)]
  push_cast
  rfl

variable {s : PlayState} {qs : List ObjectID} {k : Nat}

/-- **One tap** moves the bar by one quote, or fills it. -/
theorem Progressing.step (h : s.Progressing qs k) (t : Tap) :
    (s.step t).Progressing qs (min (k + 1) qs.length) := by
  have hpos := h.pos
  refine ⟨h.toShowing.step t, hpos, ?_⟩
  rcases Nat.lt_or_ge (k + 1) qs.length with hlt | hge
  · rw [step_of_next (h.next hlt), Nat.min_eq_left hlt.le]
    show quotient ((k : Int) + 2 - 1) s.core.quizController.quotes.count = _
    rw [h.numbers.count]
    exact quotient_of_pos (by push_cast; omega) hpos
  · rw [step_of_end (h.end hge), Nat.min_eq_right hge]
    have hne : (qs.length : ℚ) ≠ 0 := by exact_mod_cast hpos.ne'
    rw [div_self hne]
    rfl

theorem Progressing.run (h : ∃ k, s.Progressing qs k) (taps : List Tap) :
    ∃ k, (run PlayState.step s taps).Progressing qs k :=
  have hstep : ∀ (s : PlayState) (t : Tap),
      (∃ k, s.Progressing qs k) → ∃ k, (s.step t).Progressing qs k := fun _ t ⟨_, h⟩ =>
    ⟨_, h.step t⟩
  invariant_run_all hstep h taps

theorem progressing_viewDidLoad (core : Core) {quiz : ObjectID} {fetch : FetchOutcome}
    (hne : core.world.context.foundQuotes quiz fetch ≠ []) (shuffle : Reordering String) :
    (viewDidLoad core quiz fetch shuffle).Progressing
      (core.world.context.foundQuotes quiz fetch) 0 := by
  have hshowing := showing_viewDidLoad core hne shuffle
  have hpos := List.length_pos_iff.mpr hne
  refine ⟨hshowing, hpos, ?_⟩
  show quotient ((core.quizController.setupStart _ quiz fetch).1.currentQuote - 1)
    (core.quizController.setupStart _ quiz fetch).1.quotes.count = _
  rw [QuizController.currentQuote_setupStart,
    (core.quizController.setupStart_numbers _ quiz fetch).count]
  exact quotient_of_pos (by simp) hpos

end PlayState

/-- A play of `quiz` shows a first quote and has a well-defined progress throughout:
the denominator is not zero, the progress is a number of `[0, 1)` while a quote is on
screen, a tap that shows another quote increases it, and a tap sets it to 1 exactly
when it shows the results. -/
structure WellDefinedProgress (core : Core) (quiz : ObjectID) (fetch : FetchOutcome) : Prop where
  first : (core.quizController.setupStart core.world.context quiz fetch).2.isSome
  play : ∀ (shuffle : Reordering String) (taps : List Tap),
    let s := run PlayState.step (PlayState.viewDidLoad core quiz fetch shuffle) taps
    let q := s.core.quizController
    q.quotes.count ≠ 0 ∧
    (s.view.quote.isSome → ∃ p : ℚ, s.view.progress = some p ∧
      p = ((q.currentQuote - 1 : Int) : ℚ) / q.quotes.count ∧ 0 ≤ p ∧ p < 1) ∧
    ∀ t : Tap,
      ((s.step t).view.quote.isSome → ∃ p p' : ℚ, s.view.progress = some p ∧
        (s.step t).view.progress = some p' ∧ p < p') ∧
      ((s.step t).view.progress = some 1 ↔ (s.step t).view.segues = s.view.segues + 1)

theorem foundQuotes_ne_nil {c : Context} {quiz : ObjectID} {fetch : FetchOutcome} :
    c.foundQuotes quiz fetch ≠ [] ↔ fetch.isSome ∧ c.storedQuotes quiz ≠ [] := by
  cases fetch with
  | none => simp [Context.foundQuotes]
  | some order =>
    have hnil : order.apply (c.storedQuotes quiz) = [] ↔ c.storedQuotes quiz = [] := by
      rw [← List.length_eq_zero_iff, order.length_apply, List.length_eq_zero_iff]
    simp [Context.foundQuotes, hnil]

/-- A tap shows the results from the last quote on, and then the bar is full. -/
theorem PlayState.Progressing.complete {s : PlayState} {qs : List ObjectID} {k : Nat}
    (h : s.Progressing qs k) (t : Tap) :
    (s.step t).view.progress = some 1 ↔ (s.step t).view.segues = s.view.segues + 1 := by
  have hview := QuoteViewController.updateScore_eq s.view s.core.world (s.tappedTitle t)
  have hprogress := (h.step t).progress
  rcases Nat.lt_or_ge (k + 1) qs.length with hlt | hge
  · have hsegues : (s.step t).view.segues = s.view.segues := by
      rw [step_of_next (h.next hlt), QuoteViewController.displayQuote_eq]
      show (s.scored t).segues = _
      rw [scored, hview]
    have hlt' : ((k + 1 : Nat) : ℚ) / qs.length < 1 := by
      rw [div_lt_one (by exact_mod_cast h.pos)]
      exact_mod_cast hlt
    rw [hprogress, hsegues, Nat.min_eq_left hlt.le]
    constructor
    · intro hone
      exact absurd (Option.some.inj hone) hlt'.ne
    · intro hsucc
      omega
  · have hsegues : (s.step t).view.segues = s.view.segues + 1 := by
      rw [step_of_end (h.end hge)]
      show (s.scored t).segues + 1 = _
      rw [scored, hview]
    have hone : (s.step t).view.progress = some 1 := by
      rw [step_of_end (h.end hge)]
      rfl
    exact ⟨fun _ => hsegues, fun _ => hone⟩

namespace PlayState.Progressing

variable {s : PlayState} {qs : List ObjectID} {k : Nat}

/-- A quote on screen has a number below the number of quotes. -/
theorem lt_length (h : s.Progressing qs k) (hsome : s.view.quote.isSome) : k < qs.length := by
  by_contra hge
  rw [h.shown, List.getElem?_eq_none (not_lt.mp hge)] at hsome
  cases hsome

/-- While a quote is on screen the bar stands where the code's formula says, below 1. -/
theorem onScreen (h : s.Progressing qs k) (hsome : s.view.quote.isSome) :
    ∃ p : ℚ, s.view.progress = some p ∧
      p = ((s.core.quizController.currentQuote - 1 : Int) : ℚ) /
        s.core.quizController.quotes.count ∧ 0 ≤ p ∧ p < 1 := by
  have hk := h.lt_length hsome
  have hcount : s.core.quizController.quotes.count = qs.length := h.numbers.count
  have hcursor : s.core.quizController.currentQuote - 1 = (k : Int) := by
    have hcur : s.core.quizController.currentQuote = min ((k : Int) + 1) qs.length := h.cursor
    omega
  have hpos : (0 : ℚ) < qs.length := by exact_mod_cast h.pos
  refine ⟨_, h.progress, ?_, by positivity, ?_⟩
  · rw [hcursor, hcount]
    push_cast
    rfl
  · rw [div_lt_one hpos]
    exact_mod_cast hk

/-- A tap that shows another quote moves the bar forward. -/
theorem increases (h : s.Progressing qs k) (t : Tap) (hsome : (s.step t).view.quote.isSome) :
    ∃ p p' : ℚ, s.view.progress = some p ∧ (s.step t).view.progress = some p' ∧ p < p' := by
  have hk := (h.step t).lt_length hsome
  have hpos : (0 : ℚ) < qs.length := by exact_mod_cast h.pos
  have hlt : k < min (k + 1) qs.length := by omega
  refine ⟨_, _, h.progress, (h.step t).progress, ?_⟩
  rw [div_lt_div_iff_of_pos_right hpos]
  exact_mod_cast hlt

end PlayState.Progressing

/-- **Which plays have a well-defined progress**: those whose fetch does not throw, of a
quiz with at least one stored quote. -/
theorem wellDefinedProgress_iff (core : Core) (quiz : ObjectID) (fetch : FetchOutcome) :
    WellDefinedProgress core quiz fetch ↔
      fetch.isSome ∧ core.world.context.storedQuotes quiz ≠ [] := by
  rw [← foundQuotes_ne_nil]
  constructor
  · intro h hnil
    have hfirst := h.first
    rw [QuizController.setupStart_snd, hnil] at hfirst
    cases hfirst
  · intro hne
    set qs := core.world.context.foundQuotes quiz fetch
    have hpos : 0 < qs.length := List.length_pos_iff.mpr hne
    refine ⟨?_, fun shuffle taps => ?_⟩
    · rw [QuizController.setupStart_snd, List.getElem?_eq_getElem hpos]
      rfl
    · intro s q
      obtain ⟨k, h⟩ : ∃ k, s.Progressing qs k :=
        PlayState.Progressing.run ⟨0, PlayState.progressing_viewDidLoad core hne shuffle⟩ taps
      have hcount : q.quotes.count = qs.length := h.numbers.count
      exact ⟨hcount ▸ hpos.ne', h.onScreen, fun t => ⟨h.increases t, h.complete t⟩⟩

/-- A quiz that was started and left without a quote is on the list, and its play has
no first quote and nothing to divide by. -/
theorem listedQuiz_without_progress :
    ¬ ∀ (as : List Action) (quiz : ObjectID) (fetch : FetchOutcome),
      let core := (run App.step .firstLaunch as).core
      quiz ∈ core.world.context.listedQuizzes → WellDefinedProgress core quiz fetch := by
  intro h
  have hfirst := (h [.start "Films" {}, .leave] 0 (some .asIs) (by decide)).first
  revert hfirst
  decide

end KnowTheQuote
