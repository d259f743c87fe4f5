import KnowTheQuote.Properties.EditorFlow
import KnowTheQuote.Properties.EditorBounds

/-!
# Know the Quote — what Prev and Next show

Next has four branches: the screen is a quote that has not been saved and is not
complete, or is, the screen is the last saved quote, or an earlier one. One equation for
each, and one for Prev, with the fields they leave behind, so that no later proof
unfolds an action.
-/

namespace KnowTheQuote

-- ---------------------------------------------------------------------------
-- The cursor
-- ---------------------------------------------------------------------------

namespace QuizController

variable {q : QuizController}

/-- One on. -/
theorem moveToNextQuote_of_can (h : q.canMoveToNext = true) :
    q.moveToNextQuote = { q with currentQuote := q.currentQuote + 1 } := if_pos h

/-- One back. -/
theorem moveToPrevQuote_of_can (h : q.canMoveToPrev = true) :
    q.moveToPrevQuote = { q with currentQuote := q.currentQuote - 1 } := if_pos h

end QuizController

-- ---------------------------------------------------------------------------
-- The view
-- ---------------------------------------------------------------------------

namespace NewQuoteViewController

variable (v : NewQuoteViewController) (q : QuizController)

@[simp] theorem texts_updateButtonsViews (clear enableNext : Bool) :
    (v.updateButtonsViews q clear enableNext).texts =
      if clear then fun _ => "" else v.texts := rfl

@[simp] theorem incompleteQuote_updateButtonsViews (clear enableNext : Bool) :
    (v.updateButtonsViews q clear enableNext).incompleteQuote = v.incompleteQuote := rfl

@[simp] theorem prevButton_updateButtonsViews (clear enableNext : Bool) :
    (v.updateButtonsViews q clear enableNext).prevButton = q.canMoveToPrev := rfl

@[simp] theorem nextButton_updateButtonsViews (clear enableNext : Bool) :
    (v.updateButtonsViews q clear enableNext).nextButton = (enableNext && q.canMoveToNext) := rfl

end NewQuoteViewController

namespace EditorState

variable {s : EditorState}

/-- The texts on screen once the quote at the cursor is displayed: three fields are
overwritten, unless there is no such quote. -/
def displayed (s : EditorState) : QuotePart → String :=
  match s.currentQuote with
  | none => s.view.texts
  | some (quote, _) =>
    Function.update (Function.update (Function.update s.view.texts
      .part1 (quote.firstPart.getD "")) .part2 (quote.secondPart.getD ""))
      .answer (quote.answer.getD "")

/-- The fields show what the quote at the cursor has for them. -/
theorem texts_displayQuoteData : s.displayQuoteData.view.texts = s.displayed := by
  unfold displayQuoteData displayed
  cases s.currentQuote <;> rfl

@[simp] theorem incompleteQuote_displayQuoteData :
    s.displayQuoteData.view.incompleteQuote = s.view.incompleteQuote := by
  unfold displayQuoteData
  split <;> rfl

/-- Displaying a quote sets the buttons; without one they stay as they are. -/
theorem buttons_displayQuoteData :
    s.displayQuoteData.view.prevButton =
        (if s.currentQuote.isSome then s.core.quizController.canMoveToPrev
          else s.view.prevButton) ∧
      s.displayQuoteData.view.nextButton =
        (if s.currentQuote.isSome then s.core.quizController.canMoveToNext
          else s.view.nextButton) := by
  unfold displayQuoteData
  cases s.currentQuote with
  | none => exact ⟨rfl, rfl⟩
  | some _ => exact ⟨rfl, by simp⟩

/-- The position of the quote that has not been saved. -/
def atNew (s : EditorState) : Prop :=
  s.core.quizController.currentQuote = s.core.quizController.quotes.count + 1

instance (s : EditorState) : Decidable s.atNew :=
  inferInstanceAs (Decidable (_ = _))

-- ---------------------------------------------------------------------------
-- Prev
-- ---------------------------------------------------------------------------

/-- The state in which Prev displays a quote: the texts are the draft, and the cursor is
one back. -/
def steppedBack (s : EditorState) : EditorState where
  view := s.view.saveIncompleteData
  core := { s.core with
    quizController.currentQuote := s.core.quizController.currentQuote - 1 }

/-- Prev puts the draft aside and displays the quote one back. -/
theorem moveToPrev_of_can (h : s.core.quizController.canMoveToPrev = true) :
    s.moveToPrev = s.steppedBack.displayQuoteData := by
  unfold moveToPrev
  rw [if_pos h, QuizController.moveToPrevQuote_of_can h]
  rfl

/-- Where the cursor cannot go back, Prev does nothing. -/
theorem moveToPrev_of_not_can (h : s.core.quizController.canMoveToPrev = false) :
    s.moveToPrev = s := by
  unfold moveToPrev
  rw [if_neg (by simp [h])]

-- ---------------------------------------------------------------------------
-- Next
-- ---------------------------------------------------------------------------

/-- Where the cursor cannot go on, Next does nothing. -/
theorem moveToNext_of_not_can (h : s.core.quizController.canMoveToNext = false) (env : Env)
    (order : Reordering QuotePart) : s.moveToNext env order = s := by
  unfold moveToNext
  rw [if_neg (by simp [h])]

/-- An incomplete quote stays on the screen. -/
theorem moveToNext_of_incomplete (h : s.core.quizController.canMoveToNext = true)
    (hnew : s.atNew) (hincomplete : s.view.isDataComplete = false) (env : Env)
    (order : Reordering QuotePart) :
    s.moveToNext env order = { s with view := s.view.resetSets } := by
  unfold atNew at hnew
  unfold moveToNext
  rw [if_pos h]
  dsimp only
  rw [if_pos hnew, saveQuote_of_incomplete s hincomplete]
  rfl

/-- The state in which a complete quote has been given to `createQuote`. -/
def handedOver (s : EditorState) (env : Env) (order : Reordering QuotePart) : EditorState where
  view := s.view.collectCompleteData order
  core := s.core.createQuoteOf (s.view.collected order) env

/-- A complete quote is given to `createQuote`, and whatever that does, the cursor moves
on and the screen is cleared. -/
theorem moveToNext_of_complete (h : s.core.quizController.canMoveToNext = true)
    (hnew : s.atNew) (hcomplete : s.view.isDataComplete = true) (env : Env)
    (order : Reordering QuotePart) :
    s.moveToNext env order =
      let next := (s.handedOver env order).moveToNextQuote.updateButtonsViews true false
      { next with view := next.view.resetSets } := by
  unfold atNew at hnew
  unfold moveToNext
  rw [if_pos h]
  dsimp only
  rw [if_pos hnew, saveQuote_of_complete s hcomplete]
  rfl

/-- The dictionary gains at most one quote. -/
theorem count_handedOver_le {l : List ObjectID} (h : s.core.quizController.quotes.Numbers l)
    (env : Env) (order : Reordering QuotePart) :
    (s.handedOver env order).core.quizController.quotes.count ≤
      s.core.quizController.quotes.count + 1 := by
  have hcache := s.core.createQuote_cacheStep (s.view.collected order) env
  cases hcache with
  | kept hquotes => exact (congrArg Dict.count hquotes).le.trans (Nat.le_succ _)
  | appended hquotes =>
    have hcount := (h.insert s.core.world.context.quotes.size).count
    rw [List.length_append, ← h.count, ← hquotes] at hcount
    exact hcount.le

/-- The cursor waits for the move. -/
theorem currentQuote_handedOver (env : Env) (order : Reordering QuotePart) :
    (s.handedOver env order).core.quizController.currentQuote =
      s.core.quizController.currentQuote :=
  s.core.currentQuote_createQuote (s.view.collected order) env

/-- Next never fails to move on from the position of the new quote. -/
theorem canMoveToNext_handedOver {l : List ObjectID}
    (hnum : s.core.quizController.quotes.Numbers l)
    (hcan : s.core.quizController.canMoveToNext = true) (hnew : s.atNew) (env : Env)
    (order : Reordering QuotePart) :
    (s.handedOver env order).core.quizController.canMoveToNext = true := by
  have hle := count_handedOver_le hnum env order
  have hcursor := currentQuote_handedOver (s := s) env order
  have hmax := Bounded.cursor_le_of_canMoveToNext hcan
  unfold atNew at hnew
  exact Bounded.canMoveToNext_of (by omega) (by omega)

/-- The state that Next on a saved quote leaves the cursor in. -/
def steppedOn (s : EditorState) : EditorState where
  view := s.view
  core := { s.core with
    quizController.currentQuote := s.core.quizController.currentQuote + 1 }

/-- After the last saved quote the draft is loaded, if there is one, into a cleared
screen. -/
theorem moveToNext_of_last (h : s.core.quizController.canMoveToNext = true)
    (hlast : s.core.quizController.currentQuote = s.core.quizController.quotes.count)
    (env : Env) (order : Reordering QuotePart) :
    s.moveToNext env order =
      let view := (s.view.updateButtonsViews s.core.quizController true
        false).tryLoadIncompleteData
      { s.steppedOn with
        view := (if view.isDataComplete then { view with nextButton := true }
          else view).resetSets } := by
  unfold moveToNext
  rw [if_pos h]
  dsimp only
  rw [if_neg (by rw [hlast]; omega), if_pos hlast]
  unfold moveToNextQuote updateButtonsViews
  dsimp only
  rw [QuizController.moveToNextQuote_of_can h]
  rfl

/-- After an earlier saved quote the next one is displayed. -/
theorem moveToNext_of_earlier (h : s.core.quizController.canMoveToNext = true)
    (hnew : ¬ s.atNew)
    (hlast : s.core.quizController.currentQuote ≠ s.core.quizController.quotes.count)
    (env : Env) (order : Reordering QuotePart) :
    s.moveToNext env order =
      { s.steppedOn.displayQuoteData with
        view := s.steppedOn.displayQuoteData.view.resetSets } := by
  unfold atNew at hnew
  unfold moveToNext
  rw [if_pos h]
  dsimp only
  rw [if_neg hnew, if_neg hlast]
  unfold moveToNextQuote
  dsimp only
  rw [QuizController.moveToNextQuote_of_can h]
  rfl

/-- The texts that Next loads after the last saved quote. -/
theorem texts_tryLoadIncompleteData (v : NewQuoteViewController) :
    v.tryLoadIncompleteData.texts =
      match v.incompleteQuote with
      | none => v.texts
      | some draft => fun part => (draft part).getD "" := by
  unfold NewQuoteViewController.tryLoadIncompleteData
  cases v.incompleteQuote <;> rfl

end EditorState

end KnowTheQuote
