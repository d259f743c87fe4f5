import KnowTheQuote.Properties.EditorViews

/-!
# Know the Quote — the draft

A quote that has not been saved is kept in one slot while the user looks at the saved
ones. Every Prev writes the slot, also a Prev on a saved quote, whose texts are then on
three of the seven fields; only Next on the last saved quote reads it. So a draft
survives one step back and any steps forward, but not a second step back.

* `Browsing` — where the texts of the draft are.
* `Browsing.step` — Prev and Next keep them there.
* `draft_survives` — any such browsing.
-/

namespace KnowTheQuote

open Machine

namespace EditorState

variable {s : EditorState} {D : QuotePart → String}

/-- The texts of the draft: on the screen or, while a saved quote is displayed, in the
slot. -/
inductive Browsing (D : QuotePart → String) (s : EditorState) : Prop
  | onScreen (hnew : s.atNew) (htexts : s.view.texts = D)
  | inSlot (hsaved : s.core.quizController.currentQuote ≤ s.core.quizController.quotes.count)
      (hslot : s.view.incompleteQuote = some fun part => some (D part))

/-- Prev is tapped while the seven fields hold the draft, Next on the draft only while it
is not complete, and nothing else is done. -/
def KeepsDraft (D : QuotePart → String) (s : EditorState) : EditorAction → Prop
  | .prev => s.core.quizController.canMoveToPrev = true → s.view.texts = D
  | .next _ _ =>
    s.core.quizController.canMoveToNext = true → s.atNew → s.view.isDataComplete = false
  | .edit _ _ | .done _ _ => False

theorem Browsing.cursor_le (h : s.Browsing D) :
    s.core.quizController.currentQuote ≤ s.core.quizController.quotes.count + 1 := by
  rcases h with ⟨hnew, -⟩ | ⟨hsaved, -⟩
  · exact le_of_eq hnew
  · omega

theorem Browsing.moveToPrev (h : s.Browsing D)
    (hprev : s.core.quizController.canMoveToPrev = true → s.view.texts = D) :
    s.moveToPrev.Browsing D := by
  by_cases hcan : s.core.quizController.canMoveToPrev = true
  · rw [moveToPrev_of_can hcan]
    have hle := h.cursor_le
    refine .inSlot ?_ ?_
    · rw [core_displayQuoteData]
      show s.core.quizController.currentQuote - 1 ≤ s.core.quizController.quotes.count
      omega
    · rw [incompleteQuote_displayQuoteData, ← hprev hcan]
      rfl
  · rw [moveToPrev_of_not_can (Bool.eq_false_iff.mpr hcan)]
    exact h

theorem Browsing.moveToNext (h : s.Browsing D) (env : Env) (order : Reordering QuotePart)
    (hnext : s.core.quizController.canMoveToNext = true → s.atNew →
      s.view.isDataComplete = false) : (s.moveToNext env order).Browsing D := by
  by_cases hcan : s.core.quizController.canMoveToNext = true
  · rcases h with ⟨hnew, htexts⟩ | ⟨hsaved, hslot⟩
    · rw [moveToNext_of_incomplete hcan hnew (hnext hcan hnew)]
      exact .onScreen hnew htexts
    · by_cases hlast : s.core.quizController.currentQuote = s.core.quizController.quotes.count
      · -- the slot is loaded into the cleared screen
        rw [moveToNext_of_last hcan hlast]
        refine .onScreen ?_ ?_
        · show s.core.quizController.currentQuote + 1 = s.core.quizController.quotes.count + 1
          rw [hlast]
        · have hloaded : (s.view.updateButtonsViews s.core.quizController true
              false).tryLoadIncompleteData.texts = D := by
            rw [texts_tryLoadIncompleteData,
              NewQuoteViewController.incompleteQuote_updateButtonsViews, hslot]
            rfl
          dsimp only
          split <;> exact hloaded
      · have hnew : ¬ s.atNew := by
          unfold atNew
          omega
        rw [moveToNext_of_earlier hcan hnew hlast]
        refine .inSlot ?_ ?_
        · rw [core_displayQuoteData]
          show s.core.quizController.currentQuote + 1 ≤ s.core.quizController.quotes.count
          omega
        · exact incompleteQuote_displayQuoteData.trans hslot
  · rw [moveToNext_of_not_can (Bool.eq_false_iff.mpr hcan)]
    exact h

/-- One tap. -/
theorem Browsing.step (h : s.Browsing D) {a : EditorAction} (ha : s.KeepsDraft D a) :
    (s.step a).Browsing D := by
  cases hpopped : s.view.popped with
  | true =>
    rw [step_of_popped hpopped]
    exact h
  | false =>
    rw [step_of_open hpopped]
    cases a with
    | edit part text => exact ha.elim
    | prev => exact h.moveToPrev ha
    | next env order => exact h.moveToNext env order ha
    | done env order => exact ha.elim

end EditorState

/-- **Browsing.** From the position of the quote that has not been saved, the draft
survives every sequence of taps on Prev and Next in which Prev is tapped only while the
fields hold it and Next does not find it complete: whenever the editor is at that
position again, the seven fields hold the draft. -/
theorem draft_survives {s : EditorState} (hnew : s.atNew) {taps : List EditorAction}
    (hKeeps : Along EditorState.step (EditorState.KeepsDraft s.view.texts) s taps) :
    (run EditorState.step s taps).atNew →
      (run EditorState.step s taps).view.texts = s.view.texts := by
  have hrun : (run EditorState.step s taps).Browsing s.view.texts :=
    invariant_run (fun _ _ h ha => h.step ha) (.onScreen hnew rfl) hKeeps
  intro hagain
  rcases hrun with ⟨-, htexts⟩ | ⟨hsaved, -⟩
  · exact htexts
  · unfold EditorState.atNew at hagain
    omega

/-- Two saved quotes, and one text of a third. -/
def EditorState.drafting : EditorState :=
  run EditorState.tap EditorState.first (EditorAction.fillIn sampleTexts ++ [.next {} .asIs] ++
    EditorAction.fillIn sampleTexts ++ [.next {} .asIs] ++ [.edit .part1 "To be"])

/-- One step back and on again, with the draft on three of whose fields the second quote
was displayed. -/
theorem draft_survives_one_step :
    let s' := run EditorState.step EditorState.drafting [.prev, .next {} .asIs]
    s'.atNew ∧ s'.view.texts = EditorState.drafting.view.texts := by
  have hback : (EditorState.step .drafting .prev).core.quizController.currentQuote = 2 ∧
      (EditorState.step .drafting .prev).core.quizController.quotes.count = 2 := by decide
  have hKeeps : Along EditorState.step (EditorState.KeepsDraft EditorState.drafting.view.texts)
      .drafting [.prev, .next {} .asIs] := by
    refine ⟨fun _ => rfl, ?_, trivial⟩
    intro _ hagain
    unfold EditorState.atNew at hagain
    rw [hback.1, hback.2] at hagain
    omega
  have hagain : (run EditorState.step .drafting [.prev, .next {} .asIs]).atNew := by decide
  exact ⟨hagain, draft_survives (by decide) hKeeps hagain⟩

/-- Two steps back and on again, on enabled buttons: the slot holds the second quote's
texts. -/
theorem draft_lost_after_two_steps :
    ¬ ∀ taps : List EditorAction, (∀ a ∈ taps, a = .prev ∨ a = .next {} .asIs) →
      (run EditorState.tap .drafting taps).core.world.created.length =
        EditorState.drafting.core.world.created.length →
      (run EditorState.tap .drafting taps).atNew →
      (run EditorState.tap .drafting taps).view.texts .part1 =
        EditorState.drafting.view.texts .part1 := by
  intro h
  have hlost := h [.prev, .prev, .next {} .asIs, .next {} .asIs] (by simp) (by decide) (by decide)
  revert hlost
  decide

end KnowTheQuote
