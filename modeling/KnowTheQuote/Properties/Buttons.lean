import KnowTheQuote.Properties.StoredTexts

/-!
# Know the Quote — the navigation buttons

Prev and Next are enabled and disabled when the screen changes, not when the cursor or
the texts do: Next on the last saved quote sets the buttons and moves the cursor
afterwards, displaying a quote that cannot be read leaves them alone, and clearing a
field never disables Next. Everything else keeps them true.

* `EditorState.Truthful` — the buttons are as the cursor and the texts ask for.
* `KeepsTruth` — the actions that leave the buttons true, by what they find.
* `truthful_tap_iff` — the condition is exact.
* `buttons_truthful_iff` — whole sessions.
-/

namespace KnowTheQuote

open Machine

-- ---------------------------------------------------------------------------
-- The two limits
-- ---------------------------------------------------------------------------

namespace QuizController

variable {q : QuizController}

theorem canMoveToPrev_iff :
    q.canMoveToPrev = true ↔ q.quotes.count ≠ 0 ∧ 1 < q.currentQuote := by
  simp [canMoveToPrev, quoteCountMin, currentQuoteMinIndex]

theorem canMoveToNext_iff :
    q.canMoveToNext = true ↔ q.quotes.count ≤ 15 ∧ q.currentQuote ≤ 14 := by
  unfold canMoveToNext
  rw [Bool.and_eq_true, decide_eq_true_eq, decide_eq_true_eq]
  rfl

end QuizController

-- ---------------------------------------------------------------------------
-- What typing does to the buttons
-- ---------------------------------------------------------------------------

namespace NewQuoteViewController

variable (v : NewQuoteViewController) (q : QuizController)

theorem isDataComplete_iff : v.isDataComplete = true ↔ ∀ part, v.texts part ≠ "" := by
  constructor
  · intro h part hnil
    have hfilled := texts_nonempty_of_complete h part
    rw [hnil] at hfilled
    cases hfilled
  · intro h
    exact List.all_eq_true.mpr fun part _ => by simpa using h part

theorem isDataComplete_congr {v v' : NewQuoteViewController} (h : v.texts = v'.texts) :
    v.isDataComplete = v'.isDataComplete := by
  unfold isDataComplete
  rw [h]

theorem prevButton_textFieldEditingChanged :
    (v.textFieldEditingChanged q).prevButton = v.prevButton := by
  obtain ⟨done, next, heq⟩ := EditorState.textFieldEditingChanged_eq v q
  rw [heq]

/-- Typing enables Next, and never disables it. -/
theorem nextButton_textFieldEditingChanged :
    (v.textFieldEditingChanged q).nextButton =
      (v.nextButton || (q.canMoveToNext && v.isDataComplete)) := by
  have henable : ∀ v' : NewQuoteViewController, v'.nextButton = v.nextButton →
      v'.isDataComplete = v.isDataComplete →
      (if v'.nextButton = false ∧ q.canMoveToNext = true ∧ v'.isDataComplete = true then
        { v' with nextButton := true } else v').nextButton =
          (v.nextButton || (q.canMoveToNext && v.isDataComplete)) := by
    intro v' hnext hcomplete
    rw [← hnext, ← hcomplete]
    split
    · next h => simp [h.2.1, h.2.2]
    · next h => cases hbutton : v'.nextButton <;> simp_all
  unfold textFieldEditingChanged
  dsimp only
  split
  · exact henable _ rfl rfl
  · exact henable _ rfl rfl

end NewQuoteViewController

-- ---------------------------------------------------------------------------
-- Taps
-- ---------------------------------------------------------------------------

namespace EditorState

variable {s : EditorState} {l : List ObjectID}

/-- While the editor is open, Prev is enabled exactly when it can move, and Next only when
it can and would not leave an incomplete quote. -/
def Truthful (s : EditorState) : Prop :=
  s.view.popped = false →
    s.view.prevButton = s.core.quizController.canMoveToPrev ∧
    (s.view.nextButton = true → s.core.quizController.canMoveToNext = true ∧
      (s.core.quizController.currentQuote ≤ s.core.quizController.quotes.count ∨
        s.view.isDataComplete = true))

/-- `displayQuoteData` finds a quote at this key, with its incorrect options. -/
def Displayable (s : EditorState) (k : Int) : Prop :=
  ∃ r q, s.core.quizController.quotes.lookup k = some r ∧
    s.core.world.context.quotes.get? r = some q ∧ q.incorrectOptions.isSome = true

/-- The draft in the slot has all its texts. -/
def DraftComplete (s : EditorState) : Prop :=
  ∃ draft, s.view.incompleteQuote = some draft ∧ ∀ part, (draft part).getD "" ≠ ""

/-- The actions that leave the buttons true. -/
def KeepsTruth (s : EditorState) : EditorAction → Prop
  | .edit _ text =>
    s.view.popped = false → s.view.nextButton = true → s.pastSaved → text ≠ ""
  | .prev =>
    s.view.popped = false → s.view.prevButton = true →
      s.core.quizController.currentQuote = 2 → s.Displayable 1
  | .next _ _ =>
    s.view.popped = false → s.view.nextButton = true → ¬ s.atNew →
      if s.core.quizController.currentQuote = s.core.quizController.quotes.count then
        s.core.quizController.currentQuote ≠ 1 ∧
          (s.core.quizController.currentQuote = 14 → ¬ s.DraftComplete)
      else s.Displayable (s.core.quizController.currentQuote + 1) ∨
        1 < s.core.quizController.currentQuote ∧ s.core.quizController.currentQuote < 14
  | .done _ _ => True

theorem isSome_currentQuote_iff :
    s.currentQuote.isSome = true ↔ s.Displayable s.core.quizController.currentQuote := by
  unfold currentQuote Displayable
  simp only [Option.isSome_iff_exists, Option.bind_eq_bind, Option.bind_eq_some_iff,
    Option.pure_def]
  constructor
  · rintro ⟨_, r, hr, q, hq, opts, hopts, -⟩
    exact ⟨r, q, hr, hq, opts, hopts⟩
  · rintro ⟨r, q, hr, hq, opts, hopts⟩
    exact ⟨_, r, hr, q, hq, opts, hopts, rfl⟩

/-- A displayable quote is one of the saved ones. -/
theorem Displayable.le {k : Int} (h : s.Displayable k)
    (hnum : s.core.quizController.quotes.Numbers l) :
    1 ≤ k ∧ k ≤ s.core.quizController.quotes.count := by
  obtain ⟨r, -, hr, -⟩ := h
  exact (hnum.mem_iff k).mp (Finmap.mem_of_lookup_eq_some hr)

theorem steppedBack_can_iff :
    (s.steppedBack.core.quizController.canMoveToPrev = true ↔
      s.core.quizController.quotes.count ≠ 0 ∧ 1 < s.core.quizController.currentQuote - 1) ∧
    (s.steppedBack.core.quizController.canMoveToNext = true ↔
      s.core.quizController.quotes.count ≤ 15 ∧ s.core.quizController.currentQuote - 1 ≤ 14) :=
  ⟨QuizController.canMoveToPrev_iff, QuizController.canMoveToNext_iff⟩

theorem steppedOn_can_iff :
    (s.steppedOn.core.quizController.canMoveToPrev = true ↔
      s.core.quizController.quotes.count ≠ 0 ∧ 1 < s.core.quizController.currentQuote + 1) ∧
    (s.steppedOn.core.quizController.canMoveToNext = true ↔
      s.core.quizController.quotes.count ≤ 15 ∧ s.core.quizController.currentQuote + 1 ≤ 14) :=
  ⟨QuizController.canMoveToPrev_iff, QuizController.canMoveToNext_iff⟩

theorem truthful_of_popped (h : s.view.popped = true) : s.Truthful := by
  intro hopen
  rw [h] at hopen
  cases hopen

/-- Typing. -/
theorem truthful_edit_iff (hopen : s.view.popped = false) (h : s.Truthful) (part : QuotePart)
    (text : String) :
    (s.edit part text).Truthful ↔ s.KeepsTruth (.edit part text) := by
  obtain ⟨hprev, hnext⟩ := h hopen
  set v : NewQuoteViewController :=
    { s.view with texts := Function.update s.view.texts part text } with hv
  have hview : (s.edit part text).view = v.textFieldEditingChanged s.core.quizController := rfl
  have hprevButton : (s.edit part text).view.prevButton = s.view.prevButton := by
    rw [hview, NewQuoteViewController.prevButton_textFieldEditingChanged]
  have hnextButton : (s.edit part text).view.nextButton =
      (s.view.nextButton || (s.core.quizController.canMoveToNext && v.isDataComplete)) := by
    rw [hview, NewQuoteViewController.nextButton_textFieldEditingChanged]
  have hcomplete : (s.edit part text).view.isDataComplete = v.isDataComplete := by
    rw [hview]
    exact NewQuoteViewController.isDataComplete_congr (texts_textFieldEditingChanged _ _)
  have hpopped : (s.edit part text).view.popped = false := by
    rw [hview, popped_textFieldEditingChanged]
    exact hopen
  constructor
  · -- a text that is cleared leaves Next enabled
    intro htrue _ henabled hpast hnil
    have hdisabled := ((htrue hpopped).2 (by rw [hnextButton, henabled, Bool.true_or])).2
    rcases hdisabled with hle | hfull
    · exact absurd hpast (not_lt.mpr hle)
    · rw [hcomplete, NewQuoteViewController.isDataComplete_iff] at hfull
      exact hfull part (by rw [hv, hnil]; exact Function.update_self ..)
  · intro hkeeps _
    refine ⟨hprevButton.trans hprev, fun henabled => ?_⟩
    rw [hnextButton, Bool.or_eq_true, Bool.and_eq_true] at henabled
    rcases henabled with hbefore | ⟨hcan, hfull⟩
    · obtain ⟨hcan, hle⟩ := hnext hbefore
      refine ⟨hcan, ?_⟩
      by_cases hpast : s.pastSaved
      · -- the form was complete, and still is
        have hfull : s.view.isDataComplete = true := hle.resolve_left (not_le.mpr hpast)
        refine .inr ?_
        rw [hcomplete, NewQuoteViewController.isDataComplete_iff]
        intro part'
        by_cases hpart : part' = part
        · rw [hpart, hv]
          dsimp only
          rw [Function.update_self]
          exact hkeeps hopen hbefore hpast
        · rw [hv]
          dsimp only
          rw [Function.update_of_ne hpart]
          exact (NewQuoteViewController.isDataComplete_iff _).mp hfull part'
      · exact .inl (not_lt.mp hpast)
    · exact ⟨hcan, .inr (hcomplete.trans hfull)⟩

/-- Displaying the quote at the cursor makes the buttons true; without one they stay as
they are. -/
theorem truthful_displayQuoteData_iff (hnum : s.core.quizController.quotes.Numbers l) :
    s.displayQuoteData.Truthful ↔
      s.Displayable s.core.quizController.currentQuote ∨ s.Truthful := by
  by_cases hsome : s.currentQuote.isSome = true
  · have hdisp := isSome_currentQuote_iff.mp hsome
    obtain ⟨hprev, hnext⟩ := buttons_displayQuoteData (s := s)
    rw [if_pos hsome] at hprev hnext
    refine ⟨fun _ => .inl hdisp, fun _ _ => ?_⟩
    rw [core_displayQuoteData, hprev, hnext]
    exact ⟨rfl, fun hcan => ⟨hcan, .inl (hdisp.le hnum).2⟩⟩
  · have hsame : s.displayQuoteData = s := by
      unfold displayQuoteData
      rw [Option.not_isSome_iff_eq_none.mp hsome]
    rw [hsame]
    exact ⟨.inr, fun h => h.resolve_left fun hdisp => hsome (isSome_currentQuote_iff.mpr hdisp)⟩

/-- Prev. -/
theorem truthful_moveToPrev_iff (hopen : s.view.popped = false) (h : s.Truthful)
    (hnum : s.core.quizController.quotes.Numbers l) (henabled : s.view.prevButton = true) :
    s.moveToPrev.Truthful ↔ s.KeepsTruth .prev := by
  obtain ⟨hprev, hnext⟩ := h hopen
  have hcan : s.core.quizController.canMoveToPrev = true := hprev.symm.trans henabled
  obtain ⟨hcount, hcursor⟩ := QuizController.canMoveToPrev_iff.mp hcan
  obtain ⟨hprevBack, hnextBack⟩ := s.steppedBack_can_iff
  -- one back, Prev can still move unless the first quote is reached
  have hback : s.steppedBack.Truthful ↔ s.core.quizController.currentQuote ≠ 2 := by
    constructor
    · intro htrue htwo
      obtain ⟨-, hlt⟩ := hprevBack.mp ((htrue hopen).1.symm.trans henabled)
      omega
    · intro hne _
      refine ⟨henabled.trans (hprevBack.mpr ⟨hcount, by omega⟩).symm, fun hnextEnabled => ?_⟩
      obtain ⟨hcanNext, hle⟩ := hnext hnextEnabled
      obtain ⟨hmax, hmaxIndex⟩ := QuizController.canMoveToNext_iff.mp hcanNext
      refine ⟨hnextBack.mpr ⟨hmax, by omega⟩, ?_⟩
      rcases hle with hle | hfull
      · refine .inl ?_
        show s.core.quizController.currentQuote - 1 ≤ s.core.quizController.quotes.count
        omega
      · exact .inr hfull
  have hdisplayed : s.steppedBack.displayQuoteData.Truthful ↔
      s.Displayable (s.core.quizController.currentQuote - 1) ∨ s.steppedBack.Truthful :=
    truthful_displayQuoteData_iff (s := s.steppedBack) hnum
  rw [moveToPrev_of_can hcan, hdisplayed, hback]
  constructor
  · rintro (hdisp | hne) _ _ htwo
    · rw [htwo] at hdisp
      exact hdisp
    · exact absurd htwo hne
  · intro hkeeps
    by_cases htwo : s.core.quizController.currentQuote = 2
    · refine .inl ?_
      rw [htwo]
      exact hkeeps hopen henabled htwo
    · exact .inr htwo

/-- Next after an earlier saved quote. -/
theorem truthful_moveToNext_of_earlier (hopen : s.view.popped = false) (h : s.Truthful)
    (hcached : s.core.Cached l) (henabled : s.view.nextButton = true) (hnew : ¬ s.atNew)
    (hlast : s.core.quizController.currentQuote ≠ s.core.quizController.quotes.count)
    (env : Env) (order : Reordering QuotePart) :
    (s.moveToNext env order).Truthful ↔
      s.Displayable (s.core.quizController.currentQuote + 1) ∨
        1 < s.core.quizController.currentQuote ∧ s.core.quizController.currentQuote < 14 := by
  obtain ⟨hprev, hnext⟩ := h hopen
  obtain ⟨hcan, hle⟩ := hnext henabled
  obtain ⟨hmax, hmaxIndex⟩ := QuizController.canMoveToNext_iff.mp hcan
  obtain ⟨hprevIff, hnextIff⟩ := s.steppedOn_can_iff
  have hone := hcached.cursor
  unfold atNew at hnew
  have hon : s.steppedOn.Truthful ↔
      1 < s.core.quizController.currentQuote ∧ s.core.quizController.currentQuote < 14 := by
    constructor
    · intro htrue
      obtain ⟨hprevOn, hnextOn⟩ := htrue hopen
      obtain ⟨-, hlt⟩ := hnextIff.mp (hnextOn henabled).1
      refine ⟨?_, by omega⟩
      -- on the first of two quotes Prev is disabled, and past it Prev can move
      by_contra hfirst
      have hcanOn : s.steppedOn.core.quizController.canMoveToPrev = true :=
        hprevIff.mpr ⟨by omega, by omega⟩
      have hbefore : s.core.quizController.canMoveToPrev = true :=
        hprev.symm.trans (hprevOn.trans hcanOn)
      exact hfirst (QuizController.canMoveToPrev_iff.mp hbefore).2
    · rintro ⟨hlo, hhi⟩ _
      refine ⟨hprev.trans (Bool.eq_iff_iff.mpr ?_), fun _ => ⟨?_, ?_⟩⟩
      · rw [QuizController.canMoveToPrev_iff, hprevIff]
        omega
      · exact hnextIff.mpr ⟨hmax, by omega⟩
      · rcases hle with hle | hfull
        · refine .inl ?_
          show s.core.quizController.currentQuote + 1 ≤ s.core.quizController.quotes.count
          omega
        · exact .inr hfull
  have hdisplayed : s.steppedOn.displayQuoteData.Truthful ↔
      s.Displayable (s.core.quizController.currentQuote + 1) ∨ s.steppedOn.Truthful :=
    truthful_displayQuoteData_iff (s := s.steppedOn) hcached.numbers
  rw [moveToNext_of_earlier hcan hnew hlast, ← hon]
  exact hdisplayed

/-- Next on the quote that has not been saved: the buttons are set after the cursor has
moved. -/
theorem truthful_moveToNext_of_new (hopen : s.view.popped = false) (h : s.Truthful)
    (henabled : s.view.nextButton = true) (hnew : s.atNew) (env : Env)
    (order : Reordering QuotePart) : (s.moveToNext env order).Truthful := by
  obtain ⟨hcan, hle⟩ := (h hopen).2 henabled
  have hfull : s.view.isDataComplete = true := by
    refine hle.resolve_left ?_
    unfold atNew at hnew
    omega
  rw [moveToNext_of_complete hcan hnew hfull]
  exact fun _ => ⟨rfl, nofun⟩

/-- The draft that Next loads into the cleared screen is complete. -/
theorem isDataComplete_loaded_iff (s : EditorState) :
    (s.view.updateButtonsViews s.core.quizController true
      false).tryLoadIncompleteData.isDataComplete = true ↔ s.DraftComplete := by
  rw [NewQuoteViewController.isDataComplete_iff, texts_tryLoadIncompleteData,
    NewQuoteViewController.incompleteQuote_updateButtonsViews]
  unfold DraftComplete
  cases hdraft : s.view.incompleteQuote with
  | none =>
    -- the screen stays cleared
    constructor
    · intro hall
      exact absurd rfl (hall .part1)
    · rintro ⟨draft, hnone, -⟩
      cases hnone
  | some draft => simp

/-- Next on the last saved quote: the buttons are set before the cursor moves. -/
theorem truthful_moveToNext_of_last (hopen : s.view.popped = false) (h : s.Truthful)
    (hcached : s.core.Cached l) (henabled : s.view.nextButton = true)
    (hlast : s.core.quizController.currentQuote = s.core.quizController.quotes.count)
    (env : Env) (order : Reordering QuotePart) :
    (s.moveToNext env order).Truthful ↔ s.core.quizController.currentQuote ≠ 1 ∧
      (s.core.quizController.currentQuote = 14 → ¬ s.DraftComplete) := by
  obtain ⟨hcan, -⟩ := (h hopen).2 henabled
  obtain ⟨hmax, hmaxIndex⟩ := QuizController.canMoveToNext_iff.mp hcan
  have hone := hcached.cursor
  have hloaded := s.isDataComplete_loaded_iff
  rw [moveToNext_of_last hcan hlast]
  dsimp only
  set v := (s.view.updateButtonsViews s.core.quizController true false).tryLoadIncompleteData
    with hv
  have hbuttons : v.prevButton = s.core.quizController.canMoveToPrev ∧ v.nextButton = false ∧
      v.popped = s.view.popped := by
    rw [hv]
    unfold NewQuoteViewController.tryLoadIncompleteData
    split <;> exact ⟨rfl, rfl, rfl⟩
  obtain ⟨hprevButton, hnextButton, hpopped⟩ := hbuttons
  have hprevIff : s.core.quizController.canMoveToPrev = true ↔
      s.core.quizController.currentQuote ≠ 1 := by
    rw [QuizController.canMoveToPrev_iff]
    omega
  have hprevOn : s.steppedOn.core.quizController.canMoveToPrev = true :=
    s.steppedOn_can_iff.1.mpr ⟨by omega, by omega⟩
  have hnextOn : s.steppedOn.core.quizController.canMoveToNext = true ↔
      s.core.quizController.currentQuote ≠ 14 := by
    rw [s.steppedOn_can_iff.2]
    omega
  rw [← hloaded, ← hprevIff]
  by_cases hfull : v.isDataComplete = true
  · rw [if_pos hfull]
    constructor
    · intro htrue
      obtain ⟨hprev, hnext⟩ := htrue (hpopped.trans hopen)
      refine ⟨hprevButton.symm.trans (hprev.trans hprevOn), fun hmost _ => ?_⟩
      exact hnextOn.mp (hnext rfl).1 hmost
    · rintro ⟨hprev, hmost⟩ _
      refine ⟨hprevButton.trans (hprev.trans hprevOn.symm), fun _ => ⟨?_, .inr hfull⟩⟩
      exact hnextOn.mpr fun hcursor => hmost hcursor hfull
  · rw [if_neg hfull]
    constructor
    · intro htrue
      obtain ⟨hprev, -⟩ := htrue (hpopped.trans hopen)
      exact ⟨hprevButton.symm.trans (hprev.trans hprevOn), fun _ => hfull⟩
    · rintro ⟨hprev, -⟩ _
      refine ⟨hprevButton.trans (hprev.trans hprevOn.symm), fun henabled => ?_⟩
      cases hnextButton.symm.trans henabled

/-- Next. -/
theorem truthful_moveToNext_iff (hopen : s.view.popped = false) (h : s.Truthful)
    (hcached : s.core.Cached l) (henabled : s.view.nextButton = true) (env : Env)
    (order : Reordering QuotePart) :
    (s.moveToNext env order).Truthful ↔ s.KeepsTruth (.next env order) := by
  by_cases hnew : s.atNew
  · exact ⟨fun _ _ _ hold => absurd hnew hold,
      fun _ => truthful_moveToNext_of_new hopen h henabled hnew env order⟩
  · have hkeeps : s.KeepsTruth (.next env order) ↔
        if s.core.quizController.currentQuote = s.core.quizController.quotes.count then
          s.core.quizController.currentQuote ≠ 1 ∧
            (s.core.quizController.currentQuote = 14 → ¬ s.DraftComplete)
        else s.Displayable (s.core.quizController.currentQuote + 1) ∨
          1 < s.core.quizController.currentQuote ∧ s.core.quizController.currentQuote < 14 :=
      ⟨fun hk => hk hopen henabled hnew, fun hk _ _ _ => hk⟩
    rw [hkeeps]
    by_cases hlast : s.core.quizController.currentQuote = s.core.quizController.quotes.count
    · rw [if_pos hlast]
      exact truthful_moveToNext_of_last hopen h hcached henabled hlast env order
    · rw [if_neg hlast]
      exact truthful_moveToNext_of_earlier hopen h hcached henabled hnew hlast env order

/-- Done closes the editor or leaves it as it is. -/
theorem truthful_finishCreatingQuiz (h : s.Truthful) (env : Env) (order : Reordering QuotePart) :
    (s.finishCreatingQuiz env order).Truthful := by
  unfold finishCreatingQuiz
  split
  · next hfinish =>
    rw [saveQuote_of_complete s hfinish.2]
    exact truthful_of_popped rfl
  · exact h

/-- One tap, or one text. -/
theorem truthful_tap_iff (hcached : ∃ l, s.core.Cached l) (h : s.Truthful) (a : EditorAction) :
    (s.tap a).Truthful ↔ s.KeepsTruth a := by
  obtain ⟨l, hcached⟩ := hcached
  cases hpopped : s.view.popped with
  | true =>
    -- the editor has closed itself
    have hsame : s.tap a = s := by
      unfold tap
      rw [step_of_popped hpopped]
      cases a <;> simp
    have hkeeps : s.KeepsTruth a := by
      unfold KeepsTruth
      rw [hpopped]
      cases a <;> simp
    rw [hsame]
    exact ⟨fun _ => hkeeps, fun _ => h⟩
  | false =>
    unfold tap
    rw [step_of_open hpopped]
    cases a with
    | edit part text => exact truthful_edit_iff hpopped h part text
    | prev =>
      by_cases henabled : s.view.prevButton = true
      · rw [if_pos henabled]
        exact truthful_moveToPrev_iff hpopped h hcached.numbers henabled
      · rw [if_neg henabled]
        exact ⟨fun _ _ hyes => absurd hyes henabled, fun _ => h⟩
    | next env order =>
      by_cases henabled : s.view.nextButton = true
      · rw [if_pos henabled]
        exact truthful_moveToNext_iff hpopped h hcached henabled env order
      · rw [if_neg henabled]
        exact ⟨fun _ _ hyes => absurd hyes henabled, fun _ => h⟩
    | done env order =>
      refine ⟨fun _ => trivial, fun _ => ?_⟩
      by_cases henabled : s.view.doneButton = true
      · rw [if_pos henabled]
        exact truthful_finishCreatingQuiz h env order
      · rw [if_neg henabled]
        exact h

theorem cached_tap (h : ∃ l, s.core.Cached l) (a : EditorAction) :
    ∃ l, (s.tap a).core.Cached l := by
  have hstep : ∃ l, (s.step a).core.Cached l := cached_run h [a]
  unfold tap
  cases a with
  | edit part text => exact hstep
  | prev | next | done =>
    dsimp only
    split
    · exact hstep
    · exact h

end EditorState

-- ---------------------------------------------------------------------------
-- Sessions
-- ---------------------------------------------------------------------------

/-- **The buttons.** In a session of the editor Prev is enabled exactly when it can move,
and Next only when it can and would not leave an incomplete quote, after every action of
those taken, if and only if each is one that leaves the buttons true. -/
theorem buttons_truthful_iff (w : World) (ops : List Operation) (as : List EditorAction) :
    let core := run Core.step (Core.launch w) ops
    let start : EditorState := ⟨.viewDidLoad core.quizController, core⟩
    (∀ pre, pre <+: as → (run EditorState.tap start pre).Truthful) ↔
      Along EditorState.tap EditorState.KeepsTruth start as := by
  intro core start
  have hcore : ∃ l, core.Cached l := Core.cached_run (Core.cached_launch w) ops
  have hstart : start.Truthful := fun _ => ⟨rfl, nofun⟩
  rw [forall_prefix_iff, and_iff_right hstart]
  have hiff : ∀ (s : EditorState) (a : EditorAction), (∃ l, s.core.Cached l) ∧ s.Truthful →
      ((s.tap a).Truthful ↔ s.KeepsTruth a) := fun s a hs =>
    EditorState.truthful_tap_iff hs.1 hs.2 a
  have hstep : ∀ (s : EditorState) (a : EditorAction), (∃ l, s.core.Cached l) ∧ s.Truthful →
      (s.tap a).Truthful → (∃ l, (s.tap a).core.Cached l) ∧ (s.tap a).Truthful :=
    fun s a hs htrue => ⟨EditorState.cached_tap hs.1 a, htrue⟩
  exact along_congr hiff hstep ⟨hcore, hstart⟩ as

/-- On the second of two positions, after Prev and Next, Prev is disabled. -/
theorem prev_disabled_on_second :
    ¬ ∀ as : List EditorAction, (run EditorState.tap EditorState.first as).Truthful := by
  intro h
  have hstale := h (EditorAction.fillIn sampleTexts ++ [.next {} .asIs, .prev, .next {} .asIs])
  have hprev := (hstale (by decide)).1
  revert hprev
  decide

end KnowTheQuote
