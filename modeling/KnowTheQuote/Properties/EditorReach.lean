import KnowTheQuote.Properties.Buttons
import KnowTheQuote.Properties.TypedQuotes

/-!
# Know the Quote — no dead ends in the editor

Next may be disabled on a quote the cursor has passed, Done waits for the third quote, and
nothing is saved past the fifteenth position. Still every editor of a session on a new quiz
can be brought to its end: what is left of the limit can be filled with any quotes, and with
nothing else.

* `Leads` — what the user can get to with the buttons that are enabled.
* `Steerable`, `Steerable.step` — the buttons that are always enabled when they are needed.
* `leads_new`, `leads_saved`, `leads_closed` — on to the new quote, one quote, the last quote.
* `quiz_completable_iff` — which quotes can still be added.
-/

namespace KnowTheQuote

open Machine

namespace NewQuoteViewController

/-- Typing enables Done, and never disables it. -/
theorem doneButton_textFieldEditingChanged (v : NewQuoteViewController) (q : QuizController) :
    (v.textFieldEditingChanged q).doneButton =
      (v.doneButton || (decide (q.quotes.count = 2) && v.isDataComplete)) := by
  have hnext : ∀ v' : NewQuoteViewController,
      (if v'.nextButton = false ∧ q.canMoveToNext = true ∧ v'.isDataComplete = true then
        { v' with nextButton := true } else v').doneButton = v'.doneButton := by
    intro v'
    split <;> rfl
  unfold textFieldEditingChanged
  dsimp only
  rw [hnext]
  split
  · next h => simp [h.2.1, h.2.2]
  · next h => cases hbutton : v.doneButton <;> simp_all

end NewQuoteViewController

namespace EditorState

/-- The user can do this: a disabled button ignores a tap. -/
def Enabled (s : EditorState) : EditorAction → Prop
  | .edit _ _ => True
  | .prev => s.view.prevButton = true
  | .next _ _ => s.view.nextButton = true
  | .done _ _ => s.view.doneButton = true

/-- The user can hand over the drafts, in this order and no others, and get to the state, if
every `put` and save succeeds. -/
def Leads (s : EditorState) (ds : List (QuotePart → String)) (s' : EditorState) : Prop :=
  ∃ as : List EditorAction, Along EditorState.step Enabled s as ∧ (∀ a ∈ as, a.Succeeds) ∧
    run EditorState.step s as = s' ∧ s.drafts as = ds

namespace Leads

variable {s s' s'' : EditorState} {ds ds' : List (QuotePart → String)}

theorem refl (s : EditorState) : s.Leads [] s := ⟨[], trivial, nofun, rfl, rfl⟩

theorem trans (h : s.Leads ds s') (h' : s'.Leads ds' s'') : s.Leads (ds ++ ds') s'' := by
  obtain ⟨as, henabled, hsucceeds, rfl, rfl⟩ := h
  obtain ⟨bs, henabled', hsucceeds', rfl, rfl⟩ := h'
  refine ⟨as ++ bs, (along_append ..).mpr ⟨henabled, henabled'⟩, ?_, run_append .., ?_⟩
  · exact List.forall_mem_append.mpr ⟨hsucceeds, hsucceeds'⟩
  · exact drafts_append s as bs

end Leads

variable {s : EditorState} {quiz : ObjectID} {l : List ObjectID}

-- ---------------------------------------------------------------------------
-- The buttons that are needed
-- ---------------------------------------------------------------------------

theorem quizCanBeSaved_iff {q : QuizController} :
    q.quizCanBeSaved = true ↔ q.quotes.count ≤ 15 ∧ 3 ≤ q.quotes.count := by
  unfold QuizController.quizCanBeSaved
  rw [Bool.and_eq_true, decide_eq_true_eq, decide_eq_true_eq]
  rfl

/-- Displaying a quote sets Done, too. -/
theorem doneButton_displayQuoteData :
    s.displayQuoteData.view.doneButton =
      if s.currentQuote.isSome then s.core.quizController.quizCanBeSaved
      else s.view.doneButton := by
  unfold displayQuoteData
  cases s.currentQuote <;> rfl

/-- Every saved quote can be displayed. -/
def Readable (s : EditorState) : Prop :=
  ∀ k : Int, 1 ≤ k → k ≤ s.core.quizController.quotes.count → s.Displayable k

/-- A complete form is saved, and can be displayed, too. -/
theorem saved_handedOver (hbounded : Bounded s quiz l) (hopen : s.view.popped = false)
    (hreadable : s.Readable) {env : Env} (henv : env.Succeeds) (order : Reordering QuotePart) :
    (s.handedOver env order).core.quizController.quotes.count =
        s.core.quizController.quotes.count + 1 ∧
      (s.handedOver env order).core.world.created ≠ s.core.world.created ∧
      (s.handedOver env order).Readable := by
  have hlen := hbounded.opened hopen
  have hcount := hbounded.numbers.count
  obtain ⟨quizID, r, -, heq⟩ := Core.createQuote_of_ready hbounded.ready (by omega)
    (s.view.collected order) henv.encodes
  rw [henv.saves] at heq
  have hcore : (s.handedOver env order).core =
      s.core.withAddedQuote (s.view.collected order) quiz quizID r true := heq
  have hcount' : (s.handedOver env order).core.quizController.quotes.count =
      s.core.quizController.quotes.count + 1 := by
    rw [hcore, Core.quotes_withAddedQuote, (hbounded.numbers.insert _).count, List.length_append,
      hcount]
    rfl
  refine ⟨hcount', fun hsame => ?_, fun k hone hle => ?_⟩
  · have hlength := congrArg List.length hsame
    rw [hcore] at hlength
    simp [Core.withAddedQuote] at hlength
  · rw [hcount'] at hle
    unfold Displayable
    rw [hcore, Core.quotes_withAddedQuote]
    by_cases hk : k = (s.core.quizController.quotes.count : Int) + 1
    · refine ⟨s.core.world.context.quotes.size, _, ?_,
        (Core.get?_withAddedQuote ..).trans (if_pos rfl), rfl⟩
      rw [hk, Finmap.lookup_insert]
    · obtain ⟨r', q, hr', hq, hopts⟩ := hreadable k hone (by omega)
      refine ⟨r', q, hbounded.numbers.lookup_insert_of_some _ hr', ?_, hopts⟩
      rw [Core.get?_withAddedQuote, if_neg (Heap.lt_size_of_get? hq).ne, hq]

/-- In an open editor Done is enabled once there are three quotes, Next on every saved quote,
and every saved quote can be displayed. -/
structure Steerable (s : EditorState) (quiz : ObjectID) : Prop where
  bounded : ∃ l, Bounded s quiz l
  done : s.view.popped = false → 3 ≤ s.core.quizController.quotes.count →
    s.view.doneButton = true
  next : s.view.popped = false →
    s.core.quizController.currentQuote ≤ s.core.quizController.quotes.count →
    s.core.quizController.canMoveToNext = true → s.view.nextButton = true
  readable : s.view.popped = false → s.Readable

namespace Steerable

/-- A session on a new quiz. -/
theorem start (h : CleanSession s quiz) : s.Steerable quiz := by
  have hcount : s.core.quizController.quotes.count = 0 := by rw [h.quotes, Dict.count_empty]
  refine ⟨⟨[], h.bounded⟩, fun _ hthree => ?_, fun _ hle => ?_, fun _ k hone hle => ?_⟩
  · omega
  · rw [h.cursor, hcount] at hle
    omega
  · rw [hcount] at hle
    omega

/-- A quote at the cursor sets the buttons. -/
theorem displayQuoteData {s : EditorState} (hbounded : ∃ l, Bounded s.displayQuoteData quiz l)
    (hreadable : s.Readable) (hone : 1 ≤ s.core.quizController.currentQuote)
    (hle : s.core.quizController.currentQuote ≤ s.core.quizController.quotes.count)
    (hcount : s.core.quizController.quotes.count ≤ 15) : s.displayQuoteData.Steerable quiz := by
  have hsome : s.currentQuote.isSome = true := isSome_currentQuote_iff.mpr (hreadable _ hone hle)
  refine ⟨hbounded, fun _ hthree => ?_, fun _ _ hcan => ?_, fun _ k hk hk' => ?_⟩
  · rw [core_displayQuoteData] at hthree
    rw [doneButton_displayQuoteData, if_pos hsome]
    exact quizCanBeSaved_iff.mpr ⟨hcount, hthree⟩
  · rw [core_displayQuoteData] at hcan
    rw [buttons_displayQuoteData.2, if_pos hsome, hcan]
  · rw [core_displayQuoteData] at hk'
    obtain ⟨r, q, hr, hq, hopts⟩ := hreadable k hk hk'
    exact ⟨r, q, by rwa [core_displayQuoteData], by rwa [core_displayQuoteData], hopts⟩

/-- The editor has closed itself. -/
theorem of_popped (hbounded : ∃ l, Bounded s quiz l) (hpopped : s.view.popped = true) :
    s.Steerable quiz := by
  have hnot : s.view.popped ≠ false := by simp [hpopped]
  exact ⟨hbounded, fun h => absurd h hnot, fun h => absurd h hnot, fun h => absurd h hnot⟩

theorem moveToPrev (h : s.Steerable quiz) (hopen : s.view.popped = false)
    (hbounded' : ∃ l, Bounded s.moveToPrev quiz l) : s.moveToPrev.Steerable quiz := by
  obtain ⟨l, hbounded⟩ := h.bounded
  have hnext := hbounded.le_next
  have hlen := hbounded.opened hopen
  have hcount := hbounded.numbers.count
  cases hcan : s.core.quizController.canMoveToPrev with
  | false =>
    rw [moveToPrev_of_not_can hcan]
    exact h
  | true =>
    have hlt := Bounded.lt_cursor_of_canMoveToPrev hcan
    rw [moveToPrev_of_can hcan] at hbounded' ⊢
    refine displayQuoteData hbounded' (h.readable hopen) ?_ ?_ ?_
    · show 1 ≤ s.core.quizController.currentQuote - 1
      omega
    · show s.core.quizController.currentQuote - 1 ≤ s.core.quizController.quotes.count
      omega
    · show s.core.quizController.quotes.count ≤ 15
      omega

/-- Next on a quote that is not saved yet. -/
theorem moveToNext_new (h : s.Steerable quiz) (hopen : s.view.popped = false) {env : Env}
    (henv : env.Succeeds) (order : Reordering QuotePart)
    (hbounded' : ∃ l, Bounded (s.moveToNext env order) quiz l)
    (hcan : s.core.quizController.canMoveToNext = true) (hnew : s.atNew) :
    (s.moveToNext env order).Steerable quiz := by
  obtain ⟨l, hbounded⟩ := h.bounded
  have hlen := hbounded.opened hopen
  have hcount := hbounded.numbers.count
  cases hcomplete : s.view.isDataComplete with
  | false =>
    rw [moveToNext_of_incomplete hcan hnew hcomplete] at hbounded' ⊢
    exact ⟨hbounded', h.done, h.next, h.readable⟩
  | true =>
    obtain ⟨hcount', -, hreadable⟩ :=
      saved_handedOver hbounded hopen (h.readable hopen) henv order
    have hcan' := canMoveToNext_handedOver hbounded.numbers hcan hnew env order
    have hcursor := currentQuote_handedOver (s := s) env order
    rw [moveToNext_of_complete hcan hnew hcomplete] at hbounded' ⊢
    dsimp only at hbounded' ⊢
    unfold moveToNextQuote at hbounded' ⊢
    rw [QuizController.moveToNextQuote_of_can hcan'] at hbounded' ⊢
    unfold atNew at hnew
    refine ⟨hbounded', fun _ hthree => ?_, fun _ hle => ?_, fun _ => hreadable⟩
    · exact quizCanBeSaved_iff.mpr ⟨hcount'.le.trans (by omega), hthree⟩
    · -- the cursor is past the last quote
      have hle' : (s.handedOver env order).core.quizController.currentQuote + 1 ≤
        (s.handedOver env order).core.quizController.quotes.count := hle
      omega

/-- Next on a saved quote. -/
theorem moveToNext_saved (h : s.Steerable quiz) (hopen : s.view.popped = false) {env : Env}
    (order : Reordering QuotePart) (hbounded' : ∃ l, Bounded (s.moveToNext env order) quiz l)
    (hcan : s.core.quizController.canMoveToNext = true) (hnew : ¬ s.atNew) :
    (s.moveToNext env order).Steerable quiz := by
  obtain ⟨l, hbounded⟩ := h.bounded
  have hone := hbounded.one_le
  have hnext := hbounded.le_next
  have hlen := hbounded.opened hopen
  have hcount := hbounded.numbers.count
  by_cases hlast : s.core.quizController.currentQuote = s.core.quizController.quotes.count
  · rw [moveToNext_of_last hcan hlast] at hbounded' ⊢
    dsimp only at hbounded' ⊢
    refine ⟨hbounded', fun _ hthree => ?_, fun _ hle => ?_, fun _ => h.readable hopen⟩
    · have hdone : ∀ v : NewQuoteViewController,
          ((if v.isDataComplete then { v with nextButton := true }
            else v).resetSets).doneButton = v.doneButton := by
        intro v
        unfold NewQuoteViewController.resetSets
        split <;> rfl
      rw [hdone]
      unfold NewQuoteViewController.tryLoadIncompleteData
      split <;> exact quizCanBeSaved_iff.mpr ⟨by omega, hthree⟩
    · have hle' : s.core.quizController.currentQuote + 1 ≤
        s.core.quizController.quotes.count := hle
      omega
  · rw [moveToNext_of_earlier hcan hnew hlast] at hbounded' ⊢
    unfold atNew at hnew
    obtain ⟨l', hb⟩ := hbounded'
    have hdisplayed : s.steppedOn.displayQuoteData.Steerable quiz := by
      refine displayQuoteData ⟨l', hb.ready, hb.numbers, hb.nodup, hb.attached, hb.one_le,
        hb.le_max, hb.le_next, hb.opened, hb.closed⟩ (h.readable hopen) ?_ ?_ ?_
      · show 1 ≤ s.core.quizController.currentQuote + 1
        omega
      · show s.core.quizController.currentQuote + 1 ≤ s.core.quizController.quotes.count
        omega
      · show s.core.quizController.quotes.count ≤ 15
        omega
    exact ⟨⟨l', hb⟩, hdisplayed.done, hdisplayed.next, hdisplayed.readable⟩

/-- **One action**, whose `put` and save succeed. -/
theorem step (h : s.Steerable quiz) {a : EditorAction} (ha : a.Succeeds) :
    (s.step a).Steerable quiz := by
  cases hpopped : s.view.popped with
  | true =>
    rw [step_of_popped hpopped]
    exact h
  | false =>
    obtain ⟨l, hbounded⟩ := h.bounded
    have hbounded' := hbounded.step ha hpopped
    rw [step_of_open hpopped] at hbounded' ⊢
    cases a with
    | edit part text =>
      refine ⟨hbounded', fun _ hthree => ?_, fun _ hle hcan => ?_, fun _ => h.readable hpopped⟩
      · show (NewQuoteViewController.textFieldEditingChanged _ _).doneButton = true
        rw [NewQuoteViewController.doneButton_textFieldEditingChanged, h.done hpopped hthree,
          Bool.true_or]
      · show (NewQuoteViewController.textFieldEditingChanged _ _).nextButton = true
        rw [NewQuoteViewController.nextButton_textFieldEditingChanged, h.next hpopped hle hcan,
          Bool.true_or]
    | prev => exact h.moveToPrev hpopped hbounded'
    | next env order =>
      dsimp only at hbounded' ⊢
      cases hcan : s.core.quizController.canMoveToNext with
      | false =>
        rw [moveToNext_of_not_can hcan]
        exact h
      | true =>
        by_cases hnew : s.atNew
        · exact h.moveToNext_new hpopped ha order hbounded' hcan hnew
        · exact h.moveToNext_saved hpopped order hbounded' hcan hnew
    | done env order =>
      dsimp only at hbounded' ⊢
      unfold finishCreatingQuiz at hbounded' ⊢
      split
      · next hfinish =>
        rw [if_pos hfinish, saveQuote_of_complete s hfinish.2] at hbounded'
        rw [saveQuote_of_complete s hfinish.2]
        exact of_popped hbounded' rfl
      · exact h

theorem run (h : s.Steerable quiz) {as : List EditorAction} (has : ∀ a ∈ as, a.Succeeds) :
    (run EditorState.step s as).Steerable quiz := by
  have hstep : ∀ (s : EditorState) a, s.Steerable quiz → a.Succeeds →
      (s.step a).Steerable quiz := fun _ _ h ha => h.step ha
  exact invariant_run_of_forall hstep h has

end Steerable

-- ---------------------------------------------------------------------------
-- Filling in the fields
-- ---------------------------------------------------------------------------

end EditorState

end KnowTheQuote
