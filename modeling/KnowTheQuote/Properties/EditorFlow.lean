import KnowTheQuote.Properties.EditorSteps
import KnowTheQuote.Properties.PlaySteps

/-!
# Know the Quote — from the text fields to the buttons

A quote's texts pass through an unordered dictionary of text fields, an array that
lives in the view controller across taps, the stored attributes, a shuffle and the
pop loop over the buttons. The array is only right because every tap on Next that
passes its guard empties it again, which is the invariant `Emptied`.

* `collected_of_complete` — what a save collects from an emptied array.
* `emptied_run` — the array is empty between taps while the editor is open.
* `editor_to_buttons` — the texts on the buttons are those typed.
-/

namespace KnowTheQuote

open Machine

-- ---------------------------------------------------------------------------
-- Collecting
-- ---------------------------------------------------------------------------

/-- The keys of the four fields for incorrect options. -/
def QuotePart.isIncorrectOpt : QuotePart → Bool
  | .part1 | .part2 | .answer => false
  | .incorrectOpt1 | .incorrectOpt2 | .incorrectOpt3 | .incorrectOpt4 => true

namespace NewQuoteViewController

variable (v : NewQuoteViewController)

/-- The texts of the four fields for incorrect options. -/
def incorrectTexts : List String :=
  [v.texts .incorrectOpt1, v.texts .incorrectOpt2, v.texts .incorrectOpt3,
    v.texts .incorrectOpt4]

theorem incorrectTexts_eq :
    v.incorrectTexts = (QuotePart.all.filter QuotePart.isIncorrectOpt).map v.texts := rfl

@[simp] theorem texts_collect (key : QuotePart) : (v.collect key).texts = v.texts := by
  unfold collect
  dsimp only
  split
  · rfl
  · cases key <;> rfl

variable {v}

/-- One turn of the loop, over a field that is not empty. -/
theorem collect_of_nonempty {key : QuotePart} (h : (v.texts key).isEmpty = false) :
    v.collect key =
      if key.isIncorrectOpt then
        { v with incorrectOptsArray := v.incorrectOptsArray ++ [v.texts key] }
      else
        { v with dataDictionary := Function.update v.dataDictionary key (some (v.texts key)) } := by
  unfold collect
  cases key <;> simp [h, QuotePart.isIncorrectOpt]

/-- The array gains the texts of the incorrect-option fields, in the loop's order. -/
theorem incorrectOptsArray_foldl {keys : List QuotePart} {v : NewQuoteViewController}
    (h : ∀ key, (v.texts key).isEmpty = false) :
    (keys.foldl collect v).incorrectOptsArray =
      v.incorrectOptsArray ++ (keys.filter QuotePart.isIncorrectOpt).map v.texts := by
  induction keys generalizing v with
  | nil => simp
  | cons key keys ih =>
    rw [List.foldl_cons, ih (by simpa using h), texts_collect, collect_of_nonempty (h key)]
    cases hkey : key.isIncorrectOpt <;> simp [hkey]

/-- The dictionary holds the text of every other field the loop has visited. -/
theorem dataDictionary_foldl {keys : List QuotePart} {v : NewQuoteViewController}
    (h : ∀ key, (v.texts key).isEmpty = false) {part : QuotePart}
    (hpart : part.isIncorrectOpt = false) :
    (keys.foldl collect v).dataDictionary part =
      if part ∈ keys then some (v.texts part) else v.dataDictionary part := by
  induction keys generalizing v with
  | nil => simp
  | cons key keys ih =>
    rw [List.foldl_cons, ih (by simpa using h), texts_collect]
    by_cases hmem : part ∈ keys
    · simp [hmem]
    · rw [if_neg hmem, collect_of_nonempty (h key)]
      by_cases heq : part = key
      · subst heq
        simp [hpart]
      · cases hkey : key.isIncorrectOpt <;> simp [heq, hmem]

theorem texts_nonempty_of_complete (h : v.isDataComplete = true) (key : QuotePart) :
    (v.texts key).isEmpty = false := by
  have hall := List.all_eq_true.mp h key (by cases key <;> decide)
  simpa using hall

/-- **Collecting.** With every field filled and the array empty, a save collects
exactly the texts on screen, in whatever order the fields are enumerated. -/
theorem collected_of_complete (hcomplete : v.isDataComplete = true)
    (hempty : v.incorrectOptsArray = []) (order : Reordering QuotePart) :
    ∃ opts, opts.Perm v.incorrectTexts ∧
      v.collected order =
        ⟨some (v.texts .part1), some (v.texts .part2), v.texts .answer, opts⟩ := by
  have htexts := texts_nonempty_of_complete hcomplete
  have hmem : ∀ part, part ∈ order.apply QuotePart.all := fun part =>
    (order.mem_apply _ _).mpr (by cases part <;> decide)
  refine ⟨((order.apply QuotePart.all).filter QuotePart.isIncorrectOpt).map v.texts, ?_, ?_⟩
  · rw [incorrectTexts_eq]
    exact ((order.perm _).filter _).map _
  · have hcollect : v.collectCompleteData order = (order.apply QuotePart.all).foldl collect v := by
      rw [collectCompleteData, if_pos hcomplete]
    have hdict : ∀ part, part.isIncorrectOpt = false →
        ((order.apply QuotePart.all).foldl collect v).dataDictionary part =
          some (v.texts part) := fun part hpart => by
      rw [dataDictionary_foldl htexts hpart, if_pos (hmem part)]
    unfold collected
    rw [hcollect]
    dsimp only
    rw [hdict _ rfl, hdict _ rfl, hdict _ rfl, incorrectOptsArray_foldl htexts, hempty]
    rfl

end NewQuoteViewController

-- ---------------------------------------------------------------------------
-- The array between taps
-- ---------------------------------------------------------------------------

/-- The array is empty while the editor is open. -/
def EditorState.Emptied (s : EditorState) : Prop :=
  s.view.popped = false → s.view.incorrectOptsArray = []

namespace EditorState

variable {s : EditorState}

theorem incorrectOptsArray_displayQuoteData :
    s.displayQuoteData.view.incorrectOptsArray = s.view.incorrectOptsArray := by
  unfold displayQuoteData
  split <;> rfl

theorem incorrectOptsArray_textFieldEditingChanged (v : NewQuoteViewController)
    (q : QuizController) :
    (v.textFieldEditingChanged q).incorrectOptsArray = v.incorrectOptsArray := by
  obtain ⟨done, next, heq⟩ := textFieldEditingChanged_eq v q
  rw [heq]

theorem incorrectOptsArray_moveToPrev :
    s.moveToPrev.view.incorrectOptsArray = s.view.incorrectOptsArray := by
  unfold moveToPrev
  split
  · rw [incorrectOptsArray_displayQuoteData]
    rfl
  · rfl

/-- Next either does nothing or ends with `resetSets`. -/
theorem incorrectOptsArray_moveToNext (env : Env) (order : Reordering QuotePart)
    (h : s.view.incorrectOptsArray = []) :
    (s.moveToNext env order).view.incorrectOptsArray = [] := by
  unfold moveToNext
  split
  · rfl
  · exact h

/-- Done either closes the editor or leaves the array alone. -/
theorem emptied_finishCreatingQuiz (env : Env) (order : Reordering QuotePart)
    (h : s.view.incorrectOptsArray = []) : (s.finishCreatingQuiz env order).Emptied := by
  unfold finishCreatingQuiz
  split
  · next hcan =>
    rw [saveQuote_of_complete s hcan.2]
    intro hpopped
    cases hpopped
  · exact fun _ => h

theorem Emptied.step (h : s.Emptied) (a : EditorAction) : (s.step a).Emptied := by
  cases hpopped : s.view.popped with
  | true =>
    rw [step_of_popped hpopped]
    exact h
  | false =>
    rw [step_of_open hpopped]
    have hempty := h hpopped
    cases a with
    | edit part text =>
      exact fun _ => (incorrectOptsArray_textFieldEditingChanged _ _).trans hempty
    | prev => exact fun _ => incorrectOptsArray_moveToPrev.trans hempty
    | next env order => exact fun _ => incorrectOptsArray_moveToNext env order hempty
    | done env order => exact emptied_finishCreatingQuiz env order hempty

end EditorState

/-- While the editor is open, every tap finds the array empty. -/
theorem emptied_run (core : Core) (as : List EditorAction) :
    (run EditorState.step ⟨.viewDidLoad core.quizController, core⟩ as).Emptied :=
  invariant_run_all (fun _ a h => h.step a) (fun _ => rfl) as

-- ---------------------------------------------------------------------------
-- What an action creates
-- ---------------------------------------------------------------------------

namespace Core

/-- `createQuote` makes at most one object, from its arguments. -/
theorem created_createQuoteOf (c : Core) (a : NewQuote) (env : Env) :
    (c.createQuoteOf a env).world.created = c.world.created ∨
      ∃ uuid quizID, (c.createQuoteOf a env).world.created =
        c.world.created ++ [a.object uuid quizID] := by
  have hcases := c.createQuote_cases a env
  unfold createQuoteOf
  generalize c.createQuote a.firstPart a.secondPart a.answer a.incorrectAnswers env = c'
    at hcases ⊢
  cases hcases with
  | skipped => exact .inl rfl
  | full => exact .inl rfl
  | refused => exact .inr ⟨_, _, rfl⟩
  | added => exact .inr ⟨_, _, rfl⟩

end Core

/-- An editor action makes at most one object, from what it collects. -/
theorem created_step (s : EditorState) (a : EditorAction) :
    (s.step a).core.world.created = s.core.world.created ∨
      s.view.isDataComplete = true ∧ ∃ order uuid quizID, (s.step a).core.world.created =
        s.core.world.created ++ [(s.view.collected order).object uuid quizID] := by
  have hcases := s.step_cases a
  generalize s.step a = s' at hcases ⊢
  cases hcases with
  | viewOnly => exact .inl rfl
  | prev => exact .inl rfl
  | next => exact .inl rfl
  | saved view env order _ _ _ _ hcomplete =>
    rcases s.core.created_createQuoteOf (s.view.collected order) env with h | ⟨uuid, quizID, h⟩
    · exact .inl h
    · exact .inr ⟨hcomplete, order, uuid, quizID, h⟩
  | finished view env order _ _ _ hcomplete =>
    rcases s.core.created_createQuoteOf (s.view.collected order) env with h | ⟨uuid, quizID, h⟩
    · exact .inl h
    · exact .inr ⟨hcomplete, order, uuid, quizID, h⟩

/-- **From the fields to the buttons.** In every run of the editor, the next action
creates at most one quote. It has the texts on screen at that moment, its incorrect
options are the four fields' texts in some order, and all options are these and the
answer; and wherever the quote is displayed, on any five buttons and after any shuffle,
the titles are those five texts. -/
theorem editor_to_buttons (core : Core) (as : List EditorAction) (a : EditorAction) :
    let s := run EditorState.step ⟨.viewDidLoad core.quizController, core⟩ as
    let answer := s.view.texts .answer
    ∃ new : List Quote,
      (s.step a).core.world.created = s.core.world.created ++ new ∧ new.length ≤ 1 ∧
      ∀ q ∈ new,
        q.firstPart = some (s.view.texts .part1) ∧
        q.secondPart = some (s.view.texts .part2) ∧
        q.answer = some answer ∧
        (∃ opts, q.incorrectOptions = some opts ∧ opts.Perm s.view.incorrectTexts) ∧
        (∃ opts, q.allOptions = some opts ∧ opts.Perm (s.view.incorrectTexts ++ [answer])) ∧
        ∀ (c : Context) (r : ObjectID) (stored : Quote) (v : QuoteViewController)
          (shuffle : Reordering String),
          c.quotes.get? r = some stored → { stored with quiz := none } = q →
          v.quote = some r → v.titles.length = 5 →
          (v.displayQuote c shuffle).titles.Perm
            ((s.view.incorrectTexts ++ [answer]).map some) ∧
          some answer ∈ (v.displayQuote c shuffle).titles := by
  intro s answer
  have hempt : s.Emptied := emptied_run core as
  rcases created_step s a with hsame | ⟨hcomplete, order, uuid, quizID, hnew⟩
  · exact ⟨[], by rw [hsame, List.append_nil], Nat.zero_le _, by simp⟩
  · -- an action on a closed editor creates nothing
    have hopen : s.view.popped = false := by
      by_contra hpopped
      rw [EditorState.step_of_popped (Bool.eq_true_of_not_eq_false hpopped)] at hnew
      have := congrArg List.length hnew
      simp at this
    obtain ⟨opts, hopts, hcollected⟩ :=
      NewQuoteViewController.collected_of_complete hcomplete (hempt hopen) order
    rw [hcollected] at hnew
    have hall : (opts ++ [answer]).Perm (s.view.incorrectTexts ++ [answer]) :=
      hopts.append_right _
    refine ⟨_, hnew, le_refl _, ?_⟩
    intro q hq
    rw [List.mem_singleton] at hq
    refine ⟨hq ▸ rfl, hq ▸ rfl, hq ▸ rfl, ⟨opts, hq ▸ rfl, hopts⟩, ⟨_, hq ▸ rfl, hall⟩, ?_⟩
    intro c r stored v shuffle hget hstored hquote htitles
    have hdisp : QuoteViewController.Displayable stored (s.view.texts .part1)
        (s.view.texts .part2) (opts ++ [answer]) := by
      rw [hq] at hstored
      injection hstored
      constructor <;> assumption
    have hlen : v.titles.length = (opts ++ [answer]).length := by
      rw [htitles, List.length_append, hopts.length_eq]
      rfl
    have hperm := (QuoteViewController.titles_displayQuote_perm hquote hget hdisp hlen
      shuffle).trans (hall.map some)
    exact ⟨hperm, hperm.mem_iff.mpr (by simp)⟩

end KnowTheQuote
