import KnowTheQuote.Properties.Cache
import KnowTheQuote.Model.Editor

/-!
# Know the Quote — what an editor action can do

The editor reaches the controllers in four ways: Prev and Next move the cursor,
Next saves a quote and moves the cursor, Done saves a quote and closes the editor.
`step_cases` says so once, with the guards each branch has passed, and
`createQuote_of_ready` says what a saved quote leaves behind when its `put`
reports success.
-/

namespace KnowTheQuote

-- ---------------------------------------------------------------------------
-- Success
-- ---------------------------------------------------------------------------

/-- The encoder and the save do not throw. -/
structure Env.Succeeds (env : Env) : Prop where
  encodes : env.encodes = true
  saves : env.saves = true

instance (env : Env) : Decidable env.Succeeds :=
  decidable_of_iff (env.encodes = true ∧ env.saves = true)
    ⟨fun h => ⟨h.1, h.2⟩, fun h => ⟨h.encodes, h.saves⟩⟩

/-- A `put` the action makes is encoded, and its save succeeds. -/
def EditorAction.Succeeds : EditorAction → Prop
  | .next env _ | .done env _ => env.Succeeds
  | .edit _ _ | .prev => True

instance : DecidablePred EditorAction.Succeeds
  | .next env _ | .done env _ => inferInstanceAs (Decidable env.Succeeds)
  | .edit _ _ | .prev => .isTrue trivial

-- ---------------------------------------------------------------------------
-- Saving a quote
-- ---------------------------------------------------------------------------

/-- The arguments `saveQuote` gives to `createQuote`. -/
def NewQuoteViewController.collected (v : NewQuoteViewController) (order : Reordering QuotePart) :
    NewQuote :=
  let v := v.collectCompleteData order
  ⟨v.dataDictionary .part1, v.dataDictionary .part2, (v.dataDictionary .answer).getD "",
    v.incorrectOptsArray⟩

namespace Core

/-- `createQuote` with its arguments in one value. -/
def createQuoteOf (c : Core) (a : NewQuote) (env : Env) : Core :=
  c.createQuote a.firstPart a.secondPart a.answer a.incorrectAnswers env

/-- A quote can be put for quiz `quiz`: the quiz is current and has an id, and a user
with a name is logged in. -/
structure Ready (c : Core) (quiz : ObjectID) : Prop where
  current : c.quizController.quiz = some quiz
  id : ∃ quizID, c.world.context.quizID quiz = some quizID
  baseURL : c.quizController.quoteController.baseURL.isSome
  user : ∃ user name, c.quizController.user = some user ∧
    c.world.context.username user = some name

/-- `createQuote` after a `put` that reported success. -/
def withAddedQuote (c : Core) (a : NewQuote) (quiz : ObjectID) (quizID : UUID) (r : Request)
    (saves : Bool) : Core :=
  (c.withNewQuote a quizID).put (.ok r) (.createQuote quiz c.world.context.quotes.size) saves

variable {c : Core} {quiz : ObjectID}

/-- The request for a new quote. A quote that has just been initialised can be represented,
so its `put` fails only with the encoder. -/
theorem newQuotePut_eq_ok {user : ObjectID} {name : String}
    (hurl : c.quizController.quoteController.baseURL.isSome)
    (huser : c.quizController.user = some user)
    (hname : c.world.context.username user = some name) (a : NewQuote) (quizID : UUID) {env : Env}
    (henc : env.encodes = true) :
    let uuid := c.world.uuids.next c.world.drawn
    c.newQuotePut a quizID env =
      .ok ⟨["users", name, "quizzesCreated", quizID.uuidString, "quotes", uuid.uuidString],
        .quote (a.representation uuid quizID)⟩ := by
  intro uuid
  refine QuoteController.put_eq_ok.mpr
    ⟨?_, henc, a.representation uuid quizID, user, name, ?_, ?_, hname, rfl⟩
  · simpa using hurl
  · simp [uuid]
  · simpa using huser

/-- Once the editor is ready, only the encoder can fail. -/
theorem newQuotePut_of_ready (h : c.Ready quiz) (a : NewQuote) (quizID : UUID) {env : Env}
    (henc : env.encodes = true) : ∃ r, c.newQuotePut a quizID env = .ok r := by
  obtain ⟨user, name, huser, hname⟩ := h.user
  exact ⟨_, newQuotePut_eq_ok h.baseURL huser hname a quizID henc⟩

/-- A `createQuote` whose `put` reports a success adds the quote. -/
theorem createQuoteOf_eq {quizID : UUID} {a : NewQuote} {env : Env} {r : Request}
    (hquiz : c.quizController.quiz = some quiz) (hid : c.world.context.quizID quiz = some quizID)
    (hcount : c.quizController.quotes.count < 16) (hput : c.newQuotePut a quizID env = .ok r) :
    c.createQuoteOf a env = c.withAddedQuote a quiz quizID r env.saves := by
  have hcases := c.createQuote_cases a env
  unfold createQuoteOf
  generalize c.createQuote a.firstPart a.secondPart a.answer a.incorrectAnswers env = c'
    at hcases ⊢
  cases hcases with
  | skipped hskip => simp [hskip quiz hquiz] at hid
  | full _ _ hfull => omega
  | refused hquiz' hid' _ hput' =>
    cases hquiz.symm.trans hquiz'
    cases hid.symm.trans hid'
    simp [hput] at hput'
  | added hquiz' hid' _ hput' =>
    cases hquiz.symm.trans hquiz'
    cases hid.symm.trans hid'
    cases hput.symm.trans hput'
    rfl

/-- **Saving.** With a current quiz, a user and fewer than sixteen quotes, `createQuote`
adds the quote. -/
theorem createQuote_of_ready (h : c.Ready quiz) (hcount : c.quizController.quotes.count < 16)
    (a : NewQuote) {env : Env} (henc : env.encodes = true) :
    ∃ quizID r, c.world.context.quizID quiz = some quizID ∧
      c.createQuoteOf a env = c.withAddedQuote a quiz quizID r env.saves := by
  obtain ⟨quizID, hid⟩ := h.id
  obtain ⟨r, hput⟩ := newQuotePut_of_ready h a quizID henc
  exact ⟨quizID, r, hid, createQuoteOf_eq h.current hid hcount hput⟩

section WithAddedQuote

variable (a : NewQuote) (quizID : UUID) (r : Request)

@[simp] theorem quotes_withAddedQuote (saves : Bool) :
    (c.withAddedQuote a quiz quizID r saves).quizController.quotes =
      Finmap.insert ((c.quizController.quotes.count : Int) + 1) c.world.context.quotes.size
        c.quizController.quotes := by
  simp [withAddedQuote]

@[simp] theorem currentQuote_withAddedQuote (saves : Bool) :
    (c.withAddedQuote a quiz quizID r saves).quizController.currentQuote =
      c.quizController.currentQuote := by
  simp [withAddedQuote]

/-- The saved object is the new cell, attached to the quiz. -/
theorem get?_withAddedQuote (r' : ObjectID) :
    (c.withAddedQuote a quiz quizID r true).world.context.quotes.get? r' =
      if r' = c.world.context.quotes.size then
        some { a.object (c.world.uuids.next c.world.drawn) quizID with quiz := some quiz }
      else c.world.context.quotes.get? r' := by
  simp only [withAddedQuote, context_put_createQuote_true, Context.addToQuotes,
    context_withNewQuote, Heap.get?_modify, Heap.get?_alloc]
  split <;> simp

@[simp] theorem size_withAddedQuote :
    (c.withAddedQuote a quiz quizID r true).world.context.quotes.size =
      c.world.context.quotes.size + 1 := by
  simp [withAddedQuote, Context.addToQuotes]

@[simp] theorem quizzes_withAddedQuote :
    (c.withAddedQuote a quiz quizID r true).world.context.quizzes = c.world.context.quizzes := by
  simp [withAddedQuote, Context.addToQuotes]

@[simp] theorem users_withAddedQuote :
    (c.withAddedQuote a quiz quizID r true).world.context.users = c.world.context.users := by
  simp [withAddedQuote, Context.addToQuotes]

@[simp] theorem quizID_withAddedQuote (quiz' : ObjectID) :
    (c.withAddedQuote a quiz quizID r true).world.context.quizID quiz' =
      c.world.context.quizID quiz' := by
  simp [Context.quizID]

@[simp] theorem username_withAddedQuote (user : ObjectID) :
    (c.withAddedQuote a quiz quizID r true).world.context.username user =
      c.world.context.username user := by
  simp [Context.username]

/-- The quiz gains the new quote; no other quiz gains or loses one. -/
theorem mem_quotesOf_withAddedQuote {quiz' r' : ObjectID} :
    r' ∈ (c.withAddedQuote a quiz quizID r true).world.context.quotesOf quiz' ↔
      r' ∈ c.world.context.quotesOf quiz' ∨
        r' = c.world.context.quotes.size ∧ quiz' = quiz := by
  rw [mem_quotesOf, mem_quotesOf]
  simp only [get?_withAddedQuote]
  split
  · next heq =>
    subst heq
    rw [Heap.get?_of_size_le (le_refl _)]
    simp [eq_comm]
  · next hne => simp [hne]

/-- The quiz has one quote more. -/
theorem quotesOf_withAddedQuote_perm :
    ((c.withAddedQuote a quiz quizID r true).world.context.quotesOf quiz).Perm
      (c.world.context.quotes.size :: c.world.context.quotesOf quiz) := by
  -- the new quote has a number no quote had
  have hnew : c.world.context.quotes.size ∉ c.world.context.quotesOf quiz := by
    intro hold
    obtain ⟨q, hq, -⟩ := mem_quotesOf.mp hold
    exact lt_irrefl _ (Heap.lt_size_of_get? hq)
  refine (List.perm_ext_iff_of_nodup (nodup_quotesOf ..)
    (List.nodup_cons.mpr ⟨hnew, nodup_quotesOf ..⟩)).mpr fun r' => ?_
  rw [mem_quotesOf_withAddedQuote, List.mem_cons, or_comm, and_iff_left rfl]

/-- Saving a quote keeps the session ready for the next one. -/
theorem Ready.withAddedQuote (h : c.Ready quiz) :
    (c.withAddedQuote a quiz quizID r true).Ready quiz := by
  obtain ⟨user, name, huser, hname⟩ := h.user
  refine ⟨?_, by simpa using h.id, ?_, user, name, ?_, by simpa using hname⟩
  · simpa [Core.withAddedQuote] using h.current
  · simpa [Core.withAddedQuote] using h.baseURL
  · simpa [Core.withAddedQuote] using huser

end WithAddedQuote

end Core

-- ---------------------------------------------------------------------------
-- One action
-- ---------------------------------------------------------------------------

namespace EditorState

variable (s : EditorState)

@[simp] theorem core_displayQuoteData : s.displayQuoteData.core = s.core := by
  unfold displayQuoteData
  split <;> rfl

@[simp] theorem popped_displayQuoteData :
    s.displayQuoteData.view.popped = s.view.popped := by
  unfold displayQuoteData
  split <;> rfl

/-- Loading the draft leaves the editor open. -/
theorem popped_tryLoadIncompleteData (v : NewQuoteViewController) :
    v.tryLoadIncompleteData.popped = v.popped := by
  unfold NewQuoteViewController.tryLoadIncompleteData
  split <;> rfl

/-- So does collecting the texts. -/
theorem popped_collectCompleteData (v : NewQuoteViewController) (order : Reordering QuotePart) :
    (v.collectCompleteData order).popped = v.popped := by
  have hcollect : ∀ (keys : List QuotePart) (v : NewQuoteViewController),
      (keys.foldl NewQuoteViewController.collect v).popped = v.popped := by
    intro keys
    induction keys with
    | nil => exact fun v => rfl
    | cons key keys ih =>
      intro v
      rw [List.foldl_cons, ih]
      unfold NewQuoteViewController.collect
      dsimp only
      split
      · rfl
      · split <;> rfl
  unfold NewQuoteViewController.collectCompleteData
  split
  · exact hcollect _ v
  · rfl

/-- Typing sets two of the buttons and nothing else. -/
theorem textFieldEditingChanged_eq (v : NewQuoteViewController) (q : QuizController) :
    ∃ done next, v.textFieldEditingChanged q =
      { v with doneButton := done, nextButton := next } := by
  unfold NewQuoteViewController.textFieldEditingChanged
  dsimp only
  split <;> split <;> exact ⟨_, _, rfl⟩

/-- It leaves the editor open. -/
theorem popped_textFieldEditingChanged (v : NewQuoteViewController) (q : QuizController) :
    (v.textFieldEditingChanged q).popped = v.popped := by
  obtain ⟨done, next, heq⟩ := textFieldEditingChanged_eq v q
  rw [heq]

/-- A complete form is handed over, whatever becomes of the quote. -/
theorem saveQuote_of_complete (h : s.view.isDataComplete = true) (env : Env)
    (order : Reordering QuotePart) :
    s.saveQuote env order =
      ({ view := s.view.collectCompleteData order
         core := s.core.createQuoteOf (s.view.collected order) env }, true) := by
  simp only [saveQuote, h, if_true]
  rfl

/-- An incomplete form stays as it is. -/
theorem saveQuote_of_incomplete (h : s.view.isDataComplete = false) (env : Env)
    (order : Reordering QuotePart) : s.saveQuote env order = (s, false) := by
  simp [saveQuote, h]

/-- What an action can do to the controllers. -/
inductive StepCases (a : EditorAction) : EditorState → Prop where
  | viewOnly (view : NewQuoteViewController) (hpopped : view.popped = s.view.popped) :
      StepCases a ⟨view, s.core⟩
  | prev (view : NewQuoteViewController) (hpopped : view.popped = false)
      (hcan : s.core.quizController.canMoveToPrev = true) :
      StepCases a ⟨view, s.core.step .moveToPrevQuote⟩
  | next (view : NewQuoteViewController) (hpopped : view.popped = false)
      (hcan : s.core.quizController.canMoveToNext = true)
      (hsaved : s.core.quizController.currentQuote ≠ s.core.quizController.quotes.count + 1) :
      StepCases a ⟨view, s.core.step .moveToNextQuote⟩
  | saved (view : NewQuoteViewController) (env : Env) (order : Reordering QuotePart)
      (ha : a = .next env order) (hpopped : view.popped = false)
      (hcan : s.core.quizController.canMoveToNext = true)
      (hnew : s.core.quizController.currentQuote = s.core.quizController.quotes.count + 1)
      (hcomplete : s.view.isDataComplete = true) :
      StepCases a
        ⟨view, (s.core.createQuoteOf (s.view.collected order) env).step .moveToNextQuote⟩
  | finished (view : NewQuoteViewController) (env : Env) (order : Reordering QuotePart)
      (ha : a = .done env order) (hpopped : view.popped = true)
      (hcount : 2 ≤ s.core.quizController.quotes.count)
      (hcomplete : s.view.isDataComplete = true) :
      StepCases a ⟨view, s.core.createQuoteOf (s.view.collected order) env⟩

variable {s}

/-- Prev displays a saved quote, if there is one before the cursor. -/
theorem moveToPrev_cases (hopen : s.view.popped = false) :
    s.StepCases .prev s.moveToPrev := by
  unfold moveToPrev
  split
  · next hcan =>
    generalize hs' : (displayQuoteData _ : EditorState) = s'
    have hcore : s'.core = s.core.step .moveToPrevQuote := by
      rw [← hs', core_displayQuoteData]
      rfl
    have hview : s'.view.popped = false := by
      rw [← hs', popped_displayQuoteData]
      exact hopen
    obtain ⟨view, core⟩ := s'
    cases hcore
    exact .prev view hview hcan
  · exact .viewOnly s.view rfl

/-- Next hands the new quote over, or displays the next saved one. -/
theorem moveToNext_cases (hopen : s.view.popped = false) (env : Env)
    (order : Reordering QuotePart) :
    s.StepCases (.next env order) (s.moveToNext env order) := by
  unfold moveToNext
  split
  · next hcan =>
    dsimp only
    split
    · next hnew =>
      cases hcomplete : s.view.isDataComplete with
      | true =>
        rw [saveQuote_of_complete s hcomplete]
        refine .saved _ env order rfl ?_ hcan hnew hcomplete
        exact (popped_collectCompleteData s.view order).trans hopen
      | false =>
        rw [saveQuote_of_incomplete s hcomplete]
        exact .viewOnly _ rfl
    · next hsaved =>
      split
      · refine .next _ ?_ hcan hsaved
        dsimp only [NewQuoteViewController.resetSets]
        split <;> exact (popped_tryLoadIncompleteData _).trans hopen
      · generalize hs' : (displayQuoteData _ : EditorState) = s'
        have hcore : s'.core = s.core.step .moveToNextQuote := by
          rw [← hs', core_displayQuoteData]
          rfl
        have hview : s'.view.popped = false := by
          rw [← hs', popped_displayQuoteData]
          exact hopen
        obtain ⟨view, core⟩ := s'
        cases hcore
        exact .next _ hview hcan hsaved
  · exact .viewOnly s.view rfl

/-- Done hands a complete quote over, from the third one on. -/
theorem finishCreatingQuiz_cases (env : Env) (order : Reordering QuotePart) :
    s.StepCases (.done env order) (s.finishCreatingQuiz env order) := by
  unfold finishCreatingQuiz
  split
  · next hcan =>
    rw [saveQuote_of_complete s hcan.2]
    exact .finished _ env order rfl rfl hcan.1 hcan.2
  · exact .viewOnly s.view rfl

/-- Nothing happens once the editor has closed itself. -/
theorem step_of_popped (h : s.view.popped = true) (a : EditorAction) : s.step a = s := by
  unfold step
  rw [if_pos h]

/-- In an open editor each action is its method. -/
theorem step_of_open (h : s.view.popped = false) (a : EditorAction) :
    s.step a = match a with
      | .edit part text => s.edit part text
      | .prev => s.moveToPrev
      | .next env order => s.moveToNext env order
      | .done env order => s.finishCreatingQuiz env order := by
  unfold step
  cases a <;> exact if_neg (by simp [h])

/-- **One editor action**, with the guards its branch has passed. -/
theorem step_cases (s : EditorState) (a : EditorAction) : s.StepCases a (s.step a) := by
  unfold step
  split
  · exact .viewOnly s.view rfl
  · next hopen =>
    have hopen := Bool.eq_false_iff.mpr hopen
    cases a with
    | edit part text => exact .viewOnly _ (popped_textFieldEditingChanged _ _)
    | prev => exact moveToPrev_cases hopen
    | next env order => exact moveToNext_cases hopen env order
    | done env order => exact finishCreatingQuiz_cases env order

end EditorState

end KnowTheQuote
