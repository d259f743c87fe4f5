import KnowTheQuote.Properties.AppSteps

/-!
# Know the Quote — one quiz and the next

The editor and the play share the dictionary and the cursor of `QuizController`.
`setupStart` resets both before a play; `createEmptyQuiz` does not, so an editor
opens with whatever the session or the play before it has left. When nothing was
left, the editor works on the quotes of its own quiz, however the run goes on.

A save that throws resets the context. Every object the controllers refer to is then
forgotten, the user included, and no later `put` can report success.

* `Core.Tidy`, `Core.Own` — what holds between actions, and while an editor is open.
* `isolated_iff` — the runs in which no quiz sees the quotes of another.
* `leftover_quotes` — a run in which one does.
-/

namespace KnowTheQuote

open Machine

namespace Core

/-- The id of the current quiz, as its quotes carry it. -/
def currentQuizID (c : Core) : Option String :=
  (c.quizController.quiz.bind c.world.context.quizID).map UUID.uuidString

/-- The context has forgotten the user, so no `put` can report success. -/
def Forgotten (c : Core) : Prop :=
  ∀ u, c.quizController.user = some u → c.world.context.users.get? u = none

/-- What holds between actions: an empty dictionary has its cursor at 1, as long as
anything can still be put. -/
structure Tidy (c : Core) : Prop where
  logIn : c.logIn.isSome → c.quizController.user.isSome
  user : ∀ u, c.quizController.user = some u → u < c.world.context.users.size
  objects : ∀ k r, c.quizController.quotes.lookup k = some r → r < c.world.context.quotes.size
  start : c.quizController.quotes = ∅ → c.quizController.currentQuote = 1 ∨ c.Forgotten

/-- What holds while an editor is open: the quotes of the dictionary carry the id of the
current quiz, and the quiz has one as long as anything can still be put. -/
structure Own (c : Core) : Prop where
  quotes : ∀ k r, c.quizController.quotes.lookup k = some r →
    c.world.context.quizIDOf r = c.currentQuizID
  quiz : ∀ z, c.quizController.quiz = some z → z < c.world.context.quizzes.size
  alive : c.currentQuizID = none → c.Forgotten

variable {c : Core}

/-- The controllers of `c` after a reset of the context. -/
structure Reset (c c' : Core) : Prop where
  logIn : c'.logIn = c.logIn
  quizController : c'.quizController = c.quizController
  context : ∃ store, c'.world.context = c.world.context.reload store

namespace Reset

variable {c' : Core}

theorem forgotten (hr : c.Reset c') (h : c.Tidy) : c'.Forgotten := by
  obtain ⟨store, hcontext⟩ := hr.context
  intro u hu
  rw [hr.quizController] at hu
  rw [hcontext]
  exact Heap.get?_reload_of_lt _ _ (h.user u hu)

theorem tidy (hr : c.Reset c') (h : c.Tidy) : c'.Tidy := by
  obtain ⟨store, hcontext⟩ := hr.context
  refine ⟨?_, ?_, ?_, fun _ => .inr (hr.forgotten h)⟩
  · rw [hr.logIn, hr.quizController]
    exact h.logIn
  · intro u hu
    rw [hr.quizController] at hu
    rw [hcontext]
    exact (h.user u hu).trans_le (by simp [Context.reload])
  · intro k r hk
    rw [hr.quizController] at hk
    rw [hcontext]
    exact (h.objects k r hk).trans_le (by simp [Context.reload])

/-- Forgotten quotes and a forgotten quiz both read as having no id. -/
theorem own (hr : c.Reset c') (h : c.Tidy) (ho : c.Own) : c'.Own := by
  obtain ⟨store, hcontext⟩ := hr.context
  have hnone : c'.currentQuizID = none := by
    unfold currentQuizID
    rw [hr.quizController, hcontext]
    cases hz : c.quizController.quiz with
    | none => rfl
    | some z =>
      simp only [Option.bind_some, Context.quizID, Context.reload,
        Heap.get?_reload_of_lt _ _ (ho.quiz z hz), Option.bind_none, Option.map_none]
  refine ⟨?_, ?_, fun _ => hr.forgotten h⟩
  · intro k r hk
    rw [hr.quizController] at hk
    rw [hnone, hcontext]
    simp only [Context.quizIDOf, Context.reload,
      Heap.get?_reload_of_lt _ _ (h.objects k r hk), Option.bind_none]
  · intro z hz
    rw [hr.quizController] at hz
    rw [hcontext]
    exact (ho.quiz z hz).trans_le (by simp [Context.reload])

end Reset

-- ---------------------------------------------------------------------------
-- Start
-- ---------------------------------------------------------------------------

/-- The state after a successful Start whose save succeeds. -/
theorem tidy_own_withEmptyQuiz (h : c.Tidy) (hquotes : c.quizController.quotes = ∅)
    {title : String} {creator : ObjectID} {env : Env} {r : Request}
    (hput : c.emptyQuizPut title creator env = .ok r) :
    c.quizController.currentQuote = 1 ∧
      ((c.withEmptyQuiz title creator env).put (.ok r)
        (.createEmptyQuiz creator c.world.context.quizzes.size) true).Tidy ∧
      ((c.withEmptyQuiz title creator env).put (.ok r)
        (.createEmptyQuiz creator c.world.context.quizzes.size) true).Own := by
  obtain ⟨-, -, rep, creator', name, hrep, hcreator, hname, -⟩ :=
    QuizController.put_eq_ok.mp hput
  -- the `put` has read the creator's name, so the user is there
  have hlive : ¬ c.Forgotten := by
    intro hforgotten
    rw [quizController_withEmptyQuiz] at hcreator
    rw [context_withEmptyQuiz] at hname
    simp only [Context.username, hforgotten _ hcreator, Option.bind_none] at hname
    cases hname
  have hcursor := (h.start hquotes).resolve_right hlive
  -- and the quiz's id
  have hid : ∃ id, (c.emptyQuizObject title creator env).id = some id := by
    have hrepID := (Context.quizRepresentation_eq_some hrep).1
    rw [context_withEmptyQuiz] at hrepID
    exact ⟨rep.id, by simpa [Context.quizID] using hrepID⟩
  obtain ⟨id, hid⟩ := hid
  refine ⟨hcursor, ⟨?_, ?_, ?_, fun _ => .inl ?_⟩, ?_, ?_, ?_⟩
  · simpa using h.logIn
  · simpa [Context.addToQuizzesCreated] using h.user
  · simp [hquotes]
  · simpa using hcursor
  · simp [hquotes]
  · intro z hz
    simp only [quizController_put_createEmptyQuiz, quizController_withEmptyQuiz,
      Option.some.injEq] at hz
    subst hz
    simp [Context.addToQuizzesCreated]
  · intro hnone
    simp [currentQuizID, Context.quizID, Context.addToQuizzesCreated, Heap.get?_modify, hid]
      at hnone

/-- **Start**, with an empty dictionary and a `put` that reports no failure. -/
theorem Tidy.createEmptyQuiz (h : c.Tidy) (hquotes : c.quizController.quotes = ∅)
    (htitle : c.quizController.title.isSome) (huser : c.quizController.user.isSome) {env : Env}
    (hput : (c.createEmptyQuiz env).world.failures = c.world.failures) :
    (c.createEmptyQuiz env).quizController.quotes = ∅ ∧
      (c.createEmptyQuiz env).quizController.currentQuote = 1 ∧
      (c.createEmptyQuiz env).Tidy ∧ (c.createEmptyQuiz env).Own := by
  have hcases := c.createEmptyQuiz_cases env
  generalize c.createEmptyQuiz env = c' at hcases hput ⊢
  cases hcases with
  | skipped hnone => rcases hnone with hnone | hnone <;> simp [hnone] at htitle huser
  | refused => simp at hput
  | @added title creator r _ _ hok =>
    obtain ⟨hcursor, htidy, hown⟩ := tidy_own_withEmptyQuiz h hquotes hok
    refine ⟨by simpa using hquotes, by simpa using hcursor, ?_⟩
    cases env.saves with
    | true => exact ⟨htidy, hown⟩
    | false =>
      have hreset : Reset ((c.withEmptyQuiz title creator env).put (.ok r)
          (.createEmptyQuiz creator c.world.context.quizzes.size) true)
          ((c.withEmptyQuiz title creator env).put (.ok r)
            (.createEmptyQuiz creator c.world.context.quizzes.size) false) :=
        ⟨rfl, rfl, _, rfl⟩
      exact ⟨hreset.tidy htidy, hreset.own htidy hown⟩

-- ---------------------------------------------------------------------------
-- The editor
-- ---------------------------------------------------------------------------

/-- Only the cursor moves, and not with an empty dictionary. -/
theorem Tidy.move (h : c.Tidy) {n : Int}
    (hstay : c.quizController.quotes = ∅ → c.quizController.currentQuote = 1 → n = 1) :
    ({ c with quizController.currentQuote := n } : Core).Tidy :=
  ⟨h.logIn, h.user, h.objects, fun hquotes =>
    (h.start hquotes).imp (fun hcursor => hstay hquotes hcursor) id⟩

theorem Own.move (ho : c.Own) (n : Int) :
    ({ c with quizController.currentQuote := n } : Core).Own :=
  ⟨ho.quotes, ho.quiz, ho.alive⟩

theorem insert_ne_empty {d : Dict Int ObjectID} {k : Int} {r : ObjectID} :
    Finmap.insert k r d ≠ ∅ := by
  intro hempty
  have hlookup := Finmap.lookup_insert (a := k) (b := r) d
  rw [hempty, Finmap.lookup_empty] at hlookup
  cases hlookup

/-- A quote that is put and saved carries the id of the current quiz. -/
theorem tidy_own_withAddedQuote (h : c.Tidy) (ho : c.Own) (a : NewQuote) {quiz : ObjectID}
    {quizID : UUID} (hquiz : c.quizController.quiz = some quiz)
    (hid : c.world.context.quizID quiz = some quizID) (r : Request) :
    (c.withAddedQuote a quiz quizID r true).Tidy ∧
      (c.withAddedQuote a quiz quizID r true).Own := by
  have hcontroller : (c.withAddedQuote a quiz quizID r true).quizController.quiz =
      c.quizController.quiz ∧ (c.withAddedQuote a quiz quizID r true).quizController.user =
      c.quizController.user := ⟨by simp [withAddedQuote], by simp [withAddedQuote]⟩
  have hcurrent : (c.withAddedQuote a quiz quizID r true).currentQuizID = c.currentQuizID := by
    simp only [currentQuizID, hcontroller.1, hquiz, Option.bind_some, quizID_withAddedQuote]
  have hlookup : ∀ k r', (c.withAddedQuote a quiz quizID r true).quizController.quotes.lookup k =
      some r' → r' = c.world.context.quotes.size ∨ c.quizController.quotes.lookup k = some r' := by
    intro k r' hk
    rw [quotes_withAddedQuote] at hk
    by_cases heq : k = (c.quizController.quotes.count : Int) + 1
    · rw [heq, Finmap.lookup_insert] at hk
      exact .inl (Option.some.inj hk).symm
    · rw [Finmap.lookup_insert_of_ne _ heq] at hk
      exact .inr hk
  refine ⟨⟨?_, ?_, ?_, ?_⟩, ?_, ?_, ?_⟩
  · rw [hcontroller.2]
    exact h.logIn
  · rw [hcontroller.2, users_withAddedQuote]
    exact h.user
  · intro k r' hk
    rw [size_withAddedQuote]
    rcases hlookup k r' hk with rfl | hk
    · exact Nat.lt_succ_self _
    · exact (h.objects k r' hk).trans (Nat.lt_succ_self _)
  · intro hempty
    rw [quotes_withAddedQuote] at hempty
    exact absurd hempty insert_ne_empty
  · intro k r' hk
    rw [hcurrent, Context.quizIDOf, get?_withAddedQuote]
    rcases hlookup k r' hk with rfl | hk
    · simp [currentQuizID, hquiz, hid, NewQuote.object, Quote.fresh]
    · rw [if_neg (h.objects k r' hk).ne]
      exact ho.quotes k r' hk
  · rw [hcontroller.1, quizzes_withAddedQuote]
    exact ho.quiz
  · intro hnone
    rw [hcurrent] at hnone
    intro u hu
    rw [hcontroller.2] at hu
    rw [users_withAddedQuote]
    exact ho.alive hnone u hu

/-- **Saving a quote** in the editor, with a `put` that reports no failure: nothing
changes that could be put, or the dictionary is no longer empty. -/
theorem Own.createQuote (h : c.Tidy) (ho : c.Own) (a : NewQuote) {env : Env}
    (hput : (c.createQuoteOf a env).world.failures = c.world.failures) :
    (c.createQuoteOf a env).Tidy ∧ (c.createQuoteOf a env).Own ∧
      ((c.createQuoteOf a env).quizController.quotes = ∅ → (c.createQuoteOf a env).Forgotten) := by
  have hcases := c.createQuote_cases a env
  unfold createQuoteOf at hput ⊢
  generalize c.createQuote a.firstPart a.secondPart a.answer a.incorrectAnswers env = c'
    at hcases hput ⊢
  cases hcases with
  | skipped hskip =>
    refine ⟨h, ho, fun _ => ho.alive ?_⟩
    unfold currentQuizID
    cases hquiz : c.quizController.quiz with
    | none => rfl
    | some quiz => simp [hskip quiz hquiz]
  | full hquiz hid hcount =>
    have hne : c.quizController.quotes ≠ ∅ := by
      intro hempty
      rw [hempty, Dict.count_empty] at hcount
      omega
    refine ⟨⟨?_, ?_, ?_, ?_⟩, ⟨?_, ?_, ?_⟩, fun hempty => ?_⟩
    · simpa using h.logIn
    · simpa using h.user
    · simpa using h.objects
    · exact fun hempty => absurd (by simpa using hempty) hne
    · simpa [currentQuizID] using ho.quotes
    · simpa using ho.quiz
    · simpa [currentQuizID, Forgotten] using ho.alive
    · exact absurd (by simpa using hempty) hne
  | refused => simp at hput
  | @added quiz quizID r hquiz hid =>
    obtain ⟨htidy, hown⟩ := tidy_own_withAddedQuote h ho a hquiz hid r
    have hne : ∀ saves, (c.withAddedQuote a quiz quizID r saves).quizController.quotes ≠ ∅ := by
      intro saves
      rw [quotes_withAddedQuote]
      exact insert_ne_empty
    show (c.withAddedQuote a quiz quizID r env.saves).Tidy ∧
      (c.withAddedQuote a quiz quizID r env.saves).Own ∧
      ((c.withAddedQuote a quiz quizID r env.saves).quizController.quotes = ∅ → _)
    cases env.saves with
    | true => exact ⟨htidy, hown, fun hempty => absurd hempty (hne true)⟩
    | false =>
      have hreset : Reset (c.withAddedQuote a quiz quizID r true)
          (c.withAddedQuote a quiz quizID r false) := ⟨rfl, rfl, _, rfl⟩
      exact ⟨hreset.tidy htidy, hreset.own htidy hown, fun hempty => absurd hempty (hne false)⟩

/-- Once nothing can be put, the cursor may stand anywhere. -/
theorem Tidy.move_of_forgotten (h : c.Tidy)
    (hforgotten : c.quizController.quotes = ∅ → c.Forgotten) (n : Int) :
    ({ c with quizController.currentQuote := n } : Core).Tidy :=
  ⟨h.logIn, h.user, h.objects, fun hquotes => .inr (hforgotten hquotes)⟩

-- ---------------------------------------------------------------------------
-- The play
-- ---------------------------------------------------------------------------

theorem Tidy.setupStart (h : c.Tidy) (quiz : ObjectID) (fetch : FetchOutcome) :
    (c.step (.setupStart quiz fetch)).Tidy := by
  have hnum := c.quizController.setupStart_numbers c.world.context quiz fetch
  refine ⟨?_, ?_, ?_, fun _ => .inl (QuizController.currentQuote_setupStart ..)⟩
  · intro hsome
    exact (QuizController.user_setupStart ..).symm ▸ h.logIn hsome
  · intro u hu
    exact h.user u ((QuizController.user_setupStart ..).symm.trans hu)
  · intro k r hk
    exact lt_size_of_mem_foundQuotes ((hnum.value_iff r).mp ⟨k, hk⟩)

theorem Tidy.nextQuoteToDisplay (h : c.Tidy) : (c.step .nextQuoteToDisplay).Tidy := by
  simp only [Core.step, QuizController.nextQuoteToDisplay]
  split
  · next hlt =>
    refine h.move fun hempty hcursor => ?_
    rw [hempty, hcursor, Dict.count_empty] at hlt
    omega
  · exact h

end Core

-- ---------------------------------------------------------------------------
-- The app
-- ---------------------------------------------------------------------------

/-- The action opens an editor. -/
def App.opensEditor (s : App) (a : Action) : Bool :=
  match a, s.screen with
  | .start title _, .elsewhere => s.core.logIn.isSome && !title.isEmpty
  | _, _ => false

/-- No `put` of the action reports a failure. -/
def App.PutsSucceed (s : App) (a : Action) : Prop :=
  (s.step a).core.world.failures = s.core.world.failures

instance (s : App) (a : Action) : Decidable (s.PutsSucceed a) :=
  inferInstanceAs (Decidable (_ = _))

/-- If the action opens an editor, the dictionary is empty when it is taken. -/
def App.StartsEmpty (s : App) (a : Action) : Prop :=
  s.opensEditor a → s.core.quizController.quotes = ∅

instance (s : App) (a : Action) : Decidable (s.StartsEmpty a) :=
  inferInstanceAs (Decidable (_ → _))

/-- If the action opens an editor, it opens with an empty dictionary and the cursor at 1. -/
def App.OpensEmpty (s : App) (a : Action) : Prop :=
  s.opensEditor a → (s.step a).core.quizController.quotes = ∅ ∧
    (s.step a).core.quizController.currentQuote = 1

instance (s : App) (a : Action) : Decidable (s.OpensEmpty a) :=
  inferInstanceAs (Decidable (_ → _))

/-- While an editor is open, every quote of the dictionary carries the id of the current
quiz. -/
def App.Isolated (s : App) : Prop :=
  ∀ view, s.screen = .editor view → ∀ k r, s.core.quizController.quotes.lookup k = some r →
    s.core.world.context.quizIDOf r = s.core.currentQuizID

namespace App

/-- The invariant of the runs in which no quiz sees the quotes of another. -/
structure Sound (s : App) : Prop where
  tidy : s.core.Tidy
  own : ∀ view, s.screen = .editor view → s.core.Own

variable {s : App}

/-- Starting a quiz does not touch the dictionary. -/
theorem quotes_startButtonTapped (title : String) (env : Env) :
    (s.startButtonTapped title env).core.quizController.quotes =
      s.core.quizController.quotes := by
  rcases s.start_operations title env with h | h
  · rw [h]
  · rw [h]
    exact Core.quotes_createEmptyQuiz { s.core with quizController.title := some title } env

/-- **Start.** -/
theorem Sound.start (h : s.Sound) {title : String} {env : Env} (hlogIn : s.core.logIn.isSome)
    (htitle : title.isEmpty = false) (hquotes : s.core.quizController.quotes = ∅)
    (hput : (s.startButtonTapped title env).core.world.failures = s.core.world.failures) :
    (s.startButtonTapped title env).Sound ∧
      (s.startButtonTapped title env).core.quizController.quotes = ∅ ∧
      (s.startButtonTapped title env).core.quizController.currentQuote = 1 := by
  obtain ⟨user, huser⟩ := Option.isSome_iff_exists.mp hlogIn
  have htidy : ({ s.core with quizController.title := some title } : Core).Tidy :=
    ⟨h.tidy.logIn, h.tidy.user, h.tidy.objects, h.tidy.start⟩
  have heq : s.startButtonTapped title env =
      { core := ({ s.core with quizController.title := some title } : Core).createEmptyQuiz env
        screen := .editor (.viewDidLoad
          (({ s.core with quizController.title := some title } : Core).createEmptyQuiz
            env).quizController) } := by
    simp [startButtonTapped, huser, htitle]
  rw [heq] at hput ⊢
  obtain ⟨hempty, hcursor, htidy', hown⟩ :=
    htidy.createEmptyQuiz hquotes rfl (h.tidy.logIn hlogIn) hput
  exact ⟨⟨htidy', fun _ _ => hown⟩, hempty, hcursor⟩

/-- **One editor action.** -/
theorem tidy_own_edit {e : EditorState} (htidy : e.core.Tidy) (hown : e.core.Own)
    (a : EditorAction) (hput : (e.step a).core.world.failures = e.core.world.failures) :
    (e.step a).core.Tidy ∧ (e.step a).core.Own := by
  have hcases := e.step_cases a
  generalize e.step a = e' at hcases hput ⊢
  cases hcases with
  | viewOnly => exact ⟨htidy, hown⟩
  | prev view _ hcan =>
    simp only [Core.step, QuizController.moveToPrevQuote, hcan, if_true]
    refine ⟨htidy.move fun hempty _ => ?_, hown.move _⟩
    simp [QuizController.canMoveToPrev, hempty, quoteCountMin] at hcan
  | next view _ hcan hsaved =>
    simp only [Core.step, QuizController.moveToNextQuote, hcan, if_true]
    refine ⟨htidy.move fun hempty hcursor => ?_, hown.move _⟩
    simp [hempty, hcursor] at hsaved
  | saved view env order =>
    obtain ⟨htidy', hown', hforgotten⟩ :=
      hown.createQuote htidy (e.view.collected order) hput
    simp only [Core.step, QuizController.moveToNextQuote]
    split
    · exact ⟨htidy'.move_of_forgotten hforgotten _, hown'.move _⟩
    · exact ⟨htidy', hown'⟩
  | finished view env order =>
    obtain ⟨htidy', hown', -⟩ :=
      hown.createQuote htidy (e.view.collected order) hput
    exact ⟨htidy', hown'⟩

/-- **One action** whose `put`s report no failure and which opens an editor only with an
empty dictionary. -/
theorem Sound.step (h : s.Sound) {a : Action} (hput : s.PutsSucceed a)
    (hstart : s.StartsEmpty a) : (s.step a).Sound ∧ s.OpensEmpty a := by
  unfold PutsSucceed at hput
  unfold OpensEmpty
  cases hopens : s.opensEditor a with
  | true =>
    -- only Start opens an editor
    unfold opensEditor at hopens
    split at hopens
    · next title env hscreen =>
      obtain ⟨hlogIn, htitle⟩ := Bool.and_eq_true_iff.mp hopens
      have hquotes := hstart (by simp [opensEditor, hscreen, hlogIn, htitle])
      have heq : s.step (.start title env) = s.startButtonTapped title env := by
        simp [App.step, hscreen]
      rw [heq] at hput ⊢
      obtain ⟨hsound, hempty, hcursor⟩ := h.start hlogIn (by simpa using htitle) hquotes hput
      exact ⟨hsound, fun _ => ⟨hempty, hcursor⟩⟩
    · cases hopens
  | false =>
    refine ⟨?_, nofun⟩
    unfold App.step at hput ⊢
    split
    · next title env hscreen =>
      -- Start without a login or a title does nothing
      have hsame : s.startButtonTapped title env = s := by
        simp only [opensEditor, hscreen] at hopens
        unfold startButtonTapped
        cases hlogIn : s.core.logIn with
        | none => rfl
        | some user =>
          have htitle : title.isEmpty = true := by simpa [hlogIn] using hopens
          simp [htitle]
      rw [hsame]
      exact h
    · next e view hscreen =>
      simp only [hscreen] at hput
      obtain ⟨htidy, hown⟩ := tidy_own_edit (e := ⟨view, s.core⟩) h.tidy (h.own view hscreen) e hput
      exact ⟨htidy, fun _ _ => hown⟩
    · next quiz fetch shuffle _ => exact ⟨h.tidy.setupStart quiz fetch, nofun⟩
    · next t view _ =>
      have htap := App.tap_operations ⟨view, s.core⟩ t
      refine ⟨?_, nofun⟩
      show (PlayState.step ⟨view, s.core⟩ t).core.Tidy
      rw [htap]
      exact h.tidy.nextQuoteToDisplay
    · exact ⟨h.tidy, nofun⟩
    · exact h

theorem Sound.isolated (h : s.Sound) : s.Isolated :=
  fun view hscreen k r hk => (h.own view hscreen).quotes k r hk

end App

/-- The user of the controllers is an object of the context. -/
theorem user_lt_size_getUser (w : World) (r : Response) (env : LogInEnv) (u : ObjectID)
    (hu : ((Core.launch w).getUser r env).userController.user = some u) :
    u < ((Core.launch w).getUser r env).world.context.users.size := by
  have hsize : ∀ (w : World) (saves : Bool),
      w.context.users.size ≤ (w.save saves).context.users.size := by
    intro w saves
    cases saves with
    | true => exact le_refl _
    | false => simp [World.context_save_false, Context.reload]
  refine Core.getUser_induction
    (P := fun c => ∀ u, c.userController.user = some u → u < c.world.context.users.size)
    ?_ (fun _ call _ h u hu => (h u hu).trans_le (hsize _ _)) (fun _ _ _ h => h) (fun _ _ h => h)
    (fun _ _ h => h) (fun _ _ h => h) ?_ ?_ ?_ r u hu
  · intro c username password now _ u hu
    cases hu
    rw [Core.context_withNewUser, Heap.size_alloc]
    exact Nat.lt_succ_self _
  · intro c user name hmem _ u hu
    cases hu
    obtain ⟨_, hlive, -⟩ := mem_fetchUsers.mp hmem
    exact Heap.lt_size_of_get? hlive
  · intro c h u hu
    rw [(Core.syncUser_user c).1] at hu
    rw [Core.world_syncUser]
    exact h u hu
  · intro u hu
    cases hu

/-- What a login leaves behind in a controller that was just made. -/
theorem sound_logIn (w : World) (r : Response) (env : LogInEnv) :
    ({ core := (Core.launch w).getUser r env } : App).Sound := by
  have hsame := (Core.launch w).getUser_sameQuotes r env
  have hsynced := Core.synced_getUser (c := Core.launch w) ⟨rfl, rfl⟩ r env
  have hquotes : ((Core.launch w).getUser r env).quizController.quotes = ∅ := hsame.quotes
  refine ⟨⟨?_, ?_, ?_, fun _ => .inl hsame.currentQuote⟩, nofun⟩
  · rw [hsynced.logIn, hsynced.quizController]
    exact id
  · intro u hu
    exact user_lt_size_getUser w r env u (hsynced.quizController.symm.trans hu)
  · rw [hquotes]
    simp

/-- **Isolation.** Take a launch, any login, and any actions of the user whose `put`s all
report success. If every editor is opened while the dictionary is empty, then it opens
with an empty dictionary and the cursor at 1, and as long as it is open every quote of
the dictionary carries the id of the quiz being created; and only then. -/
theorem isolated_iff (w : World) (r : Response) (env : LogInEnv) {as : List Action}
    (hPuts : Along App.step App.PutsSucceed { core := (Core.launch w).getUser r env } as) :
    let start : App := { core := (Core.launch w).getUser r env }
    Along App.step App.StartsEmpty start as ↔
      Along App.step App.OpensEmpty start as ∧
        ∀ pre, pre <+: as → (run App.step start pre).Isolated := by
  intro start
  constructor
  · intro hStarts
    have hBoth := along_and.mpr ⟨hPuts, hStarts⟩
    have hsound : start.Sound := sound_logIn w r env
    refine ⟨?_, fun pre hpre => ?_⟩
    · exact along_of_invariant (fun s a (h : s.Sound) hcond => (h.step hcond.1 hcond.2).1)
        (fun s a h hcond => (h.step hcond.1 hcond.2).2) hsound hBoth
    · exact (invariant_run (fun s a (h : s.Sound) hcond => (h.step hcond.1 hcond.2).1) hsound
        (along_initial hpre hBoth)).isolated
  · rintro ⟨hOpens, -⟩
    refine along_mono ?_ hOpens
    intro s a hopens hopen
    have hempty := (hopens hopen).1
    unfold App.opensEditor at hopen
    split at hopen
    · next title env hscreen =>
      have heq : s.step (.start title env) = s.startButtonTapped title env := by
        simp [App.step, hscreen]
      rwa [heq, App.quotes_startButtonTapped] at hempty
    · cases hopen

/-- The first quiz of a launch is isolated. -/
theorem isolated_firstQuiz :
    Along App.step App.PutsSucceed .firstLaunch Action.firstQuiz ∧
      Along App.step App.OpensEmpty .firstLaunch Action.firstQuiz ∧
      ∀ pre, pre <+: Action.firstQuiz → (run App.step .firstLaunch pre).Isolated :=
  ⟨by decide, (isolated_iff { uuids := .numbered }
    { data := none, statusCode := none, error := true } {} (by decide)).mp (by decide)⟩

/-- The quotes of a first quiz are still in the dictionary when the editor opens for a
second one, although every `put` has reported success. -/
theorem leftover_quotes :
    ¬ ∀ (w : World) (r : Response) (env : LogInEnv) (as : List Action),
      let start : App := { core := (Core.launch w).getUser r env }
      Along App.step App.PutsSucceed start as →
        Along App.step App.OpensEmpty start as ∧
          ∀ pre, pre <+: as → (run App.step start pre).Isolated := by
  intro h
  have hOpens := (h { uuids := .numbered } { data := none, statusCode := none, error := true } {}
    (Action.firstQuiz ++ [.start "Books" {}]) (by decide)).1
  revert hOpens
  decide

end KnowTheQuote
