import KnowTheQuote.Model.Navigation
import KnowTheQuote.Properties.AppSteps
import KnowTheQuote.Properties.UserAgreement

/-!
# Know the Quote — the app behind the screens

The navigation stack is a closer look at the app: it says how an editor or a play is
reached, which the app does not. Where the two overlap they agree.

* `Path` — the stacks the segues can build; `path_step` — every action keeps to them.
* `Sound` — what holds in every run: the path, and whose copies of the user it carries.
* `navigation_is_app` — a run through the screens is a run of the app.
* `home_fixes_user` — which user the screens work for.
* `editor_reachable_iff` — when an editor is in reach.
-/

namespace KnowTheQuote

open Machine

-- ---------------------------------------------------------------------------
-- Paths
-- ---------------------------------------------------------------------------

/-- The stacks the segues can build. All screens hold one copy of the user; the editor is
only opened for a user; from the quiz on, all screens are about one quiz. -/
inductive Path (user : Option ObjectID) : List Shown → Prop
  | root : Path user []
  | home : Path user [⟨user, .home⟩]
  | newQuiz : Path user [⟨user, .newQuiz⟩, ⟨user, .home⟩]
  | newQuote {v : NewQuoteViewController} (huser : user.isSome) :
      Path user [⟨user, .newQuote v⟩, ⟨user, .newQuiz⟩, ⟨user, .home⟩]
  | quizzes {l : QuizzesTableViewController} : Path user [⟨user, .quizzes l⟩, ⟨user, .home⟩]
  | quiz {l : QuizzesTableViewController} {z : QuizViewController} :
      Path user [⟨user, .quiz z⟩, ⟨user, .quizzes l⟩, ⟨user, .home⟩]
  | quote {l : QuizzesTableViewController} {z : QuizViewController} {v : QuoteViewController}
      (hquiz : v.quiz = z.quiz) :
      Path user [⟨user, .quote v⟩, ⟨user, .quiz z⟩, ⟨user, .quizzes l⟩, ⟨user, .home⟩]
  | results {l : QuizzesTableViewController} {z : QuizViewController} {v : QuoteViewController}
      {r : ResultsScreen} (hquiz : v.quiz = z.quiz) (hresults : r.quiz = z.quiz) :
      Path user [⟨user, .results r⟩, ⟨user, .quote v⟩, ⟨user, .quiz z⟩, ⟨user, .quizzes l⟩,
        ⟨user, .home⟩]

variable {user : Option ObjectID} {stack : List Shown}

/-- The back button leads to a stack of the same kind. -/
theorem Path.tail (h : Path user stack) : Path user stack.tail := by
  cases h with
  | root => exact .root
  | home => exact .root
  | newQuiz => exact .home
  | newQuote => exact .newQuiz
  | quizzes => exact .home
  | quiz => exact .quizzes
  | quote => exact .quiz
  | results hquiz => exact .quote hquiz

theorem quiz_viewDidLoad (core : Core) (quiz : ObjectID) (fetch : FetchOutcome)
    (shuffle : Reordering String) :
    (PlayState.viewDidLoad core quiz fetch shuffle).view.quiz = quiz := by
  show ((_ : QuoteViewController).displayQuote _ _).quiz = _
  rw [QuoteViewController.displayQuote_eq]
  rfl

/-- A play stays with its quiz. -/
theorem quiz_playStep (p : PlayState) (t : Tap) : (p.step t).view.quiz = p.view.quiz := by
  have hscored : (p.scored t).quiz = p.view.quiz := by
    rw [PlayState.scored, QuoteViewController.updateScore_eq]
  rcases hnext : p.core.quizController.nextQuoteToDisplay with ⟨q, _ | r⟩
  · rw [PlayState.step_of_end hnext]
    exact hscored
  · rw [PlayState.step_of_next hnext, QuoteViewController.displayQuote_eq]
    exact hscored

namespace Navigation

variable {s : Navigation} (t : TitleOrder)

/-- Above the root, every action keeps to the path. -/
theorem path_step (h : Path user s.stack) (hne : s.stack ≠ []) (a : NavigationAction) :
    Path user (s.step t a).stack := by
  cases a with
  | logInEnds r env =>
    show Path user (s.logInEnds r env).stack
    unfold logInEnds
    split <;> exact h
  | taskFailed index => exact h
  | showHome =>
    show Path user s.showHome.stack
    unfold showHome
    split
    · next hroot => exact absurd hroot hne
    · exact h
  | showCreateQuiz =>
    show Path user s.showCreateQuiz.stack
    unfold showCreateQuiz
    split
    · next hstack =>
      rw [push, hstack]
      rw [hstack] at h
      cases h
      exact .newQuiz
    · exact h
  | showQuizzes fetch =>
    show Path user (s.showQuizzes t fetch).stack
    unfold showQuizzes
    split
    · next hstack =>
      rw [push, hstack]
      rw [hstack] at h
      cases h
      exact .quizzes
    · exact h
  | startButtonTapped title env =>
    show Path user (s.startButtonTapped title env).stack
    unfold startButtonTapped
    split
    · next hstack =>
      split
      · exact h
      · dsimp only [push]
        rw [hstack] at h ⊢
        cases h
        exact .newQuote rfl
    · exact h
  | edit a =>
    show Path user (s.edit a).stack
    unfold edit
    split
    · next hstack =>
      dsimp only
      split
      · exact .root
      · rw [hstack] at h
        cases h with
        | newQuote huser => exact .newQuote huser
    · exact h
  | displayRow row fetch =>
    show Path user (s.displayRow t row fetch).stack
    unfold displayRow
    split
    · next hstack =>
      split
      · split
        · exact h
        · rw [hstack] at h
          cases h
          exact .quizzes
      · exact h
    · exact h
  | selectRow row fetch =>
    show Path user (s.selectRow t row fetch).stack
    unfold selectRow
    split
    · next hstack =>
      split
      · split
        · exact h
        · rw [push, hstack]
          rw [hstack] at h
          cases h
          exact .quiz
      · exact h
    · exact h
  | startQuiz fetch shuffle =>
    show Path user (s.startQuiz fetch shuffle).stack
    unfold startQuiz
    split
    · next hstack =>
      dsimp only [push]
      rw [hstack] at h ⊢
      cases h
      exact .quote (quiz_viewDidLoad ..)
    · exact h
  | tap t' =>
    show Path user (s.tap t').stack
    unfold tap
    split
    · next hstack =>
      rw [hstack] at h
      cases h with
      | quote hquiz =>
        have hquiz' := (quiz_playStep ⟨_, s.core⟩ t').trans hquiz
        dsimp only [push]
        split
        · exact .results hquiz' hquiz'
        · exact .quote hquiz'
    · exact h
  | doneButtonTapped =>
    show Path user s.doneButtonTapped.stack
    unfold doneButtonTapped
    split
    · exact .root
    · exact h
  | back => exact h.tail

/-- From the root, only Home can be shown. -/
theorem path_step_root (h : s.stack = []) (a : NavigationAction) :
    Path s.core.logIn (s.step t a).stack := by
  cases a with
  | logInEnds r env =>
    show Path s.core.logIn (s.logInEnds r env).stack
    unfold logInEnds
    split <;> exact h.symm ▸ .root
  | showHome =>
    simp only [step, showHome, push, h]
    exact .home
  | taskFailed | showCreateQuiz | showQuizzes | startButtonTapped | edit | displayRow | selectRow
  | startQuiz | tap | doneButtonTapped | back =>
    simp [step, taskFailed, showCreateQuiz, showQuizzes, startButtonTapped, edit, displayRow,
      selectRow, startQuiz, tap, doneButtonTapped, back, h, Path.root]

-- ---------------------------------------------------------------------------
-- The app behind the screens
-- ---------------------------------------------------------------------------

/-- The screen on top, as far as the app knows it; results lie on their play. -/
def screen : List Shown → Screen
  | ⟨_, .newQuote view⟩ :: _ => .editor view
  | ⟨_, .quote view⟩ :: _ => .play view
  | ⟨_, .results _⟩ :: ⟨_, .quote view⟩ :: _ => .play view
  | _ => .elsewhere

/-- The navigation seen without its screens. -/
def app (s : Navigation) : App := { core := s.core, screen := screen s.stack }

/-- What an action is to the app: showing a screen that is neither an editor nor a play, and
a Start without a user, are nothing to it. -/
def trace (s : Navigation) : NavigationAction → List Event
  | .logInEnds r env => if s.loggingIn then [.operation (.getUser r env)] else []
  | .taskFailed index => [.operation (.taskFailed index)]
  | .startButtonTapped title env =>
    match s.stack with
    | ⟨some _, .newQuiz⟩ :: _ => [.action (.start title env)]
    | _ => []
  | .edit a => [.action (.edit a)]
  | .startQuiz fetch shuffle =>
    match s.stack with
    | ⟨_, .quiz view⟩ :: _ => [.action (.openPlay view.quiz fetch shuffle)]
    | _ => []
  | .tap t =>
    match s.stack with
    | ⟨_, .quote _⟩ :: _ => [.action (.tap t)]
    | _ => []
  | .doneButtonTapped =>
    match s.stack with
    | ⟨_, .results _⟩ :: _ => [.action .leave]
    | _ => []
  | .back =>
    match s.stack with
    | ⟨_, .results _⟩ :: _ => []
    | _ => [.action .leave]
  | .showHome | .showCreateQuiz | .showQuizzes _ | .displayRow _ _ | .selectRow _ _ => []

/-- What an event is to the app; after a crash there is only the next launch. -/
def eventTrace (s : Navigation) : NavigationEvent → List Event
  | .action a => if s.terminated then [] else s.trace a
  | .launch => [.launch]

/-- A lookup of a row changes the list, or ends the app. -/
theorem app_displayRow (row : Nat) (fetch : FetchOutcome) :
    (s.displayRow t row fetch).app = s.app := by
  unfold displayRow
  split
  · next hstack =>
    split
    · split
      · rfl
      · unfold app
        rw [hstack]
        rfl
    · rfl
  · rfl

theorem app_selectRow (row : Nat) (fetch : FetchOutcome) :
    (s.selectRow t row fetch).app = s.app := by
  unfold selectRow
  split
  · next hstack =>
    split
    · split
      · rfl
      · unfold app push
        rw [hstack]
        rfl
    · rfl
  · rfl

/-- Start opens an editor for a user, and `LogInViewController.user` is one too. -/
theorem app_startButtonTapped (h : Path user s.stack)
    (huser : user.isSome → s.core.logIn.isSome) (title : String) (env : Env) :
    (s.startButtonTapped title env).app =
      run App.handle s.app (s.trace (.startButtonTapped title env)) := by
  obtain ⟨core, loggingIn, stack, terminated⟩ := s
  cases user with
  | none => cases h <;> rfl
  | some user =>
    cases h with
    | newQuiz =>
      obtain ⟨user', hlogIn⟩ : ∃ user', core.logIn = some user' :=
        Option.isSome_iff_exists.mp (huser rfl)
      simp only [startButtonTapped, app, screen, trace, run_cons, run_nil, App.handle, App.step,
        App.startButtonTapped, hlogIn]
      split <;> rfl
    | root | home | newQuote | quizzes | quiz | quote | results => rfl

theorem app_edit (h : Path user s.stack) (a : EditorAction) :
    (s.edit a).app = s.app.step (.edit a) := by
  obtain ⟨core, loggingIn, stack, terminated⟩ := s
  cases h with
  | @newQuote v =>
    cases hpopped : (EditorState.step ⟨v, core⟩ a).view.popped <;>
      simp [edit, app, App.step, screen, hpopped]
  | root | home | newQuiz | quizzes | quiz | quote | results => rfl

theorem app_tap (h : Path user s.stack) (t : Tap) :
    (s.tap t).app = run App.handle s.app (s.trace (.tap t)) := by
  obtain ⟨core, loggingIn, stack, terminated⟩ := s
  cases h with
  | quote =>
    unfold tap
    dsimp only
    split <;> rfl
  | root | home | newQuiz | newQuote | quizzes | quiz | results => rfl

/-- An action is its trace: where the user of the screens is not `nil`, neither is
`LogInViewController.user`. -/
theorem app_step (h : Path user s.stack) (huser : user.isSome → s.core.logIn.isSome)
    (a : NavigationAction) : (s.step t a).app = run App.handle s.app (s.trace a) := by
  cases a with
  | logInEnds r env =>
    simp only [step, logInEnds, trace]
    split <;> rfl
  | taskFailed index => rfl
  | startButtonTapped title env => exact app_startButtonTapped h huser title env
  | edit a => exact app_edit h a
  | displayRow row fetch => exact app_displayRow t row fetch
  | selectRow row fetch => exact app_selectRow t row fetch
  | tap t' => exact app_tap h t'
  | showHome | showCreateQuiz | showQuizzes | startQuiz | doneButtonTapped | back =>
    obtain ⟨core, loggingIn, stack, terminated⟩ := s
    cases h <;> rfl

-- ---------------------------------------------------------------------------
-- The users
-- ---------------------------------------------------------------------------

/-- What a trace can hold, but for a login that ends. -/
theorem trace_cases {a : NavigationAction} (ha : ∀ r env, a ≠ .logInEnds r env) :
    s.trace a = [] ∨ (∃ index, s.trace a = [.operation (.taskFailed index)]) ∨
      ∃ act, s.trace a = [.action act] := by
  cases a with
  | logInEnds r env => exact absurd rfl (ha r env)
  | taskFailed index => exact .inr (.inl ⟨index, rfl⟩)
  | edit a => exact .inr (.inr ⟨_, rfl⟩)
  | startButtonTapped | startQuiz | tap | doneButtonTapped | back =>
    unfold trace
    dsimp only
    split <;> simp
  | showHome | showCreateQuiz | showQuizzes | displayRow | selectRow => exact .inl rfl

end Navigation

namespace Core

theorem SameUsers.trans {c c' c'' : Core} (h : c.SameUsers c') (h' : c'.SameUsers c'') :
    c.SameUsers c'' where
  logIn := h'.logIn.trans h.logIn
  user := h'.user.trans h.user
  userController := h'.userController.trans h.userController
  quizController := h'.quizController.trans h.quizController

theorem sameUsers_moved (c : Core) (cursor : Int) :
    c.SameUsers { c with quizController.currentQuote := cursor } := ⟨rfl, rfl, rfl, rfl⟩

end Core

/-- The editor changes no user. -/
theorem EditorState.step_sameUsers (e : EditorState) (a : EditorAction) :
    e.core.SameUsers (e.step a).core := by
  have hcases := e.step_cases a
  generalize e.step a = e' at hcases ⊢
  have hNext : ∀ c : Core, c.SameUsers (c.step .moveToNextQuote) := by
    intro c
    obtain ⟨cursor, hstep⟩ := c.step_moveToNextQuote
    exact hstep ▸ c.sameUsers_moved cursor
  cases hcases with
  | viewOnly => exact ⟨rfl, rfl, rfl, rfl⟩
  | prev =>
    obtain ⟨cursor, hstep⟩ := e.core.step_moveToPrevQuote
    exact hstep ▸ e.core.sameUsers_moved cursor
  | next => exact hNext _
  | saved => exact (e.core.createQuote_sameUsers _ _).trans (hNext _)
  | finished => exact e.core.createQuote_sameUsers _ _

/-- No action changes a copy of the user: only a login does. -/
theorem App.step_sameUsers (s : App) (a : Action) : s.core.SameUsers (s.step a).core := by
  unfold App.step
  split
  · next title env _ =>
    rcases s.start_operations title env with h | h
    · rw [h]
      exact ⟨rfl, rfl, rfl, rfl⟩
    · rw [h]
      have htitle : s.core.SameUsers { s.core with quizController.title := some title } :=
        ⟨rfl, rfl, rfl, rfl⟩
      exact htitle.trans (Core.createEmptyQuiz_sameUsers _ env)
  · next e view _ =>
    exact EditorState.step_sameUsers ⟨view, s.core⟩ e
  · next quiz fetch shuffle _ =>
    exact ⟨rfl, rfl, rfl, s.core.quizController.user_setupStart _ quiz fetch⟩
  · next t view _ =>
    obtain ⟨cursor, hstep⟩ := s.core.step_nextQuoteToDisplay
    show s.core.SameUsers (PlayState.step ⟨view, s.core⟩ t).core
    rw [tap_operations, hstep]
    exact s.core.sameUsers_moved cursor
  · exact ⟨rfl, rfl, rfl, rfl⟩
  · exact ⟨rfl, rfl, rfl, rfl⟩

namespace Navigation

variable {s : Navigation} (t : TitleOrder)

/-- On the screens, too. -/
theorem step_sameUsers (h : Path user s.stack) (huser : user.isSome → s.core.logIn.isSome)
    {a : NavigationAction} (ha : ∀ r env, a ≠ .logInEnds r env) :
    s.core.SameUsers (s.step t a).core := by
  have happ : (s.step t a).core = (run App.handle s.app (s.trace a)).core :=
    congrArg App.core (app_step t h huser a)
  rw [happ]
  rcases trace_cases ha with htrace | ⟨index, htrace⟩ | ⟨act, htrace⟩
  · rw [htrace]
    exact ⟨rfl, rfl, rfl, rfl⟩
  · rw [htrace]
    show s.core.SameUsers (s.core.step (.taskFailed index))
    rw [Core.step_taskFailed]
    exact ⟨rfl, rfl, rfl, rfl⟩
  · rw [htrace]
    exact s.app.step_sameUsers act

variable {t} in
/-- Only its end ends a login. -/
theorem loggingIn_step {a : NavigationAction} (ha : ∀ r env, a ≠ .logInEnds r env) :
    (s.step t a).loggingIn = s.loggingIn := by
  cases a with
  | logInEnds r env => exact absurd rfl (ha r env)
  | taskFailed | back => rfl
  | showHome | showCreateQuiz | showQuizzes | startButtonTapped | edit | displayRow | selectRow
  | startQuiz | tap | doneButtonTapped =>
    simp only [step, showHome, showCreateQuiz, showQuizzes, startButtonTapped, edit, displayRow,
      selectRow, startQuiz, tap, doneButtonTapped, push]
    repeat' split
    all_goals rfl

/-- What holds in every run from a launch: the controllers agree on the user, who is not
known before the login ends, and the screens hold that user or none. -/
structure Sound (s : Navigation) : Prop where
  agree : s.core.Agree
  waiting : s.loggingIn = true → s.core.logIn = none
  path : ∃ user, Path user s.stack ∧ (user.isSome → user = s.core.logIn)

theorem sound_launch (w : World) : (launch w).Sound where
  agree := Core.agree_launch w
  waiting _ := rfl
  path := ⟨none, .root, fun h => absurd h Bool.false_ne_true⟩

variable {t}

/-- One action. While the login is on its way the screens hold no user, so its end leaves
them in order. -/
theorem Sound.step (h : s.Sound) (a : NavigationAction) : (s.step t a).Sound := by
  obtain ⟨user, hpath, huser⟩ := h.path
  have hpath' : ∃ user', Path user' (s.step t a).stack ∧
      (user'.isSome → user' = s.core.logIn) := by
    by_cases hroot : s.stack = []
    · exact ⟨_, path_step_root t hroot a, fun _ => rfl⟩
    · exact ⟨user, path_step t hpath hroot a, huser⟩
  by_cases ha : ∃ r env, a = .logInEnds r env
  · obtain ⟨r, env, rfl⟩ := ha
    have hstep : s.step t (.logInEnds r env) = s.logInEnds r env := rfl
    rw [hstep] at hpath' ⊢
    unfold logInEnds at hpath' ⊢
    split
    · next hwaiting =>
      rw [if_pos hwaiting] at hpath'
      obtain ⟨user', hpath', huser'⟩ := hpath'
      have hagree : (s.core.step (.getUser r env)).Agree := h.agree.step trivial
      refine ⟨hagree, fun hfalse => absurd hfalse Bool.false_ne_true, user', hpath', ?_⟩
      intro hsome
      rw [huser' hsome, h.waiting hwaiting] at hsome
      cases hsome
    · exact h
  · have hsame := step_sameUsers t hpath (fun hsome => huser hsome ▸ hsome)
      (a := a) fun r env heq => ha ⟨r, env, heq⟩
    refine ⟨h.agree.of_same hsame, ?_, ?_⟩
    · rw [loggingIn_step fun r env heq => ha ⟨r, env, heq⟩, hsame.logIn]
      exact h.waiting
    · obtain ⟨user', hpath', huser'⟩ := hpath'
      exact ⟨user', hpath', fun hsome => (huser' hsome).trans hsame.logIn.symm⟩

/-- **Any event.** -/
theorem Sound.handle (h : s.Sound) (e : NavigationEvent) : (s.handle t e).Sound := by
  cases e with
  | action a =>
    show (if s.terminated then s else s.step t a).Sound
    split
    · exact h
    · exact h.step a
  | launch => exact sound_launch _

/-- The app is an abstraction of its screens. -/
theorem simulation (t : TitleOrder) :
    Simulation (Navigation.handle t) App.handle app eventTrace Sound where
  keeps _ e h := h.handle e
  agrees s e h := by
    obtain ⟨user, hpath, huser⟩ := h.path
    cases e with
    | action a =>
      show (if s.terminated then s else s.step t a).app =
        run App.handle s.app (if s.terminated then [] else s.trace a)
      split
      · rfl
      · exact app_step t hpath (fun hsome => huser hsome ▸ hsome) a
    | launch => rfl

end Navigation

/-- Every save and encoding of the action succeeds. -/
def NavigationAction.Succeeds : NavigationAction → Prop
  | .logInEnds r env => (Operation.getUser r env).Succeeds
  | .startButtonTapped _ env => env.Succeeds
  | .edit a => a.Succeeds
  | .taskFailed _ | .showHome | .showCreateQuiz | .showQuizzes _ | .displayRow _ _
  | .selectRow _ _ | .startQuiz _ _ | .tap _ | .doneButtonTapped | .back => True

instance : DecidablePred NavigationAction.Succeeds
  | .logInEnds r env => inferInstanceAs (Decidable (Operation.getUser r env).Succeeds)
  | .startButtonTapped _ env => inferInstanceAs (Decidable env.Succeeds)
  | .edit a => inferInstanceAs (Decidable a.Succeeds)
  | .taskFailed _ | .showHome | .showCreateQuiz | .showQuizzes _ | .displayRow _ _
  | .selectRow _ _ | .startQuiz _ _ | .tap _ | .doneButtonTapped | .back => .isTrue trivial

def NavigationEvent.Succeeds : NavigationEvent → Prop
  | .action a => a.Succeeds
  | .launch => True

instance : DecidablePred NavigationEvent.Succeeds
  | .action a => inferInstanceAs (Decidable a.Succeeds)
  | .launch => .isTrue trivial

/-- A successful action of the screens is a successful one of the app. -/
theorem Navigation.succeeds_trace (s : Navigation) {a : NavigationAction} (ha : a.Succeeds) :
    ∀ b ∈ s.trace a, b.Succeeds := by
  cases a with
  | taskFailed | showHome | showCreateQuiz | showQuizzes | displayRow | selectRow =>
    simp [trace, Event.Succeeds, Operation.Succeeds]
  | edit a =>
    intro b hb
    rw [List.mem_singleton.mp hb]
    exact ha
  | logInEnds | startButtonTapped =>
    unfold trace
    dsimp only
    split
    · intro b hb
      rw [List.mem_singleton.mp hb]
      exact ha
    · exact fun _ hb => absurd hb List.not_mem_nil
  | startQuiz | tap | doneButtonTapped | back =>
    unfold trace
    dsimp only
    split <;> simp [Event.Succeeds, Action.Succeeds]

theorem Navigation.succeeds_eventTrace (s : Navigation) {e : NavigationEvent} (he : e.Succeeds) :
    ∀ b ∈ s.eventTrace e, b.Succeeds := by
  cases e with
  | action a =>
    unfold eventTrace
    dsimp only
    split
    · exact fun _ hb => absurd hb List.not_mem_nil
    · exact s.succeeds_trace he
  | launch => simp [eventTrace, Event.Succeeds]

/-- **The app behind the screens.** Every run through the screens, from any launch, is a run
of the app, that of its traces: it leaves the same controllers, store and requests behind,
and the editor or play on top is the app's. Where the one succeeds, so does the other. -/
theorem navigation_is_app (t : TitleOrder) (w : World) (es : List NavigationEvent) :
    let events := traces (Navigation.handle t) Navigation.eventTrace (.launch w) es
    (run (Navigation.handle t) (.launch w) es).app =
        run App.handle { core := .launch w } events ∧
      ((∀ e ∈ es, e.Succeeds) → ∀ b ∈ events, b.Succeeds) := by
  refine ⟨?_, fun hes => ?_⟩
  · exact (Navigation.simulation t).run (Navigation.sound_launch w) es
  · exact forall_traces (fun s _ he => s.succeeds_eventTrace he) hes _

-- ---------------------------------------------------------------------------
-- Whose screens
-- ---------------------------------------------------------------------------

namespace Navigation

variable {t : TitleOrder} {s : Navigation}

/-- Every run keeps it. -/
theorem sound_run (w : World) (es : List NavigationEvent) :
    (run (Navigation.handle t) (.launch w) es).Sound :=
  invariant_run_all (fun _ e h => h.handle e) (sound_launch w) es

/-- Start opens the editor for a user and a title, and for nothing less. -/
theorem opens_iff {rest : List Shown} (hstack : s.stack = ⟨user, .newQuiz⟩ :: rest)
    (title : String) (env : Env) :
    (∃ view, (s.startButtonTapped title env).app.screen = .editor view) ↔
      user.isSome ∧ title.isEmpty = false := by
  have hscreen : s.app.screen = .elsewhere := by
    unfold app
    rw [hstack]
    rfl
  cases user with
  | none =>
    have hstart : s.startButtonTapped title env = s := by
      unfold startButtonTapped
      rw [hstack]
    simp [hstart, hscreen]
  | some user =>
    cases htitle : title.isEmpty with
    | true =>
      have hstart : s.startButtonTapped title env = s := by
        unfold startButtonTapped
        rw [hstack]
        exact if_pos htitle
      simp [hstart, hscreen]
    | false =>
      simp only [Option.isSome_some, and_self, iff_true]
      unfold startButtonTapped
      rw [hstack]
      dsimp only
      rw [if_neg (by simp [htitle])]
      exact ⟨_, rfl⟩

end Navigation

/-- A device without a connection. -/
def Response.offline : Response := { data := none, statusCode := none, error := true }

/-- Neither the end of a login nor another launch. -/
def NavigationEvent.ByUser : NavigationEvent → Prop
  | .action a => ∀ r env, a ≠ .logInEnds r env
  | .launch => False

namespace Navigation

variable {t : TitleOrder} {s : Navigation}

/-- Back to the login screen, and on to a first empty quiz. -/
def startOver (title : String) : List NavigationEvent :=
  [.action .back, .action .back, .action .back, .action .back, .action .back, .action .showHome,
    .action .showCreateQuiz, .action (.startButtonTapped title {})]

/-- No path is longer than five screens. -/
theorem run_startOver (h : Path user s.stack) (hrunning : s.terminated = false) {u : ObjectID}
    (huser : s.core.logIn = some u) {title : String} (htitle : title.isEmpty = false) :
    ∃ view, (run (Navigation.handle t) s (startOver title)).app.screen = .editor view := by
  obtain ⟨core, loggingIn, stack, terminated⟩ := s
  dsimp only at h hrunning huser
  subst hrunning
  have hroot : stack.tail.tail.tail.tail.tail = [] := by
    cases h <;> rfl
  have hrun : run (Navigation.handle t) ⟨core, loggingIn, stack, false⟩ (startOver title) =
      (⟨core, loggingIn, [⟨core.logIn, .newQuiz⟩, ⟨core.logIn, .home⟩], false⟩ :
        Navigation).startButtonTapped title {} := by
    have hback : ∀ stack : List Shown, handle t ⟨core, loggingIn, stack, false⟩ (.action .back) =
        ⟨core, loggingIn, stack.tail, false⟩ := fun _ => rfl
    simp only [startOver, run_cons, run_nil, hback, hroot]
    rfl
  rw [hrun]
  exact (opens_iff rfl title {}).mpr ⟨by simp [huser], htitle⟩

/-- An editor is only open for a user. -/
theorem Sound.logIn_of_editor (h : s.Sound) {view : NewQuoteViewController}
    (hscreen : s.app.screen = .editor view) : s.core.logIn.isSome := by
  obtain ⟨user, hpath, huser⟩ := h.path
  obtain ⟨core, loggingIn, stack, terminated⟩ := s
  cases hpath with
  | newQuote hsome => exact huser hsome ▸ hsome
  | root | home | newQuiz | quizzes | quiz | quote | results => cases hscreen

/-- What the user does leaves the user of the login screen. -/
theorem logIn_handle (h : s.Sound) {e : NavigationEvent} (he : e.ByUser) :
    (s.handle t e).core.logIn = s.core.logIn := by
  cases e with
  | action a =>
    show (if s.terminated then s else s.step t a).core.logIn = _
    split
    · rfl
    · obtain ⟨user, hpath, huser⟩ := h.path
      exact (step_sameUsers t hpath (fun hsome => huser hsome ▸ hsome) he).logIn
  | launch => exact he.elim

end Navigation

/-- **An editor in reach.** From any state of a running app, whatever is on the stack, an
editor can be opened without waiting for the login exactly when the login has left a user. -/
theorem editor_reachable_iff (t : TitleOrder) (w : World) {es : List NavigationEvent}
    (hrunning : (run (Navigation.handle t) (.launch w) es).terminated = false) :
    let s := run (Navigation.handle t) (.launch w) es
    (∃ next : List NavigationEvent, (∀ e ∈ next, e.ByUser) ∧
      ∃ view, (run (Navigation.handle t) s next).app.screen = .editor view) ↔
        s.core.logIn.isSome := by
  intro s
  have hsound : s.Sound := Navigation.sound_run w es
  constructor
  · rintro ⟨next, hnext, view, hscreen⟩
    have hstep : ∀ (s' : Navigation) (e : NavigationEvent),
        s'.Sound ∧ s'.core.logIn = s.core.logIn → e.ByUser →
        (s'.handle t e).Sound ∧ (s'.handle t e).core.logIn = s.core.logIn := fun s' e h he =>
      ⟨h.1.handle e, (Navigation.logIn_handle h.1 he).trans h.2⟩
    obtain ⟨hend, hlogIn⟩ := invariant_run_of_forall hstep ⟨hsound, rfl⟩ hnext
    exact hlogIn ▸ hend.logIn_of_editor hscreen
  · intro hsome
    obtain ⟨u, hlogIn⟩ := Option.isSome_iff_exists.mp hsome
    obtain ⟨user, hpath, -⟩ := hsound.path
    refine ⟨Navigation.startOver "Films", ?_, ?_⟩
    · simp [Navigation.startOver, NavigationEvent.ByUser]
    · exact Navigation.run_startOver hpath hrunning hlogIn (by decide)

/-- From the screens that were opened too early. -/
theorem editor_reachable_early :
    ∃ next : List NavigationEvent, (∀ e ∈ next, e.ByUser) ∧
      ∃ view, (run (Navigation.handle .byCharacters)
        (run (Navigation.handle .byCharacters) (.launch { uuids := .numbered })
          [.action .showHome, .action (.logInEnds .offline {}), .action .showCreateQuiz])
        next).app.screen = .editor view :=
  (editor_reachable_iff .byCharacters { uuids := .numbered } rfl).mpr (by decide)

end KnowTheQuote
