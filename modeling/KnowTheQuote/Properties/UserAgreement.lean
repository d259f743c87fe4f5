import KnowTheQuote.Properties.Cache

/-!
# Know the Quote — the logged-in user

Five objects hold a copy of the logged-in user: `LogInViewController`, `KQController`
and the three controllers below it. A login changes the copy of `UserController` first,
and the handler it then calls brings three of the others in line. The copy of
`QuoteController` is only brought in line when `createQuote` or `setupStart` need it.

* `Agree` — the four copies that always agree.
* `agree_reply_error`, `agree_fetchDecoded` — every call of the handler ends in agreement,
  whatever it started from.
* `users_agree` — agreement after every event of a run, and what `createQuote` puts.
-/

namespace KnowTheQuote

open Machine

-- ---------------------------------------------------------------------------
-- The calls of the handler
-- ---------------------------------------------------------------------------

namespace Core

/-- `LogInViewController`, `KQController`, `UserController` and `QuizController` agree on
the user. -/
structure Agree (c : Core) : Prop extends c.Synced where
  user : c.user = c.userController.user

theorem agree_launch (w : World) : (launch w).Agree := ⟨⟨rfl, rfl⟩, rfl⟩

/-- A handler that ends with `syncUser` leaves agreement on the user it has chosen. -/
theorem agree_syncUser {c : Core} (h : c.logIn = c.userController.user) :
    c.syncUser.Agree := by
  obtain ⟨hsame, hquiz, huser⟩ := syncUser_user c
  rw [← hsame] at hquiz huser
  exact ⟨⟨by rw [logIn_syncUser, hsame, h], hquiz⟩, huser⟩

/-- A call for a failure, from any state. -/
theorem agree_reply_error (c : Core) (e : NetworkingError) (call : Env) :
    (c.reply getUserCompletion (.error e) call).Agree := by
  rw [reply_error]
  have huser := userController_user_createUser (c.replied (.error e)) logInUsername
    logInPassword call
  generalize (c.replied (.error e)).createUser logInUsername logInPassword call = created
    at huser ⊢
  obtain ⟨hsame, hquiz, hkq⟩ := syncUser_user created.1
  rw [← hsame] at hquiz hkq
  exact ⟨⟨by dsimp only; rw [hsame, huser], hquiz⟩, hkq⟩

/-- A call for a decoded record, from any state. -/
theorem agree_fetchDecoded (c : Core) (rep : UserRepresentation) (env : LogInEnv) :
    (c.fetchDecoded logInUsername logInPassword getUserCompletion rep env).Agree := by
  unfold fetchDecoded
  split
  · exact agree_syncUser rfl
  · exact agree_syncUser rfl

end Core

-- ---------------------------------------------------------------------------
-- The operations
-- ---------------------------------------------------------------------------

/-- Every operation but a bare `createUser`: in the app only `createUserAndSync` calls it,
and synchronises at once. -/
def Operation.KeepsSync : Operation → Prop
  | .createUser _ _ _ => False
  | .syncUser | .getUser _ _ | .setTitle _ | .createEmptyQuiz _ | .createQuote _ _ _ _ _
  | .moveToNextQuote | .moveToPrevQuote | .setupStart _ _ | .nextQuoteToDisplay
  | .taskFailed _ => True

namespace Core

/-- The four copies are left as they are. -/
structure SameUsers (c c' : Core) : Prop where
  logIn : c'.logIn = c.logIn
  user : c'.user = c.user
  userController : c'.userController.user = c.userController.user
  quizController : c'.quizController.user = c.quizController.user

theorem Agree.of_same {c c' : Core} (h : c.Agree) (hsame : c.SameUsers c') : c'.Agree where
  logIn := by rw [hsame.logIn, hsame.userController, h.logIn]
  user := by rw [hsame.user, hsame.userController, h.user]
  quizController := by rw [hsame.quizController, hsame.userController, h.quizController]

variable (c : Core)

theorem createQuote_sameUsers (a : NewQuote) (env : Env) :
    c.SameUsers (c.createQuote a.firstPart a.secondPart a.answer a.incorrectAnswers env) := by
  have hcases := c.createQuote_cases a env
  generalize c.createQuote a.firstPart a.secondPart a.answer a.incorrectAnswers env = c'
    at hcases ⊢
  cases hcases with
  | skipped => exact ⟨rfl, rfl, rfl, rfl⟩
  | full => exact ⟨rfl, rfl, rfl, user_syncUser _⟩
  | refused => exact ⟨rfl, rfl, rfl, user_syncUser _⟩
  | added => exact ⟨rfl, rfl, rfl, user_syncUser _⟩

theorem createEmptyQuiz_sameUsers (env : Env) : c.SameUsers (c.createEmptyQuiz env) := by
  have hcases := c.createEmptyQuiz_cases env
  generalize c.createEmptyQuiz env = c' at hcases ⊢
  cases hcases with
  | skipped => exact ⟨rfl, rfl, rfl, rfl⟩
  | refused => exact ⟨rfl, rfl, rfl, by simp⟩
  | added => exact ⟨rfl, rfl, rfl, by simp⟩

variable {c}

/-- One operation. -/
theorem Agree.step (h : c.Agree) {op : Operation} (hop : op.KeepsSync) : (c.step op).Agree := by
  cases op with
  | createUser => exact hop.elim
  | syncUser => exact agree_syncUser h.logIn
  | getUser r env =>
    exact getUser_calls (fun c e call _ _ => c.agree_reply_error e call)
      (fun c rep _ => c.agree_fetchDecoded rep env) h r
  | setTitle title => exact h.of_same ⟨rfl, rfl, rfl, rfl⟩
  | createEmptyQuiz env => exact h.of_same (c.createEmptyQuiz_sameUsers env)
  | createQuote first second answer incorrect env =>
    exact h.of_same (c.createQuote_sameUsers ⟨first, second, answer, incorrect⟩ env)
  | moveToNextQuote =>
    obtain ⟨cursor, hstep⟩ := c.step_moveToNextQuote
    exact hstep ▸ h.of_same ⟨rfl, rfl, rfl, rfl⟩
  | moveToPrevQuote =>
    obtain ⟨cursor, hstep⟩ := c.step_moveToPrevQuote
    exact hstep ▸ h.of_same ⟨rfl, rfl, rfl, rfl⟩
  | setupStart quiz fetch =>
    exact h.of_same ⟨rfl, rfl, rfl, c.quizController.user_setupStart _ quiz fetch⟩
  | nextQuoteToDisplay =>
    obtain ⟨cursor, hstep⟩ := c.step_nextQuoteToDisplay
    exact hstep ▸ h.of_same ⟨rfl, rfl, rfl, rfl⟩
  | taskFailed index =>
    rw [step_taskFailed]
    exact h

-- ---------------------------------------------------------------------------
-- The put of a quote
-- ---------------------------------------------------------------------------

/-- The copy of `QuoteController` at the moment of its `put` is the current user. -/
theorem Agree.user_of_created (h : c.Agree) (a : NewQuote) (env : Env) {c' : Core}
    (hc' : c' = c.createQuote a.firstPart a.secondPart a.answer a.incorrectAnswers env)
    (hput : c'.world.created ≠ c.world.created) :
    c'.quizController.quoteController.user = c'.logIn := by
  have hcases := c.createQuote_cases a env
  have hlogIn : c.quizController.user = c.logIn := h.quizController.trans h.logIn.symm
  rw [← hc'] at hcases
  cases hcases with
  | skipped => exact absurd rfl hput
  | full => exact absurd rfl hput
  | refused => exact (quoteController_user_syncUser _).trans hlogIn
  | added => exact (quoteController_user_syncUser _).trans hlogIn

/-- A quote is put below the name of the current user. -/
theorem Agree.path_of_put (h : c.Agree) (a : NewQuote) (env : Env) :
    ∃ ts, (c.createQuote a.firstPart a.secondPart a.answer a.incorrectAnswers
        env).world.tasks = c.world.tasks ++ ts ∧
      ∀ t ∈ ts, ∃ user name rest, c.logIn = some user ∧
        c.world.context.username user = some name ∧
        t.request.path = "users" :: name :: rest := by
  have hcases := c.createQuote_cases a env
  generalize c.createQuote a.firstPart a.secondPart a.answer a.incorrectAnswers env = c'
    at hcases ⊢
  cases hcases with
  | skipped => exact ⟨[], by simp, by simp⟩
  | full => exact ⟨[], by simp, by simp⟩
  | refused => exact ⟨[], by simp, by simp⟩
  | added hquiz hid hcount hput =>
    refine ⟨_, tasks_put_createQuote .., ?_⟩
    intro t ht
    rw [List.mem_singleton.mp ht]
    obtain ⟨-, -, rep, user, name, -, huser, hname, rfl⟩ := QuoteController.put_eq_ok.mp hput
    refine ⟨user, name, _, ?_, hname, rfl⟩
    rw [h.logIn, ← h.quizController, ← huser]
    exact (quoteController_user_syncUser _).symm

end Core

-- ---------------------------------------------------------------------------
-- Runs
-- ---------------------------------------------------------------------------

/-- What happens to the controllers, one call of the login's handler at a time. -/
inductive LogInEvent where
  /-- the handler is called with a failure -/
  | failed (e : NetworkingError) (call : Env)
  /-- a record has been decoded, so the handler is called with a user -/
  | decoded (rep : UserRepresentation) (env : LogInEnv)
  /-- anything else -/
  | operation (op : Operation) (h : op.KeepsSync)

/-- One event. -/
def Core.handle (c : Core) : LogInEvent → Core
  | .failed e call => c.reply getUserCompletion (.error e) call
  | .decoded rep env => c.fetchDecoded logInUsername logInPassword getUserCompletion rep env
  | .operation op _ => c.step op

theorem Core.Agree.handle {c : Core} (h : c.Agree) (e : LogInEvent) : (c.handle e).Agree := by
  cases e with
  | failed e call => exact c.agree_reply_error e call
  | decoded rep env => exact c.agree_fetchDecoded rep env
  | operation op hop => exact h.step hop

/-- **One user.** In every run from the launch, with any number of calls of the login's
handler among the other operations, the four copies of the user agree after every event.
A `createQuote` that reaches `put(quote:)` has made the fifth copy agree as well, and the
request goes to a path below the name of that user. -/
theorem users_agree (w : World) (es : List LogInEvent) :
    let c := run Core.handle (Core.launch w) es
    c.Agree ∧
    ∀ (first second : Option String) (answer : String) (incorrect : List String) (env : Env),
      let c' := c.createQuote first second answer incorrect env
      (c'.world.created ≠ c.world.created → c'.quizController.quoteController.user = c'.logIn) ∧
      ∃ ts, c'.world.tasks = c.world.tasks ++ ts ∧
        ∀ t ∈ ts, ∃ user name rest, c.logIn = some user ∧
          c.world.context.username user = some name ∧
          t.request.path = "users" :: name :: rest := by
  intro c
  have hagree : c.Agree := invariant_run_all (fun _ e h => h.handle e) (Core.agree_launch w) es
  refine ⟨hagree, fun first second answer incorrect env => ⟨fun hput => ?_, ?_⟩⟩
  · exact hagree.user_of_created ⟨first, second, answer, incorrect⟩ env rfl hput
  · exact hagree.path_of_put ⟨first, second, answer, incorrect⟩ env

end KnowTheQuote
