import KnowTheQuote.Properties.Operations

/-!
# Know the Quote — what a login can do

The closure of the login request calls its handler up to three times. A property
is preserved by the login when it is preserved by one such call, and most are when
the elementary assignments, insertions and saves of a call preserve them.

* `getUser_eq` — the three checks of the closure.
* `getUser_calls` — the rule for properties of whole calls.
* `getUser_induction` — the rule for properties of the elementary steps.
-/

namespace KnowTheQuote

/-- The surroundings of the calls a login makes of its handler. -/
def LogInEnv.IsCall (env : LogInEnv) (call : Env) : Prop :=
  call = env.onError ∨ call = env.onData ∨ call = env.onStatus

/-- The lookup returns a user the fetch finds. -/
theorem mem_fetchUsers_of_getUserFromCD {ctx : Context} {username : String}
    {fetch : FetchOutcome} {user : ObjectID} (h : getUserFromCD ctx username fetch = some user) :
    user ∈ ctx.fetchUsers username := by
  cases fetch with
  | none => cases h
  | some order => exact (order.mem_apply _ _).mp (List.mem_of_head? h)

namespace Core

variable (c : Core)

-- ---------------------------------------------------------------------------
-- createUser
-- ---------------------------------------------------------------------------

/-- The state once `createUser` has inserted the object and made it the current user. -/
def withNewUser (username password : String) (now : Date) : Core :=
  { c with
    userController.user := some (c.world.initUser username password now).1
    world := (c.world.initUser username password now).2 }

@[simp] theorem quizController_withNewUser (username password : String) (now : Date) :
    (c.withNewUser username password now).quizController = c.quizController := rfl

@[simp] theorem context_withNewUser (username password : String) (now : Date) :
    (c.withNewUser username password now).world.context =
      { c.world.context with
        users := c.world.context.users.alloc
          (User.fresh (c.world.uuids.next c.world.drawn) username password now) } := rfl

/-- `createUser` inserts the object; a successful `put` then saves and resumes the
data task. -/
theorem createUser_fst (username password : String) (env : Env) :
    (c.createUser username password env).1 =
      (c.withNewUser username password env.now).put
        ((c.withNewUser username password env.now).userController.put
          (c.withNewUser username password env.now).world.context
          c.world.context.users.size env) .createUser env.saves := rfl

@[simp] theorem createUser_snd (username password : String) (env : Env) :
    (c.createUser username password env).2 = c.world.context.users.size := rfl

/-- A new user has every attribute its representation asks for, so its `put` fails
only in the encoder. -/
theorem put_withNewUser (hurl : c.userController.baseURL.isSome) (username password : String)
    (env : Env) :
    ∃ rep, (c.withNewUser username password env.now).userController.put
        (c.withNewUser username password env.now).world.context
        c.world.context.users.size env =
      if env.encodes then .ok ⟨["users", username], .user rep⟩ else .error .badEncode := by
  obtain ⟨url, hurl⟩ := Option.isSome_iff_exists.mp hurl
  have hurl' : (c.withNewUser username password env.now).userController.baseURL = some url := hurl
  have hname : (c.withNewUser username password env.now).world.context.username
      c.world.context.users.size = some username := by
    simp [Context.username, User.fresh]
  have hrep : ∃ rep, (c.withNewUser username password env.now).world.context.userRepresentation
      c.world.context.users.size env.order = some rep := by
    simp [Context.userRepresentation, User.fresh]
  obtain ⟨rep, hrep⟩ := hrep
  refine ⟨rep, ?_⟩
  unfold UserController.put
  rw [hurl', hrep, hname]
  rfl

/-- `createUser` with a base URL: the user is put, unless the encoder throws. -/
theorem createUser_spec (hurl : c.userController.baseURL.isSome) (username password : String)
    (env : Env) :
    ∃ rep, (c.createUser username password env).1 =
      if env.encodes then
        (c.withNewUser username password env.now).put (.ok ⟨["users", username], .user rep⟩)
          .createUser env.saves
      else (c.withNewUser username password env.now).refused .badEncode := by
  obtain ⟨rep, hrep⟩ := c.put_withNewUser hurl username password env
  refine ⟨rep, ?_⟩
  rw [createUser_fst, hrep]
  split
  · rfl
  · exact put_error _ _ _ _

variable {c}

/-- What is preserved by inserting a user, saving and resuming a data task is
preserved by `createUser`. -/
theorem createUser_induction {P : Core → Prop} {env : Env}
    (hNew : ∀ c username password now, P c → P (c.withNewUser username password now))
    (hSave : ∀ c, P c → P (c.save env.saves))
    (hTask : ∀ {commits} c username rep, P c → P { c with
      world.tasks := c.world.tasks ++ [⟨⟨["users", username], .user rep⟩, .createUser⟩]
      world.commits := commits })
    (hRefused : ∀ c e, P c → P (c.refused e))
    (hc : P c) (username password : String) :
    P (c.createUser username password env).1 := by
  rw [createUser_fst]
  have hc' := hNew c username password env.now hc
  generalize c.withNewUser username password env.now = c' at hc' ⊢
  cases hput : c'.userController.put c'.world.context c.world.context.users.size env with
  | error e =>
    rw [put_error]
    exact hRefused _ e hc'
  | ok r =>
    obtain ⟨-, -, rep, username, -, -, rfl⟩ := UserController.put_eq_ok.mp hput
    exact hTask (c'.save env.saves) username rep (hSave _ hc')

theorem userController_user_createUser (c : Core) (username password : String) (env : Env) :
    (c.createUser username password env).1.userController.user =
      some (c.createUser username password env).2 := by
  rw [createUser_fst]
  cases (c.withNewUser username password env.now).userController.put _ _ env <;> rfl

@[simp] theorem world_syncUser (c : Core) : c.syncUser.world = c.world := by
  unfold syncUser
  split <;> rfl

/-- After `syncUser` the controllers agree on the user. -/
theorem syncUser_user (c : Core) :
    c.syncUser.userController = c.userController ∧
      c.syncUser.quizController.user = c.userController.user ∧
      c.syncUser.user = c.userController.user := by
  unfold syncUser
  split
  · exact ⟨rfl, rfl, rfl⟩
  · next h =>
    obtain ⟨h1, h2⟩ := not_or.mp h
    exact ⟨rfl, not_not.mp h2, not_not.mp h1⟩

-- ---------------------------------------------------------------------------
-- The calls of the handler
-- ---------------------------------------------------------------------------

/-- The state once a result is handed to the handler. -/
def replied (c : Core) (result : Except NetworkingError (Option ObjectID)) : Core :=
  { c with world.replies := c.world.replies ++ [result] }

/-- A failure makes the handler create a user, without a look into the store. -/
theorem reply_error (c : Core) (e : NetworkingError) (call : Env) :
    c.reply getUserCompletion (.error e) call =
      { ((c.replied (.error e)).createUser logInUsername logInPassword call).1.syncUser with
        logIn := some
          ((c.replied (.error e)).createUser logInUsername logInPassword call).2 } := rfl

theorem reply_ok (c : Core) (user : Option ObjectID) (call : Env) :
    c.reply getUserCompletion (.ok user) call =
      { c.replied (.ok user) with logIn := user }.syncUser := rfl

section Checks

variable (c : Core) (r : Response) (env : LogInEnv)

/-- The state once the closure has looked at the error. -/
def errorChecked : Core :=
  if r.error then c.reply getUserCompletion (.error .noData) env.onError else c

/-- The state once the closure has looked at the data. -/
def dataChecked : Core :=
  match r.data with
  | none => c
  | some none => c.reply getUserCompletion (.error .badDecode) env.onData
  | some (some rep) => c.fetchDecoded logInUsername logInPassword getUserCompletion rep env

/-- The state once the closure has looked at the response. -/
def statusChecked : Core :=
  match r.statusCode with
  | none => c
  | some code =>
    if code ≠ 200 then
      c.reply getUserCompletion (.error (.unexpectedStatusCode code)) env.onStatus
    else c

/-- The closure makes its checks one after the other. -/
theorem getUser_eq (hurl : c.userController.baseURL.isSome) :
    c.getUser r env = ((c.errorChecked r env).dataChecked r env).statusChecked r env := by
  obtain ⟨url, hurl⟩ := Option.isSome_iff_exists.mp hurl
  unfold getUser fetch
  rw [hurl]
  rfl

end Checks

section Decoded

variable {c : Core} {username password : String} {completion : FetchHandler}
  {rep : UserRepresentation} {env : LogInEnv}

/-- A record whose user is in the store makes that user the current one. -/
theorem fetchDecoded_found {user : ObjectID}
    (h : getUserFromCD c.world.context rep.username env.fetch = some user) :
    c.fetchDecoded username password completion rep env =
      { c with userController.user := some user }.reply completion (.ok (some user))
        env.onData := by
  unfold fetchDecoded
  rw [h]

/-- A record whose user the lookup misses makes a new user, and saves. -/
theorem fetchDecoded_missed
    (h : getUserFromCD c.world.context rep.username env.fetch = none) :
    c.fetchDecoded username password completion rep env =
      ((c.withNewUser username password env.onData.now).save env.onData.saves).reply completion
        (.ok (c.withNewUser username password env.onData.now).userController.user)
        env.onData := by
  unfold fetchDecoded
  rw [h]
  rfl

end Decoded

/-- **Login rule.** What every call of the handler preserves is preserved by the login,
whatever the request ended with. -/
theorem getUser_calls {P : Core → Prop} {env : LogInEnv}
    (hFailure : ∀ c e call, env.IsCall call → P c →
      P (c.reply getUserCompletion (.error e) call))
    (hDecoded : ∀ c rep, P c →
      P (c.fetchDecoded logInUsername logInPassword getUserCompletion rep env))
    (hc : P c) (r : Response) : P (c.getUser r env) := by
  have hOnError : env.IsCall env.onError := .inl rfl
  have hOnData : env.IsCall env.onData := .inr (.inl rfl)
  have hOnStatus : env.IsCall env.onStatus := .inr (.inr rfl)
  -- the three checks of the closure
  have hError : ∀ c, P c → P (c.errorChecked r env) := by
    intro c hc
    unfold errorChecked
    split
    · exact hFailure _ _ _ hOnError hc
    · exact hc
  have hData : ∀ c, P c → P (c.dataChecked r env) := by
    intro c hc
    unfold dataChecked
    split
    · exact hc
    · exact hFailure _ _ _ hOnData hc
    · exact hDecoded _ _ hc
  have hStatus : ∀ c, P c → P (c.statusChecked r env) := by
    intro c hc
    unfold statusChecked
    split
    · exact hc
    · split
      · exact hFailure _ _ _ hOnStatus hc
      · exact hc
  -- without a base URL none of them is reached
  cases hurl : c.userController.baseURL with
  | none =>
    unfold getUser fetch
    rw [hurl]
    exact hFailure _ _ _ hOnError hc
  | some url =>
    rw [getUser_eq c r env (by rw [hurl]; rfl)]
    exact hStatus _ (hData _ (hError _ hc))

/-- The login rule for the elementary steps of a call. -/
theorem getUser_induction {P : Core → Prop} {env : LogInEnv}
    (hNew : ∀ c username password now, P c → P (c.withNewUser username password now))
    (hSave : ∀ c call, env.IsCall call → P c → P (c.save call.saves))
    (hTask : ∀ {commits} c username rep, P c → P { c with
      world.tasks := c.world.tasks ++ [⟨⟨["users", username], .user rep⟩, .createUser⟩]
      world.commits := commits })
    (hRefused : ∀ c e, P c → P (c.refused e))
    (hReply : ∀ c rs, P c → P { c with world.replies := rs })
    (hLogIn : ∀ c user, P c → P { c with logIn := user })
    (hUser : ∀ c user name, user ∈ c.world.context.fetchUsers name → P c →
      P { c with userController.user := some user })
    (hSync : ∀ c, P c → P c.syncUser)
    (hc : P c) (r : Response) : P (c.getUser r env) := by
  refine getUser_calls ?_ ?_ hc r
  · intro c e call hcall hc
    have hc := hReply c (c.world.replies ++ [.error e]) hc
    exact hLogIn _ _ (hSync _ (createUser_induction hNew (fun c => hSave c _ hcall) hTask
      hRefused hc _ _))
  · intro c rep hc
    -- the handler is called with the user of `UserController`
    have hCall : ∀ c result, P c →
        P (c.reply getUserCompletion (.ok result) env.onData) := fun c result hc =>
      hSync _ (hLogIn _ result (hReply c _ hc))
    cases huser : getUserFromCD c.world.context rep.username env.fetch with
    | some user =>
      rw [fetchDecoded_found huser]
      exact hCall _ _ (hUser _ user _ (mem_fetchUsers_of_getUserFromCD huser) hc)
    | none =>
      rw [fetchDecoded_missed huser]
      exact hCall _ _ (hSave _ _ (.inr (.inl rfl)) (hNew _ _ _ _ hc))

/-- `LogInViewController`, `UserController` and `QuizController` agree on the user. -/
structure Synced (c : Core) : Prop where
  logIn : c.logIn = c.userController.user
  quizController : c.quizController.user = c.userController.user

theorem logIn_syncUser (c : Core) : c.syncUser.logIn = c.logIn := by
  unfold syncUser
  split <;> rfl

/-- Every call of the handler leaves them in agreement. -/
theorem synced_getUser (h : c.Synced) (r : Response) (env : LogInEnv) :
    (c.getUser r env).Synced := by
  have hOk : ∀ (c : Core) (call : Env),
      (c.reply getUserCompletion (.ok c.userController.user) call).Synced := by
    intro c call
    rw [reply_ok]
    obtain ⟨hsame, hquiz, -⟩ := syncUser_user
      { c.replied (.ok c.userController.user) with logIn := c.userController.user }
    exact ⟨by rw [logIn_syncUser, hsame]; rfl, by rw [hquiz, hsame]⟩
  refine getUser_calls ?_ ?_ h r
  · intro c e call _ _
    rw [reply_error]
    have huser := userController_user_createUser (c.replied (.error e)) logInUsername
      logInPassword call
    generalize (c.replied (.error e)).createUser logInUsername logInPassword call = created
      at huser ⊢
    obtain ⟨hsame, hquiz, -⟩ := syncUser_user created.1
    exact ⟨by dsimp only; rw [hsame, huser], by dsimp only; rw [hquiz, hsame]⟩
  · intro c rep _
    unfold fetchDecoded
    split
    · exact hOk _ _
    · exact hOk _ _

end Core

end KnowTheQuote
