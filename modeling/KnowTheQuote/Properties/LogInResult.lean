import KnowTheQuote.Properties.LogInServer

/-!
# Know the Quote — what a login comes back with

The closure of the login request looks at the error, the data and the response one after
the other. It never returns in between, so each of them that has something to report calls
the handler, and each call gives the login one more user. Of a decoded record it uses the
username and nothing else: whoever is in the store under that name is the user, and
otherwise a new user with an id and a date of its own is.

* `Response.calls` — how many of the three have something to report.
* `fetch_calls_once_iff` — the responses for which the handler is called once.
* `Core.HoldsRecord` — when the user is the one the record describes.
* `fetch_returns_record_iff` — the logins that return the account the server holds.
-/

namespace KnowTheQuote

-- ---------------------------------------------------------------------------
-- The calls of the handler
-- ---------------------------------------------------------------------------

namespace Response

variable (r : Response)

/-- What the closure reports of the error. -/
def errorResults : List (Except NetworkingError (Option ObjectID)) :=
  if r.error then [.error .noData] else []

/-- What it reports of the data, if the user of a decoded record is `user`. -/
def dataResults (user : ObjectID) : List (Except NetworkingError (Option ObjectID)) :=
  match r.data with
  | none => []
  | some none => [.error .badDecode]
  | some (some _) => [.ok (some user)]

/-- What it reports of the status. -/
def statusResults : List (Except NetworkingError (Option ObjectID)) :=
  match r.statusCode with
  | none => []
  | some code => if code ≠ 200 then [.error (.unexpectedStatusCode code)] else []

/-- Only data can be a success. -/
theorem ok_mem_results {u u' : Option ObjectID} :
    .ok u ∈ r.errorResults ++ [.ok u'] ++ r.statusResults ↔ u = u' := by
  have hError : .ok u ∉ r.errorResults := by
    unfold errorResults
    split <;> simp
  have hStatus : .ok u ∉ r.statusResults := by
    unfold statusResults
    rcases r.statusCode with _ | code
    · exact List.not_mem_nil
    · dsimp only
      split <;> simp
  simp [hError, hStatus]

/-- An error, any data, and a status that is not 200. -/
def calls : Nat :=
  r.error.toNat + r.data.isSome.toNat + (r.statusCode.any (· ≠ 200)).toNat

theorem length_results (user : ObjectID) :
    (r.errorResults ++ r.dataResults user ++ r.statusResults).length = r.calls := by
  have hError : r.errorResults.length = r.error.toNat := by
    unfold errorResults
    cases r.error <;> rfl
  have hData : (r.dataResults user).length = r.data.isSome.toNat := by
    unfold dataResults
    rcases r.data with _ | _ | rep <;> rfl
  have hStatus : r.statusResults.length = (r.statusCode.any (· ≠ 200)).toNat := by
    unfold statusResults
    rcases r.statusCode with _ | code
    · rfl
    · by_cases hcode : code = 200 <;> simp [hcode]
  rw [List.length_append, List.length_append, hError, hData, hStatus]
  rfl

end Response

/-- A handler that does not start a fetch of its own. -/
def FetchHandler.Quiet (completion : FetchHandler) : Prop :=
  ∀ result call c, (completion result call c).world.replies = c.world.replies

/-- The handler that only listens: the state after a fetch is the one in which it has been
called. -/
def FetchHandler.listen : FetchHandler := fun _ _ c => c

namespace Core

variable (c : Core) (username password : String)

/-- The state in which the user of a decoded record is handed over. -/
def withRecord (rep : UserRepresentation) (env : LogInEnv) : Core :=
  match getUserFromCD c.world.context rep.username env.fetch with
  | some user => { c with userController.user := some user }
  | none => (c.withNewUser username password env.onData.now).save env.onData.saves

variable (rep : UserRepresentation) (env : LogInEnv)

theorem fetchDecoded_eq (completion : FetchHandler) :
    c.fetchDecoded username password completion rep env =
      (c.withRecord username password rep env).reply completion
        (.ok (c.withRecord username password rep env).userController.user) env.onData := by
  unfold withRecord
  cases huser : getUserFromCD c.world.context rep.username env.fetch with
  | some user => exact fetchDecoded_found huser
  | none => exact fetchDecoded_missed huser

/-- A user is handed over, and nothing has been yet. -/
theorem withRecord_user :
    ∃ user, (c.withRecord username password rep env).userController.user = some user ∧
      (c.withRecord username password rep env).world.replies = c.world.replies := by
  unfold withRecord
  cases getUserFromCD c.world.context rep.username env.fetch with
  | some user => exact ⟨user, rfl, rfl⟩
  | none => exact ⟨c.world.context.users.size, rfl, rfl⟩

variable {c}

theorem replies_reply {completion : FetchHandler} (hquiet : completion.Quiet)
    (result : Except NetworkingError (Option ObjectID)) (call : Env) :
    (c.reply completion result call).world.replies = c.world.replies ++ [result] :=
  hquiet result call _

section Quiet

variable {completion : FetchHandler} (hquiet : completion.Quiet) (r : Response)
include hquiet

theorem replies_ofError (c : Core) (env : LogInEnv) :
    (if r.error then c.reply completion (.error .noData) env.onError else c).world.replies =
      c.world.replies ++ r.errorResults := by
  unfold Response.errorResults
  split
  · exact replies_reply hquiet _ _
  · exact (List.append_nil _).symm

/-- A decoded record is answered with the user it makes the current one. -/
theorem replies_fetchDecoded (c : Core) (rep : UserRepresentation) (env : LogInEnv) :
    (c.fetchDecoded username password completion rep env).world.replies =
      c.world.replies ++ [.ok (c.withRecord username password rep env).userController.user] := by
  obtain ⟨user, -, hreplies⟩ := c.withRecord_user username password rep env
  rw [fetchDecoded_eq, replies_reply hquiet, hreplies]

theorem replies_ofStatus (c : Core) (env : LogInEnv) :
    (match r.statusCode with
      | none => c
      | some code =>
        if code ≠ 200 then c.reply completion (.error (.unexpectedStatusCode code)) env.onStatus
        else c).world.replies = c.world.replies ++ r.statusResults := by
  unfold Response.statusResults
  rcases r.statusCode with _ | code
  · exact (List.append_nil _).symm
  · dsimp only
    split
    · exact replies_reply hquiet _ _
    · exact (List.append_nil _).symm

/-- **The calls of the handler**, in order. -/
theorem replies_fetchCompleted (env : LogInEnv) :
    ∃ user, (c.fetchCompleted username password completion r env).world.replies =
      c.world.replies ++ (r.errorResults ++ r.dataResults user ++ r.statusResults) := by
  have hData : ∀ c : Core, ∃ user, (match r.data with
      | none => c
      | some none => c.reply completion (.error .badDecode) env.onData
      | some (some rep) =>
        c.fetchDecoded username password completion rep env).world.replies =
          c.world.replies ++ r.dataResults user := by
    intro c
    unfold Response.dataResults
    rcases r.data with _ | _ | rep
    · exact ⟨0, (List.append_nil _).symm⟩
    · exact ⟨0, replies_reply hquiet _ _⟩
    · obtain ⟨user, huser, -⟩ := c.withRecord_user username password rep env
      refine ⟨user, ?_⟩
      dsimp only
      rw [replies_fetchDecoded username password hquiet, huser]
  obtain ⟨user, hData⟩ := hData
    (if r.error then c.reply completion (.error .noData) env.onError else c)
  rw [replies_ofError hquiet] at hData
  refine ⟨user, (replies_ofStatus hquiet r _ env).trans
    ((congrArg (· ++ r.statusResults) hData).trans ?_)⟩
  simp only [List.append_assoc]

end Quiet

-- ---------------------------------------------------------------------------
-- The users of a login
-- ---------------------------------------------------------------------------

theorem drawn_createUser (c : Core) (username password : String) (call : Env) :
    (c.createUser username password call).1.world.drawn = c.world.drawn + 1 := by
  rw [createUser_fst]
  cases (c.withNewUser username password call.now).userController.put _ _ call <;> rfl

theorem replies_createUser (c : Core) (username password : String) (call : Env) :
    (c.createUser username password call).1.world.replies = c.world.replies := by
  rw [createUser_fst]
  cases (c.withNewUser username password call.now).userController.put _ _ call <;> rfl

theorem quiet_getUserCompletion : FetchHandler.Quiet getUserCompletion := by
  intro result call c
  rcases result with e | user
  · show (c.createUser logInUsername logInPassword call).1.syncUser.world.replies = _
    rw [world_syncUser, replies_createUser]
  · exact congrArg World.replies (world_syncUser _)

/-- A failure creates a user. -/
theorem drawn_reply_error (c : Core) (e : NetworkingError) (call : Env) :
    (c.reply getUserCompletion (.error e) call).world.drawn = c.world.drawn + 1 := by
  show ((c.replied (.error e)).createUser logInUsername logInPassword
    call).1.syncUser.world.drawn = _
  rw [world_syncUser, drawn_createUser]
  rfl

theorem drawn_reply_ok (c : Core) (user : Option ObjectID) (call : Env) :
    (c.reply getUserCompletion (.ok user) call).world.drawn = c.world.drawn := by
  rw [reply_ok, world_syncUser]
  rfl

/-- The record's user is in Core Data when the login looks for it. -/
def findsUser (c : Core) (r : Response) (env : LogInEnv) : Bool :=
  match r.data with
  | some (some rep) =>
    (getUserFromCD (c.errorChecked r env).world.context rep.username env.fetch).isSome
  | _ => false

/-- The users a login creates, each with a new id, and the one it finds. -/
def logInUsers (c : Core) (r : Response) (env : LogInEnv) : Nat :=
  (c.getUser r env).world.drawn - c.world.drawn + (c.findsUser r env).toNat

/-- **The users of a login.** Every call of the handler gives the login one more user. -/
theorem logInUsers_eq (c : Core) (hurl : c.userController.baseURL.isSome) (r : Response)
    (env : LogInEnv) : c.logInUsers r env = r.calls := by
  have hError : (c.errorChecked r env).world.drawn = c.world.drawn + r.error.toNat := by
    unfold errorChecked
    by_cases herror : r.error = true
    · rw [if_pos herror, drawn_reply_error, herror]
      rfl
    · rw [if_neg herror, Bool.eq_false_iff.mpr herror]
      rfl
  have hData : ∀ c₁ : Core, c₁.world.context = (c.errorChecked r env).world.context →
      c₁.world.drawn ≤ (c₁.dataChecked r env).world.drawn ∧
        (c₁.dataChecked r env).world.drawn + (c.findsUser r env).toNat =
          c₁.world.drawn + r.data.isSome.toNat := by
    intro c₁ hcontext
    unfold dataChecked findsUser
    rw [← hcontext]
    rcases r.data with _ | _ | rep
    · exact ⟨le_refl _, rfl⟩
    · dsimp only
      rw [drawn_reply_error]
      exact ⟨Nat.le_succ _, rfl⟩
    · dsimp only
      cases huser : getUserFromCD c₁.world.context rep.username env.fetch with
      | some user =>
        rw [fetchDecoded_found huser, drawn_reply_ok]
        exact ⟨le_refl _, rfl⟩
      | none =>
        rw [fetchDecoded_missed huser, drawn_reply_ok]
        exact ⟨Nat.le_succ _, rfl⟩
  have hStatus : ∀ c₁ : Core, (c₁.statusChecked r env).world.drawn =
      c₁.world.drawn + (r.statusCode.any (· ≠ 200)).toNat := by
    intro c₁
    unfold statusChecked
    rcases r.statusCode with _ | code
    · rfl
    · by_cases hcode : code = 200
      · simp [hcode]
      · simp [hcode, drawn_reply_error]
  obtain ⟨hle, hData⟩ := hData _ rfl
  unfold logInUsers Response.calls
  rw [c.getUser_eq r env hurl, hStatus]
  omega

end Core

/-- **Once.** Whatever a data task hands to the closure, the handler is called exactly once,
and a login ends with exactly one user, if and only if exactly one of these is there: an
error, data, a status other than 200. -/
theorem fetch_calls_once_iff {c : Core} (hurl : c.userController.baseURL.isSome)
    (r : Response) (env : LogInEnv) :
    (∀ (username password : String) (completion : FetchHandler), completion.Quiet →
      ((c.fetch username password completion r env).world.replies.length =
        c.world.replies.length + 1 ↔ r.calls = 1)) ∧
    ((c.getUser r env).world.replies.length = c.world.replies.length + 1 ∧
      c.logInUsers r env = 1 ↔ r.calls = 1) := by
  have hcalls : ∀ (username password : String) (completion : FetchHandler), completion.Quiet →
      (c.fetch username password completion r env).world.replies.length =
        c.world.replies.length + r.calls := by
    intro username password completion hquiet
    obtain ⟨url, hurl⟩ := Option.isSome_iff_exists.mp hurl
    obtain ⟨user, hreplies⟩ :=
      Core.replies_fetchCompleted (c := c) username password hquiet r env
    unfold Core.fetch
    rw [hurl]
    dsimp only
    rw [hreplies, List.length_append, r.length_results user]
  have hlogIn : (c.getUser r env).world.replies.length = c.world.replies.length + r.calls :=
    hcalls _ _ _ Core.quiet_getUserCompletion
  refine ⟨fun username password completion hquiet => ?_, ?_⟩
  · rw [hcalls username password completion hquiet]
    omega
  · rw [hlogIn, c.logInUsers_eq hurl r env]
    omega

/-- A server that knows the user, and a device that does not. -/
theorem fetch_calls_once_decoded :
    let c := Core.launch { uuids := .numbered }
    c.userController.baseURL.isSome ∧
      (c.getUser .decoded {}).world.replies.length = 1 ∧ c.logInUsers .decoded {} = 1 :=
  ⟨rfl, (fetch_calls_once_iff (c := Core.launch { uuids := .numbered }) rfl .decoded {}).2.mpr
    (by decide)⟩

/-- An answer with a status of its own and a body that is no record. -/
def Response.denied : Response where
  data := some none
  statusCode := some 401
  error := false

/-- The handler is called for the body and again for the status. -/
theorem denied_logIn_calls_twice :
    ¬ ∀ (c : Core) (r : Response) (env : LogInEnv), c.userController.baseURL.isSome →
      (c.getUser r env).world.replies.length = c.world.replies.length + 1 := by
  intro h
  have htwice := h (Core.launch { uuids := .numbered }) .denied {} rfl
  revert htwice
  decide

-- ---------------------------------------------------------------------------
-- The user of a record
-- ---------------------------------------------------------------------------

/-- The user has the attributes of the record. -/
def Context.Agrees (c : Context) (user : ObjectID) (rep : UserRepresentation) : Prop :=
  ∃ u, c.users.get? user = some u ∧ u.username = some rep.username ∧
    u.password = some rep.password ∧ u.id = some rep.id ∧
    u.signupDate = some rep.signupDate ∧ u.coins = rep.coins

/-- The representation of a user has its attributes, and the ids of its quizzes. -/
theorem Context.userRepresentation_eq_some_iff {c : Context} {user : ObjectID}
    {order : Reordering ObjectID} {rep : UserRepresentation} :
    c.userRepresentation user order = some rep ↔ c.Agrees user rep ∧
      rep.quizesCreatedIDs = some ((order.apply (c.quizzesCreatedOf user)).filterMap fun r =>
        (c.quizID r).map UUID.uuidString) := by
  simp only [Context.userRepresentation, Option.bind_eq_bind, Option.bind_eq_some_iff,
    Option.pure_def, Option.some.injEq]
  constructor
  · rintro ⟨u, hu, id, hid, name, hname, password, hpassword, date, hdate, rfl⟩
    exact ⟨⟨u, hu, hname, hpassword, hid, hdate, rfl⟩, rfl⟩
  · rintro ⟨⟨u, hu, hname, hpassword, hid, hdate, hcoins⟩, hquizzes⟩
    refine ⟨u, hu, rep.id, hid, rep.username, hname, rep.password, hpassword, rep.signupDate,
      hdate, ?_⟩
    cases rep
    simp_all

namespace Core

variable (c : Core) (username password : String) (rep : UserRepresentation) (env : LogInEnv)

/-- The lookup finds a user with the attributes of the record; or it finds none, the new
user is saved, and its attributes happen to be those of the record. -/
def HoldsRecord : Prop :=
  match getUserFromCD c.world.context rep.username env.fetch with
  | some user => c.world.context.Agrees user rep
  | none =>
    env.onData.saves = true ∧ username = rep.username ∧ password = rep.password ∧
      c.world.uuids.next c.world.drawn = rep.id ∧ env.onData.now = rep.signupDate ∧
      rep.coins = 250

theorem agrees_withRecord_iff {user : ObjectID}
    (huser : (c.withRecord username password rep env).userController.user = some user) :
    (c.withRecord username password rep env).world.context.Agrees user rep ↔
      c.HoldsRecord username password rep env := by
  unfold withRecord at huser ⊢
  unfold HoldsRecord
  cases hfound : getUserFromCD c.world.context rep.username env.fetch with
  | some found =>
    rw [hfound] at huser
    cases huser
    exact Iff.rfl
  | none =>
    rw [hfound] at huser
    cases huser
    dsimp only
    cases hsaves : env.onData.saves with
    | true =>
      -- the new user stays in the context
      have hnew : ((c.withNewUser username password env.onData.now).save
          true).world.context.users.get? c.world.context.users.size =
            some (.fresh (c.world.uuids.next c.world.drawn) username password env.onData.now) := by
        show (c.world.context.users.alloc _).get? _ = _
        rw [Heap.get?_alloc_self]
      constructor
      · rintro ⟨u, hu, hname, hpassword, hid, hdate, hcoins⟩
        cases hnew.symm.trans hu
        exact ⟨rfl, Option.some.inj hname, Option.some.inj hpassword, Option.some.inj hid,
          Option.some.inj hdate, hcoins.symm⟩
      · rintro ⟨-, hname, hpassword, hid, hdate, hcoins⟩
        exact ⟨_, hnew, congrArg some hname, congrArg some hpassword, congrArg some hid,
          congrArg some hdate, hcoins.symm⟩
    | false =>
      -- the save resets the context, and the new user is gone
      refine iff_of_false ?_ (fun h => Bool.false_ne_true h.1)
      rintro ⟨u, hu, -⟩
      have hlt : c.world.context.users.size <
          (c.withNewUser username password env.onData.now).world.context.users.size := by
        rw [context_withNewUser]
        dsimp only
        rw [Heap.size_alloc]
        exact Nat.lt_succ_self _
      have hgone : ((c.withNewUser username password env.onData.now).save
          false).world.context.users.get? c.world.context.users.size = none :=
        Heap.get?_reload_of_lt _ _ hlt
      cases hgone.symm.trans hu

/-- The state once the listening handler has been called with some results. -/
def heard (c : Core) (results : List (Except NetworkingError (Option ObjectID))) : Core :=
  { c with world.replies := c.world.replies ++ results }

theorem heard_nil : c.heard [] = c := by
  unfold heard
  rw [List.append_nil]

theorem heard_heard (results results' : List (Except NetworkingError (Option ObjectID))) :
    (c.heard results).heard results' = c.heard (results ++ results') := by
  unfold heard
  rw [← List.append_assoc]

theorem withRecord_heard (results : List (Except NetworkingError (Option ObjectID))) :
    (c.heard results).withRecord username password rep env =
      (c.withRecord username password rep env).heard results := by
  have hcontext : (c.heard results).world.context = c.world.context := rfl
  unfold withRecord
  rw [hcontext]
  cases getUserFromCD c.world.context rep.username env.fetch with
  | some user => rfl
  | none => rfl

/-- A fetch of a record, as its handler hears it. -/
theorem fetch_listen (hurl : c.userController.baseURL.isSome) (statusCode : Option Int)
    (error : Bool) :
    let r : Response := ⟨some (some rep), statusCode, error⟩
    c.fetch username password .listen r env =
      (c.withRecord username password rep env).heard (r.errorResults ++
        [.ok (c.withRecord username password rep env).userController.user] ++
        r.statusResults) := by
  intro r
  obtain ⟨url, hurl⟩ := Option.isSome_iff_exists.mp hurl
  have hError : (if r.error then c.reply .listen (.error .noData) env.onError else c) =
      c.heard r.errorResults := by
    unfold Response.errorResults
    split
    · rfl
    · exact c.heard_nil.symm
  have hData : ∀ c₁ : Core, c₁.fetchDecoded username password .listen rep env =
      (c₁.withRecord username password rep env).heard
        [.ok (c₁.withRecord username password rep env).userController.user] := fun c₁ =>
    c₁.fetchDecoded_eq username password rep env .listen
  have hStatus : ∀ c₂ : Core,
      (match r.statusCode with
        | none => c₂
        | some code =>
          if code ≠ 200 then
            c₂.reply .listen (.error (.unexpectedStatusCode code)) env.onStatus
          else c₂) = c₂.heard r.statusResults := by
    intro c₂
    unfold Response.statusResults
    rcases r.statusCode with _ | code
    · exact c₂.heard_nil.symm
    · dsimp only
      split
      · rfl
      · exact c₂.heard_nil.symm
  have hfetch : c.fetch username password .listen r env =
      ((if r.error then c.reply .listen (.error .noData) env.onError else c).fetchDecoded
        username password .listen rep env).heard r.statusResults := by
    rw [← hStatus]
    unfold fetch
    rw [hurl]
    rfl
  rw [hfetch, hError, hData, withRecord_heard, heard_heard, heard_heard, List.append_assoc]
  rfl

end Core

/-- The record that `createUser` puts. -/
theorem Core.agrees_of_createUser {a : Core} {username password : String} {call : Env}
    {rep : UserRepresentation}
    (hput : (a.createUser username password call).1.world.tasks =
      a.world.tasks ++ [⟨⟨["users", username], .user rep⟩, .createUser⟩]) :
    rep.username = username ∧ rep.password = password ∧
      rep.id = a.world.uuids.next a.world.drawn ∧ rep.signupDate = call.now ∧
      rep.coins = 250 := by
  rw [createUser_fst] at hput
  cases houtcome : (a.withNewUser username password call.now).userController.put
      (a.withNewUser username password call.now).world.context a.world.context.users.size
      call with
  | error e =>
    -- no task has been added
    rw [houtcome, put_error] at hput
    have hlength := congrArg List.length hput
    rw [tasks_refused, List.length_append] at hlength
    exact absurd hlength (Nat.ne_of_lt (Nat.lt_succ_self _))
  | ok request =>
    rw [houtcome] at hput
    obtain ⟨-, -, rep', name, hrep, -, rfl⟩ := UserController.put_eq_ok.mp houtcome
    cases List.append_cancel_left hput
    obtain ⟨⟨u, hu, hname, hpassword, hid, hdate, hcoins⟩, -⟩ :=
      Context.userRepresentation_eq_some_iff.mp hrep
    rw [context_withNewUser, Heap.get?_alloc_self] at hu
    cases hu
    exact ⟨(Option.some.inj hname).symm, (Option.some.inj hpassword).symm,
      (Option.some.inj hid).symm, (Option.some.inj hdate).symm, hcoins.symm⟩

/-- On an empty device no user is found, and none has quizzes. -/
theorem Core.withRecord_of_empty {w : World} (hempty : w.coreData = {}) (username password : String)
    (rep : UserRepresentation) (env : LogInEnv) :
    getUserFromCD (Core.launch w).world.context rep.username env.fetch = none ∧
      ∀ user, ((Core.launch w).withRecord username password rep
        env).world.context.quizzesCreatedOf user = [] := by
  have hcontext : (Core.launch w).world.context = {} := congrArg CoreDataStack.context hempty
  have hnone : getUserFromCD (Core.launch w).world.context rep.username env.fetch = none := by
    rw [hcontext, Option.eq_none_iff_forall_ne_some]
    intro user huser
    obtain ⟨u, hu, -⟩ := mem_fetchUsers.mp (mem_fetchUsers_of_getUserFromCD huser)
    cases hu
  refine ⟨hnone, fun user => ?_⟩
  unfold withRecord
  rw [hnone]
  dsimp only
  have hquizzes : (((Core.launch w).withNewUser username password env.onData.now).save
      env.onData.saves).world.context.quizzes = {} := by
    cases env.onData.saves with
    | true => exact congrArg Context.quizzes hcontext
    | false =>
      show w.coreData.context.quizzes.reload w.coreData.store.quizzes _ = {}
      rw [hempty]
      rfl
  unfold Context.quizzesCreatedOf
  rw [hquizzes]
  rfl

/-- The handler hears of one user, that of `withRecord`. -/
theorem Core.fetch_listen_user {c : Core} (hurl : c.userController.baseURL.isSome)
    (username password : String) (rep : UserRepresentation) (statusCode : Option Int)
    (error : Bool) (env : LogInEnv) :
    let c' := c.fetch username password .listen ⟨some (some rep), statusCode, error⟩ env
    c'.world.context = (c.withRecord username password rep env).world.context ∧
      ∃ user, (c.withRecord username password rep env).userController.user = some user ∧
        ∀ user', .ok (some user') ∈ c'.world.replies.drop c.world.replies.length ↔
          user' = user := by
  intro c'
  set r : Response := ⟨some (some rep), statusCode, error⟩
  obtain ⟨user, huser, hreplies⟩ := c.withRecord_user username password rep env
  have hfetch : c' = (c.withRecord username password rep env).heard (r.errorResults ++
      [.ok (some user)] ++ r.statusResults) := by
    rw [← huser]
    exact c.fetch_listen username password rep env hurl statusCode error
  have hnew : c'.world.replies.drop c.world.replies.length = r.errorResults ++
      [.ok (some user)] ++ r.statusResults := by
    rw [hfetch, ← hreplies]
    exact List.drop_left
  refine ⟨by rw [hfetch]; rfl, user, huser, fun user' => ?_⟩
  rw [hnew, r.ok_mem_results, Option.some_inj]

/-- A login hears of one user, that of `withRecord` in the state in which the closure looks at
the data; with a status of 200 that is the state it leaves. -/
theorem Core.getUser_user {c : Core} (hurl : c.userController.baseURL.isSome)
    (rep : UserRepresentation) (statusCode : Option Int) (error : Bool) (env : LogInEnv) :
    let r : Response := ⟨some (some rep), statusCode, error⟩
    let found := (c.errorChecked r env).withRecord logInUsername logInPassword rep env
    let c' := c.getUser r env
    (∃ user, found.userController.user = some user ∧
      ∀ user', .ok (some user') ∈ c'.world.replies.drop c.world.replies.length ↔
        user' = user) ∧
    (statusCode = some 200 →
      c'.world.context = found.world.context ∧ c'.logIn = found.userController.user) := by
  intro r found c'
  obtain ⟨user, huser, -⟩ :=
    (c.errorChecked r env).withRecord_user logInUsername logInPassword rep env
  have hdata : (c.errorChecked r env).dataChecked r env =
      found.reply getUserCompletion (.ok found.userController.user) env.onData :=
    fetchDecoded_eq ..
  have hc' : c' = ((c.errorChecked r env).dataChecked r env).statusChecked r env :=
    c.getUser_eq r env hurl
  constructor
  · have hError : (c.errorChecked r env).world.replies = c.world.replies ++ r.errorResults :=
      replies_ofError quiet_getUserCompletion r c env
    have hData : ((c.errorChecked r env).dataChecked r env).world.replies =
        (c.errorChecked r env).world.replies ++ [.ok found.userController.user] :=
      replies_fetchDecoded _ _ quiet_getUserCompletion _ rep env
    have hStatus : c'.world.replies =
        ((c.errorChecked r env).dataChecked r env).world.replies ++ r.statusResults := by
      rw [hc']
      exact replies_ofStatus quiet_getUserCompletion r _ env
    have hnew : c'.world.replies.drop c.world.replies.length =
        r.errorResults ++ [.ok (some user)] ++ r.statusResults := by
      rw [hStatus, hData, hError, huser, List.append_assoc, List.append_assoc, List.drop_left,
        List.append_assoc]
    refine ⟨user, huser, fun user' => ?_⟩
    rw [hnew, r.ok_mem_results, Option.some_inj]
  · rintro rfl
    have hlast : c' = found.reply getUserCompletion (.ok found.userController.user) env.onData :=
      hc'.trans hdata
    rw [hlast, reply_ok]
    refine ⟨?_, logIn_syncUser _⟩
    rw [world_syncUser]
    rfl

/-- **The account the server holds.** A fetch whose data task returns a record hands a user
with the attributes of the record to its handler, and that only to someone who knows the
password, if and only if the password is right and the lookup finds such a user or the new
one happens to be one. A user who was put from one device has the same representation on an
empty one if and only if the new user there is saved and happens to get the same id and date.
A login asks with a username and a password of its own and may have created a user by the time
it looks at the record; what its handler gets is of the same kind, and where the status is 200
the login leaves it so. -/
theorem fetch_returns_record_iff (username password : String) (statusCode : Option Int)
    (error : Bool) (env : LogInEnv) :
    (∀ (c : Core) (rep : UserRepresentation), c.userController.baseURL.isSome →
      let c' := c.fetch username password .listen ⟨some (some rep), statusCode, error⟩ env
      ((∀ user, .ok (some user) ∈ c'.world.replies.drop c.world.replies.length →
          password = rep.password ∧ c'.world.context.Agrees user rep) ↔
        password = rep.password ∧ c.HoldsRecord username password rep env)) ∧
    (∀ (a : Core) (call : Env) (rep : UserRepresentation) (w : World)
      (ids : Option (List String)) (order : Reordering ObjectID),
      (a.createUser username password call).1.world.tasks =
        a.world.tasks ++ [⟨⟨["users", username], .user rep⟩, .createUser⟩] →
      w.coreData = {} →
      let record := { rep with quizesCreatedIDs := ids }
      let c' := (Core.launch w).fetch username password .listen
        ⟨some (some record), statusCode, error⟩ env
      ((∀ user, .ok (some user) ∈ c'.world.replies.drop w.replies.length →
          c'.world.context.userRepresentation user order =
            some { rep with quizesCreatedIDs := some [] }) ↔
        env.onData.saves = true ∧
          w.uuids.next w.drawn = a.world.uuids.next a.world.drawn ∧
          env.onData.now = call.now)) ∧
    ∀ (c : Core) (rep : UserRepresentation), c.userController.baseURL.isSome →
      let r : Response := ⟨some (some rep), statusCode, error⟩
      let checked := c.errorChecked r env
      let found := checked.withRecord logInUsername logInPassword rep env
      let c' := c.getUser r env
      ((∀ user, .ok (some user) ∈ c'.world.replies.drop c.world.replies.length →
          logInPassword = rep.password ∧ found.world.context.Agrees user rep) ↔
        logInPassword = rep.password ∧ checked.HoldsRecord logInUsername logInPassword rep env) ∧
      (statusCode = some 200 →
        c'.world.context = found.world.context ∧ c'.logIn = found.userController.user) := by
  refine ⟨?_, ?_, ?_⟩
  · intro c rep hurl c'
    obtain ⟨hcontext, user, huser, hheard⟩ :=
      c.fetch_listen_user hurl username password rep statusCode error env
    have hagrees := c.agrees_withRecord_iff username password rep env huser
    simp only [c', hheard, forall_eq]
    rw [hcontext, hagrees]
  · intro a call rep w ids order hput hempty record c'
    obtain ⟨hcontext, user, huser, hheard⟩ :=
      (Core.launch w).fetch_listen_user rfl username password record statusCode error env
    have hagrees := (Core.launch w).agrees_withRecord_iff username password record env huser
    obtain ⟨hnone, hquizzes⟩ := Core.withRecord_of_empty hempty username password record env
    obtain ⟨hname, hpassword, hid, hdate, hcoins⟩ := Core.agrees_of_createUser hput
    -- the new user has the right name and password, and the coins of every new user
    have hholds : (Core.launch w).HoldsRecord username password record env ↔
        env.onData.saves = true ∧ w.uuids.next w.drawn = a.world.uuids.next a.world.drawn ∧
          env.onData.now = call.now := by
      unfold Core.HoldsRecord
      rw [hnone]
      show _ ∧ username = rep.username ∧ password = rep.password ∧
        w.uuids.next w.drawn = rep.id ∧ env.onData.now = rep.signupDate ∧ rep.coins = 250 ↔ _
      rw [hname, hpassword, hid, hdate, hcoins]
      simp
    have hheard' : ∀ user', .ok (some user') ∈ c'.world.replies.drop w.replies.length ↔
        user' = user := hheard
    simp only [hheard', forall_eq]
    rw [← hholds, ← hagrees, Context.userRepresentation_eq_some_iff, hcontext, hquizzes]
    rw [order.apply_nil]
    exact ⟨fun h => h.1, fun h => ⟨h, rfl⟩⟩
  · intro c rep hurl r checked found c'
    obtain ⟨⟨user, huser, hheard⟩, hlast⟩ := c.getUser_user hurl rep statusCode error env
    have hagrees := checked.agrees_withRecord_iff logInUsername logInPassword rep env huser
    refine ⟨?_, hlast⟩
    simp only [c', r, hheard, forall_eq]
    rw [← hagrees]

/-- The user of the first quiz, asked for by a later launch with the right password. -/
theorem fetch_returns_record_firstQuiz :
    let c := Core.launch App.afterFirstQuiz.core.world.relaunch
    let c' := c.fetch logInUsername logInPassword .listen .decoded {}
    .ok (some 0) ∈ c'.world.replies.drop c.world.replies.length ∧
      ∀ user, .ok (some user) ∈ c'.world.replies.drop c.world.replies.length →
        logInPassword = UserRepresentation.ofLogIn.password ∧
          c'.world.context.Agrees user .ofLogIn := by
  have hHolds : (Core.launch App.afterFirstQuiz.core.world.relaunch).HoldsRecord logInUsername
      logInPassword .ofLogIn {} := ⟨_, rfl, rfl, rfl, rfl, rfl, rfl⟩
  exact ⟨by decide, ((fetch_returns_record_iff logInUsername logInPassword (some 200) false
    {}).1 (Core.launch App.afterFirstQuiz.core.world.relaunch) .ofLogIn rfl).mpr ⟨rfl, hHolds⟩⟩

/-- On an empty device the right password gives an account with an id of its own, and any
other password will do as well. -/
theorem fetch_makes_other_account :
    (¬ ∀ (c : Core) (rep : UserRepresentation) (env : LogInEnv),
      let c' := c.fetch rep.username rep.password .listen ⟨some (some rep), some 200, false⟩ env
      ∀ user, .ok (some user) ∈ c'.world.replies.drop c.world.replies.length →
        c'.world.context.Agrees user rep) ∧
    ¬ ∀ (c : Core) (password : String) (rep : UserRepresentation) (env : LogInEnv),
      let c' := c.fetch rep.username password .listen ⟨some (some rep), some 200, false⟩ env
      ∀ user, .ok (some user) ∈ c'.world.replies.drop c.world.replies.length →
        password = rep.password := by
  constructor
  · intro h
    obtain ⟨u, hu, -, -, hid, -⟩ :=
      h (Core.launch { uuids := .numbered, drawn := 1 }) .ofLogIn {} 0 (by decide)
    cases hu
    revert hid
    decide
  · intro h
    have hpassword := h (Core.launch { uuids := .numbered }) "guess" .ofLogIn {} 0 (by decide)
    revert hpassword
    decide

end KnowTheQuote
