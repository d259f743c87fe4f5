import KnowTheQuote.Properties.LogInSteps
import KnowTheQuote.Model.App

/-!
# Know the Quote — logging in and the server

The handler of the login takes every failure for a user who does not exist: it
creates one and puts it. The PUT replaces everything below `users/userOne`, and the
representation of a user carries no quiz, so the quizzes and quotes stored there are
gone as soon as the request arrives.

* `getUser_putsUser` — the PUTs of a login.
* `login_keeps_iff` — the logins that leave the server's quizzes and quotes alone.
* `login_erases_quiz` — one that does not.
-/

namespace KnowTheQuote

/-- The login reports a failure to its handler, and the new user can be encoded. -/
def Response.putsUser (r : Response) (env : LogInEnv) : Bool :=
  (r.error && env.onError.encodes) ||
    (r.data == some none && env.onData.encodes) ||
    (r.statusCode.any (· ≠ 200) && env.onStatus.encodes)

/-- The request of `UserController.put` for the user of the login. -/
def Request.PutsUser (r : Request) : Prop :=
  ∃ rep, r = ⟨["users", logInUsername], .user rep⟩

namespace Core

/-- From `c` to `c'` nothing but the user of the login has been put, and that at
least once exactly when `b` holds. -/
structure Issues (b : Bool) (c c' : Core) : Prop where
  baseURL : c'.userController.baseURL = c.userController.baseURL
  tasks : ∃ ts, c'.world.tasks = c.world.tasks ++ ts ∧
    (∀ t ∈ ts, t.request.PutsUser) ∧ (ts ≠ [] ↔ b = true)

namespace Issues

variable {b b' : Bool} {c c' c'' : Core}

theorem none (hurl : c'.userController.baseURL = c.userController.baseURL)
    (htasks : c'.world.tasks = c.world.tasks) : Issues false c c' :=
  ⟨hurl, [], by simp [htasks], by simp, by simp⟩

theorem trans (h : Issues b c c') (h' : Issues b' c' c'') : Issues (b || b') c c'' := by
  obtain ⟨ts, hts, hputs, hne⟩ := h.tasks
  obtain ⟨ts', hts', hputs', hne'⟩ := h'.tasks
  refine ⟨h'.baseURL.trans h.baseURL, ts ++ ts', ?_, ?_, ?_⟩
  · rw [hts', hts, List.append_assoc]
  · intro t ht
    exact (List.mem_append.mp ht).elim (hputs t) (hputs' t)
  · rw [Bool.or_eq_true, ← hne, ← hne', ne_eq, List.append_eq_nil_iff, not_and_or]

end Issues

-- ---------------------------------------------------------------------------
-- The PUTs of a login
-- ---------------------------------------------------------------------------

variable (c : Core)

/-- A failure puts a new user. -/
theorem issues_reply_error (hurl : c.userController.baseURL.isSome) (e : NetworkingError)
    (call : Env) : Issues call.encodes c (c.reply getUserCompletion (.error e) call) := by
  rw [reply_error]
  obtain ⟨rep, hspec⟩ := (c.replied (.error e)).createUser_spec hurl logInUsername logInPassword
    call
  refine ⟨?_, ?_⟩
  · show ((c.replied (.error e)).createUser logInUsername logInPassword
      call).1.syncUser.userController.baseURL = _
    rw [(syncUser_user _).1, hspec]
    split <;> rfl
  · show ∃ ts, ((c.replied (.error e)).createUser logInUsername logInPassword
      call).1.syncUser.world.tasks = _ ∧ _
    rw [world_syncUser, hspec]
    by_cases henc : call.encodes = true
    · rw [if_pos henc]
      exact ⟨[⟨⟨["users", logInUsername], .user rep⟩, .createUser⟩], rfl,
        by simp [Request.PutsUser], by simp [henc]⟩
    · rw [if_neg henc]
      exact ⟨[], by simp [withNewUser, replied, World.initUser, World.newUUID], by simp,
        by simpa using henc⟩

/-- A decoded record puts nothing: the user it stands for is on the server. -/
theorem issues_fetchDecoded (rep : UserRepresentation) (env : LogInEnv) :
    Issues false c (c.fetchDecoded logInUsername logInPassword getUserCompletion rep env) := by
  have hOk : ∀ c' : Core, c'.userController.baseURL = c.userController.baseURL →
      c'.world.tasks = c.world.tasks →
      Issues false c (c'.reply getUserCompletion (.ok c'.userController.user) env.onData) := by
    intro c' hurl htasks
    rw [reply_ok]
    refine .none ?_ ?_
    · rw [(syncUser_user _).1]
      exact hurl
    · rw [world_syncUser]
      exact htasks
  unfold fetchDecoded
  split
  · exact hOk _ rfl rfl
  · exact hOk _ rfl rfl

theorem issues_errorChecked (hurl : c.userController.baseURL.isSome) (r : Response)
    (env : LogInEnv) : Issues (r.error && env.onError.encodes) c (c.errorChecked r env) := by
  unfold errorChecked
  by_cases herror : r.error = true
  · rw [if_pos herror, herror, Bool.true_and]
    exact c.issues_reply_error hurl _ _
  · rw [if_neg herror, Bool.eq_false_iff.mpr herror, Bool.false_and]
    exact .none rfl rfl

theorem issues_dataChecked (hurl : c.userController.baseURL.isSome) (r : Response)
    (env : LogInEnv) :
    Issues (r.data == some none && env.onData.encodes) c (c.dataChecked r env) := by
  unfold dataChecked
  rcases r.data with _ | _ | rep
  · exact .none rfl rfl
  · exact c.issues_reply_error hurl _ _
  · exact c.issues_fetchDecoded rep env

theorem issues_statusChecked (hurl : c.userController.baseURL.isSome) (r : Response)
    (env : LogInEnv) :
    Issues (r.statusCode.any (· ≠ 200) && env.onStatus.encodes) c (c.statusChecked r env) := by
  unfold statusChecked
  rcases r.statusCode with _ | code
  · exact .none rfl rfl
  · by_cases hcode : code = 200
    · simpa [hcode] using Issues.none (c := c) rfl rfl
    · simpa [hcode] using c.issues_reply_error hurl _ _

/-- **The PUTs of a login.** -/
theorem getUser_putsUser (hurl : c.userController.baseURL.isSome) (r : Response)
    (env : LogInEnv) : Issues (r.putsUser env) c (c.getUser r env) := by
  rw [c.getUser_eq r env hurl]
  have hError := c.issues_errorChecked hurl r env
  have hurl1 : (c.errorChecked r env).userController.baseURL.isSome := by
    rwa [hError.baseURL]
  have hData := (c.errorChecked r env).issues_dataChecked hurl1 r env
  have hurl2 : ((c.errorChecked r env).dataChecked r env).userController.baseURL.isSome := by
    rwa [hData.baseURL]
  exact (hError.trans hData).trans (issues_statusChecked _ hurl2 r env)

end Core

-- ---------------------------------------------------------------------------
-- The server
-- ---------------------------------------------------------------------------

/-- Where the quizzes of the user of the login are stored. -/
def quizzesPath : List String := ["users", logInUsername, "quizzesCreated"]

/-- The document of a user has no field for the quizzes. -/
theorem UserRepresentation.leafAt_quizzesCreated (rep : UserRepresentation) (q : List String) :
    rep.document.leafAt ("quizzesCreated" :: q) = none := by
  unfold document
  cases rep.quizesCreatedIDs <;> rfl

/-- A PUT of the user leaves nothing below `quizzesCreated`. -/
theorem leafAt_serve_putsUser {requests : List Request} (hputs : ∀ r ∈ requests, r.PutsUser)
    (hne : requests ≠ []) (server : Document) (q : List String) :
    (serve server requests).leafAt (quizzesPath ++ q) = none := by
  have hpath : ["users", logInUsername] <+: quizzesPath ++ q := ⟨"quizzesCreated" :: q, rfl⟩
  refine PathTree.leafAt_deliver_eq_none (.inr ?_) ?_
  · obtain ⟨r, hr⟩ := List.exists_mem_of_ne_nil _ hne
    obtain ⟨rep, hrep⟩ := hputs r hr
    refine ⟨(r.path, r.body.document), List.mem_map_of_mem hr, ?_⟩
    rw [hrep]
    exact hpath
  · intro w hw _
    obtain ⟨r, hr, rfl⟩ := List.mem_map.mp hw
    obtain ⟨rep, rfl⟩ := hputs r hr
    exact rep.leafAt_quizzesCreated q

/-- **A login and the server.** Once the requests of a login have reached the server, in
any order, every leaf stored below `quizzesCreated` is still there unchanged if and only if
the login puts no user or nothing was stored there. -/
theorem login_keeps_iff (w : World) (r : Response) (env : LogInEnv) (server : Document)
    (requests : List Request)
    (horder : requests.Perm
      (((Core.launch w.relaunch).getUser r env).world.tasks.map Task.request)) :
    (∀ q v, server.leafAt (quizzesPath ++ q) = some v →
        (serve server requests).leafAt (quizzesPath ++ q) = some v) ↔
      r.putsUser env = false ∨ ∀ q, server.leafAt (quizzesPath ++ q) = none := by
  obtain ⟨-, ts, hts, hputs, hne⟩ := (Core.launch w.relaunch).getUser_putsUser rfl r env
  have htasks : (Core.launch w.relaunch).world.tasks = [] := rfl
  rw [htasks, List.nil_append] at hts
  rw [hts] at horder
  have hrequests : ∀ r ∈ requests, r.PutsUser := by
    intro r hr
    obtain ⟨t, ht, rfl⟩ := List.mem_map.mp (horder.mem_iff.mp hr)
    exact hputs t ht
  by_cases hnil : ts = []
  · -- no request, so the server is untouched
    rw [hnil, List.map_nil, List.perm_nil] at horder
    have hfalse : r.putsUser env = false :=
      Bool.eq_false_iff.mpr fun htrue => hne.mpr htrue hnil
    exact iff_of_true (by rw [horder]; exact fun _ _ h => h) (.inl hfalse)
  · have hsome : requests ≠ [] := by
      rintro rfl
      exact hnil (List.map_eq_nil_iff.mp (List.nil_perm.mp horder))
    have hgone := leafAt_serve_putsUser hrequests hsome server
    have htrue := hne.mp hnil
    constructor
    · intro hkeep
      refine .inr fun q => Option.eq_none_iff_forall_ne_some.mpr fun v hv => ?_
      have hkept := hkeep q v hv
      rw [hgone q] at hkept
      cases hkept
    · rintro (hfalse | hempty) q v hv
      · rw [htrue] at hfalse
        cases hfalse
      · rw [hempty q] at hv
        cases hv

/-- The server once the requests of the first quiz have arrived. -/
def Document.afterFirstQuiz : Document :=
  serve .empty (App.afterFirstQuiz.core.world.tasks.map Task.request)

/-- The next launch, when the login request ends with an error and the connection is
back for what follows. -/
def App.afterFailedLogIn : Core :=
  (Core.launch App.afterFirstQuiz.core.world.relaunch).getUser
    { data := none, statusCode := none, error := true } {}

/-- The record of the user, as the server returns it. -/
def UserRepresentation.ofLogIn : UserRepresentation where
  id := ⟨"0"⟩
  signupDate := 0
  username := logInUsername
  password := logInPassword
  coins := 250
  quizesCreatedIDs := none

/-- The answer of a server that knows the user. -/
def Response.decoded : Response where
  data := some (some .ofLogIn)
  statusCode := some 200
  error := false

/-- The next launch, when the login request is answered. -/
def App.afterLogIn : Core :=
  (Core.launch App.afterFirstQuiz.core.world.relaunch).getUser .decoded {}

theorem login_keeps_decoded :
    App.afterLogIn.world.tasks = [] ∧
      ∀ q v, Document.afterFirstQuiz.leafAt (quizzesPath ++ q) = some v →
        (serve .afterFirstQuiz []).leafAt (quizzesPath ++ q) = some v :=
  ⟨by decide, (login_keeps_iff App.afterFirstQuiz.core.world .decoded {} .afterFirstQuiz []
    (by decide)).mpr (.inl rfl)⟩

/-- The first quiz is on the server; after the failed login and the requests it issues it
is not. -/
theorem login_erases_quiz :
    ¬ ∀ (w : World) (r : Response) (env : LogInEnv) (server : Document)
      (requests : List Request),
      requests.Perm
        (((Core.launch w.relaunch).getUser r env).world.tasks.map Task.request) →
      ∀ q v, server.leafAt (quizzesPath ++ q) = some v →
        (serve server requests).leafAt (quizzesPath ++ q) = some v := by
  intro h
  have hkept := h App.afterFirstQuiz.core.world
    { data := none, statusCode := none, error := true } {} .afterFirstQuiz
    (App.afterFailedLogIn.world.tasks.map Task.request) (.refl _) ["1", "title"]
    (.string "Films") (by decide)
  revert hkept
  decide

end KnowTheQuote
