import KnowTheQuote.Properties.AppSteps

/-!
# Know the Quote — keys and relationships

Every link of the data model is stored twice: a quote belongs to a quiz by its
relationship and by the string `quizID`, a quiz to its creator by its relationship
and by the string `creatorID`. The list of quizzes counts by the relationship, a
play fetches by the string.

* `Context.Linked` — both copies of every link name the same object.
* `Core.Linked.step` — every successful operation keeps them so.
* `keys_agree_with_relationships` — over every successful run of the app.
-/

namespace KnowTheQuote

open Machine

-- ---------------------------------------------------------------------------
-- The data
-- ---------------------------------------------------------------------------

/-- Users have an id and a name, quizzes have the id they drew and a creator, and no two
quizzes share an id; every quote is attached to the quiz whose id it carries. -/
structure Context.Linked (c : Context) (uuids : UUIDSource) (drawn : Nat) : Prop where
  users : ∀ {u user}, c.users.get? u = some user →
    (∃ id, user.id = some id) ∧ ∃ name, user.username = some name
  quizzes : ∀ {z quiz}, c.quizzes.get? z = some quiz →
    ∃ n < drawn, quiz.id = some (uuids.next n)
  creators : ∀ {z quiz}, c.quizzes.get? z = some quiz → ∃ u user id,
    quiz.creator = some u ∧ c.users.get? u = some user ∧ user.id = some id ∧
      quiz.creatorID = some id.uuidString
  distinct : ∀ {z z' quiz quiz'}, c.quizzes.get? z = some quiz →
    c.quizzes.get? z' = some quiz' → quiz.id = quiz'.id → z = z'
  quotes : ∀ {r q}, c.quotes.get? r = some q → ∃ z quiz id,
    q.quiz = some z ∧ c.quizzes.get? z = some quiz ∧ quiz.id = some id ∧
      q.quizID = some id.uuidString

namespace Context.Linked

variable {c : Context} {uuids : UUIDSource} {drawn : Nat}

theorem empty : ({} : Context).Linked uuids drawn :=
  ⟨nofun, nofun, nofun, nofun, nofun⟩

/-- Drawing a UUID for something else breaks no link. -/
theorem mono (h : c.Linked uuids drawn) {drawn' : Nat} (hle : drawn ≤ drawn') :
    c.Linked uuids drawn' where
  users := h.users
  quizzes hz := by
    obtain ⟨n, hn, hid⟩ := h.quizzes hz
    exact ⟨n, hn.trans_le hle, hid⟩
  creators := h.creators
  distinct := h.distinct
  quotes := h.quotes

/-- A user more links nothing. -/
theorem addUser (h : c.Linked uuids drawn) {user : User} {id : UUID} {name : String}
    (hid : user.id = some id) (hname : user.username = some name) :
    ({ c with users := c.users.alloc user } : Context).Linked uuids drawn where
  users {u user'} hu := by
    rw [Heap.get?_alloc] at hu
    split at hu
    · cases hu
      exact ⟨⟨id, hid⟩, name, hname⟩
    · exact h.users hu
  quizzes := h.quizzes
  creators hz := by
    obtain ⟨u, user', id', hcreator, hu, hid', hkey⟩ := h.creators hz
    exact ⟨u, user', id', hcreator,
      (Heap.get?_alloc_of_lt _ (Heap.lt_size_of_get? hu)).trans hu, hid', hkey⟩
  distinct := h.distinct
  quotes := h.quotes

/-- A new quiz draws an id no quiz has. -/
theorem addQuiz (h : c.Linked uuids drawn) {quiz : Quiz} {creator : ObjectID} {user : User}
    {id : UUID} (hid : quiz.id = some (uuids.next drawn)) (hcreator : quiz.creator = some creator)
    (huser : c.users.get? creator = some user) (hcreatorID : user.id = some id)
    (hkey : quiz.creatorID = some id.uuidString) :
    ({ c with quizzes := c.quizzes.alloc quiz } : Context).Linked uuids (drawn + 1) where
  users := h.users
  quizzes {z quiz'} hz := by
    rw [Heap.get?_alloc] at hz
    split at hz
    · cases hz
      exact ⟨drawn, Nat.lt_succ_self _, hid⟩
    · exact (h.mono (Nat.le_succ _)).quizzes hz
  creators {z quiz'} hz := by
    rw [Heap.get?_alloc] at hz
    split at hz
    · cases hz
      exact ⟨creator, user, id, hcreator, huser, hcreatorID, hkey⟩
    · exact h.creators hz
  distinct {z z' quiz₁ quiz₂} hz hz' heq := by
    have hnew : ∀ {z quiz'}, c.quizzes.get? z = some quiz' → quiz'.id ≠ quiz.id := by
      intro z quiz' hz heq
      obtain ⟨n, hn, hid'⟩ := h.quizzes hz
      rw [hid', hid] at heq
      exact hn.ne (uuids.injective (Option.some.inj heq))
    rw [Heap.get?_alloc] at hz hz'
    split at hz
    · split at hz'
      · omega
      · cases hz
        exact absurd heq.symm (hnew hz')
    · split at hz'
      · cases hz'
        exact absurd heq (hnew hz)
      · exact h.distinct hz hz' heq
  quotes hr := by
    obtain ⟨z, quiz', id', hquiz, hz, hid', hkey'⟩ := h.quotes hr
    exact ⟨z, quiz', id', hquiz,
      (Heap.get?_alloc_of_lt _ (Heap.lt_size_of_get? hz)).trans hz, hid', hkey'⟩

-- ---------------------------------------------------------------------------
-- What linked data gives
-- ---------------------------------------------------------------------------

/-- A quote is among the quotes of a quiz exactly when it carries the quiz's id. -/
theorem mem_quotesOf_iff (h : c.Linked uuids drawn) {r z : ObjectID} {q : Quote} {quiz : Quiz}
    (hr : c.quotes.get? r = some q) (hz : c.quizzes.get? z = some quiz) :
    r ∈ c.quotesOf z ↔ q.quizID = quiz.id.map UUID.uuidString := by
  obtain ⟨z', quiz', id', hquiz, hz', hid', hkey⟩ := h.quotes hr
  rw [mem_quotesOf, hkey]
  constructor
  · rintro ⟨q', hq', hz''⟩
    cases hr.symm.trans hq'
    cases hquiz.symm.trans hz''
    cases hz.symm.trans hz'
    rw [hid', Option.map_some]
  · intro heq
    obtain ⟨n, -, hid⟩ := h.quizzes hz
    rw [hid, Option.map_some] at heq
    -- the strings are equal, so the ids are, so the quizzes are
    have hsame : id' = uuids.next n := by
      cases hid'' : uuids.next n
      rw [hid''] at heq
      cases id'
      exact congrArg UUID.mk (Option.some.inj heq)
    have hzz' : z' = z := h.distinct hz' hz (by rw [hid', hid, hsame])
    exact ⟨q, hr, hzz' ▸ hquiz⟩

/-- The predicate on `quizID` finds the quotes of the relationship. -/
theorem storedQuotes_eq_quotesOf (h : c.Linked uuids drawn) {z : ObjectID} {quiz : Quiz}
    (hz : c.quizzes.get? z = some quiz) : c.storedQuotes z = c.quotesOf z := by
  obtain ⟨n, -, hid⟩ := h.quizzes hz
  have hquizID : (c.quizID z).map UUID.uuidString = some (uuids.next n).uuidString := by
    simp [quizID, hz, hid]
  unfold storedQuotes
  rw [hquizID]
  unfold fetchQuotes quotesOf
  apply List.filter_congr
  intro r hr
  obtain ⟨q, hq⟩ := Heap.mem_live.mp hr
  have hiff := h.mem_quotesOf_iff hq hz
  rw [mem_quotesOf, hid, Option.map_some] at hiff
  simp only [quizIDOf, hq, Option.bind_some]
  rw [Bool.eq_iff_iff, beq_iff_eq, beq_iff_eq, ← hiff]
  constructor
  · rintro ⟨q', hq', hz'⟩
    cases hq.symm.trans hq'
    exact hz'
  · exact fun hz' => ⟨q, hq, hz'⟩

end Context.Linked

-- ---------------------------------------------------------------------------
-- The controllers
-- ---------------------------------------------------------------------------

namespace Core

/-- The data in the context and in the store is linked, and the controllers refer to
objects of the context. -/
structure Linked (c : Core) : Prop where
  context : c.world.context.Linked c.world.uuids c.world.drawn
  store : c.world.coreData.store.Linked c.world.uuids c.world.drawn
  user : ∀ {u}, c.quizController.user = some u →
    ∃ user, c.world.context.users.get? u = some user
  current : ∀ {u}, c.userController.user = some u →
    ∃ user, c.world.context.users.get? u = some user
  quiz : ∀ {z}, c.quizController.quiz = some z →
    (∃ quiz, c.world.context.quizzes.get? z = some quiz) ∧ c.quizController.user.isSome
  synced : c.quizController.user.isSome → c.userController.user.isSome
  baseURL : c.quizController.quoteController.baseURL.isSome

variable {c : Core}

/-- A launch over linked data. -/
theorem linked_launch {w : World} (hContext : w.context.Linked w.uuids w.drawn)
    (hStore : w.coreData.store.Linked w.uuids w.drawn) : (launch w).Linked :=
  ⟨hContext, hStore, nofun, nofun, nofun, nofun, rfl⟩

namespace Linked

/-- Only the fields the links read matter. -/
theorem of_eq (h : c.Linked) {c' : Core} (hworld : c'.world.coreData = c.world.coreData)
    (huuids : c'.world.uuids = c.world.uuids) (hdrawn : c'.world.drawn = c.world.drawn)
    (huser : c'.quizController.user = c.quizController.user)
    (hcurrent : c'.userController.user = c.userController.user)
    (hquiz : c'.quizController.quiz = c.quizController.quiz)
    (hbaseURL : c'.quizController.quoteController.baseURL =
      c.quizController.quoteController.baseURL) : c'.Linked := by
  have hcontext : c'.world.context = c.world.context := congrArg CoreDataStack.context hworld
  refine ⟨?_, ?_, ?_, ?_, ?_, ?_, ?_⟩
  · rw [hcontext, huuids, hdrawn]
    exact h.context
  · rw [hworld, huuids, hdrawn]
    exact h.store
  · rw [hcontext, huser]
    exact h.user
  · rw [hcontext, hcurrent]
    exact h.current
  · rw [hcontext, hquiz, huser]
    exact h.quiz
  · rw [huser, hcurrent]
    exact h.synced
  · rw [hbaseURL]
    exact h.baseURL

/-- A save that succeeds leaves the links as they are. -/
theorem save (h : c.Linked) : (c.save true).Linked :=
  ⟨h.context, h.context, h.user, h.current, h.quiz, h.synced, h.baseURL⟩

theorem refused (h : c.Linked) (e : NetworkingError) : (c.refused e).Linked :=
  h.of_eq rfl rfl rfl rfl rfl rfl rfl

/-- The new user is in the context, with an id. -/
theorem withNewUser (h : c.Linked) (username password : String) (now : Date) :
    (c.withNewUser username password now).Linked := by
  have hold : ∀ {u}, (∃ user, c.world.context.users.get? u = some user) →
      ∃ user, (c.withNewUser username password now).world.context.users.get? u = some user := by
    rintro u ⟨user, hu⟩
    exact ⟨user, (Heap.get?_alloc_of_lt _ (Heap.lt_size_of_get? hu)).trans hu⟩
  refine ⟨?_, h.store.mono (Nat.le_succ _), fun hu => hold (h.user hu), ?_, h.quiz,
    fun _ => rfl, h.baseURL⟩
  · exact (h.context.addUser rfl rfl).mono (Nat.le_succ _)
  · intro u hu
    cases hu
    exact ⟨_, Heap.get?_alloc_self ..⟩

theorem syncUser (h : c.Linked) : c.syncUser.Linked := by
  unfold Core.syncUser
  split
  · refine ⟨h.context, h.store, fun hu => h.current hu, h.current, ?_, fun hu => hu, h.baseURL⟩
    intro z hz
    exact ⟨(h.quiz hz).1, h.synced (h.quiz hz).2⟩
  · exact h

theorem createUser (h : c.Linked) (username password : String) {env : Env}
    (henv : env.Succeeds) : (c.createUser username password env).1.Linked :=
  createUser_induction (fun _ username password now h => h.withNewUser username password now)
    (fun _ h => henv.saves ▸ h.save) (fun _ _ _ h => h.of_eq rfl rfl rfl rfl rfl rfl rfl)
    (fun _ e h => h.refused e) h username password

theorem getUser (h : c.Linked) (r : Response) {env : LogInEnv}
    (henv : env.onError.Succeeds ∧ env.onData.Succeeds ∧ env.onStatus.Succeeds) :
    (c.getUser r env).Linked := by
  have hsaves : ∀ call, env.IsCall call → call.saves = true := by
    rintro call (rfl | rfl | rfl)
    · exact henv.1.saves
    · exact henv.2.1.saves
    · exact henv.2.2.saves
  refine getUser_induction (fun _ username password now h => h.withNewUser username password now)
    (fun _ call hcall h => hsaves call hcall ▸ h.save)
    (fun _ _ _ h => h.of_eq rfl rfl rfl rfl rfl rfl rfl) (fun _ e h => h.refused e)
    (fun _ _ h => h.of_eq rfl rfl rfl rfl rfl rfl rfl)
    (fun _ _ h => h.of_eq rfl rfl rfl rfl rfl rfl rfl) ?_ (fun _ h => h.syncUser) h r
  -- the lookup found a user of the context
  intro c user name hmem h
  obtain ⟨u, hu, -⟩ := mem_fetchUsers.mp hmem
  refine ⟨h.context, h.store, h.user, ?_, h.quiz, fun _ => rfl, h.baseURL⟩
  intro u' hu'
  cases hu'
  exact ⟨u, hu⟩

/-- The object `createEmptyQuiz` inserts is complete: the creator has an id. -/
theorem emptyQuizObject (h : c.Linked) (title : String) {creator : ObjectID}
    (hcreator : c.quizController.user = some creator) (env : Env) :
    ∃ user id, c.world.context.users.get? creator = some user ∧ user.id = some id ∧
      c.emptyQuizObject title creator env =
        .fresh (c.world.uuids.next c.world.drawn) title creator id env.now ∧
      (c.withEmptyQuiz title creator env).world.drawn = c.world.drawn + 1 := by
  obtain ⟨user, hu⟩ := h.user hcreator
  obtain ⟨⟨id, hid⟩, -⟩ := h.context.users hu
  have hbind : (c.world.context.users.get? creator).bind User.id = some id := by
    rw [hu, Option.bind_some, hid]
  exact ⟨user, id, hu, hid, c.emptyQuizObject_of_id title env hbind,
    c.drawn_withEmptyQuiz_of_id title env hbind⟩

/-- A new quiz is linked to its creator, by the key and by the relationship. -/
theorem withEmptyQuiz (h : c.Linked) (title : String) {creator : ObjectID}
    (hcreator : c.quizController.user = some creator) (env : Env) :
    (c.withEmptyQuiz title creator env).Linked := by
  obtain ⟨user, id, hu, hid, hobject, hdrawn⟩ := h.emptyQuizObject title hcreator env
  refine ⟨?_, ?_, ?_, ?_, ?_, ?_, ?_⟩
  · rw [context_withEmptyQuiz, uuids_withEmptyQuiz, hdrawn, hobject]
    exact h.context.addQuiz rfl rfl hu hid rfl
  · rw [store_withEmptyQuiz, uuids_withEmptyQuiz, hdrawn]
    exact h.store.mono (Nat.le_succ _)
  · rw [context_withEmptyQuiz, quizController_withEmptyQuiz]
    exact h.user
  · rw [context_withEmptyQuiz, userController_withEmptyQuiz]
    exact h.current
  · rw [context_withEmptyQuiz, quizController_withEmptyQuiz]
    intro z hz
    cases hz
    exact ⟨⟨_, Heap.get?_alloc_self ..⟩, Option.isSome_iff_exists.mpr ⟨creator, hcreator⟩⟩
  · rw [quizController_withEmptyQuiz, userController_withEmptyQuiz]
    exact h.synced
  · rw [quizController_withEmptyQuiz]
    exact h.baseURL

/-- A call that succeeds makes such a quiz. -/
theorem createEmptyQuiz (h : c.Linked) {env : Env} (henv : env.Succeeds) :
    (c.createEmptyQuiz env).Linked := by
  have hcases := c.createEmptyQuiz_cases env
  generalize c.createEmptyQuiz env = c' at hcases ⊢
  cases hcases with
  | skipped => exact h
  | refused htitle huser => exact (h.withEmptyQuiz _ huser env).refused _
  | @added title creator r htitle huser hput =>
    have hnew := h.withEmptyQuiz title huser env
    rw [henv.saves]
    obtain ⟨user, id, hu, hid, -⟩ := h.emptyQuizObject title huser env
    have hcontext : ((c.withEmptyQuiz title creator env).put (.ok r)
        (.createEmptyQuiz creator c.world.context.quizzes.size) true).world.context =
          (c.withEmptyQuiz title creator env).world.context :=
      c.addToQuizzesCreated_withEmptyQuiz title env (by rw [hu, Option.bind_some, hid])
    exact hnew.save.of_eq
      (congrArg (fun ctx => (⟨ctx, ctx⟩ : CoreDataStack)) hcontext) rfl rfl rfl rfl rfl rfl

/-- With a current quiz, everything a `put` of a quote needs is there. -/
theorem ready (h : c.Linked) {quiz : ObjectID} (hquiz : c.quizController.quiz = some quiz) :
    c.Ready quiz := by
  obtain ⟨⟨z, hz⟩, huser⟩ := h.quiz hquiz
  obtain ⟨n, -, hid⟩ := h.context.quizzes hz
  obtain ⟨u, hu⟩ := Option.isSome_iff_exists.mp huser
  obtain ⟨user, huser⟩ := h.user hu
  obtain ⟨-, name, hname⟩ := h.context.users huser
  exact ⟨hquiz, ⟨c.world.uuids.next n, by simp [Context.quizID, hz, hid]⟩, h.baseURL, u, name, hu,
    by simp [Context.username, huser, hname]⟩

/-- A new quote is linked to its quiz, by the key and by the relationship. -/
theorem withAddedQuote (h : c.Linked) (a : NewQuote) {quiz : ObjectID} {quizID : UUID}
    (hquiz : c.quizController.quiz = some quiz)
    (hid : c.world.context.quizID quiz = some quizID) (r : Request) :
    (c.withAddedQuote a quiz quizID r true).Linked := by
  have hcontext : (c.withAddedQuote a quiz quizID r true).world.context.Linked c.world.uuids
      (c.world.drawn + 1) := by
    have hmono := h.context.mono (Nat.le_succ c.world.drawn)
    refine ⟨?_, ?_, ?_, ?_, ?_⟩
    · rw [users_withAddedQuote]
      exact hmono.users
    · rw [quizzes_withAddedQuote]
      exact hmono.quizzes
    · rw [quizzes_withAddedQuote, users_withAddedQuote]
      exact hmono.creators
    · rw [quizzes_withAddedQuote]
      exact hmono.distinct
    · rw [quizzes_withAddedQuote]
      intro r' q hq
      rw [get?_withAddedQuote] at hq
      split at hq
      · obtain ⟨⟨z, hz⟩, -⟩ := h.quiz hquiz
        rw [Context.quizID, hz] at hid
        cases hq
        exact ⟨quiz, z, quizID, rfl, hz, hid, rfl⟩
      · exact hmono.quotes hq
  refine ⟨hcontext, hcontext, ?_, ?_, ?_, ?_, ?_⟩
  · rw [users_withAddedQuote]
    exact fun hu => h.user (by simpa [Core.withAddedQuote] using hu)
  · rw [users_withAddedQuote]
    exact h.current
  · rw [quizzes_withAddedQuote]
    intro z hz
    have hz := h.quiz (z := z) (by simpa [Core.withAddedQuote] using hz)
    exact ⟨hz.1, by simpa [Core.withAddedQuote] using hz.2⟩
  · simpa [Core.withAddedQuote] using h.synced
  · simpa [Core.withAddedQuote] using h.baseURL

theorem createQuote (h : c.Linked) (a : NewQuote) {env : Env} (henv : env.Succeeds) :
    (c.createQuoteOf a env).Linked := by
  have hcases := c.createQuote_cases a env
  unfold createQuoteOf
  generalize c.createQuote a.firstPart a.secondPart a.answer a.incorrectAnswers env = c'
    at hcases ⊢
  cases hcases with
  | skipped => exact h
  | full =>
    exact h.of_eq rfl rfl rfl (user_syncUser _) rfl (quiz_syncUser _)
      (quoteController_baseURL_syncUser _)
  | @refused quiz quizID e hquiz hid hcount hput =>
    -- a quote that has just been initialised can be represented
    obtain ⟨r, hok⟩ := newQuotePut_of_ready (h.ready hquiz) a quizID henv.encodes
    rw [hok] at hput
    cases hput
  | @added quiz quizID r hquiz hid =>
    rw [henv.saves]
    exact h.withAddedQuote a hquiz hid r

/-- **One successful operation** keeps keys and relationships in agreement. -/
theorem step (h : c.Linked) {op : Operation} (hop : op.Succeeds) : (c.step op).Linked := by
  cases op with
  | createUser username password env => exact h.createUser username password hop
  | syncUser => exact h.syncUser
  | getUser r env => exact h.getUser r hop
  | setTitle title => exact h.of_eq rfl rfl rfl rfl rfl rfl rfl
  | createEmptyQuiz env => exact h.createEmptyQuiz hop
  | createQuote first second answer incorrect env =>
    exact h.createQuote ⟨first, second, answer, incorrect⟩ hop
  | moveToNextQuote =>
    obtain ⟨cursor, hmoved⟩ := c.step_moveToNextQuote
    rw [hmoved]
    exact h.of_eq rfl rfl rfl rfl rfl rfl rfl
  | moveToPrevQuote =>
    obtain ⟨cursor, hmoved⟩ := c.step_moveToPrevQuote
    rw [hmoved]
    exact h.of_eq rfl rfl rfl rfl rfl rfl rfl
  | setupStart quiz fetch =>
    exact h.of_eq rfl rfl rfl (QuizController.user_setupStart ..) rfl
      (QuizController.quiz_setupStart ..) (QuizController.quoteBaseURL_setupStart ..)
  | nextQuoteToDisplay =>
    obtain ⟨cursor, hmoved⟩ := c.step_nextQuoteToDisplay
    rw [hmoved]
    exact h.of_eq rfl rfl rfl rfl rfl rfl rfl
  | taskFailed index =>
    rw [step_taskFailed]
    exact h

end Linked

end Core

/-- Every successful run of the app, from any linked state. -/
theorem linked_run {s : App} (h : s.core.Linked) {es : List Event}
    (hes : ∀ e ∈ es, e.Succeeds) : (run App.handle s es).core.Linked :=
  core_invariant_run (fun _ _ hop h => h.step hop)
    (fun _ h => Core.linked_launch h.store h.store) h hes

/-- **Keys and relationships agree.** From an empty store, after every run of the app and
its controllers in which every `put` reports success and every save succeeds: a quote is
among the quotes of a quiz exactly when its `quizID` is the quiz's id; the `creatorID` of
a quiz is the id of its creator, who has the quiz among those created; and the number the
list shows for a quiz is the number of quotes a play of it loads. -/
theorem keys_agree_with_relationships (uuids : UUIDSource) (strings : StringEquality)
    {es : List Event} (hSucceeds : ∀ e ∈ es, e.Succeeds) :
    let core := (run App.handle { core := .launch { uuids := uuids, strings := strings } } es).core
    let c := core.world.context
    (∀ r q z quiz, c.quotes.get? r = some q → c.quizzes.get? z = some quiz →
      (r ∈ c.quotesOf z ↔ q.quizID = quiz.id.map UUID.uuidString)) ∧
    (∀ z quiz, c.quizzes.get? z = some quiz → ∃ u user id, quiz.creator = some u ∧
      c.users.get? u = some user ∧ user.id = some id ∧
      quiz.creatorID = some id.uuidString ∧ z ∈ c.quizzesCreatedOf u) ∧
    ∀ z ∈ c.listedQuizzes, ∀ order : Reordering ObjectID,
      (core.quizController.setupStart c z (some order)).1.quotes.count =
        c.quoteCountLabel z := by
  intro core c
  have hLaunch : (Core.launch { uuids := uuids, strings := strings }).Linked :=
    Core.linked_launch Context.Linked.empty Context.Linked.empty
  have h : core.Linked := linked_run hLaunch hSucceeds
  refine ⟨fun r q z quiz hr hz => h.context.mem_quotesOf_iff hr hz, ?_, ?_⟩
  · intro z quiz hz
    obtain ⟨u, user, id, hcreator, hu, hid, hkey⟩ := h.context.creators hz
    exact ⟨u, user, id, hcreator, hu, hid, hkey, mem_quizzesCreatedOf.mpr ⟨quiz, hz, hcreator⟩⟩
  · intro z hz order
    obtain ⟨quiz, hz⟩ := Heap.mem_live.mp hz
    rw [(core.quizController.setupStart_numbers c z (some order)).count]
    show (order.apply (c.storedQuotes z)).length = _
    rw [order.length_apply, h.context.storedQuotes_eq_quotesOf hz]
    rfl

/-- The list shows two quotes for a quiz with two, and a play of it loads them. -/
theorem keys_agree_twoQuotes :
    let core := (run App.handle { core := .launch { uuids := .numbered } }
      (.operation (.getUser { data := none, statusCode := none, error := true } {}) ::
        Action.twoQuotes.map .action)).core
    core.world.context.quoteCountLabel 0 = 2 ∧
      (core.quizController.setupStart core.world.context 0 (some .asIs)).1.quotes.count = 2 := by
  intro core
  have hlabel : core.world.context.quoteCountLabel 0 = 2 := by decide
  have hSucceeds : ∀ e ∈ Event.operation (.getUser
      { data := none, statusCode := none, error := true } {}) :: Action.twoQuotes.map .action,
      e.Succeeds := by decide
  have hagree := keys_agree_with_relationships .numbered .byCodePoints hSucceeds
  exact ⟨hlabel, (hagree.2.2 0 (by decide) .asIs).trans hlabel⟩

end KnowTheQuote
