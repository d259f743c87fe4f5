import KnowTheQuote.Properties.DataSteps
import KnowTheQuote.Properties.Requests

/-!
# Know the Quote — what a success branch saves

A save writes the whole context. So the success branch of a completion handler stores
the object that has been put and whatever else waits there to be saved: an object stays
in the context when its `put` is refused. Where nothing waits, each of these saves stores
one object at most, and there is a request for it.

* `Commit.Adds` — the objects a save has stored.
* `Core.Settled`, `Core.SavesOwn` — nothing waits, and nothing waits whenever an operation
  saves in a success branch.
* `Core.Accounted` — every object such a save has stored was put; `Core.Accounted.step` —
  operations that save their own objects keep it.
-/

namespace KnowTheQuote

-- ---------------------------------------------------------------------------
-- The objects of a context
-- ---------------------------------------------------------------------------

/-- A managed object, of one of the three entities. -/
inductive ManagedObject where
  | user (user : ObjectID)
  | quiz (quiz : ObjectID)
  | quote (quote : ObjectID)
deriving DecidableEq

namespace Context

/-- The objects of the context. -/
def managed (c : Context) : List ManagedObject :=
  c.users.live.map .user ++ c.quizzes.live.map .quiz ++ c.quotes.live.map .quote

/-- The request puts the object as it is in the context: its representation, for some
enumeration of the sets, at the place for it below a user. -/
def IsPutOf (c : Context) (r : Request) : ManagedObject → Prop
  | .user user => ∃ order rep, c.userRepresentation user order = some rep ∧
      r = ⟨["users", rep.username], .user rep⟩
  | .quiz quiz => ∃ order rep username, c.quizRepresentation quiz order = some rep ∧
      r = ⟨["users", username, "quizzesCreated", rep.id.uuidString], .quiz rep⟩
  | .quote quote => ∃ rep username,
      (c.quotes.get? quote).bind Quote.quoteRepresentation = some rep ∧
      r = ⟨["users", username, "quizzesCreated", rep.quizID, "quotes", rep.quoteID], .quote rep⟩

variable (c : Context)

@[simp] theorem user_mem_managed {user : ObjectID} :
    .user user ∈ c.managed ↔ user ∈ c.users.live := by
  simp [managed]

@[simp] theorem quiz_mem_managed {quiz : ObjectID} :
    .quiz quiz ∈ c.managed ↔ quiz ∈ c.quizzes.live := by
  simp [managed]

@[simp] theorem quote_mem_managed {quote : ObjectID} :
    .quote quote ∈ c.managed ↔ quote ∈ c.quotes.live := by
  simp [managed]

/-- A quiz is represented without its creator. -/
theorem quizRepresentation_addToQuizzesCreated (user quiz z : ObjectID)
    (order : Reordering ObjectID) :
    (c.addToQuizzesCreated user quiz).quizRepresentation z order =
      c.quizRepresentation z order := by
  unfold quizRepresentation addToQuizzesCreated
  rw [Heap.get?_modify]
  split
  · next heq =>
    rw [heq]
    cases c.quizzes.get? quiz <;> rfl
  · rfl

/-- A quote is represented without its quiz. -/
theorem quoteRepresentation_addToQuotes (quiz quote r : ObjectID) :
    ((c.addToQuotes quiz quote).quotes.get? r).bind Quote.quoteRepresentation =
      (c.quotes.get? r).bind Quote.quoteRepresentation := by
  unfold addToQuotes
  rw [Heap.get?_modify]
  split
  · next heq =>
    rw [heq]
    cases c.quotes.get? quote <;> rfl
  · rfl

/-- A user is represented with the name. -/
theorem username_of_userRepresentation {c : Context} {user : ObjectID}
    {order : Reordering ObjectID} {rep : UserRepresentation}
    (h : c.userRepresentation user order = some rep) : c.username user = some rep.username := by
  simp only [userRepresentation, Option.bind_eq_bind, Option.bind_eq_some_iff, Option.pure_def,
    Option.some.injEq] at h
  obtain ⟨u, hu, id, -, name, hname, password, -, date, -, rfl⟩ := h
  simp [username, hu, hname]

end Context

/-- The save has stored the object. -/
def Commit.Adds (x : Commit) (o : ManagedObject) : Prop :=
  o ∈ x.after.managed ∧ o ∉ x.before.managed

namespace Core

-- ---------------------------------------------------------------------------
-- Saves of one object
-- ---------------------------------------------------------------------------

/-- Nothing waits in the context to be saved. -/
def Settled (c : Core) : Prop := ∀ o ∈ c.world.context.managed, o ∈ c.world.coreData.store.managed

instance (c : Core) : Decidable c.Settled :=
  inferInstanceAs (Decidable (∀ o ∈ c.world.context.managed, o ∈ c.world.coreData.store.managed))

/-- The outcome of the `put` that `createUser` makes. -/
def newUserPut (c : Core) (username password : String) (env : Env) :
    Except NetworkingError Request :=
  (c.withNewUser username password env.now).userController.put
    (c.withNewUser username password env.now).world.context c.world.context.users.size env

/-- If `createUser` saves in its success branch, nothing waits. -/
def UserSavesOwn (c : Core) (username password : String) (env : Env) : Prop :=
  (c.newUserPut username password env).isOk → env.saves → c.Settled

instance (c : Core) (username password : String) (env : Env) :
    Decidable (c.UserSavesOwn username password env) :=
  inferInstanceAs (Decidable
    ((c.newUserPut username password env).isOk → env.saves → c.Settled))

/-- Whenever the operation saves in the success branch of a completion handler, nothing else
waits. A login may come to one after each of its checks. -/
def SavesOwn (c : Core) : Operation → Prop
  | .createUser username password env => c.UserSavesOwn username password env
  | .getUser r env =>
    (r.error → c.UserSavesOwn logInUsername logInPassword env.onError) ∧
    (r.data = some none →
      (c.errorChecked r env).UserSavesOwn logInUsername logInPassword env.onData) ∧
    (r.statusCode.any (· ≠ 200) → ((c.errorChecked r env).dataChecked r env).UserSavesOwn
      logInUsername logInPassword env.onStatus)
  | .createEmptyQuiz env =>
    ∀ title ∈ c.quizController.title, ∀ creator ∈ c.quizController.user,
      (c.emptyQuizPut title creator env).isOk → env.saves → c.Settled
  | .createQuote firstPart secondPart answer incorrectAnswers env =>
    ∀ quiz ∈ c.quizController.quiz, ∀ quizID ∈ c.world.context.quizID quiz,
      c.quizController.quotes.count < 16 →
      (c.newQuotePut ⟨firstPart, secondPart, answer, incorrectAnswers⟩ quizID env).isOk →
      env.saves → c.Settled
  | .syncUser | .setTitle _ | .moveToNextQuote | .moveToPrevQuote | .setupStart _ _
  | .nextQuoteToDisplay | .taskFailed _ => True

instance (c : Core) : DecidablePred c.SavesOwn
  | .createUser username password env =>
    inferInstanceAs (Decidable (c.UserSavesOwn username password env))
  | .getUser _ _ => inferInstanceAs (Decidable (_ ∧ _ ∧ _))
  | .createEmptyQuiz _ => inferInstanceAs (Decidable (∀ title ∈ c.quizController.title, _))
  | .createQuote .. => inferInstanceAs (Decidable (∀ quiz ∈ c.quizController.quiz, _))
  | .syncUser | .setTitle _ | .moveToNextQuote | .moveToPrevQuote | .setupStart _ _
  | .nextQuoteToDisplay | .taskFailed _ => .isTrue trivial

-- ---------------------------------------------------------------------------
-- New objects
-- ---------------------------------------------------------------------------

/-- An object has been inserted, and perhaps linked. -/
structure Inserts (c c' : Core) (o : ManagedObject) : Prop where
  managed : ∀ o' ∈ c'.world.context.managed, o' ∈ c.world.context.managed ∨ o' = o
  store : c'.world.coreData.store = c.world.coreData.store
  tasks : c'.world.tasks = c.world.tasks
  commits : c'.world.commits = c.world.commits

variable (c : Core)

/-- A new user. -/
theorem inserts_withNewUser (username password : String) (now : Date) :
    c.Inserts (c.withNewUser username password now) (.user c.world.context.users.size) := by
  refine ⟨fun o ho => ?_, rfl, rfl, rfl⟩
  rw [context_withNewUser] at ho
  cases o <;> simpa [Heap.live_alloc] using ho

/-- A new quiz, as the initialiser leaves it. -/
theorem inserts_withEmptyQuiz (title : String) (creator : ObjectID) (env : Env) :
    c.Inserts (c.withEmptyQuiz title creator env) (.quiz c.world.context.quizzes.size) := by
  refine ⟨fun o ho => ?_, store_withEmptyQuiz .., tasks_withEmptyQuiz .., ?_⟩
  · rw [context_withEmptyQuiz] at ho
    cases o <;> simpa [Heap.live_alloc] using ho
  · unfold withEmptyQuiz initEmptyQuiz World.initQuiz
    cases (c.world.context.users.get? creator).bind User.id <;> rfl

/-- A new quiz, attached to its creator. -/
theorem inserts_withLinkedQuiz (title : String) (creator : ObjectID) (env : Env) :
    c.Inserts (c.withLinkedQuiz title creator env) (.quiz c.world.context.quizzes.size) := by
  obtain ⟨hmanaged, hstore, htasks, hcommits⟩ := c.inserts_withEmptyQuiz title creator env
  refine ⟨fun o ho => hmanaged o ?_, hstore, htasks, hcommits⟩
  cases o <;> simpa [withLinkedQuiz, Context.addToQuizzesCreated] using ho

/-- A new quote, as the initialiser leaves it. -/
theorem inserts_withNewQuote (a : NewQuote) (quizID : UUID) :
    c.Inserts (c.withNewQuote a quizID) (.quote c.world.context.quotes.size) := by
  refine ⟨fun o ho => ?_, rfl, rfl, rfl⟩
  rw [context_withNewQuote] at ho
  cases o <;> simpa [Heap.live_alloc] using ho

/-- A new quote, linked to its quiz. -/
theorem inserts_withLinkedQuote (a : NewQuote) (quiz : ObjectID) (quizID : UUID) :
    c.Inserts (c.withLinkedQuote a quiz quizID) (.quote c.world.context.quotes.size) := by
  obtain ⟨hmanaged, hstore, htasks, hcommits⟩ := c.inserts_withNewQuote a quizID
  refine ⟨fun o ho => hmanaged o ?_, hstore, htasks, hcommits⟩
  cases o <;> simpa [withLinkedQuote, Context.addToQuotes] using ho

-- ---------------------------------------------------------------------------
-- Requests for everything saved
-- ---------------------------------------------------------------------------

/-- For every object that a success branch has saved there is a data task that puts it as it
was saved. -/
def Accounted (c : Core) : Prop :=
  ∀ x ∈ c.world.commits, ∀ o, x.Adds o → ∃ t ∈ c.world.tasks, x.after.IsPutOf t.request o

namespace Accounted

variable {c c' : Core}

/-- No success branch has saved anything yet. -/
theorem launch (w : World) : (Core.launch w.relaunch).Accounted := nofun

theorem of_eq (h : c.Accounted) (htasks : c'.world.tasks = c.world.tasks)
    (hcommits : c'.world.commits = c.world.commits) : c'.Accounted := by
  intro x hx
  rw [hcommits] at hx
  rw [htasks]
  exact h x hx

/-- A new object is not saved by being there. -/
theorem insert {o : ManagedObject} (h : c.Accounted) (hinserts : c.Inserts c' o) : c'.Accounted :=
  h.of_eq hinserts.tasks hinserts.commits

theorem syncUser (h : c.Accounted) : c.syncUser.Accounted := by
  refine h.of_eq ?_ ?_
  · rw [world_syncUser]
  · rw [world_syncUser]

/-- **The save of a success branch.** Where nothing else waits it stores the object that has
been put. -/
theorem commit (h : c.Accounted) {o : ManagedObject} (hinserts : c.Inserts c' o) {t : Task}
    (hput : c'.world.context.IsPutOf t.request o) {saves : Bool} (hown : saves → c.Settled) :
    Accounted { c'.commit saves with world.tasks := c'.world.tasks ++ [t] } := by
  intro x hx o' hadds
  rcases List.mem_append.mp hx with hx | hx
  · -- an earlier save
    obtain ⟨t', ht', hput'⟩ := (h.insert hinserts) x hx o' hadds
    exact ⟨t', List.mem_append_left _ ht', hput'⟩
  · cases saves with
    | false => cases hx
    | true =>
      rw [if_pos rfl, List.mem_singleton] at hx
      subst hx
      refine ⟨t, List.mem_append_right _ (List.mem_singleton_self t), ?_⟩
      obtain ⟨hafter, hbefore⟩ := hadds
      rcases hinserts.managed o' hafter with hold | rfl
      · -- whatever was in the context before was saved already
        refine absurd ?_ hbefore
        show o' ∈ c'.world.coreData.store.managed
        rw [hinserts.store]
        exact hown rfl o' hold
      · exact hput

/-- A user is put and saved, or refused and not saved. -/
theorem createUser (h : c.Accounted) {username password : String} {env : Env}
    (hown : c.UserSavesOwn username password env) :
    (c.createUser username password env).1.Accounted := by
  have hinserts := c.inserts_withNewUser username password env.now
  show ((c.withNewUser username password env.now).put (c.newUserPut username password env)
    .createUser env.saves).Accounted
  cases hput : c.newUserPut username password env with
  | error e =>
    rw [put_error]
    exact h.of_eq rfl rfl
  | ok r =>
    obtain ⟨-, -, rep, name, hrep, hname, rfl⟩ := UserController.put_eq_ok.mp hput
    cases hname.symm.trans (Context.username_of_userRepresentation hrep)
    exact h.commit hinserts ⟨env.order, rep, hrep, rfl⟩ (hown (by rw [hput]; rfl))

/-- A failure of the login makes such a user. -/
theorem reply_error (h : c.Accounted) (e : NetworkingError) {call : Env}
    (hown : c.UserSavesOwn logInUsername logInPassword call) :
    (c.reply getUserCompletion (.error e) call).Accounted := by
  have hreplied : (c.replied (.error e)).Accounted := h
  have hcreated := hreplied.createUser hown
  rw [Core.reply_error]
  exact hcreated.syncUser

theorem reply_ok (h : c.Accounted) (user : Option ObjectID) (call : Env) :
    (c.reply getUserCompletion (.ok user) call).Accounted := by
  have hlogIn : Accounted { c.replied (.ok user) with logIn := user } := h
  rw [Core.reply_ok]
  exact hlogIn.syncUser

/-- The save of `fetch` is none of a success branch. -/
theorem fetchDecoded (h : c.Accounted) (rep : UserRepresentation) (env : LogInEnv) :
    (c.fetchDecoded logInUsername logInPassword getUserCompletion rep env).Accounted := by
  cases huser : getUserFromCD c.world.context rep.username env.fetch with
  | some user =>
    rw [fetchDecoded_found huser]
    have hfound : Accounted { c with userController.user := some user } := h
    exact hfound.reply_ok _ _
  | none =>
    rw [fetchDecoded_missed huser]
    have hsaved : ((c.withNewUser logInUsername logInPassword env.onData.now).save
        env.onData.saves).Accounted := h
    exact hsaved.reply_ok _ _

/-- Each check of the closure may bring it to a save of its own. -/
theorem getUser (h : c.Accounted) {r : Response} {env : LogInEnv}
    (hown : c.SavesOwn (.getUser r env)) : (c.getUser r env).Accounted := by
  obtain ⟨honError, honData, honStatus⟩ := hown
  cases hurl : c.userController.baseURL with
  | none =>
    -- the request of the new user is refused, too
    unfold Core.getUser fetch
    rw [hurl]
    refine h.reply_error _ fun hsent => ?_
    cases hput : c.newUserPut logInUsername logInPassword env.onError with
    | error e =>
      rw [hput] at hsent
      cases hsent
    | ok r =>
      obtain ⟨hsome, -⟩ := UserController.put_eq_ok.mp hput
      rw [show (c.withNewUser logInUsername logInPassword
        env.onError.now).userController.baseURL = none from hurl] at hsome
      cases hsome
  | some url =>
    rw [getUser_eq c r env (by rw [hurl]; rfl)]
    have hError : (c.errorChecked r env).Accounted := by
      unfold errorChecked
      split
      · next herror => exact h.reply_error _ (honError herror)
      · exact h
    have hData : ((c.errorChecked r env).dataChecked r env).Accounted := by
      unfold dataChecked
      split
      · exact hError
      · next hdata => exact hError.reply_error _ (honData hdata)
      · exact hError.fetchDecoded _ env
    unfold statusChecked
    split
    · exact hData
    · next code hcode =>
      split
      · next hne => exact hData.reply_error _ (honStatus (by rw [hcode]; simpa using hne))
      · exact hData

/-- A quiz is represented as it was put, also once it is attached. -/
theorem createEmptyQuiz (h : c.Accounted) {env : Env} (hown : c.SavesOwn (.createEmptyQuiz env)) :
    (c.createEmptyQuiz env).Accounted := by
  have hcases := c.createEmptyQuiz_cases env
  generalize c.createEmptyQuiz env = c' at hcases ⊢
  cases hcases with
  | skipped => exact h
  | @refused title creator e =>
    exact (h.insert (c.inserts_withEmptyQuiz title creator env)).of_eq rfl rfl
  | @added title creator r htitle huser hput =>
    have hsent : (c.emptyQuizPut title creator env).isOk := by rw [hput]; rfl
    obtain ⟨-, -, rep, _, name, hrep, -, -, rfl⟩ := QuizController.put_eq_ok.mp hput
    refine h.commit (c.inserts_withLinkedQuiz title creator env) ⟨env.order, rep, name, ?_, rfl⟩
      (hown title htitle creator huser hsent)
    exact (Context.quizRepresentation_addToQuizzesCreated ..).trans hrep

/-- A quote is represented as it was put, also once it is linked. -/
theorem createQuote (h : c.Accounted) {a : NewQuote} {env : Env}
    (hown : c.SavesOwn (a.operation env)) :
    (c.createQuote a.firstPart a.secondPart a.answer a.incorrectAnswers env).Accounted := by
  have hcases := c.createQuote_cases a env
  generalize c.createQuote a.firstPart a.secondPart a.answer a.incorrectAnswers env = c'
    at hcases ⊢
  cases hcases with
  | skipped => exact h
  | full => exact h.of_eq rfl rfl
  | @refused _ quizID => exact (h.insert (c.inserts_withNewQuote a quizID)).of_eq rfl rfl
  | @added quiz quizID r hquiz hid hcount hput =>
    have hsent : (c.newQuotePut a quizID env).isOk := by rw [hput]; rfl
    obtain ⟨-, -, rep, _, name, hrep, -, -, rfl⟩ := QuoteController.put_eq_ok.mp hput
    refine h.commit (c.inserts_withLinkedQuote a quiz quizID) ⟨rep, name, ?_, ?_⟩
      (hown quiz hquiz quizID hid hcount hsent)
    · exact (Context.quoteRepresentation_addToQuotes ..).trans hrep
    · -- the initialiser has given the quote the id of the quiz
      rw [context_withNewQuote] at hrep
      have hnew : rep = a.representation (c.world.uuids.next c.world.drawn) quizID := by
        simpa using hrep.symm
      rw [hnew]
      rfl

/-- **Step.** An operation that saves its own objects keeps it. -/
theorem step (h : c.Accounted) {op : Operation} (hown : c.SavesOwn op) : (c.step op).Accounted := by
  cases op with
  | createUser username password env => exact h.createUser hown
  | syncUser => exact h.syncUser
  | getUser r env => exact h.getUser hown
  | setTitle title => exact h
  | createEmptyQuiz env => exact h.createEmptyQuiz hown
  | createQuote firstPart secondPart answer incorrectAnswers env =>
    exact h.createQuote (a := ⟨firstPart, secondPart, answer, incorrectAnswers⟩) hown
  | moveToNextQuote => exact h
  | moveToPrevQuote => exact h
  | setupStart quiz fetch => exact h
  | nextQuoteToDisplay => exact h
  | taskFailed index =>
    rw [step_taskFailed]
    exact h

end Accounted

end Core

end KnowTheQuote
