import KnowTheQuote.Model.LogIn

/-!
# Know the Quote — what an operation can do

One specification for each controller operation, so that no later proof unfolds
one: the requests a `put` can issue, the shapes `createQuote` and
`createEmptyQuiz` can leave the state in.
-/

namespace KnowTheQuote

-- ---------------------------------------------------------------------------
-- The surroundings
-- ---------------------------------------------------------------------------

namespace World

variable (w : World)

/-- Reading the context back gives what was set; all else of the world stays. -/
@[simp] theorem context_setContext (ctx : Context) : (w.setContext ctx).context = ctx := rfl
@[simp] theorem store_setContext (ctx : Context) :
    (w.setContext ctx).coreData.store = w.coreData.store := rfl
@[simp] theorem tasks_setContext (ctx : Context) : (w.setContext ctx).tasks = w.tasks := rfl
@[simp] theorem drawn_setContext (ctx : Context) : (w.setContext ctx).drawn = w.drawn := rfl
@[simp] theorem uuids_setContext (ctx : Context) : (w.setContext ctx).uuids = w.uuids := rfl
@[simp] theorem created_setContext (ctx : Context) :
    (w.setContext ctx).created = w.created := rfl

/-- A save that succeeds writes the context and leaves it as it is. -/
@[simp] theorem context_save_true : (w.save true).context = w.context := rfl
@[simp] theorem store_save_true : (w.save true).coreData.store = w.context := rfl

/-- A save that throws brings the saved objects back in as new ones. -/
theorem context_save_false :
    (w.save false).context = w.context.reload w.coreData.store := rfl
@[simp] theorem tasks_save (saves : Bool) : (w.save saves).tasks = w.tasks := rfl
@[simp] theorem drawn_save (saves : Bool) : (w.save saves).drawn = w.drawn := rfl
@[simp] theorem uuids_save (saves : Bool) : (w.save saves).uuids = w.uuids := rfl
@[simp] theorem created_save (saves : Bool) : (w.save saves).created = w.created := rfl

end World

namespace Core

variable (c : Core) (saves : Bool)

/-- The controllers' fields are left alone by both. -/
@[simp] theorem world_setContext (ctx : Context) :
    (c.setContext ctx).world = c.world.setContext ctx := rfl
@[simp] theorem quizController_setContext (ctx : Context) :
    (c.setContext ctx).quizController = c.quizController := rfl
@[simp] theorem world_save : (c.save saves).world = c.world.save saves := rfl
@[simp] theorem quizController_save : (c.save saves).quizController = c.quizController := rfl

/-- A failure reported to a completion handler changes nothing. -/
@[simp] theorem complete_error (handler : Completion) (e : NetworkingError) :
    c.complete saves handler (.error e) = c := by
  cases handler <;> rfl

/-- The state once a `put` has reported a failure: nothing but the history changes. -/
def refused (e : NetworkingError) : Core :=
  { c with world.failures := c.world.failures ++ [e] }

@[simp] theorem quizController_refused (e : NetworkingError) :
    (c.refused e).quizController = c.quizController := rfl
@[simp] theorem userController_refused (e : NetworkingError) :
    (c.refused e).userController = c.userController := rfl
@[simp] theorem logIn_refused (e : NetworkingError) : (c.refused e).logIn = c.logIn := rfl
@[simp] theorem context_refused (e : NetworkingError) :
    (c.refused e).world.context = c.world.context := rfl
@[simp] theorem store_refused (e : NetworkingError) :
    (c.refused e).world.coreData.store = c.world.coreData.store := rfl
@[simp] theorem drawn_refused (e : NetworkingError) :
    (c.refused e).world.drawn = c.world.drawn := rfl
@[simp] theorem uuids_refused (e : NetworkingError) :
    (c.refused e).world.uuids = c.world.uuids := rfl
@[simp] theorem tasks_refused (e : NetworkingError) :
    (c.refused e).world.tasks = c.world.tasks := rfl
@[simp] theorem created_refused (e : NetworkingError) :
    (c.refused e).world.created = c.world.created := rfl
@[simp] theorem failures_refused (e : NetworkingError) :
    (c.refused e).world.failures = c.world.failures ++ [e] := rfl

/-- A `put` that sends nothing reports its failure, and that is all. -/
theorem put_error (e : NetworkingError) (handler : Completion) :
    c.put (.error e) handler saves = c.refused e := by
  simp [put, refused]

end Core

-- ---------------------------------------------------------------------------
-- The requests a `put` issues
-- ---------------------------------------------------------------------------

/-- A request leaves when there is one and the encoder does not throw. -/
theorem encodeRequest_eq_ok {request : Option Request} {encodes : Bool} {r : Request} :
    encodeRequest request encodes = .ok r ↔ request = some r ∧ encodes = true := by
  cases request <;> cases encodes <;> simp [encodeRequest]

/-- A user is put below its name, when it has a representation. -/
theorem UserController.put_eq_ok {self : UserController} {ctx : Context} {user : ObjectID}
    {env : Env} {r : Request} :
    self.put ctx user env = .ok r ↔ self.baseURL.isSome ∧ env.encodes = true ∧
      ∃ rep name, ctx.userRepresentation user env.order = some rep ∧
        ctx.username user = some name ∧ r = ⟨["users", name], .user rep⟩ := by
  simp only [UserController.put, encodeRequest_eq_ok, Option.bind_eq_bind,
    Option.bind_eq_some_iff, Option.isSome_iff_exists, Option.pure_def, Option.some.injEq]
  constructor
  · rintro ⟨⟨url, hurl, rep, hrep, name, hname, rfl⟩, henc⟩
    exact ⟨⟨url, hurl⟩, henc, rep, name, hrep, hname, rfl⟩
  · rintro ⟨⟨url, hurl⟩, henc, rep, name, hrep, hname, rfl⟩
    exact ⟨⟨url, hurl, rep, hrep, name, hname, rfl⟩, henc⟩

/-- A quiz is represented under its id, with the representations of its quotes. -/
theorem Context.quizRepresentation_eq_some {ctx : Context} {quiz : ObjectID}
    {order : Reordering ObjectID} {rep : QuizRepresentation}
    (h : ctx.quizRepresentation quiz order = some rep) :
    ctx.quizID quiz = some rep.id ∧
      rep.quotes = (order.apply (ctx.quotesOf quiz)).filterMap fun r =>
        (ctx.quotes.get? r).bind Quote.quoteRepresentation := by
  simp only [Context.quizRepresentation, Option.bind_eq_bind, Option.bind_eq_some_iff,
    Option.pure_def, Option.some.injEq] at h
  obtain ⟨z, hz, id, hid, title, -, date, -, creatorID, -, rfl⟩ := h
  exact ⟨by simp [Context.quizID, hz, hid], rfl⟩

/-- A quiz is put below its creator's name, under its id. -/
theorem QuizController.put_eq_ok {self : QuizController} {ctx : Context} {quiz : ObjectID}
    {env : Env} {r : Request} :
    self.put ctx quiz env = .ok r ↔ self.baseURL.isSome ∧ env.encodes = true ∧
      ∃ rep creator name, ctx.quizRepresentation quiz env.order = some rep ∧
        self.user = some creator ∧ ctx.username creator = some name ∧
        r = ⟨["users", name, "quizzesCreated", rep.id.uuidString], .quiz rep⟩ := by
  simp only [QuizController.put, encodeRequest_eq_ok, Option.bind_eq_bind,
    Option.bind_eq_some_iff, Option.isSome_iff_exists, Option.pure_def, Option.some.injEq]
  constructor
  · rintro ⟨⟨url, hurl, rep, hrep, creator, hcreator, name, hname, rfl⟩, henc⟩
    exact ⟨⟨url, hurl⟩, henc, rep, creator, name, hrep, hcreator, hname, rfl⟩
  · rintro ⟨⟨url, hurl⟩, henc, rep, creator, name, hrep, hcreator, hname, rfl⟩
    exact ⟨⟨url, hurl, rep, hrep, creator, hcreator, name, hname, rfl⟩, henc⟩

/-- A quote is put below its quiz, under its id. -/
theorem QuoteController.put_eq_ok {self : QuoteController} {ctx : Context} {quote : ObjectID}
    {quizID : UUID} {encodes : Bool} {r : Request} :
    self.put ctx quote quizID encodes = .ok r ↔ self.baseURL.isSome ∧ encodes = true ∧
      ∃ rep creator name, (ctx.quotes.get? quote).bind Quote.quoteRepresentation = some rep ∧
        self.user = some creator ∧ ctx.username creator = some name ∧
        r = ⟨["users", name, "quizzesCreated", quizID.uuidString, "quotes", rep.quoteID],
          .quote rep⟩ := by
  simp only [QuoteController.put, encodeRequest_eq_ok, Option.bind_eq_bind,
    Option.bind_eq_some_iff, Option.isSome_iff_exists, Option.pure_def, Option.some.injEq]
  constructor
  · rintro ⟨⟨url, hurl, rep, ⟨q, hq, hrep⟩, creator, hcreator, name, hname, rfl⟩, henc⟩
    exact ⟨⟨url, hurl⟩, henc, rep, creator, name, ⟨q, hq, hrep⟩, hcreator, hname, rfl⟩
  · rintro ⟨⟨url, hurl⟩, henc, rep, creator, name, ⟨q, hq, hrep⟩, hcreator, hname, rfl⟩
    exact ⟨⟨url, hurl, rep, ⟨q, hq, hrep⟩, creator, hcreator, name, hname, rfl⟩, henc⟩

-- ---------------------------------------------------------------------------
-- createQuote
-- ---------------------------------------------------------------------------

/-- The arguments of `createQuote`. -/
structure NewQuote where
  firstPart : Option String
  secondPart : Option String
  answer : String
  incorrectAnswers : List String

/-- The object a call of `createQuote` inserts. -/
def NewQuote.object (a : NewQuote) (uuid quizID : UUID) : Quote :=
  .fresh uuid quizID.uuidString (a.firstPart.getD "") (a.secondPart.getD "")
    a.incorrectAnswers a.answer

/-- The representation of that object. -/
def NewQuote.representation (a : NewQuote) (uuid quizID : UUID) : QuoteRepresentation where
  quoteID := uuid.uuidString
  firstPart := a.firstPart.getD ""
  secondPart := a.secondPart.getD ""
  answer := a.answer
  quizID := quizID.uuidString
  incorrectOptions := a.incorrectAnswers
  allOptions := a.incorrectAnswers ++ [a.answer]

/-- A new object has every attribute its representation asks for. -/
@[simp] theorem NewQuote.quoteRepresentation_object (a : NewQuote) (uuid quizID : UUID) :
    (a.object uuid quizID).quoteRepresentation = some (a.representation uuid quizID) := rfl

namespace Core

variable (c : Core)

/-- The state once `createQuote` has synchronised the user and inserted the object. -/
def withNewQuote (a : NewQuote) (quizID : UUID) : Core :=
  ({ c with quizController := c.quizController.syncUser }.initNewQuote quizID a.firstPart
    a.secondPart a.answer a.incorrectAnswers).1

/-- The outcome of the `put` that `createQuote` makes for quiz `quiz`. -/
def newQuotePut (a : NewQuote) (quizID : UUID) (env : Env) : Except NetworkingError Request :=
  (c.withNewQuote a quizID).quizController.quoteController.put
    (c.withNewQuote a quizID).world.context c.world.context.quotes.size quizID env.encodes

/-- What a call of `createQuote` can do. -/
inductive CreateQuoteCases (a : NewQuote) (env : Env) : Core → Prop where
  /-- no current quiz, or the current quiz has no id -/
  | skipped (h : ∀ quiz, c.quizController.quiz = some quiz → c.world.context.quizID quiz = none) :
      CreateQuoteCases a env c
  /-- sixteen quotes are there already -/
  | full {quiz quizID} (hquiz : c.quizController.quiz = some quiz)
      (hid : c.world.context.quizID quiz = some quizID)
      (hcount : 16 ≤ c.quizController.quotes.count) :
      CreateQuoteCases a env { c with quizController := c.quizController.syncUser }
  /-- `put` reports a failure -/
  | refused {quiz quizID e} (hquiz : c.quizController.quiz = some quiz)
      (hid : c.world.context.quizID quiz = some quizID)
      (hcount : c.quizController.quotes.count < 16)
      (hput : c.newQuotePut a quizID env = .error e) :
      CreateQuoteCases a env ((c.withNewQuote a quizID).refused e)
  /-- `put` reports success -/
  | added {quiz quizID r} (hquiz : c.quizController.quiz = some quiz)
      (hid : c.world.context.quizID quiz = some quizID)
      (hcount : c.quizController.quotes.count < 16)
      (hput : c.newQuotePut a quizID env = .ok r) :
      CreateQuoteCases a env ((c.withNewQuote a quizID).put (.ok r)
        (.createQuote quiz c.world.context.quotes.size) env.saves)

/-- `syncUser` copies the user to the inner controller and touches nothing else. -/
@[simp] theorem quotes_syncUser (q : QuizController) : q.syncUser.quotes = q.quotes := by
  unfold QuizController.syncUser; split <;> rfl
@[simp] theorem currentQuote_syncUser (q : QuizController) :
    q.syncUser.currentQuote = q.currentQuote := by
  unfold QuizController.syncUser; split <;> rfl
@[simp] theorem quiz_syncUser (q : QuizController) : q.syncUser.quiz = q.quiz := by
  unfold QuizController.syncUser; split <;> rfl
@[simp] theorem user_syncUser (q : QuizController) : q.syncUser.user = q.user := by
  unfold QuizController.syncUser; split <;> rfl

@[simp] theorem baseURL_syncUser (q : QuizController) : q.syncUser.baseURL = q.baseURL := by
  unfold QuizController.syncUser; split <;> rfl

@[simp] theorem quoteController_quotes_syncUser (q : QuizController) :
    q.syncUser.quoteController.quotes = q.quoteController.quotes := by
  unfold QuizController.syncUser; split <;> rfl
@[simp] theorem quoteController_currentQuote_syncUser (q : QuizController) :
    q.syncUser.quoteController.currentQuote = q.quoteController.currentQuote := by
  unfold QuizController.syncUser; split <;> rfl

/-- Afterwards the inner controller has the user of the outer one. -/
@[simp] theorem quoteController_user_syncUser (q : QuizController) :
    q.syncUser.quoteController.user = q.user := by
  unfold QuizController.syncUser
  split
  · rfl
  · next h => exact not_not.mp h

@[simp] theorem quoteController_baseURL_syncUser (q : QuizController) :
    q.syncUser.quoteController.baseURL = q.quoteController.baseURL := by
  unfold QuizController.syncUser
  split <;> rfl

/-- **createQuote** does one of these things. -/
theorem createQuote_cases (a : NewQuote) (env : Env) :
    c.CreateQuoteCases a env
      (c.createQuote a.firstPart a.secondPart a.answer a.incorrectAnswers env) := by
  unfold createQuote
  cases hquiz : c.quizController.quiz with
  | none => exact .skipped fun quiz h => by rw [hquiz] at h; cases h
  | some quiz =>
    simp only
    cases hid : c.world.context.quizID quiz with
    | none =>
      refine .skipped fun quiz' h => ?_
      rw [hquiz] at h
      cases h
      exact hid
    | some quizID =>
      simp only [quotes_syncUser]
      split
      · next hcount =>
        show c.CreateQuoteCases a env ((c.withNewQuote a quizID).put
          (c.newQuotePut a quizID env) (.createQuote quiz c.world.context.quotes.size) env.saves)
        cases hput : c.newQuotePut a quizID env with
        | error e =>
          rw [put_error]
          exact .refused hquiz hid hcount hput
        | ok r => exact .added hquiz hid hcount hput
      · next hcount => exact .full hquiz hid (Nat.le_of_not_lt hcount)

section WithNewQuote

variable (a : NewQuote) (quizID : UUID)

/-- Synchronising the user is all that happens to the controllers. -/
@[simp] theorem quizController_withNewQuote :
    (c.withNewQuote a quizID).quizController = c.quizController.syncUser := rfl

/-- The object is the newest of the context. -/
@[simp] theorem context_withNewQuote :
    (c.withNewQuote a quizID).world.context =
      { c.world.context with
        quotes :=
          c.world.context.quotes.alloc (a.object (c.world.uuids.next c.world.drawn) quizID) } :=
  rfl

/-- Its id is the UUID drawn for it. -/
@[simp] theorem drawn_withNewQuote :
    (c.withNewQuote a quizID).world.drawn = c.world.drawn + 1 := rfl

@[simp] theorem uuids_withNewQuote :
    (c.withNewQuote a quizID).world.uuids = c.world.uuids := rfl

@[simp] theorem tasks_withNewQuote :
    (c.withNewQuote a quizID).world.tasks = c.world.tasks := rfl

@[simp] theorem store_withNewQuote :
    (c.withNewQuote a quizID).world.coreData.store = c.world.coreData.store := rfl

/-- The history has it as the initialiser left it. -/
@[simp] theorem created_withNewQuote :
    (c.withNewQuote a quizID).world.created =
      c.world.created ++ [a.object (c.world.uuids.next c.world.drawn) quizID] := rfl

@[simp] theorem failures_withNewQuote :
    (c.withNewQuote a quizID).world.failures = c.world.failures := rfl

@[simp] theorem logIn_withNewQuote : (c.withNewQuote a quizID).logIn = c.logIn := rfl

@[simp] theorem userController_withNewQuote :
    (c.withNewQuote a quizID).userController = c.userController := rfl

end WithNewQuote

section AddQuote

variable (r : Request) (quiz quote : ObjectID) (saves : Bool)

/-- The successful `put` of a quote writes the dictionary at key `count + 1`. -/
@[simp] theorem quizController_put_createQuote :
    (c.put (.ok r) (.createQuote quiz quote) saves).quizController =
      { c.quizController with
        quotes := Finmap.insert ((c.quizController.quotes.count : Int) + 1) quote
          c.quizController.quotes } := rfl

@[simp] theorem userController_put_createQuote :
    (c.put (.ok r) (.createQuote quiz quote) saves).userController = c.userController := rfl

/-- The handler links the quote before it saves. -/
theorem context_put_createQuote :
    (c.put (.ok r) (.createQuote quiz quote) saves).world.context =
      ((c.world.setContext (c.world.context.addToQuotes quiz quote)).save saves).context := rfl

/-- Where the save succeeds, the link stays. -/
@[simp] theorem context_put_createQuote_true :
    (c.put (.ok r) (.createQuote quiz quote) true).world.context =
      c.world.context.addToQuotes quiz quote := rfl

@[simp] theorem drawn_put_createQuote :
    (c.put (.ok r) (.createQuote quiz quote) saves).world.drawn = c.world.drawn := rfl

@[simp] theorem uuids_put_createQuote :
    (c.put (.ok r) (.createQuote quiz quote) saves).world.uuids = c.world.uuids := rfl

/-- The data task is resumed after the handler has returned. -/
@[simp] theorem tasks_put_createQuote :
    (c.put (.ok r) (.createQuote quiz quote) saves).world.tasks =
      c.world.tasks ++ [⟨r, .createQuote quiz quote⟩] := rfl

@[simp] theorem created_put_createQuote :
    (c.put (.ok r) (.createQuote quiz quote) saves).world.created = c.world.created := rfl

end AddQuote

-- ---------------------------------------------------------------------------
-- createEmptyQuiz
-- ---------------------------------------------------------------------------

/-- The object `createEmptyQuiz` inserts: half-initialised when the creator has no id. -/
def emptyQuizObject (title : String) (creator : ObjectID) (env : Env) : Quiz :=
  match (c.world.context.users.get? creator).bind User.id with
  | none => {}
  | some creatorID =>
    .fresh (c.world.uuids.next c.world.drawn) title creator creatorID env.now

/-- The state once `createEmptyQuiz` has inserted the object. -/
def withEmptyQuiz (title : String) (creator : ObjectID) (env : Env) : Core :=
  (c.initEmptyQuiz title creator env).1

/-- The outcome of the `put` that `createEmptyQuiz` makes. -/
def emptyQuizPut (title : String) (creator : ObjectID) (env : Env) :
    Except NetworkingError Request :=
  (c.withEmptyQuiz title creator env).quizController.put
    (c.withEmptyQuiz title creator env).world.context c.world.context.quizzes.size env

/-- What a call of `createEmptyQuiz` can do. -/
inductive CreateEmptyQuizCases (env : Env) : Core → Prop where
  /-- no title, or no user -/
  | skipped (h : c.quizController.title = none ∨ c.quizController.user = none) :
      CreateEmptyQuizCases env c
  /-- `put` reports a failure -/
  | refused {title creator e} (htitle : c.quizController.title = some title)
      (huser : c.quizController.user = some creator)
      (hput : c.emptyQuizPut title creator env = .error e) :
      CreateEmptyQuizCases env ((c.withEmptyQuiz title creator env).refused e)
  /-- `put` reports success -/
  | added {title creator r} (htitle : c.quizController.title = some title)
      (huser : c.quizController.user = some creator)
      (hput : c.emptyQuizPut title creator env = .ok r) :
      CreateEmptyQuizCases env ((c.withEmptyQuiz title creator env).put (.ok r)
        (.createEmptyQuiz creator c.world.context.quizzes.size) env.saves)

section WithEmptyQuiz

variable (title : String) (creator : ObjectID) (env : Env)

/-- The new quiz has the next free number. -/
theorem initEmptyQuiz_snd :
    (c.initEmptyQuiz title creator env).2 = c.world.context.quizzes.size := by
  unfold initEmptyQuiz World.initQuiz
  cases (c.world.context.users.get? creator).bind User.id <;> rfl

/-- It becomes the current quiz, whatever its `put` will report. -/
@[simp] theorem quizController_withEmptyQuiz :
    (c.withEmptyQuiz title creator env).quizController =
      { c.quizController with quiz := some c.world.context.quizzes.size } := by
  rw [← c.initEmptyQuiz_snd title creator env]
  rfl

/-- The object is in the context from then on. -/
@[simp] theorem context_withEmptyQuiz :
    (c.withEmptyQuiz title creator env).world.context =
      { c.world.context with
        quizzes := c.world.context.quizzes.alloc (c.emptyQuizObject title creator env) } := by
  unfold withEmptyQuiz initEmptyQuiz World.initQuiz emptyQuizObject
  cases (c.world.context.users.get? creator).bind User.id <;> rfl

/-- Only an initialiser that finds the creator's id draws a UUID. -/
theorem drawn_withEmptyQuiz :
    (c.withEmptyQuiz title creator env).world.drawn =
      if ((c.world.context.users.get? creator).bind User.id).isSome then c.world.drawn + 1
      else c.world.drawn := by
  unfold withEmptyQuiz initEmptyQuiz World.initQuiz
  cases (c.world.context.users.get? creator).bind User.id <;> rfl

section WithID

variable {creator : ObjectID} {creatorID : UUID}
  (hid : (c.world.context.users.get? creator).bind User.id = some creatorID)
include hid

/-- When the creator has an id the initialiser does not return early. -/
theorem emptyQuizObject_of_id :
    c.emptyQuizObject title creator env =
      .fresh (c.world.uuids.next c.world.drawn) title creator creatorID env.now := by
  rw [emptyQuizObject, hid]

/-- With that id one UUID is drawn. -/
theorem drawn_withEmptyQuiz_of_id :
    (c.withEmptyQuiz title creator env).world.drawn = c.world.drawn + 1 := by
  rw [drawn_withEmptyQuiz, hid]
  rfl

/-- The completion handler attaches a new quiz to the creator it has already. -/
theorem addToQuizzesCreated_withEmptyQuiz :
    (c.withEmptyQuiz title creator env).world.context.addToQuizzesCreated creator
        c.world.context.quizzes.size =
      (c.withEmptyQuiz title creator env).world.context := by
  rw [context_withEmptyQuiz, emptyQuizObject_of_id c title env hid]
  unfold Context.addToQuizzesCreated
  rw [Heap.modify_eq_self (Heap.get?_alloc_self ..) rfl]

end WithID

/-- A new quiz with an id has the one just drawn. -/
theorem id_emptyQuizObject {title : String} {creator : ObjectID} {env : Env} {id : UUID}
    (h : (c.emptyQuizObject title creator env).id = some id) :
    id = c.world.uuids.next c.world.drawn ∧
      (c.withEmptyQuiz title creator env).world.drawn = c.world.drawn + 1 := by
  rw [drawn_withEmptyQuiz]
  unfold emptyQuizObject at h
  cases hcreator : (c.world.context.users.get? creator).bind User.id with
  | none =>
    rw [hcreator] at h
    cases h
  | some creatorID =>
    rw [hcreator] at h
    cases h
    exact ⟨rfl, rfl⟩

@[simp] theorem uuids_withEmptyQuiz :
    (c.withEmptyQuiz title creator env).world.uuids = c.world.uuids := by
  unfold withEmptyQuiz initEmptyQuiz World.initQuiz
  cases (c.world.context.users.get? creator).bind User.id <;> rfl

@[simp] theorem tasks_withEmptyQuiz :
    (c.withEmptyQuiz title creator env).world.tasks = c.world.tasks := by
  unfold withEmptyQuiz initEmptyQuiz World.initQuiz
  cases (c.world.context.users.get? creator).bind User.id <;> rfl

@[simp] theorem store_withEmptyQuiz :
    (c.withEmptyQuiz title creator env).world.coreData.store = c.world.coreData.store := by
  unfold withEmptyQuiz initEmptyQuiz World.initQuiz
  cases (c.world.context.users.get? creator).bind User.id <;> rfl

@[simp] theorem created_withEmptyQuiz :
    (c.withEmptyQuiz title creator env).world.created = c.world.created := by
  unfold withEmptyQuiz initEmptyQuiz World.initQuiz
  cases (c.world.context.users.get? creator).bind User.id <;> rfl

@[simp] theorem failures_withEmptyQuiz :
    (c.withEmptyQuiz title creator env).world.failures = c.world.failures := by
  unfold withEmptyQuiz initEmptyQuiz World.initQuiz
  cases (c.world.context.users.get? creator).bind User.id <;> rfl

@[simp] theorem logIn_withEmptyQuiz : (c.withEmptyQuiz title creator env).logIn = c.logIn := rfl

@[simp] theorem userController_withEmptyQuiz :
    (c.withEmptyQuiz title creator env).userController = c.userController := rfl

end WithEmptyQuiz

/-- **createEmptyQuiz** does one of these things. -/
theorem createEmptyQuiz_cases (env : Env) :
    c.CreateEmptyQuizCases env (c.createEmptyQuiz env) := by
  unfold createEmptyQuiz
  cases htitle : c.quizController.title with
  | none => exact .skipped (.inl htitle)
  | some title =>
    cases huser : c.quizController.user with
    | none => exact .skipped (.inr huser)
    | some creator =>
      simp only
      rw [c.initEmptyQuiz_snd]
      show c.CreateEmptyQuizCases env ((c.withEmptyQuiz title creator env).put
        (c.emptyQuizPut title creator env) _ env.saves)
      cases hput : c.emptyQuizPut title creator env with
      | error e =>
        rw [put_error]
        exact .refused htitle huser hput
      | ok r => exact .added htitle huser hput

section AddQuiz

variable (r : Request) (creator quiz : ObjectID) (saves : Bool)

@[simp] theorem quizController_put_createEmptyQuiz :
    (c.put (.ok r) (.createEmptyQuiz creator quiz) saves).quizController = c.quizController :=
  rfl

@[simp] theorem logIn_put_createEmptyQuiz :
    (c.put (.ok r) (.createEmptyQuiz creator quiz) saves).logIn = c.logIn := rfl

@[simp] theorem userController_put_createEmptyQuiz :
    (c.put (.ok r) (.createEmptyQuiz creator quiz) saves).userController = c.userController :=
  rfl

/-- The handler attaches the quiz to its creator before it saves. -/
theorem context_put_createEmptyQuiz :
    (c.put (.ok r) (.createEmptyQuiz creator quiz) saves).world.context =
      ((c.world.setContext (c.world.context.addToQuizzesCreated creator quiz)).save
        saves).context := rfl

/-- Where the save succeeds, the quiz stays attached. -/
@[simp] theorem context_put_createEmptyQuiz_true :
    (c.put (.ok r) (.createEmptyQuiz creator quiz) true).world.context =
      c.world.context.addToQuizzesCreated creator quiz := rfl

@[simp] theorem drawn_put_createEmptyQuiz :
    (c.put (.ok r) (.createEmptyQuiz creator quiz) saves).world.drawn = c.world.drawn := rfl

@[simp] theorem uuids_put_createEmptyQuiz :
    (c.put (.ok r) (.createEmptyQuiz creator quiz) saves).world.uuids = c.world.uuids := rfl

@[simp] theorem tasks_put_createEmptyQuiz :
    (c.put (.ok r) (.createEmptyQuiz creator quiz) saves).world.tasks =
      c.world.tasks ++ [⟨r, .createEmptyQuiz creator quiz⟩] := rfl

@[simp] theorem created_put_createEmptyQuiz :
    (c.put (.ok r) (.createEmptyQuiz creator quiz) saves).world.created = c.world.created := rfl

end AddQuiz

-- ---------------------------------------------------------------------------
-- The cursor
-- ---------------------------------------------------------------------------

/-- Next moves the cursor of the dictionary and does nothing else. -/
theorem step_moveToNextQuote :
    ∃ cursor, c.step .moveToNextQuote = { c with quizController.currentQuote := cursor } := by
  simp only [step, QuizController.moveToNextQuote]
  split
  · exact ⟨_, rfl⟩
  · exact ⟨c.quizController.currentQuote, rfl⟩

/-- So does Prev. -/
theorem step_moveToPrevQuote :
    ∃ cursor, c.step .moveToPrevQuote = { c with quizController.currentQuote := cursor } := by
  simp only [step, QuizController.moveToPrevQuote]
  split
  · exact ⟨_, rfl⟩
  · exact ⟨c.quizController.currentQuote, rfl⟩

/-- So does the next quote of a play. -/
theorem step_nextQuoteToDisplay :
    ∃ cursor, c.step .nextQuoteToDisplay = { c with quizController.currentQuote := cursor } := by
  simp only [step, QuizController.nextQuoteToDisplay]
  split
  · exact ⟨_, rfl⟩
  · exact ⟨c.quizController.currentQuote, rfl⟩

end Core

end KnowTheQuote
