import KnowTheQuote.Library.Run
import KnowTheQuote.Model.Network

/-!
# Know the Quote — the controllers

`KQController`, `UserController`, `QuizController` and `QuoteController`, as
functions on the one state `Core` they share: the fields of the four objects,
`LogInViewController.user`, and the app's surroundings. `Operation` lists what
the view controllers and the network make the controllers do, and `Core.step`
performs one operation.

A `put` calls its completion handler before its data task is resumed, and may
call it again when the task ends with a transport error. `Core.put` is the first
of these two moments, the operation `taskFailed` the second.
-/

namespace KnowTheQuote

-- ---------------------------------------------------------------------------
-- Object initialisers
-- ---------------------------------------------------------------------------

/-- A user as `User(username:password:context:)` leaves it. -/
def User.fresh (id : UUID) (username password : String) (now : Date) : User :=
  { id := some id, signupDate := some now, coins := 250,
    username := some username, password := some password }

/-- A quiz as `Quiz(title:creator:context:)` leaves it, given the creator's id. -/
def Quiz.fresh (id : UUID) (title : String) (creator : ObjectID) (creatorID : UUID)
    (now : Date) : Quiz :=
  { id := some id, dateCreated := some now, hasBeenReported := false,
    creatorID := some creatorID.uuidString, title := some title, creator := some creator }

/-- A quote as `Quote(quizID:firstPart:secondPart:incorrectOptions:answer:context:)`
leaves it. -/
def Quote.fresh (uuid : UUID) (quizID firstPart secondPart : String)
    (incorrectOptions : List String) (answer : String) : Quote :=
  { incorrectOptions := some incorrectOptions, quoteID := some uuid.uuidString,
    quizID := some quizID, firstPart := some firstPart, secondPart := some secondPart,
    answer := some answer, allOptions := some (incorrectOptions ++ [answer]) }

namespace World

/-- `User(username:password:context:)`, with the object's number. -/
def initUser (w : World) (username password : String) (now : Date) : ObjectID × World :=
  let (id, w) := w.newUUID
  (w.context.users.size,
    w.setContext { w.context with
      users := w.context.users.alloc (.fresh id username password now) })

/-- `Quiz(title:creator:context:)`; without an id of the creator the initialiser
returns early and the new object keeps its default values. -/
def initQuiz (w : World) (title : String) (creator : ObjectID) (now : Date) : ObjectID × World :=
  let quiz := w.context.quizzes.size
  match (w.context.users.get? creator).bind User.id with
  | none => (quiz, w.setContext { w.context with quizzes := w.context.quizzes.alloc {} })
  | some creatorID =>
    let (id, w) := w.newUUID
    (quiz, w.setContext { w.context with
      quizzes := w.context.quizzes.alloc (.fresh id title creator creatorID now) })

/-- `Quote(quizID:firstPart:secondPart:incorrectOptions:answer:context:)` -/
def initQuote (w : World) (quizID firstPart secondPart : String)
    (incorrectOptions : List String) (answer : String) : ObjectID × World :=
  let (uuid, w) := w.newUUID
  let quote := Quote.fresh uuid quizID firstPart secondPart incorrectOptions answer
  (w.context.quotes.size,
    { w.setContext { w.context with quotes := w.context.quotes.alloc quote } with
      created := w.created ++ [quote] })

end World

-- ---------------------------------------------------------------------------
-- The controllers' fields
-- ---------------------------------------------------------------------------

structure QuoteController where
  baseURL : Option String
  user : Option ObjectID := none
  quotes : Dict Int ObjectID := ∅
  currentQuote : Int := 1

structure QuizController where
  baseURL : Option String
  user : Option ObjectID := none
  quoteController : QuoteController
  quiz : Option ObjectID := none
  title : Option String := none
  currentQuote : Int := 1
  quotes : Dict Int ObjectID := ∅

structure UserController where
  baseURL : Option String
  user : Option ObjectID := none

/-- The next launch of the app: a new context over the same store. -/
def World.relaunch (w : World) : World :=
  { w with
    coreData := { context := w.coreData.store, store := w.coreData.store }
    tasks := []
    commits := [] }

/-- The fields of the controllers, `LogInViewController.user`, and the surroundings. -/
structure Core where
  /-- `LogInViewController.user` -/
  logIn : Option ObjectID := none
  /-- `KQController.user` -/
  user : Option ObjectID := none
  userController : UserController
  quizController : QuizController
  world : World

/-- `KQController.baseURL` -/
def baseURL : String := "https://know-the-quote.firebaseio.com/"

/-- `KQController()`, in the given surroundings. -/
def Core.launch (world : World) : Core where
  userController := { baseURL := some baseURL }
  quizController := { baseURL := some baseURL, quoteController := { baseURL := some baseURL } }
  world := world

/-- The tail every `put` shares: the guard's failure, the encoder's, or the request. -/
def encodeRequest (request : Option Request) (encodes : Bool) :
    Except NetworkingError Request :=
  match request with
  | none => .error .noRepresentation
  | some r => if encodes then .ok r else .error .badEncode

/-- `user.username` -/
def Context.username (c : Context) (user : ObjectID) : Option String :=
  (c.users.get? user).bind User.username

-- ---------------------------------------------------------------------------
-- QuoteController
-- ---------------------------------------------------------------------------

namespace QuoteController

/-- `put(quote:quizID:)` up to the first call of its completion handler. -/
def put (self : QuoteController) (c : Context) (quote : ObjectID) (quizID : UUID)
    (encodes : Bool) : Except NetworkingError Request :=
  let request := do
    let _ ← self.baseURL
    let quoteRep ← (c.quotes.get? quote).bind Quote.quoteRepresentation
    let creator ← self.user
    let creatorUsername ← c.username creator
    return { path := ["users", creatorUsername, "quizzesCreated", quizID.uuidString,
               "quotes", quoteRep.quoteID],
             body := .quote quoteRep }
  encodeRequest request encodes

/-- `getAllQuotesOf(quiz:)`; a quiz without an id gives the request no predicate. -/
def getAllQuotesOf (self : QuoteController) (c : Context) (quiz : ObjectID)
    (fetch : FetchOutcome) : QuoteController × Option (Dict Int ObjectID) :=
  match fetch with
  | none => (self, none)
  | some order =>
    let found := order.apply (c.fetchQuotes ((c.quizID quiz).map UUID.uuidString))
    let (quotes, currentQuote) := Dict.fill self.quotes self.currentQuote found
    ({ self with quotes, currentQuote }, some quotes)

end QuoteController

-- ---------------------------------------------------------------------------
-- QuizController
-- ---------------------------------------------------------------------------

def quoteCountMin : Nat := 0
def quoteCountMax : Nat := 15
def currentQuoteMinIndex : Int := 1
def currentQuoteMaxIndex : Int := 14
def quizMinQuotes : Nat := 3
def quizMaxQuotes : Nat := 15

namespace QuizController

def syncUser (q : QuizController) : QuizController :=
  if q.quoteController.user ≠ q.user then { q with quoteController.user := q.user } else q

def resetCounter (q : QuizController) : QuizController :=
  { q with currentQuote := 1, quoteController.currentQuote := 1 }

def resetQuotesDictionary (q : QuizController) : QuizController :=
  { q with quotes := ∅, quoteController.quotes := ∅ }

def quizCanBeSaved (q : QuizController) : Bool :=
  q.quotes.count ≤ quizMaxQuotes && q.quotes.count ≥ quizMinQuotes

def canMoveToNext (q : QuizController) : Bool :=
  q.quotes.count ≤ quoteCountMax && q.currentQuote ≤ currentQuoteMaxIndex

def canMoveToPrev (q : QuizController) : Bool :=
  q.quotes.count != quoteCountMin && q.currentQuote > currentQuoteMinIndex

def moveToNextQuote (q : QuizController) : QuizController :=
  if q.canMoveToNext then { q with currentQuote := q.currentQuote + 1 } else q

def moveToPrevQuote (q : QuizController) : QuizController :=
  if q.canMoveToPrev then { q with currentQuote := q.currentQuote - 1 } else q

/-- `setupStart(quiz:)`, with the returned quote. -/
def setupStart (q : QuizController) (c : Context) (quiz : ObjectID) (fetch : FetchOutcome) :
    QuizController × Option ObjectID :=
  let q := q.resetCounter.resetQuotesDictionary.syncUser
  let (quoteController, fetched) := q.quoteController.getAllQuotesOf c quiz fetch
  let q := { q with quoteController }
  let q := match fetched with
    | some quotes => { q with quotes }
    | none => q
  let q := q.resetCounter
  (q, q.quotes.lookup q.currentQuote)

/-- `nextQuoteToDisplay()`, with the returned quote. -/
def nextQuoteToDisplay (q : QuizController) : QuizController × Option ObjectID :=
  if q.currentQuote < q.quotes.count then
    let q := { q with currentQuote := q.currentQuote + 1 }
    (q, q.quotes.lookup q.currentQuote)
  else (q, none)

/-- `put(quiz:)` up to the first call of its completion handler. -/
def put (self : QuizController) (c : Context) (quiz : ObjectID) (env : Env) :
    Except NetworkingError Request :=
  let request := do
    let _ ← self.baseURL
    let quizRep ← c.quizRepresentation quiz env.order
    let creator ← self.user
    let creatorUsername ← c.username creator
    return { path := ["users", creatorUsername, "quizzesCreated", quizRep.id.uuidString],
             body := .quiz quizRep }
  encodeRequest request env.encodes

end QuizController

-- ---------------------------------------------------------------------------
-- Completion handlers
-- ---------------------------------------------------------------------------

namespace Core

def setContext (c : Core) (ctx : Context) : Core := { c with world := c.world.setContext ctx }

/-- `CoreDataStack.shared.save(context:)` -/
def save (c : Core) (saves : Bool) : Core := { c with world := c.world.save saves }

/-- The save in the success branch of a completion handler. -/
def commit (c : Core) (saves : Bool) : Core :=
  { c.save saves with
    world.commits := c.world.commits ++
      if saves then [⟨c.world.coreData.store, c.world.context⟩] else [] }

/-- A call of a completion handler. Every handler only logs a failure. -/
def complete (c : Core) (saves : Bool) :
    Completion → Except NetworkingError Representation → Core
  | _, .error _ => c
  | .createUser, .ok _ => c.commit saves
  | .createEmptyQuiz creator quiz, .ok _ =>
    (c.setContext (c.world.context.addToQuizzesCreated creator quiz)).commit saves
  | .createQuote quiz quote, .ok _ =>
    let count : Int := c.quizController.quotes.count
    let c := { c with
      quizController.quotes := Finmap.insert (count + 1) quote c.quizController.quotes }
    (c.setContext (c.world.context.addToQuotes quiz quote)).commit saves

/-- The end of a `put`: the handler is called with the outcome; after a success
the data task is resumed. -/
def put (c : Core) (outcome : Except NetworkingError Request) (handler : Completion)
    (saves : Bool) : Core :=
  match outcome with
  | .error e =>
    let c := c.complete saves handler (.error e)
    { c with world.failures := c.world.failures ++ [e] }
  | .ok request =>
    let c := c.complete saves handler (.ok request.body)
    { c with world.tasks := c.world.tasks ++ [⟨request, handler⟩] }

end Core

-- ---------------------------------------------------------------------------
-- UserController and KQController
-- ---------------------------------------------------------------------------

/-- `put(user:)` up to the first call of its completion handler. -/
def UserController.put (self : UserController) (c : Context) (user : ObjectID) (env : Env) :
    Except NetworkingError Request :=
  let request := do
    let _ ← self.baseURL
    let userRep ← c.userRepresentation user env.order
    let username ← c.username user
    return { path := ["users", username], body := .user userRep }
  encodeRequest request env.encodes

/-- `getUserFromCD(username:)`: the first object found; `nil` when the fetch throws. -/
def getUserFromCD (c : Context) (username : String) (fetch : FetchOutcome) :
    Option ObjectID := do
  let order ← fetch
  (order.apply (c.fetchUsers username)).head?

namespace Core

/-- `UserController.createUser(username:password:context:)`, with the returned user. -/
def createUser (c : Core) (username password : String) (env : Env) : Core × ObjectID :=
  let (user, world) := c.world.initUser username password env.now
  let c := { c with userController.user := some user, world }
  (c.put (c.userController.put world.context user env) .createUser env.saves, user)

/-- `KQController.syncUser()` -/
def syncUser (c : Core) : Core :=
  if c.user ≠ c.userController.user ∨ c.quizController.user ≠ c.userController.user then
    { c with user := c.userController.user, quizController.user := c.userController.user }
  else c

/-- `KQController.createUserAndSync(username:password:context:)` -/
def createUserAndSync (c : Core) (username password : String) (env : Env) :
    Core × ObjectID :=
  let (c, user) := c.createUser username password env
  (c.syncUser, user)

-- ---------------------------------------------------------------------------
-- QuizController, the operations on the context
-- ---------------------------------------------------------------------------

/-- `createEmptyQuiz(context:)`: the new quiz, once it is the current one. -/
def initEmptyQuiz (c : Core) (title : String) (creator : ObjectID) (env : Env) :
    Core × ObjectID :=
  let (quiz, world) := c.world.initQuiz title creator env.now
  ({ c with quizController.quiz := some quiz, world }, quiz)

/-- `createEmptyQuiz(context:)` -/
def createEmptyQuiz (c : Core) (env : Env) : Core :=
  match c.quizController.title, c.quizController.user with
  | some title, some creator =>
    let (c, quiz) := c.initEmptyQuiz title creator env
    c.put (c.quizController.put c.world.context quiz env) (.createEmptyQuiz creator quiz)
      env.saves
  | _, _ => c

/-- `createQuote`: the new quote, once it has been inserted. -/
def initNewQuote (c : Core) (quizID : UUID) (firstPart secondPart : Option String)
    (answer : String) (incorrectAnswers : List String) : Core × ObjectID :=
  let (quote, world) := c.world.initQuote quizID.uuidString (firstPart.getD "")
    (secondPart.getD "") incorrectAnswers answer
  ({ c with world }, quote)

/-- `createQuote(firstPart:secondPart:answer:incorrectAnswers:context:)` -/
def createQuote (c : Core) (firstPart secondPart : Option String) (answer : String)
    (incorrectAnswers : List String) (env : Env) : Core :=
  match c.quizController.quiz with
  | none => c
  | some quiz =>
    match c.world.context.quizID quiz with
    | none => c
    | some quizID =>
      let c := { c with quizController := c.quizController.syncUser }
      if c.quizController.quotes.count < 16 then
        let (c, quote) := c.initNewQuote quizID firstPart secondPart answer incorrectAnswers
        c.put (c.quizController.quoteController.put c.world.context quote quizID env.encodes)
          (.createQuote quiz quote) env.saves
      else c

end Core

end KnowTheQuote
