import KnowTheQuote.Model.Controllers

/-!
# Know the Quote — logging in

`UserController.fetch` and the handler `LogInViewController.getUser` gives it.
The closure of the data task looks at the error, the data and the response one
after the other without returning in between, so it calls the handler anything
from zero to three times; each call runs to its end before the next check.

`Operation` and `Core.step` collect what happens to the controllers in a run of
the app.
-/

namespace KnowTheQuote

/-- What the login data task hands to its closure. -/
structure Response where
  /-- the body, and the record it decodes to, if it does -/
  data : Option (Option UserRepresentation)
  /-- `statusCode` of the `HTTPURLResponse` -/
  statusCode : Option Int
  /-- an error is present -/
  error : Bool
deriving DecidableEq

/-- The surroundings of the up to three calls of the handler, and of the lookup
in the store. -/
structure LogInEnv where
  onError : Env := {}
  onData : Env := {}
  onStatus : Env := {}
  fetch : FetchOutcome := some .asIs

/-- A completion handler of `fetch`. -/
abbrev FetchHandler := Except NetworkingError (Option ObjectID) → Env → Core → Core

namespace Core

/-- `completion(result)` -/
def reply (c : Core) (completion : FetchHandler) (result : Except NetworkingError (Option ObjectID))
    (env : Env) : Core :=
  completion result env { c with world.replies := c.world.replies ++ [result] }

/-- `fetch`, the record `userRep` has been decoded: use the stored user, or make one. -/
def fetchDecoded (c : Core) (username password : String) (completion : FetchHandler)
    (userRep : UserRepresentation) (env : LogInEnv) : Core :=
  match getUserFromCD c.world.context userRep.username env.fetch with
  | some user =>
    let c := { c with userController.user := some user }
    c.reply completion (.ok c.userController.user) env.onData
  | none =>
    let (user, world) := c.world.initUser username password env.onData.now
    let c := { c with userController.user := some user, world }
    let c := c.save env.onData.saves
    c.reply completion (.ok c.userController.user) env.onData

/-- `fetch(username:password:)`, from the moment its data task ends. -/
def fetchCompleted (c : Core) (username password : String) (completion : FetchHandler)
    (r : Response) (env : LogInEnv) : Core :=
  let c := if r.error then c.reply completion (.error .noData) env.onError else c
  let c := match r.data with
    | none => c
    | some none => c.reply completion (.error .badDecode) env.onData
    | some (some userRep) => c.fetchDecoded username password completion userRep env
  match r.statusCode with
  | none => c
  | some code =>
    if code ≠ 200 then c.reply completion (.error (.unexpectedStatusCode code)) env.onStatus
    else c

/-- `fetch(username:password:)` -/
def fetch (c : Core) (username password : String) (completion : FetchHandler)
    (r : Response) (env : LogInEnv) : Core :=
  match c.userController.baseURL with
  | none => c.reply completion (.error .noBaseURL) env.onError
  | some _ => c.fetchCompleted username password completion r env

end Core

-- ---------------------------------------------------------------------------
-- LogInViewController
-- ---------------------------------------------------------------------------

/-- The username `getUser` asks for. -/
def logInUsername : String := "userOne"

/-- The password `getUser` gives. -/
def logInPassword : String := "pass"

/-- The handler `getUser` gives to `fetch`. -/
def getUserCompletion : FetchHandler
  | .ok user, _, c => { c with logIn := user }.syncUser
  | .error _, env, c =>
    let (c, user) := c.createUserAndSync logInUsername logInPassword env
    { c with logIn := some user }

/-- `getUser()`, up to the end of its data task. -/
def Core.getUser (c : Core) (r : Response) (env : LogInEnv) : Core :=
  c.fetch logInUsername logInPassword getUserCompletion r env

-- ---------------------------------------------------------------------------
-- Operations
-- ---------------------------------------------------------------------------

/-- What can happen to the controllers. -/
inductive Operation where
  /-- `UserController.createUser` -/
  | createUser (username password : String) (env : Env)
  /-- `KQController.syncUser` -/
  | syncUser
  /-- the data task of `LogInViewController.getUser` ends -/
  | getUser (r : Response) (env : LogInEnv)
  /-- `QuizController.title` is set -/
  | setTitle (title : Option String)
  | createEmptyQuiz (env : Env)
  | createQuote (firstPart secondPart : Option String) (answer : String)
      (incorrectAnswers : List String) (env : Env)
  | moveToNextQuote
  | moveToPrevQuote
  | setupStart (quiz : ObjectID) (fetch : FetchOutcome)
  | nextQuoteToDisplay
  /-- data task number `index` ends with a transport error -/
  | taskFailed (index : Nat)

/-- One operation. -/
def Core.step (c : Core) : Operation → Core
  | .createUser username password env => (c.createUser username password env).1
  | .syncUser => c.syncUser
  | .getUser r env => c.getUser r env
  | .setTitle title => { c with quizController.title := title }
  | .createEmptyQuiz env => c.createEmptyQuiz env
  | .createQuote firstPart secondPart answer incorrectAnswers env =>
    c.createQuote firstPart secondPart answer incorrectAnswers env
  | .moveToNextQuote => { c with quizController := c.quizController.moveToNextQuote }
  | .moveToPrevQuote => { c with quizController := c.quizController.moveToPrevQuote }
  | .setupStart quiz fetch =>
    { c with quizController := (c.quizController.setupStart c.world.context quiz fetch).1 }
  | .nextQuoteToDisplay => { c with quizController := c.quizController.nextQuoteToDisplay.1 }
  | .taskFailed index =>
    match c.world.tasks[index]? with
    | none => c
    | some task => c.complete true task.completion (.error .notAddedToFirebase)

end KnowTheQuote
