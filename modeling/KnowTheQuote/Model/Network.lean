import KnowTheQuote.Library.PathTree
import KnowTheQuote.Model.CoreData

/-!
# Know the Quote — representations, requests and the server

What the app sends: the `Codable` representations of `Models/Representations`,
the documents `JSONEncoder` makes of them, and the PUT requests that carry them.

Assumed of Firebase: a PUT of `<path>.json` replaces the whole subtree at
`<path>`; the tree stores objects by key and arrays by index, and an empty array
leaves nothing behind. A username is one path component.
-/

namespace KnowTheQuote

/-- `NetworkingError`, the cases the code raises. -/
inductive NetworkingError where
  | noData
  | unexpectedStatusCode (code : Int)
  | badDecode
  | badEncode
  | notAddedToFirebase
  | noRepresentation
  | noBaseURL
deriving DecidableEq, Repr

-- ---------------------------------------------------------------------------
-- Representations
-- ---------------------------------------------------------------------------

structure UserRepresentation where
  id : UUID
  signupDate : Date
  username : String
  password : String
  coins : Int16
  quizesCreatedIDs : Option (List String)
deriving DecidableEq

structure QuoteRepresentation where
  quoteID : String
  firstPart : String
  secondPart : String
  answer : String
  quizID : String
  incorrectOptions : List String
  allOptions : List String
deriving DecidableEq

structure QuizRepresentation where
  id : UUID
  title : String
  dateCreated : Date
  creatorID : String
  quotes : List QuoteRepresentation
  hasBeenReported : Bool
deriving DecidableEq

/-- `Quote.quoteRepresentation` -/
def Quote.quoteRepresentation (q : Quote) : Option QuoteRepresentation := do
  let quoteID ← q.quoteID
  let first ← q.firstPart
  let second ← q.secondPart
  let answer ← q.answer
  let quizID ← q.quizID
  let allOptions ← q.allOptions
  let incorrectOptions ← q.incorrectOptions
  return { quoteID, firstPart := first, secondPart := second, answer, quizID,
           incorrectOptions, allOptions }

namespace Context

/-- `Quiz.quizRepresentation`; the loop over the set `quotes` goes in the order
`order` and skips a quote without a representation. -/
def quizRepresentation (c : Context) (quiz : ObjectID) (order : Reordering ObjectID) :
    Option QuizRepresentation := do
  let z ← c.quizzes.get? quiz
  let id ← z.id
  let title ← z.title
  let date ← z.dateCreated
  let creatorID ← z.creatorID
  let quotesReps := (order.apply (c.quotesOf quiz)).filterMap fun r =>
    (c.quotes.get? r).bind Quote.quoteRepresentation
  return { id, title, dateCreated := date, creatorID, quotes := quotesReps,
           hasBeenReported := z.hasBeenReported }

/-- `User.userRepresentation`; the loop over `quizzesCreated` skips a quiz
without an id. -/
def userRepresentation (c : Context) (user : ObjectID) (order : Reordering ObjectID) :
    Option UserRepresentation := do
  let u ← c.users.get? user
  let id ← u.id
  let username ← u.username
  let password ← u.password
  let signupDate ← u.signupDate
  let quizesIDs := (order.apply (c.quizzesCreatedOf user)).filterMap fun r =>
    (c.quizID r).map UUID.uuidString
  return { id, signupDate, username, password, coins := u.coins,
           quizesCreatedIDs := some quizesIDs }

end Context

-- ---------------------------------------------------------------------------
-- Documents
-- ---------------------------------------------------------------------------

/-- A primitive value of a JSON document. -/
inductive JSONValue where
  | string (s : String)
  | number (n : ℚ)
  | bool (b : Bool)
deriving DecidableEq, Repr

/-- A JSON document, and the state of the server: leaves by path. -/
abbrev Document := PathTree String JSONValue

namespace Document

def string (s : String) : Document := .leaf (.string s)
def number (n : ℚ) : Document := .leaf (.number n)
def bool (b : Bool) : Document := .leaf (.bool b)

/-- An array is stored by index. -/
def array (elements : List Document) : Document :=
  .object (elements.zipIdx.map fun e => (toString e.2, e.1))

end Document

/-- `JSONEncoder().encode(userRep)` -/
def UserRepresentation.document (r : UserRepresentation) : Document :=
  .object <|
    [("id", Document.string r.id.uuidString), ("signupDate", Document.number r.signupDate),
      ("username", Document.string r.username), ("password", Document.string r.password),
      ("coins", Document.number r.coins.toInt)] ++
    (r.quizesCreatedIDs.map fun ids =>
      ("quizesCreatedIDs", Document.array (ids.map Document.string))).toList

/-- `JSONEncoder().encode(quoteRep)` -/
def QuoteRepresentation.document (r : QuoteRepresentation) : Document :=
  .object
    [("quoteID", Document.string r.quoteID), ("firstPart", Document.string r.firstPart),
      ("secondPart", Document.string r.secondPart), ("answer", Document.string r.answer),
      ("quizID", Document.string r.quizID),
      ("incorrectOptions", Document.array (r.incorrectOptions.map Document.string)),
      ("allOptions", Document.array (r.allOptions.map Document.string))]

/-- `JSONEncoder().encode(quizRep)` -/
def QuizRepresentation.document (r : QuizRepresentation) : Document :=
  .object
    [("id", Document.string r.id.uuidString), ("title", Document.string r.title),
      ("dateCreated", Document.number r.dateCreated), ("creatorID", Document.string r.creatorID),
      ("quotes", Document.array (r.quotes.map QuoteRepresentation.document)),
      ("hasBeenReported", Document.bool r.hasBeenReported)]

/-- The body of a request. -/
inductive Representation where
  | user (r : UserRepresentation)
  | quiz (r : QuizRepresentation)
  | quote (r : QuoteRepresentation)
deriving DecidableEq

def Representation.document : Representation → Document
  | .user r => r.document
  | .quiz r => r.document
  | .quote r => r.document

-- ---------------------------------------------------------------------------
-- Requests and data tasks
-- ---------------------------------------------------------------------------

/-- A PUT of `<path>.json`. -/
structure Request where
  path : List String
  body : Representation
deriving DecidableEq

/-- The completion handler a `put` was given, with the objects it captured. -/
inductive Completion where
  /-- the closure in `UserController.createUser` -/
  | createUser
  /-- the closure in `QuizController.createEmptyQuiz` -/
  | createEmptyQuiz (creator quiz : ObjectID)
  /-- the closure in `QuizController.createQuote` -/
  | createQuote (quiz quote : ObjectID)
deriving DecidableEq

/-- A resumed data task: its request and the handler it may still call. -/
structure Task where
  request : Request
  completion : Completion
deriving DecidableEq

/-- The server after the given requests have reached it, in that order. -/
def serve (server : Document) (requests : List Request) : Document :=
  server.deliver (requests.map fun r => (r.path, r.body.document))

-- ---------------------------------------------------------------------------
-- The app's surroundings
-- ---------------------------------------------------------------------------

/-- `==` on `String`. It compares by the canonical equivalence of Unicode, so two texts can be
equal that differ in their code points; the model only says that it is an equivalence. -/
structure StringEquality where
  equal : String → String → Bool
  refl : ∀ a, equal a a
  symm : ∀ {a b}, equal a b → equal b a
  trans : ∀ {a b c}, equal a b → equal b c → equal a c

/-- `==` on `String?` -/
def StringEquality.optional (e : StringEquality) : Option String → Option String → Bool
  | some a, some b => e.equal a b
  | none, none => true
  | some _, none | none, some _ => false

/-- By code points, which is what `==` does on texts in ASCII. -/
def StringEquality.byCodePoints : StringEquality where
  equal a b := a == b
  refl a := beq_self_eq_true a
  symm h := beq_iff_eq.mpr (eq_of_beq h).symm
  trans h h' := beq_iff_eq.mpr ((eq_of_beq h).trans (eq_of_beq h'))

/-- A save that did not throw: what the store held before, and what was written. -/
structure Commit where
  before : Context
  after : Context
deriving DecidableEq

/-- Core Data, the UUIDs drawn so far and the data tasks resumed so far. -/
structure World where
  coreData : CoreDataStack := {}
  uuids : UUIDSource
  strings : StringEquality := .byCodePoints
  drawn : Nat := 0
  tasks : List Task := []
  /-- history: every quote the initialiser has made, as it left the initialiser -/
  created : List Quote := []
  /-- history: every save since the launch in the success branch of a completion handler -/
  commits : List Commit := []
  /-- history: every failure a `put` has reported before a data task -/
  failures : List NetworkingError := []
  /-- history: every result `UserController.fetch` has handed to its handler -/
  replies : List (Except NetworkingError (Option ObjectID)) := []

namespace World

def context (w : World) : Context := w.coreData.context

/-- `UUID()` -/
def newUUID (w : World) : UUID × World := (w.uuids.next w.drawn, { w with drawn := w.drawn + 1 })

def setContext (w : World) (c : Context) : World :=
  { w with coreData := { w.coreData with context := c } }

def save (w : World) (saves : Bool) : World := { w with coreData := w.coreData.save saves }

end World

/-- What the surroundings decide during one operation. -/
structure Env where
  /-- `JSONEncoder` does not throw -/
  encodes : Bool := true
  /-- the context's `save()` does not throw -/
  saves : Bool := true
  /-- `Date()` -/
  now : Date := 0
  /-- the enumeration order of a Core Data set -/
  order : Reordering ObjectID := .asIs

/-- An unsorted fetch: it throws (`none`), or returns its objects in some order. -/
abbrev FetchOutcome := Option (Reordering ObjectID)

end KnowTheQuote
