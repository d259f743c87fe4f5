import KnowTheQuote.Library.JSON
import KnowTheQuote.Model.Network

/-!
# Know the Quote — encoding and decoding

The bodies `JSONEncoder` makes of the representations and `JSONDecoder` makes
representations of. The conformances are the synthesised ones: the keys are the names of
the properties, an optional property may be missing or null, and other keys are ignored.
A decoder that throws is `none`, since `fetch` only logs which error it was.

Assumed of Firebase: a GET of `<path>.json` is answered with a document for what is stored
below `<path>`, in the form `JSON.Answers` describes; for nothing that is `null`.
-/

namespace KnowTheQuote

/-- The body of a request or of a response. -/
abbrev Body := JSON String JSONValue

/-- `UUID(uuidString:)`; it reads what `uuidString` writes. -/
structure UUIDReader where
  read : String → Option UUID
  read_uuidString : ∀ id : UUID, read id.uuidString = some id

/-- A reader for the UUIDs of the model. -/
def UUIDReader.lenient : UUIDReader := ⟨fun s => some ⟨s⟩, fun _ => rfl⟩

namespace Body

def string (s : String) : Body := .scalar (.string s)
def number (n : ℚ) : Body := .scalar (.number n)
def bool (b : Bool) : Body := .scalar (.bool b)

/-- `decode(String.self)` -/
def decodeString : Body → Option String
  | .scalar (.string s) => some s
  | _ => none

/-- `decode(Date.self)`; the encoder writes a `Double` so that it reads back as it was. -/
def decodeDate : Body → Option Date
  | .scalar (.number n) => some n
  | _ => none

/-- `decode(Int16.self)`; a fraction and a number out of range do not decode. -/
def decodeInt16 : Body → Option Int16
  | .scalar (.number n) =>
    if n.den = 1 ∧ Int16.minValue.toInt ≤ n.num ∧ n.num ≤ Int16.maxValue.toInt then
      some (Int16.ofInt n.num)
    else none
  | _ => none

/-- `decode(Bool.self)` -/
def decodeBool : Body → Option Bool
  | .scalar (.bool b) => some b
  | _ => none

/-- `decode(UUID.self)` -/
def decodeUUID (uuids : UUIDReader) (body : Body) : Option UUID :=
  body.decodeString.bind uuids.read

/-- `decode([Element].self)` -/
def decodeArray {β : Type} (element : Body → Option β) : Body → Option (List β)
  | .array elements => elements.mapM element
  | _ => none

/-- `decodeIfPresent` -/
def decodeIfPresent {β : Type} (value : Body → Option β) : Body → Option (Option β)
  | .null => some none
  | body => (value body).map some

end Body

-- ---------------------------------------------------------------------------
-- Encoding
-- ---------------------------------------------------------------------------

/-- `JSONEncoder().encode(userRep)` -/
def UserRepresentation.encode (r : UserRepresentation) : Body :=
  .object <|
    [("id", Body.string r.id.uuidString), ("signupDate", Body.number r.signupDate),
      ("username", Body.string r.username), ("password", Body.string r.password),
      ("coins", Body.number r.coins.toInt)] ++
    (r.quizesCreatedIDs.map fun ids =>
      ("quizesCreatedIDs", JSON.array (ids.map Body.string))).toList

/-- `JSONEncoder().encode(quoteRep)` -/
def QuoteRepresentation.encode (r : QuoteRepresentation) : Body :=
  .object
    [("quoteID", Body.string r.quoteID), ("firstPart", Body.string r.firstPart),
      ("secondPart", Body.string r.secondPart), ("answer", Body.string r.answer),
      ("quizID", Body.string r.quizID),
      ("incorrectOptions", .array (r.incorrectOptions.map Body.string)),
      ("allOptions", .array (r.allOptions.map Body.string))]

/-- `JSONEncoder().encode(quizRep)` -/
def QuizRepresentation.encode (r : QuizRepresentation) : Body :=
  .object
    [("id", Body.string r.id.uuidString), ("title", Body.string r.title),
      ("dateCreated", Body.number r.dateCreated), ("creatorID", Body.string r.creatorID),
      ("quotes", .array (r.quotes.map QuoteRepresentation.encode)),
      ("hasBeenReported", Body.bool r.hasBeenReported)]

-- ---------------------------------------------------------------------------
-- Decoding
-- ---------------------------------------------------------------------------

/-- `JSONDecoder().decode(UserRepresentation.self, from: data)` -/
def UserRepresentation.decode (uuids : UUIDReader) (body : Body) : Option UserRepresentation := do
  let id ← Body.decodeUUID uuids (body.get "id")
  let signupDate ← Body.decodeDate (body.get "signupDate")
  let username ← Body.decodeString (body.get "username")
  let password ← Body.decodeString (body.get "password")
  let coins ← Body.decodeInt16 (body.get "coins")
  let quizesCreatedIDs ← Body.decodeIfPresent (Body.decodeArray Body.decodeString)
    (body.get "quizesCreatedIDs")
  return { id, signupDate, username, password, coins, quizesCreatedIDs }

/-- `JSONDecoder().decode(QuoteRepresentation.self, from: data)` -/
def QuoteRepresentation.decode (body : Body) : Option QuoteRepresentation := do
  let quoteID ← Body.decodeString (body.get "quoteID")
  let firstPart ← Body.decodeString (body.get "firstPart")
  let secondPart ← Body.decodeString (body.get "secondPart")
  let answer ← Body.decodeString (body.get "answer")
  let quizID ← Body.decodeString (body.get "quizID")
  let incorrectOptions ← Body.decodeArray Body.decodeString (body.get "incorrectOptions")
  let allOptions ← Body.decodeArray Body.decodeString (body.get "allOptions")
  return { quoteID, firstPart, secondPart, answer, quizID, incorrectOptions, allOptions }

/-- `JSONDecoder().decode(QuizRepresentation.self, from: data)` -/
def QuizRepresentation.decode (uuids : UUIDReader) (body : Body) : Option QuizRepresentation := do
  let id ← Body.decodeUUID uuids (body.get "id")
  let title ← Body.decodeString (body.get "title")
  let dateCreated ← Body.decodeDate (body.get "dateCreated")
  let creatorID ← Body.decodeString (body.get "creatorID")
  let quotes ← Body.decodeArray QuoteRepresentation.decode (body.get "quotes")
  let hasBeenReported ← Body.decodeBool (body.get "hasBeenReported")
  return { id, title, dateCreated, creatorID, quotes, hasBeenReported }

-- ---------------------------------------------------------------------------
-- The server's answers
-- ---------------------------------------------------------------------------

/-- The server may answer a GET of `<path>.json` with the body. -/
def Answers (server : Document) (path : List String) (body : Body) : Prop :=
  JSON.Answers toString body (server.subtree path)

end KnowTheQuote
