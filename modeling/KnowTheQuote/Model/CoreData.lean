import Mathlib.Data.Rat.Defs
import KnowTheQuote.Library.Heap
import KnowTheQuote.Library.Collections

/-!
# Know the Quote — managed objects and their context

The Core Data side of the app: the three entities of `KnowTheQuote.xcdatamodel`,
the one managed object context every controller works in
(`CoreDataStack.shared.mainContext`), and the persistent store behind it.

Managed objects are references. An `ObjectID` names an object of the context,
and reading an attribute goes through the context; an object the context has
forgotten (after `reset`) reads as `nil`. Of a relationship only the to-one end
is stored: Core Data maintains the inverse, so `quiz.quotes` is the set of quotes
whose `quiz` is that quiz, and `user.quizzesCreated` the set of quizzes whose
`creator` is that user.

Assumed of Core Data: a fetch sees the pending inserts of the context
(`includesPendingChanges` is on by default) and returns its objects in no
particular order; a save writes the whole context; `reset` forgets every object
of the context, and a later fetch brings in the saved ones as new objects.
-/

namespace KnowTheQuote

/-- Identity of a managed object, as `===` and the `NSObject` hash see it. -/
abbrev ObjectID := Nat

/-- A point in time, as the number it is encoded to: the seconds since the reference date, by
the exact value of the `Double` that holds them. -/
abbrev Date := ℚ

/-- A UUID, by its canonical string. -/
structure UUID where
  uuidString : String
deriving DecidableEq, Repr

/-- The values successive calls of `UUID()` return: no two are equal. -/
structure UUIDSource where
  next : Nat → UUID
  injective : Function.Injective next

theorem UUIDSource.uuidString_injective (uuids : UUIDSource) :
    Function.Injective fun n => (uuids.next n).uuidString := by
  intro m n heq
  exact uuids.injective (congrArg UUID.mk heq)

theorem repr_injective : Function.Injective Nat.repr := by
  intro m n h
  have hdigits := congrArg String.toList h
  rw [Nat.toList_repr, Nat.toList_repr] at hdigits
  rw [← Nat.ofDigitChars_ten_toDigits (n := m), hdigits, Nat.ofDigitChars_ten_toDigits]

/-- The source that numbers its UUIDs. -/
def UUIDSource.numbered : UUIDSource where
  next n := ⟨n.repr⟩
  injective _ _ h := repr_injective (UUID.mk.inj h)

-- ---------------------------------------------------------------------------
-- Entities
-- ---------------------------------------------------------------------------

/-- Entity `User`; every attribute of the model is optional, `coins` is a scalar. -/
structure User where
  id : Option UUID := none
  username : Option String := none
  password : Option String := none
  signupDate : Option Date := none
  coins : Int16 := 0
deriving DecidableEq

/-- Entity `Quiz`. -/
structure Quiz where
  id : Option UUID := none
  title : Option String := none
  dateCreated : Option Date := none
  creatorID : Option String := none
  hasBeenReported : Bool := false
  creator : Option ObjectID := none
deriving DecidableEq

/-- Entity `Quote`. -/
structure Quote where
  quoteID : Option String := none
  firstPart : Option String := none
  secondPart : Option String := none
  answer : Option String := none
  quizID : Option String := none
  incorrectOptions : Option (List String) := none
  allOptions : Option (List String) := none
  quiz : Option ObjectID := none
deriving DecidableEq

-- ---------------------------------------------------------------------------
-- Context and store
-- ---------------------------------------------------------------------------

/-- The objects of a managed object context. -/
structure Context where
  users : Heap User := {}
  quizzes : Heap Quiz := {}
  quotes : Heap Quote := {}
deriving DecidableEq

namespace Context

/-- `quiz.id` -/
def quizID (c : Context) (quiz : ObjectID) : Option UUID :=
  (c.quizzes.get? quiz).bind Quiz.id

/-- `quote.quizID` -/
def quizIDOf (c : Context) (quote : ObjectID) : Option String :=
  (c.quotes.get? quote).bind Quote.quizID

/-- `quiz.quotes`, the inverse of `quote.quiz`. -/
def quotesOf (c : Context) (quiz : ObjectID) : List ObjectID :=
  c.quotes.live.filter fun r => (c.quotes.get? r).bind Quote.quiz == some quiz

/-- `user.quizzesCreated`, the inverse of `quiz.creator`. -/
def quizzesCreatedOf (c : Context) (user : ObjectID) : List ObjectID :=
  c.quizzes.live.filter fun r => (c.quizzes.get? r).bind Quiz.creator == some user

/-- The quotes a fetch request finds; without a predicate it finds all of them. -/
def fetchQuotes (c : Context) (predicate : Option String) : List ObjectID :=
  c.quotes.live.filter fun r =>
    match predicate with
    | none => true
    | some quizIDString => c.quizIDOf r == some quizIDString

/-- The users a fetch request with `username == …` finds. -/
def fetchUsers (c : Context) (username : String) : List ObjectID :=
  c.users.live.filter fun r => (c.users.get? r).bind User.username == some username

/-- `quiz.addToQuotes(quote)` -/
def addToQuotes (c : Context) (quiz quote : ObjectID) : Context :=
  { c with quotes := c.quotes.modify quote fun q => { q with quiz := some quiz } }

/-- `user.addToQuizzesCreated(quiz)` -/
def addToQuizzesCreated (c : Context) (user quiz : ObjectID) : Context :=
  { c with quizzes := c.quizzes.modify quiz fun z => { z with creator := some user } }

/-- The context after `reset`, once the objects of `store` have been brought back
in: they are new objects, and their relationships follow them. -/
def reload (c store : Context) : Context where
  users := c.users.reload store.users id
  quizzes := c.quizzes.reload store.quizzes fun z =>
    { z with creator := z.creator.map (c.users.size + ·) }
  quotes := c.quotes.reload store.quotes fun q =>
    { q with quiz := q.quiz.map (c.quizzes.size + ·) }

end Context

/-- `CoreDataStack`: the main context and what the last successful save wrote. -/
structure CoreDataStack where
  context : Context := {}
  store : Context := {}
deriving DecidableEq

/-- `CoreDataStack.save(context:)`; a save that throws resets the context. -/
def CoreDataStack.save (s : CoreDataStack) (saves : Bool) : CoreDataStack :=
  if saves then { s with store := s.context }
  else
    let reloaded := s.context.reload s.store
    { context := reloaded, store := reloaded }

-- ---------------------------------------------------------------------------
-- Reading back
-- ---------------------------------------------------------------------------

section Lemmas

variable {c : Context}

theorem mem_quotesOf {quiz r : ObjectID} :
    r ∈ c.quotesOf quiz ↔ ∃ q, c.quotes.get? r = some q ∧ q.quiz = some quiz := by
  simp only [Context.quotesOf, List.mem_filter, Heap.mem_live, beq_iff_eq]
  constructor
  · rintro ⟨⟨q, hq⟩, hquiz⟩
    exact ⟨q, hq, by simpa [hq] using hquiz⟩
  · rintro ⟨q, hq, hquiz⟩
    exact ⟨⟨q, hq⟩, by simpa [hq] using hquiz⟩

theorem mem_quizzesCreatedOf {user r : ObjectID} :
    r ∈ c.quizzesCreatedOf user ↔ ∃ z, c.quizzes.get? r = some z ∧ z.creator = some user := by
  simp only [Context.quizzesCreatedOf, List.mem_filter, Heap.mem_live, beq_iff_eq]
  constructor
  · rintro ⟨⟨z, hz⟩, hcreator⟩
    exact ⟨z, hz, by simpa [hz] using hcreator⟩
  · rintro ⟨z, hz, hcreator⟩
    exact ⟨⟨z, hz⟩, by simpa [hz] using hcreator⟩

theorem mem_fetchUsers {username : String} {r : ObjectID} :
    r ∈ c.fetchUsers username ↔
      ∃ u, c.users.get? r = some u ∧ u.username = some username := by
  simp only [Context.fetchUsers, List.mem_filter, Heap.mem_live, beq_iff_eq]
  constructor
  · rintro ⟨⟨u, hu⟩, hname⟩
    exact ⟨u, hu, by simpa [hu] using hname⟩
  · rintro ⟨u, hu, hname⟩
    exact ⟨⟨u, hu⟩, by simpa [hu] using hname⟩

/-- Fetched quotes are objects of the context. -/
theorem lt_size_of_mem_fetchQuotes {p : Option String} {r : ObjectID}
    (h : r ∈ c.fetchQuotes p) : r < c.quotes.size := by
  obtain ⟨q, hq⟩ := Heap.mem_live.mp (List.mem_filter.mp h).1
  exact Heap.lt_size_of_get? hq

theorem nodup_quotesOf (c : Context) (quiz : ObjectID) : (c.quotesOf quiz).Nodup :=
  (Heap.nodup_live _).filter _

theorem nodup_quizzesCreatedOf (c : Context) (user : ObjectID) : (c.quizzesCreatedOf user).Nodup :=
  (Heap.nodup_live _).filter _

theorem nodup_fetchQuotes (c : Context) (p : Option String) : (c.fetchQuotes p).Nodup :=
  (Heap.nodup_live _).filter _

end Lemmas

end KnowTheQuote
