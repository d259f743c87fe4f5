import KnowTheQuote.Model.LogIn

/-!
# Know the Quote — the end of a data task

What the closure of a `put`'s data task does. It hands a transport error to the
completion handler and does nothing with a response, whatever its status is. The
handler has been called before the task was resumed, so `putCalls` lists all the
calls that one `put` makes of it.

`Connection` runs the controllers together with the server and lets the data tasks
end at any time and in any order.

Assumed of Firebase: it has carried out a request exactly when it answers with a
status of the 2xx class.
-/

namespace KnowTheQuote

/-- How a data task ends. -/
inductive TaskEnd where
  | transportError
  /-- a response, with the `statusCode` if it is an `HTTPURLResponse` -/
  | response (statusCode : Option Int)
deriving DecidableEq, Repr

/-- The server has accepted the request. -/
def TaskEnd.accepted : TaskEnd → Bool
  | .transportError | .response none => false
  | .response (some code) => 200 ≤ code && code < 300

/-- What the closure of the data task hands to the completion handler. -/
def TaskEnd.results : TaskEnd → List (Except NetworkingError Representation)
  | .transportError => [.error .notAddedToFirebase]
  | .response _ => []

/-- Every call that a `put` makes of its completion handler: one before the data task is
resumed, and those of the closure, if there is a task. -/
def putCalls (outcome : Except NetworkingError Request) (e : TaskEnd) :
    List (Except NetworkingError Representation) :=
  match outcome with
  | .error failure => [.error failure]
  | .ok request => .ok request.body :: e.results

/-- Data task number `index` ends. -/
def Core.taskEnded (c : Core) (index : Nat) : TaskEnd → Core
  | .transportError => c.step (.taskFailed index)
  | .response _ => c

-- ---------------------------------------------------------------------------
-- The controllers and the server
-- ---------------------------------------------------------------------------

/-- The controllers, the server, and the numbers of the data tasks that have ended. -/
structure Connection where
  core : Core
  server : Document
  ended : List Nat := []

/-- What can happen. -/
inductive ConnectionEvent where
  | operation (op : Operation)
  /-- data task number `index` ends -/
  | taskEnded (index : Nat) (e : TaskEnd)

/-- The data task is in flight. -/
def Connection.inFlight (s : Connection) (index : Nat) : Option Task :=
  if index ∈ s.ended then none else s.core.world.tasks[index]?

/-- One event; a task ends once. -/
def Connection.step (s : Connection) : ConnectionEvent → Connection
  | .operation op => { s with core := s.core.step op }
  | .taskEnded index e =>
    match s.inFlight index with
    | none => s
    | some task =>
      { core := s.core.taskEnded index e
        server := if e.accepted then serve s.server [task.request] else s.server
        ended := s.ended ++ [index] }

/-- No request is in flight. -/
def Connection.Idle (s : Connection) : Prop :=
  ∀ index < s.core.world.tasks.length, s.inFlight index = none

instance (s : Connection) : Decidable s.Idle :=
  inferInstanceAs (Decidable (∀ index < s.core.world.tasks.length, s.inFlight index = none))

end KnowTheQuote
