import Mathlib.Logic.Function.Basic
import KnowTheQuote.Library.Mail
import KnowTheQuote.Model.Codable
import KnowTheQuote.Model.LogIn

/-!
# Know the Quote — several devices and one account

`getUser` asks for one fixed username, so every installation of the app works on one
account. Each has a Core Data store and controllers of its own; their requests go to one
server, which carries each of them out at most once, at any time and in any order.

The request of a login is answered with what the server has at the moment, and the app reads
the answer at any later one. It makes users only when a login fails.
-/

namespace KnowTheQuote

/-- The devices, the server, and the requests on their way. -/
structure Fleet (ι : Type) where
  device : ι → Core
  server : Document
  mail : Mail ι Request := {}
  /-- history: what the server has answered logins with -/
  answers : List Body := []

/-- What can happen. -/
inductive FleetEvent (ι : Type) where
  | operation (i : ι) (op : Operation)
  /-- the app is launched again on a device -/
  | launch (i : ι)
  /-- request number `n` of those in flight reaches the server -/
  | arrives (n : Nat)
  /-- it never will -/
  | lost (n : Nat)
  /-- the server answers the request of a login -/
  | answered (body : Body)

namespace Fleet

variable {ι : Type}

/-- The app is launched on every device. -/
def start (w : ι → World) (server : Document) : Fleet ι where
  device i := .launch (w i).relaunch
  server := server

/-- The requests an operation sends. -/
def requests (c : Core) (op : Operation) : List Request :=
  ((c.step op).world.tasks.drop c.world.tasks.length).map Task.request

variable [DecidableEq ι]

/-- One event. -/
def step (s : Fleet ι) : FleetEvent ι → Fleet ι
  | .operation i op =>
    { s with
      device := Function.update s.device i ((s.device i).step op)
      mail := s.mail.send i (requests (s.device i) op) }
  | .launch i =>
    { s with device := Function.update s.device i (.launch (s.device i).world.relaunch) }
  | .arrives n =>
    { s with
      server := serve s.server (s.mail.inFlight[n]?.toList.map Prod.snd)
      mail := s.mail.arrive n }
  | .lost n => { s with mail := s.mail.lose n }
  | .answered body => { s with answers := s.answers ++ [body] }

end Fleet

/-- The login has ended with the given answer. -/
structure Response.IsAnswer (r : Response) (uuids : UUIDReader) (body : Body) : Prop where
  error : r.error = false
  statusCode : r.statusCode = some 200
  data : r.data = some (UserRepresentation.decode uuids body)

/-- Every login ends with an answer, and nothing but a failed login makes users. -/
def Fleet.Admits {ι : Type} (uuids : UUIDReader) (s : Fleet ι) : FleetEvent ι → Prop
  | .operation _ (.getUser r _) => ∃ body ∈ s.answers, r.IsAnswer uuids body
  | .operation _ (.createUser ..) => False
  | .answered body => Answers s.server ["users", logInUsername] body
  | _ => True

end KnowTheQuote
