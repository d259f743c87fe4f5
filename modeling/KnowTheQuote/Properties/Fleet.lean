import KnowTheQuote.Model.Fleet
import KnowTheQuote.Properties.PutReports
import KnowTheQuote.Properties.RoundTrips

/-!
# Know the Quote — several devices and one account

Whatever erases quizzes on the server comes from a login that failed. Where the account
exists and the logins end with the server's answers, no device ever puts a user, so the
account and what is stored below it are safe from all of them.

* `Core.follows_step`, `Fleet.requests_cases` — what an operation of one device can do.
* `Fleet.Serves` — the invariant of all devices; `Fleet.Serves.step` — every event keeps it.
* `fleet_keeps_account` — every run has it.
-/

namespace KnowTheQuote

open Machine PathTree

-- ---------------------------------------------------------------------------
-- One device
-- ---------------------------------------------------------------------------

namespace Core

/-- What no operation undoes. -/
structure Follows (c c' : Core) : Prop where
  uuids : c'.world.uuids = c.world.uuids
  drawn : c.world.drawn ≤ c'.world.drawn
  baseURL : c'.userController.baseURL = c.userController.baseURL

namespace Follows

variable {c c' c'' : Core}

theorem refl (c : Core) : c.Follows c := ⟨rfl, Nat.le_refl _, rfl⟩

/-- Only the fields it reads matter. -/
theorem fields (h : c.Follows c')
    (hworld : (c''.world.uuids, c''.world.drawn) = (c'.world.uuids, c'.world.drawn))
    (hurl : c''.userController.baseURL = c'.userController.baseURL) : c.Follows c'' := by
  obtain ⟨huuids, hdrawn⟩ := Prod.mk.inj hworld
  exact ⟨huuids.trans h.uuids, hdrawn ▸ h.drawn, hurl.trans h.baseURL⟩

theorem withNewUser (h : c.Follows c') (username password : String) (now : Date) :
    c.Follows (c'.withNewUser username password now) :=
  ⟨h.uuids, h.drawn.trans (Nat.le_succ _), h.baseURL⟩

theorem syncUser (h : c.Follows c') : c.Follows c'.syncUser := by
  refine ⟨?_, ?_, ?_⟩
  · rw [world_syncUser, h.uuids]
  · rw [world_syncUser]
    exact h.drawn
  · rw [(syncUser_user c').1, h.baseURL]

theorem createEmptyQuiz (c : Core) (env : Env) : c.Follows (c.createEmptyQuiz env) := by
  have hdrawn : ∀ title creator,
      c.world.drawn ≤ (c.withEmptyQuiz title creator env).world.drawn := by
    intro title creator
    rw [drawn_withEmptyQuiz]
    split <;> omega
  have hcases := c.createEmptyQuiz_cases env
  generalize c.createEmptyQuiz env = c' at hcases ⊢
  cases hcases with
  | skipped => exact refl c
  | refused => exact ⟨uuids_withEmptyQuiz .., hdrawn _ _, rfl⟩
  | added => exact ⟨uuids_withEmptyQuiz .., hdrawn _ _, rfl⟩

theorem createQuote (c : Core) (a : NewQuote) (env : Env) :
    c.Follows (c.createQuote a.firstPart a.secondPart a.answer a.incorrectAnswers env) := by
  have hcases := c.createQuote_cases a env
  generalize c.createQuote a.firstPart a.secondPart a.answer a.incorrectAnswers env = c'
    at hcases ⊢
  cases hcases with
  | skipped => exact refl c
  | full => exact ⟨rfl, Nat.le_refl _, rfl⟩
  | refused => exact ⟨rfl, Nat.le_succ _, rfl⟩
  | added => exact ⟨rfl, Nat.le_succ _, rfl⟩

end Follows

/-- **One operation.** -/
theorem follows_step (c : Core) (op : Operation) : c.Follows (c.step op) := by
  cases op with
  | createUser username password env =>
    exact createUser_induction
      (fun _ username password now h => h.withNewUser username password now)
      (fun _ h => h.fields rfl rfl) (fun _ _ _ h => h.fields rfl rfl)
      (fun _ _ h => h.fields rfl rfl) (.refl c) username password
  | syncUser => exact (Follows.refl c).syncUser
  | getUser r env =>
    exact getUser_induction
      (fun _ username password now h => h.withNewUser username password now)
      (fun _ _ _ h => h.fields rfl rfl) (fun _ _ _ h => h.fields rfl rfl)
      (fun _ _ h => h.fields rfl rfl)
      (fun _ _ h => h.fields rfl rfl) (fun _ _ h => h.fields rfl rfl)
      (fun _ _ _ _ h => h.fields rfl rfl) (fun _ h => h.syncUser) (.refl c) r
  | setTitle title => exact (Follows.refl c).fields rfl rfl
  | createEmptyQuiz env => exact .createEmptyQuiz c env
  | createQuote firstPart secondPart answer incorrectAnswers env =>
    exact .createQuote c ⟨firstPart, secondPart, answer, incorrectAnswers⟩ env
  | moveToNextQuote =>
    obtain ⟨cursor, hmoved⟩ := c.step_moveToNextQuote
    rw [hmoved]
    exact (Follows.refl c).fields rfl rfl
  | moveToPrevQuote =>
    obtain ⟨cursor, hmoved⟩ := c.step_moveToPrevQuote
    rw [hmoved]
    exact (Follows.refl c).fields rfl rfl
  | setupStart quiz fetch => exact (Follows.refl c).fields rfl rfl
  | nextQuoteToDisplay =>
    obtain ⟨cursor, hmoved⟩ := c.step_nextQuoteToDisplay
    rw [hmoved]
    exact (Follows.refl c).fields rfl rfl
  | taskFailed index =>
    rw [step_taskFailed]
    exact .refl c

end Core

namespace Request

/-- Quizzes and quotes are put below the users. -/
theorem Shaped.path_ne_user {uuids : UUIDSource} {drawn : Nat} {r : Request}
    (h : r.Shaped uuids drawn) (hr : r.isCreation) (username : String) :
    r.path ≠ ["users", username] := by
  cases h with
  | user => cases hr
  | quiz => simp
  | quote => simp

/-- What is put under an id is a quiz or a quote. -/
theorem isCreation_of_putID {r : Request} {id : String} (h : r.putID = some id) :
    r.isCreation := by
  obtain ⟨path, rep | rep | rep⟩ := r
  · cases h
  · rfl
  · rfl

/-- The ids a quiz or quote names: its own and that of its quiz. -/
def mentions (r : Request) : List String :=
  match r.body with
  | .user _ => []
  | .quiz rep => [rep.id.uuidString]
  | .quote rep => [rep.quoteID, rep.quizID]

/-- The id of a request was drawn when it was put. -/
theorem Shaped.lt_of_putID {uuids : UUIDSource} {drawn n : Nat} {r : Request}
    (h : r.Shaped uuids drawn) (hid : r.putID = some (uuids.next n).uuidString) : n < drawn := by
  have hlt : ∀ m, m < drawn → (uuids.next m).uuidString = (uuids.next n).uuidString →
      n < drawn := fun m hm heq => uuids.uuidString_injective heq ▸ hm
  cases h with
  | user => cases hid
  | quiz username rep hm heq => exact hlt _ hm (by rw [← heq]; exact Option.some.inj hid)
  | quote username rep hm heq => exact hlt _ hm (by rw [← heq]; exact Option.some.inj hid)

end Request

/-- No user is put. -/
def Operation.PutsNoUser : Operation → Prop
  | .createUser .. => False
  | .getUser r env => r.putsUser env = false
  | .syncUser | .setTitle _ | .createEmptyQuiz _ | .createQuote .. | .moveToNextQuote
  | .moveToPrevQuote | .setupStart .. | .nextQuoteToDisplay | .taskFailed _ => True

namespace Fleet

variable {c : Core}

/-- The requests behind the tasks that were added. -/
theorem requests_eq {tasks ts : List Task} (h : tasks = c.world.tasks ++ ts) :
    (tasks.drop c.world.tasks.length).map Task.request = ts.map Task.request := by
  rw [h, List.drop_left]

/-- An operation that resumes no task has no requests. -/
theorem requests_eq_nil {tasks : List Task} (h : tasks = c.world.tasks) :
    (tasks.drop c.world.tasks.length).map Task.request = [] :=
  requests_eq (h.trans (List.append_nil _).symm)

/-- A login sends a user or nothing. -/
theorem requests_getUser (hurl : c.userController.baseURL.isSome) {r : Response} {env : LogInEnv}
    (hputs : r.putsUser env = false) : requests c (.getUser r env) = [] := by
  obtain ⟨-, ts, hts, -, hne⟩ := c.getUser_putsUser hurl r env
  have hnil : ts = [] := by
    by_contra hne'
    rw [hne.mp hne'] at hputs
    cases hputs
  exact (requests_eq hts).trans (by rw [hnil, List.map_nil])

/-- A request under a UUID that has just been drawn; a quote also names a quiz of the context. -/
structure IsNew (c : Core) (r : Request) : Prop where
  putID : r.putID = some (c.world.uuids.next c.world.drawn).uuidString
  mentions : ∀ id ∈ r.mentions, r.putID = some id ∨
    ∃ quiz quizID, c.world.context.quizID quiz = some quizID ∧ id = quizID.uuidString

/-- **The requests of an operation** that puts no user: at most one, and that a new one. -/
theorem requests_cases (h : c.Addressed) (hurl : c.userController.baseURL.isSome) {op : Operation}
    (hop : op.PutsNoUser) :
    requests c op = [] ∨ ∃ r, requests c op = [r] ∧ IsNew c r := by
  unfold requests
  cases op with
  | createUser => exact hop.elim
  | syncUser => exact .inl (requests_eq_nil (congrArg World.tasks c.world_syncUser))
  | getUser r env => exact .inl (requests_getUser hurl hop)
  | setTitle title => exact .inl (requests_eq_nil rfl)
  | createEmptyQuiz env =>
    have hcases := c.createEmptyQuiz_cases env
    show ((c.createEmptyQuiz env).world.tasks.drop _).map _ = _ ∨
      ∃ r, ((c.createEmptyQuiz env).world.tasks.drop _).map _ = _ ∧ _
    generalize c.createEmptyQuiz env = c' at hcases ⊢
    cases hcases with
    | skipped => exact .inl (requests_eq_nil rfl)
    | refused => exact .inl (requests_eq_nil (by simp))
    | @added title creator r _ _ hput =>
      refine .inr ⟨r, ?_, (h.emptyQuizPut hput).1, fun id hid => .inl ?_⟩
      · rw [Core.tasks_put_createEmptyQuiz, Core.tasks_withEmptyQuiz, requests_eq rfl]
        rfl
      · obtain ⟨-, -, rep, _, _, -, -, -, rfl⟩ := QuizController.put_eq_ok.mp hput
        rw [List.mem_singleton.mp hid]
        rfl
  | createQuote first second answer incorrect env =>
    have hcases := c.createQuote_cases ⟨first, second, answer, incorrect⟩ env
    show ((c.createQuote first second answer incorrect env).world.tasks.drop _).map _ = _ ∨
      ∃ r, ((c.createQuote first second answer incorrect env).world.tasks.drop _).map _ = _ ∧ _
    generalize c.createQuote first second answer incorrect env = c' at hcases ⊢
    cases hcases with
    | skipped => exact .inl (requests_eq_nil rfl)
    | full => exact .inl (requests_eq_nil rfl)
    | refused => exact .inl (requests_eq_nil (by simp))
    | @added quiz quizID r _ hquizID _ hput =>
      refine .inr ⟨r, ?_, (Core.Addressed.newQuotePut hput).1, fun id hid => ?_⟩
      · rw [Core.tasks_put_createQuote, Core.tasks_withNewQuote, requests_eq rfl]
        rfl
      · obtain ⟨-, -, rep, _, _, hrep, -, -, rfl⟩ := QuoteController.put_eq_ok.mp hput
        rw [Core.context_withNewQuote, Heap.get?_alloc_self, Option.bind_some,
          NewQuote.quoteRepresentation_object, Option.some.injEq] at hrep
        subst hrep
        rcases List.mem_cons.mp hid with rfl | hid
        · exact .inl rfl
        · exact .inr ⟨quiz, quizID, hquizID, List.mem_singleton.mp hid⟩
  | moveToNextQuote =>
    obtain ⟨cursor, hmoved⟩ := c.step_moveToNextQuote
    exact .inl (requests_eq_nil (by rw [hmoved]))
  | moveToPrevQuote =>
    obtain ⟨cursor, hmoved⟩ := c.step_moveToPrevQuote
    exact .inl (requests_eq_nil (by rw [hmoved]))
  | setupStart quiz fetch => exact .inl (requests_eq_nil rfl)
  | nextQuoteToDisplay =>
    obtain ⟨cursor, hmoved⟩ := c.step_nextQuoteToDisplay
    exact .inl (requests_eq_nil (by rw [hmoved]))
  | taskFailed index => exact .inl (requests_eq_nil (by rw [Core.step_taskFailed]))

-- ---------------------------------------------------------------------------
-- All devices
-- ---------------------------------------------------------------------------

variable {ι : Type} {w : ι → World} {server : Document} {rep : UserRepresentation}
  {reader : UUIDReader} {s : Fleet ι}

/-- The devices work on the account `rep` that the server has had since it stored `server`. -/
structure Serves (w : ι → World) (server : Document) (rep : UserRepresentation)
    (reader : UUIDReader) (s : Fleet ι) : Prop where
  addressed : ∀ i, (s.device i).Addressed
  source : ∀ i, (s.device i).world.uuids = (w i).uuids
  baseURL : ∀ i, (s.device i).userController.baseURL.isSome
  shaped : ∀ x ∈ s.mail.sent, x.2.Shaped (w x.1).uuids (s.device x.1).world.drawn
  creations : ∀ x ∈ s.mail.sent, x.2.isCreation
  mail : s.mail.Sound
  account : HoldsUser s.server logInUsername rep
  answers : ∀ body ∈ s.answers, UserRepresentation.decode reader body = some rep.stored
  server : s.server = serve server (s.mail.arrived.map Prod.snd)

/-- Later requests are served after the earlier ones. -/
theorem serve_append (server : Document) (rs rs' : List Request) :
    serve server (rs ++ rs') = serve (serve server rs) rs' := by
  rw [serve, List.map_append, deliver, List.foldl_append]
  rfl

namespace Serves

/-- The start of the devices, whatever is in their stores. -/
theorem start (hw : ∀ i, (w i).coreData.store.Closed) (h : HoldsUser server logInUsername rep) :
    (Fleet.start w server).Serves w server rep reader where
  addressed i := Core.Addressed.launch (hw i)
  source _ := rfl
  baseURL _ := rfl
  shaped := nofun
  creations := nofun
  mail := Mail.sound_empty
  account := h
  answers := nofun
  server := rfl

/-- An answered login puts no user, as the server has one. -/
theorem putsNoUser (h : s.Serves w server rep reader) {i : ι} {op : Operation}
    (he : s.Admits reader (.operation i op)) : op.PutsNoUser := by
  cases op with
  | createUser => exact he
  | getUser r env =>
    obtain ⟨body, hbody, herror, hstatus, hdata⟩ := he
    rw [h.answers body hbody] at hdata
    simp [Operation.PutsNoUser, Response.putsUser, herror, hstatus, hdata]
  | _ => trivial

variable [DecidableEq ι]

theorem operation (h : s.Serves w server rep reader) {i : ι} {op : Operation}
    (hop : op.PutsNoUser) : (s.step (.operation i op)).Serves w server rep reader := by
  have hfollows := (s.device i).follows_step op
  have hcases := requests_cases (h.addressed i) (h.baseURL i) hop
  refine ⟨fun j => ?_, fun j => ?_, fun j => ?_, ?_, ?_, h.mail.send i _, h.account, h.answers,
    h.server⟩
  · show (Function.update s.device i _ j).Addressed
    rw [Function.update_apply]
    split
    · exact (h.addressed i).step op
    · exact h.addressed j
  · show (Function.update s.device i _ j).world.uuids = _
    rw [Function.update_apply]
    split
    · next heq => rw [heq, hfollows.uuids, h.source i]
    · exact h.source j
  · show (Function.update s.device i _ j).userController.baseURL.isSome
    rw [Function.update_apply]
    split
    · rw [hfollows.baseURL]
      exact h.baseURL i
    · exact h.baseURL j
  · intro x hx
    show x.2.Shaped (w x.1).uuids (Function.update s.device i _ x.1).world.drawn
    rw [Function.update_apply]
    rcases List.mem_append.mp hx with hx | hx
    · -- an older request
      split
      · next heq => exact (h.shaped x hx).mono (heq ▸ hfollows.drawn)
      · exact h.shaped x hx
    · obtain ⟨r, hr, rfl⟩ := List.mem_map.mp hx
      obtain ⟨t, ht, rfl⟩ := List.mem_map.mp hr
      rw [if_pos rfl, ← h.source i, ← hfollows.uuids]
      exact ((h.addressed i).step op).shaped t (List.mem_of_mem_drop ht)
  · intro x hx
    rcases List.mem_append.mp hx with hx | hx
    · exact h.creations x hx
    · obtain ⟨r, hr, rfl⟩ := List.mem_map.mp hx
      rcases hcases with hnil | ⟨r', hone, hid⟩
      · rw [hnil] at hr
        cases hr
      · rw [hone, List.mem_singleton] at hr
        exact Request.isCreation_of_putID (hr ▸ hid.putID)

theorem launch (h : s.Serves w server rep reader) (i : ι) :
    (s.step (.launch i)).Serves w server rep reader := by
  refine ⟨fun j => ?_, fun j => ?_, fun j => ?_, fun x hx => ?_, h.creations, h.mail, h.account,
    h.answers, h.server⟩
  · show (Function.update s.device i _ j).Addressed
    rw [Function.update_apply]
    split
    · exact .launch (h.addressed i).store
    · exact h.addressed j
  · show (Function.update s.device i _ j).world.uuids = _
    rw [Function.update_apply]
    split
    · next heq => rw [heq]; exact h.source i
    · exact h.source j
  · show (Function.update s.device i _ j).userController.baseURL.isSome
    rw [Function.update_apply]
    split
    · rfl
    · exact h.baseURL j
  · show x.2.Shaped (w x.1).uuids (Function.update s.device i _ x.1).world.drawn
    have hold := h.shaped x hx
    rw [Function.update_apply]
    split
    · next heq => rw [heq] at hold ⊢; exact hold
    · exact hold

/-- A quiz or quote that reaches the server leaves the account alone. -/
theorem arrives (h : s.Serves w server rep reader) (n : Nat) :
    (s.step (.arrives n)).Serves w server rep reader := by
  have hmail := h.mail.arrive n
  refine ⟨h.addressed, h.source, h.baseURL, h.shaped, h.creations, hmail, ?_, h.answers, ?_⟩
  · have hsent : ∀ r ∈ s.mail.inFlight[n]?.toList.map Prod.snd, ∃ x ∈ s.mail.sent, x.2 = r := by
      intro r hr
      obtain ⟨x, hx, rfl⟩ := List.mem_map.mp hr
      exact ⟨x, hmail.mem_sent (List.mem_append_right _ hx), rfl⟩
    refine h.account.serve (fun r hr => ?_) fun r hr hpath => ?_
    · obtain ⟨x, hx, rfl⟩ := hsent r hr
      exact ⟨_, _, h.shaped x hx⟩
    · obtain ⟨x, hx, rfl⟩ := hsent r hr
      exact (h.shaped x hx).path_ne_user (h.creations x hx) _ hpath
  · show serve s.server _ = serve server ((s.mail.arrived ++ _).map Prod.snd)
    rw [List.map_append, serve_append, ← h.server]

theorem answered (h : s.Serves w server rep reader) {body : Body}
    (hbody : Answers s.server ["users", logInUsername] body) :
    (s.step (.answered body)).Serves w server rep reader := by
  refine ⟨h.addressed, h.source, h.baseURL, h.shaped, h.creations, h.mail, h.account, ?_,
    h.server⟩
  intro body' hbody'
  rcases List.mem_append.mp hbody' with hold | hnew
  · exact h.answers body' hold
  · rw [List.mem_singleton.mp hnew]
    exact h.account.decode reader hbody

/-- **One event.** -/
theorem step (h : s.Serves w server rep reader) {e : FleetEvent ι} (he : s.Admits reader e) :
    (s.step e).Serves w server rep reader := by
  cases e with
  | operation i op => exact h.operation (h.putsNoUser he)
  | launch i => exact h.launch i
  | arrives n => exact h.arrives n
  | lost n =>
    exact ⟨h.addressed, h.source, h.baseURL, h.shaped, h.creations, h.mail.lose n, h.account,
      h.answers, h.server⟩
  | answered body => exact h.answered he

end Serves

end Fleet

/-- **One account.** Where the server has the account, in every run of any number of devices,
each with a store and controllers of its own, in which the logins end with the server's
answers, whenever the app is launched, and in whatever order the requests arrive or are lost:
the account stays as it is, every request puts a quiz or a quote, and every later login is
answered with the account. -/
theorem fleet_keeps_account {ι : Type} [DecidableEq ι] (w : ι → World)
    (hw : ∀ i, (w i).coreData.store.Closed) (server : Document) (rep : UserRepresentation)
    (haccount : HoldsUser server logInUsername rep) (reader : UUIDReader)
    (es : List (FleetEvent ι))
    (hes : Along Fleet.step (Fleet.Admits reader) (Fleet.start w server) es) :
    let s := run Fleet.step (Fleet.start w server) es
    HoldsUser s.server logInUsername rep ∧ (∀ x ∈ s.mail.sent, x.2.isCreation) ∧
      ∀ body, Answers s.server ["users", logInUsername] body →
        UserRepresentation.decode reader body = some rep.stored := by
  intro s
  have h : s.Serves w server rep reader :=
    invariant_run (fun _ _ h he => h.step he) (Fleet.Serves.start hw haccount) hes
  exact ⟨h.account, h.creations, fun body hbody => h.account.decode reader hbody⟩

/-- The server with an account. -/
def Document.withAccount : Document :=
  PathTree.empty.put ["users", "userOne"] UserRepresentation.first.document

/-- A device logs in and creates a quiz with one quote. -/
def FleetEvent.firstQuiz (i : Bool) : List (FleetEvent Bool) :=
  [.operation i (.getUser ⟨some (UserRepresentation.decode .lenient
      UserRepresentation.first.stored.encode), some 200, false⟩ {}),
    .operation i (.setTitle (some "Films")), .operation i (.createEmptyQuiz {}),
    .operation i (.createQuote (some "I see dead") none "people" ["cats", "dogs", "plants"] {})]

/-- One device does, and its quote overtakes its quiz. -/
def FleetEvent.lateQuiz : List (FleetEvent Bool) :=
  [.answered UserRepresentation.first.stored.encode] ++ firstQuiz true ++ [.arrives 1, .arrives 0]

theorem answers_withAccount :
    Answers .withAccount ["users", "userOne"] UserRepresentation.first.stored.encode :=
  answers_serve_last .empty [] _ (.user .first) (UserRepresentation.answers_encode .first)

theorem Fleet.admits_lateQuiz (w : Bool → World) :
    Along Fleet.step (Fleet.Admits .lenient) (Fleet.start w .withAccount) FleetEvent.lateQuiz :=
  ⟨answers_withAccount, ⟨_, List.mem_singleton_self _, rfl, rfl, rfl⟩, trivial, trivial, trivial,
    trivial, trivial, trivial⟩

theorem fleet_keeps_account_lateQuiz :
    let s := run Fleet.step (Fleet.start (fun _ => { uuids := .numbered }) .withAccount)
      FleetEvent.lateQuiz
    s.mail.arrived.length = 2 ∧ HoldsUser s.server logInUsername .first :=
  ⟨by decide, (fleet_keeps_account (fun _ => { uuids := .numbered })
    (fun _ => Context.closed_empty) .withAccount .first (HoldsUser.put _ _ _) .lenient
    FleetEvent.lateQuiz (Fleet.admits_lateQuiz _)).1⟩

end KnowTheQuote
