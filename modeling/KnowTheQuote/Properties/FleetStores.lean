import KnowTheQuote.Properties.FleetOrder
import KnowTheQuote.Properties.Links

/-!
# Know the Quote — the stores and the server

A quiz or a quote is saved by the handler of its own request, and the handler is called
before the request is on its way. While nothing fails, the store of a device therefore says
what the device has put, and where its requests arrive in turn the server says the same.

* `Context.Records` — what is in a context was put, and what was put is in it.
* `Core.Mirrors.step` — every operation that succeeds keeps the store so.
* `Fleet.InTurn.subtree_quote` — a quote that has arrived is where it was put.
* `fleet_mirrors_stores` — stores and server over every run of all devices.
-/

namespace KnowTheQuote

open Machine PathTree

-- ---------------------------------------------------------------------------
-- Records
-- ---------------------------------------------------------------------------

namespace Request

/-- The quiz that is put. -/
def quiz? (r : Request) : Option QuizRepresentation :=
  match r.body with
  | .quiz rep => some rep
  | .user _ | .quote _ => none

/-- The quote that is put. -/
def quote? (r : Request) : Option QuoteRepresentation :=
  match r.body with
  | .quote rep => some rep
  | .user _ | .quiz _ => none

end Request

/-- The representation a quiz has before any quote is added. -/
def Quiz.emptyRepresentation (quiz : Quiz) : Option QuizRepresentation := do
  let id ← quiz.id
  let title ← quiz.title
  let date ← quiz.dateCreated
  let creatorID ← quiz.creatorID
  return { id, title, dateCreated := date, creatorID, quotes := [],
           hasBeenReported := quiz.hasBeenReported }

theorem Context.emptyRepresentation_of_put {c : Context} {quiz : ObjectID} {z : Quiz}
    {order : Reordering ObjectID} {rep : QuizRepresentation} (hz : c.quizzes.get? quiz = some z)
    (hrep : c.quizRepresentation quiz order = some rep) (hquotes : rep.quotes = []) :
    z.emptyRepresentation = some rep := by
  simp only [quizRepresentation, Quiz.emptyRepresentation, Option.bind_eq_bind,
    Option.bind_eq_some_iff, Option.pure_def, Option.some.injEq] at hrep ⊢
  obtain ⟨z', hz', id, hid, title, htitle, date, hdate, creatorID, hcreatorID, rfl⟩ := hrep
  cases hz.symm.trans hz'
  exact ⟨id, hid, title, htitle, date, hdate, creatorID, hcreatorID,
    congrArg (QuizRepresentation.mk id title date creatorID · z.hasBeenReported) hquotes.symm⟩

namespace Context

/-- The quizzes and the quotes of a context are, in the order they were made and with what they
were made of, those that were put. -/
structure Records (c : Context) (sent : List Request) : Prop where
  quizzes : c.quizzes.objects.map Quiz.emptyRepresentation =
    (sent.filterMap Request.quiz?).map some
  quotes : c.quotes.objects.map Quote.quoteRepresentation =
    (sent.filterMap Request.quote?).map some

namespace Records

variable {c : Context} {sent : List Request}

theorem empty : ({} : Context).Records [] := ⟨rfl, rfl⟩

theorem addQuiz (h : c.Records sent) {quiz : Quiz} {path : List String}
    {rep : QuizRepresentation} (hrep : quiz.emptyRepresentation = some rep) :
    ({ c with quizzes := c.quizzes.alloc quiz } : Context).Records
      (sent ++ [⟨path, .quiz rep⟩]) := by
  refine ⟨?_, ?_⟩
  · simp [h.quizzes, hrep, Request.quiz?]
  · simp [h.quotes, Request.quote?]

theorem addQuote (h : c.Records sent) {quote : Quote} {path : List String}
    {rep : QuoteRepresentation} (hrep : quote.quoteRepresentation = some rep) :
    ({ c with quotes := c.quotes.alloc quote } : Context).Records
      (sent ++ [⟨path, .quote rep⟩]) := by
  refine ⟨?_, ?_⟩
  · simp [h.quizzes, Request.quiz?]
  · simp [h.quotes, hrep, Request.quote?]

end Records

end Context

theorem QuizController.baseURL_setupStart (q : QuizController) (c : Context) (quiz : ObjectID)
    (fetch : FetchOutcome) : (q.setupStart c quiz fetch).1.baseURL = q.baseURL := by
  have hsync := Core.baseURL_syncUser (q.resetCounter.resetQuotesDictionary)
  unfold setupStart
  cases fetch <;> exact hsync

-- ---------------------------------------------------------------------------
-- One device
-- ---------------------------------------------------------------------------

namespace Core

/-- The context and the store say what the device has put. -/
structure Mirrors (sent : List Request) (c : Core) : Prop where
  context : c.world.context.Records sent
  store : c.world.coreData.store.Records sent
  baseURL : c.quizController.baseURL.isSome

namespace Mirrors

variable {c c' : Core} {sent : List Request}

theorem of_eq (h : c.Mirrors sent) (hdata : c'.world.coreData = c.world.coreData)
    (hurl : c'.quizController.baseURL = c.quizController.baseURL) : c'.Mirrors sent := by
  have hcontext : c'.world.context = c.world.context := congrArg CoreDataStack.context hdata
  refine ⟨?_, ?_, ?_⟩
  · rw [hcontext]
    exact h.context
  · rw [hdata]
    exact h.store
  · rw [hurl]
    exact h.baseURL

/-- What is saved is what the context says. -/
theorem of_context (ctx : Context) (hctx : ctx.Records sent)
    (hdata : c.world.coreData = ⟨ctx, ctx⟩) (hurl : c.quizController.baseURL.isSome) :
    c.Mirrors sent := by
  refine ⟨?_, ?_, hurl⟩
  · rw [World.context, hdata]
    exact hctx
  · rw [hdata]
    exact hctx

theorem syncUser (h : c.Mirrors sent) : c.syncUser.Mirrors sent := by
  refine h.of_eq (congrArg World.coreData c.world_syncUser) ?_
  unfold Core.syncUser
  split <;> rfl

/-- A login makes no quiz and no quote. -/
theorem getUser (h : c.Mirrors sent) (r : Response) {env : LogInEnv}
    (henv : (Operation.getUser r env).Succeeds) : (c.getUser r env).Mirrors sent := by
  have hsaves : ∀ call, env.IsCall call → call.saves = true := by
    rintro call (rfl | rfl | rfl)
    · exact henv.1.saves
    · exact henv.2.1.saves
    · exact henv.2.2.saves
  have hsame : ∀ {c c' : Core}, c.Mirrors sent → c'.world.coreData = c.world.coreData →
      c'.quizController.baseURL = c.quizController.baseURL → c'.Mirrors sent :=
    fun h => h.of_eq
  refine getUser_induction ?_ ?_ (fun _ _ _ h => hsame h rfl rfl) (fun _ _ h => hsame h rfl rfl)
    (fun _ _ h => hsame h rfl rfl) (fun _ _ h => hsame h rfl rfl)
    (fun _ _ _ _ h => hsame h rfl rfl) (fun _ h => h.syncUser) h r
  · exact fun c username password now h =>
      ⟨⟨h.context.quizzes, h.context.quotes⟩, h.store, h.baseURL⟩
  · intro c call hcall h
    rw [hsaves call hcall]
    exact ⟨h.context, h.context, h.baseURL⟩

/-- A new quiz is put at once. -/
theorem createEmptyQuiz (h : c.Mirrors sent) (hlinked : c.Linked) (hclosed : c.world.context.Closed)
    {env : Env} (henv : env.Succeeds) :
    (c.createEmptyQuiz env).Mirrors (sent ++ Fleet.requests c (.createEmptyQuiz env)) := by
  have hcases := c.createEmptyQuiz_cases env
  unfold Fleet.requests
  show (c.createEmptyQuiz env).Mirrors
    (sent ++ ((c.createEmptyQuiz env).world.tasks.drop c.world.tasks.length).map Task.request)
  generalize c.createEmptyQuiz env = c' at hcases ⊢
  cases hcases with
  | skipped => rwa [Fleet.requests_eq_nil rfl, List.append_nil]
  | refused htitle huser hput =>
    -- the user has an id and a name, so the quiz can be put
    obtain ⟨user, hu⟩ := hlinked.user huser
    obtain ⟨⟨id, hid⟩, name, hname⟩ := hlinked.context.users hu
    obtain ⟨r, hok⟩ := (emptyQuizPut_ok_iff huser).mpr
      ⟨h.baseURL, by simp [hu, hid], by simp [Context.username, hu, hname], henv.encodes⟩
    rw [hok] at hput
    cases hput
  | @added title creator r htitle huser hput =>
    obtain ⟨-, -, rep, user, name, hrep, -, -, rfl⟩ := QuizController.put_eq_ok.mp hput
    have hquotes := (Context.quizRepresentation_eq_some hrep).2
    rw [quotesOf_withEmptyQuiz hclosed, Reordering.apply_nil, List.filterMap_nil] at hquotes
    have hobject : (c.emptyQuizObject title creator env).emptyRepresentation = some rep :=
      Context.emptyRepresentation_of_put (by simp) hrep hquotes
    rw [henv.saves, tasks_put_createEmptyQuiz, tasks_withEmptyQuiz, Fleet.requests_eq rfl]
    refine of_context ((c.withEmptyQuiz title creator env).world.context.addToQuizzesCreated
      creator c.world.context.quizzes.size) ?_ rfl (by simpa using h.baseURL)
    rw [context_withEmptyQuiz, Context.addToQuizzesCreated, Heap.modify_alloc_self]
    exact h.context.addQuiz hobject

/-- So is a new quote. -/
theorem createQuote (h : c.Mirrors sent) (hlinked : c.Linked) (a : NewQuote) {env : Env}
    (henv : env.Succeeds) :
    (c.createQuoteOf a env).Mirrors (sent ++ Fleet.requests c (a.operation env)) := by
  have hcases := c.createQuote_cases a env
  unfold Fleet.requests
  show (c.createQuote a.firstPart a.secondPart a.answer a.incorrectAnswers env).Mirrors
    (sent ++ ((c.createQuote a.firstPart a.secondPart a.answer a.incorrectAnswers
      env).world.tasks.drop c.world.tasks.length).map Task.request)
  generalize c.createQuote a.firstPart a.secondPart a.answer a.incorrectAnswers env = c'
    at hcases ⊢
  cases hcases with
  | skipped => rwa [Fleet.requests_eq_nil rfl, List.append_nil]
  | full =>
    rw [Fleet.requests_eq_nil rfl, List.append_nil]
    exact h.of_eq rfl (baseURL_syncUser _)
  | @refused quiz quizID e hquiz hid hcount hput =>
    obtain ⟨r, hok⟩ := newQuotePut_of_ready (hlinked.ready hquiz) a quizID henv.encodes
    rw [hok] at hput
    cases hput
  | @added quiz quizID r hquiz hid hcount hput =>
    obtain ⟨-, -, rep, user, name, hrep, -, -, rfl⟩ := QuoteController.put_eq_ok.mp hput
    rw [context_withNewQuote, Heap.get?_alloc_self, Option.bind_some] at hrep
    rw [henv.saves, tasks_put_createQuote, tasks_withNewQuote, Fleet.requests_eq rfl]
    refine of_context ((c.withNewQuote a quizID).world.context.addToQuotes quiz
      c.world.context.quotes.size) ?_ rfl (by simpa using h.baseURL)
    rw [context_withNewQuote, Context.addToQuotes, Heap.modify_alloc_self]
    exact h.context.addQuote hrep

/-- **One operation** that succeeds and puts no user. -/
theorem step (h : c.Mirrors sent) (hlinked : c.Linked) (haddressed : c.Addressed)
    (hurl : c.userController.baseURL.isSome) {op : Operation} (hop : op.Succeeds)
    (hputs : op.PutsNoUser) : (c.step op).Mirrors (sent ++ Fleet.requests c op) := by
  have hquiet : ∀ {c' : Core}, c'.Mirrors sent → Fleet.requests c op = [] →
      c'.Mirrors (sent ++ Fleet.requests c op) := by
    intro c' h' hnil
    rwa [hnil, List.append_nil]
  cases op with
  | createUser => exact hputs.elim
  | syncUser =>
    exact hquiet h.syncUser (Fleet.requests_eq_nil (congrArg World.tasks c.world_syncUser))
  | getUser r env => exact hquiet (h.getUser r hop) (Fleet.requests_getUser hurl hputs)
  | setTitle title => exact hquiet (h.of_eq rfl rfl) (Fleet.requests_eq_nil rfl)
  | createEmptyQuiz env => exact h.createEmptyQuiz hlinked haddressed.context hop
  | createQuote first second answer incorrect env =>
    exact h.createQuote hlinked ⟨first, second, answer, incorrect⟩ hop
  | moveToNextQuote =>
    obtain ⟨cursor, hmoved⟩ := c.step_moveToNextQuote
    exact hquiet (hmoved ▸ h.of_eq rfl rfl) (Fleet.requests_eq_nil (by rw [hmoved]))
  | moveToPrevQuote =>
    obtain ⟨cursor, hmoved⟩ := c.step_moveToPrevQuote
    exact hquiet (hmoved ▸ h.of_eq rfl rfl) (Fleet.requests_eq_nil (by rw [hmoved]))
  | setupStart quiz fetch =>
    exact hquiet (h.of_eq rfl (QuizController.baseURL_setupStart ..)) (Fleet.requests_eq_nil rfl)
  | nextQuoteToDisplay =>
    obtain ⟨cursor, hmoved⟩ := c.step_nextQuoteToDisplay
    exact hquiet (hmoved ▸ h.of_eq rfl rfl) (Fleet.requests_eq_nil (by rw [hmoved]))
  | taskFailed index =>
    exact hquiet (by rwa [step_taskFailed]) (Fleet.requests_eq_nil (by rw [step_taskFailed]))

end Mirrors

end Core

-- ---------------------------------------------------------------------------
-- All devices
-- ---------------------------------------------------------------------------

/-- Every request of the event is encoded, and every save succeeds. -/
def FleetEvent.Succeeds {ι : Type} : FleetEvent ι → Prop
  | .operation _ op => op.Succeeds
  | .launch _ | .arrives _ | .lost _ | .answered _ => True

instance {ι : Type} : DecidablePred (FleetEvent.Succeeds (ι := ι))
  | .operation _ op => inferInstanceAs (Decidable op.Succeeds)
  | .launch _ | .arrives _ | .lost _ | .answered _ => .isTrue trivial

namespace Fleet

variable {ι : Type} [DecidableEq ι] {w : ι → World} {server : Document} {rep : UserRepresentation}
  {reader : UUIDReader} {s : Fleet ι}

/-- The data of every device is linked, and says what the device has put. -/
def Mirrors (s : Fleet ι) : Prop :=
  ∀ i, (s.device i).Linked ∧ (s.device i).Mirrors (s.mail.sentBy i)

theorem Mirrors.start (hempty : ∀ i, (w i).coreData.store = {}) :
    (Fleet.start w server).Mirrors := by
  intro i
  have hcontext : (w i).relaunch.context = {} := hempty i
  refine ⟨Core.linked_launch ?_ ?_, Core.Mirrors.of_context {} .empty ?_ rfl⟩
  · rw [hcontext]
    exact .empty
  · show (w i).coreData.store.Linked _ _
    rw [hempty i]
    exact .empty
  · show CoreDataStack.mk (w i).coreData.store (w i).coreData.store = _
    rw [hempty i]

theorem Mirrors.step (h : s.Mirrors) (hserves : s.Serves w server rep reader) {e : FleetEvent ι}
    (he : s.Admits reader e) (hsucceeds : e.Succeeds) : (s.step e).Mirrors := by
  cases e with
  | operation i op =>
    intro j
    show (Function.update s.device i _ j).Linked ∧ (Function.update s.device i _ j).Mirrors
      ((s.mail.send i _).sentBy j)
    rw [Mail.sentBy_send, Function.update_apply]
    by_cases heq : j = i
    · subst heq
      obtain ⟨hlinked, hmirrors⟩ := h j
      rw [if_pos rfl, if_pos rfl]
      exact ⟨hlinked.step hsucceeds, hmirrors.step hlinked (hserves.addressed j)
        (hserves.baseURL j) hsucceeds (hserves.putsNoUser he)⟩
    · rw [if_neg heq, if_neg (Ne.symm heq), List.append_nil]
      exact h j
  | launch i =>
    intro j
    show (Function.update s.device i _ j).Linked ∧ (Function.update s.device i _ j).Mirrors
      (s.mail.sentBy j)
    rw [Function.update_apply]
    split
    · next heq =>
      subst heq
      obtain ⟨hlinked, hmirrors⟩ := h j
      exact ⟨Core.linked_launch hlinked.store hlinked.store,
        Core.Mirrors.of_context _ hmirrors.store rfl rfl⟩
    · exact h j
  | arrives n => exact h
  | lost n => exact h
  | answered body => exact h

/-- Nothing is put above or below a quote that has arrived in turn. -/
theorem InTurn.subtree_quote (h : s.InTurn w) (hserves : s.Serves w server rep reader)
    (hfresh : FreshUUIDs w) {x : ι × Request} (hx : x ∈ s.mail.arrived)
    {q : QuoteRepresentation} (hq : x.2.quote? = some q) :
    s.server.subtree x.2.path = q.document := by
  have hsent : ∀ y ∈ s.mail.arrived, y.2.Shaped (w y.1).uuids (s.device y.1).world.drawn :=
    fun y hy => hserves.shaped y (hserves.mail.mem_sent hy)
  have hpairwise := h.pairwise_arrived hserves hfresh
  have hserver := hserves.server
  obtain ⟨before, after, harrived⟩ := List.append_of_mem hx
  rw [harrived] at hsent hpairwise hserver
  have habove := (List.pairwise_cons.mp (List.pairwise_append.mp hpairwise).2.1).1
  have hbody : x.2.write.2 = q.document := by
    obtain ⟨i, path, body⟩ := x
    cases body with
    | user | quiz => cases hq
    | quote => cases hq; rfl
  rw [hserver, serve, List.map_map, List.map_append, List.map_cons, ← hbody]
  refine subtree_deliver_last (w := x.2.write) fun w' hw' => ?_
  obtain ⟨y, hy, rfl⟩ := List.mem_map.mp hw'
  refine ⟨habove y hy, fun hbelow => ?_⟩
  -- no path is longer than that of a quote
  have hlength : y.2.path.length ≤ x.2.path.length := by
    have hshaped := hsent y (List.mem_append_right _ (List.mem_cons_of_mem _ hy))
    have hshaped' := hsent x (List.mem_append_right _ (List.mem_cons_self ..))
    obtain ⟨i, r⟩ := x
    obtain ⟨j, r'⟩ := y
    cases hshaped' with
    | user => cases hq
    | quiz => cases hq
    | quote => cases hshaped <;> simp
  have heq : x.2.path = y.2.path := hbelow.eq_of_length_le hlength
  exact habove y hy (heq ▸ List.prefix_rfl)

end Fleet

/-- **Stores and server.** From empty stores, in every run of any number of devices that draw
different UUIDs, in which the operations succeed, the logins end with the server's answers, and
the requests of each device arrive in turn or are lost: the quizzes and the quotes in the store
of a device are, in the order they were made and as they were made, those it has put; and each
of them is in flight or lost, or it is stored on the server, where a quote is read back if no
list in it is empty. -/
theorem fleet_mirrors_stores {ι : Type} [DecidableEq ι] (w : ι → World)
    (hempty : ∀ i, (w i).coreData.store = {}) (hfresh : FreshUUIDs w) (server : Document)
    (rep : UserRepresentation) (haccount : HoldsUser server logInUsername rep)
    (reader : UUIDReader) (es : List (FleetEvent ι))
    (hes : Along Fleet.step (fun s e => s.Admits reader e ∧ s.TakesTurn e)
      (Fleet.start w server) es) (hsucceeds : ∀ e ∈ es, e.Succeeds) :
    let s := run Fleet.step (Fleet.start w server) es
    (∀ i, (s.device i).world.coreData.store.Records (s.mail.sentBy i)) ∧
      ∀ x ∈ s.mail.sent, x ∈ s.mail.inFlight ∨ s.mail.IsLost x ∨ x.2.IsStored s.server ∧
        ∀ q body, x.2.quote? = some q → Answers s.server x.2.path body →
          QuoteRepresentation.decode body = if q.Readable then some q else none := by
  intro s
  have hstep : ∀ (s : Fleet ι) e,
      ((s.Serves w server rep reader ∧ s.Apart) ∧ s.InTurn w) ∧ s.Mirrors →
      (s.Admits reader e ∧ s.TakesTurn e) ∧ e.Succeeds →
      (((s.step e).Serves w server rep reader ∧ (s.step e).Apart) ∧ (s.step e).InTurn w) ∧
        (s.step e).Mirrors :=
    fun s e h he => ⟨⟨⟨h.1.1.1.step he.1.1, h.1.1.1.apart_step hfresh h.1.1.2 he.1.1⟩,
      h.1.2.step h.1.1.1 he.1.1 he.1.2⟩, h.2.step h.1.1.1 he.1.1 he.2⟩
  have hclosed : ∀ i, (w i).coreData.store.Closed := fun i => hempty i ▸ Context.closed_empty
  have hids : ∀ i, (w i).coreData.store.IDsDrawn (w i).uuids (w i).drawn :=
    fun i => hempty i ▸ Heap.all_empty
  have hstart : (Fleet.start w server).InTurn w :=
    ⟨fun i => ⟨hids i, hids i⟩, nofun, .nil, Mail.inOrder_empty⟩
  obtain ⟨⟨⟨hserves, hapart⟩, hturn⟩, hmirrors⟩ :=
    invariant_run hstep ⟨⟨⟨Fleet.Serves.start hclosed haccount, .nil⟩, hstart⟩, .start hempty⟩
      (along_and.mpr ⟨hes, along_of_forall hsucceeds⟩)
  refine ⟨fun i => (hmirrors i).2.store, fun x hx => ?_⟩
  by_cases hflight : x ∈ s.mail.inFlight
  · exact .inl hflight
  by_cases harrived : x ∈ s.mail.arrived
  · refine .inr (.inr ⟨?_, fun q body hq hbody => ?_⟩)
    · exact (hserves.stored_iff hapart).mpr (hturn.pairwise_arrived hserves hfresh) x harrived
    · rw [Answers, hturn.subtree_quote hserves hfresh harrived hq] at hbody
      exact q.decode_answer hbody
  · exact .inr (.inl ⟨hx, hflight, harrived⟩)

/-- Both devices have their quiz in the store and on the server. -/
theorem fleet_mirrors_stores_bothQuizzes :
    let s := run Fleet.step (Fleet.start World.ofDevice .withAccount) FleetEvent.bothQuizzes
    s.mail.arrived.length = 4 ∧
      ∀ i, (s.device i).world.coreData.store.Records (s.mail.sentBy i) :=
  ⟨by decide, (fleet_mirrors_stores World.ofDevice (fun _ => rfl) freshUUIDs_ofDevice
    .withAccount .first (HoldsUser.put _ _ _) .lenient FleetEvent.bothQuizzes
    Fleet.admits_bothQuizzes (by decide)).1⟩

end KnowTheQuote
