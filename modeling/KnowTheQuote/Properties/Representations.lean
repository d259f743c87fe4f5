import KnowTheQuote.Properties.Cache

/-!
# Know the Quote — representations

The loops behind `quizRepresentation` and `userRepresentation` skip what has no
representation, and `Quiz.init` returns early when the creator has no id. Nothing is
lost to either, because no object of a run is half-initialised as long as the saves
succeed: a save that throws would make the controllers refer to forgotten objects.

* `Context.Complete` — every object has its attributes, and quizzes and quotes have
  ids of their own.
* `Core.Complete.step` — every operation keeps them so, whatever its `put` reports.
* `representations_lossless` — what the representations of a run list.
-/

namespace KnowTheQuote

open Machine

-- ---------------------------------------------------------------------------
-- Complete objects
-- ---------------------------------------------------------------------------

/-- The user has every attribute its representation asks for. -/
structure User.Complete (user : User) : Prop where
  id : user.id.isSome
  username : user.username.isSome
  password : user.password.isSome
  signupDate : user.signupDate.isSome

/-- The quiz has every attribute its representation asks for. -/
structure Quiz.Complete (quiz : Quiz) : Prop where
  id : quiz.id.isSome
  title : quiz.title.isSome
  dateCreated : quiz.dateCreated.isSome
  creatorID : quiz.creatorID.isSome

/-- The quote has every attribute its representation asks for. -/
def Quote.Complete (quote : Quote) : Prop := quote.quoteRepresentation.isSome

/-- Every object is complete, and no two quizzes and no two quotes share an id. -/
structure Context.Complete (c : Context) (uuids : UUIDSource) (drawn : Nat) : Prop where
  users : c.users.All User.Complete
  quizzes : c.quizzes.All Quiz.Complete
  quotes : c.quotes.All Quote.Complete
  quizIDs : c.quizzes.Keyed Quiz.id uuids.next drawn
  quoteIDs : c.quotes.Keyed Quote.quoteID (fun n => (uuids.next n).uuidString) drawn

/-- A representation carries the id of the quote. -/
theorem Quote.quoteID_of_representation {quote : Quote} {rep : QuoteRepresentation}
    (h : quote.quoteRepresentation = some rep) : quote.quoteID = some rep.quoteID := by
  simp only [Quote.quoteRepresentation, Option.bind_eq_bind, Option.bind_eq_some_iff,
    Option.pure_def, Option.some.injEq] at h
  obtain ⟨id, hid, first, -, second, -, answer, -, quizID, -, all, -, incorrect, -, rfl⟩ := h
  exact hid

namespace Context.Complete

variable {c : Context} {uuids : UUIDSource} {drawn : Nat}

/-- Nothing is half-initialised in an empty context. -/
theorem empty : ({} : Context).Complete uuids drawn :=
  ⟨Heap.all_empty, Heap.all_empty, Heap.all_empty, .empty, .empty⟩

/-- The initialiser sets every attribute of a user. -/
theorem addUser (h : c.Complete uuids drawn) {user : User} (huser : user.Complete) :
    ({ c with users := c.users.alloc user } : Context).Complete uuids (drawn + 1) :=
  ⟨h.users.alloc huser, h.quizzes, h.quotes, h.quizIDs.mono (Nat.le_succ _),
    h.quoteIDs.mono (Nat.le_succ _)⟩

/-- A complete quiz with the UUID just drawn. -/
theorem addQuiz (h : c.Complete uuids drawn) {quiz : Quiz} (hquiz : quiz.Complete)
    (hid : quiz.id = some (uuids.next drawn)) :
    ({ c with quizzes := c.quizzes.alloc quiz } : Context).Complete uuids (drawn + 1) :=
  ⟨h.users, h.quizzes.alloc hquiz, h.quotes, h.quizIDs.alloc uuids.injective hid,
    h.quoteIDs.mono (Nat.le_succ _)⟩

/-- A complete quote with the UUID just drawn. -/
theorem addQuote (h : c.Complete uuids drawn) {quote : Quote} (hquote : quote.Complete)
    (hid : quote.quoteID = some (uuids.next drawn).uuidString) :
    ({ c with quotes := c.quotes.alloc quote } : Context).Complete uuids (drawn + 1) :=
  ⟨h.users, h.quizzes, h.quotes.alloc hquote, h.quizIDs.mono (Nat.le_succ _),
    h.quoteIDs.alloc uuids.uuidString_injective hid⟩

/-- Attaching a quote writes none of the attributes. -/
theorem addToQuotes (h : c.Complete uuids drawn) (quiz quote : ObjectID) :
    (c.addToQuotes quiz quote).Complete uuids drawn := by
  refine ⟨h.users, h.quizzes, h.quotes.modify ?_ quote, h.quizIDs, h.quoteIDs.modify ?_ quote⟩
  · exact fun _ hq => hq
  · exact fun _ => rfl

theorem addToQuizzesCreated (h : c.Complete uuids drawn) (user quiz : ObjectID) :
    (c.addToQuizzesCreated user quiz).Complete uuids drawn := by
  refine ⟨h.users, h.quizzes.modify ?_ quiz, h.quotes, h.quizIDs.modify ?_ quiz, h.quoteIDs⟩
  · exact fun _ hz => ⟨hz.id, hz.title, hz.dateCreated, hz.creatorID⟩
  · exact fun _ => rfl

-- ---------------------------------------------------------------------------
-- What the representations list
-- ---------------------------------------------------------------------------

/-- Every quote has a representation. -/
theorem quoteRepresentation (h : c.Complete uuids drawn) {r : ObjectID} (hr : r ∈ c.quotes.live) :
    ((c.quotes.get? r).bind Quote.quoteRepresentation).isSome := by
  obtain ⟨q, hq⟩ := Heap.mem_live.mp hr
  rw [hq]
  exact h.quotes r q hq

/-- Every quiz has a representation, and it lists its quotes. -/
theorem quizRepresentation (h : c.Complete uuids drawn) {z : ObjectID} (hz : z ∈ c.quizzes.live)
    (order : Reordering ObjectID) :
    ∃ rep, c.quizRepresentation z order = some rep ∧
      ListsEach rep.quotes (fun r => (c.quotes.get? r).bind Quote.quoteRepresentation)
        (c.quotesOf z) := by
  obtain ⟨quiz, hz⟩ := Heap.mem_live.mp hz
  obtain ⟨hid, htitle, hdate, hcreator⟩ := h.quizzes z quiz hz
  obtain ⟨rep, hrep⟩ : ∃ rep, c.quizRepresentation z order = some rep := by
    obtain ⟨id, hid⟩ := Option.isSome_iff_exists.mp hid
    obtain ⟨title, htitle⟩ := Option.isSome_iff_exists.mp htitle
    obtain ⟨date, hdate⟩ := Option.isSome_iff_exists.mp hdate
    obtain ⟨creatorID, hcreator⟩ := Option.isSome_iff_exists.mp hcreator
    simp [Context.quizRepresentation, hz, hid, htitle, hdate, hcreator]
  refine ⟨rep, hrep, ?_⟩
  rw [(Context.quizRepresentation_eq_some hrep).2]
  have hlive : ∀ r ∈ c.quotesOf z, r ∈ c.quotes.live := fun r hr => (List.mem_filter.mp hr).1
  refine listsEach_filterMap order (nodup_quotesOf c z)
    (fun r hr => h.quoteRepresentation (hlive r hr)) ?_
  -- two quotes with one representation would have one id
  intro r hr r' hr' heq
  obtain ⟨q, hq⟩ := Heap.mem_live.mp (hlive r hr)
  obtain ⟨q', hq'⟩ := Heap.mem_live.mp (hlive r' hr')
  obtain ⟨qr, hqr⟩ := Option.isSome_iff_exists.mp (h.quotes r q hq)
  rw [hq, hq', Option.bind_some, Option.bind_some, hqr] at heq
  refine h.quoteIDs.distinct hq hq' ?_
  rw [Quote.quoteID_of_representation hqr, Quote.quoteID_of_representation heq.symm]

/-- Every user has a representation, and it lists the ids of the quizzes created. -/
theorem userRepresentation (h : c.Complete uuids drawn) {u : ObjectID} (hu : u ∈ c.users.live)
    (order : Reordering ObjectID) :
    ∃ rep ids, c.userRepresentation u order = some rep ∧ rep.quizesCreatedIDs = some ids ∧
      ListsEach ids (fun z => (c.quizID z).map UUID.uuidString) (c.quizzesCreatedOf u) := by
  obtain ⟨user, hu⟩ := Heap.mem_live.mp hu
  obtain ⟨hid, hname, hpassword, hdate⟩ := h.users u user hu
  obtain ⟨id, hid⟩ := Option.isSome_iff_exists.mp hid
  obtain ⟨name, hname⟩ := Option.isSome_iff_exists.mp hname
  obtain ⟨password, hpassword⟩ := Option.isSome_iff_exists.mp hpassword
  obtain ⟨date, hdate⟩ := Option.isSome_iff_exists.mp hdate
  let ids := (order.apply (c.quizzesCreatedOf u)).filterMap fun z =>
    (c.quizID z).map UUID.uuidString
  refine ⟨⟨id, date, name, password, user.coins, some ids⟩, ids, ?_, rfl, ?_⟩
  · simp only [Context.userRepresentation, hu, hid, hname, hpassword, hdate,
      Option.bind_eq_bind, Option.bind_some, Option.pure_def]
    rfl
  have hget : ∀ z ∈ c.quizzesCreatedOf u, ∃ quiz n, c.quizzes.get? z = some quiz ∧
      quiz.id = some (uuids.next n) ∧
      (c.quizID z).map UUID.uuidString = some (uuids.next n).uuidString := by
    intro z hz
    obtain ⟨quiz, hz, -⟩ := mem_quizzesCreatedOf.mp hz
    obtain ⟨n, -, hid⟩ := h.quizIDs.taken hz
    exact ⟨quiz, n, hz, hid, by simp [Context.quizID, hz, hid]⟩
  refine listsEach_filterMap order (nodup_quizzesCreatedOf c u) ?_ ?_
  · intro z hz
    obtain ⟨quiz, n, -, -, hid⟩ := hget z hz
    rw [hid]
    rfl
  · intro z hz z' hz' heq
    obtain ⟨quiz, n, hz, hid, hstring⟩ := hget z hz
    obtain ⟨quiz', n', hz', hid', hstring'⟩ := hget z' hz'
    rw [hstring, hstring'] at heq
    have hsame : n = n' := uuids.uuidString_injective (Option.some.inj heq)
    exact h.quizIDs.distinct hz hz' (by rw [hid, hid', hsame])

end Context.Complete

-- ---------------------------------------------------------------------------
-- The controllers
-- ---------------------------------------------------------------------------

/-- Every save of the operation succeeds; its `put` may report what it likes. -/
def Operation.Saves : Operation → Prop
  | .createUser _ _ env | .createEmptyQuiz env | .createQuote _ _ _ _ env => env.saves = true
  | .getUser _ env => ∀ call, env.IsCall call → call.saves = true
  | .syncUser | .setTitle _ | .moveToNextQuote | .moveToPrevQuote | .setupStart _ _
  | .nextQuoteToDisplay | .taskFailed _ => True

namespace Core

/-- The objects of the context are complete, and the current user is one of them. -/
structure Complete (c : Core) : Prop where
  context : c.world.context.Complete c.world.uuids c.world.drawn
  user : ∀ {u}, c.quizController.user = some u → u ∈ c.world.context.users.live
  current : ∀ {u}, c.userController.user = some u → u ∈ c.world.context.users.live

/-- A first launch, over an empty store. -/
theorem complete_launch (uuids : UUIDSource) (strings : StringEquality) :
    (launch { uuids := uuids, strings := strings }).Complete :=
  ⟨.empty, nofun, nofun⟩

namespace Complete

variable {c c' : Core}

/-- Only the objects and the users of the controllers matter. -/
theorem of_eq (h : c.Complete) (hcontext : c'.world.context = c.world.context)
    (huuids : c'.world.uuids = c.world.uuids) (hdrawn : c'.world.drawn = c.world.drawn)
    (huser : c'.quizController.user = c.quizController.user)
    (hcurrent : c'.userController.user = c.userController.user) : c'.Complete := by
  refine ⟨?_, ?_, ?_⟩
  · rw [hcontext, huuids, hdrawn]
    exact h.context
  · rw [hcontext, huser]
    exact h.user
  · rw [hcontext, hcurrent]
    exact h.current

theorem save (h : c.Complete) : (c.save true).Complete := ⟨h.context, h.user, h.current⟩

theorem refused (h : c.Complete) (e : NetworkingError) : (c.refused e).Complete :=
  h.of_eq rfl rfl rfl rfl rfl

/-- The new user is complete and becomes the current one. -/
theorem withNewUser (h : c.Complete) (username password : String) (now : Date) :
    (c.withNewUser username password now).Complete := by
  have hlive : (c.withNewUser username password now).world.context.users.live =
      c.world.context.users.live ++ [c.world.context.users.size] := Heap.live_alloc ..
  refine ⟨h.context.addUser ⟨rfl, rfl, rfl, rfl⟩, ?_, ?_⟩
  · intro u hu
    rw [hlive]
    exact List.mem_append_left _ (h.user hu)
  · intro u hu
    cases hu
    rw [hlive]
    exact List.mem_append_right _ (List.mem_singleton_self _)

/-- The user the controllers then agree on is in the context. -/
theorem syncUser (h : c.Complete) : c.syncUser.Complete := by
  unfold Core.syncUser
  split
  · exact ⟨h.context, fun hu => h.current hu, h.current⟩
  · exact h

theorem createUser (h : c.Complete) (username password : String) {env : Env}
    (henv : env.saves = true) : (c.createUser username password env).1.Complete :=
  createUser_induction (fun _ username password now h => h.withNewUser username password now)
    (fun _ h => henv ▸ h.save) (fun _ _ _ h => h.of_eq rfl rfl rfl rfl rfl)
    (fun _ e h => h.refused e) h username password

theorem getUser (h : c.Complete) (r : Response) {env : LogInEnv}
    (henv : ∀ call, env.IsCall call → call.saves = true) : (c.getUser r env).Complete := by
  refine getUser_induction
    (fun _ username password now h => h.withNewUser username password now)
    (fun _ call hcall h => henv call hcall ▸ h.save)
    (fun _ _ _ h => h.of_eq rfl rfl rfl rfl rfl) (fun _ e h => h.refused e)
    (fun _ _ h => h.of_eq rfl rfl rfl rfl rfl) (fun _ _ h => h.of_eq rfl rfl rfl rfl rfl) ?_
    (fun _ h => h.syncUser) h r
  -- the lookup found a user of the context
  intro c user name hmem h
  refine ⟨h.context, h.user, fun hu => ?_⟩
  cases hu
  exact (List.mem_filter.mp hmem).1

/-- The initialiser of the quiz finds an id of the creator and does not return early. -/
theorem withEmptyQuiz (h : c.Complete) (title : String) {creator : ObjectID}
    (hcreator : c.quizController.user = some creator) (env : Env) :
    (c.withEmptyQuiz title creator env).Complete := by
  obtain ⟨user, huser⟩ := Heap.mem_live.mp (h.user hcreator)
  obtain ⟨id, hid⟩ := Option.isSome_iff_exists.mp (h.context.users creator user huser).id
  have hbind : (c.world.context.users.get? creator).bind User.id = some id := by
    rw [huser, Option.bind_some, hid]
  refine ⟨?_, ?_, ?_⟩
  · rw [context_withEmptyQuiz, uuids_withEmptyQuiz, c.emptyQuizObject_of_id title env hbind,
      c.drawn_withEmptyQuiz_of_id title env hbind]
    exact h.context.addQuiz ⟨rfl, rfl, rfl, rfl⟩ rfl
  · rw [context_withEmptyQuiz, quizController_withEmptyQuiz]
    exact h.user
  · rw [context_withEmptyQuiz, userController_withEmptyQuiz]
    exact h.current

/-- A quiz is made complete, as its creator has an id. -/
theorem createEmptyQuiz (h : c.Complete) {env : Env} (henv : env.saves = true) :
    (c.createEmptyQuiz env).Complete := by
  have hcases := c.createEmptyQuiz_cases env
  generalize c.createEmptyQuiz env = c' at hcases ⊢
  cases hcases with
  | skipped => exact h
  | refused _ huser => exact (h.withEmptyQuiz _ huser env).refused _
  | @added title creator r _ huser =>
    have hnew := h.withEmptyQuiz title huser env
    rw [henv]
    exact ⟨hnew.context.addToQuizzesCreated .., hnew.user, hnew.current⟩

/-- The initialiser sets every attribute of a quote. -/
theorem withNewQuote (h : c.Complete) (a : NewQuote) (quizID : UUID) :
    (c.withNewQuote a quizID).Complete := by
  refine ⟨?_, ?_, h.current⟩
  · rw [context_withNewQuote]
    exact h.context.addQuote rfl rfl
  · rw [quizController_withNewQuote, user_syncUser]
    exact h.user

/-- A quote is made complete, whatever its `put` reports. -/
theorem createQuote (h : c.Complete) (a : NewQuote) {env : Env} (henv : env.saves = true) :
    (c.createQuote a.firstPart a.secondPart a.answer a.incorrectAnswers env).Complete := by
  have hcases := c.createQuote_cases a env
  generalize c.createQuote a.firstPart a.secondPart a.answer a.incorrectAnswers env = c'
    at hcases ⊢
  cases hcases with
  | skipped => exact h
  | full => exact h.of_eq rfl rfl rfl (user_syncUser _) rfl
  | refused => exact (h.withNewQuote a _).refused _
  | @added quiz quizID r =>
    have hnew := h.withNewQuote a quizID
    rw [henv]
    exact ⟨hnew.context.addToQuotes .., hnew.user, hnew.current⟩

/-- **One operation** whose saves succeed makes no half-initialised object. -/
theorem step (h : c.Complete) {op : Operation} (hop : op.Saves) : (c.step op).Complete := by
  cases op with
  | createUser username password env => exact h.createUser username password hop
  | syncUser => exact h.syncUser
  | getUser r env => exact h.getUser r hop
  | setTitle title => exact h.of_eq rfl rfl rfl rfl rfl
  | createEmptyQuiz env => exact h.createEmptyQuiz hop
  | createQuote first second answer incorrect env =>
    exact h.createQuote ⟨first, second, answer, incorrect⟩ hop
  | moveToNextQuote =>
    obtain ⟨cursor, hmoved⟩ := c.step_moveToNextQuote
    rw [hmoved]
    exact h.of_eq rfl rfl rfl rfl rfl
  | moveToPrevQuote =>
    obtain ⟨cursor, hmoved⟩ := c.step_moveToPrevQuote
    rw [hmoved]
    exact h.of_eq rfl rfl rfl rfl rfl
  | setupStart quiz fetch => exact h.of_eq rfl rfl rfl (QuizController.user_setupStart ..) rfl
  | nextQuoteToDisplay =>
    obtain ⟨cursor, hmoved⟩ := c.step_nextQuoteToDisplay
    rw [hmoved]
    exact h.of_eq rfl rfl rfl rfl rfl
  | taskFailed index =>
    rw [step_taskFailed]
    exact h

end Complete

end Core

/-- **Representations drop nothing.** From an empty store, after every run of operations
whose saves succeed and whose puts report anything, and for every enumeration of the sets:
every user, quiz and quote has a representation; that of a quiz lists the representation of
each of its quotes once and no other; and that of a user lists the id of each quiz created
once and no other. -/
theorem representations_lossless (uuids : UUIDSource) (strings : StringEquality)
    {ops : List Operation} (hSaves : ∀ op ∈ ops, op.Saves) (order : Reordering ObjectID) :
    let c := (run Core.step (.launch { uuids := uuids, strings := strings }) ops).world.context
    (∀ u ∈ c.users.live, ∃ rep ids, c.userRepresentation u order = some rep ∧
      rep.quizesCreatedIDs = some ids ∧
      ListsEach ids (fun z => (c.quizID z).map UUID.uuidString) (c.quizzesCreatedOf u)) ∧
    (∀ z ∈ c.quizzes.live, ∃ rep, c.quizRepresentation z order = some rep ∧
      ListsEach rep.quotes (fun r => (c.quotes.get? r).bind Quote.quoteRepresentation)
        (c.quotesOf z)) ∧
    ∀ r ∈ c.quotes.live, ((c.quotes.get? r).bind Quote.quoteRepresentation).isSome := by
  intro c
  have h : (run Core.step (.launch { uuids := uuids, strings := strings }) ops).Complete :=
    invariant_run_of_forall (fun _ _ h hop => h.step hop) (Core.complete_launch uuids strings)
      hSaves
  exact ⟨fun _ hu => h.context.userRepresentation hu order,
    fun _ hz => h.context.quizRepresentation hz order,
    fun _ hr => h.context.quoteRepresentation hr⟩

/-- A quiz with one stored and one refused quote. -/
theorem representations_lossless_refused :
    let c := (run Core.step (.launch { uuids := .numbered })
      [.createUser "userOne" "pass" {}, .syncUser, .setTitle (some "Films"), .createEmptyQuiz {},
        .createQuote (some "May the") (some "be with you") "Force" ["wind"] { encodes := false },
        .createQuote (some "I see dead") none "people" ["cats"] {}]).world.context
    c.quotes.live = [0, 1] ∧ c.quotesOf 0 = [1] ∧
      ∃ rep, c.quizRepresentation 0 .asIs = some rep ∧ rep.quotes.length = 1 := by
  intro c
  have hquotes : c.quotesOf 0 = [1] := by decide
  have hSaves : ∀ op ∈ [Operation.createUser "userOne" "pass" {}, .syncUser,
      .setTitle (some "Films"), .createEmptyQuiz {},
      .createQuote (some "May the") (some "be with you") "Force" ["wind"] { encodes := false },
      .createQuote (some "I see dead") none "people" ["cats"] {}], op.Saves := by
    simp [Operation.Saves]
  obtain ⟨rep, hrep, hlists⟩ :=
    (representations_lossless .numbered .byCodePoints hSaves .asIs).2.1 0 (by decide)
  exact ⟨by decide, hquotes, rep, hrep, hlists.length.trans (congrArg List.length hquotes)⟩

end KnowTheQuote
