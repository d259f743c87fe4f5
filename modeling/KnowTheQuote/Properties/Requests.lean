import KnowTheQuote.Properties.Cache

/-!
# Know the Quote — the requests of a run

Quizzes and quotes are put right after they are made, each under an id it has just
drawn. So over a whole run the requests have three shapes, a quiz is put without
quotes, and no two quizzes or quotes are put under one id.

* `Request.Shaped`, `Request.Apart` — the shapes, and distinct ids.
* `Core.Addressed` — what the requests of a run satisfy; `Core.Addressed.step` — every
  operation keeps it; `Core.addressed_run` — every run has it.
-/

namespace KnowTheQuote

open Machine

-- ---------------------------------------------------------------------------
-- Closed contexts
-- ---------------------------------------------------------------------------

namespace Context

/-- The quiz of a quote is an object of the context, as Core Data sees to. -/
def Closed (c : Context) : Prop :=
  ∀ r q z, c.quotes.get? r = some q → q.quiz = some z → z < c.quizzes.size

variable {c : Context}

/-- No quote, no dangling link. -/
theorem closed_empty : ({} : Context).Closed := by
  intro r q z hget
  cases hget

namespace Closed

/-- An object more, and the old links still lead to objects. -/
theorem addQuiz (h : c.Closed) (quiz : Quiz) :
    ({ c with quizzes := c.quizzes.alloc quiz } : Context).Closed := by
  intro r q z hr hz
  rw [Heap.size_alloc]
  exact (h r q z hr hz).trans (Nat.lt_succ_self _)

/-- A new quote belongs to no quiz yet. -/
theorem addQuote (h : c.Closed) {quote : Quote} (hquiz : quote.quiz = none) :
    ({ c with quotes := c.quotes.alloc quote } : Context).Closed := by
  intro r q z hr hz
  rw [Heap.get?_alloc] at hr
  split at hr
  · cases hr
    rw [hquiz] at hz
    cases hz
  · exact h r q z hr hz

/-- A quote is linked to an object that is there. -/
theorem addToQuotes (h : c.Closed) {quiz : ObjectID} (hquiz : quiz < c.quizzes.size)
    (quote : ObjectID) : (c.addToQuotes quiz quote).Closed := by
  intro r q z hr hz
  rw [Context.addToQuotes, Heap.get?_modify] at hr
  split at hr
  · obtain ⟨q', -, rfl⟩ := Option.map_eq_some_iff.mp hr
    cases hz
    exact hquiz
  · exact h r q z hr hz

/-- The links of the quotes are not touched. -/
theorem addToQuizzesCreated (h : c.Closed) (user quiz : ObjectID) :
    (c.addToQuizzesCreated user quiz).Closed := by
  intro r q z hr hz
  show z < (c.quizzes.modify _ _).size
  rw [Heap.size_modify]
  exact h r q z hr hz

/-- The reloaded relationships follow the reloaded objects. -/
theorem reload {store : Context} (h : store.Closed) (c : Context) : (c.reload store).Closed := by
  intro r q z hr hz
  simp only [Context.reload, Heap.size_reload]
  by_cases hlt : r < c.quotes.size
  · rw [Context.reload, Heap.get?_reload_of_lt _ _ hlt] at hr
    cases hr
  · obtain ⟨i, rfl⟩ := Nat.exists_eq_add_of_le (Nat.le_of_not_lt hlt)
    rw [Context.reload, Heap.get?_reload_add] at hr
    obtain ⟨q', hq', rfl⟩ := Option.map_eq_some_iff.mp hr
    obtain ⟨z', hz', rfl⟩ := Option.map_eq_some_iff.mp hz
    exact Nat.add_lt_add_left (h i q' z' hq' hz') _

/-- No quote belongs to a quiz that is not there yet. -/
theorem quotesOf_eq_nil (h : c.Closed) {quiz : ObjectID} (hquiz : c.quizzes.size ≤ quiz) :
    c.quotesOf quiz = [] := by
  rw [List.eq_nil_iff_forall_not_mem]
  intro r hr
  obtain ⟨q, hq, hz⟩ := mem_quotesOf.mp hr
  exact Nat.not_lt.mpr hquiz (h r q quiz hq hz)

end Closed

end Context

-- ---------------------------------------------------------------------------
-- Shapes
-- ---------------------------------------------------------------------------

namespace Request

/-- The id a quiz or a quote is put under. -/
def putID (r : Request) : Option String :=
  match r.body with
  | .user _ => none
  | .quiz rep => some rep.id.uuidString
  | .quote rep => some rep.quoteID

/-- What a run can put when it has drawn `drawn` UUIDs. -/
inductive Shaped (uuids : UUIDSource) (drawn : Nat) : Request → Prop
  | user (username : String) (rep : UserRepresentation) :
      Shaped uuids drawn ⟨["users", username], .user rep⟩
  | quiz (username : String) (rep : QuizRepresentation) {n : Nat} (hn : n < drawn)
      (hid : rep.id = uuids.next n) (hquotes : rep.quotes = []) :
      Shaped uuids drawn
        ⟨["users", username, "quizzesCreated", rep.id.uuidString], .quiz rep⟩
  | quote (username : String) (rep : QuoteRepresentation) {n : Nat} (hn : n < drawn)
      (hid : rep.quoteID = (uuids.next n).uuidString) :
      Shaped uuids drawn
        ⟨["users", username, "quizzesCreated", rep.quizID, "quotes", rep.quoteID], .quote rep⟩

/-- The two requests put no quiz or quote under one id. -/
def Apart (r r' : Request) : Prop := ∀ id, r.putID = some id → r'.putID ≠ some id

variable {r r' : Request} {uuids : UUIDSource} {drawn : Nat}

/-- Which of the two is named first does not matter. -/
theorem Apart.symm (h : r.Apart r') : r'.Apart r := fun id hid hid' => h id hid' hid

/-- Requests keep their shape while more UUIDs are drawn. -/
theorem Shaped.mono (h : r.Shaped uuids drawn) {drawn' : Nat} (hle : drawn ≤ drawn') :
    r.Shaped uuids drawn' := by
  cases h with
  | user username rep => exact .user username rep
  | quiz username rep hn hid hquotes => exact .quiz username rep (hn.trans_le hle) hid hquotes
  | quote username rep hn hid => exact .quote username rep (hn.trans_le hle) hid

/-- The next UUID has not been used. -/
theorem Shaped.apart (h : r.Shaped uuids drawn)
    (hid : r'.putID = some (uuids.next drawn).uuidString) : r.Apart r' := by
  have hne : ∀ n, n < drawn → (uuids.next n).uuidString ≠ (uuids.next drawn).uuidString := by
    intro n hn heq
    exact hn.ne (uuids.injective (congrArg UUID.mk heq))
  intro id hr hr'
  rw [hid] at hr'
  cases hr'
  cases h with
  | user => cases hr
  | quiz username rep hn hid' =>
    simp only [putID, hid', Option.some.injEq] at hr
    exact hne _ hn hr
  | quote username rep hn hid' =>
    simp only [putID, hid', Option.some.injEq] at hr
    exact hne _ hn hr

end Request

-- ---------------------------------------------------------------------------
-- The invariant
-- ---------------------------------------------------------------------------

namespace Core

/-- A new quiz has no quotes. -/
theorem quotesOf_withEmptyQuiz {c : Core} (h : c.world.context.Closed) (title : String)
    (creator : ObjectID) (env : Env) :
    (c.withEmptyQuiz title creator env).world.context.quotesOf c.world.context.quizzes.size =
      [] := by
  rw [context_withEmptyQuiz]
  exact h.quotesOf_eq_nil (Nat.le_refl _)

/-- What the requests of a run satisfy, with what the next one needs. -/
structure Addressed (c : Core) : Prop where
  shaped : ∀ t ∈ c.world.tasks, t.request.Shaped c.world.uuids c.world.drawn
  apart : c.world.tasks.Pairwise fun t t' => t.request.Apart t'.request
  context : c.world.context.Closed
  store : c.world.coreData.store.Closed
  quiz : ∀ z, c.quizController.quiz = some z → z < c.world.context.quizzes.size

namespace Addressed

variable {c c' : Core}

/-- Only the world and the current quiz matter. -/
theorem of_world (h : c.Addressed) (hworld : c'.world = c.world)
    (hquiz : c'.quizController.quiz = c.quizController.quiz) : c'.Addressed := by
  obtain ⟨hshaped, hapart, hcontext, hstore, hz⟩ := h
  rw [← hworld] at hshaped hapart hcontext hstore hz
  rw [← hquiz] at hz
  exact ⟨hshaped, hapart, hcontext, hstore, hz⟩

/-- A launch starts without requests. -/
theorem launch {w : World} (h : w.coreData.store.Closed) :
    (Core.launch w.relaunch).Addressed :=
  ⟨nofun, .nil, h, h, nofun⟩

/-- A refused `put` sends nothing. -/
theorem refused (h : c.Addressed) (e : NetworkingError) : (c.refused e).Addressed :=
  ⟨h.shaped, h.apart, h.context, h.store, h.quiz⟩

/-- The context may change while it stays closed. -/
theorem setContext (h : c.Addressed) {ctx : Context} (hctx : ctx.Closed)
    (hsize : c.world.context.quizzes.size ≤ ctx.quizzes.size) :
    (c.setContext ctx).Addressed :=
  ⟨h.shaped, h.apart, hctx, h.store, fun z hz => (h.quiz z hz).trans_le hsize⟩

/-- A save writes a closed context or brings a closed store back in. -/
theorem save (h : c.Addressed) (saves : Bool) : (c.save saves).Addressed := by
  cases saves with
  | true => exact ⟨h.shaped, h.apart, h.context, h.context, h.quiz⟩
  | false =>
    have hreload : (c.world.context.reload c.world.coreData.store).Closed := h.store.reload _
    refine ⟨h.shaped, h.apart, hreload, hreload, fun z hz => ?_⟩
    refine (h.quiz z hz).trans_le ?_
    show c.world.context.quizzes.size ≤ (c.world.context.quizzes.reload _ _).size
    rw [Heap.size_reload]
    exact Nat.le_add_right _ _

/-- A new data task, apart from the ones before it. -/
theorem addTask (h : c.Addressed) {t : Task} {commits : List Commit}
    (ht : t.request.Shaped c.world.uuids c.world.drawn)
    (hapart : ∀ t' ∈ c.world.tasks, t'.request.Apart t.request) :
    Addressed { c with world.tasks := c.world.tasks ++ [t], world.commits := commits } := by
  refine ⟨?_, ?_, h.context, h.store, h.quiz⟩
  · intro t' ht'
    rcases List.mem_append.mp ht' with ht' | ht'
    · exact h.shaped t' ht'
    · rw [List.mem_singleton.mp ht']
      exact ht
  · refine List.pairwise_append.mpr ⟨h.apart, List.pairwise_singleton _ _, ?_⟩
    intro t' ht' t'' ht''
    rw [List.mem_singleton.mp ht'']
    exact hapart t' ht'

-- ---------------------------------------------------------------------------
-- Users
-- ---------------------------------------------------------------------------

/-- A new user, not put yet. -/
theorem withNewUser (h : c.Addressed) (username password : String) (now : Date) :
    (c.withNewUser username password now).Addressed :=
  ⟨fun t ht => (h.shaped t ht).mono (Nat.le_succ _), h.apart, h.context, h.store, h.quiz⟩

/-- A user is put under no id. -/
theorem putUser (h : c.Addressed) (username : String) (rep : UserRepresentation)
    {commits : List Commit} :
    Addressed { c with
      world.tasks := c.world.tasks ++ [⟨⟨["users", username], .user rep⟩, .createUser⟩]
      world.commits := commits } :=
  h.addTask (.user username rep) fun _ _ _ _ => nofun

theorem syncUser (h : c.Addressed) : c.syncUser.Addressed := by
  refine h.of_world c.world_syncUser ?_
  unfold Core.syncUser
  split <;> rfl

theorem createUser (h : c.Addressed) (username password : String) (env : Env) :
    (c.createUser username password env).1.Addressed :=
  createUser_induction (fun _ username password now h => h.withNewUser username password now)
    (fun _ h => h.save _) (fun _ username rep h => h.putUser username rep)
    (fun _ e h => h.refused e) h username password

theorem getUser (h : c.Addressed) (r : Response) (env : LogInEnv) :
    (c.getUser r env).Addressed :=
  getUser_induction (fun _ username password now h => h.withNewUser username password now)
    (fun _ _ _ h => h.save _) (fun _ username rep h => h.putUser username rep)
    (fun _ e h => h.refused e)
    (fun _ _ h => ⟨h.shaped, h.apart, h.context, h.store, h.quiz⟩)
    (fun _ _ h => h.of_world rfl rfl) (fun _ _ _ _ h => h.of_world rfl rfl)
    (fun _ h => h.syncUser) h r

-- ---------------------------------------------------------------------------
-- Quizzes and quotes
-- ---------------------------------------------------------------------------

/-- A new quiz, not put yet: it may have drawn a UUID. -/
theorem withEmptyQuiz (h : c.Addressed) (title : String) (creator : ObjectID) (env : Env) :
    (c.withEmptyQuiz title creator env).Addressed := by
  refine ⟨?_, ?_, ?_, ?_, ?_⟩
  · intro t ht
    rw [tasks_withEmptyQuiz] at ht
    rw [uuids_withEmptyQuiz]
    refine (h.shaped t ht).mono ?_
    rw [drawn_withEmptyQuiz]
    split <;> omega
  · rw [tasks_withEmptyQuiz]
    exact h.apart
  · rw [context_withEmptyQuiz]
    exact h.context.addQuiz _
  · rw [store_withEmptyQuiz]
    exact h.store
  · intro z hz
    rw [quizController_withEmptyQuiz] at hz
    cases hz
    simp

/-- The request for a new quiz: it has no quotes yet, and the id was drawn for it. -/
theorem emptyQuizPut (h : c.Addressed) {title : String} {creator : ObjectID} {env : Env}
    {r : Request} (hput : c.emptyQuizPut title creator env = .ok r) :
    r.putID = some (c.world.uuids.next c.world.drawn).uuidString ∧
      r.Shaped c.world.uuids (c.withEmptyQuiz title creator env).world.drawn := by
  obtain ⟨-, -, rep, creator', username, hrep, -, -, rfl⟩ := QuizController.put_eq_ok.mp hput
  obtain ⟨hid, hquotes⟩ := Context.quizRepresentation_eq_some hrep
  rw [quotesOf_withEmptyQuiz h.context title creator env, Reordering.apply_nil,
    List.filterMap_nil] at hquotes
  rw [context_withEmptyQuiz] at hid
  have hobject : (c.emptyQuizObject title creator env).id = some rep.id := by
    simpa [Context.quizID] using hid
  obtain ⟨hnext, hdrawn⟩ := c.id_emptyQuizObject hobject
  refine ⟨by rw [← hnext]; rfl, ?_⟩
  rw [hdrawn]
  exact .quiz username rep (Nat.lt_succ_self _) hnext hquotes

/-- The new quiz is put under the id it has drawn, or not at all. -/
theorem createEmptyQuiz (h : c.Addressed) (env : Env) : (c.createEmptyQuiz env).Addressed := by
  have hcases := c.createEmptyQuiz_cases env
  generalize c.createEmptyQuiz env = c' at hcases ⊢
  cases hcases with
  | skipped => exact h
  | refused => exact (h.withEmptyQuiz ..).refused _
  | @added title creator r _ _ hput =>
    obtain ⟨hid, hshaped⟩ := h.emptyQuizPut hput
    have hnew := h.withEmptyQuiz title creator env
    have hsaved := (hnew.setContext (hnew.context.addToQuizzesCreated creator
      c.world.context.quizzes.size) (by simp [Context.addToQuizzesCreated])).save env.saves
    refine (hsaved.addTask (t := ⟨r, .createEmptyQuiz creator c.world.context.quizzes.size⟩)
      ?_ fun t ht => ?_).of_world rfl rfl
    · show r.Shaped (c.withEmptyQuiz title creator env).world.uuids _
      rw [uuids_withEmptyQuiz]
      exact hshaped
    · have hold : t ∈ (c.withEmptyQuiz title creator env).world.tasks := ht
      rw [tasks_withEmptyQuiz] at hold
      exact (h.shaped t hold).apart hid

/-- A new quote, not put yet. -/
theorem withNewQuote (h : c.Addressed) (a : NewQuote) (quizID : UUID) :
    (c.withNewQuote a quizID).Addressed := by
  refine ⟨fun t ht => (h.shaped t ht).mono (Nat.le_succ _), h.apart, h.context.addQuote rfl,
    h.store, ?_⟩
  intro z hz
  rw [quizController_withNewQuote, quiz_syncUser] at hz
  exact h.quiz z hz

/-- The request for a new quote: the id was drawn for it. -/
theorem newQuotePut {a : NewQuote} {quizID : UUID} {env : Env} {r : Request}
    (hput : c.newQuotePut a quizID env = .ok r) :
    r.putID = some (c.world.uuids.next c.world.drawn).uuidString ∧
      r.Shaped c.world.uuids (c.world.drawn + 1) := by
  obtain ⟨-, -, rep, creator, username, hrep, -, -, rfl⟩ := QuoteController.put_eq_ok.mp hput
  have hnew : rep = a.representation (c.world.uuids.next c.world.drawn) quizID := by
    rw [context_withNewQuote] at hrep
    simpa using hrep.symm
  rw [hnew]
  exact ⟨rfl, .quote username (a.representation _ quizID) (Nat.lt_succ_self _) rfl⟩

/-- The new quote is put under the id it has drawn, or not at all. -/
theorem createQuote (h : c.Addressed) (a : NewQuote) (env : Env) :
    (c.createQuote a.firstPart a.secondPart a.answer a.incorrectAnswers env).Addressed := by
  have hcases := c.createQuote_cases a env
  generalize c.createQuote a.firstPart a.secondPart a.answer a.incorrectAnswers env = c'
    at hcases ⊢
  cases hcases with
  | skipped => exact h
  | full => exact h.of_world rfl (quiz_syncUser _)
  | refused => exact (h.withNewQuote ..).refused _
  | @added quiz quizID r hquiz _ _ hput =>
    obtain ⟨hid, hshaped⟩ := newQuotePut hput
    have hnew := h.withNewQuote a quizID
    have hsaved := (hnew.setContext (hnew.context.addToQuotes (h.quiz quiz hquiz)
      c.world.context.quotes.size) (Nat.le_refl _)).save env.saves
    exact (hsaved.addTask (t := ⟨r, .createQuote quiz c.world.context.quotes.size⟩) hshaped
      fun t ht => (h.shaped t ht).apart hid).of_world rfl rfl

/-- **Step.** Every operation keeps the requests addressed. -/
theorem step (h : c.Addressed) (op : Operation) : (c.step op).Addressed := by
  cases op with
  | createUser username password env => exact h.createUser username password env
  | syncUser => exact h.syncUser
  | getUser r env => exact h.getUser r env
  | setTitle title => exact h.of_world rfl rfl
  | createEmptyQuiz env => exact h.createEmptyQuiz env
  | createQuote firstPart secondPart answer incorrectAnswers env =>
    exact h.createQuote ⟨firstPart, secondPart, answer, incorrectAnswers⟩ env
  | moveToNextQuote =>
    obtain ⟨cursor, hmoved⟩ := c.step_moveToNextQuote
    rw [hmoved]
    exact h.of_world rfl rfl
  | moveToPrevQuote =>
    obtain ⟨cursor, hmoved⟩ := c.step_moveToPrevQuote
    rw [hmoved]
    exact h.of_world rfl rfl
  | setupStart quiz fetch => exact h.of_world rfl (QuizController.quiz_setupStart ..)
  | nextQuoteToDisplay =>
    obtain ⟨cursor, hmoved⟩ := c.step_nextQuoteToDisplay
    rw [hmoved]
    exact h.of_world rfl rfl
  | taskFailed index =>
    rw [step_taskFailed]
    exact h

end Addressed

/-- **Run.** The requests of every run are addressed. -/
theorem addressed_run {w : World} (hw : w.coreData.store.Closed) (ops : List Operation) :
    (run Core.step (launch w.relaunch) ops).Addressed :=
  invariant_run_all (fun _ op h => h.step op) (Addressed.launch hw) ops

end Core

end KnowTheQuote
