import KnowTheQuote.Properties.DataSteps
import KnowTheQuote.Properties.Requests

/-!
# Know the Quote — what a failed save costs

A `put` hands its request to the network and only then does its handler save, so a save that
throws comes too late to stop the request. The reset that follows forgets the user and the
quiz the controllers refer to, and their new object with them.

* `Event.InSession`, `Event.Unsaved` — events that are no login; events whose saves throw.
* `Core.Severed` — the controllers refer to nothing the context still has.
* `failed_save_severs` — no request and no save until the next login.
* `failed_save_orphans` — what was put is never stored on the device.
-/

namespace KnowTheQuote

open Machine

-- ---------------------------------------------------------------------------
-- Sessions
-- ---------------------------------------------------------------------------

/-- No user is created and no login ends. -/
def Operation.InSession : Operation → Prop
  | .createUser .. | .getUser .. => False
  | .syncUser | .setTitle _ | .createEmptyQuiz _ | .createQuote .. | .moveToNextQuote
  | .moveToPrevQuote | .setupStart .. | .nextQuoteToDisplay | .taskFailed _ => True

/-- A save of the operation throws. -/
def Operation.Unsaved : Operation → Prop
  | .createUser _ _ env | .createEmptyQuiz env | .createQuote _ _ _ _ env => env.saves = false
  | .getUser _ env =>
    env.onError.saves = false ∧ env.onData.saves = false ∧ env.onStatus.saves = false
  | .syncUser | .setTitle _ | .moveToNextQuote | .moveToPrevQuote | .setupStart ..
  | .nextQuoteToDisplay | .taskFailed _ => True

def EditorAction.Unsaved : EditorAction → Prop
  | .next env _ | .done env _ => env.saves = false
  | .edit _ _ | .prev => True

def Action.Unsaved : Action → Prop
  | .start _ env => env.saves = false
  | .edit a => a.Unsaved
  | .openPlay _ _ _ | .tap _ | .leave => True

/-- The user acts, or something happens to the controllers that is no login. -/
def Event.InSession : Event → Prop
  | .action _ => True
  | .operation op => op.InSession
  | .launch => False

def Event.Unsaved : Event → Prop
  | .action a => a.Unsaved
  | .operation op => op.Unsaved
  | .launch => True

/-- **Actions in a session.** No action of the user logs in, and what it saves fails with it. -/
theorem App.session_operations (s : App) (a : Action) :
    ∃ ops, (s.step a).core = run Core.step s.core ops ∧
      ∀ op ∈ ops, op.InSession ∧ (a.Unsaved → op.Unsaved) := by
  unfold App.step
  split
  · next title env _ =>
    rcases s.start_operations title env with h | h
    · exact ⟨[], h, by simp⟩
    · refine ⟨_, h, ?_⟩
      simp [Operation.InSession, Operation.Unsaved, Action.Unsaved]
  · next a view _ =>
    have hcases := EditorState.step_cases ⟨view, s.core⟩ a
    dsimp only
    generalize EditorState.step ⟨view, s.core⟩ a = e at hcases ⊢
    cases hcases with
    | viewOnly => exact ⟨[], rfl, by simp⟩
    | prev => exact ⟨[.moveToPrevQuote], rfl, by simp [Operation.InSession, Operation.Unsaved]⟩
    | next => exact ⟨[.moveToNextQuote], rfl, by simp [Operation.InSession, Operation.Unsaved]⟩
    | saved _ env order hact =>
      subst hact
      refine ⟨[(view.collected order).operation env, .moveToNextQuote], rfl, ?_⟩
      simp [NewQuote.operation, Operation.InSession, Operation.Unsaved, Action.Unsaved,
        EditorAction.Unsaved]
    | finished _ env order hact =>
      subst hact
      refine ⟨[(view.collected order).operation env], rfl, ?_⟩
      simp [NewQuote.operation, Operation.InSession, Operation.Unsaved, Action.Unsaved,
        EditorAction.Unsaved]
  · next quiz fetch shuffle _ =>
    exact ⟨[.setupStart quiz fetch], rfl, by simp [Operation.InSession, Operation.Unsaved]⟩
  · next t view _ =>
    exact ⟨[.nextQuoteToDisplay], App.tap_operations ⟨view, s.core⟩ t,
      by simp [Operation.InSession, Operation.Unsaved]⟩
  · exact ⟨[], rfl, by simp⟩
  · exact ⟨[], rfl, by simp⟩

/-- What every operation of a session preserves is preserved by an event of one. -/
theorem session_event (Inv : Core → Prop) (p : Operation → Prop)
    (hStep : ∀ c op, Inv c → op.InSession → p op → Inv (c.step op)) {s : App} (hs : Inv s.core)
    {e : Event} (he : e.InSession) (hp : ∀ op, (e.Unsaved → op.Unsaved) → p op) :
    Inv (s.handle e).core := by
  cases e with
  | action a =>
    obtain ⟨ops, hops, hsession⟩ := s.session_operations a
    show Inv (s.step a).core
    rw [hops]
    exact invariant_run_of_forall (p := fun op => op.InSession ∧ p op)
      (fun c op h hop => hStep c op h hop.1 hop.2) hs
      fun op hop => ⟨(hsession op hop).1, hp op (hsession op hop).2⟩
  | operation op => exact hStep _ _ hs he (hp op id)
  | launch => exact he.elim

-- ---------------------------------------------------------------------------
-- Severed
-- ---------------------------------------------------------------------------

namespace Core

/-- The objects the controllers refer to are, or have been, objects of the context. -/
structure Referring (c : Core) : Prop where
  user : ∀ u, c.quizController.user = some u → u < c.world.context.users.size
  current : ∀ u, c.userController.user = some u → u < c.world.context.users.size
  quiz : ∀ z, c.quizController.quiz = some z → z < c.world.context.quizzes.size

/-- The context has forgotten the user and the current quiz, or the quiz has no id. -/
structure Severed (c : Core) : Prop where
  user : ∀ u, c.quizController.user = some u → c.world.context.users.get? u = none
  current : ∀ u, c.userController.user = some u → c.world.context.users.get? u = none
  quiz : ∀ z, c.quizController.quiz = some z → c.world.context.quizID z = none

variable {c c' : Core}

namespace Referring

theorem launch (w : World) : (Core.launch w).Referring := ⟨nofun, nofun, nofun⟩

/-- Only the references matter, and the context does not shrink. -/
theorem of_same (h : c.Referring) (huser : c'.quizController.user = c.quizController.user)
    (hcurrent : c'.userController.user = c.userController.user)
    (hquiz : c'.quizController.quiz = c.quizController.quiz)
    (husers : c.world.context.users.size ≤ c'.world.context.users.size)
    (hquizzes : c.world.context.quizzes.size ≤ c'.world.context.quizzes.size) :
    c'.Referring :=
  ⟨fun u hu => (h.user u (huser ▸ hu)).trans_le husers,
    fun u hu => (h.current u (hcurrent ▸ hu)).trans_le husers,
    fun z hz => (h.quiz z (hquiz ▸ hz)).trans_le hquizzes⟩

theorem save (h : c.Referring) (saves : Bool) : (c.save saves).Referring := by
  cases saves with
  | true => exact ⟨h.user, h.current, h.quiz⟩
  | false =>
    refine h.of_same rfl rfl rfl ?_ ?_
    · simp [World.context_save_false, Context.reload]
    · simp [World.context_save_false, Context.reload]

/-- **A reset** forgets everything the controllers refer to. -/
theorem severed (h : c.Referring) : (c.save false).Severed := by
  refine ⟨fun u hu => ?_, fun u hu => ?_, fun z hz => ?_⟩
  · exact Heap.get?_reload_of_lt _ _ (h.user u hu)
  · exact Heap.get?_reload_of_lt _ _ (h.current u hu)
  · have hdead : (c.save false).world.context.quizzes.get? z = none :=
      Heap.get?_reload_of_lt _ _ (h.quiz z hz)
    rw [Context.quizID, hdead, Option.bind_none]

theorem withNewUser (h : c.Referring) (username password : String) (now : Date) :
    (c.withNewUser username password now).Referring := by
  have hsize : c.world.context.users.size <
      (c.withNewUser username password now).world.context.users.size := by
    rw [context_withNewUser, Heap.size_alloc]
    exact Nat.lt_succ_self _
  refine ⟨fun u hu => (h.user u hu).trans hsize, fun u hu => ?_, h.quiz⟩
  cases hu
  exact hsize

theorem syncUser (h : c.Referring) : c.syncUser.Referring := by
  unfold Core.syncUser
  split
  · exact ⟨h.current, h.current, h.quiz⟩
  · exact h

theorem withLinkedQuiz (h : c.Referring) (title : String) (creator : ObjectID) (env : Env) :
    (c.withLinkedQuiz title creator env).Referring := by
  refine ⟨?_, fun u hu => ?_, fun z hz => ?_⟩
  · simpa [Core.withLinkedQuiz, Context.addToQuizzesCreated] using h.user
  · have hlt := h.current u hu
    simpa [Core.withLinkedQuiz, Context.addToQuizzesCreated] using hlt
  · have hz : c.world.context.quizzes.size = z := by simpa [Core.withLinkedQuiz] using hz
    simp [Core.withLinkedQuiz, Context.addToQuizzesCreated, ← hz]

theorem withLinkedQuote (h : c.Referring) (a : NewQuote) (quiz : ObjectID) (quizID : UUID) :
    (c.withLinkedQuote a quiz quizID).Referring :=
  h.of_same (user_syncUser _) rfl (quiz_syncUser _) (Nat.le_refl _) (Nat.le_refl _)

theorem step (h : c.Referring) (op : Operation) : (c.step op).Referring := by
  cases op with
  | createUser username password env =>
    exact createUser_induction (fun _ _ _ _ h => h.withNewUser _ _ _) (fun _ h => h.save _)
      (fun _ _ _ h => ⟨h.user, h.current, h.quiz⟩) (fun _ _ h => ⟨h.user, h.current, h.quiz⟩) h
      username password
  | syncUser => exact h.syncUser
  | getUser r env =>
    refine getUser_induction (fun _ _ _ _ h => h.withNewUser _ _ _) (fun _ _ _ h => h.save _)
      (fun _ _ _ h => ⟨h.user, h.current, h.quiz⟩) (fun _ _ h => ⟨h.user, h.current, h.quiz⟩)
      (fun _ _ h => ⟨h.user, h.current, h.quiz⟩) (fun _ _ h => ⟨h.user, h.current, h.quiz⟩) ?_
      (fun _ h => h.syncUser) h r
    -- the lookup found a user of the context
    intro c user name hmem h
    obtain ⟨u, hu, -⟩ := mem_fetchUsers.mp hmem
    refine ⟨h.user, fun u' hu' => ?_, h.quiz⟩
    cases hu'
    exact Heap.lt_size_of_get? hu
  | setTitle title => exact ⟨h.user, h.current, h.quiz⟩
  | createEmptyQuiz env =>
    have hcases := c.createEmptyQuiz_cases env
    show (c.createEmptyQuiz env).Referring
    generalize c.createEmptyQuiz env = c' at hcases ⊢
    cases hcases with
    | skipped => exact h
    | @refused title creator =>
      refine ⟨by simpa using h.user, by simpa using h.current, fun z hz => ?_⟩
      have hz : c.world.context.quizzes.size = z := by simpa using hz
      simp [← hz]
    | @added title creator =>
      have hlinked := (h.withLinkedQuiz title creator env).save env.saves
      exact ⟨hlinked.user, hlinked.current, hlinked.quiz⟩
  | createQuote first second answer incorrect env =>
    have hcases := c.createQuote_cases ⟨first, second, answer, incorrect⟩ env
    show (c.createQuote first second answer incorrect env).Referring
    generalize c.createQuote first second answer incorrect env = c' at hcases ⊢
    cases hcases with
    | skipped => exact h
    | full =>
      exact h.of_same (user_syncUser _) rfl (quiz_syncUser _) (Nat.le_refl _) (Nat.le_refl _)
    | refused =>
      exact h.of_same (user_syncUser _) rfl (quiz_syncUser _) (Nat.le_refl _) (Nat.le_refl _)
    | @added quiz quizID =>
      have hlinked := (h.withLinkedQuote ⟨first, second, answer, incorrect⟩ quiz quizID).save
        env.saves
      exact ⟨hlinked.user, hlinked.current, hlinked.quiz⟩
  | moveToNextQuote =>
    obtain ⟨cursor, hmoved⟩ := c.step_moveToNextQuote
    rw [hmoved]
    exact ⟨h.user, h.current, h.quiz⟩
  | moveToPrevQuote =>
    obtain ⟨cursor, hmoved⟩ := c.step_moveToPrevQuote
    rw [hmoved]
    exact ⟨h.user, h.current, h.quiz⟩
  | setupStart quiz fetch =>
    exact h.of_same (QuizController.user_setupStart ..) rfl (QuizController.quiz_setupStart ..)
      (Nat.le_refl _) (Nat.le_refl _)
  | nextQuoteToDisplay =>
    obtain ⟨cursor, hmoved⟩ := c.step_nextQuoteToDisplay
    rw [hmoved]
    exact ⟨h.user, h.current, h.quiz⟩
  | taskFailed index =>
    rw [step_taskFailed]
    exact h

/-- **A failed save.** In a session, an operation whose save throws either issues no request or
leaves the controllers severed. -/
theorem unsaved_step (h : c.Referring) {op : Operation} (hsession : op.InSession)
    (hunsaved : op.Unsaved) :
    (c.step op).world.tasks = c.world.tasks ∨ (c.step op).Severed := by
  cases op with
  | createUser => exact hsession.elim
  | getUser => exact hsession.elim
  | createEmptyQuiz env =>
    have hsaves : env.saves = false := hunsaved
    have hcases := c.createEmptyQuiz_cases env
    show (c.createEmptyQuiz env).world.tasks = _ ∨ (c.createEmptyQuiz env).Severed
    generalize c.createEmptyQuiz env = c' at hcases ⊢
    cases hcases with
    | skipped => exact .inl rfl
    | refused => exact .inl (by simp)
    | @added title creator =>
      have hsevered := (h.withLinkedQuiz title creator env).severed
      rw [hsaves]
      exact .inr ⟨hsevered.user, hsevered.current, hsevered.quiz⟩
  | createQuote first second answer incorrect env =>
    have hsaves : env.saves = false := hunsaved
    have hcases := c.createQuote_cases ⟨first, second, answer, incorrect⟩ env
    show (c.createQuote first second answer incorrect env).world.tasks = _ ∨
      (c.createQuote first second answer incorrect env).Severed
    generalize c.createQuote first second answer incorrect env = c' at hcases ⊢
    cases hcases with
    | skipped => exact .inl rfl
    | full => exact .inl rfl
    | refused => exact .inl rfl
    | @added quiz quizID =>
      have hsevered :=
        (h.withLinkedQuote ⟨first, second, answer, incorrect⟩ quiz quizID).severed
      rw [hsaves]
      exact .inr ⟨hsevered.user, hsevered.current, hsevered.quiz⟩
  | syncUser => exact .inl (congrArg World.tasks c.world_syncUser)
  | setTitle | moveToNextQuote | moveToPrevQuote | setupStart | nextQuoteToDisplay =>
    exact .inl rfl
  | taskFailed index => exact .inl (by rw [step_taskFailed])

end Referring

/-- Neither a request nor a save. -/
structure Silent (c c' : Core) : Prop where
  tasks : c'.world.tasks = c.world.tasks
  store : c'.world.coreData.store = c.world.coreData.store

namespace Severed

theorem not_username (h : c.Severed) {u : ObjectID} (hu : c.quizController.user = some u) :
    c.world.context.username u = none := by
  rw [Context.username, h.user u hu, Option.bind_none]

/-- Only the references and the objects matter. -/
theorem of_same (h : c.Severed) (huser : c'.quizController.user = c.quizController.user)
    (hcurrent : c'.userController.user = c.userController.user)
    (hquiz : c'.quizController.quiz = c.quizController.quiz)
    (hcontext : c'.world.context = c.world.context) : c'.Severed := by
  refine ⟨fun u hu => ?_, fun u hu => ?_, fun z hz => ?_⟩
  · rw [hcontext]
    exact h.user u (huser ▸ hu)
  · rw [hcontext]
    exact h.current u (hcurrent ▸ hu)
  · rw [hcontext]
    exact h.quiz z (hquiz ▸ hz)

/-- The new quiz is left without an id, and the `put` is refused. -/
theorem createEmptyQuiz (h : c.Severed) (env : Env) :
    (c.createEmptyQuiz env).Severed ∧ c.Silent (c.createEmptyQuiz env) := by
  have hcases := c.createEmptyQuiz_cases env
  generalize c.createEmptyQuiz env = c' at hcases ⊢
  cases hcases with
  | skipped => exact ⟨h, rfl, rfl⟩
  | @refused title creator e _ huser =>
    have hobject : c.emptyQuizObject title creator env = {} := by
      rw [emptyQuizObject, h.user creator huser, Option.bind_none]
    refine ⟨⟨?_, ?_, fun z hz => ?_⟩, by simp, by simp⟩
    · simpa using h.user
    · simpa using h.current
    · have hz : c.world.context.quizzes.size = z := by simpa using hz
      simp [Context.quizID, ← hz, hobject]
  | @added title creator r _ huser hput =>
    obtain ⟨-, -, _, user, name, -, huser', hname, -⟩ := QuizController.put_eq_ok.mp hput
    rw [context_withEmptyQuiz] at hname
    rw [quizController_withEmptyQuiz] at huser'
    have hnone : c.world.context.username user = none := h.not_username huser'
    rw [Context.username] at hname hnone
    rw [hnone] at hname
    cases hname

/-- `createQuote` finds no quiz with an id. -/
theorem createQuote (h : c.Severed) (a : NewQuote) (env : Env) :
    c.createQuote a.firstPart a.secondPart a.answer a.incorrectAnswers env = c := by
  have hcases := c.createQuote_cases a env
  generalize c.createQuote a.firstPart a.secondPart a.answer a.incorrectAnswers env = c'
    at hcases ⊢
  cases hcases with
  | skipped => rfl
  | full hquiz hid | refused hquiz hid | added hquiz hid =>
    rw [h.quiz _ hquiz] at hid
    cases hid

/-- **No way out.** Until the next login every operation finds nothing to put. -/
theorem step (h : c.Severed) {op : Operation} (hsession : op.InSession) :
    (c.step op).Severed ∧ c.Silent (c.step op) := by
  cases op with
  | createUser => exact hsession.elim
  | getUser => exact hsession.elim
  | syncUser =>
    have hworld := c.world_syncUser
    refine ⟨?_, congrArg World.tasks hworld, by rw [show c.step .syncUser = c.syncUser from rfl,
      hworld]⟩
    show c.syncUser.Severed
    unfold Core.syncUser
    split
    · exact ⟨h.current, h.current, h.quiz⟩
    · exact h
  | createEmptyQuiz env => exact h.createEmptyQuiz env
  | createQuote first second answer incorrect env =>
    have hsame := h.createQuote ⟨first, second, answer, incorrect⟩ env
    rw [show c.step (.createQuote first second answer incorrect env) = c from hsame]
    exact ⟨h, rfl, rfl⟩
  | setTitle title => exact ⟨⟨h.user, h.current, h.quiz⟩, rfl, rfl⟩
  | moveToNextQuote =>
    obtain ⟨cursor, hmoved⟩ := c.step_moveToNextQuote
    rw [hmoved]
    exact ⟨⟨h.user, h.current, h.quiz⟩, rfl, rfl⟩
  | moveToPrevQuote =>
    obtain ⟨cursor, hmoved⟩ := c.step_moveToPrevQuote
    rw [hmoved]
    exact ⟨⟨h.user, h.current, h.quiz⟩, rfl, rfl⟩
  | setupStart quiz fetch =>
    exact ⟨h.of_same (QuizController.user_setupStart ..) rfl (QuizController.quiz_setupStart ..)
      rfl, rfl, rfl⟩
  | nextQuoteToDisplay =>
    obtain ⟨cursor, hmoved⟩ := c.step_nextQuoteToDisplay
    rw [hmoved]
    exact ⟨⟨h.user, h.current, h.quiz⟩, rfl, rfl⟩
  | taskFailed index =>
    rw [step_taskFailed]
    exact ⟨h, rfl, rfl⟩

end Severed

end Core

/-- A session after a save that has thrown, from any state. -/
theorem silent_of_failed_save {s : App} (h : s.core.Referring) {e : Event} (he : e.InSession)
    (hunsaved : e.Unsaved) (hissues : (s.handle e).core.world.tasks ≠ s.core.world.tasks)
    {es : List Event} (hes : ∀ e ∈ es, e.InSession) :
    (s.handle e).core.Silent (run App.handle (s.handle e) es).core := by
  -- the event severs the controllers
  have hsevers : (s.handle e).core.Referring ∧
      ((s.handle e).core.world.tasks = s.core.world.tasks ∨ (s.handle e).core.Severed) := by
    refine session_event (fun c => c.Referring ∧ (c.world.tasks = s.core.world.tasks ∨ c.Severed))
      Operation.Unsaved (fun c op h hsession hop => ⟨h.1.step op, ?_⟩) ⟨h, .inl rfl⟩ he
      fun op hop => hop hunsaved
    rcases h.2 with hsame | hsevered
    · exact (h.1.unsaved_step hsession hop).imp_left fun heq => heq.trans hsame
    · exact .inr (hsevered.step hsession).1
  have hsevered := hsevers.2.resolve_left hissues
  -- and they stay so
  have hstep : ∀ (s' : App) e', (s'.core.Severed ∧ (s.handle e).core.Silent s'.core) →
      e'.InSession →
        (s'.handle e').core.Severed ∧ (s.handle e).core.Silent (s'.handle e').core := by
    intro s' e' h he'
    refine session_event (fun c => c.Severed ∧ (s.handle e).core.Silent c) (fun _ => True)
      (fun c op h hsession _ => ?_) h he' fun _ _ => trivial
    obtain ⟨hnext, hsilent⟩ := h.1.step hsession
    exact ⟨hnext, hsilent.tasks.trans h.2.tasks, hsilent.store.trans h.2.store⟩
  exact (invariant_run_of_forall hstep ⟨hsevered, rfl, rfl⟩ hes).2

/-- What a run of the app refers to. -/
theorem referring_run (w : World) (es : List Event) :
    (run App.handle { core := .launch w.relaunch } es).core.Referring :=
  event_invariant_run _ (fun _ op h => h.step op) (fun _ _ => .launch _)
    (s := { core := .launch w.relaunch }) (.launch _) es

/-- **A failed save silences the session.** Take any run of the app over any store, then an
event that is no login, whose saves throw and which issues a request. From then on, whatever
the user does and however the saves would end, no request is issued and nothing is stored
until a login ends or the app is launched again. -/
theorem failed_save_severs (w : World) (es : List Event) (e : Event) (he : e.InSession)
    (hunsaved : e.Unsaved) (es' : List Event) (hes' : ∀ e ∈ es', e.InSession) :
    let before := run App.handle { core := .launch w.relaunch } es
    let failed := before.handle e
    failed.core.world.tasks ≠ before.core.world.tasks →
      failed.core.Silent (run App.handle failed es').core :=
  fun hissues => silent_of_failed_save (referring_run w es) he hunsaved hissues hes'

/-- A login without a connection. -/
def Event.offlineLogIn : Event :=
  .operation (.getUser { data := none, statusCode := none, error := true } {})

/-- The quiz has been put, but its save throws: a second quiz is neither put nor stored. -/
theorem failed_save_severs_firstQuiz :
    let before := run App.handle { core := .launch ({ uuids := .numbered } : World).relaunch }
      [.offlineLogIn]
    let failed := before.handle (.action (.start "Films" { saves := false }))
    failed.core.Silent (run App.handle failed
      [.action .leave, .action (.start "Books" {})]).core :=
  failed_save_severs { uuids := .numbered } [.offlineLogIn]
    (.action (.start "Films" { saves := false })) trivial rfl
    [.action .leave, .action (.start "Books" {})]
    (by simp [Event.InSession]) (by decide)

-- ---------------------------------------------------------------------------
-- Orphans
-- ---------------------------------------------------------------------------

/-- No quiz and no quote has the id. -/
structure Context.Lacks (c : Context) (id : String) : Prop where
  quizzes : ∀ z quiz, c.quizzes.get? z = some quiz → quiz.id.map UUID.uuidString ≠ some id
  quotes : ∀ r q, c.quotes.get? r = some q → q.quoteID ≠ some id

namespace Core

variable {c : Core} {uuids : UUIDSource}

/-- Every id in the context and in the store is one of those drawn. -/
def Drawn (uuids : UUIDSource) : Core → Prop :=
  HasIDs uuids 0 (fun drawn id => ∃ n < drawn, id = uuids.next n)
    (fun drawn id => ∃ n < drawn, id = (uuids.next n).uuidString)

/-- UUID number `n` has been drawn, and nothing in the context or in the store has it. -/
def Without (uuids : UUIDSource) (n : Nat) : Core → Prop :=
  HasIDs uuids (n + 1) (fun _ id => id ≠ uuids.next n) (fun _ id => id ≠ (uuids.next n).uuidString)

theorem Without.lacks {n : Nat} (h : c.Without uuids n) :
    c.world.coreData.store.Lacks (uuids.next n).uuidString := by
  refine ⟨fun z quiz hz hid => ?_, fun r q hr hid => h.store.quotes r q hr _ hid rfl⟩
  obtain ⟨id, hid, hstring⟩ := Option.map_eq_some_iff.mp hid
  exact h.store.quizzes z quiz hz id hid (congrArg UUID.mk hstring)

/-- The request for a new quiz is put under the UUID drawn for it. -/
theorem putID_emptyQuizPut {title : String} {creator : ObjectID} {env : Env} {r : Request}
    (hput : c.emptyQuizPut title creator env = .ok r) :
    r.putID = some (c.world.uuids.next c.world.drawn).uuidString ∧
      (c.withEmptyQuiz title creator env).world.drawn = c.world.drawn + 1 := by
  obtain ⟨-, -, rep, _, _, hrep, -, -, rfl⟩ := QuizController.put_eq_ok.mp hput
  obtain ⟨hid, -⟩ := Context.quizRepresentation_eq_some hrep
  rw [context_withEmptyQuiz] at hid
  have hobject : (c.emptyQuizObject title creator env).id = some rep.id := by
    simpa [Context.quizID] using hid
  obtain ⟨hnext, hdrawn⟩ := c.id_emptyQuizObject hobject
  exact ⟨by rw [← hnext]; rfl, hdrawn⟩

/-- After a reset the UUIDs drawn since the last save are on nothing. -/
theorem Drawn.without {c' : Core} (h : c.Drawn uuids) (huuids : c'.world.uuids = c.world.uuids)
    (hdrawn : c.world.drawn < c'.world.drawn)
    (hdata : ∃ ctx : Context, c'.world.coreData =
      ⟨ctx.reload c.world.coreData.store, ctx.reload c.world.coreData.store⟩) :
    c'.Without uuids c.world.drawn := by
  obtain ⟨ctx, hdata⟩ := hdata
  have hstore : c.world.coreData.store.HasIDs (fun id => id ≠ uuids.next c.world.drawn)
      (fun id => id ≠ (uuids.next c.world.drawn).uuidString) := by
    refine h.store.mono ?_ ?_
    · rintro id ⟨n, hn, rfl⟩ heq
      exact hn.ne (uuids.injective heq)
    · rintro id ⟨n, hn, rfl⟩ heq
      exact hn.ne (uuids.uuidString_injective heq)
  have hreload := hstore.reload ctx
  refine ⟨huuids.trans h.source, hdrawn, ?_, ?_⟩
  · show c'.world.coreData.context.HasIDs _ _
    rw [hdata]
    exact hreload
  · rw [hdata]
    exact hreload

/-- **A failed save.** In a session, the request of an operation whose save throws is put under
an id that nothing in the context or in the store has. -/
theorem Drawn.unsaved_step (h : c.Drawn uuids) {op : Operation} (hsession : op.InSession)
    (hunsaved : op.Unsaved) {t : Task} (ht : t ∈ (c.step op).world.tasks) :
    t ∈ c.world.tasks ∨ t.request.putID = some (uuids.next c.world.drawn).uuidString ∧
      (c.step op).Without uuids c.world.drawn := by
  cases op with
  | createUser => exact hsession.elim
  | getUser => exact hsession.elim
  | createEmptyQuiz env =>
    have hsaves : env.saves = false := hunsaved
    have hcases := c.createEmptyQuiz_cases env
    change t ∈ (c.createEmptyQuiz env).world.tasks at ht
    show _ ∨ _ ∧ (c.createEmptyQuiz env).Without uuids c.world.drawn
    generalize c.createEmptyQuiz env = c' at hcases ht ⊢
    cases hcases with
    | skipped => exact .inl ht
    | refused => exact .inl (by simpa using ht)
    | @added title creator r _ _ hput =>
      rw [tasks_put_createEmptyQuiz, tasks_withEmptyQuiz] at ht
      refine (List.mem_append.mp ht).imp_right fun hnew => ?_
      obtain ⟨hid, hdrawn⟩ := putID_emptyQuizPut hput
      rw [List.mem_singleton.mp hnew]
      refine ⟨h.source ▸ hid, h.without ?_ ?_ ?_⟩
      · rw [uuids_put_createEmptyQuiz, uuids_withEmptyQuiz]
      · rw [drawn_put_createEmptyQuiz, hdrawn]
        exact Nat.lt_succ_self _
      · refine ⟨(c.withLinkedQuiz title creator env).world.context, ?_⟩
        rw [hsaves, ← store_withEmptyQuiz c title creator env]
        rfl
  | createQuote first second answer incorrect env =>
    have hsaves : env.saves = false := hunsaved
    have hcases := c.createQuote_cases ⟨first, second, answer, incorrect⟩ env
    change t ∈ (c.createQuote first second answer incorrect env).world.tasks at ht
    show _ ∨ _ ∧ (c.createQuote first second answer incorrect env).Without uuids c.world.drawn
    generalize c.createQuote first second answer incorrect env = c' at hcases ht ⊢
    cases hcases with
    | skipped => exact .inl ht
    | full => exact .inl ht
    | refused => exact .inl ht
    | @added quiz quizID r _ _ _ hput =>
      rw [tasks_put_createQuote, tasks_withNewQuote] at ht
      refine (List.mem_append.mp ht).imp_right fun hnew => ?_
      obtain ⟨hid, -⟩ := Addressed.newQuotePut hput
      rw [List.mem_singleton.mp hnew]
      refine ⟨h.source ▸ hid, h.without rfl (Nat.lt_succ_self _) ?_⟩
      exact ⟨(c.withLinkedQuote ⟨first, second, answer, incorrect⟩ quiz quizID).world.context,
        by rw [hsaves]; rfl⟩
  | syncUser =>
    have hworld : (c.step .syncUser).world = c.world := c.world_syncUser
    exact .inl (hworld ▸ ht)
  | setTitle | moveToNextQuote | moveToPrevQuote | setupStart | nextQuoteToDisplay =>
    exact .inl ht
  | taskFailed index =>
    rw [step_taskFailed] at ht
    exact .inl ht

end Core

/-- What a failed save has put is on nothing, and no later operation or launch changes that. -/
theorem lacks_of_failed_save {s : App} {uuids : UUIDSource} (h : s.core.Drawn uuids) {e : Event}
    (he : e.InSession) (hunsaved : e.Unsaved) {t : Task}
    (ht : t ∈ (s.handle e).core.world.tasks) (hnew : t ∉ s.core.world.tasks) :
    ∃ id, t.request.putID = some id ∧
      ∀ es, (run App.handle (s.handle e) es).core.world.coreData.store.Lacks id := by
  have hevent : (s.handle e).core.Drawn uuids ∧ ∀ t ∈ (s.handle e).core.world.tasks,
      t ∈ s.core.world.tasks ∨ ∃ n, t.request.putID = some (uuids.next n).uuidString ∧
        (s.handle e).core.Without uuids n := by
    refine session_event (fun c => c.Drawn uuids ∧ ∀ t ∈ c.world.tasks, t ∈ s.core.world.tasks ∨
      ∃ n, t.request.putID = some (uuids.next n).uuidString ∧ c.Without uuids n)
      Operation.Unsaved ?_ ⟨h, fun _ => .inl⟩ he fun op hop => hop hunsaved
    rintro c op ⟨hdrawn, htasks⟩ hsession hop
    refine ⟨hdrawn.step uuids.admits_drawn op, fun t ht => ?_⟩
    rcases hdrawn.unsaved_step hsession hop ht with hold | ⟨hid, hwithout⟩
    · refine (htasks t hold).imp_right fun ⟨n, hid, hwithout⟩ => ⟨n, hid, ?_⟩
      exact hwithout.step (uuids.admits_ne n) op
    · exact .inr ⟨_, hid, hwithout⟩
  obtain ⟨n, hid, hwithout⟩ := (hevent.2 t ht).resolve_left hnew
  refine ⟨_, hid, fun es => ?_⟩
  have hafter : (run App.handle (s.handle e) es).core.Without uuids n :=
    event_invariant_run (Core.Without uuids n)
      (fun _ op h => Core.HasIDs.step (uuids.admits_ne n) h op)
      (fun _ h => Core.HasIDs.launch h) hwithout es
  exact hafter.lacks

/-- **A failed save orphans its request.** Over a store whose ids were drawn from the device's
source, take any run of the app, then an event that is no login and whose saves throw. Every
request it issues is for a quiz or a quote under an id that no quiz and no quote of the
device's store ever has, whatever happens later, logins and launches included. -/
theorem failed_save_orphans (w : World)
    (hids : w.coreData.store.HasIDs (fun id => ∃ n < w.drawn, id = w.uuids.next n)
      (fun id => ∃ n < w.drawn, id = (w.uuids.next n).uuidString))
    (es : List Event) (e : Event) (he : e.InSession) (hunsaved : e.Unsaved) :
    let before := run App.handle { core := .launch w.relaunch } es
    let failed := before.handle e
    ∀ t ∈ failed.core.world.tasks, t ∉ before.core.world.tasks →
      ∃ id, t.request.putID = some id ∧
        ∀ es', (run App.handle failed es').core.world.coreData.store.Lacks id := by
  intro before failed t ht hnew
  have hbefore : before.core.Drawn w.uuids :=
    event_invariant_run (Core.Drawn w.uuids)
      (fun _ op h => Core.HasIDs.step w.uuids.admits_drawn h op)
      (fun _ h => Core.HasIDs.launch h) (s := { core := .launch w.relaunch })
      ⟨rfl, Nat.zero_le _, hids, hids⟩ es
  exact lacks_of_failed_save hbefore he hunsaved ht hnew

/-- The task that puts the first quiz of a launch. -/
def Task.firstQuiz : Task where
  request :=
    { path := ["users", "userOne", "quizzesCreated", "1"]
      body := .quiz
        { id := ⟨"1"⟩, title := "Films", dateCreated := 0, creatorID := "0", quotes := []
          hasBeenReported := false } }
  completion := .createEmptyQuiz 0 0

theorem failed_save_orphans_firstQuiz :
    let failed := (run App.handle { core := .launch ({ uuids := .numbered } : World).relaunch }
      [.offlineLogIn]).handle (.action (.start "Films" { saves := false }))
    ∃ id, Task.firstQuiz.request.putID = some id ∧
      ∀ es', (run App.handle failed es').core.world.coreData.store.Lacks id :=
  failed_save_orphans { uuids := .numbered } .empty [.offlineLogIn]
    (.action (.start "Films" { saves := false })) trivial rfl .firstQuiz (by decide) (by decide)

end KnowTheQuote
