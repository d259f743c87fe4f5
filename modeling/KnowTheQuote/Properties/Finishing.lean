import KnowTheQuote.Properties.EditorGuards

/-!
# Know the Quote — finishing a quiz

Done is enabled when the quiz has enough quotes, but it only finishes the quiz when the
fields on the screen hold one quote more. Whatever `createQuote` then does with that one,
the saved quotes stay: a save writes the context, which has them all, and a reset brings
them back.

* `CoreDataStack.HoldsStore` — the context has what the store has.
* `hasQuote_save` — a save keeps the quotes of a quiz, also when it throws.
* `done_finishes_iff` — when Done finishes the quiz.
-/

namespace KnowTheQuote

open Machine

-- ---------------------------------------------------------------------------
-- The store and the context
-- ---------------------------------------------------------------------------

/-- The quiz with this id has a quote with these attributes. -/
def Context.HasQuote (ctx : Context) (id : UUID) (q : Quote) : Prop :=
  ∃ r z, ctx.quotes.get? r = some { q with quiz := some z } ∧ ctx.quizID z = some id

/-- The saved quizzes and quotes are objects of the context, as they were saved. -/
structure CoreDataStack.HoldsStore (s : CoreDataStack) : Prop where
  quizzes : ∀ r z, s.store.quizzes.get? r = some z → s.context.quizzes.get? r = some z
  quotes : ∀ r q, s.store.quotes.get? r = some q → s.context.quotes.get? r = some q

namespace CoreDataStack

variable {s : CoreDataStack} {id : UUID} {q : Quote}

theorem HoldsStore.hasQuote (h : s.HoldsStore) (hq : s.store.HasQuote id q) :
    s.context.HasQuote id q := by
  obtain ⟨r, z, hr, hz⟩ := hq
  obtain ⟨quiz, hquiz, hid⟩ := Option.bind_eq_some_iff.mp hz
  refine ⟨r, z, h.quotes r _ hr, ?_⟩
  rw [Context.quizID, h.quizzes z _ hquiz]
  exact hid

/-- After a save the context and the store are the same, whether it throws or not. -/
theorem holdsStore_save (s : CoreDataStack) (saves : Bool) : (s.save saves).HoldsStore := by
  cases saves with
  | true => exact ⟨fun _ _ h => h, fun _ _ h => h⟩
  | false => exact ⟨fun _ _ h => h, fun _ _ h => h⟩

/-- The reloaded objects have new numbers, and the same attributes. -/
theorem hasQuote_reload {ctx store : Context} (h : store.HasQuote id q) :
    (ctx.reload store).HasQuote id q := by
  obtain ⟨r, z, hr, hz⟩ := h
  obtain ⟨quiz, hquiz, hid⟩ := Option.bind_eq_some_iff.mp hz
  refine ⟨ctx.quotes.size + r, ctx.quizzes.size + z, ?_, ?_⟩
  · rw [Context.reload, Heap.get?_reload_add, hr]
    rfl
  · rw [Context.quizID, Context.reload, Heap.get?_reload_add, hquiz]
    exact hid

/-- A save keeps what is in the context, and a save that throws what is in the store. -/
theorem hasQuote_save (hcontext : s.context.HasQuote id q) (hstore : s.store.HasQuote id q)
    (saves : Bool) : (s.save saves).store.HasQuote id q := by
  cases saves with
  | true => exact hcontext
  | false => exact hasQuote_reload hstore

end CoreDataStack

-- ---------------------------------------------------------------------------
-- The operations
-- ---------------------------------------------------------------------------

namespace Core

variable {c : Core}

/-- A new object leaves the saved ones alone. -/
theorem holdsStore_withNewQuote (h : c.world.coreData.HoldsStore) (a : NewQuote) (quizID : UUID) :
    (c.withNewQuote a quizID).world.coreData.HoldsStore := by
  refine ⟨h.quizzes, fun r q hr => ?_⟩
  have hlive := h.quotes r q hr
  show (c.withNewQuote a quizID).world.context.quotes.get? r = some q
  rw [context_withNewQuote]
  exact (Heap.get?_alloc_of_lt _ (Heap.lt_size_of_get? hlive)).trans hlive

theorem holdsStore_withEmptyQuiz (h : c.world.coreData.HoldsStore) (title : String)
    (creator : ObjectID) (env : Env) :
    (c.withEmptyQuiz title creator env).world.coreData.HoldsStore := by
  have hstore := c.store_withEmptyQuiz title creator env
  have hcontext := c.context_withEmptyQuiz title creator env
  refine ⟨fun r z hr => ?_, fun r q hr => ?_⟩
  · rw [hstore] at hr
    have hlive := h.quizzes r z hr
    show (c.withEmptyQuiz title creator env).world.context.quizzes.get? r = some z
    rw [hcontext]
    exact (Heap.get?_alloc_of_lt _ (Heap.lt_size_of_get? hlive)).trans hlive
  · rw [hstore] at hr
    show (c.withEmptyQuiz title creator env).world.context.quotes.get? r = some q
    rw [hcontext]
    exact h.quotes r q hr

theorem holdsStore_syncUser (h : c.world.coreData.HoldsStore) :
    c.syncUser.world.coreData.HoldsStore := by
  rw [world_syncUser]
  exact h

/-- One operation. -/
theorem holdsStore_step (h : c.world.coreData.HoldsStore) (op : Operation) :
    (c.step op).world.coreData.HoldsStore := by
  cases op with
  | createUser username password env =>
    exact createUser_induction (P := fun c => c.world.coreData.HoldsStore)
      (fun _ _ _ _ h => ⟨h.quizzes, h.quotes⟩) (fun c _ => c.world.coreData.holdsStore_save _)
      (fun _ _ _ h => h) (fun _ _ h => h) h username password
  | syncUser => exact holdsStore_syncUser h
  | getUser r env =>
    exact getUser_induction (P := fun c => c.world.coreData.HoldsStore)
      (fun _ _ _ _ h => ⟨h.quizzes, h.quotes⟩) (fun c _ _ _ => c.world.coreData.holdsStore_save _)
      (fun _ _ _ h => h) (fun _ _ h => h) (fun _ _ h => h) (fun _ _ h => h) (fun _ _ _ _ h => h)
      (fun _ h => holdsStore_syncUser h) h r
  | setTitle title => exact h
  | createEmptyQuiz env =>
    have hcases := c.createEmptyQuiz_cases env
    show (c.createEmptyQuiz env).world.coreData.HoldsStore
    generalize c.createEmptyQuiz env = c' at hcases ⊢
    cases hcases with
    | skipped => exact h
    | refused => exact holdsStore_withEmptyQuiz h _ _ _
    | added => exact CoreDataStack.holdsStore_save _ _
  | createQuote first second answer incorrect env =>
    have hcases := c.createQuote_cases ⟨first, second, answer, incorrect⟩ env
    show (c.createQuote first second answer incorrect env).world.coreData.HoldsStore
    generalize c.createQuote first second answer incorrect env = c' at hcases ⊢
    cases hcases with
    | skipped => exact h
    | full => exact h
    | refused => exact holdsStore_withNewQuote h _ _
    | added => exact CoreDataStack.holdsStore_save _ _
  | moveToNextQuote => exact h
  | moveToPrevQuote => exact h
  | setupStart quiz fetch => exact h
  | nextQuoteToDisplay => exact h
  | taskFailed index =>
    rw [step_taskFailed]
    exact h

/-- The entries of the dictionary and the saved quotes of every quiz are kept. -/
structure KeepsQuotes (c c' : Core) : Prop where
  entries : ∀ k r, c.quizController.quotes.lookup k = some r →
    c'.quizController.quotes.lookup k = some r
  stored : ∀ id q, c.world.coreData.store.HasQuote id q → c'.world.coreData.store.HasQuote id q

/-- A new quote joins those of the context. -/
theorem hasQuote_withAddedQuote {id : UUID} {q : Quote} (hq : c.world.context.HasQuote id q)
    (a : NewQuote) (quiz : ObjectID) (quizID : UUID) (r : Request) :
    (c.withAddedQuote a quiz quizID r true).world.context.HasQuote id q := by
  obtain ⟨r', z, hr', hz⟩ := hq
  have hne : r' ≠ c.world.context.quotes.size := (Heap.lt_size_of_get? hr').ne
  refine ⟨r', z, ?_, ?_⟩
  · rw [get?_withAddedQuote, if_neg hne, hr']
  · rw [quizID_withAddedQuote, hz]

/-- **Creating a quote keeps the saved ones**, whatever becomes of it. -/
theorem keepsQuotes_createQuoteOf {l : List ObjectID} (hcached : c.Cached l)
    (h : c.world.coreData.HoldsStore) (a : NewQuote) (env : Env) :
    c.KeepsQuotes (c.createQuoteOf a env) := by
  have hop : ∀ quiz fetch, a.operation env ≠ .setupStart quiz fetch := by
    simp [NewQuote.operation]
  refine ⟨fun k r hk => hcached.lookup_step hop hk, fun id q hq => ?_⟩
  have hcases := c.createQuote_cases a env
  unfold createQuoteOf
  generalize c.createQuote a.firstPart a.secondPart a.answer a.incorrectAnswers env = c'
    at hcases ⊢
  cases hcases with
  | skipped => exact hq
  | full => exact hq
  | refused => exact hq
  | @added quiz quizID r =>
    exact CoreDataStack.hasQuote_save
      (s := ⟨(c.withAddedQuote a quiz quizID r true).world.context, c.world.coreData.store⟩)
      (hasQuote_withAddedQuote (h.hasQuote hq) a quiz quizID r) hq env.saves

end Core

-- ---------------------------------------------------------------------------
-- Done
-- ---------------------------------------------------------------------------

/-- Done finishes the quiz exactly when the form is complete. -/
theorem EditorState.done_finishes {s : EditorState} {l : List ObjectID}
    (hopen : s.view.popped = false) (hcached : s.core.Cached l)
    (hstore : s.core.world.coreData.HoldsStore)
    (hcount : 2 ≤ s.core.quizController.quotes.count) (env : Env) (order : Reordering QuotePart) :
    ((s.step (.done env order)).view.popped = true ∧
      s.core.KeepsQuotes (s.step (.done env order)).core) ↔ s.view.isDataComplete = true := by
  rw [step_done hopen]
  unfold finishCreatingQuiz
  by_cases hcomplete : s.view.isDataComplete = true
  · rw [if_pos ⟨hcount, hcomplete⟩, saveQuote_of_complete s hcomplete]
    refine iff_of_true ⟨rfl, ?_⟩ hcomplete
    exact Core.keepsQuotes_createQuoteOf hcached hstore _ env
  · rw [if_neg fun h => hcomplete h.2]
    refine iff_of_false ?_ hcomplete
    rintro ⟨hpopped, -⟩
    rw [hopen] at hpopped
    cases hpopped

namespace App

variable {s : App}

/-- The editor on top has not closed itself. -/
def Opened (s : App) : Prop := s.screen.IfEditor fun view => view.popped = false

theorem opened_handle (h : s.Opened) (e : Event) : (s.handle e).Opened := by
  cases e with
  | operation op => exact h
  | launch => trivial
  | action a =>
    show (s.step a).Opened
    unfold step
    split
    · unfold startButtonTapped
      split
      · exact h
      · dsimp only
        split
        · exact h
        · exact popped_viewDidLoad _
    · unfold Opened
      dsimp only
      split
      · trivial
      · next hpopped => exact Bool.eq_false_iff.mpr hpopped
    · trivial
    · trivial
    · trivial
    · exact h

theorem holdsStore_handle (h : s.core.world.coreData.HoldsStore) (e : Event) :
    (s.handle e).core.world.coreData.HoldsStore := by
  cases e with
  | operation op => exact Core.holdsStore_step h op
  | launch => exact ⟨fun _ _ h => h, fun _ _ h => h⟩
  | action a =>
    obtain ⟨ops, hops, -⟩ := s.step_operations a
    show (s.step a).core.world.coreData.HoldsStore
    rw [hops]
    have hstep : ∀ (c : Core) (op : Operation), c.world.coreData.HoldsStore →
        (c.step op).world.coreData.HoldsStore := fun _ op h => Core.holdsStore_step h op
    exact invariant_run_all hstep h ops

/-- Both, in every run. -/
theorem openedOverStore_run (h : s.Opened ∧ s.core.world.coreData.HoldsStore) (es : List Event) :
    (run App.handle s es).Opened ∧ (run App.handle s es).core.world.coreData.HoldsStore := by
  have hstep : ∀ (s : App) (e : Event), s.Opened ∧ s.core.world.coreData.HoldsStore →
      (s.handle e).Opened ∧ (s.handle e).core.world.coreData.HoldsStore := fun s e hs =>
    ⟨opened_handle hs.1 e, holdsStore_handle hs.2 e⟩
  exact invariant_run_all hstep h es

end App

/-- **Finishing.** In every state of the app with an editor on top whose quiz has enough
quotes and whose Done button is enabled, Done closes the editor and keeps every saved
quote if and only if the form on the screen is complete. -/
theorem done_finishes_iff (w : World) (es : List Event) :
    let s := run App.handle { core := .launch w.relaunch } es
    s.screen.IfEditor fun view =>
      s.core.quizController.quizCanBeSaved = true → view.doneButton = true →
      ∀ (env : Env) (order : Reordering QuotePart),
        let e := EditorState.step ⟨view, s.core⟩ (.done env order)
        (e.view.popped = true ∧ s.core.KeepsQuotes e.core) ↔ view.isDataComplete = true := by
  intro s
  obtain ⟨l, hcached⟩ : ∃ l, s.core.Cached l := App.cached_run ⟨[], Core.cached_launch _⟩ es
  obtain ⟨hopened, hstore⟩ := App.openedOverStore_run
    (s := { core := .launch w.relaunch }) ⟨trivial, fun _ _ h => h, fun _ _ h => h⟩ es
  change s.Opened at hopened
  unfold App.Opened at hopened
  cases hscreen : s.screen with
  | elsewhere => trivial
  | play view => trivial
  | editor view =>
    rw [hscreen] at hopened
    intro hsaved _ env order
    have hmin : quizMinQuotes ≤ s.core.quizController.quotes.count :=
      of_decide_eq_true (Bool.and_eq_true_iff.mp hsaved).2
    have hcount : 2 ≤ s.core.quizController.quotes.count := (by decide : 2 ≤ 3).trans hmin
    exact EditorState.done_finishes (s := ⟨view, s.core⟩) hopened hcached hstore hcount env order

/-- Three quotes saved with Next, which leaves a blank screen. -/
def EditorAction.threeSaved : List EditorAction :=
  let quote := EditorAction.fillIn sampleTexts ++ [.next {} .asIs]
  quote ++ quote ++ quote

/-- The tap on Done, which is enabled, does nothing. -/
theorem done_does_not_finish :
    ¬ ∀ (as : List EditorAction) (env : Env) (order : Reordering QuotePart),
      let s := run EditorState.tap .first as
      s.core.quizController.quizCanBeSaved = true → s.view.doneButton = true →
        (s.tap (.done env order)).view.popped = true ∧
          s.core.KeepsQuotes (s.tap (.done env order)).core := by
  intro h
  have hclosed := (h EditorAction.threeSaved {} .asIs (by decide) (by decide)).1
  revert hclosed
  decide

end KnowTheQuote
