import KnowTheQuote.Properties.DataSteps
import KnowTheQuote.Properties.Scoring

/-!
# Know the Quote — from the editor to the store and on

What the user types into a session of the editor ends up in the store, one quote for each
time the fields were handed over. Once the editor has closed itself nothing reaches the quiz
any more: the next editor opens on a new one.

* `EditorState.drafts` — the texts on screen at every tap that makes a quote.
* `Context.Tells` — the quotes of a quiz say what was typed.
* `tells_session` — after every successful session they do.
* `tells_later` — and so they do after whatever the user does later.
-/

namespace KnowTheQuote

open Machine

-- ---------------------------------------------------------------------------
-- What a quote says
-- ---------------------------------------------------------------------------

/-- The quote has the texts of the fields. -/
structure Quote.Says (q : Quote) (texts : QuotePart → String) : Prop where
  firstPart : q.firstPart = some (texts .part1)
  secondPart : q.secondPart = some (texts .part2)
  answer : q.answer = some (texts .answer)
  allOptions : ∃ options, q.allOptions = some options ∧
    options.Perm (QuotePart.optionFields.map texts)

namespace Context

/-- The object is a quote that has the texts of the fields. -/
def Says (c : Context) (r : ObjectID) (texts : QuotePart → String) : Prop :=
  ∃ q, c.quotes.get? r = some q ∧ q.Says texts

/-- The quotes of the quiz say what was typed: each quote one draft, each draft one quote. -/
def Tells (c : Context) (quiz : ObjectID) (drafts : List (QuotePart → String)) : Prop :=
  PairedOff c.Says (c.quotesOf quiz) drafts

namespace Tells

variable {c c' : Context} {quiz : ObjectID} {drafts : List (QuotePart → String)}

/-- Only the quotes of the quiz matter. -/
theorem of_same (h : c.Tells quiz drafts) (hperm : (c'.quotesOf quiz).Perm (c.quotesOf quiz))
    (hget : ∀ r ∈ c.quotesOf quiz, c'.quotes.get? r = c.quotes.get? r) :
    c'.Tells quiz drafts :=
  (h.imp fun r hr _ ⟨q, hq, hsaid⟩ => ⟨q, (hget r hr).trans hq, hsaid⟩).of_perm hperm

/-- Users and quizzes do not matter. -/
theorem of_quotes (h : c.Tells quiz drafts) (hquotes : c'.quotes = c.quotes) :
    c'.Tells quiz drafts := by
  refine h.of_same ?_ fun r _ => by rw [hquotes]
  rw [show c'.quotesOf quiz = c.quotesOf quiz by unfold quotesOf; rw [hquotes]]

/-- A quote that is attached to another quiz, or to none yet, does not matter. -/
theorem of_mem_iff (h : c.Tells quiz drafts)
    (hmem : ∀ r, r ∈ c'.quotesOf quiz ↔ r ∈ c.quotesOf quiz)
    (hget : ∀ r < c.quotes.size, c'.quotes.get? r = c.quotes.get? r) : c'.Tells quiz drafts := by
  refine h.of_same ?_ fun r hr => ?_
  · exact (List.perm_ext_iff_of_nodup (nodup_quotesOf ..) (nodup_quotesOf ..)).mpr hmem
  · obtain ⟨q, hq, -⟩ := mem_quotesOf.mp hr
    exact hget r (Heap.lt_size_of_get? hq)

end Tells

end Context

-- ---------------------------------------------------------------------------
-- A session
-- ---------------------------------------------------------------------------

/-- What a complete form hands over says what is on screen. -/
theorem says_collected {v : NewQuoteViewController} (hcomplete : v.isDataComplete = true)
    (hempty : v.incorrectOptsArray = []) (order : Reordering QuotePart) (uuid quizID : UUID)
    (quiz : Option ObjectID) :
    { (v.collected order).object uuid quizID with quiz }.Says v.texts := by
  obtain ⟨opts, hopts, hcollected⟩ :=
    NewQuoteViewController.collected_of_complete hcomplete hempty order
  rw [hcollected]
  exact ⟨rfl, rfl, rfl, opts ++ [v.texts .answer], rfl, hopts.append_right [v.texts .answer]⟩

namespace EditorState

/-- The texts on screen at every action that makes a quote. -/
def drafts : EditorState → List EditorAction → List (QuotePart → String)
  | _, [] => []
  | s, a :: as =>
    (if (s.step a).core.world.created = s.core.world.created then [] else [s.view.texts]) ++
      drafts (s.step a) as

theorem drafts_append (s : EditorState) (as bs : List EditorAction) :
    s.drafts (as ++ bs) = s.drafts as ++ (run step s as).drafts bs := by
  induction as generalizing s with
  | nil => rfl
  | cons a as ih => simp [drafts, ih]

/-- The quotes of the quiz say what has been handed over so far, and all of it is stored once
the editor has closed itself. -/
structure Telling (s : EditorState) (quiz : ObjectID) (drafts : List (QuotePart → String)) :
    Prop where
  linked : s.core.Linked
  bounded : ∃ l, Bounded s quiz l
  emptied : s.Emptied
  tells : s.core.world.context.Tells quiz drafts
  stored : s.view.popped = true → s.core.world.coreData.store = s.core.world.context

namespace Telling

variable {s : EditorState} {quiz : ObjectID} {ds : List (QuotePart → String)}

/-- A saved quote says what was on screen. -/
theorem saved (h : s.Telling quiz ds) (hopen : s.view.popped = false)
    (hcomplete : s.view.isDataComplete = true) {env : Env} (henv : env.Succeeds)
    (order : Reordering QuotePart) :
    (s.core.createQuoteOf (s.view.collected order) env).world.context.Tells quiz
        (ds ++ [s.view.texts]) ∧
      (s.core.createQuoteOf (s.view.collected order) env).world.created ≠
        s.core.world.created ∧
      (s.core.createQuoteOf (s.view.collected order) env).world.coreData.store =
        (s.core.createQuoteOf (s.view.collected order) env).world.context := by
  obtain ⟨l, hbounded⟩ := h.bounded
  have hcount : s.core.quizController.quotes.count < 16 := by
    have hlen := hbounded.opened hopen
    rw [hbounded.numbers.count]
    omega
  obtain ⟨quizID, r, -, heq⟩ :=
    Core.createQuote_of_ready hbounded.ready hcount (s.view.collected order) henv.encodes
  rw [heq, henv.saves]
  refine ⟨?_, ?_, rfl⟩
  · have hnew : (s.core.withAddedQuote (s.view.collected order) quiz quizID r
        true).world.context.Says s.core.world.context.quotes.size s.view.texts :=
      ⟨_, by rw [Core.get?_withAddedQuote, if_pos rfl],
        says_collected hcomplete (h.emptied hopen) order _ _ _⟩
    have hold := h.tells.imp (S := (s.core.withAddedQuote (s.view.collected order) quiz quizID r
        true).world.context.Says) fun r' hr' _ ⟨q, hq, hsaid⟩ => ⟨q, ?_, hsaid⟩
    · exact (hold.cons hnew).of_perm (Core.quotesOf_withAddedQuote_perm ..)
    · rw [Core.get?_withAddedQuote, if_neg (Heap.lt_size_of_get? hq).ne, hq]
  · intro hsame
    have hlen := congrArg List.length hsame
    simp [Core.withAddedQuote] at hlen

/-- **One action**, whose `put` and save succeed. -/
theorem step (h : s.Telling quiz ds) {a : EditorAction} (ha : a.Succeeds) :
    (s.step a).Telling quiz (ds ++ s.drafts [a]) := by
  cases hpopped : s.view.popped with
  | true =>
    simpa [drafts, step_of_popped hpopped] using h
  | false =>
    have hbounded : ∃ l, Bounded (s.step a) quiz l := by
      obtain ⟨l, hl⟩ := h.bounded
      exact hl.step ha hpopped
    have hlinked : (s.step a).core.Linked := by
      obtain ⟨ops, hops, hsucceeds⟩ := App.edit_operations s a
      rw [hops]
      exact invariant_run_of_forall (fun _ _ h hop => h.step hop) h.linked (hsucceeds ha)
    have hemptied := h.emptied.step a
    have hcases := s.step_cases a
    simp only [drafts, List.append_nil]
    generalize s.step a = s' at hcases hbounded hlinked hemptied ⊢
    suffices htold : s'.core.world.context.Tells quiz (ds ++
        if s'.core.world.created = s.core.world.created then [] else [s.view.texts]) ∧
        (s'.view.popped = true → s'.core.world.coreData.store = s'.core.world.context) from
      ⟨hlinked, hbounded, hemptied, htold.1, htold.2⟩
    cases hcases with
    | viewOnly view hview =>
      rw [if_pos rfl, List.append_nil]
      exact ⟨h.tells, fun hp => h.stored (hview.symm.trans hp)⟩
    | prev view hview | next view hview =>
      -- the cursor alone moves
      show s.core.world.context.Tells quiz
        (ds ++ if s.core.world.created = s.core.world.created then [] else [s.view.texts]) ∧
        (view.popped = true → s.core.world.coreData.store = s.core.world.context)
      rw [if_pos rfl, List.append_nil]
      exact ⟨h.tells, fun hp => absurd (hview.symm.trans hp) Bool.false_ne_true⟩
    | saved view env order hact hview _ _ hcomplete =>
      subst hact
      obtain ⟨htells, hcreated, -⟩ := h.saved hpopped hcomplete ha order
      refine ⟨?_, fun hp => absurd (hview.symm.trans hp) Bool.false_ne_true⟩
      rw [if_neg (show (Core.step _ Operation.moveToNextQuote).world.created ≠ _ from hcreated)]
      exact htells
    | finished view env order hact _ _ hcomplete =>
      subst hact
      obtain ⟨htells, hcreated, hstored⟩ := h.saved hpopped hcomplete ha order
      refine ⟨?_, fun _ => hstored⟩
      rw [if_neg hcreated]
      exact htells

end Telling

end EditorState

-- ---------------------------------------------------------------------------
-- Later
-- ---------------------------------------------------------------------------

/-- Only the editor calls `createQuote`. -/
def Event.FromScreens : Event → Prop
  | .operation (.createQuote ..) => False
  | .action _ | .operation _ | .launch => True

/-- The quiz is there, and its quotes say what was typed. -/
structure Context.Retains (c : Context) (quiz : ObjectID) (drafts : List (QuotePart → String)) :
    Prop where
  tells : c.Tells quiz drafts
  live : (c.quizzes.get? quiz).isSome

namespace Context.Retains

variable {c : Context} {quiz : ObjectID} {drafts : List (QuotePart → String)}

theorem lt_size (h : c.Retains quiz drafts) : quiz < c.quizzes.size := by
  obtain ⟨_, hquiz⟩ := Option.isSome_iff_exists.mp h.live
  exact Heap.lt_size_of_get? hquiz

theorem addUser (h : c.Retains quiz drafts) (user : User) :
    ({ c with users := c.users.alloc user } : Context).Retains quiz drafts :=
  ⟨h.tells.of_quotes rfl, h.live⟩

theorem addQuiz (h : c.Retains quiz drafts) (z : Quiz) :
    ({ c with quizzes := c.quizzes.alloc z } : Context).Retains quiz drafts := by
  refine ⟨h.tells.of_quotes rfl, ?_⟩
  rw [Heap.get?_alloc_of_lt z h.lt_size]
  exact h.live

theorem addToQuizzesCreated (h : c.Retains quiz drafts) (user quiz' : ObjectID) :
    (c.addToQuizzesCreated user quiz').Retains quiz drafts := by
  refine ⟨h.tells.of_quotes rfl, ?_⟩
  unfold Context.addToQuizzesCreated
  rw [Heap.get?_modify]
  split
  · next heq => simpa [heq] using h.live
  · exact h.live

/-- A new quote is attached to no quiz yet. -/
theorem addQuote (h : c.Retains quiz drafts) {quote : Quote} (hquote : quote.quiz = none) :
    ({ c with quotes := c.quotes.alloc quote } : Context).Retains quiz drafts := by
  refine ⟨h.tells.of_mem_iff (fun r => ?_) fun r hr => Heap.get?_alloc_of_lt quote hr, h.live⟩
  rw [mem_quotesOf, mem_quotesOf]
  simp only [Heap.get?_alloc]
  split
  · next heq => simp [heq, hquote, Heap.get?_of_size_le (le_refl _)]
  · exact Iff.rfl

/-- A new quote that is attached to another quiz at once. -/
theorem addLinkedQuote (h : c.Retains quiz drafts) (quote : Quote) {quiz' : ObjectID}
    (hne : quiz' ≠ quiz) :
    (({ c with quotes := c.quotes.alloc quote } : Context).addToQuotes quiz'
      c.quotes.size).Retains quiz drafts := by
  have hget : ∀ r, (({ c with quotes := c.quotes.alloc quote } : Context).addToQuotes quiz'
      c.quotes.size).quotes.get? r =
        if r = c.quotes.size then some { quote with quiz := some quiz' } else c.quotes.get? r := by
    intro r
    unfold Context.addToQuotes
    rw [Heap.get?_modify, Heap.get?_alloc_self]
    split
    · rfl
    · next hr => rw [Heap.get?_alloc, if_neg hr]
  refine ⟨h.tells.of_mem_iff (fun r => ?_) fun r hr => (hget r).trans (if_neg hr.ne), h.live⟩
  rw [mem_quotesOf, mem_quotesOf]
  simp only [hget]
  split
  · next heq => simp [heq, hne, Heap.get?_of_size_le (le_refl _)]
  · exact Iff.rfl

end Context.Retains

namespace Core

/-- So it is in the context and in the store. -/
structure Retains (c : Core) (quiz : ObjectID) (drafts : List (QuotePart → String)) : Prop where
  context : c.world.context.Retains quiz drafts
  store : c.world.coreData.store.Retains quiz drafts

variable {c : Core} {quiz : ObjectID} {drafts : List (QuotePart → String)}

/-- **One successful operation** that adds no quote to the quiz. -/
theorem Retains.step (h : c.Retains quiz drafts) {op : Operation} (hop : op.Succeeds)
    (haside : ∀ a env, op = NewQuote.operation a env → c.quizController.quiz ≠ some quiz) :
    (c.step op).Retains quiz drafts := by
  refine step_data (P := fun c => c.Retains quiz drafts) ?_ ?_ ?_ ?_ ?_ ?_ ?_ h
  · intro c c' hsame h
    have hcontext : c'.world.context = c.world.context :=
      congrArg CoreDataStack.context hsame.coreData
    refine ⟨?_, ?_⟩
    · rw [hcontext]
      exact h.context
    · rw [hsame.coreData]
      exact h.store
  · exact fun c username password now h => ⟨h.context.addUser _, h.store⟩
  · intro title creator env h
    refine ⟨?_, ?_⟩
    · rw [context_withEmptyQuiz]
      exact h.context.addQuiz _
    · rw [store_withEmptyQuiz]
      exact h.store
  · intro title creator env h
    unfold withLinkedQuiz
    refine ⟨?_, ?_⟩
    · rw [world_setContext, World.context_setContext, context_withEmptyQuiz]
      exact (h.context.addQuiz _).addToQuizzesCreated _ _
    · rw [world_setContext, World.store_setContext, store_withEmptyQuiz]
      exact h.store
  · exact fun a quizID h => ⟨h.context.addQuote rfl, h.store⟩
  · intro a quiz' quizID env heq hquiz h
    have hne : quiz' ≠ quiz := fun heq' => haside a env heq (hquiz.trans (congrArg some heq'))
    exact ⟨h.context.addLinkedQuote _ hne, h.store⟩
  · intro c saves hsaves h
    rw [hsaves hop]
    exact ⟨h.context, h.context⟩

/-- Only `createEmptyQuiz` changes the current quiz, and to a new one. -/
theorem quiz_step (c : Core) (op : Operation) :
    (c.step op).quizController.quiz = c.quizController.quiz ∨
      (c.step op).quizController.quiz = some c.world.context.quizzes.size := by
  have hsync : ∀ c' : Core, c'.quizController.quiz = c.quizController.quiz →
      c'.syncUser.quizController.quiz = c.quizController.quiz := by
    intro c' h
    unfold syncUser
    split <;> exact h
  cases op with
  | createUser username password env =>
    exact .inl (createUser_induction
      (P := fun c' => c'.quizController.quiz = c.quizController.quiz) (fun _ _ _ _ h => h)
      (fun _ h => h) (fun _ _ _ h => h) (fun _ _ h => h) rfl username password)
  | syncUser => exact .inl (hsync c rfl)
  | getUser r env =>
    exact .inl (getUser_induction
      (P := fun c' => c'.quizController.quiz = c.quizController.quiz) (fun _ _ _ _ h => h)
      (fun _ _ _ h => h) (fun _ _ _ h => h) (fun _ _ h => h) (fun _ _ h => h) (fun _ _ h => h)
      (fun _ _ _ _ h => h) hsync rfl r)
  | setTitle => exact .inl rfl
  | createEmptyQuiz env =>
    have hcases := c.createEmptyQuiz_cases env
    show (c.createEmptyQuiz env).quizController.quiz = _ ∨
      (c.createEmptyQuiz env).quizController.quiz = _
    generalize c.createEmptyQuiz env = c' at hcases ⊢
    cases hcases with
    | skipped => exact .inl rfl
    | refused => exact .inr (by simp)
    | added => exact .inr (by simp)
  | createQuote first second answer incorrect env =>
    have hcases := c.createQuote_cases ⟨first, second, answer, incorrect⟩ env
    show (c.createQuote first second answer incorrect env).quizController.quiz = _ ∨ _
    generalize c.createQuote first second answer incorrect env = c' at hcases ⊢
    cases hcases with
    | skipped => exact .inl rfl
    | full | refused | added => exact .inl (quiz_syncUser _)
  | moveToNextQuote =>
    obtain ⟨cursor, hmoved⟩ := c.step_moveToNextQuote
    exact .inl (by rw [hmoved])
  | moveToPrevQuote =>
    obtain ⟨cursor, hmoved⟩ := c.step_moveToPrevQuote
    exact .inl (by rw [hmoved])
  | setupStart quiz fetch => exact .inl (QuizController.quiz_setupStart ..)
  | nextQuoteToDisplay =>
    obtain ⟨cursor, hmoved⟩ := c.step_nextQuoteToDisplay
    exact .inl (by rw [hmoved])
  | taskFailed index => exact .inl (by rw [step_taskFailed])

end Core

/-- The editor of the quiz has closed itself: its quotes say what was typed, and an editor that
is open works on another quiz. -/
structure App.Settled (s : App) (quiz : ObjectID) (drafts : List (QuotePart → String)) :
    Prop where
  linked : s.core.Linked
  retains : s.core.Retains quiz drafts
  aside : ∀ view, s.screen = .editor view → s.core.quizController.quiz ≠ some quiz

namespace App.Settled

variable {s : App} {quiz : ObjectID} {drafts : List (QuotePart → String)}

/-- Operations that add no quote, on any screen. -/
theorem operation (h : s.Settled quiz drafts) (op : Operation) (hop : op.Succeeds)
    (hquote : ∀ a env, op ≠ NewQuote.operation a env) :
    (s.core.step op).Linked ∧ (s.core.step op).Retains quiz drafts :=
  ⟨h.linked.step hop, h.retains.step hop fun a env heq => absurd heq (hquote a env)⟩

/-- **Start** makes a new quiz, or there is no quiz at all. -/
theorem start (h : s.Settled quiz drafts) (title : String) {env : Env} (henv : env.Succeeds) :
    (s.startButtonTapped title env).Settled quiz drafts := by
  unfold startButtonTapped
  cases hlogIn : s.core.logIn with
  | none => exact h
  | some user =>
    dsimp only
    split
    · exact h
    · have htitle := h.operation (.setTitle (some title)) trivial nofun
      have hquiz := (⟨htitle.1, htitle.2, nofun⟩ : App.Settled ⟨_, .elsewhere⟩ quiz
        drafts).operation (.createEmptyQuiz env) henv nofun
      refine ⟨hquiz.1, hquiz.2, fun _ _ => ?_⟩
      have hlive := h.retains.context.lt_size
      set c : Core := { s.core with quizController.title := some title } with hc
      have hcases := c.createEmptyQuiz_cases env
      show (c.createEmptyQuiz env).quizController.quiz ≠ some quiz
      generalize c.createEmptyQuiz env = c' at hcases ⊢
      cases hcases with
      | skipped hnone =>
        -- without a user there is no current quiz either
        intro heq
        have huser := (htitle.1.quiz heq).2
        rcases hnone with hnone | hnone
        · cases hnone
        · rw [show (s.core.step (.setTitle (some title))).quizController.user =
            c.quizController.user from rfl, hnone] at huser
          cases huser
      | refused | added =>
        intro heq
        have hsize : c.world.context.quizzes.size = quiz := by simpa using heq
        exact hlive.ne hsize.symm

/-- An action of the editor works on another quiz. -/
theorem edit (h : s.Settled quiz drafts) {view : NewQuoteViewController}
    (hscreen : s.screen = .editor view) {a : EditorAction} (ha : a.Succeeds) :
    let e := EditorState.step ⟨view, s.core⟩ a
    e.core.Linked ∧ e.core.Retains quiz drafts ∧ e.core.quizController.quiz ≠ some quiz := by
  intro e
  obtain ⟨ops, hops, hsucceeds⟩ := App.edit_operations ⟨view, s.core⟩ a
  show e.core.Linked ∧ e.core.Retains quiz drafts ∧ e.core.quizController.quiz ≠ some quiz
  rw [show e.core = run Core.step s.core ops from hops]
  have hstep : ∀ (c : Core) op, (c.Linked ∧ c.Retains quiz drafts ∧
      c.quizController.quiz ≠ some quiz) → op.Succeeds → (c.step op).Linked ∧
      (c.step op).Retains quiz drafts ∧ (c.step op).quizController.quiz ≠ some quiz := by
    rintro c op ⟨hlinked, hretains, haside⟩ hop
    refine ⟨hlinked.step hop, hretains.step hop fun _ _ _ => haside, ?_⟩
    rcases c.quiz_step op with hsame | hnew
    · rw [hsame]
      exact haside
    · rw [hnew]
      exact fun heq => hretains.context.lt_size.ne (Option.some.inj heq).symm
  exact invariant_run_of_forall hstep ⟨h.linked, h.retains, h.aside view hscreen⟩ (hsucceeds ha)

/-- **One event** of the screens. -/
theorem handle (h : s.Settled quiz drafts) {e : Event} (he : e.Succeeds)
    (hscreens : e.FromScreens) : (s.handle e).Settled quiz drafts := by
  cases e with
  | launch =>
    exact ⟨Core.linked_launch h.linked.store h.linked.store,
      ⟨h.retains.store, h.retains.store⟩, nofun⟩
  | operation op =>
    have hquote : ∀ a env, op ≠ NewQuote.operation a env := by
      rintro a env rfl
      exact hscreens
    obtain ⟨hlinked, hretains⟩ := h.operation op he hquote
    refine ⟨hlinked, hretains, fun view hscreen => ?_⟩
    show (s.core.step op).quizController.quiz ≠ some quiz
    rcases s.core.quiz_step op with hsame | hnew
    · rw [hsame]
      exact h.aside view hscreen
    · rw [hnew]
      exact fun heq => h.retains.context.lt_size.ne (Option.some.inj heq).symm
  | action a =>
    show (s.step a).Settled quiz drafts
    unfold App.step
    split
    · next title env _ => exact h.start title he
    · next a view hscreen =>
      obtain ⟨hlinked, hretains, haside⟩ := h.edit hscreen he
      exact ⟨hlinked, hretains, fun _ _ => haside⟩
    · next quiz' fetch shuffle _ =>
      obtain ⟨hlinked, hretains⟩ :=
        h.operation (.setupStart quiz' fetch) trivial nofun
      exact ⟨hlinked, hretains, nofun⟩
    · next t view _ =>
      have hcore := App.tap_operations ⟨view, s.core⟩ t
      obtain ⟨hlinked, hretains⟩ := h.operation .nextQuoteToDisplay trivial nofun
      refine ⟨?_, ?_, nofun⟩
      · show (PlayState.step ⟨view, s.core⟩ t).core.Linked
        rw [hcore]
        exact hlinked
      · show (PlayState.step ⟨view, s.core⟩ t).core.Retains quiz drafts
        rw [hcore]
        exact hretains
    · exact ⟨h.linked, h.retains, nofun⟩
    · exact h

end App.Settled

end KnowTheQuote
