import KnowTheQuote.Properties.Creation
import KnowTheQuote.Properties.EditorViews
import KnowTheQuote.Properties.AppSteps

/-!
# Know the Quote — moving on without storing

`saveQuote` answers whether the form is complete, not whether `createQuote` has stored
anything: that is decided behind two early returns and in a completion handler. So Next
moves on, and Done closes the editor, from a quote that is nowhere, exactly when
`createQuote` cannot put it.

* `count_createQuoteOf_iff`, `stored_createQuoteOf_iff` — when `createQuote` stores.
* `storesFirst_iff` — the actions that store before they leave the quote.
* `Core.Within` — the cursor is at most one past the last quote.
* `storesFirst_along_iff` — whole runs of the app.
-/

namespace KnowTheQuote

open Machine

-- ---------------------------------------------------------------------------
-- What createQuote stores
-- ---------------------------------------------------------------------------

namespace Core

/-- `createQuote` gets as far as the save. -/
def CanStore (c : Core) (env : Env) : Prop :=
  (∃ quiz, c.Ready quiz) ∧ c.quizController.quotes.count < 16 ∧ env.encodes = true

theorem canStore_iff (c : Core) (env : Env) :
    c.CanStore env ↔
      ((∃ quiz ∈ c.quizController.quiz, (c.world.context.quizID quiz).isSome) ∧
        c.quizController.quoteController.baseURL.isSome ∧
        ∃ user ∈ c.quizController.user, (c.world.context.username user).isSome) ∧
      c.quizController.quotes.count < 16 ∧ env.encodes = true := by
  refine and_congr_left fun _ => ?_
  constructor
  · rintro ⟨quiz, hquiz, ⟨quizID, hid⟩, hurl, user, name, huser, hname⟩
    exact ⟨⟨quiz, hquiz, by simp [hid]⟩, hurl, user, huser, by simp [hname]⟩
  · rintro ⟨⟨quiz, hquiz, hid⟩, hurl, user, huser, hname⟩
    exact ⟨quiz, hquiz, Option.isSome_iff_exists.mp hid, hurl, user,
      (c.world.context.username user).get hname, huser, by simp⟩

instance (c : Core) (env : Env) : Decidable (c.CanStore env) :=
  decidable_of_iff' _ (c.canStore_iff env)

variable {c : Core} {l : List ObjectID}

/-- Where `createQuote` stores nothing it leaves the dictionary as it is. -/
theorem createQuoteOf_stores (a : NewQuote) (env : Env) :
    (¬ c.CanStore env ∧
      (c.createQuoteOf a env).quizController.quotes = c.quizController.quotes) ∨
    c.CanStore env ∧ ∃ quiz quizID r,
      c.createQuoteOf a env = c.withAddedQuote a quiz quizID r env.saves := by
  have hcases := c.createQuote_cases a env
  unfold createQuoteOf
  generalize c.createQuote a.firstPart a.secondPart a.answer a.incorrectAnswers env = c'
    at hcases ⊢
  cases hcases with
  | skipped hskip =>
    refine .inl ⟨?_, rfl⟩
    rintro ⟨⟨quiz, hready⟩, -, -⟩
    obtain ⟨quizID, hid⟩ := hready.id
    rw [hskip quiz hready.current] at hid
    cases hid
  | full _ _ hfull =>
    refine .inl ⟨?_, quotes_syncUser _⟩
    rintro ⟨-, hcount, -⟩
    omega
  | refused _ _ _ hput =>
    refine .inl ⟨?_, quotes_syncUser _⟩
    rintro ⟨⟨quiz, hready⟩, -, henc⟩
    obtain ⟨r, hok⟩ := newQuotePut_of_ready hready a _ henc
    rw [hok] at hput
    cases hput
  | added hquiz hid hcount hput =>
    obtain ⟨hready, henc⟩ := ready_of_newQuotePut hquiz hid hput
    exact .inr ⟨⟨⟨_, hready⟩, hcount, henc⟩, _, _, _, rfl⟩

/-- The dictionary gains a quote exactly when `createQuote` can store it. -/
theorem count_createQuoteOf_iff (h : c.quizController.quotes.Numbers l) (a : NewQuote)
    (env : Env) :
    (c.createQuoteOf a env).quizController.quotes.count = c.quizController.quotes.count + 1 ↔
      c.CanStore env := by
  rcases createQuoteOf_stores (c := c) a env with ⟨hcannot, hsame⟩ | ⟨hcan, quiz, quizID, r, hadded⟩
  · rw [hsame]
    exact iff_of_false (by omega) hcannot
  · refine iff_of_true ?_ hcan
    rw [hadded, quotes_withAddedQuote, (h.insert c.world.context.quotes.size).count,
      List.length_append, h.count]
    rfl

/-- The new entry of the dictionary is in the store exactly when the save succeeds, too. -/
theorem stored_createQuoteOf_iff (h : c.quizController.quotes.Numbers l) (a : NewQuote)
    (env : Env) :
    (∃ r, (c.createQuoteOf a env).quizController.quotes.lookup
        ((c.quizController.quotes.count : Int) + 1) = some r ∧
      r ∈ (c.createQuoteOf a env).world.coreData.store.quotes.live) ↔
      c.CanStore env ∧ env.saves = true := by
  rcases createQuoteOf_stores (c := c) a env with ⟨hcannot, hsame⟩ | ⟨hcan, quiz, quizID, r, hadded⟩
  · rw [hsame]
    refine iff_of_false ?_ fun hcan => hcannot hcan.1
    rintro ⟨r, hlookup, -⟩
    exact h.next_notMem (Finmap.mem_of_lookup_eq_some hlookup)
  · rw [hadded, quotes_withAddedQuote, Finmap.lookup_insert]
    cases hsaves : env.saves with
    | true =>
      refine iff_of_true ⟨_, rfl, ?_⟩ ⟨hcan, rfl⟩
      show _ ∈ (c.withAddedQuote a quiz quizID r true).world.context.quotes.live
      rw [Heap.mem_live, get?_withAddedQuote, if_pos rfl]
      exact ⟨_, rfl⟩
    | false =>
      -- the reset has forgotten it
      refine iff_of_false ?_ (by simp)
      rintro ⟨r', hr', hlive⟩
      cases hr'
      obtain ⟨q, hq⟩ := Heap.mem_live.mp hlive
      have hdead : (c.withAddedQuote a quiz quizID r false).world.context.quotes.get?
          c.world.context.quotes.size = none := get?_withAddedQuote_false a quiz quizID r
      cases hdead.symm.trans hq

end Core

-- ---------------------------------------------------------------------------
-- One action
-- ---------------------------------------------------------------------------

namespace EditorState

variable {s : EditorState} {l : List ObjectID}

/-- The quote at the next key of the dictionary has reached the store. -/
def StoredOne (s s' : EditorState) : Prop :=
  ∃ r, s'.core.quizController.quotes.lookup
      ((s.core.quizController.quotes.count : Int) + 1) = some r ∧
    r ∈ s'.core.world.coreData.store.quotes.live

/-- Next at the position of the new quote moves the cursor only if the number of quotes
has gone up by one, and leaves the texts otherwise; Done closes the editor only if its
quote is in the store. -/
def StoresFirst (s : EditorState) (a : EditorAction) : Prop :=
  let count := s.core.quizController.quotes.count
  let count' := (s.step a).core.quizController.quotes.count
  match a with
  | .next _ _ =>
    s.atNew →
      (s.core.quizController.currentQuote < (s.step a).core.quizController.currentQuote →
        count' = count + 1) ∧
      (count' ≠ count + 1 → (s.step a).view.texts = s.view.texts)
  | .done _ _ =>
    s.view.popped = false → (s.step a).view.popped = true → s.StoredOne (s.step a)
  | .edit _ _ | .prev => True

/-- Where Next or Done hands a quote over, the quote can be put, and Done's save
succeeds. -/
def HandsOverStorable (s : EditorState) : EditorAction → Prop
  | .next env _ =>
    s.view.popped = false → s.core.quizController.canMoveToNext = true → s.atNew →
      s.view.isDataComplete = true → s.core.CanStore env
  | .done env _ =>
    s.view.popped = false → 2 ≤ s.core.quizController.quotes.count →
      s.view.isDataComplete = true → s.core.CanStore env ∧ env.saves = true
  | .edit _ _ | .prev => True

instance (s : EditorState) : DecidablePred s.HandsOverStorable
  | .next _ _ => inferInstanceAs (Decidable (_ → _ → _ → _ → _))
  | .done _ _ => inferInstanceAs (Decidable (_ → _ → _ → _))
  | .edit _ _ | .prev => .isTrue trivial

theorem step_next (h : s.view.popped = false) (env : Env) (order : Reordering QuotePart) :
    s.step (.next env order) = s.moveToNext env order := step_of_open h _

theorem step_done (h : s.view.popped = false) (env : Env) (order : Reordering QuotePart) :
    s.step (.done env order) = s.finishCreatingQuiz env order := step_of_open h _

/-- Next. -/
theorem storesFirst_next_iff (hnum : s.core.quizController.quotes.Numbers l) (env : Env)
    (order : Reordering QuotePart) :
    s.StoresFirst (.next env order) ↔ s.HandsOverStorable (.next env order) := by
  unfold StoresFirst HandsOverStorable
  dsimp only
  by_cases hopen : s.view.popped = false
  · rw [step_next hopen]
    by_cases hcan : s.core.quizController.canMoveToNext = true
    · by_cases hnew : s.atNew
      · cases hcomplete : s.view.isDataComplete with
        | false =>
          rw [moveToNext_of_incomplete hcan hnew hcomplete]
          refine iff_of_true (fun _ => ⟨fun hlt => absurd hlt (lt_irrefl _), fun _ => rfl⟩) ?_
          simp
        | true =>
          -- the cursor moves on whatever `createQuote` does
          have hmoved : s.core.quizController.currentQuote <
              (s.moveToNext env order).core.quizController.currentQuote := by
            rw [moveToNext_of_complete hcan hnew hcomplete]
            show _ < (s.handedOver env order).core.quizController.moveToNextQuote.currentQuote
            rw [QuizController.moveToNextQuote_of_can (canMoveToNext_handedOver hnum hcan hnew _ _),
              currentQuote_handedOver]
            exact Int.lt_succ _
          have hcount : (s.moveToNext env order).core.quizController.quotes.count =
              (s.handedOver env order).core.quizController.quotes.count := by
            rw [moveToNext_of_complete hcan hnew hcomplete]
            exact congrArg Dict.count (QuizController.quotes_moveToNextQuote _)
          have hstores := Core.count_createQuoteOf_iff hnum (s.view.collected order) env
          rw [hcount]
          constructor
          · intro hlaw _ _ _ _
            exact hstores.mp ((hlaw hnew).1 hmoved)
          · intro hguard _
            have hone := hstores.mpr (hguard hopen hcan hnew rfl)
            exact ⟨fun _ => hone, fun hne => absurd hone hne⟩
      · exact iff_of_true (fun h => absurd h hnew) fun _ _ h => absurd h hnew
    · rw [moveToNext_of_not_can (Bool.eq_false_iff.mpr hcan)]
      exact iff_of_true (fun _ => ⟨fun hlt => absurd hlt (lt_irrefl _), fun _ => rfl⟩)
        fun _ h => absurd h hcan
  · rw [step_of_popped (by simpa using hopen)]
    exact iff_of_true (fun _ => ⟨fun hlt => absurd hlt (lt_irrefl _), fun _ => rfl⟩)
      fun h => absurd h hopen

/-- Done. -/
theorem storesFirst_done_iff (hnum : s.core.quizController.quotes.Numbers l) (env : Env)
    (order : Reordering QuotePart) :
    s.StoresFirst (.done env order) ↔ s.HandsOverStorable (.done env order) := by
  unfold StoresFirst HandsOverStorable
  dsimp only
  refine forall_congr' fun hopen => ?_
  rw [step_done hopen]
  unfold finishCreatingQuiz
  by_cases hcan : s.core.quizController.quotes.count ≥ 2 ∧ s.view.isDataComplete = true
  · rw [if_pos hcan, saveQuote_of_complete s hcan.2]
    refine Iff.trans (forall_prop_of_true rfl) (Iff.trans ?_ (Iff.symm
      (Iff.trans (forall_prop_of_true hcan.1) (forall_prop_of_true hcan.2))))
    exact Core.stored_createQuoteOf_iff hnum (s.view.collected order) env
  · rw [if_neg hcan]
    refine iff_of_true (fun h => absurd (hopen.symm.trans h) Bool.false_ne_true) ?_
    exact fun hcount hcomplete => absurd ⟨hcount, hcomplete⟩ hcan

/-- **One action** stores before it leaves the quote exactly when the quote it hands over
can be stored. -/
theorem storesFirst_iff (hnum : s.core.quizController.quotes.Numbers l) (a : EditorAction) :
    s.StoresFirst a ↔ s.HandsOverStorable a := by
  cases a with
  | edit => exact Iff.rfl
  | prev => exact Iff.rfl
  | next env order => exact storesFirst_next_iff hnum env order
  | done env order => exact storesFirst_done_iff hnum env order

end EditorState

-- ---------------------------------------------------------------------------
-- The cursor
-- ---------------------------------------------------------------------------

namespace Core

/-- The cursor is at most one past the last quote. -/
def Within (c : Core) : Prop :=
  c.quizController.currentQuote ≤ (c.quizController.quotes.count : Int) + 1

variable {c : Core} {l : List ObjectID}

theorem Within.of_same (h : c.Within) {c' : Core}
    (hquotes : c'.quizController.quotes = c.quizController.quotes)
    (hcursor : c'.quizController.currentQuote = c.quizController.currentQuote) : c'.Within := by
  unfold Within
  rw [hquotes, hcursor]
  exact h

theorem Within.createQuote (h : c.Within) (hnum : c.quizController.quotes.Numbers l)
    (a : NewQuote) (env : Env) : (c.createQuoteOf a env).Within := by
  unfold Within at h ⊢
  rw [show (c.createQuoteOf a env).quizController.currentQuote = _ from
    c.currentQuote_createQuote a env]
  rcases createQuoteOf_stores (c := c) a env with ⟨-, hsame⟩ | ⟨hcan, -⟩
  · rw [hsame]
    exact h
  · rw [(count_createQuoteOf_iff hnum a env).mpr hcan]
    omega

/-- Every operation but `moveToNextQuote`, which only Next of the editor calls. -/
theorem Within.step (h : c.Within) (hnum : c.quizController.quotes.Numbers l) {op : Operation}
    (hop : op ≠ .moveToNextQuote) : (c.step op).Within := by
  cases op with
  | createUser username password env =>
    have hsame := c.createUser_sameQuotes username password env
    exact h.of_same hsame.quotes hsame.currentQuote
  | syncUser =>
    have hsame := (SameQuotes.refl c).syncUser
    exact h.of_same hsame.quotes hsame.currentQuote
  | getUser r env =>
    have hsame := c.getUser_sameQuotes r env
    exact h.of_same hsame.quotes hsame.currentQuote
  | setTitle title => exact h.of_same rfl rfl
  | createEmptyQuiz env =>
    exact h.of_same (c.quotes_createEmptyQuiz env) (c.currentQuote_createEmptyQuiz env)
  | createQuote first second answer incorrect env =>
    exact h.createQuote hnum ⟨first, second, answer, incorrect⟩ env
  | moveToNextQuote => exact absurd rfl hop
  | moveToPrevQuote =>
    unfold Within at h ⊢
    simp only [Core.step, QuizController.moveToPrevQuote]
    split
    · dsimp only
      omega
    · exact h
  | setupStart quiz fetch =>
    unfold Within
    rw [show (c.step (.setupStart quiz fetch)).quizController.currentQuote = 1 from
      QuizController.currentQuote_setupStart ..]
    omega
  | nextQuoteToDisplay =>
    unfold Within at h ⊢
    simp only [Core.step, QuizController.nextQuoteToDisplay]
    split
    · dsimp only
      omega
    · exact h
  | taskFailed index =>
    rw [step_taskFailed]
    exact h

end Core

/-- An action that hands over only what can be stored keeps the cursor within. -/
theorem EditorState.within_step {s : EditorState} {l : List ObjectID} (h : s.core.Within)
    (hnum : s.core.quizController.quotes.Numbers l) {a : EditorAction}
    (ha : s.HandsOverStorable a) : (s.step a).core.Within := by
  by_cases hopen : s.view.popped = true
  · rw [step_of_popped hopen]
    exact h
  have hopen := Bool.eq_false_iff.mpr hopen
  have hcases := s.step_cases a
  generalize s.step a = s' at hcases ⊢
  cases hcases with
  | viewOnly => exact h
  | prev => exact h.step hnum (by simp)
  | next view _ hcan hsaved =>
    unfold Core.Within at h ⊢
    simp only [Core.step]
    rw [QuizController.moveToNextQuote_of_can hcan]
    dsimp only
    omega
  | saved view env order hact _ hcan hnew hcomplete =>
    subst hact
    have hcount := (Core.count_createQuoteOf_iff hnum (s.view.collected order) env).mpr
      (ha hopen hcan hnew hcomplete)
    have hcursor := s.core.currentQuote_createQuote (s.view.collected order) env
    unfold Core.Within
    simp only [Core.step]
    change (s.core.createQuoteOf (s.view.collected order) env).quizController.currentQuote = _
      at hcursor
    unfold QuizController.moveToNextQuote
    split
    · show _ + 1 ≤ (_ : Int)
      rw [hcursor, hcount]
      omega
    · rw [hcursor, hcount]
      omega
  | finished view env order =>
    exact h.createQuote hnum (s.view.collected order) env

-- ---------------------------------------------------------------------------
-- Runs of the app
-- ---------------------------------------------------------------------------

/-- A property of the editor, if it is on top. -/
def Screen.IfEditor (P : NewQuoteViewController → Prop) : Screen → Prop
  | .editor view => P view
  | .elsewhere | .play _ => True

instance {P : NewQuoteViewController → Prop} [DecidablePred P] : DecidablePred (Screen.IfEditor P)
  | .editor view => inferInstanceAs (Decidable (P view))
  | .elsewhere | .play _ => .isTrue trivial

/-- A property of the actions in the editor, for every event. -/
def App.InEditor (P : EditorState → EditorAction → Prop) (s : App) : Event → Prop
  | .action (.edit a) => s.screen.IfEditor fun view => P ⟨view, s.core⟩ a
  | .action _ | .operation _ | .launch => True

instance {P : EditorState → EditorAction → Prop} [∀ s a, Decidable (P s a)] (s : App) :
    DecidablePred (s.InEditor P)
  | .action (.edit a) =>
    inferInstanceAs (Decidable (s.screen.IfEditor fun view => P ⟨view, s.core⟩ a))
  | .action (.start _ _) | .action (.openPlay _ _ _) | .action (.tap _) | .action .leave
  | .operation _ | .launch => .isTrue trivial

/-- Only Next of the editor calls `moveToNextQuote`. -/
def Event.LeavesCursor : Event → Prop
  | .operation op => op ≠ .moveToNextQuote
  | .action _ | .launch => True

namespace App

variable {s : App}

theorem inEditor_iff {P Q : EditorState → EditorAction → Prop} (e : Event)
    (h : ∀ view a, P ⟨view, s.core⟩ a ↔ Q ⟨view, s.core⟩ a) :
    s.InEditor P e ↔ s.InEditor Q e := by
  cases e with
  | action a =>
    cases a with
    | edit a =>
      unfold InEditor
      dsimp only
      cases s.screen with
      | editor view => exact h view a
      | elsewhere => exact Iff.rfl
      | play view => exact Iff.rfl
    | start => exact Iff.rfl
    | openPlay => exact Iff.rfl
    | tap => exact Iff.rfl
    | leave => exact Iff.rfl
  | operation op => exact Iff.rfl
  | launch => exact Iff.rfl

/-- The dictionary numbers its quotes, whatever happens. -/
theorem cached_handle (h : ∃ l, s.core.Cached l) (e : Event) :
    ∃ l, (s.handle e).core.Cached l := by
  obtain ⟨l, h⟩ := h
  cases e with
  | action a =>
    obtain ⟨ops, hops, -⟩ := s.step_operations a
    show ∃ l, (s.step a).core.Cached l
    rw [hops]
    exact Core.cached_run h ops
  | operation op => exact h.step op
  | launch => exact ⟨[], Core.cached_launch _⟩

theorem cached_run (h : ∃ l, s.core.Cached l) (es : List Event) :
    ∃ l, (run App.handle s es).core.Cached l := by
  have hstep : ∀ (s : App) (e : Event), (∃ l, s.core.Cached l) →
      ∃ l, (s.handle e).core.Cached l := fun _ e h => cached_handle h e
  exact invariant_run_all hstep h es

/-- One event. -/
theorem within_handle (h : s.core.Within) (hcached : ∃ l, s.core.Cached l) {e : Event}
    (he : e.LeavesCursor) (hguard : s.InEditor EditorState.HandsOverStorable e) :
    (s.handle e).core.Within := by
  obtain ⟨l, hcached⟩ := hcached
  have hnum := hcached.numbers
  cases e with
  | operation op => exact h.step hnum he
  | launch => exact show (1 : Int) ≤ _ by simp
  | action a =>
    show (s.step a).core.Within
    unfold step
    split
    · next title env _ =>
      rcases s.start_operations title env with hsame | hops
      · rw [hsame]
        exact h
      · rw [hops, run_cons, run_cons, run_nil]
        have htitle : (s.core.step (.setTitle (some title))).Within := h.of_same rfl rfl
        have hquotes : (s.core.step (.setTitle (some title))).quizController.quotes =
          s.core.quizController.quotes := rfl
        exact htitle.step (hquotes ▸ hnum) (by simp)
    · next e view hscreen =>
      unfold InEditor at hguard
      rw [hscreen] at hguard
      exact EditorState.within_step (s := ⟨view, s.core⟩) h hnum hguard
    · next quiz fetch shuffle _ =>
      show (s.core.step (.setupStart quiz fetch)).Within
      exact h.step hnum (by simp)
    · next t view _ =>
      show (PlayState.step ⟨view, s.core⟩ t).core.Within
      rw [tap_operations]
      exact h.step hnum (by simp)
    · exact h
    · exact h

end App

/-- **Storing first.** In every run of the app, each Next and each Done stores its quote
before it leaves it if and only if each of them hands over only a quote that can be put
and, for Done, saved. In such a run the cursor is never more than one past the last
quote. -/
theorem storesFirst_along_iff (w : World) {es : List Event} (hCursor : ∀ e ∈ es, e.LeavesCursor) :
    let start : App := { core := .launch w }
    (Along App.handle (App.InEditor EditorState.StoresFirst) start es ↔
      Along App.handle (App.InEditor EditorState.HandsOverStorable) start es) ∧
    (Along App.handle (App.InEditor EditorState.HandsOverStorable) start es →
      ∀ pre, pre <+: es → (run App.handle start pre).core.Within) := by
  intro start
  have hstart : ∃ l, start.core.Cached l := ⟨[], Core.cached_launch w⟩
  have hiff : ∀ (s : App) (e : Event), (∃ l, s.core.Cached l) →
      (s.InEditor EditorState.StoresFirst e ↔ s.InEditor EditorState.HandsOverStorable e) := by
    rintro s e ⟨l, h⟩
    exact App.inEditor_iff e fun view a => EditorState.storesFirst_iff h.numbers a
  constructor
  · exact along_congr hiff (fun _ e hs _ => App.cached_handle hs e) hstart es
  · intro hguard pre hpre
    have hboth : Along App.handle (fun s e => e.LeavesCursor ∧
        s.InEditor EditorState.HandsOverStorable e) start pre := by
      refine along_and.mpr ⟨?_, along_initial hpre hguard⟩
      exact along_of_forall fun e he => hCursor e (hpre.subset he)
    have hstep : ∀ (s : App) (e : Event), (∃ l, s.core.Cached l) ∧ s.core.Within →
        e.LeavesCursor ∧ s.InEditor EditorState.HandsOverStorable e →
        (∃ l, (s.handle e).core.Cached l) ∧ (s.handle e).core.Within := fun s e hs he =>
      ⟨App.cached_handle hs.1 e, App.within_handle hs.2 hs.1 he.1 he.2⟩
    exact (invariant_run hstep ⟨hstart, show (1 : Int) ≤ _ by simp⟩ hboth).2

/-- A first login without a connection, and a first quiz with one quote. -/
def Event.firstQuiz : List Event :=
  .operation (.getUser { data := none, statusCode := none, error := true } {}) ::
    Action.firstQuiz.map .action

theorem storesFirst_firstQuiz :
    Along App.handle (App.InEditor EditorState.HandsOverStorable)
      { core := .launch { uuids := .numbered } } Event.firstQuiz ∧
    Along App.handle (App.InEditor EditorState.StoresFirst)
      { core := .launch { uuids := .numbered } } Event.firstQuiz := by
  have hCursor : ∀ e ∈ Event.firstQuiz, e.LeavesCursor := by
    simp [Event.firstQuiz, Event.LeavesCursor]
  have hguard : Along App.handle (App.InEditor EditorState.HandsOverStorable)
      { core := .launch { uuids := .numbered } } Event.firstQuiz := by decide
  exact ⟨hguard, (storesFirst_along_iff { uuids := .numbered } hCursor).1.mpr hguard⟩

/-- A complete first quote whose encoder throws: Next, which is enabled, clears the screen
and moves on from a quote that is nowhere. -/
theorem next_leaves_unstored_quote :
    (¬ ∀ (as : List EditorAction) (env : Env) (order : Reordering QuotePart),
      let s := run EditorState.tap .first as
      s.view.nextButton = true → s.StoresFirst (.next env order)) ∧
    ¬ ∀ as : List EditorAction, (run EditorState.tap .first as).core.Within := by
  constructor
  · intro h
    have hcount := (h (EditorAction.fillIn sampleTexts) { encodes := false } .asIs (by decide)
      (by decide)).1 (by decide)
    revert hcount
    decide
  · intro h
    have hwithin := h (EditorAction.fillIn sampleTexts ++ [.next { encodes := false } .asIs])
    revert hwithin
    unfold Core.Within
    decide

end KnowTheQuote
