import KnowTheQuote.Properties.Links

/-!
# Know the Quote — how large a quiz can get

The limits on a quiz are spread over the editor: Next asks for a cursor of at most
14, Done for at least two quotes, `createQuote` for fewer than sixteen. Together
they are 3 and 15, because cursor and count are tied to each other: Next saves only
with the cursor one past the last quote, so at most fourteen quotes are there while
the editor is open.

* `cleanSession_start` — the first quiz of a launch opens such a session.
* `Bounded.step` — one editor action keeps cursor, count and the attached quotes
  in step.
* `cleanSession_limits` — the limits, in every state of a session.
-/

namespace KnowTheQuote

open Machine

/-- A session that opens with the controller empty, on a quiz that was just created:
no quote is attached to it yet. -/
structure CleanSession (s : EditorState) (quiz : ObjectID) : Prop where
  view : s.view = NewQuoteViewController.viewDidLoad s.core.quizController
  quotes : s.core.quizController.quotes = ∅
  cursor : s.core.quizController.currentQuote = 1
  ready : s.core.Ready quiz
  unattached : s.core.world.context.quotesOf quiz = []

/-- The first quiz of a launch opens a clean session. -/
theorem cleanSession_start {s : App} (h : s.core.Linked)
    (hquotes : s.core.quizController.quotes = ∅) (hcursor : s.core.quizController.currentQuote = 1)
    (hlogIn : s.core.logIn.isSome) (huser : s.core.quizController.user.isSome) {title : String}
    (htitle : title.isEmpty = false) {env : Env} (henv : env.Succeeds) :
    let s' := s.startButtonTapped title env
    CleanSession ⟨.viewDidLoad s'.core.quizController, s'.core⟩
      s.core.world.context.quizzes.size := by
  intro s'
  obtain ⟨creator, hcreator⟩ := Option.isSome_iff_exists.mp huser
  obtain ⟨user, hlogIn⟩ := Option.isSome_iff_exists.mp hlogIn
  set c : Core := { s.core with quizController.title := some title }
  have hc : c.Linked := h.of_eq rfl rfl rfl rfl rfl rfl rfl
  have hcore : s'.core = c.createEmptyQuiz env := by
    simp [s', App.startButtonTapped, hlogIn, htitle, c]
  have hlinked := hc.createEmptyQuiz henv
  -- the quiz is the current one, and no quote is touched
  have hnew : (c.createEmptyQuiz env).quizController.quiz = some c.world.context.quizzes.size ∧
      (c.createEmptyQuiz env).world.context.quotes = c.world.context.quotes := by
    have hcases := c.createEmptyQuiz_cases env
    generalize c.createEmptyQuiz env = c' at hcases ⊢
    cases hcases with
    | skipped hskip =>
      rcases hskip with hnone | hnone
      · cases hnone
      · cases hnone.symm.trans hcreator
    | refused => exact ⟨by simp, by simp⟩
    | added =>
      rw [henv.saves]
      exact ⟨by simp, by simp [Context.addToQuizzesCreated]⟩
  rw [hcore]
  refine ⟨rfl, ?_, ?_, hlinked.ready hnew.1, ?_⟩
  · exact (c.quotes_createEmptyQuiz env).trans hquotes
  · exact (c.currentQuote_createEmptyQuiz env).trans hcursor
  · rw [List.eq_nil_iff_forall_not_mem]
    intro r hr
    obtain ⟨q, hq, hquiz⟩ := mem_quotesOf.mp hr
    dsimp only at hq
    rw [hnew.2] at hq
    obtain ⟨z, quiz, -, hz, hlive, -⟩ := hc.context.quotes hq
    cases hquiz.symm.trans hz
    exact lt_irrefl _ (Heap.lt_size_of_get? hlive)

/-- Cursor, count and attached quotes in step. The dictionary numbers `l`, the quotes
attached to the quiz. -/
structure Bounded (s : EditorState) (quiz : ObjectID) (l : List ObjectID) : Prop where
  ready : s.core.Ready quiz
  numbers : s.core.quizController.quotes.Numbers l
  nodup : l.Nodup
  attached : ∀ r, r ∈ s.core.world.context.quotesOf quiz ↔ r ∈ l
  one_le : 1 ≤ s.core.quizController.currentQuote
  le_max : s.core.quizController.currentQuote ≤ 15
  le_next : s.core.quizController.currentQuote ≤ (l.length : Int) + 1
  opened : s.view.popped = false → l.length ≤ 14
  closed : s.view.popped = true → 3 ≤ l.length ∧ l.length ≤ 15

theorem popped_viewDidLoad (q : QuizController) :
    (NewQuoteViewController.viewDidLoad q).popped = false := rfl

theorem CleanSession.bounded {s : EditorState} {quiz : ObjectID} (h : CleanSession s quiz) :
    Bounded s quiz [] where
  ready := h.ready
  numbers := h.quotes ▸ Dict.numbers_empty
  nodup := List.nodup_nil
  attached r := by rw [h.unattached]
  one_le := h.cursor ▸ le_refl _
  le_max := by rw [h.cursor]; omega
  le_next := by rw [h.cursor]; simp
  opened _ := Nat.zero_le _
  closed hpopped := by
    rw [h.view, popped_viewDidLoad] at hpopped
    cases hpopped

namespace Bounded

variable {s : EditorState} {quiz : ObjectID} {l : List ObjectID}

/-- Nothing but the cursor moves, and it moves within its bounds. -/
theorem move {s : EditorState} (h : Bounded s quiz l) {q : QuizController}
    {view : NewQuoteViewController} {n : Int}
    (hq : q = { s.core.quizController with currentQuote := n })
    (hpopped : view.popped = s.view.popped) (hlo : 1 ≤ n) (hmax : n ≤ 15)
    (hnext : n ≤ (l.length : Int) + 1) :
    Bounded ⟨view, { s.core with quizController := q }⟩ quiz l := by
  subst hq
  exact ⟨⟨h.ready.current, h.ready.id, h.ready.baseURL, h.ready.user⟩, h.numbers, h.nodup,
    h.attached, hlo, hmax, hnext, fun hp => h.opened (hpopped ▸ hp),
    fun hp => h.closed (hpopped ▸ hp)⟩

/-- A saved quote is appended and attached, and the cursor stays. -/
theorem added {s : EditorState} (h : Bounded s quiz l) (a : NewQuote) {env : Env}
    (henv : env.Succeeds) (hlt : l.length < 16) :
    ∃ r, (s.core.createQuoteOf a env).quizController.currentQuote =
        s.core.quizController.currentQuote ∧
      (s.core.createQuoteOf a env).Ready quiz ∧
      (s.core.createQuoteOf a env).quizController.quotes.Numbers (l ++ [r]) ∧
      (l ++ [r]).Nodup ∧
      ∀ r', r' ∈ (s.core.createQuoteOf a env).world.context.quotesOf quiz ↔ r' ∈ l ++ [r] := by
  have hcount : s.core.quizController.quotes.count < 16 := h.numbers.count ▸ hlt
  obtain ⟨quizID, req, -, heq⟩ := Core.createQuote_of_ready h.ready hcount a henv.encodes
  rw [heq, henv.saves]
  have hnew : s.core.world.context.quotes.size ∉ l := by
    intro hmem
    obtain ⟨q, hq, -⟩ := mem_quotesOf.mp ((h.attached _).mpr hmem)
    exact lt_irrefl _ (Heap.lt_size_of_get? hq)
  refine ⟨s.core.world.context.quotes.size, by simp, h.ready.withAddedQuote a quizID req, ?_,
    ?_, ?_⟩
  · simpa using h.numbers.insert s.core.world.context.quotes.size
  · exact h.nodup.append (List.nodup_singleton _) (by simpa using hnew)
  · intro r'
    rw [Core.mem_quotesOf_withAddedQuote, h.attached, List.mem_append, List.mem_singleton]
    simp

theorem lt_cursor_of_canMoveToPrev {q : QuizController} (h : q.canMoveToPrev = true) :
    1 < q.currentQuote :=
  of_decide_eq_true (Bool.and_eq_true_iff.mp h).2

theorem cursor_le_of_canMoveToNext {q : QuizController} (h : q.canMoveToNext = true) :
    q.currentQuote ≤ 14 :=
  of_decide_eq_true (Bool.and_eq_true_iff.mp h).2

/-- After a save at a cursor of at most 14, Next may move on. -/
theorem canMoveToNext_of {q : QuizController} (hcount : q.quotes.count ≤ 15)
    (hcursor : q.currentQuote ≤ 14) : q.canMoveToNext = true := by
  simp [QuizController.canMoveToNext, quoteCountMax, currentQuoteMaxIndex, hcount, hcursor]

/-- **One editor action** whose `put` and save succeed. -/
theorem step (h : Bounded s quiz l) {a : EditorAction} (ha : a.Succeeds)
    (hopen : s.view.popped = false) : ∃ l', Bounded (s.step a) quiz l' := by
  have hone := h.one_le
  have hnext := h.le_next
  have hlen := h.opened hopen
  have hcount := h.numbers.count
  have hcases := s.step_cases a
  generalize s.step a = s' at hcases ⊢
  cases hcases with
  | viewOnly view hpopped =>
    exact ⟨l, h.move rfl hpopped hone h.le_max hnext⟩
  | prev view hpopped hcan =>
    have hlt := lt_cursor_of_canMoveToPrev hcan
    have hmax := h.le_max
    refine ⟨l, h.move (n := s.core.quizController.currentQuote - 1) ?_
      (hpopped.trans hopen.symm) (by omega) (by omega) (by omega)⟩
    simp [QuizController.moveToPrevQuote, hcan]
  | next view hpopped hcan hsaved =>
    have hle := cursor_le_of_canMoveToNext hcan
    refine ⟨l, h.move (n := s.core.quizController.currentQuote + 1) ?_
      (hpopped.trans hopen.symm) (by omega) (by omega) (by omega)⟩
    simp [QuizController.moveToNextQuote, hcan]
  | saved view env order hact hpopped hcan hnew hcomplete =>
    subst hact
    have hle := cursor_le_of_canMoveToNext hcan
    obtain ⟨r, hcur, hready, hnum, hnodup, hatt⟩ :=
      h.added (s.view.collected order) ha (by omega)
    generalize s.core.createQuoteOf (s.view.collected order) env = c at hcur hready hnum hatt ⊢
    have hlen' : (l ++ [r]).length = l.length + 1 := by simp
    have hcan' : c.quizController.canMoveToNext = true :=
      canMoveToNext_of (by rw [hnum.count]; omega) (by omega)
    have hb : Bounded ⟨view, c⟩ quiz (l ++ [r]) :=
      ⟨hready, hnum, hnodup, hatt, hcur ▸ hone, hcur ▸ h.le_max, by dsimp only; omega,
        fun _ => by omega, fun hp => absurd (hpopped.symm.trans hp) Bool.false_ne_true⟩
    refine ⟨l ++ [r], hb.move (n := c.quizController.currentQuote + 1) ?_ rfl
      (by omega) (by omega) (by omega)⟩
    simp [QuizController.moveToNextQuote, hcan']
  | finished view env order hact hpopped hmin hcomplete =>
    subst hact
    obtain ⟨r, hcur, hready, hnum, hnodup, hatt⟩ :=
      h.added (s.view.collected order) ha (by omega)
    have hlen' : (l ++ [r]).length = l.length + 1 := by simp
    exact ⟨l ++ [r], hready, hnum, hnodup, hatt, hcur ▸ hone, hcur ▸ h.le_max,
      by dsimp only; omega, fun hp => absurd (hp.symm.trans hpopped) Bool.false_ne_true,
      fun _ => by omega⟩

end Bounded

/-- A run of the editor, whatever its length. -/
theorem bounded_run {s : EditorState} {quiz : ObjectID} (h : ∃ l, Bounded s quiz l)
    {as : List EditorAction} (has : ∀ a ∈ as, a.Succeeds) :
    ∃ l, Bounded (run EditorState.step s as) quiz l := by
  have hstep : ∀ (s : EditorState) (a : EditorAction), (∃ l, Bounded s quiz l) → a.Succeeds →
      ∃ l, Bounded (s.step a) quiz l := by
    rintro s a ⟨l, h⟩ ha
    cases hpopped : s.view.popped with
    | false => exact h.step ha hpopped
    | true =>
      rw [EditorState.step_of_popped hpopped]
      exact ⟨l, h⟩
  exact invariant_run_of_forall hstep h has

/-- **Size limits of a clean session.** Whatever is typed and tapped, the cursor stays
between 1 and 15 and at most one past the last quote, at most fifteen quotes are there,
they are exactly the quotes attached to the quiz, and the editor closes itself only on
a quiz of three to fifteen quotes. -/
theorem cleanSession_limits {s : EditorState} {quiz : ObjectID} (hClean : CleanSession s quiz)
    {as : List EditorAction} (hSucceeds : ∀ a ∈ as, a.Succeeds) :
    let s' := run EditorState.step s as
    let q := s'.core.quizController
    1 ≤ q.currentQuote ∧ q.currentQuote ≤ 15 ∧
    q.currentQuote ≤ (q.quotes.count : Int) + 1 ∧
    q.quotes.count ≤ 15 ∧
    (∀ r, (∃ k, q.quotes.lookup k = some r) ↔ r ∈ s'.core.world.context.quotesOf quiz) ∧
    (s'.view.popped = true →
      quizMinQuotes ≤ (s'.core.world.context.quotesOf quiz).length ∧
        (s'.core.world.context.quotesOf quiz).length ≤ quizMaxQuotes) := by
  intro s' q
  obtain ⟨l, h⟩ : ∃ l, Bounded s' quiz l := bounded_run ⟨[], hClean.bounded⟩ hSucceeds
  have hcount : q.quotes.count = l.length := h.numbers.count
  -- the attached quotes are the numbered ones, so there are as many
  have hperm : (s'.core.world.context.quotesOf quiz).Perm l :=
    (List.perm_ext_iff_of_nodup ((Heap.nodup_live _).filter _) h.nodup).mpr h.attached
  refine ⟨h.one_le, h.le_max, hcount ▸ h.le_next, ?_, ?_, ?_⟩
  · rw [hcount]
    cases hpopped : s'.view.popped with
    | false => exact (h.opened hpopped).trans (by decide)
    | true => exact (h.closed hpopped).2
  · intro r
    rw [h.attached, h.numbers.value_iff]
  · intro hpopped
    rw [hperm.length_eq]
    exact h.closed hpopped

/-- The editor of the first quiz of a launch. -/
def EditorState.first : EditorState :=
  let core := (App.firstLaunch.startButtonTapped "Films" {}).core
  ⟨.viewDidLoad core.quizController, core⟩

/-- Three quotes, the last one with Done. -/
def EditorAction.threeQuotes : List EditorAction :=
  EditorAction.fillIn sampleTexts ++ [.next {} .asIs] ++
    EditorAction.fillIn sampleTexts ++ [.next {} .asIs] ++
    EditorAction.fillIn sampleTexts ++ [.done {} .asIs]

theorem cleanSession_first : CleanSession EditorState.first 0 := by
  have hLaunch : (Core.launch { uuids := .numbered }).Linked :=
    Core.linked_launch Context.Linked.empty Context.Linked.empty
  have hCalls : ({} : LogInEnv).onError.Succeeds ∧ ({} : LogInEnv).onData.Succeeds ∧
      ({} : LogInEnv).onStatus.Succeeds := by decide
  have hLinked : App.firstLaunch.core.Linked :=
    hLaunch.getUser { data := none, statusCode := none, error := true } hCalls
  exact cleanSession_start hLinked rfl rfl rfl rfl (by decide) (by decide)

/-- Three quotes and Done close the first editor on a quiz of three. -/
theorem cleanSession_threeQuotes :
    let e := run EditorState.step EditorState.first EditorAction.threeQuotes
    e.view.popped = true ∧ quizMinQuotes ≤ (e.core.world.context.quotesOf 0).length := by
  have hSucceeds : ∀ a ∈ EditorAction.threeQuotes, a.Succeeds := by decide
  have hclosed : (run EditorState.step EditorState.first
      EditorAction.threeQuotes).view.popped = true := by decide
  exact ⟨hclosed, ((cleanSession_limits cleanSession_first hSucceeds).2.2.2.2.2 hclosed).1⟩

end KnowTheQuote
