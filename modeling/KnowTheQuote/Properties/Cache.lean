import KnowTheQuote.Properties.LogInSteps

/-!
# Know the Quote — the quotes dictionary

`QuizController.quotes` is written at key `count + 1` by `createQuote` and copied
from `QuoteController.quotes`, which has a cursor of its own, by `setupStart`.
Seen from outside it is a list: its keys are `1, …, count` and no object sits
under two keys.

* `step_cacheStep` — every operation but `setupStart` keeps the dictionary or
  appends one new object to it.
* `setupStart_numbers` — `setupStart` makes the dictionary number what it fetched.
* `cached_run` — both together, over whole runs.
-/

namespace KnowTheQuote

open Machine

-- ---------------------------------------------------------------------------
-- setupStart
-- ---------------------------------------------------------------------------

/-- The quotes of a quiz, as the predicate on `quizID` finds them. -/
def Context.storedQuotes (c : Context) (quiz : ObjectID) : List ObjectID :=
  c.fetchQuotes ((c.quizID quiz).map UUID.uuidString)

/-- What `setupStart` fetches: nothing when the fetch throws. -/
def Context.foundQuotes (c : Context) (quiz : ObjectID) (fetch : FetchOutcome) :
    List ObjectID :=
  match fetch with
  | none => []
  | some order => order.apply (c.storedQuotes quiz)

/-- No quote is found twice. -/
theorem nodup_foundQuotes (c : Context) (quiz : ObjectID) (fetch : FetchOutcome) :
    (c.foundQuotes quiz fetch).Nodup := by
  cases fetch with
  | none => exact List.nodup_nil
  | some order => exact order.nodup_apply (nodup_fetchQuotes c _)

/-- What is found are objects of the context. -/
theorem lt_size_of_mem_foundQuotes {c : Context} {quiz : ObjectID} {fetch : FetchOutcome}
    {r : ObjectID} (h : r ∈ c.foundQuotes quiz fetch) : r < c.quotes.size := by
  cases fetch with
  | none => cases h
  | some order => exact lt_size_of_mem_fetchQuotes ((order.mem_apply _ _).mp h)

namespace QuizController

variable (q : QuizController) (c : Context) (quiz : ObjectID) (fetch : FetchOutcome)

/-- A play starts at the first quote. -/
@[simp] theorem currentQuote_setupStart : (q.setupStart c quiz fetch).1.currentQuote = 1 := by
  unfold setupStart resetCounter
  rfl

@[simp] theorem quiz_setupStart : (q.setupStart c quiz fetch).1.quiz = q.quiz := by
  have hsync := Core.quiz_syncUser (q.resetCounter.resetQuotesDictionary)
  unfold setupStart
  cases fetch <;> exact hsync

@[simp] theorem user_setupStart : (q.setupStart c quiz fetch).1.user = q.user := by
  have hsync := Core.user_syncUser (q.resetCounter.resetQuotesDictionary)
  unfold setupStart
  cases fetch <;> exact hsync

@[simp] theorem quoteBaseURL_setupStart :
    (q.setupStart c quiz fetch).1.quoteController.baseURL = q.quoteController.baseURL := by
  have hsync := Core.quoteController_baseURL_syncUser (q.resetCounter.resetQuotesDictionary)
  unfold setupStart
  cases fetch <;> exact hsync

/-- The dictionary the two resets leave is empty, the second controller's cursor is
at 1, and so the loop of `getAllQuotesOf` numbers what the fetch returned. -/
theorem setupStart_numbers :
    Dict.Numbers (q.setupStart c quiz fetch).1.quotes (c.foundQuotes quiz fetch) := by
  set q₁ := (q.resetCounter.resetQuotesDictionary).syncUser with hq₁
  have hquotes : q₁.quotes = ∅ := by rw [hq₁, Core.quotes_syncUser]; rfl
  have hinner : q₁.quoteController.quotes = ∅ ∧ q₁.quoteController.currentQuote = 1 := by
    rw [hq₁, Core.quoteController_quotes_syncUser, Core.quoteController_currentQuote_syncUser]
    exact ⟨rfl, rfl⟩
  cases fetch with
  | none =>
    show Dict.Numbers q₁.quotes []
    rw [hquotes]
    exact Dict.numbers_empty
  | some order =>
    show Dict.Numbers (Dict.fill q₁.quoteController.quotes q₁.quoteController.currentQuote
      (c.foundQuotes quiz (some order))).1 _
    rw [hinner.1, hinner.2]
    exact (Dict.numbers_fill Dict.numbers_empty _).1

/-- `setupStart` returns the first quote it fetched. -/
theorem setupStart_snd : (q.setupStart c quiz fetch).2 = (c.foundQuotes quiz fetch)[0]? := by
  have hnum := (q.setupStart_numbers c quiz fetch).lookup_succ 0
  rw [← hnum]
  rfl

/-- While there are quotes left, `nextQuoteToDisplay` advances by one. -/
theorem nextQuoteToDisplay_of_lt {q : QuizController} (h : q.currentQuote < q.quotes.count) :
    q.nextQuoteToDisplay = ({ q with currentQuote := q.currentQuote + 1 },
      q.quotes.lookup (q.currentQuote + 1)) := by
  simp [nextQuoteToDisplay, h]

/-- At the end, `nextQuoteToDisplay` changes nothing. -/
theorem nextQuoteToDisplay_of_le {q : QuizController} (h : q.quotes.count ≤ q.currentQuote) :
    q.nextQuoteToDisplay = (q, none) := by
  simp [nextQuoteToDisplay, Int.not_lt.mpr h]

@[simp] theorem quotes_nextQuoteToDisplay : q.nextQuoteToDisplay.1.quotes = q.quotes := by
  unfold nextQuoteToDisplay
  split <;> rfl

@[simp] theorem quotes_moveToNextQuote : q.moveToNextQuote.quotes = q.quotes := by
  unfold moveToNextQuote
  split <;> rfl

@[simp] theorem quotes_moveToPrevQuote : q.moveToPrevQuote.quotes = q.quotes := by
  unfold moveToPrevQuote
  split <;> rfl

end QuizController

-- ---------------------------------------------------------------------------
-- The other operations
-- ---------------------------------------------------------------------------

namespace Core

/-- What an operation other than `setupStart` does to the dictionary. An appended
object is new: it is the cell the operation allocated. -/
inductive CacheStep (c c' : Core) : Prop where
  | kept (hquotes : c'.quizController.quotes = c.quizController.quotes)
      (hsize : c.world.context.quotes.size ≤ c'.world.context.quotes.size)
  | appended
      (hquotes : c'.quizController.quotes =
        Finmap.insert ((c.quizController.quotes.count : Int) + 1) c.world.context.quotes.size
          c.quizController.quotes)
      (hsize : c.world.context.quotes.size < c'.world.context.quotes.size)

variable (c : Core)

/-- A save never forgets that a cell was used. -/
theorem size_le_size_save (w : World) (saves : Bool) :
    w.context.quotes.size ≤ (w.save saves).context.quotes.size := by
  cases saves with
  | true => exact le_refl _
  | false =>
    rw [World.context_save_false]
    simp [Context.reload]

/-- `createQuote` keeps the dictionary or appends the new object. -/
theorem createQuote_cacheStep (a : NewQuote) (env : Env) :
    c.CacheStep (c.createQuote a.firstPart a.secondPart a.answer a.incorrectAnswers env) := by
  have hcases := c.createQuote_cases a env
  generalize c.createQuote a.firstPart a.secondPart a.answer a.incorrectAnswers env = c'
    at hcases ⊢
  cases hcases with
  | skipped => exact .kept rfl (le_refl _)
  | full => exact .kept (quotes_syncUser _) (le_refl _)
  | refused => exact .kept (quotes_syncUser _) (by simp)
  | added =>
    refine .appended (by simp) ?_
    rw [context_put_createQuote]
    refine lt_of_lt_of_le ?_ (size_le_size_save _ _)
    simp [Context.addToQuotes]

/-- The editor moves the cursor itself. -/
theorem currentQuote_createQuote (a : NewQuote) (env : Env) :
    (c.createQuote a.firstPart a.secondPart a.answer a.incorrectAnswers
      env).quizController.currentQuote = c.quizController.currentQuote := by
  have hcases := c.createQuote_cases a env
  generalize c.createQuote a.firstPart a.secondPart a.answer a.incorrectAnswers env = c'
    at hcases ⊢
  cases hcases <;> simp

theorem currentQuote_createEmptyQuiz (env : Env) :
    (c.createEmptyQuiz env).quizController.currentQuote = c.quizController.currentQuote := by
  have hcases := c.createEmptyQuiz_cases env
  generalize c.createEmptyQuiz env = c' at hcases ⊢
  cases hcases <;> simp

theorem quotes_createEmptyQuiz (env : Env) :
    (c.createEmptyQuiz env).quizController.quotes = c.quizController.quotes := by
  have hcases := c.createEmptyQuiz_cases env
  generalize c.createEmptyQuiz env = c' at hcases ⊢
  cases hcases <;> simp

/-- A new quiz starts with the dictionary of the quiz before. -/
theorem createEmptyQuiz_cacheStep (env : Env) : c.CacheStep (c.createEmptyQuiz env) := by
  have hcases := c.createEmptyQuiz_cases env
  generalize c.createEmptyQuiz env = c' at hcases ⊢
  cases hcases with
  | skipped => exact .kept rfl (le_refl _)
  | refused => exact .kept (by simp) (by simp)
  | added =>
    refine .kept (by simp) ?_
    rw [context_put_createEmptyQuiz]
    refine le_trans ?_ (size_le_size_save _ _)
    simp [Context.addToQuizzesCreated]

/-- What the login and its parts leave alone. -/
structure SameQuotes (c c' : Core) : Prop where
  quotes : c'.quizController.quotes = c.quizController.quotes
  currentQuote : c'.quizController.currentQuote = c.quizController.currentQuote
  size : c.world.context.quotes.size ≤ c'.world.context.quotes.size

theorem SameQuotes.refl : c.SameQuotes c := ⟨rfl, rfl, le_refl _⟩

theorem SameQuotes.save {c c' : Core} (h : c.SameQuotes c') (saves : Bool) :
    c.SameQuotes (c'.save saves) :=
  ⟨h.quotes, h.currentQuote, h.size.trans (size_le_size_save _ saves)⟩

theorem SameQuotes.syncUser {c c' : Core} (h : c.SameQuotes c') : c.SameQuotes c'.syncUser := by
  unfold Core.syncUser
  split
  · exact ⟨h.quotes, h.currentQuote, h.size⟩
  · exact h

/-- Users have no part in the dictionary. -/
theorem createUser_sameQuotes (username password : String) (env : Env) :
    c.SameQuotes (c.createUser username password env).1 :=
  createUser_induction (fun _ _ _ _ h => ⟨h.quotes, h.currentQuote, h.size⟩)
    (fun _ h => h.save _) (fun _ _ _ h => ⟨h.quotes, h.currentQuote, h.size⟩)
    (fun _ _ h => ⟨h.quotes, h.currentQuote, h.size⟩) (SameQuotes.refl c) username password

theorem getUser_sameQuotes (r : Response) (env : LogInEnv) : c.SameQuotes (c.getUser r env) :=
  getUser_induction (fun _ _ _ _ h => ⟨h.quotes, h.currentQuote, h.size⟩)
    (fun _ _ _ h => h.save _) (fun _ _ _ h => ⟨h.quotes, h.currentQuote, h.size⟩)
    (fun _ _ h => ⟨h.quotes, h.currentQuote, h.size⟩)
    (fun _ _ h => ⟨h.quotes, h.currentQuote, h.size⟩)
    (fun _ _ h => ⟨h.quotes, h.currentQuote, h.size⟩)
    (fun _ _ _ _ h => ⟨h.quotes, h.currentQuote, h.size⟩)
    (fun _ h => h.syncUser) (SameQuotes.refl c) r

/-- A failure reported late changes nothing. -/
@[simp] theorem step_taskFailed (index : Nat) : c.step (.taskFailed index) = c := by
  simp only [step]
  split
  · rfl
  · exact complete_error ..

/-- **Append-only.** Every operation but `setupStart` keeps the dictionary or appends
one new object to it. -/
theorem step_cacheStep (op : Operation) (hop : ∀ quiz fetch, op ≠ .setupStart quiz fetch) :
    c.CacheStep (c.step op) := by
  cases op with
  | createUser username password env =>
    have h := c.createUser_sameQuotes username password env
    exact .kept h.quotes h.size
  | syncUser =>
    have h := (SameQuotes.refl c).syncUser
    exact .kept h.quotes h.size
  | getUser r env =>
    have h := c.getUser_sameQuotes r env
    exact .kept h.quotes h.size
  | setTitle title => exact .kept rfl (le_refl _)
  | createEmptyQuiz env => exact c.createEmptyQuiz_cacheStep env
  | createQuote first second answer incorrect env =>
    exact c.createQuote_cacheStep ⟨first, second, answer, incorrect⟩ env
  | moveToNextQuote => exact .kept (QuizController.quotes_moveToNextQuote _) (le_refl _)
  | moveToPrevQuote => exact .kept (QuizController.quotes_moveToPrevQuote _) (le_refl _)
  | setupStart quiz fetch => exact absurd rfl (hop quiz fetch)
  | nextQuoteToDisplay => exact .kept (QuizController.quotes_nextQuoteToDisplay _) (le_refl _)
  | taskFailed index =>
    rw [step_taskFailed]
    exact .kept rfl (le_refl _)

/-- The cursor never leaves the positive numbers. -/
theorem one_le_currentQuote_step (op : Operation) (h : 1 ≤ c.quizController.currentQuote) :
    1 ≤ (c.step op).quizController.currentQuote := by
  cases op with
  | createUser username password env =>
    exact (c.createUser_sameQuotes username password env).currentQuote ▸ h
  | syncUser => exact (SameQuotes.refl c).syncUser.currentQuote ▸ h
  | getUser r env => exact (c.getUser_sameQuotes r env).currentQuote ▸ h
  | setTitle title => exact h
  | createEmptyQuiz env =>
    show 1 ≤ (c.createEmptyQuiz env).quizController.currentQuote
    rw [currentQuote_createEmptyQuiz]
    exact h
  | createQuote first second answer incorrect env =>
    have heq := c.currentQuote_createQuote ⟨first, second, answer, incorrect⟩ env
    exact heq ▸ h
  | moveToNextQuote =>
    simp only [step, QuizController.moveToNextQuote]
    split
    · exact le_trans h (by simp)
    · exact h
  | moveToPrevQuote =>
    simp only [step, QuizController.moveToPrevQuote]
    split
    · next hcan =>
      -- `canMoveToPrev` asks for a cursor above 1
      have hlt : 1 < c.quizController.currentQuote := by
        simpa [currentQuoteMinIndex] using (Bool.and_eq_true_iff.mp hcan).2
      show 1 ≤ c.quizController.currentQuote - 1
      omega
    · exact h
  | setupStart quiz fetch => simp [step]
  | nextQuoteToDisplay =>
    simp only [step, QuizController.nextQuoteToDisplay]
    split
    · exact le_trans h (by simp)
    · exact h
  | taskFailed index =>
    rw [step_taskFailed]
    exact h

-- ---------------------------------------------------------------------------
-- Runs
-- ---------------------------------------------------------------------------

/-- The dictionary numbers a list of distinct objects of the context, and the cursor
is positive. -/
structure Cached (l : List ObjectID) : Prop where
  numbers : c.quizController.quotes.Numbers l
  nodup : l.Nodup
  objects : ∀ r ∈ l, r < c.world.context.quotes.size
  cursor : 1 ≤ c.quizController.currentQuote

/-- At the launch it is empty. -/
theorem cached_launch (w : World) : (launch w).Cached [] :=
  ⟨Dict.numbers_empty, List.nodup_nil, by simp, le_refl _⟩

variable {c}

/-- One operation. -/
theorem Cached.step {l : List ObjectID} (h : c.Cached l) (op : Operation) :
    ∃ l', (c.step op).Cached l' := by
  have hcursor := c.one_le_currentQuote_step op h.cursor
  by_cases hop : ∃ quiz fetch, op = .setupStart quiz fetch
  · obtain ⟨quiz, fetch, rfl⟩ := hop
    exact ⟨_, c.quizController.setupStart_numbers _ quiz fetch, nodup_foundQuotes _ _ _,
      fun r hr => lt_size_of_mem_foundQuotes hr, hcursor⟩
  · have hop' : ∀ quiz fetch, op ≠ .setupStart quiz fetch := fun quiz fetch heq =>
      hop ⟨quiz, fetch, heq⟩
    cases c.step_cacheStep op hop' with
    | kept hquotes hsize =>
      exact ⟨l, hquotes ▸ h.numbers, h.nodup,
        fun r hr => lt_of_lt_of_le (h.objects r hr) hsize, hcursor⟩
    | appended hquotes hsize =>
      -- the new object is none of the old ones, which have smaller numbers
      have hnew : c.world.context.quotes.size ∉ l := fun hmem =>
        lt_irrefl _ (h.objects _ hmem)
      refine ⟨l ++ [c.world.context.quotes.size], hquotes ▸ h.numbers.insert _, ?_, ?_, hcursor⟩
      · exact h.nodup.append (List.nodup_singleton _) (by simpa using hnew)
      · intro r hr
        rcases List.mem_append.mp hr with hr | hr
        · exact (h.objects r hr).trans hsize
        · rw [List.mem_singleton.mp hr]
          exact hsize

/-- Every run. -/
theorem cached_run {l : List ObjectID} (h : c.Cached l) (ops : List Operation) :
    ∃ l', (run Core.step c ops).Cached l' :=
  have hstep : ∀ (c : Core) (op : Operation),
      (∃ l, c.Cached l) → ∃ l, (c.step op).Cached l := fun _ op ⟨_, h⟩ => h.step op
  invariant_run_all hstep ⟨l, h⟩ ops

/-- An operation other than `setupStart` keeps every entry. -/
theorem Cached.lookup_step {l : List ObjectID} (h : c.Cached l) {op : Operation}
    (hop : ∀ quiz fetch, op ≠ .setupStart quiz fetch) {k : Int} {r : ObjectID}
    (hk : c.quizController.quotes.lookup k = some r) :
    (c.step op).quizController.quotes.lookup k = some r := by
  cases c.step_cacheStep op hop with
  | kept hquotes => rw [hquotes, hk]
  | appended hquotes => rw [hquotes, h.numbers.lookup_insert_of_some _ hk]

end Core

/-- **The dictionary is a gap-free, append-only sequence.** After every run of the
controllers' operations its keys are `1, …, count`, its values are distinct objects
and the cursor is positive; the next operation keeps every entry unless it is
`setupStart`, `createQuote` adds at most the entry `count + 1`, and
`nextQuoteToDisplay` returns `nil` only at the end, where it changes nothing. -/
theorem quotes_gapFree (w : World) (ops : List Operation) :
    let c := run Core.step (Core.launch w) ops
    let q := c.quizController
    (∀ k, k ∈ q.quotes ↔ 1 ≤ k ∧ k ≤ q.quotes.count) ∧
    (∀ j k r, q.quotes.lookup j = some r → q.quotes.lookup k = some r → j = k) ∧
    1 ≤ q.currentQuote ∧
    (∀ op, (∀ quiz fetch, op ≠ .setupStart quiz fetch) → ∀ k r,
      q.quotes.lookup k = some r → (c.step op).quizController.quotes.lookup k = some r) ∧
    (∀ first second answer incorrect env,
      let q' := (c.step (.createQuote first second answer incorrect env)).quizController
      q'.quotes = q.quotes ∨
        ∃ r, q'.quotes = Finmap.insert ((q.quotes.count : Int) + 1) r q.quotes) ∧
    (q.nextQuoteToDisplay.2 = none →
      q.quotes.count ≤ q.currentQuote ∧ q.nextQuoteToDisplay.1 = q) := by
  intro c q
  obtain ⟨l, h⟩ : ∃ l, c.Cached l := Core.cached_run (Core.cached_launch w) ops
  have hkeys : ∀ k, k ∈ q.quotes ↔ 1 ≤ k ∧ k ≤ q.quotes.count := h.numbers.mem_iff
  refine ⟨hkeys, fun j k r => h.numbers.key_unique h.nodup, h.cursor,
    fun op hop k r => h.lookup_step hop, ?_, ?_⟩
  · intro first second answer incorrect env
    cases c.createQuote_cacheStep ⟨first, second, answer, incorrect⟩ env with
    | kept hquotes => exact .inl hquotes
    | appended hquotes => exact .inr ⟨_, hquotes⟩
  · intro hnone
    rcases lt_or_ge q.currentQuote q.quotes.count with hlt | hle
    · -- before the end the next key is present
      have hcursor : 1 ≤ q.currentQuote := h.cursor
      have hmem : q.currentQuote + 1 ∈ q.quotes := (hkeys _).mpr ⟨by omega, by omega⟩
      obtain ⟨r, hr⟩ := Finmap.mem_iff.mp hmem
      rw [QuizController.nextQuoteToDisplay_of_lt hlt, hr] at hnone
      cases hnone
    · exact ⟨hle, by rw [QuizController.nextQuoteToDisplay_of_le hle]⟩

end KnowTheQuote
