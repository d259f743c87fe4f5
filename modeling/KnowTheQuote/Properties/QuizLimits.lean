import KnowTheQuote.Properties.Creation
import KnowTheQuote.Properties.EditorGuards

/-!
# Know the Quote — how many quotes a quiz gets

`quizMaxQuotes` is 15, but `createQuote` asks for fewer than 16 quotes, and it asks the
dictionary, which is the quotes of the current quiz only as long as no other quiz is
created or played. So a sixteenth quote is stored, and more than that when the
dictionary has been emptied in between.

* `Context.Capped`, `Core.Capped` — the limit, for the dictionary and for the store.
* `Core.Filed.step` — an operation other than `createQuote` attaches no quote.
* `createQuote_withinLimit_iff` — the calls of `createQuote` that keep the limit.
* `quiz_limit_iff` — the runs that keep it.
-/

namespace KnowTheQuote

open Machine

-- ---------------------------------------------------------------------------
-- Attached quotes
-- ---------------------------------------------------------------------------

/-- No quiz has more than `quizMaxQuotes` quotes. -/
def Context.Capped (c : Context) : Prop := ∀ quiz, (c.quotesOf quiz).length ≤ quizMaxQuotes

/-- A new quote belongs to no quiz yet. -/
theorem quotesOf_addQuote (c : Context) {quote : Quote} (hquote : quote.quiz = none)
    (quiz : ObjectID) :
    ({ c with quotes := c.quotes.alloc quote } : Context).quotesOf quiz = c.quotesOf quiz := by
  unfold Context.quotesOf
  dsimp only
  rw [Heap.live_alloc, List.filter_append]
  have hnew : [c.quotes.size].filter (fun r =>
      ((c.quotes.alloc quote).get? r).bind Quote.quiz == some quiz) = [] := by
    simp [hquote]
  rw [hnew, List.append_nil]
  apply List.filter_congr
  intro r hr
  obtain ⟨q, hq⟩ := Heap.mem_live.mp hr
  rw [Heap.get?_alloc_of_lt quote (Heap.lt_size_of_get? hq)]

/-- After a reset a quiz has the quotes it has in the store, under their new numbers. -/
theorem capped_reload {store : Context} (h : store.Capped) (c : Context) :
    (c.reload store).Capped := by
  intro quiz
  have hquotes : ((c.reload store).quotesOf quiz).length ≤
      (store.quotesOf (quiz - c.quizzes.size)).length := by
    unfold Context.quotesOf
    rw [Context.reload, Heap.live_reload, List.filter_map, List.length_map]
    refine (List.monotone_filter_right _ ?_).length_le
    intro r hr
    obtain ⟨q, hq⟩ : ∃ q, store.quotes.get? r = some q := by
      cases hq : store.quotes.get? r with
      | none => simp [Heap.get?_reload_add, hq] at hr
      | some q => exact ⟨q, rfl⟩
    simp only [Function.comp_apply, Heap.get?_reload_add, hq, Option.map_some, Option.bind_some,
      beq_iff_eq] at hr ⊢
    obtain ⟨z, hz, hquiz⟩ := Option.map_eq_some_iff.mp hr
    rw [hz, ← hquiz, Nat.add_sub_cancel_left]
  exact hquotes.trans (h _)

namespace Core

/-- The limit: in the dictionary, and in every quiz of the store. -/
structure Capped (c : Core) : Prop where
  quotes : c.quizController.quotes.count ≤ quizMaxQuotes
  store : c.world.coreData.store.Capped

/-- A quiz has in the store the quotes it has in the context, and no more than the limit. -/
structure Filed (c : Core) : Prop where
  attached : ∀ quiz, c.world.coreData.store.quotesOf quiz = c.world.context.quotesOf quiz
  store : c.world.coreData.store.Capped

variable {c : Core}

namespace Filed

theorem of_eq (h : c.Filed) {c' : Core} (hworld : c'.world.coreData = c.world.coreData) :
    c'.Filed := by
  obtain ⟨hattached, hstore⟩ := h
  unfold World.context at hattached
  rw [← hworld] at hattached hstore
  exact ⟨hattached, hstore⟩

theorem context (h : c.Filed) : c.world.context.Capped := by
  intro quiz
  rw [← h.attached]
  exact h.store quiz

/-- Only the quotes of the context matter, and the relationships they have. -/
theorem setContext (h : c.Filed) {ctx : Context}
    (hquotes : ∀ quiz, ctx.quotesOf quiz = c.world.context.quotesOf quiz) :
    (c.setContext ctx).Filed :=
  ⟨fun quiz => (h.attached quiz).trans (hquotes quiz).symm, h.store⟩

theorem save (h : c.Filed) (saves : Bool) : (c.save saves).Filed := by
  cases saves with
  | true => exact ⟨fun _ => rfl, h.context⟩
  | false => exact ⟨fun _ => rfl, capped_reload h.store _⟩

theorem createUser (h : c.Filed) (username password : String) (env : Env) :
    (c.createUser username password env).1.Filed :=
  createUser_induction (fun _ _ _ _ h => ⟨h.attached, h.store⟩) (fun _ h => h.save _)
    (fun _ _ _ h => h.of_eq rfl) (fun _ _ h => h.of_eq rfl) h username password

theorem getUser (h : c.Filed) (r : Response) (env : LogInEnv) : (c.getUser r env).Filed :=
  getUser_induction (fun _ _ _ _ h => ⟨h.attached, h.store⟩) (fun _ _ _ h => h.save _)
    (fun _ _ _ h => h.of_eq rfl) (fun _ _ h => h.of_eq rfl) (fun _ _ h => h.of_eq rfl)
    (fun _ _ h => h.of_eq rfl) (fun _ _ _ _ h => h.of_eq rfl)
    (fun c h => h.of_eq (congrArg World.coreData c.world_syncUser)) h r

theorem createEmptyQuiz (h : c.Filed) (env : Env) : (c.createEmptyQuiz env).Filed := by
  have hnew : ∀ title creator, (c.withEmptyQuiz title creator env).Filed := by
    intro title creator
    refine ⟨fun quiz => ?_, ?_⟩
    · rw [store_withEmptyQuiz, context_withEmptyQuiz]
      exact h.attached quiz
    · rw [store_withEmptyQuiz]
      exact h.store
  have hcases := c.createEmptyQuiz_cases env
  generalize c.createEmptyQuiz env = c' at hcases ⊢
  cases hcases with
  | skipped => exact h
  | refused => exact (hnew _ _).of_eq rfl
  | @added title creator r =>
    have hadded : ((c.withEmptyQuiz title creator env).setContext
        ((c.withEmptyQuiz title creator env).world.context.addToQuizzesCreated creator
          c.world.context.quizzes.size)).Filed := (hnew title creator).setContext fun _ => rfl
    exact (hadded.save env.saves).of_eq rfl

theorem withNewQuote (h : c.Filed) (a : NewQuote) (quizID : UUID) :
    (c.withNewQuote a quizID).Filed :=
  (h.setContext fun quiz => quotesOf_addQuote c.world.context rfl quiz).of_eq rfl

/-- **Step.** An operation other than `createQuote` attaches no quote. -/
theorem step (h : c.Filed) {op : Operation}
    (hop : ∀ first second answer incorrect env,
      op ≠ .createQuote first second answer incorrect env) : (c.step op).Filed := by
  cases op with
  | createUser username password env => exact h.createUser username password env
  | syncUser => exact h.of_eq (congrArg World.coreData c.world_syncUser)
  | getUser r env => exact h.getUser r env
  | setTitle title => exact h.of_eq rfl
  | createEmptyQuiz env => exact h.createEmptyQuiz env
  | createQuote first second answer incorrect env => exact (hop _ _ _ _ _ rfl).elim
  | moveToNextQuote => exact h.of_eq rfl
  | moveToPrevQuote => exact h.of_eq rfl
  | setupStart quiz fetch => exact h.of_eq rfl
  | nextQuoteToDisplay => exact h.of_eq rfl
  | taskFailed index =>
    rw [step_taskFailed]
    exact h

end Filed

-- ---------------------------------------------------------------------------
-- createQuote
-- ---------------------------------------------------------------------------

section AddQuote

variable (a : NewQuote) (quiz : ObjectID) (quizID : UUID) (r : Request)

theorem length_quotesOf_withAddedQuote (quiz' : ObjectID) :
    ((c.withAddedQuote a quiz quizID r true).world.context.quotesOf quiz').length =
      (c.world.context.quotesOf quiz').length + if quiz' = quiz then 1 else 0 := by
  by_cases hquiz : quiz' = quiz
  · subst hquiz
    rw [(quotesOf_withAddedQuote_perm a quizID r).length_eq, if_pos rfl, List.length_cons]
  · have hperm : ((c.withAddedQuote a quiz quizID r true).world.context.quotesOf quiz').Perm
        (c.world.context.quotesOf quiz') := by
      refine (List.perm_ext_iff_of_nodup (nodup_quotesOf ..) (nodup_quotesOf ..)).mpr fun r' => ?_
      rw [mem_quotesOf_withAddedQuote, or_iff_left fun hnew => hquiz hnew.2]
    rw [hperm.length_eq, if_neg hquiz, Nat.add_zero]

/-- The save after a stored quote keeps the limit when the quiz had room, and so does one
that throws. -/
theorem capped_store_withAddedQuote_iff (h : c.Filed) (saves : Bool) :
    (c.withAddedQuote a quiz quizID r saves).world.coreData.store.Capped ↔
      (saves = true → (c.world.context.quotesOf quiz).length < quizMaxQuotes) := by
  cases saves with
  | false => exact iff_of_true (capped_reload h.store _) nofun
  | true =>
    show (c.withAddedQuote a quiz quizID r true).world.context.Capped ↔ _
    constructor
    · intro hcapped _
      have hquiz := hcapped quiz
      rw [length_quotesOf_withAddedQuote, if_pos rfl] at hquiz
      exact hquiz
    · intro hroom quiz'
      rw [length_quotesOf_withAddedQuote]
      by_cases hquiz : quiz' = quiz
      · rw [if_pos hquiz, hquiz]
        exact hroom rfl
      · rw [if_neg hquiz]
        exact h.context quiz'

end AddQuote

/-- `createQuote` returns at its first guard. -/
def NoQuiz (c : Core) : Prop :=
  ∀ quiz, c.quizController.quiz = some quiz → c.world.context.quizID quiz = none

/-- `createQuote` returns at its first guard, or there is room in the dictionary and, if the
quote will be stored, in the current quiz. -/
def CreatesWithin (c : Core) (env : Env) : Prop :=
  c.NoQuiz ∨ c.quizController.quotes.count < quizMaxQuotes ∧
    ∀ quiz, c.Ready quiz → env.Succeeds →
      (c.world.context.quotesOf quiz).length < quizMaxQuotes

/-- A call of `createQuote` that passes its first guard changes the context. -/
theorem createQuoteOf_ne {quiz : ObjectID} {quizID : UUID} {env : Env} {a : NewQuote}
    (hquiz : c.quizController.quiz = some quiz) (hid : c.world.context.quizID quiz = some quizID)
    (hcount : c.quizController.quotes.count < 16) : c.createQuoteOf a env ≠ c := by
  intro hsame
  have hdrawn : (c.createQuoteOf a env).world.drawn = c.world.drawn + 1 := by
    have hcases := c.createQuote_cases a env
    unfold createQuoteOf
    generalize c.createQuote a.firstPart a.secondPart a.answer a.incorrectAnswers env = c'
      at hcases ⊢
    cases hcases with
    | skipped hskip =>
      rw [hskip quiz hquiz] at hid
      cases hid
    | full _ _ hfull => omega
    | refused => rfl
    | added => rfl
  rw [hsame] at hdrawn
  omega

/-- **The limit in one call.** Below the limit, `createQuote` keeps to it, and does nothing
when 15 quotes are there, if and only if it returns at its first guard or finds room. -/
theorem createQuote_withinLimit_iff {l : List ObjectID} (hcached : c.Cached l) (h : c.Filed)
    (hcount : c.quizController.quotes.count ≤ quizMaxQuotes) (a : NewQuote) (env : Env) :
    (c.createQuoteOf a env).Capped ∧
        (c.quizController.quotes.count = quizMaxQuotes → c.createQuoteOf a env = c) ↔
      c.CreatesWithin env := by
  have hne := fun quiz quizID => @createQuoteOf_ne c quiz quizID env a
  have hcases := c.createQuote_cases a env
  unfold createQuoteOf at hne ⊢
  generalize c.createQuote a.firstPart a.secondPart a.answer a.incorrectAnswers env = c'
    at hcases hne ⊢
  cases hcases with
  | skipped hskip => exact iff_of_true ⟨⟨hcount, h.store⟩, fun _ => rfl⟩ (.inl hskip)
  | full _ _ hfull =>
    unfold quizMaxQuotes at hcount
    omega
  | refused hquiz hid hlt hput =>
    have hsome : ¬ c.NoQuiz := fun hskip => by
      rw [hskip _ hquiz] at hid
      cases hid
    unfold CreatesWithin
    rw [or_iff_right hsome]
    constructor
    · rintro ⟨-, hfull⟩
      refine ⟨lt_of_le_of_ne hcount fun heq => hne _ _ hquiz hid hlt (hfull heq), ?_⟩
      intro quiz hready henv
      obtain ⟨r, hok⟩ := newQuotePut_of_ready hready a _ henv.encodes
      rw [hok] at hput
      cases hput
    · rintro ⟨hroom, -⟩
      refine ⟨⟨?_, h.store⟩, fun heq => absurd heq hroom.ne⟩
      rw [quizController_refused, quizController_withNewQuote, quotes_syncUser]
      exact hcount
  | @added quiz quizID r hquiz hid hlt hput =>
    have hsome : ¬ c.NoQuiz := fun hskip => by
      rw [hskip _ hquiz] at hid
      cases hid
    obtain ⟨hready, henc⟩ := ready_of_newQuotePut hquiz hid hput
    have hnext : (c.withAddedQuote a quiz quizID r env.saves).quizController.quotes.count =
        c.quizController.quotes.count + 1 := by
      rw [quotes_withAddedQuote, (hcached.numbers.insert _).count, List.length_append,
        hcached.numbers.count]
      rfl
    have hstore := capped_store_withAddedQuote_iff a quiz quizID r h env.saves
    unfold CreatesWithin
    rw [or_iff_right hsome]
    constructor
    · rintro ⟨⟨hquotes, hcapped⟩, -⟩
      refine ⟨by rwa [← Nat.succ_le_iff, Nat.succ_eq_add_one, ← hnext], ?_⟩
      intro quiz' hready' henv
      cases hready.current.symm.trans hready'.current
      exact hstore.mp hcapped henv.saves
    · rintro ⟨hroom, hquiz'⟩
      refine ⟨⟨?_, hstore.mpr fun hsaves => hquiz' quiz hready ⟨henc, hsaves⟩⟩,
        fun heq => absurd heq hroom.ne⟩
      exact hnext.le.trans hroom

/-- What a call of `createQuote` attaches is in the store when the call returns. -/
theorem attached_createQuoteOf (h : c.Filed) (a : NewQuote) (env : Env) (quiz : ObjectID) :
    (c.createQuoteOf a env).world.coreData.store.quotesOf quiz =
      (c.createQuoteOf a env).world.context.quotesOf quiz := by
  have hcases := c.createQuote_cases a env
  unfold createQuoteOf
  generalize c.createQuote a.firstPart a.secondPart a.answer a.incorrectAnswers env = c'
    at hcases ⊢
  cases hcases with
  | skipped => exact h.attached quiz
  | full => exact h.attached quiz
  | refused => exact (h.withNewQuote a _).attached quiz
  | added => cases env.saves <;> rfl

-- ---------------------------------------------------------------------------
-- Every operation
-- ---------------------------------------------------------------------------

/-- With `quizMaxQuotes` quotes in the dictionary, a `createQuote` does nothing. -/
def UnchangedWhenFull (c : Core) : Operation → Prop
  | .createQuote first second answer incorrect env =>
    c.quizController.quotes.count = quizMaxQuotes →
      c.createQuote first second answer incorrect env = c
  | _ => True

/-- A quote is created where there is room, and a quiz is played whose id no more than
`quizMaxQuotes` quotes of the context carry, unless the fetch throws. -/
def WithinLimit (c : Core) : Operation → Prop
  | .createQuote _ _ _ _ env => c.CreatesWithin env
  | .setupStart quiz fetch =>
    fetch = none ∨ (c.world.context.storedQuotes quiz).length ≤ quizMaxQuotes
  | _ => True

/-- The limit, with what the next operation needs. -/
structure Limited (c : Core) : Prop where
  cached : ∃ l, c.Cached l
  filed : c.Filed
  count : c.quizController.quotes.count ≤ quizMaxQuotes

theorem limited_launch (uuids : UUIDSource) (strings : StringEquality) :
    (launch { uuids := uuids, strings := strings }).Limited :=
  ⟨⟨[], cached_launch _⟩, ⟨fun _ => rfl, fun _ => Nat.zero_le _⟩, Nat.zero_le _⟩

/-- A play puts the quotes it finds into the dictionary. -/
theorem count_setupStart_iff (q : QuizController) (ctx : Context) (quiz : ObjectID)
    (fetch : FetchOutcome) :
    (q.setupStart ctx quiz fetch).1.quotes.count ≤ quizMaxQuotes ↔
      fetch = none ∨ (ctx.storedQuotes quiz).length ≤ quizMaxQuotes := by
  rw [(q.setupStart_numbers ctx quiz fetch).count]
  rcases fetch with _ | order
  · exact iff_of_true (Nat.zero_le _) (.inl rfl)
  · rw [Context.foundQuotes, order.length_apply]
    exact (or_iff_right nofun).symm

/-- **The limit in one operation.** -/
theorem Limited.step_iff (h : c.Limited) (op : Operation) :
    (c.step op).Capped ∧ c.UnchangedWhenFull op ↔ c.WithinLimit op := by
  obtain ⟨⟨l, hcached⟩, hfiled, hcount⟩ := h
  have hkept : ∀ {op : Operation}, (c.step op).Filed →
      (c.step op).quizController.quotes = c.quizController.quotes → (c.step op).Capped :=
    fun hstep hquotes => ⟨hquotes ▸ hcount, hstep.store⟩
  cases op with
  | createUser username password env =>
    exact iff_of_true ⟨hkept (hfiled.createUser ..)
      (c.createUser_sameQuotes username password env).quotes, trivial⟩ trivial
  | syncUser =>
    exact iff_of_true ⟨hkept (hfiled.step nofun) (SameQuotes.refl c).syncUser.quotes,
      trivial⟩ trivial
  | getUser r env =>
    exact iff_of_true ⟨hkept (hfiled.getUser r env) (c.getUser_sameQuotes r env).quotes,
      trivial⟩ trivial
  | setTitle title => exact iff_of_true ⟨hkept (hfiled.step nofun) rfl, trivial⟩ trivial
  | createEmptyQuiz env =>
    exact iff_of_true ⟨hkept (hfiled.createEmptyQuiz env) (c.quotes_createEmptyQuiz env),
      trivial⟩ trivial
  | createQuote first second answer incorrect env =>
    exact createQuote_withinLimit_iff hcached hfiled hcount ⟨first, second, answer, incorrect⟩ env
  | moveToNextQuote =>
    exact iff_of_true ⟨hkept (hfiled.step nofun) (QuizController.quotes_moveToNextQuote _),
      trivial⟩ trivial
  | moveToPrevQuote =>
    exact iff_of_true ⟨hkept (hfiled.step nofun) (QuizController.quotes_moveToPrevQuote _),
      trivial⟩ trivial
  | setupStart quiz fetch =>
    have hfound := count_setupStart_iff c.quizController c.world.context quiz fetch
    constructor
    · rintro ⟨hcapped, -⟩
      exact hfound.mp hcapped.quotes
    · intro hroom
      exact ⟨⟨hfound.mpr hroom, hfiled.store⟩, trivial⟩
  | nextQuoteToDisplay =>
    exact iff_of_true ⟨hkept (hfiled.step nofun) (QuizController.quotes_nextQuoteToDisplay _),
      trivial⟩ trivial
  | taskFailed index =>
    have hsame := c.step_taskFailed index
    exact iff_of_true ⟨hkept (hfiled.step nofun) (by rw [hsame]), trivial⟩ trivial

theorem Limited.step (h : c.Limited) {op : Operation} (hcapped : (c.step op).Capped) :
    (c.step op).Limited := by
  obtain ⟨l, hcached⟩ := h.cached
  refine ⟨hcached.step op, ⟨?_, hcapped.store⟩, hcapped.quotes⟩
  by_cases hop : ∃ first second answer incorrect env,
      op = .createQuote first second answer incorrect env
  · obtain ⟨first, second, answer, incorrect, env, rfl⟩ := hop
    exact attached_createQuoteOf h.filed ⟨first, second, answer, incorrect⟩ env
  · refine (h.filed.step ?_).attached
    exact fun first second answer incorrect env heq =>
      hop ⟨first, second, answer, incorrect, env, heq⟩

end Core

/-- **How many quotes a quiz gets, when.** From an empty store, whatever the puts and the
saves report: the dictionary and every quiz of the store keep to `quizMaxQuotes` quotes in
every state of a run, and no `createQuote` of the run does anything with that many quotes in
the dictionary, if and only if each `createQuote` that passes its first guard finds fewer
quotes in the dictionary and, where it stores one, in the current quiz, and each play is of a
quiz whose id no more quotes of the context carry. -/
theorem quiz_limit_iff (uuids : UUIDSource) (strings : StringEquality) (ops : List Operation) :
    let start : Core := .launch { uuids := uuids, strings := strings }
    ((∀ pre, pre <+: ops → (run Core.step start pre).Capped) ∧
      Along Core.step Core.UnchangedWhenFull start ops) ↔
      Along Core.step Core.WithinLimit start ops := by
  intro start
  have hlimited : start.Limited := Core.limited_launch uuids strings
  have hcapped : start.Capped := ⟨hlimited.count, hlimited.filed.store⟩
  rw [forall_prefix_iff, and_iff_right hcapped, ← along_and]
  exact along_congr (fun _ op h => h.step_iff op) (fun _ _ h hnext => h.step hnext.1) hlimited ops

/-- Sixteen quotes for one quiz. -/
def Operation.sixteenQuotes : List Operation :=
  Operation.emptyQuiz ++ List.replicate 16
    (.createQuote (some "May the") (some "be with you") "Force" ["wind", "luck", "moon"] {})

theorem sixteenth_quote_stored :
    ¬ ∀ (uuids : UUIDSource) (strings : StringEquality) (ops : List Operation),
      let start : Core := .launch { uuids := uuids, strings := strings }
      (∀ pre, pre <+: ops → (run Core.step start pre).Capped) ∧
        Along Core.step Core.UnchangedWhenFull start ops := by
  intro h
  obtain ⟨hcapped, -⟩ := h .numbered .byCodePoints Operation.sixteenQuotes
  have hcount := (hcapped _ (List.prefix_refl _)).quotes
  revert hcount
  decide

end KnowTheQuote
