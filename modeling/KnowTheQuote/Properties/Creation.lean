import KnowTheQuote.Properties.EditorSteps

/-!
# Know the Quote — creating a quote or a quiz

An initialiser inserts its object into the context before `put` is asked, and nothing
takes it out again when `put` reports a failure: the next save, whoever makes it, stores
it. A save that throws resets the context, but the quote is in the dictionary by then.

* `AddedOne`, `Untouched` — all and nothing.
* `allOrNothing_iff` — the calls of `createQuote` that are one of the two.
* `emptyQuizPut_ok_iff` — when the `put` of a new quiz reports a success.
* `creation_atomic_iff` — both creations, in every state of a run.
-/

namespace KnowTheQuote

open Machine

namespace Core

/-- One quote more: in the dictionary, attached to the current quiz, and in the store. -/
structure AddedOne (c c' : Core) (r : ObjectID) : Prop where
  quotes : c'.quizController.quotes =
    Finmap.insert ((c.quizController.quotes.count : Int) + 1) r c.quizController.quotes
  key : (c.quizController.quotes.count : Int) + 1 ∉ c.quizController.quotes
  attached : ∃ quiz, c.quizController.quiz = some quiz ∧
    r ∉ c.world.context.quotesOf quiz ∧
    ∀ r', r' ∈ c'.world.context.quotesOf quiz ↔ r' ∈ c.world.context.quotesOf quiz ∨ r' = r
  fresh : r ∉ c.world.coreData.store.quotes.live
  stored : ∀ r', r' ∈ c'.world.coreData.store.quotes.live ↔
    r' ∈ c.world.coreData.store.quotes.live ∨ r' = r

/-- The dictionary and the objects of the context, with their relationships. -/
structure Untouched (c c' : Core) : Prop where
  quotes : c'.quizController.quotes = c.quizController.quotes
  context : c'.world.context = c.world.context

def AllOrNothing (c c' : Core) : Prop := (∃ r, c.AddedOne c' r) ∨ c.Untouched c'

/-- `createQuote` returns before it makes an object. -/
def SkipsQuote (c : Core) : Prop :=
  (∀ quiz, c.quizController.quiz = some quiz → c.world.context.quizID quiz = none) ∨
    16 ≤ c.quizController.quotes.count

/-- No quote waits in the context for the next save. -/
def NothingPending (c : Core) : Prop :=
  ∀ r, r ∈ c.world.context.quotes.live ↔ r ∈ c.world.coreData.store.quotes.live

/-- `createQuote` returns early, or it can put the quote, the save succeeds and stores no
other quote. -/
def CreatesWhole (c : Core) (env : Env) : Prop :=
  c.SkipsQuote ∨ (∃ quiz, c.Ready quiz) ∧ env.Succeeds ∧ c.NothingPending

variable {c : Core}

-- ---------------------------------------------------------------------------
-- createQuote
-- ---------------------------------------------------------------------------

theorem not_skipsQuote {quiz : ObjectID} {quizID : UUID}
    (hquiz : c.quizController.quiz = some quiz) (hid : c.world.context.quizID quiz = some quizID)
    (hcount : c.quizController.quotes.count < 16) : ¬ c.SkipsQuote := by
  rintro (hskip | hfull)
  · rw [hskip quiz hquiz] at hid
    cases hid
  · omega

/-- A `put` that reported a success had what it needs. -/
theorem ready_of_newQuotePut {quiz : ObjectID} {quizID : UUID} {a : NewQuote} {env : Env}
    {r : Request} (hquiz : c.quizController.quiz = some quiz)
    (hid : c.world.context.quizID quiz = some quizID)
    (hput : c.newQuotePut a quizID env = .ok r) : c.Ready quiz ∧ env.encodes = true := by
  obtain ⟨hurl, henc, rep, user, name, -, huser, hname, -⟩ := QuoteController.put_eq_ok.mp hput
  refine ⟨⟨hquiz, ⟨quizID, hid⟩, ?_, user, name, ?_, hname⟩, henc⟩
  · simpa using hurl
  · simpa using huser

/-- A call that leaves the dictionary as it is has not added. -/
theorem not_addedOne_of_quotes {c' : Core} (hsame : c'.quizController.quotes =
    c.quizController.quotes) (r : ObjectID) : ¬ c.AddedOne c' r := by
  intro h
  have hquotes := h.quotes
  rw [hsame] at hquotes
  refine h.key ?_
  rw [hquotes]
  exact Finmap.mem_insert.mpr (.inl (by rw [← hquotes]))

/-- **A refused quote.** The object stays in the context. -/
theorem not_allOrNothing_refused (a : NewQuote) (quizID : UUID) (e : NetworkingError) :
    ¬ c.AllOrNothing ((c.withNewQuote a quizID).refused e) := by
  rintro (⟨r, h⟩ | h)
  · exact not_addedOne_of_quotes (quotes_syncUser _) r h
  · have hsize := congrArg (fun ctx => ctx.quotes.size) h.context
    simp at hsize

/-- A save that throws forgets the new object with all the others. -/
theorem get?_withAddedQuote_false (a : NewQuote) (quiz : ObjectID) (quizID : UUID)
    (r : Request) :
    (c.withAddedQuote a quiz quizID r false).world.context.quotes.get?
      c.world.context.quotes.size = none := by
  refine Heap.get?_reload_of_lt _ _ ?_
  show c.world.context.quotes.size <
    (c.withAddedQuote a quiz quizID r true).world.context.quotes.size
  rw [size_withAddedQuote]
  exact Nat.lt_succ_self _

/-- **A save that throws.** The dictionary keeps an object the reset has forgotten. -/
theorem not_allOrNothing_unsaved
    (hkey : (c.quizController.quotes.count : Int) + 1 ∉ c.quizController.quotes)
    (a : NewQuote) (quiz : ObjectID) (quizID : UUID) (r : Request) :
    ¬ c.AllOrNothing (c.withAddedQuote a quiz quizID r false) := by
  rintro (⟨r', h⟩ | h)
  · -- the entry of the dictionary is the new cell, and that is dead
    have hr' : r' = c.world.context.quotes.size := by
      have hlookup := congrArg
        (Finmap.lookup ((c.quizController.quotes.count : Int) + 1)) h.quotes
      simpa [eq_comm] using hlookup
    obtain ⟨quiz', -, -, hattached⟩ := h.attached
    obtain ⟨q, hq, -⟩ := mem_quotesOf.mp ((hattached r').mpr (.inr rfl))
    rw [hr', get?_withAddedQuote_false] at hq
    cases hq
  · have hlookup := congrArg
      (Finmap.lookup ((c.quizController.quotes.count : Int) + 1)) h.quotes
    rw [quotes_withAddedQuote, Finmap.lookup_insert] at hlookup
    exact hkey (Finmap.mem_of_lookup_eq_some hlookup.symm)

/-- **A saved quote.** The save stores every quote of the context. -/
theorem allOrNothing_saved_iff
    (hkey : (c.quizController.quotes.count : Int) + 1 ∉ c.quizController.quotes)
    {quiz : ObjectID} (hquiz : c.quizController.quiz = some quiz) (a : NewQuote)
    (quizID : UUID) (r : Request) :
    c.AllOrNothing (c.withAddedQuote a quiz quizID r true) ↔ c.NothingPending := by
  set n := c.world.context.quotes.size with hn
  have hdead : n ∉ c.world.context.quotes.live := by
    rw [Heap.mem_live, Heap.get?_of_size_le (le_refl _)]
    simp
  have hstored : ∀ r', r' ∈ (c.withAddedQuote a quiz quizID r true).world.coreData.store.quotes.live
      ↔ r' ∈ c.world.context.quotes.live ∨ r' = n := by
    intro r'
    show r' ∈ (c.withAddedQuote a quiz quizID r true).world.context.quotes.live ↔ _
    rw [Heap.mem_live, Heap.mem_live, get?_withAddedQuote]
    by_cases hr' : r' = n
    · simp [hr', hn]
    · simp [hr', ← hn]
  have hlookup : (c.withAddedQuote a quiz quizID r true).quizController.quotes.lookup
      ((c.quizController.quotes.count : Int) + 1) = some n := by
    simp [hn]
  constructor
  · rintro (⟨r', h⟩ | h)
    · have hr' : r' = n := by
        rw [h.quotes, Finmap.lookup_insert] at hlookup
        exact Option.some.inj hlookup
      rw [hr'] at h
      intro r''
      by_cases heq : r'' = n
      · rw [heq]
        exact iff_of_false hdead h.fresh
      · have hsame := (hstored r'').symm.trans (h.stored r'')
        rwa [or_iff_left heq, or_iff_left heq] at hsame
    · rw [h.quotes] at hlookup
      exact absurd (Finmap.mem_of_lookup_eq_some hlookup) hkey
  · intro hpending
    refine .inl ⟨n, quotes_withAddedQuote .., hkey, ⟨quiz, hquiz, ?_, fun r' => ?_⟩, ?_,
      fun r' => ?_⟩
    · intro hmem
      obtain ⟨q, hq, -⟩ := mem_quotesOf.mp hmem
      exact hdead (Heap.mem_live.mpr ⟨q, hq⟩)
    · rw [mem_quotesOf_withAddedQuote]
      simp [hn]
    · rwa [← hpending]
    · rw [hstored, hpending]

/-- The calls of `createQuote` that add one quote everywhere or leave things as they are. -/
theorem allOrNothing_iff
    (hkey : (c.quizController.quotes.count : Int) + 1 ∉ c.quizController.quotes)
    (a : NewQuote) (env : Env) :
    c.AllOrNothing (c.createQuoteOf a env) ↔ c.CreatesWhole env := by
  have hcases := c.createQuote_cases a env
  unfold createQuoteOf
  generalize c.createQuote a.firstPart a.secondPart a.answer a.incorrectAnswers env = c'
    at hcases ⊢
  cases hcases with
  | skipped hskip => exact iff_of_true (.inr ⟨rfl, rfl⟩) (.inl (.inl hskip))
  | full _ _ hfull => exact iff_of_true (.inr ⟨quotes_syncUser _, rfl⟩) (.inl (.inr hfull))
  | refused hquiz hid hcount hput =>
    refine iff_of_false (not_allOrNothing_refused a _ _) ?_
    rintro (hskip | ⟨⟨quiz', hready⟩, henv, -⟩)
    · exact not_skipsQuote hquiz hid hcount hskip
    · obtain ⟨r, hok⟩ := newQuotePut_of_ready hready a _ henv.encodes
      rw [hok] at hput
      cases hput
  | added hquiz hid hcount hput =>
    obtain ⟨hready, henc⟩ := ready_of_newQuotePut hquiz hid hput
    have hskip := not_skipsQuote hquiz hid hcount
    cases hsaves : env.saves with
    | false =>
      refine iff_of_false (not_allOrNothing_unsaved hkey a _ _ _) ?_
      rintro (hskip' | ⟨-, henv, -⟩)
      · exact hskip hskip'
      · rw [henv.saves] at hsaves
        cases hsaves
    | true =>
      refine (allOrNothing_saved_iff hkey hquiz a _ _).trans ?_
      constructor
      · intro hpending
        exact .inr ⟨⟨_, hready⟩, ⟨henc, hsaves⟩, hpending⟩
      · rintro (hskip' | ⟨-, -, hpending⟩)
        · exact absurd hskip' hskip
        · exact hpending

-- ---------------------------------------------------------------------------
-- createEmptyQuiz
-- ---------------------------------------------------------------------------

/-- The `put` of a new quiz finds a base URL, a creator with an id and a name, and an
encoder that does not throw. -/
structure QuizReady (c : Core) (creator : ObjectID) (env : Env) : Prop where
  baseURL : c.quizController.baseURL.isSome
  id : ((c.world.context.users.get? creator).bind User.id).isSome
  name : (c.world.context.username creator).isSome
  encodes : env.encodes = true

/-- The new quiz can be represented exactly when its creator has an id. -/
theorem emptyQuizPut_ok_iff {title : String} {creator : ObjectID} {env : Env}
    (huser : c.quizController.user = some creator) :
    (∃ r, c.emptyQuizPut title creator env = .ok r) ↔ c.QuizReady creator env := by
  have hget : (c.withEmptyQuiz title creator env).world.context.quizzes.get?
      c.world.context.quizzes.size = some (c.emptyQuizObject title creator env) := by simp
  have hname : (c.withEmptyQuiz title creator env).world.context.username creator =
      c.world.context.username creator := by simp [Context.username]
  constructor
  · rintro ⟨r, hput⟩
    obtain ⟨hurl, henc, rep, user, name, hrep, huser', hname', -⟩ :=
      QuizController.put_eq_ok.mp hput
    have hsame : user = creator := by
      rw [quizController_withEmptyQuiz, huser] at huser'
      exact (Option.some.inj huser').symm
    subst hsame
    refine ⟨by simpa using hurl, ?_, ?_, henc⟩
    · -- without an id of the creator the quiz has none either
      obtain ⟨hid, -⟩ := Context.quizRepresentation_eq_some hrep
      rw [Context.quizID, hget] at hid
      unfold emptyQuizObject at hid
      cases hcreator : (c.world.context.users.get? user).bind User.id with
      | none =>
        rw [hcreator] at hid
        cases hid
      | some id => rfl
    · rw [← hname, hname']
      rfl
  · rintro ⟨hurl, hid, hcreator, henc⟩
    obtain ⟨id, hid⟩ := Option.isSome_iff_exists.mp hid
    obtain ⟨name, hcreator⟩ := Option.isSome_iff_exists.mp hcreator
    have hrep : ∃ rep, (c.withEmptyQuiz title creator env).world.context.quizRepresentation
        c.world.context.quizzes.size env.order = some rep := by
      unfold Context.quizRepresentation
      rw [hget, c.emptyQuizObject_of_id title env hid]
      exact ⟨_, rfl⟩
    obtain ⟨rep, hrep⟩ := hrep
    refine ⟨_, QuizController.put_eq_ok.mpr
      ⟨by simpa using hurl, henc, rep, creator, name, hrep, ?_, hname.trans hcreator, rfl⟩⟩
    simpa using huser

/-- A `put` that reports a failure leaves the context and the creator's quizzes as they
were. -/
def KeepsContext (c c' : Core) : Prop :=
  c'.world.failures ≠ c.world.failures →
    c'.world.context = c.world.context ∧
    ∀ creator, c.quizController.user = some creator →
      c'.world.context.quizzesCreatedOf creator = c.world.context.quizzesCreatedOf creator

/-- `createEmptyQuiz` returns early, or its `put` reports a success. -/
def PutsQuiz (c : Core) (env : Env) : Prop :=
  c.quizController.title = none ∨
    ∀ creator, c.quizController.user = some creator → c.QuizReady creator env

theorem keepsContext_iff (env : Env) :
    c.KeepsContext (c.createEmptyQuiz env) ↔ c.PutsQuiz env := by
  have hcases := c.createEmptyQuiz_cases env
  generalize c.createEmptyQuiz env = c' at hcases ⊢
  cases hcases with
  | skipped hskip =>
    refine iff_of_true (fun hfailed => absurd rfl hfailed) ?_
    rcases hskip with htitle | huser
    · exact .inl htitle
    · refine .inr fun creator hcreator => ?_
      rw [huser] at hcreator
      cases hcreator
  | refused htitle huser hput =>
    refine iff_of_false (fun hkeeps => ?_) ?_
    · -- the new quiz is in the context
      obtain ⟨hcontext, -⟩ := hkeeps (by simp)
      have hsize := congrArg (fun ctx => ctx.quizzes.size) hcontext
      simp at hsize
    · rintro (hnone | hready)
      · rw [hnone] at htitle
        cases htitle
      · obtain ⟨r, hok⟩ := (emptyQuizPut_ok_iff huser).mpr (hready _ huser)
        rw [hok] at hput
        cases hput
  | added htitle huser hput =>
    refine iff_of_true (fun hfailed => absurd ?_ hfailed) (.inr fun creator hcreator => ?_)
    · exact failures_withEmptyQuiz ..
    · cases huser.symm.trans hcreator
      exact (emptyQuizPut_ok_iff huser).mp ⟨_, hput⟩

end Core

/-- **Creation is all or nothing, when.** In every state of a run, `createQuote` adds one
quote to the dictionary, the quiz and the store or changes nothing if and only if it
returns early, or the quote can be put, the save succeeds and no other quote waits in the
context. `createEmptyQuiz` leaves the context alone when `put` reports a failure if and
only if `put` reports none. -/
theorem creation_atomic_iff (w : World) (ops : List Operation) :
    let c := run Core.step (Core.launch w) ops
    (∀ a env, c.AllOrNothing (c.createQuoteOf a env) ↔ c.CreatesWhole env) ∧
    ∀ env, c.KeepsContext (c.createEmptyQuiz env) ↔ c.PutsQuiz env := by
  intro c
  obtain ⟨l, h⟩ : ∃ l, c.Cached l := Core.cached_run (Core.cached_launch w) ops
  exact ⟨Core.allOrNothing_iff h.numbers.next_notMem, Core.keepsContext_iff⟩

/-- A new user and an empty quiz. -/
def Operation.emptyQuiz : List Operation :=
  [.createUser "userOne" "pass" {}, .syncUser, .setTitle (some "Films"), .createEmptyQuiz {}]

/-- With an encoder that throws, the quote stays in the context, where the next save finds
it. -/
theorem refused_quote_pending :
    ¬ ∀ (w : World) (ops : List Operation),
      let c := run Core.step (Core.launch w) ops
      (∀ a env, c.AllOrNothing (c.createQuoteOf a env)) ∧
      ∀ env, c.KeepsContext (c.createEmptyQuiz env) := by
  intro h
  have hquote := (h { uuids := .numbered } Operation.emptyQuiz).1
    ⟨some "I see dead", none, "people", ["cats", "dogs", "plants"]⟩ { encodes := false }
  rw [Core.allOrNothing_iff (by decide)] at hquote
  rcases hquote with (hskip | hfull) | ⟨-, henv, -⟩
  · have hid := hskip 0 (by decide)
    revert hid
    decide
  · revert hfull
    decide
  · cases henv.encodes

end KnowTheQuote
