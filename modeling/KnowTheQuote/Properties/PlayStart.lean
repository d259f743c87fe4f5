import KnowTheQuote.Properties.Cache

/-!
# Know the Quote — starting a play

`setupStart` works on two controllers with a dictionary and a cursor each. The
loop of `getAllQuotesOf` clears neither, so what it leaves depends on the resets
around it: both dictionaries and both cursors before the loop, the cursors once
more after it. Whatever an earlier play or an editor has left is gone.

* `quotes_inner_setupStart` — both controllers end with one dictionary.
* `setupStart_forgets` — that dictionary is a numbering of the quiz's quotes, from
  any state.
-/

namespace KnowTheQuote

/-- The quotes a predicate on `quizID` finds are those that carry the id. -/
theorem mem_fetchQuotes_some {c : Context} {s : String} {r : ObjectID} :
    r ∈ c.fetchQuotes (some s) ↔ c.quizIDOf r = some s := by
  simp only [Context.fetchQuotes, List.mem_filter, Heap.mem_live, beq_iff_eq,
    and_iff_right_iff_imp]
  intro hid
  obtain ⟨q, hq, -⟩ := Option.bind_eq_some_iff.mp hid
  exact ⟨q, hq⟩

namespace QuizController

variable (q : QuizController) (c : Context) (quiz : ObjectID) (fetch : FetchOutcome)

/-- The second controller's cursor is put back after the loop. -/
theorem currentQuote_inner_setupStart :
    (q.setupStart c quiz fetch).1.quoteController.currentQuote = 1 := by
  unfold setupStart resetCounter
  rfl

/-- What the first controller copies is what the loop left in the second; when the
fetch throws, both are as the reset left them. -/
theorem quotes_inner_setupStart :
    (q.setupStart c quiz fetch).1.quoteController.quotes =
      (q.setupStart c quiz fetch).1.quotes := by
  cases fetch with
  | none =>
    show (q.resetCounter.resetQuotesDictionary.syncUser).quoteController.quotes =
      (q.resetCounter.resetQuotesDictionary.syncUser).quotes
    rw [Core.quoteController_quotes_syncUser, Core.quotes_syncUser]
    rfl
  | some order => rfl

/-- A fetch that throws leaves the dictionary as the reset left it. -/
theorem quotes_setupStart_none : (q.setupStart c quiz none).1.quotes = ∅ :=
  Core.quotes_syncUser _

/-- A play of `stored` is about to start: both dictionaries number these quotes from 1 on,
each under one key, and `first` is the quote under key 1. -/
structure Starts (q : QuizController) (first : Option ObjectID) (stored : List ObjectID) :
    Prop where
  keys : ∀ k, k ∈ q.quotes ↔ 1 ≤ k ∧ k ≤ stored.length
  values : ∀ k r, q.quotes.lookup k = some r → r ∈ stored
  onto : ∀ r ∈ stored, ∃! k, q.quotes.lookup k = some r
  inner : q.quoteController.quotes = q.quotes
  cursor : q.currentQuote = 1
  innerCursor : q.quoteController.currentQuote = 1
  returned : first = q.quotes.lookup 1
  returnedNil : first = none ↔ stored = []

variable {c quiz fetch}

/-- The resets and the loop leave a numbering of what was found, in any order. -/
theorem starts_setupStart {stored : List ObjectID}
    (hperm : (c.foundQuotes quiz fetch).Perm stored) :
    (q.setupStart c quiz fetch).1.Starts (q.setupStart c quiz fetch).2 stored := by
  have hnum := q.setupStart_numbers c quiz fetch
  have hfirst := q.setupStart_snd c quiz fetch
  refine ⟨?_, ?_, ?_, q.quotes_inner_setupStart c quiz fetch, currentQuote_setupStart ..,
    q.currentQuote_inner_setupStart c quiz fetch, rfl, ?_⟩
  · intro k
    rw [hnum.mem_iff, hnum.count, hperm.length_eq]
  · intro k r hk
    exact hperm.mem_iff.mp ((hnum.value_iff r).mp ⟨k, hk⟩)
  · intro r hr
    obtain ⟨k, hk⟩ := (hnum.value_iff r).mpr (hperm.mem_iff.mpr hr)
    exact ⟨k, hk, fun k' hk' => hnum.key_unique (nodup_foundQuotes c quiz fetch) hk' hk⟩
  · rw [hfirst, List.getElem?_eq_none_iff, hperm.length_eq, Nat.le_zero,
      List.length_eq_zero_iff]

end QuizController

/-- **Starting a play forgets everything before it.** From every state of the two
controllers, and for every quiz with an id: after a fetch, in whatever order it returns
its objects, both dictionaries number exactly the quotes that carry the quiz's id, from 1
on and each once, both cursors are at 1, and quote 1 is returned; after a fetch that
throws, both dictionaries are empty and nothing is returned. -/
theorem setupStart_forgets (q : QuizController) (c : Context) (quiz : ObjectID) (id : UUID)
    (hid : c.quizID quiz = some id) :
    (∃ stored : List ObjectID, stored.Nodup ∧
      (∀ r, r ∈ stored ↔ c.quizIDOf r = some id.uuidString) ∧
      ∀ order, (q.setupStart c quiz (some order)).1.Starts
        (q.setupStart c quiz (some order)).2 stored) ∧
    let q' := (q.setupStart c quiz none).1
    q'.quotes = ∅ ∧ q'.quoteController.quotes = ∅ ∧ q'.currentQuote = 1 ∧
      q'.quoteController.currentQuote = 1 ∧ (q.setupStart c quiz none).2 = none := by
  have hstored : c.storedQuotes quiz = c.fetchQuotes (some id.uuidString) := by
    rw [Context.storedQuotes, hid, Option.map_some]
  constructor
  · refine ⟨c.fetchQuotes (some id.uuidString), nodup_fetchQuotes .., fun r =>
      mem_fetchQuotes_some, fun order => q.starts_setupStart ?_⟩
    show (order.apply (c.storedQuotes quiz)).Perm _
    rw [hstored]
    exact order.perm _
  · have hempty := q.quotes_setupStart_none c quiz
    have hfirst : (q.setupStart c quiz none).2 = none := q.setupStart_snd c quiz none
    exact ⟨hempty, (q.quotes_inner_setupStart c quiz none).trans hempty,
      q.currentQuote_setupStart c quiz none, q.currentQuote_inner_setupStart c quiz none, hfirst⟩

/-- A quiz of two quotes, started where an editor and a play of another quiz have left
their dictionaries and cursors. -/
theorem setupStart_forgets_leftover :
    let q : QuizController :=
      { baseURL := none
        quoteController :=
          { baseURL := none, quotes := Finmap.insert 1 0 ∅, currentQuote := 4 }
        currentQuote := 9
        quotes := Finmap.insert 1 0 ∅ }
    let c : Context :=
      { quizzes := (({} : Heap Quiz).alloc { id := some ⟨"A"⟩ }).alloc { id := some ⟨"B"⟩ }
        quotes := ((({} : Heap Quote).alloc { quizID := some "A" }).alloc
          { quizID := some "B" }).alloc { quizID := some "B" } }
    (∀ k order, (q.setupStart c 1 (some order)).1.quotes.lookup k ≠ some 0) ∧
      (q.setupStart c 1 none).1.quotes = ∅ := by
  intro q c
  obtain ⟨⟨stored, -, hmem, hstarts⟩, hthrown, -⟩ :=
    setupStart_forgets q c 1 ⟨"B"⟩ (by decide)
  refine ⟨fun k order hk => ?_, hthrown⟩
  have hcarries : c.quizIDOf 0 = some "B" := (hmem 0).mp ((hstarts order).values k 0 hk)
  revert hcarries
  decide

end KnowTheQuote
