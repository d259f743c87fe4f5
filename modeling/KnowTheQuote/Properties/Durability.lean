import KnowTheQuote.Properties.DataSteps

/-!
# Know the Quote — what has been stored stays stored

A save writes the whole context over the store, and a save that throws resets the context
to the store. Between two saves the context holds everything that is stored, so neither of
the two loses or changes anything.

* `Context.Kept` — every object of one context is in another, with its links.
* `Core.Keeps.step` — every operation keeps what is stored.
* `store_kept` — over every run of the app nothing that was stored is changed or lost.
-/

namespace KnowTheQuote

open Machine

-- ---------------------------------------------------------------------------
-- What stays
-- ---------------------------------------------------------------------------

/-- Where the objects of one context are in another one. -/
structure Placement where
  user : ObjectID → ObjectID
  quiz : ObjectID → ObjectID
  quote : ObjectID → ObjectID
  user_injective : Function.Injective user
  quiz_injective : Function.Injective quiz
  quote_injective : Function.Injective quote

namespace Placement

def refl : Placement :=
  ⟨id, id, id, Function.injective_id, Function.injective_id, Function.injective_id⟩

def trans (p p' : Placement) : Placement where
  user := p'.user ∘ p.user
  quiz := p'.quiz ∘ p.quiz
  quote := p'.quote ∘ p.quote
  user_injective := p'.user_injective.comp p.user_injective
  quiz_injective := p'.quiz_injective.comp p.quiz_injective
  quote_injective := p'.quote_injective.comp p.quote_injective

/-- Behind the objects of a context that is reset. -/
def behind (c : Context) : Placement where
  user := (c.users.size + ·)
  quiz := (c.quizzes.size + ·)
  quote := (c.quotes.size + ·)
  user_injective := add_right_injective _
  quiz_injective := add_right_injective _
  quote_injective := add_right_injective _

end Placement

namespace Context

/-- The objects of `c` are where `p` says in `c'`, with the same attributes, and their links
lead to the same objects. -/
structure KeptAt (c c' : Context) (p : Placement) : Prop where
  users : c.users.Embeds c'.users p.user id
  quizzes : c.quizzes.Embeds c'.quizzes p.quiz fun z => { z with creator := z.creator.map p.user }
  quotes : c.quotes.Embeds c'.quotes p.quote fun q => { q with quiz := q.quiz.map p.quiz }

/-- Every object of `c` is still in `c'`. -/
def Kept (c c' : Context) : Prop := ∃ p, c.KeptAt c' p

namespace Kept

variable {c c' c'' : Context}

theorem refl (c : Context) : c.Kept c := by
  refine ⟨.refl, Heap.Embeds.refl _, fun r z hr => ?_, fun r q hr => ?_⟩
  · simpa [Placement.refl] using hr
  · simpa [Placement.refl] using hr

theorem trans : c.Kept c' → c'.Kept c'' → c.Kept c'' := by
  rintro ⟨p, h⟩ ⟨p', h'⟩
  refine ⟨p.trans p', h.users.trans h'.users, fun r z hr => ?_, fun r q hr => ?_⟩
  · simpa [Placement.trans] using h.quizzes.trans h'.quizzes r z hr
  · simpa [Placement.trans] using h.quotes.trans h'.quotes r q hr

theorem addUser (h : c.Kept c') (user : User) :
    c.Kept { c' with users := c'.users.alloc user } :=
  h.imp fun _ h => ⟨h.users.alloc user, h.quizzes, h.quotes⟩

theorem addQuiz (h : c.Kept c') (quiz : Quiz) :
    c.Kept { c' with quizzes := c'.quizzes.alloc quiz } :=
  h.imp fun _ h => ⟨h.users, h.quizzes.alloc quiz, h.quotes⟩

theorem addQuote (h : c.Kept c') (quote : Quote) :
    c.Kept { c' with quotes := c'.quotes.alloc quote } :=
  h.imp fun _ h => ⟨h.users, h.quizzes, h.quotes.alloc quote⟩

/-- A new quiz that is linked at once. -/
theorem addLinkedQuiz (h : c.Kept c') (quiz : Quiz) (user : ObjectID) :
    c.Kept (({ c' with quizzes := c'.quizzes.alloc quiz } : Context).addToQuizzesCreated user
      c'.quizzes.size) := by
  obtain ⟨p, h⟩ := h
  refine ⟨p, h.users, (h.quizzes.alloc quiz).modify _ fun r z hr => ?_, h.quotes⟩
  exact (Heap.lt_size_of_get? (h.quizzes r z hr)).ne

/-- A new quote that is linked at once. -/
theorem addLinkedQuote (h : c.Kept c') (quote : Quote) (quiz : ObjectID) :
    c.Kept (({ c' with quotes := c'.quotes.alloc quote } : Context).addToQuotes quiz
      c'.quotes.size) := by
  obtain ⟨p, h⟩ := h
  refine ⟨p, h.users, h.quizzes, (h.quotes.alloc quote).modify _ fun r q hr => ?_⟩
  exact (Heap.lt_size_of_get? (h.quotes r q hr)).ne

/-- A reset brings every stored object back. -/
theorem reload (c store : Context) : store.Kept (c.reload store) :=
  ⟨.behind c, Heap.Embeds.reload _ _ _, Heap.Embeds.reload _ _ _, Heap.Embeds.reload _ _ _⟩

end Kept

end Context

namespace Core

/-- What was once stored is still stored, and what is stored is in the context. -/
structure Keeps (stored : Context) (c : Core) : Prop where
  store : stored.Kept c.world.coreData.store
  context : c.world.coreData.store.Kept c.world.context

namespace Keeps

variable {stored : Context} {c : Core}

/-- **One operation**, whatever its `put` and its save end with. -/
theorem step (h : c.Keeps stored) (op : Operation) : (c.step op).Keeps stored := by
  refine step_data ?_ ?_ ?_ ?_ ?_ ?_ ?_ h
  · intro c c' hsame h
    have hcontext : c'.world.context = c.world.context :=
      congrArg CoreDataStack.context hsame.coreData
    refine ⟨?_, ?_⟩
    · rw [hsame.coreData]
      exact h.store
    · rw [hsame.coreData, hcontext]
      exact h.context
  · exact fun c username password now h => ⟨h.store, h.context.addUser _⟩
  · intro title creator env h
    refine ⟨?_, ?_⟩
    · rw [store_withEmptyQuiz]
      exact h.store
    · rw [store_withEmptyQuiz, context_withEmptyQuiz]
      exact h.context.addQuiz _
  · intro title creator env h
    unfold withLinkedQuiz
    refine ⟨?_, ?_⟩
    · rw [world_setContext, World.store_setContext, store_withEmptyQuiz]
      exact h.store
    · rw [world_setContext, World.store_setContext, World.context_setContext, store_withEmptyQuiz,
        context_withEmptyQuiz]
      exact h.context.addLinkedQuiz _ _
  · exact fun a quizID h => ⟨h.store, h.context.addQuote _⟩
  · exact fun a quiz quizID _ _ _ h => ⟨h.store, h.context.addLinkedQuote _ _⟩
  · intro c saves _ h
    cases saves with
    | true => exact ⟨h.store.trans h.context, .refl _⟩
    | false => exact ⟨h.store.trans (.reload _ _), .refl _⟩

end Keeps

end Core

/-- **Nothing stored is lost.** Over every store, after every run of the app and its
controllers, with any `put`s refused, any saves throwing and any number of launches: every
user, quiz and quote that the store has at some moment is in the store at every later moment,
with the same attributes, apart from all others, and linked to the same objects. -/
theorem store_kept (w : World) (es es' : List Event) :
    let before := run App.handle { core := .launch w.relaunch } es
    let after := run App.handle before es'
    before.core.world.coreData.store.Kept after.core.world.coreData.store := by
  intro before after
  have hstart : (Core.launch w.relaunch).Keeps w.coreData.store := ⟨.refl _, .refl _⟩
  have hstep : ∀ stored (c : Core) op, c.Keeps stored → (c.step op).Keeps stored :=
    fun _ _ op h => h.step op
  have hlaunch : ∀ stored (c : Core), c.Keeps stored →
      (Core.launch c.world.relaunch).Keeps stored := fun _ _ h => ⟨h.store, .refl _⟩
  have hbefore := event_invariant_run _ (hstep _) (hlaunch _)
    (s := { core := .launch w.relaunch }) hstart es
  exact (event_invariant_run _ (hstep _) (hlaunch _) (s := before) ⟨.refl _, hbefore.context⟩
    es').store

end KnowTheQuote
