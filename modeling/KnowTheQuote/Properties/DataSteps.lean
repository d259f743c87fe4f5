import KnowTheQuote.Properties.AppSteps

/-!
# Know the Quote — what an operation does to the data

The data of the app are the objects of the context, those of the store, the UUIDs drawn
and the quotes made. Whatever an operation does, it does to them in a few ways: an
initialiser inserts an object, a completion handler links it, and a save writes the
context or resets it.

* `Core.step_data` — the rule for properties of the data.
* `event_invariant_run` — an invariant of the controllers along a run with any outcomes.
* `Core.HasIDs.step` — a property of the ids of all quizzes and quotes.
-/

namespace KnowTheQuote

open Machine

-- ---------------------------------------------------------------------------
-- The rule
-- ---------------------------------------------------------------------------

namespace Core

/-- The data is the same. -/
structure SameData (c c' : Core) : Prop where
  coreData : c'.world.coreData = c.world.coreData
  uuids : c'.world.uuids = c.world.uuids
  drawn : c'.world.drawn = c.world.drawn
  created : c'.world.created = c.world.created

/-- `createEmptyQuiz`, once the handler has linked the new quiz. -/
def withLinkedQuiz (c : Core) (title : String) (creator : ObjectID) (env : Env) : Core :=
  (c.withEmptyQuiz title creator env).setContext
    ((c.withEmptyQuiz title creator env).world.context.addToQuizzesCreated creator
      c.world.context.quizzes.size)

/-- `createQuote`, once the handler has linked the new quote. -/
def withLinkedQuote (c : Core) (a : NewQuote) (quiz : ObjectID) (quizID : UUID) : Core :=
  (c.withNewQuote a quizID).setContext
    ((c.withNewQuote a quizID).world.context.addToQuotes quiz c.world.context.quotes.size)

/-- **Data rule.** What the insertions, the links and the saves of an operation preserve is
preserved by it. -/
theorem step_data {P : Core → Prop} {c : Core} {op : Operation}
    (hSame : ∀ c c', c.SameData c' → P c → P c')
    (hUser : ∀ c username password now, P c → P (c.withNewUser username password now))
    (hQuiz : ∀ title creator env, P c → P (c.withEmptyQuiz title creator env))
    (hLinkedQuiz : ∀ title creator env, P c → P (c.withLinkedQuiz title creator env))
    (hQuote : ∀ a quizID, P c → P (c.withNewQuote a quizID))
    (hLinkedQuote : ∀ a quiz quizID env, op = NewQuote.operation a env →
      c.quizController.quiz = some quiz → P c → P (c.withLinkedQuote a quiz quizID))
    (hSave : ∀ c saves, (op.Succeeds → saves = true) → P c → P (c.save saves)) (hc : P c) :
    P (c.step op) := by
  have hRest : ∀ {c c' : Core}, P c → c.SameData c' → P c' := fun hc hsame => hSame _ _ hsame hc
  have hSync : ∀ c, P c → P c.syncUser := by
    intro c hc
    have hworld := c.world_syncUser
    exact hRest hc ⟨by rw [hworld], by rw [hworld], by rw [hworld], by rw [hworld]⟩
  cases op with
  | createUser username password env =>
    exact createUser_induction hUser (fun c => hSave c _ Env.Succeeds.saves)
      (fun _ _ _ h => hRest h ⟨rfl, rfl, rfl, rfl⟩) (fun _ _ h => hRest h ⟨rfl, rfl, rfl, rfl⟩) hc
      username password
  | syncUser => exact hSync c hc
  | getUser r env =>
    have hcalls : ∀ call, env.IsCall call → (Operation.getUser r env).Succeeds →
        call.saves = true := by
      rintro call (rfl | rfl | rfl) ⟨honError, honData, honStatus⟩
      · exact honError.saves
      · exact honData.saves
      · exact honStatus.saves
    exact getUser_induction hUser (fun c call hcall => hSave c call.saves (hcalls call hcall))
      (fun _ _ _ h => hRest h ⟨rfl, rfl, rfl, rfl⟩) (fun _ _ h => hRest h ⟨rfl, rfl, rfl, rfl⟩)
      (fun _ _ h => hRest h ⟨rfl, rfl, rfl, rfl⟩) (fun _ _ h => hRest h ⟨rfl, rfl, rfl, rfl⟩)
      (fun _ _ _ _ h => hRest h ⟨rfl, rfl, rfl, rfl⟩) hSync hc r
  | setTitle title => exact hRest hc ⟨rfl, rfl, rfl, rfl⟩
  | createEmptyQuiz env =>
    have hcases := c.createEmptyQuiz_cases env
    show P (c.createEmptyQuiz env)
    generalize c.createEmptyQuiz env = c' at hcases ⊢
    cases hcases with
    | skipped => exact hc
    | refused => exact hRest (hQuiz _ _ env hc) ⟨rfl, rfl, rfl, rfl⟩
    | added =>
      exact hRest (hSave _ env.saves Env.Succeeds.saves (hLinkedQuiz _ _ env hc))
        ⟨rfl, rfl, rfl, rfl⟩
  | createQuote firstPart secondPart answer incorrectAnswers env =>
    have hcases := c.createQuote_cases ⟨firstPart, secondPart, answer, incorrectAnswers⟩ env
    show P (c.createQuote firstPart secondPart answer incorrectAnswers env)
    generalize c.createQuote firstPart secondPart answer incorrectAnswers env = c' at hcases ⊢
    cases hcases with
    | skipped => exact hc
    | full => exact hRest hc ⟨rfl, rfl, rfl, rfl⟩
    | refused => exact hRest (hQuote _ _ hc) ⟨rfl, rfl, rfl, rfl⟩
    | added hquiz =>
      exact hRest (hSave _ env.saves Env.Succeeds.saves (hLinkedQuote _ _ _ env rfl hquiz hc))
        ⟨rfl, rfl, rfl, rfl⟩
  | moveToNextQuote => exact hRest hc ⟨rfl, rfl, rfl, rfl⟩
  | moveToPrevQuote => exact hRest hc ⟨rfl, rfl, rfl, rfl⟩
  | setupStart quiz fetch => exact hRest hc ⟨rfl, rfl, rfl, rfl⟩
  | nextQuoteToDisplay => exact hRest hc ⟨rfl, rfl, rfl, rfl⟩
  | taskFailed index =>
    rw [step_taskFailed]
    exact hc

end Core

/-- What every operation and every launch preserves holds after every run of the app,
whatever its `put`s and saves end with. -/
theorem event_invariant_run (Inv : Core → Prop) (hStep : ∀ c op, Inv c → Inv (c.step op))
    (hLaunch : ∀ c, Inv c → Inv (.launch c.world.relaunch)) {s : App} (hs : Inv s.core)
    (es : List Event) : Inv (run App.handle s es).core := by
  have hHandle : ∀ (s : App) (e : Event), Inv s.core → Inv (s.handle e).core := by
    intro s e hs
    cases e with
    | action a =>
      obtain ⟨ops, hops, -⟩ := s.step_operations a
      show Inv (s.step a).core
      rw [hops]
      exact invariant_run_all hStep hs ops
    | operation op => exact hStep _ _ hs
    | launch => exact hLaunch _ hs
  exact invariant_run_all hHandle hs es

-- ---------------------------------------------------------------------------
-- Ids
-- ---------------------------------------------------------------------------

/-- The ids of the quizzes satisfy `p`, those of the quotes `q`. -/
structure Context.HasIDs (p : UUID → Prop) (q : String → Prop) (c : Context) : Prop where
  quizzes : c.quizzes.All fun quiz => ∀ id, quiz.id = some id → p id
  quotes : c.quotes.All fun quote => ∀ id, quote.quoteID = some id → q id

namespace Context.HasIDs

variable {p : UUID → Prop} {q : String → Prop} {c : Context}

/-- Nothing has no ids. -/
theorem empty : ({} : Context).HasIDs p q := ⟨Heap.all_empty, Heap.all_empty⟩

/-- Weaker properties hold of the same ids. -/
theorem mono (h : c.HasIDs p q) {p' : UUID → Prop} {q' : String → Prop}
    (hp : ∀ id, p id → p' id) (hq : ∀ id, q id → q' id) : c.HasIDs p' q' :=
  ⟨fun r quiz hr id hid => hp id (h.quizzes r quiz hr id hid),
    fun r quote hr id hid => hq id (h.quotes r quote hr id hid)⟩

theorem addToQuizzesCreated (h : c.HasIDs p q) (user quiz : ObjectID) :
    (c.addToQuizzesCreated user quiz).HasIDs p q := by
  refine ⟨h.quizzes.modify ?_ quiz, h.quotes⟩
  exact fun _ hz => hz

theorem addToQuotes (h : c.HasIDs p q) (quiz quote : ObjectID) :
    (c.addToQuotes quiz quote).HasIDs p q := by
  refine ⟨h.quizzes, h.quotes.modify ?_ quote⟩
  exact fun _ hq => hq

/-- A reload brings back the saved ids. -/
theorem reload {store : Context} (h : store.HasIDs p q) (c : Context) :
    (c.reload store).HasIDs p q :=
  ⟨h.quizzes.reload fun _ hz => hz, h.quotes.reload fun _ hq => hq⟩

end Context.HasIDs

/-- Properties of ids that depend on how many UUIDs have been drawn: drawing more keeps them,
and a new UUID has them once it has been drawn. -/
structure UUIDSource.Admits (uuids : UUIDSource) (start : Nat) (p : Nat → UUID → Prop)
    (q : Nat → String → Prop) : Prop where
  quiz_mono : ∀ {m n id}, m ≤ n → p m id → p n id
  quote_mono : ∀ {m n id}, m ≤ n → q m id → q n id
  quiz : ∀ {n}, start ≤ n → p (n + 1) (uuids.next n)
  quote : ∀ {n}, start ≤ n → q (n + 1) (uuids.next n).uuidString

/-- What it says about quizzes alone. -/
theorem UUIDSource.Admits.quizzes {uuids : UUIDSource} {start : Nat} {p : Nat → UUID → Prop}
    {q : Nat → String → Prop} (h : uuids.Admits start p q) :
    uuids.Admits start p fun _ _ => True :=
  ⟨h.quiz_mono, fun _ _ => trivial, h.quiz, fun _ => trivial⟩

namespace Core

/-- The quizzes and quotes of the context and of the store have ids with these properties. -/
structure HasIDs (uuids : UUIDSource) (start : Nat) (p : Nat → UUID → Prop)
    (q : Nat → String → Prop) (c : Core) : Prop where
  source : c.world.uuids = uuids
  start_le : start ≤ c.world.drawn
  context : c.world.context.HasIDs (p c.world.drawn) (q c.world.drawn)
  store : c.world.coreData.store.HasIDs (p c.world.drawn) (q c.world.drawn)

namespace HasIDs

variable {uuids : UUIDSource} {start : Nat} {p : Nat → UUID → Prop} {q : Nat → String → Prop}
  {c c' : Core}

/-- Ids drawn before stay good when more are drawn. -/
theorem mono (hadmits : uuids.Admits start p q) {ctx : Context} {m n : Nat}
    (h : ctx.HasIDs (p m) (q m)) (hle : m ≤ n) : ctx.HasIDs (p n) (q n) :=
  Context.HasIDs.mono h (fun _ => hadmits.quiz_mono hle) fun _ => hadmits.quote_mono hle

/-- The same data, the same ids. -/
theorem of_same (h : c.HasIDs uuids start p q) (hsame : c.SameData c') :
    c'.HasIDs uuids start p q := by
  have hcontext : c'.world.context = c.world.context :=
    congrArg CoreDataStack.context hsame.coreData
  refine ⟨hsame.uuids.trans h.source, hsame.drawn ▸ h.start_le, ?_, ?_⟩
  · rw [hcontext, hsame.drawn]
    exact h.context
  · rw [hsame.coreData, hsame.drawn]
    exact h.store

/-- The new quiz has the id just drawn, or none. -/
theorem withEmptyQuiz (hadmits : uuids.Admits start p q) (h : c.HasIDs uuids start p q)
    (title : String) (creator : ObjectID) (env : Env) :
    (c.withEmptyQuiz title creator env).HasIDs uuids start p q := by
  have hle : c.world.drawn ≤ (c.withEmptyQuiz title creator env).world.drawn := by
    rw [drawn_withEmptyQuiz]
    split <;> omega
  have hcontext := mono hadmits h.context hle
  refine ⟨(uuids_withEmptyQuiz ..).trans h.source, h.start_le.trans hle, ?_, ?_⟩
  · rw [context_withEmptyQuiz]
    refine ⟨hcontext.quizzes.alloc fun id hid => ?_, hcontext.quotes⟩
    obtain ⟨rfl, hdrawn⟩ := c.id_emptyQuizObject hid
    rw [hdrawn, h.source]
    exact hadmits.quiz h.start_le
  · rw [store_withEmptyQuiz]
    exact mono hadmits h.store hle

/-- The new quote has the id just drawn. -/
theorem withNewQuote (hadmits : uuids.Admits start p q) (h : c.HasIDs uuids start p q)
    (a : NewQuote) (quizID : UUID) : (c.withNewQuote a quizID).HasIDs uuids start p q := by
  have hcontext := mono hadmits h.context (Nat.le_succ _)
  refine ⟨h.source, h.start_le.trans (Nat.le_succ _), ?_, mono hadmits h.store (Nat.le_succ _)⟩
  refine ⟨hcontext.quizzes, hcontext.quotes.alloc fun id hid => ?_⟩
  cases hid
  rw [h.source]
  exact hadmits.quote h.start_le

theorem setContext (h : c.HasIDs uuids start p q) {ctx : Context}
    (hctx : ctx.HasIDs (p c.world.drawn) (q c.world.drawn)) :
    (c.setContext ctx).HasIDs uuids start p q :=
  ⟨h.source, h.start_le, hctx, h.store⟩

/-- **Ids.** Every operation keeps such properties of all ids. -/
theorem step (hadmits : uuids.Admits start p q) (h : c.HasIDs uuids start p q)
    (op : Operation) : (c.step op).HasIDs uuids start p q := by
  refine step_data (fun _ _ hsame h => h.of_same hsame) ?_
    (fun title creator env h => h.withEmptyQuiz hadmits title creator env) ?_
    (fun a quizID h => h.withNewQuote hadmits a quizID) ?_ ?_ h
  · intro c username password now h
    have hcontext := mono hadmits h.context (Nat.le_succ _)
    exact ⟨h.source, h.start_le.trans (Nat.le_succ _), ⟨hcontext.quizzes, hcontext.quotes⟩,
      mono hadmits h.store (Nat.le_succ _)⟩
  · intro title creator env h
    have hnew := h.withEmptyQuiz hadmits title creator env
    exact hnew.setContext (hnew.context.addToQuizzesCreated _ _)
  · intro a quiz quizID _ _ _ h
    have hnew := h.withNewQuote hadmits a quizID
    exact hnew.setContext (hnew.context.addToQuotes _ _)
  · intro c saves _ h
    cases saves with
    | true => exact ⟨h.source, h.start_le, h.context, h.context⟩
    | false =>
      have hreload := h.store.reload c.world.context
      exact ⟨h.source, h.start_le, hreload, hreload⟩

/-- A launch starts from the ids in the store. -/
theorem launch (h : c.HasIDs uuids start p q) :
    (Core.launch c.world.relaunch).HasIDs uuids start p q :=
  ⟨h.source, h.start_le, h.store, h.store⟩

end HasIDs

end Core

/-- The ids a source gives: each is one of those drawn so far. -/
theorem UUIDSource.admits_drawn (uuids : UUIDSource) :
    uuids.Admits 0 (fun drawn id => ∃ n < drawn, id = uuids.next n)
      (fun drawn id => ∃ n < drawn, id = (uuids.next n).uuidString) where
  quiz_mono := fun hle ⟨k, hk, hid⟩ => ⟨k, hk.trans_le hle, hid⟩
  quote_mono := fun hle ⟨k, hk, hid⟩ => ⟨k, hk.trans_le hle, hid⟩
  quiz := fun _ => ⟨_, Nat.lt_succ_self _, rfl⟩
  quote := fun _ => ⟨_, Nat.lt_succ_self _, rfl⟩

/-- A UUID is not drawn again. -/
theorem UUIDSource.admits_ne (uuids : UUIDSource) (n : Nat) :
    uuids.Admits (n + 1) (fun _ id => id ≠ uuids.next n)
      (fun _ id => id ≠ (uuids.next n).uuidString) where
  quiz_mono := fun _ h => h
  quote_mono := fun _ h => h
  quiz := fun hle heq => by
    have := uuids.injective heq
    omega
  quote := fun hle heq => by
    have := uuids.uuidString_injective heq
    omega

end KnowTheQuote
