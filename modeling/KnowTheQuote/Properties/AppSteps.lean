import KnowTheQuote.Properties.EditorSteps
import KnowTheQuote.Properties.PlaySteps
import KnowTheQuote.Model.App

/-!
# Know the Quote — what the user makes the controllers do

Whatever the user does on a screen reaches the controllers as a few of their own
operations. What every operation preserves is therefore preserved by every run of
the app, the screens included.

* `step_operations` — the operations behind an action.
* `core_invariant_run` — an invariant of the controllers along a run of the app.
-/

namespace KnowTheQuote

open Machine

-- ---------------------------------------------------------------------------
-- Success
-- ---------------------------------------------------------------------------

/-- Every `put` of the operation is encoded, and every save succeeds. -/
def Operation.Succeeds : Operation → Prop
  | .createUser _ _ env | .createEmptyQuiz env | .createQuote _ _ _ _ env => env.Succeeds
  | .getUser _ env => env.onError.Succeeds ∧ env.onData.Succeeds ∧ env.onStatus.Succeeds
  | .syncUser | .setTitle _ | .moveToNextQuote | .moveToPrevQuote | .setupStart _ _
  | .nextQuoteToDisplay | .taskFailed _ => True

instance : DecidablePred Operation.Succeeds
  | .createUser _ _ env | .createEmptyQuiz env | .createQuote _ _ _ _ env =>
    inferInstanceAs (Decidable env.Succeeds)
  | .getUser _ env =>
    inferInstanceAs (Decidable (env.onError.Succeeds ∧ env.onData.Succeeds ∧
      env.onStatus.Succeeds))
  | .syncUser | .setTitle _ | .moveToNextQuote | .moveToPrevQuote | .setupStart _ _
  | .nextQuoteToDisplay | .taskFailed _ => .isTrue trivial

def Action.Succeeds : Action → Prop
  | .start _ env => env.Succeeds
  | .edit a => a.Succeeds
  | .openPlay _ _ _ | .tap _ | .leave => True

instance : DecidablePred Action.Succeeds
  | .start _ env => inferInstanceAs (Decidable env.Succeeds)
  | .edit a => inferInstanceAs (Decidable a.Succeeds)
  | .openPlay _ _ _ | .tap _ | .leave => .isTrue trivial

def Event.Succeeds : Event → Prop
  | .action a => a.Succeeds
  | .operation op => op.Succeeds
  | .launch => True

instance : DecidablePred Event.Succeeds
  | .action a => inferInstanceAs (Decidable a.Succeeds)
  | .operation op => inferInstanceAs (Decidable op.Succeeds)
  | .launch => .isTrue trivial

-- ---------------------------------------------------------------------------
-- The operations behind an action
-- ---------------------------------------------------------------------------

/-- `createQuote` as an operation. -/
def NewQuote.operation (a : NewQuote) (env : Env) : Operation :=
  .createQuote a.firstPart a.secondPart a.answer a.incorrectAnswers env

namespace App

variable (s : App)

/-- Start sets the title and creates the quiz. -/
theorem start_operations (title : String) (env : Env) :
    (s.startButtonTapped title env).core = s.core ∨
      (s.startButtonTapped title env).core =
        run Core.step s.core [.setTitle (some title), .createEmptyQuiz env] := by
  unfold startButtonTapped
  split
  · exact .inl rfl
  · dsimp only
    split
    · exact .inl rfl
    · exact .inr rfl

/-- An editor action moves the cursor, or saves a quote and may then move it. -/
theorem edit_operations (e : EditorState) (a : EditorAction) :
    ∃ ops, (e.step a).core = run Core.step e.core ops ∧
      (a.Succeeds → ∀ op ∈ ops, op.Succeeds) := by
  have hcases := e.step_cases a
  generalize e.step a = e' at hcases ⊢
  cases hcases with
  | viewOnly => exact ⟨[], rfl, by simp⟩
  | prev => exact ⟨[.moveToPrevQuote], rfl, by simp [Operation.Succeeds]⟩
  | next => exact ⟨[.moveToNextQuote], rfl, by simp [Operation.Succeeds]⟩
  | saved view env order hact =>
    subst hact
    refine ⟨[(e.view.collected order).operation env, .moveToNextQuote], rfl, fun h => ?_⟩
    simpa [NewQuote.operation, Operation.Succeeds, EditorAction.Succeeds] using h
  | finished view env order hact =>
    subst hact
    refine ⟨[(e.view.collected order).operation env], rfl, fun h => ?_⟩
    simpa [NewQuote.operation, Operation.Succeeds, EditorAction.Succeeds] using h

theorem tap_operations (p : PlayState) (t : Tap) :
    (p.step t).core = p.core.step .nextQuoteToDisplay := by
  unfold PlayState.step PlayState.processSelection
  dsimp only
  split <;> rfl

/-- **Actions are operations.** -/
theorem step_operations (a : Action) :
    ∃ ops, (s.step a).core = run Core.step s.core ops ∧
      (a.Succeeds → ∀ op ∈ ops, op.Succeeds) := by
  unfold step
  split
  · next title env _ =>
    rcases s.start_operations title env with h | h
    · exact ⟨[], h, by simp⟩
    · exact ⟨_, h, fun henv => by simpa [Operation.Succeeds, Action.Succeeds] using henv⟩
  · next e view _ => exact edit_operations ⟨view, s.core⟩ e
  · next quiz fetch shuffle _ =>
    exact ⟨[.setupStart quiz fetch], rfl, by simp [Operation.Succeeds]⟩
  · next t view _ =>
    exact ⟨[.nextQuoteToDisplay], tap_operations ⟨view, s.core⟩ t, by simp [Operation.Succeeds]⟩
  · exact ⟨[], rfl, by simp⟩
  · exact ⟨[], rfl, by simp⟩

end App

/-- **Invariants of the controllers.** What every successful operation and every launch
preserves holds after every successful run of the app. -/
theorem core_invariant_run {Inv : Core → Prop}
    (hStep : ∀ c op, op.Succeeds → Inv c → Inv (c.step op))
    (hLaunch : ∀ c, Inv c → Inv (.launch c.world.relaunch)) {s : App} (hs : Inv s.core)
    {es : List Event} (hes : ∀ e ∈ es, e.Succeeds) : Inv (run App.handle s es).core := by
  have hHandle : ∀ (s : App) (e : Event), Inv s.core → e.Succeeds → Inv (s.handle e).core := by
    intro s e hs he
    cases e with
    | action a =>
      obtain ⟨ops, hops, hsucc⟩ := s.step_operations a
      show Inv (s.step a).core
      rw [hops]
      exact invariant_run_of_forall (fun c op h hop => hStep c op hop h) hs (hsucc he)
    | operation op => exact hStep _ _ he hs
    | launch => exact hLaunch _ hs
  exact invariant_run_of_forall hHandle hs hes

end KnowTheQuote
