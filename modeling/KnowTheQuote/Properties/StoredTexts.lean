import KnowTheQuote.Properties.EditorViews
import KnowTheQuote.Properties.DataSteps
import KnowTheQuote.Properties.Creation

/-!
# Know the Quote — where stored texts come from

The seven fields are the draft of one quote or, when the user has stepped back, a saved
quote over what the draft left in the other four fields. Next looks at the cursor before
it stores them, Done does not; and a Prev that is tapped on a saved quote makes that
mixture the draft. Without these two taps a stored quote has the texts that were typed
for it and no others.

* `Core.Gathers` — the quotes in the context and in the store are some of those that were
  there and of those that have been made since.
* `Composed` — where the texts on the screen, in the slot and in the stored quotes were
  typed.
* `Composed.step` — one action keeps it.
* `stored_texts_typed` — whole sessions; no text is in two stored quotes.
-/

namespace KnowTheQuote

open Machine
open scoped List

/-- The texts of a quote. -/
def Quote.texts (q : Quote) : List String :=
  q.firstPart.toList ++ q.secondPart.toList ++ q.answer.toList ++ q.incorrectOptions.getD []

/-- The texts of a quote that has been collected are those of the fields. -/
theorem mem_texts_collected {v : NewQuoteViewController} (hcomplete : v.isDataComplete = true)
    (hempty : v.incorrectOptsArray = []) (order : Reordering QuotePart) {uuid quizID : UUID}
    {t : String} (ht : t ∈ ((v.collected order).object uuid quizID).texts) :
    ∃ part, v.texts part = t ∧ t ≠ "" := by
  obtain ⟨opts, hopts, hcollected⟩ :=
    NewQuoteViewController.collected_of_complete hcomplete hempty order
  have hpart : ∃ part, v.texts part = t := by
    rw [hcollected] at ht
    simp only [Quote.texts, NewQuote.object, Quote.fresh, Option.toList_some, Option.getD_some,
      List.mem_append, hopts.mem_iff,
      NewQuoteViewController.incorrectTexts, List.mem_cons, List.not_mem_nil, or_false] at ht
    rcases ht with ((h | h) | h) | h | h | h | h
    · exact ⟨_, h.symm⟩
    · exact ⟨_, h.symm⟩
    · exact ⟨_, h.symm⟩
    · exact ⟨_, h.symm⟩
    · exact ⟨_, h.symm⟩
    · exact ⟨_, h.symm⟩
    · exact ⟨_, h.symm⟩
  obtain ⟨part, rfl⟩ := hpart
  refine ⟨part, rfl, fun hnil => ?_⟩
  have hfilled := NewQuoteViewController.texts_nonempty_of_complete hcomplete part
  rw [hnil] at hfilled
  cases hfilled

-- ---------------------------------------------------------------------------
-- The quotes in the store
-- ---------------------------------------------------------------------------

/-- The quote without its link to the quiz, as the initialiser leaves it. -/
def Quote.unlinked (q : Quote) : Quote := { q with quiz := none }

/-- The quotes in the store, in the order in which they were made. -/
def World.storedQuotes (w : World) : List Quote := w.coreData.store.quotes.objects

namespace Core

/-- Apart from their links, the quotes in the context and those in the store are some of the
old ones and then some of the new ones. -/
structure Gathers (made old new : List Quote) (c : Core) : Prop where
  created : c.world.created = made ++ new
  context : c.world.context.quotes.objects.map Quote.unlinked <+ old ++ new
  store : c.world.storedQuotes.map Quote.unlinked <+ old ++ new

namespace Gathers

variable {made old new : List Quote} {c c' : Core}

theorem of_eq (h : c.Gathers made old new) (hcreated : c'.world.created = c.world.created)
    (hcontext : c'.world.context.quotes = c.world.context.quotes)
    (hstore : c'.world.coreData.store = c.world.coreData.store) : c'.Gathers made old new := by
  refine ⟨hcreated.trans h.created, ?_, ?_⟩
  · rw [hcontext]
    exact h.context
  · unfold World.storedQuotes
    rw [hstore]
    exact h.store

/-- A link changes no quote in this sense. -/
theorem addToQuotes (h : c.Gathers made old new) (quiz quote : ObjectID) :
    (c.setContext (c.world.context.addToQuotes quiz quote)).Gathers made old new := by
  refine ⟨h.created, ?_, h.store⟩
  show (c.world.context.quotes.modify quote _).objects.map Quote.unlinked <+ _
  rw [Heap.map_objects_modify]
  · exact h.context
  · exact fun _ => rfl

theorem withNewQuote (h : c.Gathers made old new) (a : NewQuote) (quizID : UUID) :
    (c.withNewQuote a quizID).Gathers made old
      (new ++ [a.object (c.world.uuids.next c.world.drawn) quizID]) := by
  refine ⟨?_, ?_, ?_⟩
  · rw [created_withNewQuote, h.created, List.append_assoc]
  · rw [context_withNewQuote, Heap.objects_alloc, List.map_append, ← List.append_assoc]
    exact h.context.append (.refl _)
  · rw [← List.append_assoc]
    exact h.store.trans (List.sublist_append_left ..)

/-- A save writes the context, or brings back what is in the store. -/
theorem save (h : c.Gathers made old new) (saves : Bool) : (c.save saves).Gathers made old new := by
  cases saves with
  | true => exact ⟨h.created, h.context, h.context⟩
  | false =>
    have hreload : (c.world.context.reload c.world.coreData.store).quotes.objects.map
        Quote.unlinked <+ old ++ new := by
      unfold Context.reload
      rw [Heap.objects_reload, List.map_map]
      exact h.store
    exact ⟨h.created, hreload, hreload⟩

/-- **Step.** Every operation gathers the quotes it makes. -/
theorem step (h : ∃ new, c.Gathers made old new) (op : Operation) :
    ∃ new, (c.step op).Gathers made old new := by
  refine step_data (P := fun c => ∃ new, c.Gathers made old new) ?_ ?_ ?_ ?_ ?_ ?_ ?_ h
  · rintro c c' hsame ⟨new, h⟩
    exact ⟨new, h.of_eq hsame.created (congrArg (Context.quotes ∘ CoreDataStack.context)
      hsame.coreData) (congrArg CoreDataStack.store hsame.coreData)⟩
  · rintro c username password now ⟨new, h⟩
    exact ⟨new, h.of_eq rfl rfl rfl⟩
  · rintro title creator env ⟨new, h⟩
    exact ⟨new, h.of_eq (by simp) (by simp) (by simp)⟩
  · rintro title creator env ⟨new, h⟩
    exact ⟨new, h.of_eq (by simp [withLinkedQuiz])
      (by simp [withLinkedQuiz, Context.addToQuizzesCreated]) (by simp [withLinkedQuiz])⟩
  · rintro a quizID ⟨new, h⟩
    exact ⟨_, h.withNewQuote a quizID⟩
  · rintro a quiz quizID env - - ⟨new, h⟩
    exact ⟨_, (h.withNewQuote a quizID).addToQuotes ..⟩
  · rintro c saves - ⟨new, h⟩
    exact ⟨new, h.save saves⟩

/-- Whatever there is at first is old. -/
theorem start (c : Core) : c.Gathers c.world.created
    (c.world.context.quotes.objects.map Quote.unlinked ++ c.world.storedQuotes.map Quote.unlinked)
    [] := by
  refine ⟨by simp, ?_, ?_⟩
  · rw [List.append_nil]
    exact List.sublist_append_left ..
  · rw [List.append_nil]
    exact List.sublist_append_right ..

end Gathers

end Core

namespace EditorState

variable {s : EditorState}

theorem texts_textFieldEditingChanged (v : NewQuoteViewController) (q : QuizController) :
    (v.textFieldEditingChanged q).texts = v.texts := by
  obtain ⟨done, next, heq⟩ := textFieldEditingChanged_eq v q
  rw [heq]

theorem incompleteQuote_textFieldEditingChanged (v : NewQuoteViewController)
    (q : QuizController) : (v.textFieldEditingChanged q).incompleteQuote = v.incompleteQuote := by
  obtain ⟨done, next, heq⟩ := textFieldEditingChanged_eq v q
  rw [heq]

/-- Past the last saved quote there is none to display. -/
theorem displayed_of_gt {l : List ObjectID} (h : s.core.quizController.quotes.Numbers l)
    (hgt : (s.core.quizController.quotes.count : Int) < s.core.quizController.currentQuote) :
    s.displayed = s.view.texts := by
  have hnone : s.core.quizController.quotes.lookup s.core.quizController.currentQuote = none := by
    rw [Finmap.lookup_eq_none, h.mem_iff]
    omega
  have hcurrent : s.currentQuote = none := by
    unfold currentQuote
    rw [hnone]
    rfl
  unfold displayed
  rw [hcurrent]

-- ---------------------------------------------------------------------------
-- The invariant
-- ---------------------------------------------------------------------------

/-- The cursor is past the last saved quote. -/
def pastSaved (s : EditorState) : Prop :=
  (s.core.quizController.quotes.count : Int) < s.core.quizController.currentQuote

instance (s : EditorState) : Decidable s.pastSaved := inferInstanceAs (Decidable (_ < _))

/-- A draft that Next has handed over leaves the cursor past whatever was stored. -/
theorem pastSaved_of_handedOver {l : List ObjectID}
    (hnum : s.core.quizController.quotes.Numbers l)
    (hcan : s.core.quizController.canMoveToNext = true) (hnew : s.atNew) (env : Env)
    (order : Reordering QuotePart) : (s.handedOver env order).moveToNextQuote.pastSaved := by
  have hle := count_handedOver_le hnum env order
  have hcursor := currentQuote_handedOver (s := s) env order
  have hmoved := QuizController.moveToNextQuote_of_can
    (canMoveToNext_handedOver hnum hcan hnew env order)
  unfold atNew at hnew
  unfold pastSaved moveToNextQuote
  dsimp only
  rw [hmoved]
  dsimp only
  omega

/-- `T n t` says that the text `t` was typed for quote number `n` of the session. The
stored quotes are `new`; what is on the screen past the last saved quote, or in the slot
before that, was typed for the next one. -/
structure Composed (T : Nat → String → Prop) (made new : List Quote) (s : EditorState) : Prop where
  created : s.core.world.created = made ++ new
  stored : ∀ n q, new[n]? = some q → ∀ t ∈ q.texts, T n t
  screen : s.view.popped = false → s.pastSaved → ∀ part, s.view.texts part ≠ "" →
    T new.length (s.view.texts part)
  slot : s.view.popped = false → ¬ s.pastSaved → ∀ draft part text,
    s.view.incompleteQuote = some draft → draft part = some text → text ≠ "" → T new.length text

/-- Prev and Done are not tapped on a saved quote, unless they do nothing. -/
def StoresDraft (s : EditorState) : EditorAction → Prop
  | .prev => s.core.quizController.canMoveToPrev = true → s.pastSaved
  | .done _ _ =>
    2 ≤ s.core.quizController.quotes.count → s.view.isDataComplete = true → s.pastSaved
  | .edit _ _ | .next _ _ => True

instance (s : EditorState) : DecidablePred s.StoresDraft
  | .prev => inferInstanceAs (Decidable (_ → _))
  | .done _ _ => inferInstanceAs (Decidable (_ → _ → _))
  | .edit _ _ | .next _ _ => .isTrue trivial

namespace Composed

variable {T : Nat → String → Prop} {made new : List Quote}

/-- The same texts, wherever the cursor goes. -/
theorem of_texts (h : s.Composed T made new) {s' : EditorState}
    (hcreated : s'.core.world.created = s.core.world.created)
    (hscreen : s'.pastSaved → ∀ part, s'.view.texts part ≠ "" → T new.length (s'.view.texts part))
    (hslot : ¬ s'.pastSaved → ∀ draft part text, s'.view.incompleteQuote = some draft →
      draft part = some text → text ≠ "" → T new.length text) : s'.Composed T made new :=
  ⟨hcreated.trans h.created, h.stored, fun _ => hscreen, fun _ => hslot⟩

theorem edit (h : s.Composed T made new) (hopen : s.view.popped = false) (part : QuotePart)
    (text : String) (hT : s.pastSaved → text ≠ "" → T new.length text) :
    (s.edit part text).Composed T made new := by
  refine h.of_texts rfl ?_ ?_
  · intro hpast part' hne
    have htexts : (s.edit part text).view.texts = Function.update s.view.texts part text :=
      texts_textFieldEditingChanged _ _
    rw [htexts] at hne ⊢
    by_cases heq : part' = part
    · rw [heq, Function.update_self] at hne ⊢
      exact hT hpast hne
    · rw [Function.update_of_ne heq] at hne ⊢
      exact h.screen hopen hpast part' hne
  · intro hsaved draft part' text' hdraft
    have hslot : (s.edit part text).view.incompleteQuote = s.view.incompleteQuote :=
      incompleteQuote_textFieldEditingChanged _ _
    rw [hslot] at hdraft
    exact h.slot hopen hsaved draft part' text' hdraft

theorem moveToPrev (h : s.Composed T made new) (hopen : s.view.popped = false)
    {l : List ObjectID} (hnum : s.core.quizController.quotes.Numbers l)
    (hprev : s.core.quizController.canMoveToPrev = true → s.pastSaved) :
    s.moveToPrev.Composed T made new := by
  by_cases hcan : s.core.quizController.canMoveToPrev = true
  · have htyped := h.screen hopen (hprev hcan)
    rw [moveToPrev_of_can hcan]
    refine h.of_texts ?_ ?_ ?_
    · rw [core_displayQuoteData]
      rfl
    · -- still past the last quote, where nothing is displayed
      intro hpast part hne
      unfold pastSaved at hpast
      rw [core_displayQuoteData] at hpast
      rw [texts_displayQuoteData, displayed_of_gt (s := s.steppedBack) hnum hpast] at hne ⊢
      exact htyped part hne
    · intro _ draft part text hdraft hpart hne
      rw [incompleteQuote_displayQuoteData] at hdraft
      cases hdraft
      cases hpart
      exact htyped part hne
  · rw [moveToPrev_of_not_can (Bool.eq_false_iff.mpr hcan)]
    exact h

/-- What `createQuote` makes of a complete draft. -/
theorem handedOver (h : s.Composed T made new) (hopen : s.view.popped = false)
    (hempty : s.view.incorrectOptsArray = []) (hpast : s.pastSaved)
    (hcomplete : s.view.isDataComplete = true) (env : Env) (order : Reordering QuotePart) :
    ∃ new', (s.handedOver env order).core.world.created = made ++ new' ∧
      ∀ n q, new'[n]? = some q → ∀ t ∈ q.texts, T n t := by
  rcases s.core.created_createQuoteOf (s.view.collected order) env with hsame | ⟨uuid, quizID, hnew⟩
  · exact ⟨new, hsame.trans h.created, h.stored⟩
  · refine ⟨new ++ [(s.view.collected order).object uuid quizID], ?_, ?_⟩
    · rw [← List.append_assoc, ← h.created]
      exact hnew
    · intro n q hq t ht
      rcases Nat.lt_trichotomy n new.length with hlt | heq | hgt
      · rw [List.getElem?_append_left hlt] at hq
        exact h.stored n q hq t ht
      · subst heq
        rw [List.getElem?_concat_length] at hq
        cases hq
        obtain ⟨part, rfl, hne⟩ := mem_texts_collected hcomplete hempty order ht
        exact h.screen hopen hpast part hne
      · rw [List.getElem?_eq_none (by simp; omega)] at hq
        cases hq

theorem moveToNext (h : s.Composed T made new) (hopen : s.view.popped = false)
    (hempty : s.view.incorrectOptsArray = []) {l : List ObjectID}
    (hnum : s.core.quizController.quotes.Numbers l) (env : Env) (order : Reordering QuotePart) :
    ∃ new', (s.moveToNext env order).Composed T made new' := by
  by_cases hcan : s.core.quizController.canMoveToNext = true
  · by_cases hnew : s.atNew
    · have hpast : s.pastSaved := by
        unfold atNew at hnew
        unfold pastSaved
        omega
      cases hcomplete : s.view.isDataComplete with
      | false =>
        rw [moveToNext_of_incomplete hcan hnew hcomplete]
        exact ⟨new, h.of_texts rfl (fun hpast => h.screen hopen hpast)
          fun hsaved => h.slot hopen hsaved⟩
      | true =>
        rw [moveToNext_of_complete hcan hnew hcomplete]
        obtain ⟨new', hcreated, hstored⟩ := h.handedOver hopen hempty hpast hcomplete env order
        refine ⟨new', hcreated, hstored, fun _ _ part hne => absurd rfl hne, ?_⟩
        -- the cursor has moved past what may have been stored
        intro _ hsaved
        refine absurd ?_ hsaved
        exact pastSaved_of_handedOver hnum hcan hnew env order
    · by_cases hlast : s.core.quizController.currentQuote = s.core.quizController.quotes.count
      · rw [moveToNext_of_last hcan hlast]
        have hsaved : ¬ s.pastSaved := by
          unfold pastSaved
          omega
        refine ⟨new, h.of_texts rfl ?_ ?_⟩
        · -- the draft comes out of the slot
          intro _ part
          have htexts : (s.view.updateButtonsViews s.core.quizController true
              false).tryLoadIncompleteData.texts part ≠ "" →
              T new.length ((s.view.updateButtonsViews s.core.quizController true
                false).tryLoadIncompleteData.texts part) := by
            rw [texts_tryLoadIncompleteData,
              NewQuoteViewController.incompleteQuote_updateButtonsViews]
            cases hslot : s.view.incompleteQuote with
            | none => exact fun hne => absurd rfl hne
            | some draft =>
              dsimp only
              cases hpart : draft part with
              | none => exact fun hne => absurd rfl hne
              | some text => exact h.slot hopen hsaved draft part text hslot hpart
          dsimp only
          split <;> exact htexts
        · intro hsaved'
          refine absurd ?_ hsaved'
          show (s.core.quizController.quotes.count : Int) < s.core.quizController.currentQuote + 1
          omega
      · rw [moveToNext_of_earlier hcan hnew hlast]
        refine ⟨new, h.of_texts ?_ ?_ ?_⟩
        · rw [core_displayQuoteData]
          rfl
        · intro hpast part hne
          unfold pastSaved at hpast
          rw [core_displayQuoteData] at hpast
          have hpast' : s.pastSaved := by
            unfold pastSaved
            unfold atNew at hnew
            change (s.core.quizController.quotes.count : Int) <
              s.core.quizController.currentQuote + 1 at hpast
            omega
          change s.steppedOn.displayQuoteData.view.texts part ≠ "" at hne
          show T new.length (s.steppedOn.displayQuoteData.view.texts part)
          rw [texts_displayQuoteData, displayed_of_gt (s := s.steppedOn) hnum hpast] at hne ⊢
          exact h.screen hopen hpast' part hne
        · intro hsaved draft part text hdraft hpart hne
          unfold pastSaved at hsaved
          rw [core_displayQuoteData] at hsaved
          have hsaved' : ¬ s.pastSaved := by
            unfold pastSaved
            change ¬ (s.core.quizController.quotes.count : Int) <
              s.core.quizController.currentQuote + 1 at hsaved
            omega
          exact h.slot hopen hsaved' draft part text
            ((incompleteQuote_displayQuoteData (s := s.steppedOn)).symm.trans hdraft) hpart hne
  · rw [moveToNext_of_not_can (Bool.eq_false_iff.mpr hcan)]
    exact ⟨new, h⟩

theorem finishCreatingQuiz (h : s.Composed T made new) (hopen : s.view.popped = false)
    (hempty : s.view.incorrectOptsArray = []) (env : Env) (order : Reordering QuotePart)
    (hdone : 2 ≤ s.core.quizController.quotes.count → s.view.isDataComplete = true →
      s.pastSaved) : ∃ new', (s.finishCreatingQuiz env order).Composed T made new' := by
  unfold EditorState.finishCreatingQuiz
  split
  · next hcan =>
    rw [saveQuote_of_complete s hcan.2]
    obtain ⟨new', hcreated, hstored⟩ :=
      h.handedOver hopen hempty (hdone hcan.1 hcan.2) hcan.2 env order
    exact ⟨new', hcreated, hstored, nofun, nofun⟩
  · exact ⟨new, h⟩

/-- More may have been typed. -/
theorem mono (h : s.Composed T made new) {T' : Nat → String → Prop}
    (hT : ∀ n t, T n t → T' n t) : s.Composed T' made new :=
  ⟨h.created, fun n q hq t ht => hT n t (h.stored n q hq t ht),
    fun hopen hpast part hne => hT _ _ (h.screen hopen hpast part hne),
    fun hopen hsaved draft part text hdraft hpart hne =>
      hT _ _ (h.slot hopen hsaved draft part text hdraft hpart hne)⟩

/-- **One action.** A text typed past the last saved quote is typed for the next one. -/
theorem step (h : s.Composed T made new) (hempty : s.Emptied) {l : List ObjectID}
    (hnum : s.core.quizController.quotes.Numbers l) {a : EditorAction} (ha : s.StoresDraft a)
    (hedit : ∀ part text, a = .edit part text → s.pastSaved → text ≠ "" → T new.length text) :
    ∃ new', (s.step a).Composed T made new' := by
  cases hpopped : s.view.popped with
  | true =>
    rw [step_of_popped hpopped]
    exact ⟨new, h⟩
  | false =>
    rw [step_of_open hpopped]
    cases a with
    | edit part text => exact ⟨new, h.edit hpopped part text (hedit part text rfl)⟩
    | prev => exact ⟨new, h.moveToPrev hpopped hnum ha⟩
    | next env order => exact h.moveToNext hpopped (hempty hpopped) hnum env order
    | done env order => exact h.finishCreatingQuiz hpopped (hempty hpopped) env order ha

end Composed

end EditorState

-- ---------------------------------------------------------------------------
-- Sessions
-- ---------------------------------------------------------------------------

/-- The texts the user types, in order. -/
def EditorAction.typed (as : List EditorAction) : List String :=
  as.filterMap fun
    | .edit _ text => if text.isEmpty then none else some text
    | .prev | .next _ _ | .done _ _ => none

/-- The text is typed when `n` quotes of the session have been made, past the last saved
quote: it is typed for quote number `n`. -/
def EditorState.TypedFor (start : EditorState) (as : List EditorAction) (n : Nat)
    (t : String) : Prop :=
  ∃ pre part post, as = pre ++ .edit part t :: post ∧ t ≠ "" ∧
    (run EditorState.step start pre).pastSaved ∧
    (run EditorState.step start pre).core.world.created.length =
      start.core.world.created.length + n

namespace EditorState

variable {start : EditorState} {as : List EditorAction} {m n : Nat} {t : String}

theorem TypedFor.append (h : start.TypedFor as n t) (a : EditorAction) :
    start.TypedFor (as ++ [a]) n t := by
  obtain ⟨pre, part, post, rfl, hne, hpast, hmade⟩ := h
  exact ⟨pre, part, post ++ [a], by simp, hne, hpast, hmade⟩

/-- A text that is typed once is typed for one quote. -/
theorem TypedFor.unique (hNodup : (EditorAction.typed as).Nodup) (hm : start.TypedFor as m t)
    (hn : start.TypedFor as n t) : m = n := by
  obtain ⟨pre, part, post, has, hne, -, hmade⟩ := hm
  obtain ⟨pre', part', post', has', -, -, hmade'⟩ := hn
  have hpre : pre = pre' :=
    split_unique (b := t) hNodup has has' (by simp [hne]) (by simp [hne])
  rw [← hpre, hmade] at hmade'
  omega

/-- An invariant of the controllers holds throughout a session. -/
theorem core_invariant_session {P : Core → Prop} (hP : ∀ c op, P c → P (c.step op))
    {s : EditorState} (hs : P s.core) (as : List EditorAction) :
    P (run EditorState.step s as).core := by
  have hstep : ∀ (s : EditorState) (a : EditorAction), P s.core → P (s.step a).core := by
    intro s a h
    obtain ⟨ops, hops, -⟩ := App.edit_operations s a
    rw [hops]
    exact invariant_run_all hP h ops
  exact invariant_run_all hstep hs as

/-- The dictionary numbers its quotes throughout a session. -/
theorem cached_run {s : EditorState} (h : ∃ l, s.core.Cached l) (as : List EditorAction) :
    ∃ l, (run EditorState.step s as).core.Cached l :=
  core_invariant_session (P := fun c => ∃ l, c.Cached l)
    (fun _ op ⟨_, h⟩ => Core.cached_run h [op]) h as

/-- What the store holds after a session: old quotes, and some of those made in it. -/
theorem storedQuotes_run {s : EditorState} {as : List EditorAction} {new : List Quote}
    (hcreated : (run EditorState.step s as).core.world.created = s.core.world.created ++ new) :
    ∃ old stored,
      (run EditorState.step s as).core.world.storedQuotes.map Quote.unlinked = old ++ stored ∧
      old <+ s.core.world.context.quotes.objects.map Quote.unlinked ++
        s.core.world.storedQuotes.map Quote.unlinked ∧
      stored <+ new := by
  obtain ⟨new', h⟩ := core_invariant_session
    (P := fun c => ∃ new, c.Gathers s.core.world.created
      (s.core.world.context.quotes.objects.map Quote.unlinked ++
        s.core.world.storedQuotes.map Quote.unlinked) new)
    (fun _ op h => Core.Gathers.step h op) ⟨[], Core.Gathers.start s.core⟩ as
  -- the quotes made are the same in both
  cases List.append_cancel_left (hcreated.symm.trans h.created)
  exact List.sublist_append_iff.mp h.store

/-- **Every session.** Where the texts come from, after any admitted actions. -/
theorem composed_run {core : Core} (hcore : ∃ l, core.Cached l)
    (hStores : Along EditorState.step StoresDraft ⟨.viewDidLoad core.quizController, core⟩ as) :
    ∃ new, (run EditorState.step ⟨.viewDidLoad core.quizController, core⟩ as).Composed
      (TypedFor ⟨.viewDidLoad core.quizController, core⟩ as) core.world.created new := by
  set start : EditorState := ⟨.viewDidLoad core.quizController, core⟩ with hstart
  have hempty : ∃ new, start.Composed (start.TypedFor []) core.world.created new := by
    -- the fields and the slot are empty
    refine ⟨[], by simp [hstart], by simp, fun _ _ part hne => absurd rfl hne, ?_⟩
    intro _ _ draft part text hdraft
    cases hdraft
  have hstep : ∀ (as : List EditorAction) (a : EditorAction),
      (∃ new, (run EditorState.step start as).Composed (start.TypedFor as)
        core.world.created new) →
      (run EditorState.step start as).StoresDraft a →
      ∃ new, (run EditorState.step start (as ++ [a])).Composed (start.TypedFor (as ++ [a]))
        core.world.created new := by
    rintro as a ⟨new, h⟩ ha
    rw [run_append, run_cons, run_nil]
    obtain ⟨l, hcached⟩ := cached_run (s := start) hcore as
    refine (h.mono fun _ _ ht => ht.append a).step (emptied_run core as) hcached.numbers ha ?_
    rintro part text rfl hpast hne
    refine ⟨as, part, [], rfl, hne, hpast, ?_⟩
    rw [h.created, List.length_append]
  exact invariant_history hempty hstep hStores

end EditorState

/-- **No text is stored twice.** In a session in which no text is typed twice and neither
Prev nor Done acts on a saved quote, every text of a stored quote was typed for that
quote, past the last saved one, and no two stored quotes have a text in common. `new` are
the quotes of the session; the store holds none of them twice, and of others only those it
or the context held before. -/
theorem stored_texts_typed (w : World) (ops : List Operation) {as : List EditorAction}
    (hTyped : (EditorAction.typed as).Nodup)
    (hStores : let core := run Core.step (Core.launch w) ops
      Along EditorState.step EditorState.StoresDraft ⟨.viewDidLoad core.quizController, core⟩ as) :
    let core := run Core.step (Core.launch w) ops
    let start : EditorState := ⟨.viewDidLoad core.quizController, core⟩
    ∃ new, (run EditorState.step start as).core.world.created = core.world.created ++ new ∧
      (∀ n q, new[n]? = some q → ∀ t ∈ q.texts, start.TypedFor as n t) ∧
      (new.Pairwise fun q q' => ∀ t ∈ q.texts, t ∉ q'.texts) ∧
      ∃ old stored,
        (run EditorState.step start as).core.world.storedQuotes.map Quote.unlinked =
          old ++ stored ∧
        old <+ core.world.context.quotes.objects.map Quote.unlinked ++
          core.world.storedQuotes.map Quote.unlinked ∧
        stored <+ new := by
  intro core start
  have hcore : ∃ l, core.Cached l := Core.cached_run (Core.cached_launch w) ops
  obtain ⟨new, h⟩ := EditorState.composed_run hcore hStores
  refine ⟨new, h.created, h.stored, List.pairwise_iff_getElem.mpr ?_,
    EditorState.storedQuotes_run h.created⟩
  intro i j hi hj hlt t ht ht'
  have heq := (h.stored i _ (List.getElem?_eq_getElem hi) t ht).unique hTyped
    (h.stored j _ (List.getElem?_eq_getElem hj) t ht')
  omega

/-- Seven texts, others for every `k`. -/
def numberedTexts (k : Nat) (part : QuotePart) : String :=
  (7 * k + QuotePart.all.idxOf part).repr

/-- The editor of a first, empty quiz. -/
def EditorState.empty : EditorState :=
  let core := run Core.step (Core.launch { uuids := .numbered }) Operation.emptyQuiz
  ⟨.viewDidLoad core.quizController, core⟩

/-- Two saved quotes, and a third one complete on the screen. -/
def EditorAction.thirdQuote : List EditorAction :=
  EditorAction.fillIn (numberedTexts 0) ++ [.next {} .asIs] ++
    EditorAction.fillIn (numberedTexts 1) ++ [.next {} .asIs] ++
    EditorAction.fillIn (numberedTexts 2)

theorem stored_texts_thirdQuote :
    let as := EditorAction.thirdQuote ++ [.done {} .asIs]
    (run EditorState.step .empty as).core.world.storedQuotes.length = 3 ∧
    ∃ new, (run EditorState.step .empty as).core.world.created =
        EditorState.empty.core.world.created ++ new ∧
      (∀ n q, new[n]? = some q → ∀ t ∈ q.texts, EditorState.empty.TypedFor as n t) ∧
      (new.Pairwise fun q q' => ∀ t ∈ q.texts, t ∉ q'.texts) ∧
      ∃ old stored,
        (run EditorState.step .empty as).core.world.storedQuotes.map Quote.unlinked =
          old ++ stored ∧
        old <+ EditorState.empty.core.world.context.quotes.objects.map Quote.unlinked ++
          EditorState.empty.core.world.storedQuotes.map Quote.unlinked ∧
        stored <+ new := by
  have hsession : ∀ as, (EditorAction.typed as).Nodup →
      Along EditorState.step EditorState.StoresDraft .empty as →
      ∃ new, (run EditorState.step .empty as).core.world.created =
          EditorState.empty.core.world.created ++ new ∧
        (∀ n q, new[n]? = some q → ∀ t ∈ q.texts, EditorState.empty.TypedFor as n t) ∧
        (new.Pairwise fun q q' => ∀ t ∈ q.texts, t ∉ q'.texts) ∧
        ∃ old stored,
          (run EditorState.step .empty as).core.world.storedQuotes.map Quote.unlinked =
            old ++ stored ∧
          old <+ EditorState.empty.core.world.context.quotes.objects.map Quote.unlinked ++
            EditorState.empty.core.world.storedQuotes.map Quote.unlinked ∧
          stored <+ new := fun as hTyped hStores =>
    stored_texts_typed { uuids := .numbered } Operation.emptyQuiz hTyped hStores
  exact ⟨by decide +kernel, hsession _ (by decide) (by decide +kernel)⟩

/-- Three saved quotes, a fourth one complete on the screen; Prev, and Done, which is
enabled. -/
def EditorAction.prevAndDone : List EditorAction :=
  EditorAction.thirdQuote ++ [.next {} .asIs] ++ EditorAction.fillIn (numberedTexts 3) ++
    [.prev, .done {} .asIs]

/-- Three texts of the third quote are stored again, with four of the fourth. -/
theorem done_stores_saved_quote_again :
    ¬ ∀ as : List EditorAction, (EditorAction.typed as).Nodup →
      (run EditorState.tap .empty as).core.world.storedQuotes.Pairwise fun q q' =>
        ∀ t ∈ q.texts, t ∉ q'.texts := by
  intro h
  have hpairwise := h EditorAction.prevAndDone (by decide)
  revert hpairwise
  decide +kernel

end KnowTheQuote
