import Mathlib.Data.Fintype.Card
import KnowTheQuote.Properties.EditorBounds
import KnowTheQuote.Properties.EditorFlow

/-!
# Know the Quote — which buttons score

A quote keeps its answer and its incorrect options apart, but the buttons show one
shuffled list of both, and `updateScore` finds out by its text which option was
tapped. So the tap on an option scores when its text is equal to the answer's, whichever
field the option was typed into, and to `==` two texts can be equal that were typed
differently.

* `PlayState.Carries` — which button carries the option of which text field.
* `PlayState.Fair` — only the button with the answer scores.
* `fair_iff` — it is so when no incorrect option is equal to the answer.
* `option_scores_iff` — for every quote made in a run of the editor.
-/

namespace KnowTheQuote

open Machine

/-- The text fields whose texts become options. -/
def QuotePart.optionFields : List QuotePart :=
  [.incorrectOpt1, .incorrectOpt2, .incorrectOpt3, .incorrectOpt4, .answer]

theorem incorrect_of_mem_optionFields {part : QuotePart} (h : part ∈ QuotePart.optionFields)
    (hne : part ≠ .answer) : part.isIncorrectOpt = true := by
  cases part <;> simp_all [QuotePart.optionFields, QuotePart.isIncorrectOpt]

theorem mem_optionFields_of_incorrect {part : QuotePart} (h : part.isIncorrectOpt = true) :
    part ∈ QuotePart.optionFields := by
  cases part <;> simp_all [QuotePart.optionFields, QuotePart.isIncorrectOpt]

theorem mem_incorrectTexts {v : NewQuoteViewController} {text : String} :
    text ∈ v.incorrectTexts ↔ ∃ part, part.isIncorrectOpt = true ∧ v.texts part = text := by
  rw [v.incorrectTexts_eq, List.mem_map]
  refine exists_congr fun part => and_congr_left fun _ => ?_
  rw [List.mem_filter]
  exact and_iff_right (by cases part <;> decide)

namespace PlayState

/-- The tap adds a point. -/
def AddsPoint (s : PlayState) (t : Tap) : Prop :=
  (s.step t).view.score.points = s.view.score.points + 1

/-- The five buttons carry the options of the five fields, one each. -/
structure Carries (s : PlayState) (texts : QuotePart → String) (carried : Fin 5 → QuotePart) :
    Prop where
  option : ∀ button, carried button ∈ QuotePart.optionFields
  injective : Function.Injective carried
  title : ∀ t, s.tappedTitle t = some (texts (carried t.button))

/-- A tap scores exactly on the button that carries the answer: on one of the five, and
on none whose text was entered as an incorrect option. -/
structure Fair (s : PlayState) (texts : QuotePart → String) : Prop where
  role : ∀ carried, s.Carries texts carried → ∀ t, s.AddsPoint t ↔ carried t.button = .answer
  one : ∃! button : Fin 5, ∀ shuffle, s.AddsPoint ⟨button, shuffle⟩
  incorrect : ∀ t part, part.isIncorrectOpt = true → s.tappedTitle t = some (texts part) →
    ¬ s.AddsPoint t

variable {s : PlayState}

-- ---------------------------------------------------------------------------
-- What scores
-- ---------------------------------------------------------------------------

/-- What follows the scoring of a tap leaves the score alone. -/
theorem score_step (s : PlayState) (t : Tap) : (s.step t).view.score = (s.scored t).score := by
  rcases hnext : s.core.quizController.nextQuoteToDisplay with ⟨q, _ | r⟩
  · rw [step_of_end hnext]
    rfl
  · rw [step_of_next hnext]
    show ((_ : QuoteViewController).displayQuote _ _).score = _
    rw [QuoteViewController.displayQuote_eq]

/-- A tap adds a point when the text tapped is equal to the answer. -/
theorem addsPoint_iff {answer title : String} {t : Tap} (hanswer : s.shownAnswer = some answer)
    (htitle : s.tappedTitle t = some title) :
    s.AddsPoint t ↔ s.core.world.strings.equal title answer = true := by
  obtain ⟨r, hquote, hget⟩ := Option.bind_eq_some_iff.mp hanswer
  have hscore := QuoteViewController.score_updateScore_of_some hquote s.core.world title
  unfold AddsPoint
  rw [score_step, scored, htitle, hscore, hget]
  by_cases heq : s.core.world.strings.equal title answer = true
  · simp [StringEquality.optional, heq]
  · simp [StringEquality.optional, heq]

/-- Some button carries the option of each field. -/
theorem Carries.exists_button {texts : QuotePart → String} {carried : Fin 5 → QuotePart}
    (h : s.Carries texts carried) {part : QuotePart} (hpart : part ∈ QuotePart.optionFields) :
    ∃ button, carried button = part := by
  have hsubset : Finset.univ.image carried ⊆ QuotePart.optionFields.toFinset := by
    intro part hpart
    obtain ⟨button, -, rfl⟩ := Finset.mem_image.mp hpart
    exact List.mem_toFinset.mpr (h.option button)
  have hcard : QuotePart.optionFields.toFinset.card ≤ (Finset.univ.image carried).card := by
    rw [Finset.card_image_of_injective _ h.injective]
    decide
  have hall := Finset.eq_of_subset_of_card_le hsubset hcard
  have hmem : part ∈ Finset.univ.image carried := by
    rw [hall]
    exact List.mem_toFinset.mpr hpart
  obtain ⟨button, -, hbutton⟩ := Finset.mem_image.mp hmem
  exact ⟨button, hbutton⟩

/-- **Fair buttons.** With the options of five fields on the buttons, the taps score as
they should if and only if no incorrect option is equal to the answer. -/
theorem fair_iff {v : NewQuoteViewController} (hanswer : s.shownAnswer = some (v.texts .answer))
    (hcarries : ∃ carried, s.Carries v.texts carried) :
    s.Fair v.texts ↔ ∀ text ∈ v.incorrectTexts,
      s.core.world.strings.equal text (v.texts .answer) = false := by
  obtain ⟨carried₀, hcarried₀⟩ := hcarries
  have hanswerField : QuotePart.answer ∈ QuotePart.optionFields := by decide
  obtain ⟨button₀, hbutton₀⟩ := hcarried₀.exists_button hanswerField
  constructor
  · intro hfair text hmem
    obtain ⟨part, hpart, rfl⟩ := mem_incorrectTexts.mp hmem
    -- the button with that incorrect option does not score
    obtain ⟨button, hbutton⟩ := hcarried₀.exists_button (mem_optionFields_of_incorrect hpart)
    have htitle := hcarried₀.title ⟨button, .asIs⟩
    rw [hbutton] at htitle
    have hscores := hfair.incorrect ⟨button, .asIs⟩ part hpart htitle
    rwa [addsPoint_iff hanswer htitle, Bool.not_eq_true] at hscores
  · intro hdiffers
    have hincorrect : ∀ part, part.isIncorrectOpt = true →
        ¬ s.core.world.strings.equal (v.texts part) (v.texts .answer) = true := by
      intro part hpart
      rw [Bool.not_eq_true]
      exact hdiffers _ (mem_incorrectTexts.mpr ⟨part, hpart, rfl⟩)
    have hrole : ∀ carried, s.Carries v.texts carried →
        ∀ t, s.AddsPoint t ↔ carried t.button = .answer := by
      intro carried hcarried t
      rw [addsPoint_iff hanswer (hcarried.title t)]
      constructor
      · intro htext
        by_contra hne
        exact hincorrect _ (incorrect_of_mem_optionFields (hcarried.option _) hne) htext
      · intro hbutton
        rw [hbutton]
        exact s.core.world.strings.refl _
    refine ⟨hrole, ?_, ?_⟩
    · refine ⟨button₀, fun shuffle => (hrole _ hcarried₀ _).mpr hbutton₀, ?_⟩
      intro button hscores
      have hbutton := (hrole _ hcarried₀ ⟨button, .asIs⟩).mp (hscores .asIs)
      exact hcarried₀.injective (hbutton.trans hbutton₀.symm)
    · intro t part hpart htitle hscores
      exact hincorrect part hpart ((addsPoint_iff hanswer htitle).mp hscores)

-- ---------------------------------------------------------------------------
-- Quotes from the editor
-- ---------------------------------------------------------------------------

/-- Five buttons that show five fields' texts in some order carry one field each. -/
theorem exists_carries {texts : QuotePart → String}
    (h : s.view.titles.Perm (QuotePart.optionFields.map fun part => some (texts part))) :
    ∃ carried, s.Carries texts carried := by
  obtain ⟨parts, hparts, htitles⟩ := exists_perm_map_eq h
  have hlen : parts.length = 5 := hparts.length_eq
  have hnodup : parts.Nodup := hparts.nodup_iff.mpr (by decide)
  refine ⟨fun button => parts.get (button.cast hlen.symm), ?_, ?_, ?_⟩
  · exact fun button => hparts.mem_iff.mp (List.get_mem _ _)
  · intro button button' heq
    exact Fin.cast_injective _ (hnodup.injective_get heq)
  · intro t
    have hlt : (t.button : Nat) < parts.length := hlen.symm ▸ t.button.isLt
    rw [tappedTitle, htitles, List.getElem?_map, List.getElem?_eq_getElem hlt]
    rfl

/-- A play that shows a quote of the editor has the options of the five fields on its
buttons. -/
theorem displayed_of_created {v : NewQuoteViewController} {q stored : Quote} {r : ObjectID}
    {opts : List String} (hopts : opts.Perm v.incorrectTexts)
    (hq : q.firstPart = some (v.texts .part1) ∧ q.secondPart = some (v.texts .part2) ∧
      q.answer = some (v.texts .answer) ∧ q.allOptions = some (opts ++ [v.texts .answer]))
    (hget : s.core.world.context.quotes.get? r = some stored)
    (hstored : { stored with quiz := none } = q) (hquote : s.view.quote = some r)
    (hbuttons : s.view.titles.length = 5) (shuffle : Reordering String) :
    (s.displayQuote shuffle).shownAnswer = some (v.texts .answer) ∧
      ∃ carried, (s.displayQuote shuffle).Carries v.texts carried := by
  obtain ⟨hfirst, hsecond, hanswer, hall⟩ := hq
  subst hstored
  constructor
  · have hshown : (s.displayQuote shuffle).view.quote = some r := by
      rw [displayQuote, QuoteViewController.displayQuote_eq]
      exact hquote
    rw [shownAnswer, hshown]
    show (s.core.world.context.quotes.get? r).bind Quote.answer = _
    rw [hget]
    exact hanswer
  · have hlen : s.view.titles.length = (opts ++ [v.texts .answer]).length := by
      rw [hbuttons, List.length_append, hopts.length_eq]
      rfl
    have hperm := QuoteViewController.titles_displayQuote_perm hquote hget
      ⟨hfirst, hsecond, hall⟩ hlen shuffle
    exact exists_carries (hperm.trans ((hopts.append_right _).map some))

end PlayState

/-- **An incorrect option never scores, when.** In every run of the editor, the next action
creates at most one quote, from the texts on screen at that moment. Wherever that quote is
shown, on any five buttons and after any shuffle, the buttons carry the options of the five
fields, and the taps on them score exactly on the answer if and only if none of the
incorrect options is equal to the answer, in the sense of `==`. -/
theorem option_scores_iff (core : Core) (as : List EditorAction) (a : EditorAction) :
    let s := run EditorState.step ⟨.viewDidLoad core.quizController, core⟩ as
    ∃ new : List Quote,
      (s.step a).core.world.created = s.core.world.created ++ new ∧ new.length ≤ 1 ∧
      ∀ q ∈ new, ∀ (p : PlayState) (r : ObjectID) (stored : Quote) (shuffle : Reordering String),
        p.core.world.context.quotes.get? r = some stored → { stored with quiz := none } = q →
        p.view.quote = some r → p.view.titles.length = 5 →
        (∃ carried, (p.displayQuote shuffle).Carries s.view.texts carried) ∧
        ((p.displayQuote shuffle).Fair s.view.texts ↔ ∀ text ∈ s.view.incorrectTexts,
          p.core.world.strings.equal text (s.view.texts .answer) = false) := by
  intro s
  rcases created_step s a with hsame | ⟨hcomplete, order, uuid, quizID, hnew⟩
  · exact ⟨[], by rw [hsame, List.append_nil], Nat.zero_le _, by simp⟩
  · -- an action on a closed editor creates nothing
    have hopen : s.view.popped = false := by
      by_contra hpopped
      rw [EditorState.step_of_popped (Bool.eq_true_of_not_eq_false hpopped)] at hnew
      have := congrArg List.length hnew
      simp at this
    obtain ⟨opts, hopts, hcollected⟩ :=
      NewQuoteViewController.collected_of_complete hcomplete (emptied_run core as hopen) order
    rw [hcollected] at hnew
    refine ⟨_, hnew, le_refl _, ?_⟩
    intro q hq p r stored shuffle hget hstored hquote hbuttons
    rw [List.mem_singleton] at hq
    subst hq
    obtain ⟨hanswer, hcarries⟩ := PlayState.displayed_of_created hopts ⟨rfl, rfl, rfl, rfl⟩
      hget hstored hquote hbuttons shuffle
    exact ⟨hcarries, PlayState.fair_iff hanswer hcarries⟩

/-- The editor with the answer typed into a second field. -/
def EditorState.answerTwice : EditorState :=
  run EditorState.tap .first (EditorAction.fillIn
    (Function.update sampleTexts .incorrectOpt1 (sampleTexts .answer)))

/-- The play of a quiz with that quote has two buttons that score. -/
theorem incorrect_option_scores :
    ¬ ∀ (core : Core) (as : List EditorAction) (a : EditorAction),
      let s := run EditorState.tap ⟨.viewDidLoad core.quizController, core⟩ as
      ∃ new : List Quote,
        (s.tap a).core.world.created = s.core.world.created ++ new ∧ new.length ≤ 1 ∧
        ∀ q ∈ new, ∀ (p : PlayState) (r : ObjectID) (stored : Quote)
          (shuffle : Reordering String),
          p.core.world.context.quotes.get? r = some stored → { stored with quiz := none } = q →
          p.view.quote = some r → p.view.titles.length = 5 →
          (p.displayQuote shuffle).Fair s.view.texts := by
  intro h
  obtain ⟨new, hnew, -, hfair⟩ := h EditorState.first.core (EditorAction.fillIn
    (Function.update sampleTexts .incorrectOpt1 (sampleTexts .answer))) (.next {} .asIs)
  have hnone : EditorState.answerTwice.core.world.created = [] := by decide
  let core := (EditorState.answerTwice.tap (.next {} .asIs)).core
  let quote : Quote :=
    .fresh ⟨"2"⟩ "1" "May the" "be with you" ["Force", "luck", "moon", "odds"] "Force"
  have hmade : core.world.created = EditorState.answerTwice.core.world.created ++ [quote] := by
    decide
  have hmem : quote ∈ new := by
    rw [← List.append_cancel_left (hmade.symm.trans hnew)]
    exact List.mem_singleton_self _
  -- options are popped off the end, so the last button has the first one
  have hplay := hfair quote hmem { view := { quiz := 0, quote := some 0 }, core } 0
    { quote with quiz := some 0 } .asIs (by decide) rfl rfl rfl
  refine hplay.incorrect ⟨4, .asIs⟩ .incorrectOpt1 rfl (by decide) ?_
  unfold PlayState.AddsPoint
  decide

end KnowTheQuote
