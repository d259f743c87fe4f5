import KnowTheQuote.Model.App
import KnowTheQuote.Properties.PlaySteps

/-!
# Know the Quote — a play from the first quote to the results

Three objects advance with each tap: the cursor and the dictionary in
`QuizController`, the quote and the score in the view controller, and the results
table, which reads both. `Playing` relates them to one list, the selections made so
far: selection number `i` is the one for quote number `i`.

* `Playing.step`, `playing_run` — a tap appends its selection until all quotes have one.
* `play_covers_quiz` — every quote is shown once, recorded once and scored exactly.
-/

namespace KnowTheQuote

open Machine

/-- Quote `r` has a text and five options, as the editor stores them. -/
def Context.FiveOptions (c : Context) (r : ObjectID) : Prop :=
  ∃ q first second options, c.quotes.get? r = some q ∧
    QuoteViewController.Displayable q first second options ∧ options.length = 5

namespace PlayState

-- ---------------------------------------------------------------------------
-- Selections
-- ---------------------------------------------------------------------------

/-- What a tap selects: nothing when no quote is on screen. -/
def selection (s : PlayState) (t : Tap) : Option SelectedOption := do
  let _ ← s.view.quote
  let title ← s.tappedTitle t
  return ⟨title, s.isAnswer (some title)⟩

/-- What a sequence of taps selects. -/
def selected : PlayState → List Tap → List SelectedOption
  | _, [] => []
  | s, t :: taps => (s.selection t).toList ++ selected (s.step t) taps

/-- Number of taps on the answer of the quote then shown. -/
def correctTaps : PlayState → List Tap → Nat
  | _, [] => 0
  | s, t :: taps =>
    (if s.shownAnswer.isSome ∧ s.isAnswer (s.tappedTitle t) then 1 else 0) +
      correctTaps (s.step t) taps

/-- The taps on the answer are the correct selections. -/
theorem correctTaps_eq (s : PlayState) (taps : List Tap) :
    s.correctTaps taps = (s.selected taps).countP (·.isCorrect) := by
  induction taps generalizing s with
  | nil => rfl
  | cons t taps ih =>
    rw [correctTaps, selected, List.countP_append, ih]
    congr 1
    cases hquote : s.view.quote with
    | none => simp [selection, shownAnswer, hquote]
    | some r =>
      cases htitle : s.tappedTitle t with
      | none =>
        cases hanswer : s.shownAnswer <;>
          simp [selection, hquote, htitle, isAnswer, hanswer, StringEquality.optional]
      | some title =>
        cases hanswer : s.shownAnswer with
        | none =>
          simp [selection, hquote, htitle, isAnswer, hanswer, StringEquality.optional]
        | some answer =>
          by_cases heq : s.isAnswer (some title) <;> simp [selection, hquote, htitle, heq]

theorem selected_append (s : PlayState) (taps more : List Tap) :
    s.selected (taps ++ more) = s.selected taps ++ (run step s taps).selected more := by
  induction taps generalizing s with
  | nil => rfl
  | cons t taps ih => simp [selected, ih]

-- ---------------------------------------------------------------------------
-- The invariant
-- ---------------------------------------------------------------------------

/-- The play of the quotes `qs`, after the selections `chosen`. -/
structure Playing (s : PlayState) (c : Context) (qs : List ObjectID)
    (chosen : List SelectedOption) : Prop where
  showing : s.Showing qs chosen.length
  context : s.core.world.context = c
  nodup : qs.Nodup
  stored : ∀ r ∈ qs, c.FiveOptions r
  buttons : s.view.titles.length = 5
  titled : ∀ title ∈ s.view.titles, title.isSome
  answers : s.view.score.answers.Holds (qs.zip chosen)
  points : s.view.score.points = chosen.countP (·.isCorrect)
  results : chosen.length = qs.length → s.view.results = some s.view.score

variable {s : PlayState} {c : Context} {qs : List ObjectID} {chosen : List SelectedOption}

theorem zip_append_singleton {α β : Type*} {l : List α} {l' : List β}
    (h : l'.length < l.length) (b : β) :
    l.zip (l' ++ [b]) = l.zip l' ++ [(l[l'.length], b)] := by
  induction l' generalizing l with
  | nil =>
    cases l with
    | nil => cases h
    | cons a l => simp
  | cons b' l' ih =>
    cases l with
    | nil => cases h
    | cons a l =>
      have hlt : l'.length < l.length := by simpa using h
      simp [ih hlt]

/-- The quote on screen has not been selected for. -/
theorem notMem_zip {α β : Type*} {l : List α} {l' : List β} (hnd : l.Nodup)
    (h : l'.length < l.length) : l[l'.length] ∉ (l.zip l').map Prod.fst := by
  have hfst : (l.zip l').map Prod.fst = l.take l'.length := by
    rw [List.zip_eq_zip_take_min, Nat.min_eq_right h.le, List.take_length]
    exact List.map_fst_zip (by simp)
  rw [hfst, List.mem_take_iff_getElem]
  rintro ⟨i, hi, heq⟩
  have hlt : i < l.length := by omega
  have := (hnd.getElem_inj_iff).mp heq
  omega

/-- Displaying a quote with five options puts a title on each of the five buttons. -/
theorem titled_displayQuote {v : QuoteViewController} {r : ObjectID} (hquote : v.quote = some r)
    (hr : c.FiveOptions r) (hbuttons : v.titles.length = 5) (shuffle : Reordering String) :
    ∀ title ∈ (v.displayQuote c shuffle).titles, title.isSome := by
  obtain ⟨q, first, second, options, hget, hdisp, hlen⟩ := hr
  intro title hmem
  have hperm := QuoteViewController.titles_displayQuote_perm hquote hget hdisp
    (hbuttons.trans hlen.symm) shuffle
  obtain ⟨option, -, rfl⟩ := List.mem_map.mp (hperm.mem_iff.mp hmem)
  rfl

/-- Every button has a title, so a tap has one. -/
theorem Playing.tappedTitle (h : s.Playing c qs chosen) (t : Tap) :
    ∃ title, s.tappedTitle t = some title := by
  have hlt : (t.button : Nat) < s.view.titles.length := by
    rw [h.buttons]
    exact t.button.isLt
  obtain ⟨title, htitle⟩ :=
    Option.isSome_iff_exists.mp (h.titled _ (List.getElem_mem hlt))
  exact ⟨title, by rw [PlayState.tappedTitle, List.getElem?_eq_getElem hlt, htitle]; rfl⟩

/-- While a quote is on screen, a tap selects its title for that quote. -/
theorem Playing.selection_of_lt (h : s.Playing c qs chosen) (hlt : chosen.length < qs.length)
    (t : Tap) : ∃ title, s.tappedTitle t = some title ∧ s.view.quote = some qs[chosen.length] ∧
      s.selection t = some ⟨title, s.isAnswer (some title)⟩ := by
  obtain ⟨title, htitle⟩ := h.tappedTitle t
  have hquote : s.view.quote = some qs[chosen.length] := by
    rw [h.showing.shown, List.getElem?_eq_getElem hlt]
  exact ⟨title, htitle, hquote, by simp [selection, hquote, htitle]⟩

/-- After the last quote, a tap selects nothing. -/
theorem Playing.selection_of_length_eq (h : s.Playing c qs chosen)
    (heq : chosen.length = qs.length) (t : Tap) : s.selection t = none := by
  have hquote : s.view.quote = none := by
    rw [h.showing.shown, heq, List.getElem?_eq_none (le_refl _)]
  simp [selection, hquote]

/-- The score once a tap has selected `o` for the quote on screen. -/
theorem Playing.score_scored (h : s.Playing c qs chosen) (hlt : chosen.length < qs.length)
    (t : Tap) {o : SelectedOption} (ho : s.selection t = some o) :
    (s.scored t).score.answers.Holds (qs.zip (chosen ++ [o])) ∧
      (s.scored t).score.points = (chosen ++ [o]).countP (·.isCorrect) := by
  obtain ⟨title, htitle, hquote, hsel⟩ := h.selection_of_lt hlt t
  have hshown : s.shownAnswer =
      (s.core.world.context.quotes.get? qs[chosen.length]).bind Quote.answer := by
    simp [shownAnswer, hquote]
  have hscore : (s.scored t).score =
      { points := s.view.score.points + if o.isCorrect then 1 else 0
        answers := Finmap.insert qs[chosen.length] o s.view.score.answers } := by
    cases ho.symm.trans hsel
    rw [scored, htitle, isAnswer, hshown]
    exact QuoteViewController.score_updateScore_of_some hquote s.core.world title
  rw [hscore]
  refine ⟨?_, ?_⟩
  · rw [zip_append_singleton hlt]
    exact h.answers.insert (notMem_zip h.nodup hlt) _
  · rw [List.countP_append, List.countP_singleton]
    simp only [h.points]
    split <;> simp_all

/-- **One tap** records what it selects, under the quote then shown, and scores it. -/
theorem Playing.step (h : s.Playing c qs chosen) (t : Tap) :
    (s.step t).Playing c qs (chosen ++ (s.selection t).toList) := by
  have hview := QuoteViewController.updateScore_eq s.view s.core.world (s.tappedTitle t)
  have hshowing := h.showing.step t
  have hlen := h.showing.le
  rcases Nat.lt_or_ge chosen.length qs.length with hlt | hge
  · -- a quote is on screen
    obtain ⟨title, -, -, hsel⟩ := h.selection_of_lt hlt t
    obtain ⟨hanswers, hpoints⟩ := h.score_scored hlt t hsel
    have hlen' : (chosen ++ (s.selection t).toList).length =
        min (chosen.length + 1) qs.length := by
      rw [hsel]
      simp
      omega
    rw [← hlen'] at hshowing
    rw [hsel] at hshowing hlen' ⊢
    have hbuttons : (s.scored t).titles.length = 5 := by
      rw [scored, hview]
      exact h.buttons
    rcases Nat.lt_or_ge (chosen.length + 1) qs.length with hnext | hlast
    · -- and another one follows
      have heq := step_of_next (h.showing.next hnext) t
      rw [heq] at hshowing ⊢
      refine ⟨hshowing, h.context, h.nodup, h.stored, ?_, ?_, ?_, ?_, fun hfull => ?_⟩
      · exact (QuoteViewController.length_titles_displayQuote _ _ _).trans hbuttons
      · exact titled_displayQuote
          (v := { s.scored t with quote := some qs[chosen.length + 1] }) rfl
          (h.context ▸ h.stored _ (List.getElem_mem hnext)) hbuttons _
      · rw [QuoteViewController.displayQuote_eq]
        exact hanswers
      · rw [QuoteViewController.displayQuote_eq]
        exact hpoints
      · simp at hfull
        omega
    · -- and it was the last one
      have heq := step_of_end (h.showing.end hlast) t
      rw [heq] at hshowing ⊢
      refine ⟨hshowing, h.context, h.nodup, h.stored, hbuttons, ?_, hanswers, hpoints,
        fun _ => rfl⟩
      show ∀ title ∈ (s.scored t).titles, _
      rw [scored, hview]
      exact h.titled
  · -- the results have been shown
    have hend : chosen.length = qs.length := le_antisymm hlen hge
    have hquote : s.view.quote = none := by
      rw [h.showing.shown, hend, List.getElem?_eq_none (le_refl _)]
    have hscore : (s.scored t).score = s.view.score :=
      QuoteViewController.score_updateScore_of_none hquote _ _
    have heq := step_of_end (h.showing.end (by omega)) t
    have hmin : min (chosen.length + 1) qs.length = chosen.length := by omega
    rw [hmin] at hshowing
    rw [h.selection_of_length_eq hend, Option.toList_none, List.append_nil]
    rw [heq] at hshowing ⊢
    refine ⟨hshowing, h.context, h.nodup, h.stored, ?_, ?_, ?_, ?_, fun _ => rfl⟩
    · show (s.scored t).titles.length = 5
      rw [scored, hview]
      exact h.buttons
    · show ∀ title ∈ (s.scored t).titles, _
      rw [scored, hview]
      exact h.titled
    · show (s.scored t).score.answers.Holds _
      rw [hscore]
      exact h.answers
    · show (s.scored t).score.points = _
      rw [hscore]
      exact h.points

/-- A tap performs the segue from the last quote on. -/
theorem Playing.segues_step (h : s.Playing c qs chosen) (t : Tap) :
    (s.step t).view.segues =
      s.view.segues + if qs.length ≤ chosen.length + 1 then 1 else 0 := by
  have hview := QuoteViewController.updateScore_eq s.view s.core.world (s.tappedTitle t)
  split
  · next hle =>
    rw [step_of_end (h.showing.end hle)]
    show (s.scored t).segues + 1 = _
    rw [scored, hview]
  · next hlt =>
    rw [step_of_next (h.showing.next (by omega)), QuoteViewController.displayQuote_eq]
    show (s.scored t).segues = _
    rw [scored, hview]
    rfl

/-- After the results, a tap does not touch the score. -/
theorem Playing.score_step (h : s.Playing c qs chosen) (hend : chosen.length = qs.length)
    (t : Tap) : (s.step t).view.score = s.view.score := by
  have hquote : s.view.quote = none := by
    rw [h.showing.shown, hend, List.getElem?_eq_none (le_refl _)]
  rw [step_of_end (h.showing.end (by omega))]
  exact QuoteViewController.score_updateScore_of_none hquote _ _

-- ---------------------------------------------------------------------------
-- Runs
-- ---------------------------------------------------------------------------

/-- Any number of taps. -/
theorem playing_run (h : s.Playing c qs chosen) (taps : List Tap) :
    (run step s taps).Playing c qs (chosen ++ s.selected taps) := by
  induction taps generalizing s chosen with
  | nil => simpa [selected] using h
  | cons t taps ih =>
    have hrest := ih (h.step t)
    rwa [List.append_assoc] at hrest

/-- Every tap selects, until each quote has a selection. -/
theorem Playing.length_selected (h : s.Playing c qs chosen) (taps : List Tap) :
    (s.selected taps).length = min taps.length (qs.length - chosen.length) := by
  induction taps generalizing s chosen with
  | nil => simp [selected]
  | cons t taps ih =>
    have hle := h.showing.le
    have hrest := ih (h.step t)
    rw [selected, List.length_append, hrest, List.length_append, List.length_cons]
    rcases Nat.lt_or_ge chosen.length qs.length with hlt | hge
    · obtain ⟨title, -, -, hsel⟩ := h.selection_of_lt hlt t
      rw [hsel]
      simp
      omega
    · rw [h.selection_of_length_eq (le_antisymm hle hge)]
      simp
      omega

theorem Playing.segues_run (h : s.Playing c qs chosen) (taps : List Tap) :
    (run PlayState.step s taps).view.segues + (chosen.length + 1 - qs.length) =
      s.view.segues + (chosen.length + taps.length + 1 - qs.length) := by
  induction taps generalizing s chosen with
  | nil => rfl
  | cons t taps ih =>
    have hle := h.showing.le
    have hrest := ih (h.step t)
    rw [h.segues_step t] at hrest
    rw [run_cons, List.length_cons]
    rcases Nat.lt_or_ge chosen.length qs.length with hlt | hge
    · obtain ⟨title, -, -, hsel⟩ := h.selection_of_lt hlt t
      rw [hsel] at hrest
      simp only [Option.toList_some, List.length_append, List.length_singleton] at hrest
      split at hrest <;> omega
    · rw [h.selection_of_length_eq (le_antisymm hle hge)] at hrest
      simp only [Option.toList_none, List.append_nil] at hrest
      split at hrest <;> omega

/-- The play of a quiz opens with its first quote and no selections. -/
theorem playing_viewDidLoad (core : Core) {quiz : ObjectID} {order : Reordering ObjectID}
    (hne : core.world.context.storedQuotes quiz ≠ [])
    (hstored : ∀ r ∈ core.world.context.storedQuotes quiz, core.world.context.FiveOptions r)
    (shuffle : Reordering String) :
    (viewDidLoad core quiz (some order) shuffle).Playing core.world.context
      (core.world.context.foundQuotes quiz (some order)) [] := by
  set c := core.world.context
  have hmem : ∀ r, r ∈ c.foundQuotes quiz (some order) ↔ r ∈ c.storedQuotes quiz :=
    order.mem_apply _
  have hne' : c.foundQuotes quiz (some order) ≠ [] := by
    intro hnil
    exact hne (List.perm_nil.mp (hnil ▸ (order.perm _).symm))
  have hshowing := showing_viewDidLoad core hne' shuffle
  have hfirst := hshowing.shown
  obtain ⟨r, hr⟩ := List.exists_mem_of_ne_nil _ hne'
  have hpos : 0 < (c.foundQuotes quiz (some order)).length := List.length_pos_of_mem hr
  have hfirst : (core.quizController.setupStart c quiz (some order)).2 =
      some (c.foundQuotes quiz (some order))[0] := by
    rw [QuizController.setupStart_snd, List.getElem?_eq_getElem hpos]
  refine ⟨hshowing, rfl, nodup_foundQuotes _ _ _, fun r hr => hstored r ((hmem r).mp hr), ?_, ?_,
    ?_, ?_, ?_⟩
  · exact QuoteViewController.length_titles_displayQuote _ _ _
  · exact titled_displayQuote hfirst (hstored _ ((hmem _).mp (List.getElem_mem hpos))) rfl _
  · rw [List.zip_nil_right]
    show ((_ : QuoteViewController).displayQuote _ _).score.answers.Holds _
    rw [QuoteViewController.displayQuote_eq]
    exact Dict.holds_empty
  · show ((_ : QuoteViewController).displayQuote _ _).score.points = _
    rw [QuoteViewController.displayQuote_eq]
    rfl
  · intro hzero
    rw [List.length_nil] at hzero
    omega

/-- After the results, no number of taps touches the score. -/
theorem Playing.score_run (h : s.Playing c qs chosen) (hend : chosen.length = qs.length)
    (taps : List Tap) : (run PlayState.step s taps).view.score = s.view.score := by
  induction taps generalizing s with
  | nil => rfl
  | cons t taps ih =>
    have hnext := h.step t
    rw [h.selection_of_length_eq hend, Option.toList_none, List.append_nil] at hnext
    rw [run_cons, ih hnext, h.score_step hend]

-- ---------------------------------------------------------------------------
-- The results
-- ---------------------------------------------------------------------------

/-- Selection number `i` is recorded under quote number `i`. -/
theorem Playing.lookup_answers (h : s.Playing c qs chosen) {i : Nat} (hi : i < qs.length)
    (hi' : i < chosen.length) : s.view.score.answers.lookup qs[i] = some chosen[i] := by
  have hzip : i < (qs.zip chosen).length := by
    rw [List.length_zip]
    omega
  refine (h.answers.entry _ _).mpr ?_
  rw [← List.getElem_zip (h := hzip)]
  exact List.getElem_mem hzip

/-- Once every quote has its selection, exactly the quotes have an entry. -/
theorem Playing.mem_answers (h : s.Playing c qs chosen) (hend : chosen.length = qs.length)
    (r : ObjectID) : r ∈ s.view.score.answers ↔ r ∈ qs := by
  rw [h.answers.mem_iff, List.map_fst_zip hend.ge]

theorem Playing.count_answers (h : s.Playing c qs chosen) (hend : chosen.length = qs.length) :
    s.view.score.answers.count = qs.length := by
  rw [h.answers.count, List.length_zip, hend, Nat.min_self]

/-- The points are the number of correct entries. -/
theorem Playing.points_eq_countValues (h : s.Playing c qs chosen) :
    s.view.score.points = s.view.score.answers.countValues (·.isCorrect) := by
  rw [h.points, h.answers.countValues]
  have hsnd : (qs.zip chosen).map Prod.snd = chosen := List.map_snd_zip h.showing.le
  conv_lhs => rw [← hsnd, List.countP_map]
  rfl

/-- Row `i` of the results is quote `i + 1` of the dictionary with its selection. -/
theorem Playing.cellForRowAt (h : s.Playing c qs chosen) (hend : chosen.length = qs.length)
    {i : Nat} (hi : i < qs.length) (cell : QuoteResultTableViewCell) :
    ∃ r q first second o,
      s.core.quizController.quotes.lookup ((i : Int) + 1) = some r ∧
      c.quotes.get? r = some q ∧ q.firstPart = some first ∧ q.secondPart = some second ∧
      s.view.score.answers.lookup r = some o ∧
      let row := s.resultsTable.cellForRowAt i cell
      row.quote = some r ∧ row.quoteLabel = some (gapText first second) ∧
      row.answerChosenLabel = some o.selection ∧
      row.backgroundColor = some (if o.isCorrect then correctColour else incorrectColour) := by
  obtain ⟨q, first, second, options, hget, hdisp, -⟩ := h.stored _ (List.getElem_mem hi)
  have hkey := h.showing.numbers.lookup_succ i
  rw [List.getElem?_eq_getElem hi] at hkey
  have hi' : i < chosen.length := hend ▸ hi
  have hlookup := h.lookup_answers hi hi'
  refine ⟨qs[i], q, first, second, _, hkey, hget, hdisp.firstPart, hdisp.secondPart, hlookup, ?_⟩
  have hcell : s.resultsTable.cellForRowAt i cell =
      { cell with
        score := some s.view.score
        quote := some qs[i]
        quoteLabel := some (gapText first second)
        answerChosenLabel := some chosen[i].selection
        backgroundColor := some (if chosen[i].isCorrect then correctColour
          else incorrectColour) } := by
    simp [resultsTable, QuizResultTableViewController.cellForRowAt,
      QuoteResultTableViewCell.updateCell, h.results hend, hkey, h.context, hget,
      hdisp.firstPart, hdisp.secondPart, hlookup]
  rw [hcell]
  exact ⟨rfl, rfl, rfl, rfl⟩

/-- Selection number `i` is what tap number `i` selected. -/
theorem Playing.selected_getElem? (h : s.Playing c qs []) {taps : List Tap} {i : Nat} {t : Tap}
    (hi : i < qs.length) (ht : taps[i]? = some t) :
    (s.selected taps)[i]? = (run PlayState.step s (taps.take i)).selection t := by
  obtain ⟨hlt, rfl⟩ := List.getElem?_eq_some_iff.mp ht
  have hlen : (s.selected (taps.take i)).length = i := by
    rw [h.length_selected, List.length_take, List.length_nil]
    omega
  have hbefore := playing_run h (taps.take i)
  rw [List.nil_append] at hbefore
  obtain ⟨title, -, -, hsel⟩ := hbefore.selection_of_lt (by omega) taps[i]
  conv_lhs => rw [← List.take_append_drop i taps, List.drop_eq_getElem_cons hlt]
  rw [selected_append, List.getElem?_append_right hlen.le, hlen, Nat.sub_self, selected, hsel]
  rfl

/-- After a full play, the quote shown before tap number `i` is answered with the title
tapped for it. -/
theorem Playing.answered (h : s.Playing c qs []) {taps : List Tap}
    (hfull : qs.length ≤ taps.length) {i : Nat} {t : Tap} (hi : i < qs.length)
    (ht : taps[i]? = some t) :
    ∃ r title, (run PlayState.step s (taps.take i)).view.quote = some r ∧
      (run PlayState.step s (taps.take i)).tappedTitle t = some title ∧
      (run PlayState.step s taps).view.score.answers.lookup r =
        some ⟨title, (run PlayState.step s (taps.take i)).isAnswer (some title)⟩ := by
  have hlen : (s.selected taps).length = qs.length := by
    rw [h.length_selected, List.length_nil]
    omega
  have hlenBefore : (s.selected (taps.take i)).length = i := by
    rw [h.length_selected, List.length_take, List.length_nil]
    omega
  have hi' : i < (s.selected taps).length := by omega
  obtain ⟨title, htitle, hquote, hsel⟩ :=
    (playing_run h (taps.take i)).selection_of_lt (by rw [List.nil_append]; omega) t
  -- what the tap selects is entry number `i` of the selections
  have hchosen := h.selected_getElem? hi ht
  rw [hsel, List.getElem?_eq_getElem hi'] at hchosen
  refine ⟨qs[i], title, ?_, htitle, ?_⟩
  · simpa only [List.nil_append, hlenBefore] using hquote
  · rw [← Option.some.inj hchosen]
    exact (playing_run h taps).lookup_answers hi hi'

/-- Further taps show the same results again. -/
theorem Playing.after_end (h : s.Playing c qs chosen) (hend : chosen.length = qs.length)
    (more : List Tap) :
    (run PlayState.step s more).view.score = s.view.score ∧
      (run PlayState.step s more).view.results = some s.view.score ∧
      (run PlayState.step s more).view.segues = s.view.segues + more.length := by
  have hnone : s.selected more = [] := by
    rw [← List.length_eq_zero_iff, h.length_selected]
    omega
  have hafter := playing_run h more
  rw [hnone, List.append_nil] at hafter
  have hscore := h.score_run hend more
  have hsegues := h.segues_run more
  refine ⟨hscore, ?_, by omega⟩
  rw [hafter.results hend, hscore]

end PlayState

/-- **A play covers the quiz exactly once and scores it exactly.** Take a quiz whose
stored quotes are not empty and have five options each, a fetch that returns them in
any order, any shuffles and any taps, and let `n` be their number. The quotes shown
before the first `n` taps are the quotes of the quiz, each once. The results are shown
by tap `n` and every later one. From then on the score has one entry per quote, with
the title tapped for it, its points are the correct entries and the taps on the answer
then shown, the results table lists the quotes with their selections, and further taps
show nothing but show the results again. -/
theorem play_covers_quiz {core : Core} {quiz : ObjectID} {id : UUID}
    (hid : core.world.context.quizID quiz = some id)
    (hne : core.world.context.fetchQuotes (some id.uuidString) ≠ [])
    (hstored : ∀ r ∈ core.world.context.fetchQuotes (some id.uuidString),
      core.world.context.FiveOptions r)
    (order : Reordering ObjectID) (shuffle : Reordering String) (taps : List Tap) :
    let c := core.world.context
    let stored := c.fetchQuotes (some id.uuidString)
    let n := stored.length
    let start := PlayState.viewDidLoad core quiz (some order) shuffle
    let s := run PlayState.step start taps
    let answers := s.view.score.answers
    (∃ qs : List ObjectID, qs.Perm stored ∧ ∀ i, i < n → i ≤ taps.length →
      (run PlayState.step start (taps.take i)).view.quote = qs[i]?) ∧
    s.view.segues = taps.length + 1 - n ∧
    (n ≤ taps.length →
      s.view.results = some s.view.score ∧
      answers.count = n ∧ (∀ r, r ∈ answers ↔ r ∈ stored) ∧
      (∀ i t, i < n → taps[i]? = some t →
        let before := run PlayState.step start (taps.take i)
        ∃ r title, before.view.quote = some r ∧ before.tappedTitle t = some title ∧
          answers.lookup r = some ⟨title, before.isAnswer (some title)⟩) ∧
      s.view.score.points = answers.countValues (·.isCorrect) ∧
      s.view.score.points = start.correctTaps taps ∧
      s.resultsTable.numberOfRowsInSection = n ∧
      (∀ i < n, ∀ cell : QuoteResultTableViewCell, ∃ r q first second o,
        s.core.quizController.quotes.lookup ((i : Int) + 1) = some r ∧
        c.quotes.get? r = some q ∧ q.firstPart = some first ∧ q.secondPart = some second ∧
        answers.lookup r = some o ∧
        let row := s.resultsTable.cellForRowAt i cell
        row.quote = some r ∧ row.quoteLabel = some (gapText first second) ∧
        row.answerChosenLabel = some o.selection ∧
        row.backgroundColor = some (if o.isCorrect then correctColour else incorrectColour)) ∧
      ∀ more : List Tap,
        let s' := run PlayState.step s more
        s'.view.score = s.view.score ∧ s'.view.results = some s.view.score ∧
        s'.view.segues = s.view.segues + more.length) := by
  intro c stored n start s answers
  have hstoredQuotes : c.storedQuotes quiz = stored := by
    simp only [Context.storedQuotes, c, hid, stored, Option.map_some]
  set qs := c.foundQuotes quiz (some order) with hqs
  have hperm : qs.Perm stored := hstoredQuotes ▸ order.perm _
  have hlen : qs.length = n := hperm.length_eq
  have hpos : 0 < qs.length := hlen ▸ List.length_pos_iff.mpr hne
  have hstart : start.Playing c qs [] :=
    PlayState.playing_viewDidLoad core (hstoredQuotes ▸ hne)
      (fun r hr => hstored r (by rwa [hstoredQuotes] at hr)) shuffle
  have hs : s.Playing c qs (start.selected taps) := PlayState.playing_run hstart taps
  have hselected := hstart.length_selected taps
  have hsegues := hstart.segues_run taps
  have hzero : start.view.segues = 0 := by
    show ((_ : QuoteViewController).displayQuote _ _).segues = 0
    rw [QuoteViewController.displayQuote_eq]
    rfl
  simp only [List.length_nil, Nat.sub_zero, Nat.zero_add] at hselected hsegues
  refine ⟨⟨qs, hperm, ?_⟩, ?_, ?_⟩
  · intro i hi hile
    have hbefore := PlayState.playing_run hstart (taps.take i)
    have hshown := hbefore.showing.shown
    rwa [List.nil_append, hstart.length_selected, List.length_take, List.length_nil,
      show min (min i taps.length) (qs.length - 0) = i by omega] at hshown
  · show (run PlayState.step start taps).view.segues = _
    omega
  · intro hfull
    have hend : (start.selected taps).length = qs.length := by omega
    refine ⟨hs.results hend, hlen ▸ hs.count_answers hend,
      fun r => (hs.mem_answers hend r).trans hperm.mem_iff,
      fun i t hi ht => hstart.answered (hlen ▸ hfull) (hlen ▸ hi) ht,
      hs.points_eq_countValues, ?_, ?_, fun i hi cell => hs.cellForRowAt hend (hlen ▸ hi) cell,
      fun more => hs.after_end hend more⟩
    · rw [PlayState.correctTaps_eq]
      exact hs.points
    · show (s.view.results.map fun score => score.answers.count).getD 0 = n
      rw [hs.results hend]
      exact hlen ▸ hs.count_answers hend

/-- A play of a quiz with two quotes: three taps, the first one on the answer, which the pop
loop puts on the first button when the options keep their order. -/
theorem play_covers_twoQuotes :
    let s := run PlayState.step
      (PlayState.viewDidLoad App.afterTwoQuotes.core 0 (some .asIs) .asIs)
      [⟨0, .asIs⟩, ⟨1, .asIs⟩, ⟨2, .asIs⟩]
    s.view.segues = 2 ∧ s.view.score.points = 1 ∧ s.resultsTable.numberOfRowsInSection = 2 := by
  have hid : App.afterTwoQuotes.core.world.context.quizID 0 = some ⟨"1"⟩ := by decide
  have hfetch : App.afterTwoQuotes.core.world.context.fetchQuotes (some "1") = [0, 1] := by decide
  have hne : App.afterTwoQuotes.core.world.context.fetchQuotes (some "1") ≠ [] := by
    rw [hfetch]
    simp
  have hstored : ∀ r ∈ App.afterTwoQuotes.core.world.context.fetchQuotes (some "1"),
      App.afterTwoQuotes.core.world.context.FiveOptions r := by
    rw [hfetch]
    intro r hr
    rcases List.mem_pair.mp hr with rfl | rfl
    · exact ⟨_, _, _, _, rfl, ⟨rfl, rfl, rfl⟩, rfl⟩
    · exact ⟨_, _, _, _, rfl, ⟨rfl, rfl, rfl⟩, rfl⟩
  obtain ⟨-, hsegues, hend⟩ := play_covers_quiz hid hne hstored .asIs .asIs
    [⟨0, .asIs⟩, ⟨1, .asIs⟩, ⟨2, .asIs⟩]
  rw [hfetch] at hsegues hend
  obtain ⟨-, -, -, -, -, hpoints, hrows, -, -⟩ := hend (by decide)
  exact ⟨hsegues, hpoints.trans (by decide), hrows⟩

end KnowTheQuote
