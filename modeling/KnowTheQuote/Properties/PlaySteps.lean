import KnowTheQuote.Properties.Cache
import KnowTheQuote.Model.Play

/-!
# Know the Quote — what a play shows

The loop of `displayQuote` pops the shuffled options off the end, so with as many
buttons as options the buttons carry the options in reverse.
-/

namespace KnowTheQuote

-- ---------------------------------------------------------------------------
-- The buttons
-- ---------------------------------------------------------------------------

@[simp] theorem length_setTitles (titles : List (Option String)) (options : List String) :
    (setTitles titles options).length = titles.length := by
  induction titles generalizing options with
  | nil => rfl
  | cons _ titles ih => simp [setTitles, ih]

/-- The pop loop over as many buttons as there are options. -/
theorem setTitles_of_length {titles : List (Option String)} {options : List String}
    (h : titles.length = options.length) :
    setTitles titles options = options.reverse.map some := by
  induction titles generalizing options with
  | nil =>
    rw [List.length_nil] at h
    rw [List.length_eq_zero_iff.mp h.symm]
    rfl
  | cons _ titles ih =>
    have hne : options ≠ [] := by
      rintro rfl
      cases h
    have hrest : titles.length = options.dropLast.length := by
      rw [List.length_dropLast, ← h]
      simp
    rw [setTitles, ih hrest, ← List.head?_reverse, ← List.tail_reverse]
    obtain ⟨last, init, hrev⟩ := List.exists_cons_of_ne_nil (List.reverse_ne_nil_iff.mpr hne)
    simp [hrev]

namespace QuoteViewController

variable (v : QuoteViewController)

/-- `displayQuote` writes the label and the titles only. -/
theorem displayQuote_eq (c : Context) (shuffle : Reordering String) :
    v.displayQuote c shuffle = { v with
      quoteLabel := (v.displayQuote c shuffle).quoteLabel
      titles := (v.displayQuote c shuffle).titles } := by
  unfold displayQuote
  dsimp only
  split <;> rfl

@[simp] theorem length_titles_displayQuote (c : Context) (shuffle : Reordering String) :
    (v.displayQuote c shuffle).titles.length = v.titles.length := by
  unfold displayQuote
  dsimp only
  split <;> simp

/-- What `displayQuote` needs of a quote. -/
structure Displayable (q : Quote) (first second : String) (options : List String) : Prop where
  firstPart : q.firstPart = some first
  secondPart : q.secondPart = some second
  allOptions : q.allOptions = some options

variable {v}

theorem titles_displayQuote {c : Context} {r : ObjectID} {q : Quote} {first second : String}
    {options : List String} (hquote : v.quote = some r) (hget : c.quotes.get? r = some q)
    (hq : Displayable q first second options) (shuffle : Reordering String) :
    (v.displayQuote c shuffle).titles = setTitles v.titles (shuffle.apply options) := by
  simp [displayQuote, hquote, hget, hq.firstPart, hq.secondPart, hq.allOptions]

/-- **Buttons.** With one button per option, the titles are the options in some order,
whatever they were before. -/
theorem titles_displayQuote_perm {c : Context} {r : ObjectID} {q : Quote}
    {first second : String} {options : List String} (hquote : v.quote = some r)
    (hget : c.quotes.get? r = some q) (hq : Displayable q first second options)
    (hlen : v.titles.length = options.length) (shuffle : Reordering String) :
    (v.displayQuote c shuffle).titles.Perm (options.map some) := by
  have hlen' : v.titles.length = (shuffle.apply options).length := by
    rw [hlen, shuffle.length_apply]
  rw [titles_displayQuote hquote hget hq, setTitles_of_length hlen']
  exact ((List.reverse_perm _).trans (shuffle.perm options)).map some

/-- Without a quote nothing is displayed. -/
theorem displayQuote_of_none (h : v.quote = none) (c : Context) (shuffle : Reordering String) :
    v.displayQuote c shuffle = v := by
  simp [displayQuote, h]

/-- `updateScore` writes the score only. -/
theorem updateScore_eq (v : QuoteViewController) (w : World) (title : Option String) :
    v.updateScore w title = { v with score := (v.updateScore w title).score } := by
  unfold updateScore
  split
  · split <;> rfl
  · rfl

theorem score_updateScore_of_none (h : v.quote = none) (w : World) (title : Option String) :
    (v.updateScore w title).score = v.score := by
  simp [updateScore, h]

/-- A selection is recorded under its quote, and counts when it is correct. -/
theorem score_updateScore_of_some {r : ObjectID} (h : v.quote = some r) (w : World)
    (title : String) :
    let o : SelectedOption :=
      ⟨title, w.strings.optional (some title) ((w.context.quotes.get? r).bind Quote.answer)⟩
    (v.updateScore w (some title)).score =
      { points := v.score.points + if o.isCorrect then 1 else 0
        answers := Finmap.insert r o v.score.answers } := by
  simp only [updateScore, h]
  split
  · next heq => simp [heq]
  · next hne => simp [hne]

end QuoteViewController

-- ---------------------------------------------------------------------------
-- One tap
-- ---------------------------------------------------------------------------

namespace PlayState

variable (s : PlayState)

/-- The title of the tapped button. -/
def tappedTitle (t : Tap) : Option String := (s.view.titles[(t.button : Nat)]?).join

/-- The answer of the quote on screen. -/
def shownAnswer : Option String :=
  s.view.quote.bind fun r => (s.core.world.context.quotes.get? r).bind Quote.answer

/-- The title is equal to that answer. -/
def isAnswer (title : Option String) : Bool := s.core.world.strings.optional title s.shownAnswer

/-- The view once the tap has been scored. -/
def scored (t : Tap) : QuoteViewController :=
  s.view.updateScore s.core.world (s.tappedTitle t)

variable {s}

/-- A tap that shows another quote. -/
theorem step_of_next {q : QuizController} {r : ObjectID}
    (h : s.core.quizController.nextQuoteToDisplay = (q, some r)) (t : Tap) :
    s.step t =
      { view := (({ s.scored t with quote := some r } : QuoteViewController).displayQuote
          s.core.world.context t.shuffle).updateProgressBar q false
        core := { s.core with quizController := q } } := by
  have hquote : (({ s.scored t with quote := some r } : QuoteViewController).displayQuote
      s.core.world.context t.shuffle).quote = some r := by
    rw [QuoteViewController.displayQuote_eq]
  unfold step processSelection
  rw [h]
  simp only [displayQuote]
  exact if_neg fun hnone => Option.some_ne_none r (hquote.symm.trans hnone)

/-- A tap that shows the results. -/
theorem step_of_end {q : QuizController}
    (h : s.core.quizController.nextQuoteToDisplay = (q, none)) (t : Tap) :
    s.step t =
      { view := (({ s.scored t with quote := none } : QuoteViewController).updateProgressBar
          q true).showResults
        core := { s.core with quizController := q } } := by
  have hdisp := QuoteViewController.displayQuote_of_none
    (v := { s.scored t with quote := none }) rfl s.core.world.context t.shuffle
  unfold step processSelection
  rw [h]
  simp only [displayQuote]
  refine (if_pos ?_).trans ?_
  · exact congrArg QuoteViewController.quote hdisp
  · exact congrArg (fun v => (⟨(v.updateProgressBar q true).showResults,
      { s.core with quizController := q }⟩ : PlayState)) hdisp

/-- A play leaves the surroundings as they are. -/
theorem world_step (s : PlayState) (t : Tap) : (s.step t).core.world = s.core.world := by
  rcases hnext : s.core.quizController.nextQuoteToDisplay with ⟨q, _ | r⟩
  · rw [step_of_end hnext]
  · rw [step_of_next hnext]

/-- Quote number `k`, counted from 0, of `qs` is on screen; past the last one, none is. -/
structure Showing (s : PlayState) (qs : List ObjectID) (k : Nat) : Prop where
  numbers : s.core.quizController.quotes.Numbers qs
  shown : s.view.quote = qs[k]?
  le : k ≤ qs.length
  cursor : s.core.quizController.currentQuote = min ((k : Int) + 1) qs.length

/-- Before the last quote, a tap shows the next one. -/
theorem Showing.next {qs : List ObjectID} {k : Nat} (h : s.Showing qs k)
    (hlt : k + 1 < qs.length) :
    s.core.quizController.nextQuoteToDisplay =
      ({ s.core.quizController with currentQuote := (k : Int) + 2 }, some qs[k + 1]) := by
  have hcur : s.core.quizController.currentQuote = (k : Int) + 1 := by
    rw [h.cursor]
    omega
  have hcount := h.numbers.count
  have hkey := h.numbers.lookup_succ (k + 1)
  rw [QuizController.nextQuoteToDisplay_of_lt (by omega), hcur]
  rw [List.getElem?_eq_getElem hlt] at hkey
  congr 1

/-- From the last quote on, a tap shows the results. -/
theorem Showing.end {qs : List ObjectID} {k : Nat} (h : s.Showing qs k)
    (hle : qs.length ≤ k + 1) :
    s.core.quizController.nextQuoteToDisplay = (s.core.quizController, none) := by
  have hcount := h.numbers.count
  have hcur := h.cursor
  exact QuizController.nextQuoteToDisplay_of_le (by omega)

/-- **One tap**, on any button. -/
theorem Showing.step {qs : List ObjectID} {k : Nat} (h : s.Showing qs k) (t : Tap) :
    (s.step t).Showing qs (min (k + 1) qs.length) := by
  have hle := h.le
  have hcur := h.cursor
  rcases Nat.lt_or_ge (k + 1) qs.length with hlt | hge
  · rw [step_of_next (h.next hlt), Nat.min_eq_left (Nat.le_of_lt hlt)]
    refine ⟨h.numbers, ?_, hlt.le, ?_⟩
    · rw [QuoteViewController.displayQuote_eq, List.getElem?_eq_getElem hlt]
      rfl
    · dsimp only
      omega
  · rw [step_of_end (h.end hge), Nat.min_eq_right hge]
    refine ⟨h.numbers, by rw [List.getElem?_eq_none (le_refl _)]; rfl, le_refl _, ?_⟩
    dsimp only
    omega

/-- Opening a quiz with at least one quote shows the first one. -/
theorem showing_viewDidLoad (core : Core) {quiz : ObjectID} {fetch : FetchOutcome}
    (hne : core.world.context.foundQuotes quiz fetch ≠ []) (shuffle : Reordering String) :
    (viewDidLoad core quiz fetch shuffle).Showing
      (core.world.context.foundQuotes quiz fetch) 0 := by
  have hpos : 0 < (core.world.context.foundQuotes quiz fetch).length :=
    List.length_pos_iff.mpr hne
  refine ⟨core.quizController.setupStart_numbers _ quiz fetch, ?_, Nat.zero_le _, ?_⟩
  · show ((_ : QuoteViewController).displayQuote _ _).quote = _
    rw [QuoteViewController.displayQuote_eq]
    exact core.quizController.setupStart_snd _ quiz fetch
  · show (core.quizController.setupStart _ quiz fetch).1.currentQuote = _
    rw [QuizController.currentQuote_setupStart]
    omega

end PlayState

end KnowTheQuote
