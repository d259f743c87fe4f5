import Mathlib.Data.Rat.Defs
import KnowTheQuote.Model.LogIn

/-!
# Know the Quote — playing a quiz

`QuoteViewController`, the results table `QuizResultTableViewController` with its
cells, and the list `QuizzesTableViewController` a quiz is picked from.

The progress bar is set to a quotient of two `Float`s; the model keeps the exact
rational, and `none` for a quotient with denominator zero.
-/

namespace KnowTheQuote

/-- `SelectedOption` -/
structure SelectedOption where
  selection : String
  isCorrect : Bool
deriving DecidableEq, Repr

/-- `Score` -/
structure Score where
  points : Int := 0
  answers : Dict ObjectID SelectedOption := ∅

/-- The text of a quote with its gap, on the label and in the results. -/
def gapText (first second : String) : String := first ++ " _____ " ++ second

/-- The fields of the view controller, its outlets as the storyboard has them, and the score
the last segue to the results took along. -/
structure QuoteViewController where
  quiz : ObjectID
  quote : Option ObjectID := none
  score : Score := {}
  quoteLabel : String := "Quote"
  /-- titles of the five buttons, in the order of `buttons` -/
  titles : List (Option String) :=
    [some "Opt1", some "Opt2", some "Opt3", some "Opt4", some "Opt5"]
  progress : Option ℚ := some (1 / 2)
  results : Option Score := none
  /-- number of segues to the results -/
  segues : Nat := 0

/-- A play and the controllers it works on. -/
structure PlayState where
  view : QuoteViewController
  core : Core

/-- `Float(a) / Float(b)`, when it is a number. -/
def quotient (a b : Int) : Option ℚ := if b = 0 then none else some ((a : ℚ) / b)

/-- The loop over `buttons`: each takes the last option that is left. -/
def setTitles : List (Option String) → List String → List (Option String)
  | [], _ => []
  | _ :: buttons, options => options.getLast? :: setTitles buttons options.dropLast

namespace QuoteViewController

def displayQuote (v : QuoteViewController) (c : Context) (shuffle : Reordering String) :
    QuoteViewController :=
  let shown := do
    let quote ← v.quote.bind c.quotes.get?
    let first ← quote.firstPart
    let second ← quote.secondPart
    let allOptions ← quote.allOptions
    return (first, second, allOptions)
  match shown with
  | none => v
  | some (first, second, allOptions) =>
    { v with
      quoteLabel := gapText first second
      titles := setTitles v.titles (shuffle.apply allOptions) }

def updateProgressBar (v : QuoteViewController) (q : QuizController) (isLast : Bool) :
    QuoteViewController :=
  { v with progress :=
      if isLast then some 1 else quotient (q.currentQuote - 1) q.quotes.count }

/-- `updateScore(sender)`, for the button with the given title. -/
def updateScore (v : QuoteViewController) (w : World) (title : Option String) :
    QuoteViewController :=
  match v.quote, title with
  | some quote, some optSelected =>
    if w.strings.optional (some optSelected) ((w.context.quotes.get? quote).bind Quote.answer) then
      { v with score :=
          { points := v.score.points + 1
            answers := Finmap.insert quote ⟨optSelected, true⟩ v.score.answers } }
    else
      { v with score.answers := Finmap.insert quote ⟨optSelected, false⟩ v.score.answers }
  | _, _ => v

/-- `performSegue(withIdentifier: "ShowQuizResultVCSegue")` -/
def showResults (v : QuoteViewController) : QuoteViewController :=
  { v with results := some v.score, segues := v.segues + 1 }

end QuoteViewController

namespace PlayState

def setupQuiz (s : PlayState) (fetch : FetchOutcome) : PlayState :=
  match s.view.quote with
  | none =>
    let (q, quote) := s.core.quizController.setupStart s.core.world.context s.view.quiz fetch
    { view := { s.view with quote }, core := { s.core with quizController := q } }
  | some _ =>
    let (q, quote) := s.core.quizController.nextQuoteToDisplay
    { view := { s.view with quote := quote.or s.view.quote }
      core := { s.core with quizController := q } }

def displayQuote (s : PlayState) (shuffle : Reordering String) : PlayState :=
  { s with view := s.view.displayQuote s.core.world.context shuffle }

def updateProgressBar (s : PlayState) (isLast : Bool := false) : PlayState :=
  { s with view := s.view.updateProgressBar s.core.quizController isLast }

/-- `viewDidLoad` of a new view controller. -/
def viewDidLoad (core : Core) (quiz : ObjectID) (fetch : FetchOutcome)
    (shuffle : Reordering String) : PlayState :=
  let s : PlayState := { view := { quiz }, core }
  ((s.setupQuiz fetch).displayQuote shuffle).updateProgressBar

/-- `processSelection(sender)`, for button number `button`. -/
def processSelection (s : PlayState) (button : Fin 5) (shuffle : Reordering String) :
    PlayState :=
  let view := s.view.updateScore s.core.world (s.view.titles[(button : Nat)]?.join)
  let (q, quote) := s.core.quizController.nextQuoteToDisplay
  let s : PlayState :=
    { view := { view with quote }, core := { s.core with quizController := q } }
  let s := s.displayQuote shuffle
  if s.view.quote = none then
    let s := s.updateProgressBar true
    { s with view := s.view.showResults }
  else s.updateProgressBar

end PlayState

/-- A tap on an option button, and the outcome of the shuffle that may follow. -/
structure Tap where
  button : Fin 5
  shuffle : Reordering String

/-- One tap. -/
def PlayState.step (s : PlayState) (t : Tap) : PlayState := s.processSelection t.button t.shuffle

-- ---------------------------------------------------------------------------
-- Results
-- ---------------------------------------------------------------------------

/-- A colour of a result cell, its components in 1/255. -/
structure Colour where
  red : Nat
  green : Nat
  blue : Nat
deriving DecidableEq, Repr

def correctColour : Colour := ⟨80, 200, 120⟩
def incorrectColour : Colour := ⟨214, 44, 67⟩

/-- `QuoteResultTableViewCell` -/
structure QuoteResultTableViewCell where
  quote : Option ObjectID := none
  score : Option Score := none
  quoteLabel : Option String := none
  answerChosenLabel : Option String := none
  backgroundColor : Option Colour := none

/-- `updateCell()` -/
def QuoteResultTableViewCell.updateCell (cell : QuoteResultTableViewCell) (c : Context) :
    QuoteResultTableViewCell :=
  let shown := do
    let quote ← cell.quote
    let score ← cell.score
    let q ← c.quotes.get? quote
    let first ← q.firstPart
    let second ← q.secondPart
    let chosenAnswer ← score.answers.lookup quote
    return (first, second, chosenAnswer)
  match shown with
  | none => cell
  | some (first, second, chosenAnswer) =>
    { cell with
      quoteLabel := some (gapText first second)
      answerChosenLabel := some chosenAnswer.selection
      backgroundColor := some (if chosenAnswer.isCorrect then correctColour else incorrectColour) }

/-- `QuizResultTableViewController`, as the segue prepares it. -/
structure QuizResultTableViewController where
  score : Option Score
  core : Core

namespace QuizResultTableViewController

def numberOfRowsInSection (t : QuizResultTableViewController) : Nat :=
  (t.score.map fun s => s.answers.count).getD 0

/-- `tableView(_:cellForRowAt:)`, for a dequeued `cell`. -/
def cellForRowAt (t : QuizResultTableViewController) (row : Nat)
    (cell : QuoteResultTableViewCell) : QuoteResultTableViewCell :=
  { cell with
    score := t.score
    quote := t.core.quizController.quotes.lookup ((row : Int) + 1) }.updateCell
      t.core.world.context

end QuizResultTableViewController

/-- The table the last segue to the results has prepared. -/
def PlayState.resultsTable (s : PlayState) : QuizResultTableViewController :=
  { score := s.view.results, core := s.core }

-- ---------------------------------------------------------------------------
-- The list of quizzes
-- ---------------------------------------------------------------------------

/-- The quizzes `fetchedResultController` finds: all of them. Their order on screen is
that of `fetchedQuizzes`. -/
def Context.listedQuizzes (c : Context) : List ObjectID := c.quizzes.live

/-- The number a row of the list shows: `quiz.quotes?.count ?? 0`. -/
def Context.quoteCountLabel (c : Context) (quiz : ObjectID) : Nat := (c.quotesOf quiz).length

end KnowTheQuote
