import KnowTheQuote.Model.LogIn

/-!
# Know the Quote — the quote editor

`NewQuoteViewController`: seven text fields, the Prev, Next and Done buttons, and
the quotes of the quiz that is being created.

Assumed of UIKit: a text field's `text` is never `nil` when read, and setting it
to `nil` empties the field. The dictionary `textFields` holds all seven fields
from `viewDidLoad` on; its enumeration order is the runtime's.
-/

namespace KnowTheQuote

/-- `QuotePart`: the keys of the text fields. -/
inductive QuotePart where
  | part1
  | part2
  | answer
  | incorrectOpt1
  | incorrectOpt2
  | incorrectOpt3
  | incorrectOpt4
deriving DecidableEq, Repr

/-- The keys of `textFields`. -/
def QuotePart.all : List QuotePart :=
  [.part1, .part2, .answer, .incorrectOpt1, .incorrectOpt2, .incorrectOpt3, .incorrectOpt4]

/-- The fields of the view controller, the texts on screen and which buttons are
enabled. `popped` says that the editor has closed itself. -/
structure NewQuoteViewController where
  incompleteQuote : Option (QuotePart → Option String) := none
  dataDictionary : QuotePart → Option String := fun _ => none
  incorrectOptsArray : List String := []
  texts : QuotePart → String := fun _ => ""
  prevButton : Bool := true
  nextButton : Bool := true
  doneButton : Bool := true
  popped : Bool := false

/-- The editor and the controllers it works on. -/
structure EditorState where
  view : NewQuoteViewController
  core : Core

namespace NewQuoteViewController

def isDataComplete (v : NewQuoteViewController) : Bool :=
  QuotePart.all.all fun part => !(v.texts part).isEmpty

def saveIncompleteData (v : NewQuoteViewController) : NewQuoteViewController :=
  { v with incompleteQuote := some fun part => some (v.texts part) }

def tryLoadIncompleteData (v : NewQuoteViewController) : NewQuoteViewController :=
  match v.incompleteQuote with
  | none => v
  | some draft => { v with texts := fun part => (draft part).getD "", incompleteQuote := none }

/-- One turn of the loop of `collectCompleteData`. -/
def collect (v : NewQuoteViewController) (key : QuotePart) : NewQuoteViewController :=
  let text := v.texts key
  if text.isEmpty then v
  else match key with
    | .part1 | .part2 | .answer =>
      { v with dataDictionary := Function.update v.dataDictionary key (some text) }
    | .incorrectOpt1 | .incorrectOpt2 | .incorrectOpt3 | .incorrectOpt4 =>
      { v with incorrectOptsArray := v.incorrectOptsArray ++ [text] }

def collectCompleteData (v : NewQuoteViewController) (order : Reordering QuotePart) :
    NewQuoteViewController :=
  if v.isDataComplete then (order.apply QuotePart.all).foldl collect v else v

def resetSets (v : NewQuoteViewController) : NewQuoteViewController :=
  { v with incorrectOptsArray := [], dataDictionary := fun _ => none }

def updateButtonsViews (v : NewQuoteViewController) (q : QuizController)
    (clearTextFields shouldEnableNext : Bool) : NewQuoteViewController :=
  { v with
    texts := if clearTextFields then fun _ => "" else v.texts
    prevButton := q.canMoveToPrev
    nextButton := shouldEnableNext && q.canMoveToNext
    doneButton := q.quizCanBeSaved }

/-- `filloutOptsTextFields`; its body is commented out. -/
def filloutOptsTextFields (v : NewQuoteViewController) (_incorrectOptions : List String) :
    NewQuoteViewController := v

def textFieldEditingChanged (v : NewQuoteViewController) (q : QuizController) :
    NewQuoteViewController :=
  let v := if v.doneButton = false ∧ q.quotes.count = 2 ∧ v.isDataComplete then
      { v with doneButton := true } else v
  if v.nextButton = false ∧ q.canMoveToNext ∧ v.isDataComplete then
    { v with nextButton := true } else v

/-- `viewDidLoad` of a new view controller. -/
def viewDidLoad (q : QuizController) : NewQuoteViewController :=
  ({} : NewQuoteViewController).updateButtonsViews q true false

end NewQuoteViewController

namespace EditorState

/-- The quote at the cursor, if it and its incorrect options can be read. -/
def currentQuote (s : EditorState) : Option (Quote × List String) := do
  let ref ← s.core.quizController.quotes.lookup s.core.quizController.currentQuote
  let quote ← s.core.world.context.quotes.get? ref
  let incorrectOptions ← quote.incorrectOptions
  return (quote, incorrectOptions)

def displayQuoteData (s : EditorState) : EditorState :=
  match s.currentQuote with
  | none => s
  | some (quote, incorrectOptions) =>
    let texts := Function.update (Function.update (Function.update s.view.texts
      .part1 (quote.firstPart.getD "")) .part2 (quote.secondPart.getD ""))
      .answer (quote.answer.getD "")
    let view := { s.view with texts }.filloutOptsTextFields incorrectOptions
    { s with view := view.updateButtonsViews s.core.quizController false true }

def moveToPrev (s : EditorState) : EditorState :=
  if s.core.quizController.canMoveToPrev then
    displayQuoteData
      { view := s.view.saveIncompleteData
        core := { s.core with quizController := s.core.quizController.moveToPrevQuote } }
  else s

/-- `saveQuote()`, with its result. The answer has been collected when it is
unwrapped, see `dataDictionary_collectCompleteData`. -/
def saveQuote (s : EditorState) (env : Env) (order : Reordering QuotePart) :
    EditorState × Bool :=
  if s.view.isDataComplete then
    let view := s.view.collectCompleteData order
    let core := s.core.createQuote (view.dataDictionary .part1) (view.dataDictionary .part2)
      ((view.dataDictionary .answer).getD "") view.incorrectOptsArray env
    ({ view, core }, true)
  else (s, false)

def moveToNextQuote (s : EditorState) : EditorState :=
  { s with core.quizController := s.core.quizController.moveToNextQuote }

def updateButtonsViews (s : EditorState) (clearTextFields shouldEnableNext : Bool) :
    EditorState :=
  { s with view :=
      s.view.updateButtonsViews s.core.quizController clearTextFields shouldEnableNext }

def moveToNext (s : EditorState) (env : Env) (order : Reordering QuotePart) : EditorState :=
  if s.core.quizController.canMoveToNext then
    let current := s.core.quizController.currentQuote
    let count : Int := s.core.quizController.quotes.count
    let s :=
      if current = count + 1 then
        -- the screen is a quote that has not been saved
        let (s, saved) := s.saveQuote env order
        if saved then s.moveToNextQuote.updateButtonsViews true false else s
      else if current = count then
        -- the screen is the last saved quote
        let s := (s.updateButtonsViews true false).moveToNextQuote
        let view := s.view.tryLoadIncompleteData
        { s with view := if view.isDataComplete then { view with nextButton := true } else view }
      else
        s.moveToNextQuote.displayQuoteData
    { s with view := s.view.resetSets }
  else s

def finishCreatingQuiz (s : EditorState) (env : Env) (order : Reordering QuotePart) :
    EditorState :=
  if s.core.quizController.quotes.count ≥ 2 ∧ s.view.isDataComplete then
    let (s, saved) := s.saveQuote env order
    if saved then { s with view := { s.view with popped := true } } else s
  else s

/-- The user types: the field changes, then the `editingChanged` action fires. -/
def edit (s : EditorState) (part : QuotePart) (text : String) : EditorState :=
  let view := { s.view with texts := Function.update s.view.texts part text }
  { s with view := view.textFieldEditingChanged s.core.quizController }

end EditorState

/-- What the user does in the editor. -/
inductive EditorAction where
  | edit (part : QuotePart) (text : String)
  | prev
  | next (env : Env) (order : Reordering QuotePart)
  | done (env : Env) (order : Reordering QuotePart)

/-- The user fills in every field. -/
def EditorAction.fillIn (texts : QuotePart → String) : List EditorAction :=
  QuotePart.all.map fun part => .edit part (texts part)

/-- A quote to fill in. -/
def sampleTexts : QuotePart → String
  | .part1 => "May the"
  | .part2 => "be with you"
  | .answer => "Force"
  | .incorrectOpt1 => "wind"
  | .incorrectOpt2 => "luck"
  | .incorrectOpt3 => "moon"
  | .incorrectOpt4 => "odds"

/-- Another one. -/
def otherTexts : QuotePart → String
  | .part1 => "I see"
  | .part2 => "people"
  | .answer => "dead"
  | .incorrectOpt1 => "old"
  | .incorrectOpt2 => "rich"
  | .incorrectOpt3 => "tall"
  | .incorrectOpt4 => "calm"

/-- One action; nothing happens once the editor has closed itself. Whether a button is enabled
is left to `tap`: here every button acts. -/
def EditorState.step (s : EditorState) (a : EditorAction) : EditorState :=
  if s.view.popped then s
  else match a with
    | .edit part text => s.edit part text
    | .prev => s.moveToPrev
    | .next env order => s.moveToNext env order
    | .done env order => s.finishCreatingQuiz env order

/-- One action of the user; a disabled button ignores a tap. -/
def EditorState.tap (s : EditorState) (a : EditorAction) : EditorState :=
  match a with
  | .edit _ _ => s.step a
  | .prev => if s.view.prevButton then s.step a else s
  | .next _ _ => if s.view.nextButton then s.step a else s
  | .done _ _ => if s.view.doneButton then s.step a else s

end KnowTheQuote
