import Mathlib.Data.List.Sort
import KnowTheQuote.Library.Simulation
import KnowTheQuote.Library.Sorting
import KnowTheQuote.Model.App

/-!
# Know the Quote — from screen to screen

The navigation stack of the storyboards, whose segues are all of kind "show": the login
screen is its root, Home is shown from there, and from Home a new quiz with its editor, or
the list of quizzes, a quiz, its play and the results. What one screen hands to the next in
`prepare(for:sender:)` is `kqController`, which is the same object everywhere, and `user`,
which is a copy: it does not follow `LogInViewController.user` when a login ends later.

The list of quizzes makes a new fetched results controller each time it needs one, so every
row is looked up by a fetch of its own; the delegate methods are never called, since no
controller outlives the lookup it was made for.

Assumed of Foundation and UIKit: a sort descriptor compares titles by some total preorder
and leaves equal ones in any order; `object(at:)` raises an exception where the fetch has
thrown or has found too few objects; a row can be tapped once it has been displayed.
-/

namespace KnowTheQuote

-- ---------------------------------------------------------------------------
-- The list of quizzes
-- ---------------------------------------------------------------------------

/-- How `NSSortDescriptor(key: "title", ascending: true)` compares. -/
structure TitleOrder where
  le : Option String → Option String → Bool
  trans : ∀ {a b c}, le a b → le b c → le a c
  total : ∀ a b, le a b ∨ le b a

namespace TitleOrder

variable (t : TitleOrder)

/-- The first title may come before the second. -/
def Le (a b : Option String) : Prop := t.le a b = true

instance : DecidableRel t.Le := fun a b => inferInstanceAs (Decidable (t.le a b = true))

instance : Std.Total t.Le := ⟨t.total⟩

instance : IsTrans (Option String) t.Le := ⟨fun _ _ _ => t.trans⟩

instance : IsPreorder (Option String) t.Le where

/-- Missing titles first, then by characters. -/
def byCharacters : TitleOrder where
  le
    | none, _ => true
    | some _, none => false
    | some a, some b => decide (a ≤ b)
  trans {a b c} hab hbc := by
    cases a with
    | none => rfl
    | some a =>
      cases b with
      | none => cases hab
      | some b =>
        cases c with
        | none => cases hbc
        | some c =>
          exact decide_eq_true (String.le_trans (of_decide_eq_true hab) (of_decide_eq_true hbc))
  total a b := by
    cases a with
    | none => exact .inl rfl
    | some a =>
      cases b with
      | none => exact .inr rfl
      | some b => simpa using String.le_total a b

end TitleOrder

/-- `quiz.title` -/
def Context.quizTitle (c : Context) (quiz : ObjectID) : Option String :=
  (c.quizzes.get? quiz).bind Quiz.title

/-- `fetchedResultController.fetchedObjects`; `nil` when the fetch throws. -/
def Context.fetchedQuizzes (c : Context) (t : TitleOrder) (fetch : FetchOutcome) :
    Option (List ObjectID) :=
  fetch.map fun order =>
    (order.apply c.listedQuizzes).insertionSort fun a b => t.Le (c.quizTitle a) (c.quizTitle b)

/-- `fetchedResultController.object(at:)`; `none` when it raises an exception. -/
def Context.quizAt (c : Context) (t : TitleOrder) (fetch : FetchOutcome) (row : Nat) :
    Option ObjectID :=
  (c.fetchedQuizzes t fetch).bind fun quizzes => quizzes[row]?

/-- `QuizTableViewCell`, by the texts of its labels. -/
structure QuizTableViewCell where
  titleLabel : Option String
  quoteCountLabel : String
deriving DecidableEq

/-- The rows the table has asked for, and the cells it has on screen. -/
structure QuizzesTableViewController where
  numberOfRows : Nat
  cells : Nat → Option QuizTableViewCell := fun _ => none

namespace QuizzesTableViewController

/-- `tableView(_:numberOfRowsInSection:)` -/
def numberOfRowsInSection (c : Context) (t : TitleOrder) (fetch : FetchOutcome) : Nat :=
  ((c.fetchedQuizzes t fetch).map List.length).getD 0

/-- `tableView(_:cellForRowAt:)`, for the quiz of the row. -/
def cellFor (c : Context) (quiz : ObjectID) : QuizTableViewCell where
  titleLabel := c.quizTitle quiz
  quoteCountLabel := toString (c.quoteCountLabel quiz)

end QuizzesTableViewController

-- ---------------------------------------------------------------------------
-- The screens
-- ---------------------------------------------------------------------------

/-- `QuizViewController`; the label has a text of its own in the storyboard. -/
structure QuizViewController where
  quiz : ObjectID
  titleLabel : Option String := some "Title"

/-- `QuizViewController.updateViews` -/
def QuizViewController.updateViews (v : QuizViewController) (c : Context)
    (user : Option ObjectID) : QuizViewController :=
  match user with
  | none => v
  | some _ => { v with titleLabel := c.quizTitle v.quiz }

/-- The results as they appear: what the segue hands on, and the two labels. -/
structure ResultsScreen where
  quiz : ObjectID
  score : Score
  scoreLabel : String
  quizTitleLabel : Option String

/-- `QuizResultTableViewController.updateViews`, after the segue from `v`. -/
def ResultsScreen.viewDidLoad (c : Context) (v : QuoteViewController) : ResultsScreen where
  quiz := v.quiz
  score := v.score
  scoreLabel := "Score: " ++ toString v.score.points
  quizTitleLabel := c.quizTitle v.quiz

/-- A view controller above the login screen. -/
inductive ViewController where
  | home
  | newQuiz
  | newQuote (view : NewQuoteViewController)
  | quizzes (view : QuizzesTableViewController)
  | quiz (view : QuizViewController)
  | quote (view : QuoteViewController)
  | results (view : ResultsScreen)

/-- A view controller with its `user`. -/
structure Shown where
  user : Option ObjectID
  controller : ViewController

/-- The app, with its navigation stack. -/
structure Navigation where
  core : Core
  /-- the data task of `LogInViewController.getUser` is still running -/
  loggingIn : Bool := true
  /-- what lies above the login screen, the top first -/
  stack : List Shown := []
  /-- an exception has ended the app -/
  terminated : Bool := false

/-- What the user does, and what happens to the data tasks. -/
inductive NavigationAction where
  /-- the data task of `LogInViewController.getUser` ends -/
  | logInEnds (r : Response) (env : LogInEnv)
  /-- data task number `index` of a `put` ends with a transport error -/
  | taskFailed (index : Nat)
  /-- "showHomeSBsegue" -/
  | showHome
  /-- "showCreateQuizSBSegue" -/
  | showCreateQuiz
  /-- "showQuizzesSBSegue"; the table asks for the number of its rows -/
  | showQuizzes (fetch : FetchOutcome)
  /-- Start on a new quiz, with the text of the title field -/
  | startButtonTapped (title : String) (env : Env)
  /-- an action in the editor -/
  | edit (a : EditorAction)
  /-- the table asks for the cell of a row -/
  | displayRow (row : Nat) (fetch : FetchOutcome)
  /-- a row is tapped, "ShowQuizSegue" -/
  | selectRow (row : Nat) (fetch : FetchOutcome)
  /-- Start on a quiz, "StartQuizSegue" -/
  | startQuiz (fetch : FetchOutcome) (shuffle : Reordering String)
  /-- a tap on an option button -/
  | tap (t : Tap)
  /-- Done on the results -/
  | doneButtonTapped
  /-- the back button of the navigation bar -/
  | back

/-- An action, or the app is launched again. -/
inductive NavigationEvent where
  | action (a : NavigationAction)
  | launch

namespace Navigation

/-- The app as it is launched: the login screen, and its request on the way. -/
def launch (w : World) : Navigation := { core := .launch w }

variable (s : Navigation)

/-- A segue: the new view controller takes over the `user` of the old one. -/
def push (user : Option ObjectID) (controller : ViewController) : Navigation :=
  { s with stack := ⟨user, controller⟩ :: s.stack }

def logInEnds (r : Response) (env : LogInEnv) : Navigation :=
  if s.loggingIn then { s with core := s.core.getUser r env, loggingIn := false } else s

def taskFailed (index : Nat) : Navigation := { s with core := s.core.step (.taskFailed index) }

/-- `LogInViewController.prepare` -/
def showHome : Navigation :=
  match s.stack with
  | [] => s.push s.core.logIn .home
  | _ => s

/-- `HomeViewController.prepare`, for a new quiz. -/
def showCreateQuiz : Navigation :=
  match s.stack with
  | ⟨user, .home⟩ :: _ => s.push user .newQuiz
  | _ => s

/-- `HomeViewController.prepare`, for the list. -/
def showQuizzes (t : TitleOrder) (fetch : FetchOutcome) : Navigation :=
  match s.stack with
  | ⟨user, .home⟩ :: _ =>
    s.push user (.quizzes
      { numberOfRows :=
          QuizzesTableViewController.numberOfRowsInSection s.core.world.context t fetch })
  | _ => s

/-- `NewQuizViewController.startButtonTapped` -/
def startButtonTapped (title : String) (env : Env) : Navigation :=
  match s.stack with
  | ⟨some user, .newQuiz⟩ :: _ =>
    if title.isEmpty then s
    else
      let core := { s.core with quizController.title := some title }.createEmptyQuiz env
      { s with core }.push (some user)
        (.newQuote (NewQuoteViewController.viewDidLoad core.quizController))
  | _ => s

/-- An action in the editor, which pops to the root once the quiz is finished. -/
def edit (a : EditorAction) : Navigation :=
  match s.stack with
  | ⟨user, .newQuote view⟩ :: rest =>
    let e := EditorState.step ⟨view, s.core⟩ a
    { s with
      core := e.core
      stack := if e.view.popped then [] else ⟨user, .newQuote e.view⟩ :: rest }
  | _ => s

/-- `QuizzesTableViewController.tableView(_:cellForRowAt:)` -/
def displayRow (t : TitleOrder) (row : Nat) (fetch : FetchOutcome) : Navigation :=
  match s.stack with
  | ⟨user, .quizzes view⟩ :: rest =>
    if row < view.numberOfRows then
      match s.core.world.context.quizAt t fetch row with
      | none => { s with terminated := true }
      | some quiz =>
        let cell := QuizzesTableViewController.cellFor s.core.world.context quiz
        { s with stack := ⟨user, .quizzes { view with
            cells := Function.update view.cells row (some cell) }⟩ :: rest }
    else s
  | _ => s

/-- `QuizzesTableViewController.prepare` -/
def selectRow (t : TitleOrder) (row : Nat) (fetch : FetchOutcome) : Navigation :=
  match s.stack with
  | ⟨user, .quizzes view⟩ :: _ =>
    if (view.cells row).isSome then
      match s.core.world.context.quizAt t fetch row with
      | none => { s with terminated := true }
      | some quiz =>
        s.push user (.quiz
          (QuizViewController.updateViews { quiz } s.core.world.context user))
    else s
  | _ => s

/-- `QuizViewController.prepare` -/
def startQuiz (fetch : FetchOutcome) (shuffle : Reordering String) : Navigation :=
  match s.stack with
  | ⟨user, .quiz view⟩ :: _ =>
    let p := PlayState.viewDidLoad s.core view.quiz fetch shuffle
    { s with core := p.core }.push user (.quote p.view)
  | _ => s

/-- A tap on an option button; after the last quote the results are shown. -/
def tap (t : Tap) : Navigation :=
  match s.stack with
  | ⟨user, .quote view⟩ :: rest =>
    let p := PlayState.step ⟨view, s.core⟩ t
    let s : Navigation := { s with core := p.core, stack := ⟨user, .quote p.view⟩ :: rest }
    if view.segues < p.view.segues then
      s.push user (.results (ResultsScreen.viewDidLoad p.core.world.context p.view))
    else s
  | _ => s

/-- `QuizResultTableViewController.doneButtonTapped` -/
def doneButtonTapped : Navigation :=
  match s.stack with
  | ⟨_, .results _⟩ :: _ => { s with stack := [] }
  | _ => s

def back : Navigation := { s with stack := s.stack.tail }

/-- One action, while the app is running. -/
def step (t : TitleOrder) : NavigationAction → Navigation
  | .logInEnds r env => s.logInEnds r env
  | .taskFailed index => s.taskFailed index
  | .showHome => s.showHome
  | .showCreateQuiz => s.showCreateQuiz
  | .showQuizzes fetch => s.showQuizzes t fetch
  | .startButtonTapped title env => s.startButtonTapped title env
  | .edit a => s.edit a
  | .displayRow row fetch => s.displayRow t row fetch
  | .selectRow row fetch => s.selectRow t row fetch
  | .startQuiz fetch shuffle => s.startQuiz fetch shuffle
  | .tap t => s.tap t
  | .doneButtonTapped => s.doneButtonTapped
  | .back => s.back

/-- One event; an app that has been terminated can only be launched again. -/
def handle (t : TitleOrder) (s : Navigation) : NavigationEvent → Navigation
  | .action a => if s.terminated then s else s.step t a
  | .launch => .launch s.core.world.relaunch

end Navigation

end KnowTheQuote
