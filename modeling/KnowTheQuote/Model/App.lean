import KnowTheQuote.Model.Editor
import KnowTheQuote.Model.Play

/-!
# Know the Quote — the app

One `KQController` with the screens that use it. The screens sit in one
navigation stack, so an editor and a play are never open together; everything
that is neither is `elsewhere`, and the user can leave an editor or a play at any
time. A play stays open while its results are shown, since Back returns to it.
-/

namespace KnowTheQuote

/-- The screen on top, with its view controller. -/
inductive Screen where
  | elsewhere
  | editor (view : NewQuoteViewController)
  | play (view : QuoteViewController)

/-- The app after the login. -/
structure App where
  core : Core
  screen : Screen := .elsewhere

/-- What the user does. -/
inductive Action where
  /-- `NewQuizViewController.startButtonTapped`, with the text of the title field -/
  | start (title : String) (env : Env)
  /-- an action in the editor -/
  | edit (a : EditorAction)
  /-- `QuoteViewController` opens on a quiz of the list -/
  | openPlay (quiz : ObjectID) (fetch : FetchOutcome) (shuffle : Reordering String)
  /-- a tap on an option button -/
  | tap (t : Tap)
  /-- back from the editor or the play, or on to another screen -/
  | leave

/-- `startButtonTapped`; `user` is the copy of `LogInViewController.user`. -/
def App.startButtonTapped (s : App) (title : String) (env : Env) : App :=
  match s.core.logIn with
  | none => s
  | some _ =>
    if title.isEmpty then s
    else
      let core := { s.core with quizController.title := some title }.createEmptyQuiz env
      { core, screen := .editor (NewQuoteViewController.viewDidLoad core.quizController) }

/-- A first launch without a connection: the store is empty and the login request ends
with an error, so a local user is created. -/
def App.firstLaunch : App :=
  { core := (Core.launch { uuids := .numbered }).getUser
      { data := none, statusCode := none, error := true } {} }

/-- One action; an action the screen on top does not offer has no effect. -/
def App.step (s : App) (a : Action) : App :=
  match a, s.screen with
  | .start title env, .elsewhere => s.startButtonTapped title env
  | .edit a, .editor view =>
    let e := EditorState.step ⟨view, s.core⟩ a
    { core := e.core, screen := if e.view.popped then .elsewhere else .editor e.view }
  | .openPlay quiz fetch shuffle, .elsewhere =>
    let p := PlayState.viewDidLoad s.core quiz fetch shuffle
    { core := p.core, screen := .play p.view }
  | .tap t, .play view =>
    let p := PlayState.step ⟨view, s.core⟩ t
    { core := p.core, screen := .play p.view }
  | .leave, _ => { s with screen := .elsewhere }
  | _, _ => s

/-- A first quiz: Start, the fields filled in, Next, and back. -/
def Action.firstQuiz : List Action :=
  [.start "Films" {}] ++ (EditorAction.fillIn sampleTexts).map .edit ++
    [.edit (.next {} .asIs), .leave]

def App.afterFirstQuiz : App := Machine.run App.step .firstLaunch Action.firstQuiz

/-- The same with two quotes. -/
def Action.twoQuotes : List Action :=
  [.start "Films" {}] ++ (EditorAction.fillIn sampleTexts).map .edit ++ [.edit (.next {} .asIs)] ++
    (EditorAction.fillIn otherTexts).map .edit ++ [.edit (.next {} .asIs), .leave]

def App.afterTwoQuotes : App := Machine.run App.step .firstLaunch Action.twoQuotes

/-- What can happen to the app: the user acts, something happens to the controllers
behind the screens, or the app is launched again. -/
inductive Event where
  | action (a : Action)
  | operation (op : Operation)
  | launch

/-- One event. -/
def App.handle (s : App) : Event → App
  | .action a => s.step a
  | .operation op => { s with core := s.core.step op }
  | .launch => { core := .launch s.core.world.relaunch }

end KnowTheQuote
