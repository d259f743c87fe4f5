import KnowTheQuote.Properties.Links
import KnowTheQuote.Properties.QuizList

/-!
# Know the Quote — from the row to the results

A row of the list shows the title of a quiz and the number of quotes that belong to it. A
play counts the quotes itself, by the quiz's id, and shows the results after the last of
them. In a successful run the two numbers are one.

* `taps_run` — the results are shown after as many taps as quotes were loaded.
* `RowsExact` — a row on screen shows a quiz of the list.
* `row_counts_taps` — so after as many as the row says, and with the row's title.
-/

namespace KnowTheQuote

open Machine

namespace Navigation

variable {s : Navigation} {t : TitleOrder} {user : Option ObjectID}

-- ---------------------------------------------------------------------------
-- Taps
-- ---------------------------------------------------------------------------

/-- Tapping on the options. -/
def taps (l : List Tap) : List NavigationEvent := l.map fun tap => .action (.tap tap)

/-- Under the results there is nothing left to tap on. -/
theorem run_taps_of_results {rest : List Shown} {r : ResultsScreen}
    (hstack : s.stack = ⟨user, .results r⟩ :: rest) (l : List Tap) :
    run (Navigation.handle t) s (taps l) = s := by
  have htap : ∀ tap, s.handle t (.action (.tap tap)) = s := by
    intro tap
    have hstep : s.step t (.tap tap) = s := by
      show s.tap tap = s
      unfold Navigation.tap
      rw [hstack]
    show (if s.terminated then s else s.step t (.tap tap)) = s
    rw [hstep, ite_self]
  induction l with
  | nil => rfl
  | cons tap l ih =>
    show run (Navigation.handle t) (s.handle t _) (taps l) = s
    rw [htap, ih]

section Play

variable {qs : List ObjectID} {rest : List Shown} {v : QuoteViewController} {k : Nat}

/-- A tap before the last quote shows the next one. -/
theorem tap_next (hstack : s.stack = ⟨user, .quote v⟩ :: rest) (hrunning : s.terminated = false)
    (hnum : s.core.quizController.quotes.Numbers qs)
    (hcur : s.core.quizController.currentQuote = (k : Int) + 1) (hlt : k + 1 < qs.length)
    (tap : Tap) :
    ∃ v', v'.quiz = v.quiz ∧ s.handle t (.action (.tap tap)) =
      { s with
        core.quizController.currentQuote := (k : Int) + 2
        stack := ⟨user, .quote v'⟩ :: rest } := by
  have hcount := hnum.count
  have hkey := hnum.lookup_succ (k + 1)
  rw [List.getElem?_eq_getElem hlt] at hkey
  have hnext : s.core.quizController.nextQuoteToDisplay =
      ({ s.core.quizController with currentQuote := (k : Int) + 2 }, some qs[k + 1]) := by
    rw [QuizController.nextQuoteToDisplay_of_lt (by omega), hcur]
    congr 1
  have hstep := PlayState.step_of_next (s := ⟨v, s.core⟩) hnext tap
  have hsegues : (PlayState.step ⟨v, s.core⟩ tap).view.segues = v.segues := by
    rw [hstep, QuoteViewController.displayQuote_eq]
    show (PlayState.scored ⟨v, s.core⟩ tap).segues = _
    rw [PlayState.scored, QuoteViewController.updateScore_eq]
  refine ⟨_, quiz_playStep ⟨v, s.core⟩ tap, ?_⟩
  show (if s.terminated then s else s.tap tap) = _
  rw [if_neg (by simp [hrunning])]
  unfold Navigation.tap
  rw [hstack]
  dsimp only
  rw [if_neg (by rw [hsegues]; exact lt_irrefl _), hstep]

/-- A tap on the last quote shows the results. -/
theorem tap_end (hstack : s.stack = ⟨user, .quote v⟩ :: rest) (hrunning : s.terminated = false)
    (hnum : s.core.quizController.quotes.Numbers qs)
    (hcur : s.core.quizController.currentQuote = (k : Int) + 1) (hle : qs.length ≤ k + 1)
    (tap : Tap) :
    ∃ r v', (s.handle t (.action (.tap tap))).stack =
        ⟨user, .results r⟩ :: ⟨user, .quote v'⟩ :: rest ∧
      r.quizTitleLabel = s.core.world.context.quizTitle v.quiz := by
  have hcount := hnum.count
  have hnext : s.core.quizController.nextQuoteToDisplay = (s.core.quizController, none) :=
    QuizController.nextQuoteToDisplay_of_le (by omega)
  have hsegues : (PlayState.step ⟨v, s.core⟩ tap).view.segues = v.segues + 1 := by
    rw [PlayState.step_of_end (s := ⟨v, s.core⟩) hnext tap]
    show (PlayState.scored ⟨v, s.core⟩ tap).segues + 1 = _
    rw [PlayState.scored, QuoteViewController.updateScore_eq]
  refine ⟨ResultsScreen.viewDidLoad (PlayState.step ⟨v, s.core⟩ tap).core.world.context
    (PlayState.step ⟨v, s.core⟩ tap).view, (PlayState.step ⟨v, s.core⟩ tap).view, ?_, ?_⟩
  · show (if s.terminated then s else s.tap tap).stack = _
    rw [if_neg (by simp [hrunning])]
    unfold Navigation.tap
    rw [hstack]
    dsimp only
    rw [if_pos (by rw [hsegues]; exact Nat.lt_succ_self _)]
    rfl
  · show Context.quizTitle _ _ = _
    rw [PlayState.world_step, quiz_playStep]

/-- **A run of taps.** The quote stays on top up to the last quote; then the results are
shown, and stay. -/
theorem taps_run (hstack : s.stack = ⟨user, .quote v⟩ :: rest) (hrunning : s.terminated = false)
    (hnum : s.core.quizController.quotes.Numbers qs)
    (hcur : s.core.quizController.currentQuote = (k : Int) + 1) (l : List Tap) :
    (l = [] ∨ k + l.length < qs.length →
      ∃ v', (run (Navigation.handle t) s (taps l)).stack = ⟨user, .quote v'⟩ :: rest) ∧
    (l ≠ [] → qs.length ≤ k + l.length →
      ∃ r v', (run (Navigation.handle t) s (taps l)).stack =
          ⟨user, .results r⟩ :: ⟨user, .quote v'⟩ :: rest ∧
        r.quizTitleLabel = s.core.world.context.quizTitle v.quiz) := by
  induction l generalizing s v k with
  | nil => exact ⟨fun _ => ⟨v, hstack⟩, fun hne => absurd rfl hne⟩
  | cons tap l ih =>
    have hcons : run (Navigation.handle t) s (taps (tap :: l)) =
        run (Navigation.handle t) (s.handle t (.action (.tap tap))) (taps l) := rfl
    rcases Nat.lt_or_ge (k + 1) qs.length with hlt | hge
    · obtain ⟨v', hquiz, htap⟩ := tap_next (t := t) hstack hrunning hnum hcur hlt tap
      rw [hcons, htap]
      obtain ⟨hquote, hresults⟩ := ih (s := { s with
        core.quizController.currentQuote := (k : Int) + 2
        stack := ⟨user, .quote v'⟩ :: rest }) (k := k + 1) rfl hrunning hnum rfl
      rw [List.length_cons]
      refine ⟨fun h => hquote (.inr ?_), fun _ h => ?_⟩
      · have hlong := h.resolve_left (List.cons_ne_nil _ _)
        omega
      · rw [← hquiz]
        refine hresults (List.ne_nil_of_length_pos ?_) ?_ <;> omega
    · obtain ⟨r, v', htap, htitle⟩ := tap_end (t := t) hstack hrunning hnum hcur hge tap
      rw [hcons, run_taps_of_results htap]
      refine ⟨fun h => ?_, fun _ _ => ⟨r, v', htap, htitle⟩⟩
      have hlong := h.resolve_left (List.cons_ne_nil _ _)
      rw [List.length_cons] at hlong
      omega

end Play

end Navigation

-- ---------------------------------------------------------------------------
-- Rows
-- ---------------------------------------------------------------------------

section Data

variable {c c' : Context} {t : TitleOrder}

/-- A lookup reads the quizzes, a cell their quotes too. -/
theorem quizAt_congr (hquizzes : c'.quizzes = c.quizzes) (fetch : FetchOutcome) (row : Nat) :
    c'.quizAt t fetch row = c.quizAt t fetch row := by
  obtain ⟨users, quizzes, quotes⟩ := c
  obtain ⟨users', quizzes', quotes'⟩ := c'
  cases hquizzes
  rfl

theorem cellFor_congr (hquizzes : c'.quizzes = c.quizzes) (hquotes : c'.quotes = c.quotes)
    (quiz : ObjectID) : QuizzesTableViewController.cellFor c' quiz =
      QuizzesTableViewController.cellFor c quiz := by
  obtain ⟨users, quizzes, quotes⟩ := c
  obtain ⟨users', quizzes', quotes'⟩ := c'
  cases hquizzes
  cases hquotes
  rfl

end Data

/-- A login whose saves succeed leaves quizzes and quotes alone. -/
theorem Core.data_getUser {c : Core} {r : Response} {env : LogInEnv}
    (h : (Operation.getUser r env).Succeeds) :
    (c.getUser r env).world.context.quizzes = c.world.context.quizzes ∧
      (c.getUser r env).world.context.quotes = c.world.context.quotes := by
  have hcall : ∀ call, env.IsCall call → call.saves = true := by
    rintro call (rfl | rfl | rfl)
    · exact h.1.saves
    · exact h.2.1.saves
    · exact h.2.2.saves
  refine getUser_induction
    (P := fun c' => c'.world.context.quizzes = c.world.context.quizzes ∧
      c'.world.context.quotes = c.world.context.quotes)
    (fun _ _ _ _ h => h) (fun c' call hc h => ?_) (fun _ _ _ h => h) (fun _ _ h => h)
    (fun _ _ h => h) (fun _ _ h => h) (fun _ _ _ _ h => h)
    (fun c' h => c'.world_syncUser.symm ▸ h) ⟨rfl, rfl⟩ r
  rw [hcall call hc]
  exact h

namespace Navigation

variable {s : Navigation} {t : TitleOrder}

/-- In successful runs: every row on screen shows a quiz a lookup may find there. -/
structure RowsExact (t : TitleOrder) (s : Navigation) : Prop extends ListSound t s where
  exact : ∀ view, s.Lists view → ∀ row cell, view.cells row = some cell →
    ∃ order quiz, s.core.world.context.quizAt t (some order) row = some quiz ∧
      cell = QuizzesTableViewController.cellFor s.core.world.context quiz

/-- Where a list is still on the stack, quizzes and quotes are as they were. -/
theorem Sound.data_step (h : s.Sound) {a : NavigationAction} (ha : a.Succeeds)
    {view : QuizzesTableViewController} (hlists : (s.step t a).Lists view) :
    (s.step t a).core.world.context.quizzes = s.core.world.context.quizzes ∧
      (s.step t a).core.world.context.quotes = s.core.world.context.quotes := by
  obtain ⟨user, hpath, -⟩ := h.path
  by_cases hlogIn : ∃ r env, a = .logInEnds r env
  · obtain ⟨r, env, rfl⟩ := hlogIn
    show (s.logInEnds r env).core.world.context.quizzes = _ ∧
      (s.logInEnds r env).core.world.context.quotes = _
    unfold logInEnds
    split
    · exact Core.data_getUser ha
    · exact ⟨rfl, rfl⟩
  · have ha' : ∀ r env, a ≠ .logInEnds r env := fun r env heq => hlogIn ⟨r, env, heq⟩
    cases list_cases hlists with
    | kept hkept =>
      rw [world_step hpath (.inr ⟨view, hkept⟩) ha']
      exact ⟨rfl, rfl⟩
    | displayed hkept =>
      rw [world_step hpath (.inr ⟨_, hkept⟩) ha']
      exact ⟨rfl, rfl⟩
    | @shown _ fetch =>
      show (s.showQuizzes t fetch).core.world.context.quizzes = _ ∧
        (s.showQuizzes t fetch).core.world.context.quotes = _
      unfold showQuizzes
      split <;> exact ⟨rfl, rfl⟩

theorem RowsExact.step (h : RowsExact t s) {a : NavigationAction} (ha : a.Succeeds) :
    RowsExact t (s.step t a) where
  toListSound := h.toListSound.step a
  exact view hlists row cell hcell := by
    obtain ⟨hquizzes, hquotes⟩ := h.data_step ha hlists
    simp only [quizAt_congr hquizzes, cellFor_congr hquizzes hquotes]
    cases list_cases hlists with
    | kept hkept => exact h.exact view hkept row cell hcell
    | shown _ hview =>
      rw [hview] at hcell
      cases hcell
    | @displayed row' fetch view' quiz hkept _ hquiz hview =>
      rw [hview] at hcell
      change Function.update view'.cells row' _ row = some cell at hcell
      by_cases hrow : row = row'
      · rw [hrow, Function.update_self] at hcell
        cases fetch with
        | none => cases hquiz
        | some order => exact ⟨order, quiz, hrow ▸ hquiz, (Option.some.inj hcell).symm⟩
      · rw [Function.update_of_ne hrow] at hcell
        exact h.exact view' hkept row cell hcell

theorem rowsExact_run (t : TitleOrder) (w : World) {es : List NavigationEvent}
    (hes : ∀ e ∈ es, e.Succeeds) :
    RowsExact t (run (Navigation.handle t) (.launch w.relaunch) es) := by
  have hlaunch : ∀ w : World, RowsExact t (.launch w.relaunch) := fun w =>
    { toListSound := listSound_launch t w
      exact := fun view ⟨e, he, _⟩ => absurd he List.not_mem_nil }
  have hstep : ∀ (s : Navigation) (e : NavigationEvent), RowsExact t s → e.Succeeds →
      RowsExact t (s.handle t e) := by
    intro s e h he
    cases e with
    | action a =>
      show RowsExact t (if s.terminated then s else s.step t a)
      split
      · exact h
      · exact h.step he
    | launch => exact hlaunch _
  exact invariant_run_of_forall hstep (hlaunch w) hes

/-- What the app keeps in its successful runs, the screens keep in theirs. -/
theorem linked_run {w : World} (hw : (Core.launch w).Linked) {es : List NavigationEvent}
    (hes : ∀ e ∈ es, e.Succeeds) :
    (run (Navigation.handle t) (.launch w) es).core.Linked := by
  have hrun := (simulation t).run (sound_launch w) es
  have hcore := congrArg App.core hrun
  change (run (Navigation.handle t) (.launch w) es).core = _ at hcore
  rw [hcore]
  exact KnowTheQuote.linked_run (s := app (.launch w)) hw
    (forall_traces (fun s _ he => s.succeeds_eventTrace he) hes _)

/-- A play of a quiz, from the tap on its row. -/
theorem run_play {user : Option ObjectID} {view : QuizzesTableViewController} {rest : List Shown}
    (hstack : s.stack = ⟨user, .quizzes view⟩ :: rest) (hrunning : s.terminated = false)
    {row : Nat} (hcell : (view.cells row).isSome) {order : Reordering ObjectID} {quiz : ObjectID}
    (hquiz : s.core.world.context.quizAt t (some order) row = some quiz) (fetch : FetchOutcome)
    (shuffle : Reordering String) (l : List Tap) :
    let n := (s.core.world.context.foundQuotes quiz fetch).length
    let s' := run (Navigation.handle t) s (.action (.selectRow row (some order)) ::
      .action (.startQuiz fetch shuffle) :: taps l)
    (l.length < max 1 n → ∃ v rest', s'.stack = ⟨user, .quote v⟩ :: rest') ∧
      (max 1 n ≤ l.length → ∃ r rest', s'.stack = ⟨user, .results r⟩ :: rest' ∧
        r.quizTitleLabel = s.core.world.context.quizTitle quiz) := by
  intro n s'
  set z := QuizViewController.updateViews { quiz } s.core.world.context user with hz
  set p := PlayState.viewDidLoad s.core z.quiz fetch shuffle with hp
  have hquiz' : z.quiz = quiz := quiz_updateViews ..
  have hselect : s.handle t (.action (.selectRow row (some order))) = s.push user (.quiz z) := by
    show (if s.terminated then s else s.step t (.selectRow row (some order))) = _
    rw [if_neg (by simp [hrunning]), selectRow_eq hstack hcell hquiz]
  have hstart : (s.push user (.quiz z)).handle t (.action (.startQuiz fetch shuffle)) =
      { s with core := p.core, stack := ⟨user, .quote p.view⟩ :: ⟨user, .quiz z⟩ :: s.stack } := by
    show (if s.terminated then _ else (s.push user (.quiz z)).startQuiz fetch shuffle) = _
    rw [if_neg (by simp [hrunning])]
    rfl
  have hnum : p.core.quizController.quotes.Numbers (s.core.world.context.foundQuotes quiz fetch) :=
    hquiz' ▸ s.core.quizController.setupStart_numbers _ z.quiz fetch
  have hcur : p.core.quizController.currentQuote = ((0 : Nat) : Int) + 1 :=
    s.core.quizController.currentQuote_setupStart _ z.quiz fetch
  have hs' : s' = run (Navigation.handle t)
      { s with core := p.core, stack := ⟨user, .quote p.view⟩ :: ⟨user, .quiz z⟩ :: s.stack }
      (taps l) := by
    rw [← hstart, ← hselect]
    rfl
  obtain ⟨hquote, hresults⟩ := taps_run (t := t) (s := { s with
    core := p.core
    stack := ⟨user, .quote p.view⟩ :: ⟨user, .quiz z⟩ :: s.stack }) rfl hrunning hnum hcur l
  rw [hs']
  refine ⟨fun h => ?_, fun h => ?_⟩
  · obtain ⟨v, hstack'⟩ := hquote <| by
      rcases l with _ | ⟨tap, l⟩
      · exact .inl rfl
      · rw [List.length_cons] at h ⊢
        omega
    exact ⟨v, _, hstack'⟩
  · obtain ⟨r, v, hstack', htitle⟩ :=
      hresults (List.ne_nil_of_length_pos (by omega)) (by omega)
    refine ⟨r, _, hstack', htitle.trans ?_⟩
    show s.core.world.context.quizTitle _ = _
    rw [hp, quiz_viewDidLoad, hquiz']

end Navigation

/-- **As many taps as the row says.** From an empty store, after a successful run in which no
lookup of a row throws, take any row on screen whose label compares equal to the title of one
quiz only. The play that is started from it shows the results after exactly as many taps as
the row has for its number of quotes (one for a quiz without quotes), on whatever buttons, and
over the results is the title of the row. -/
theorem row_counts_taps (t : TitleOrder) (uuids : UUIDSource) (strings : StringEquality)
    {es : List NavigationEvent} (hSucceeds : ∀ e ∈ es, e.Succeeds)
    (hFetches : ∀ e ∈ es, e.Fetches) :
    let s := run (Navigation.handle t)
      (.launch (World.relaunch { uuids := uuids, strings := strings })) es
    let c := s.core.world.context
    ∀ user view rest row cell, s.stack = ⟨user, .quizzes view⟩ :: rest →
      view.cells row = some cell →
      (∀ a ∈ c.listedQuizzes, ∀ b ∈ c.listedQuizzes,
        AntisymmRel t.Le cell.titleLabel (c.quizTitle a) →
        AntisymmRel t.Le cell.titleLabel (c.quizTitle b) → a = b) →
      ∃ n : Nat, cell.quoteCountLabel = toString n ∧ ∀ order order' shuffle (l : List Tap),
        let s' := run (Navigation.handle t) s (.action (.selectRow row (some order)) ::
          .action (.startQuiz (some order') shuffle) :: Navigation.taps l)
        (l.length < max 1 n → ∃ v rest', s'.stack = ⟨user, .quote v⟩ :: rest') ∧
          (max 1 n ≤ l.length → ∃ r rest', s'.stack = ⟨user, .results r⟩ :: rest' ∧
            r.quizTitleLabel = cell.titleLabel) := by
  intro s c user view rest row cell hstack hcell hunique
  have hexact : Navigation.RowsExact t s := Navigation.rowsExact_run t _ hSucceeds
  have hrunning : s.terminated = false := Navigation.terminated_run _ hFetches
  have hlists : s.Lists view := ⟨_, hstack ▸ List.mem_cons_self .., rfl⟩
  obtain ⟨order₀, quiz, hquiz, rfl⟩ := hexact.exact view hlists row cell hcell
  have hlisted : ∀ order quiz, c.quizAt t (some order) row = some quiz →
      quiz ∈ c.listedQuizzes := by
    intro order quiz h
    obtain ⟨quizzes, hfetched, hat⟩ := Context.quizAt_eq_some.mp h
    exact (Context.fetchedQuizzes_spec hfetched).1.mem_iff.mp (List.mem_of_getElem? hat)
  refine ⟨c.quoteCountLabel quiz, rfl, fun order order' shuffle l => ?_⟩
  have hcertain : c.quizAt t (some order) row = some quiz :=
    (Context.quizAt_certain_iff hquiz).mpr (fun other hother htied =>
      hunique other hother quiz (hlisted _ _ hquiz) htied (.refl _ _)) order
  have hlinked : s.core.Linked :=
    Navigation.linked_run (w := World.relaunch { uuids := uuids, strings := strings })
      (Core.linked_launch Context.Linked.empty Context.Linked.empty) hSucceeds
  have hcount : (c.foundQuotes quiz (some order')).length = c.quoteCountLabel quiz := by
    obtain ⟨z, hz⟩ := Heap.mem_live.mp (hlisted _ _ hquiz)
    show (order'.apply (c.storedQuotes quiz)).length = _
    rw [order'.length_apply, hlinked.context.storedQuotes_eq_quotesOf hz]
    rfl
  have hplay := Navigation.run_play hstack hrunning (by simp [hcell]) hcertain (some order')
    shuffle l
  rw [hcount] at hplay
  exact hplay

/-- The user logs in, makes a quiz of two quotes, and looks at its row. -/
def NavigationAction.firstRow : List NavigationAction :=
  [.logInEnds .offline {}, .showHome, .showCreateQuiz, .startButtonTapped "Films" {}] ++
    (EditorAction.fillIn sampleTexts).map .edit ++ [.edit (.next {} .asIs)] ++
    (EditorAction.fillIn otherTexts).map .edit ++
    [.edit (.next {} .asIs), .back, .back, .showQuizzes (some .asIs), .displayRow 0 (some .asIs)]

def NavigationEvent.firstRow : List NavigationEvent := NavigationAction.firstRow.map .action

/-- The row says 2: the first tap shows the next quote, and the second one the results. -/
theorem row_counts_taps_firstRow :
    let s := run (Navigation.handle .byCharacters)
      (.launch (World.relaunch { uuids := .numbered })) NavigationEvent.firstRow
    ∀ order order' shuffle tap tap',
      let start := [NavigationEvent.action (.selectRow 0 (some order)),
        .action (.startQuiz (some order') shuffle)]
      (∃ v rest, (run (Navigation.handle .byCharacters) s
        (start ++ [.action (.tap tap)])).stack = ⟨some 0, .quote v⟩ :: rest) ∧
      ∃ r rest, (run (Navigation.handle .byCharacters) s
        (start ++ [.action (.tap tap), .action (.tap tap')])).stack = ⟨some 0, .results r⟩ :: rest ∧
          r.quizTitleLabel = some "Films" := by
  intro s order order' shuffle tap tap'
  have hSucceeds : ∀ e ∈ NavigationEvent.firstRow, e.Succeeds := by decide
  have hFetches : ∀ e ∈ NavigationEvent.firstRow, e.Fetches := by decide
  have hlisted : s.core.world.context.listedQuizzes = [0] := by decide
  have honly : ∀ a ∈ s.core.world.context.listedQuizzes, a = 0 := fun a ha =>
    List.mem_singleton.mp (hlisted ▸ ha)
  obtain ⟨n, hn, hplay⟩ := row_counts_taps .byCharacters .numbered .byCodePoints hSucceeds hFetches
    (some 0) _ _ 0 _ rfl rfl (fun a ha b hb _ _ => (honly a ha).trans (honly b hb).symm)
  have hlabel : Nat.repr n = Nat.repr 2 := hn.symm.trans rfl
  have htwo : n = 2 := repr_injective hlabel
  subst htwo
  exact ⟨(hplay order order' shuffle [tap]).1 (Nat.lt_succ_self 1),
    (hplay order order' shuffle [tap, tap']).2 (le_refl 2)⟩

end KnowTheQuote
