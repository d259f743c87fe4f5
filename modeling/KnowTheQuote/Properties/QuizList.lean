import KnowTheQuote.Properties.Navigation

/-!
# Know the Quote — the list of quizzes

Every row of the list is looked up by a fetch of its own, when it is displayed and again when
it is tapped, in whatever order the fetch leaves quizzes of one title. The titles themselves
are the same at both times: nothing reachable from the list changes a quiz, and a login that
ends while the list is open can at most bring in the saved quizzes again, as new objects.

* `quizAt_tied` — two lookups of a row find quizzes whose titles compare equal.
* `ListSound` — what the rows on screen say of the quizzes there are.
* `rows_open` — no tap on a row fails, and it opens a quiz of the title on display.
* `row_opens_shown_iff` — when it opens the very quiz on display.
-/

namespace KnowTheQuote

open Machine

-- ---------------------------------------------------------------------------
-- Lookups
-- ---------------------------------------------------------------------------

namespace Context

variable {c c' : Context} {t : TitleOrder} {fetch fetch' : FetchOutcome} {row : Nat}
  {quiz quiz' : ObjectID}

/-- The titles of the list, in no particular order. -/
def quizTitles (c : Context) : List (Option String) := c.listedQuizzes.map c.quizTitle

/-- A fetch sorts all quizzes by title. -/
theorem fetchedQuizzes_spec {quizzes : List ObjectID}
    (h : c.fetchedQuizzes t fetch = some quizzes) :
    quizzes.Perm c.listedQuizzes ∧ SortedBy t.Le c.quizTitle quizzes := by
  obtain ⟨order, -, rfl⟩ := Option.map_eq_some_iff.mp h
  have htotal : Std.Total fun a b => t.Le (c.quizTitle a) (c.quizTitle b) :=
    ⟨fun a b => t.total _ _⟩
  have htrans : IsTrans ObjectID fun a b => t.Le (c.quizTitle a) (c.quizTitle b) :=
    ⟨fun _ _ _ => t.trans⟩
  exact ⟨(List.perm_insertionSort _ _).trans (order.perm _), List.pairwise_insertionSort _ _⟩

/-- Every sorted list of all quizzes may be fetched. -/
theorem exists_fetchedQuizzes {quizzes : List ObjectID} (hperm : quizzes.Perm c.listedQuizzes)
    (hsorted : SortedBy t.Le c.quizTitle quizzes) :
    ∃ order, c.fetchedQuizzes t (some order) = some quizzes := by
  refine ⟨.listing hperm, ?_⟩
  rw [fetchedQuizzes, Option.map_some, Reordering.listing_apply]
  exact congrArg some (List.Pairwise.insertionSort_eq hsorted)

theorem quizAt_eq_some :
    c.quizAt t fetch row = some quiz ↔
      ∃ quizzes, c.fetchedQuizzes t fetch = some quizzes ∧ quizzes[row]? = some quiz :=
  Option.bind_eq_some_iff

theorem exists_quizAt (order : Reordering ObjectID) (h : row < c.listedQuizzes.length) :
    ∃ quiz, c.quizAt t (some order) row = some quiz := by
  have hfetched : c.fetchedQuizzes t (some order) = some _ := rfl
  have hlen := (fetchedQuizzes_spec hfetched).1.length_eq
  exact ⟨_, quizAt_eq_some.mpr ⟨_, hfetched, List.getElem?_eq_getElem (hlen ▸ h)⟩⟩

/-- Whatever order a lookup leaves quizzes of one title in: where there are the same titles,
the titles it finds compare equal. -/
theorem quizAt_tied (htitles : c.quizTitles.Perm c'.quizTitles)
    (h : c.quizAt t fetch row = some quiz) (h' : c'.quizAt t fetch' row = some quiz') :
    AntisymmRel t.Le (c.quizTitle quiz) (c'.quizTitle quiz') := by
  obtain ⟨quizzes, hfetched, hat⟩ := quizAt_eq_some.mp h
  obtain ⟨quizzes', hfetched', hat'⟩ := quizAt_eq_some.mp h'
  obtain ⟨hperm, hsorted⟩ := fetchedQuizzes_spec hfetched
  obtain ⟨hperm', hsorted'⟩ := fetchedQuizzes_spec hfetched'
  have hkeys : (quizzes.map c.quizTitle).Perm (quizzes'.map c'.quizTitle) :=
    (hperm.map _).trans (htitles.trans (hperm'.map _).symm)
  have hkey : (quizzes.map c.quizTitle)[row]? = some (c.quizTitle quiz) := by
    rw [List.getElem?_map, hat, Option.map_some]
  obtain ⟨title, htitle, htied⟩ :=
    exists_getElem?_antisymmRel hkeys hsorted.map_key hsorted'.map_key hkey
  rw [List.getElem?_map, hat', Option.map_some] at htitle
  exact Option.some.inj htitle ▸ htied

/-- A lookup finds the same quiz in every order exactly when no other title compares equal. -/
theorem quizAt_certain_iff {order : Reordering ObjectID}
    (h : c.quizAt t (some order) row = some quiz) :
    (∀ order', c.quizAt t (some order') row = some quiz) ↔
      ∀ other ∈ c.listedQuizzes, AntisymmRel t.Le (c.quizTitle quiz) (c.quizTitle other) →
        other = quiz := by
  obtain ⟨quizzes, hfetched, hat⟩ := quizAt_eq_some.mp h
  obtain ⟨hperm, hsorted⟩ := fetchedQuizzes_spec hfetched
  have hnodup : quizzes.Nodup := hperm.nodup_iff.mpr (Heap.nodup_live _)
  have hcertain := hsorted.position_iff hnodup hat
  constructor
  · intro hall other hother
    refine hcertain.mp (fun quizzes' hperm' hsorted' => ?_) other (hperm.mem_iff.mpr hother)
    obtain ⟨order', hfetched'⟩ := exists_fetchedQuizzes (hperm'.trans hperm) hsorted'
    obtain ⟨quizzes'', hfetched'', hat'⟩ := quizAt_eq_some.mp (hall order')
    rw [hfetched'] at hfetched''
    rwa [Option.some.inj hfetched'']
  · intro hunique order'
    obtain ⟨quizzes', hfetched'⟩ : ∃ l, c.fetchedQuizzes t (some order') = some l := ⟨_, rfl⟩
    obtain ⟨hperm', hsorted'⟩ := fetchedQuizzes_spec hfetched'
    refine quizAt_eq_some.mpr ⟨quizzes', hfetched', ?_⟩
    exact hcertain.mpr (fun b hb => hunique b (hperm.mem_iff.mp hb)) quizzes'
      (hperm'.trans hperm.symm) hsorted'

-- ---------------------------------------------------------------------------
-- A login while the list is open
-- ---------------------------------------------------------------------------

/-- The saved quizzes have their titles when they are brought in again. -/
theorem quizTitles_reload (c store : Context) : (c.reload store).quizTitles = store.quizTitles := by
  unfold quizTitles listedQuizzes
  show ((c.quizzes.reload store.quizzes _).live).map _ = _
  rw [Heap.live_reload, List.map_map]
  refine List.map_congr_left fun quiz _ => ?_
  show ((c.quizzes.reload store.quizzes _).get? (c.quizzes.size + quiz)).bind Quiz.title = _
  rw [Heap.get?_reload_add]
  cases hget : store.quizzes.get? quiz <;> simp [quizTitle, hget]

end Context

namespace Core

/-- The context and the store have the same titles, in one order. -/
structure SameTitles (titles : List (Option String)) (c : Core) : Prop where
  context : c.world.context.quizTitles = titles
  store : c.world.coreData.store.quizTitles = titles

theorem SameTitles.save {titles : List (Option String)} {c : Core} (h : c.SameTitles titles)
    (saves : Bool) : (c.save saves).SameTitles titles := by
  cases saves with
  | true => exact ⟨h.context, h.context⟩
  | false =>
    have hreload := (Context.quizTitles_reload c.world.context c.world.coreData.store).trans h.store
    exact ⟨hreload, hreload⟩

/-- A login creates and saves users, but no quiz. -/
theorem SameTitles.getUser {titles : List (Option String)} {c : Core} (h : c.SameTitles titles)
    (r : Response) (env : LogInEnv) : (c.getUser r env).SameTitles titles :=
  getUser_induction (fun _ _ _ _ h => ⟨h.context, h.store⟩) (fun _ _ _ h => h.save _)
    (fun _ _ _ h => ⟨h.context, h.store⟩) (fun _ _ h => ⟨h.context, h.store⟩)
    (fun _ _ h => ⟨h.context, h.store⟩) (fun _ _ h => ⟨h.context, h.store⟩)
    (fun _ _ _ _ h => ⟨h.context, h.store⟩)
    (fun c h => ⟨c.world_syncUser ▸ h.context, c.world_syncUser ▸ h.store⟩) h r

end Core

-- ---------------------------------------------------------------------------
-- What a row says
-- ---------------------------------------------------------------------------

/-- There is such a row, and whatever quiz a lookup finds there, its title compares equal to
the label. -/
structure RowSays (t : TitleOrder) (c : Context) (row : Nat) (label : Option String) : Prop where
  lt : row < c.listedQuizzes.length
  tied : ∀ fetch quiz, c.quizAt t fetch row = some quiz →
    AntisymmRel t.Le label (c.quizTitle quiz)

section Rows

variable {t : TitleOrder} {c c' : Context} {row : Nat} {label : Option String}

theorem length_of_titles (htitles : c'.quizTitles = c.quizTitles) :
    c'.listedQuizzes.length = c.listedQuizzes.length := by
  simpa [Context.quizTitles] using congrArg List.length htitles

theorem rowSays_of_quizAt {fetch : FetchOutcome} {quiz : ObjectID}
    (h : c.quizAt t fetch row = some quiz) : RowSays t c row (c.quizTitle quiz) where
  lt := by
    obtain ⟨quizzes, hfetched, hat⟩ := Context.quizAt_eq_some.mp h
    rw [← (Context.fetchedQuizzes_spec hfetched).1.length_eq]
    exact (List.getElem?_eq_some_iff.mp hat).1
  tied _ _ h' := Context.quizAt_tied (.refl _) h h'

theorem RowSays.of_titles (h : RowSays t c row label) (htitles : c'.quizTitles = c.quizTitles) :
    RowSays t c' row label where
  lt := length_of_titles htitles ▸ h.lt
  tied fetch' quiz' h' := by
    obtain ⟨quiz, hquiz⟩ := Context.exists_quizAt (t := t) .asIs h.lt
    exact (h.tied _ quiz hquiz).trans (Context.quizAt_tied (htitles ▸ .refl _) hquiz h')

end Rows

/-- The lookups of rows do not throw. -/
def NavigationAction.Fetches : NavigationAction → Prop
  | .displayRow _ fetch | .selectRow _ fetch => fetch.isSome
  | .logInEnds _ _ | .taskFailed _ | .showHome | .showCreateQuiz | .showQuizzes _
  | .startButtonTapped _ _ | .edit _ | .startQuiz _ _ | .tap _ | .doneButtonTapped | .back => True

instance : DecidablePred NavigationAction.Fetches
  | .displayRow _ fetch | .selectRow _ fetch => inferInstanceAs (Decidable (fetch.isSome = true))
  | .logInEnds _ _ | .taskFailed _ | .showHome | .showCreateQuiz | .showQuizzes _
  | .startButtonTapped _ _ | .edit _ | .startQuiz _ _ | .tap _ | .doneButtonTapped | .back =>
    .isTrue trivial

def NavigationEvent.Fetches : NavigationEvent → Prop
  | .action a => a.Fetches
  | .launch => True

instance : DecidablePred NavigationEvent.Fetches
  | .action a => inferInstanceAs (Decidable a.Fetches)
  | .launch => .isTrue trivial

-- ---------------------------------------------------------------------------
-- The list on the stack
-- ---------------------------------------------------------------------------

namespace Navigation

variable {s : Navigation} {t : TitleOrder} {user : Option ObjectID}

/-- The list is on the stack, on top or below. -/
def Lists (s : Navigation) (view : QuizzesTableViewController) : Prop :=
  ∃ e ∈ s.stack, e.controller = .quizzes view

/-- Only a Start and the editor change the store: both need a user, and neither is reached
from the list. -/
theorem world_step (h : Path user s.stack) (hquiet : user = none ∨ ∃ view, s.Lists view)
    {a : NavigationAction} (ha : ∀ r env, a ≠ .logInEnds r env) :
    (s.step t a).core.world = s.core.world := by
  cases a with
  | logInEnds r env => exact absurd rfl (ha r env)
  | taskFailed index =>
    show (s.core.step (.taskFailed index)).world = _
    rw [Core.step_taskFailed]
  | startButtonTapped title env =>
    show (s.startButtonTapped title env).core.world = _
    unfold startButtonTapped
    split
    · next hstack =>
      rw [hstack] at h
      cases h
      simp [Lists, hstack] at hquiet
    · rfl
  | edit a =>
    show (s.edit a).core.world = _
    unfold edit
    split
    · next hstack =>
      rw [hstack] at h
      cases h with
      | newQuote huser =>
        rcases hquiet with rfl | ⟨view, e, he, hview⟩
        · cases huser
        · simp [hstack] at he
          rcases he with rfl | rfl | rfl <;> cases hview
    · rfl
  | tap t' =>
    show (s.tap t').core.world = _
    unfold tap
    split
    · dsimp only
      split <;> exact PlayState.world_step ⟨_, s.core⟩ t'
    · rfl
  | showHome | showCreateQuiz | showQuizzes | displayRow | selectRow | startQuiz
  | doneButtonTapped | back =>
    simp only [step, showHome, showCreateQuiz, showQuizzes, displayRow, selectRow, startQuiz,
      doneButtonTapped, back, push]
    repeat' split
    all_goals rfl

/-- Where a list on the stack comes from. -/
inductive ListCases (t : TitleOrder) (s : Navigation) (view' : QuizzesTableViewController) :
    NavigationAction → Prop
  | kept {a} (h : s.Lists view') : ListCases t s view' a
  | shown {user fetch rest} (hstack : s.stack = ⟨user, .home⟩ :: rest)
      (hview : view' = { numberOfRows :=
        QuizzesTableViewController.numberOfRowsInSection s.core.world.context t fetch }) :
      ListCases t s view' (.showQuizzes fetch)
  | displayed {row fetch view quiz} (h : s.Lists view) (hrow : row < view.numberOfRows)
      (hquiz : s.core.world.context.quizAt t fetch row = some quiz)
      (hview : view' = { view with
        cells := Function.update view.cells row
          (some (QuizzesTableViewController.cellFor s.core.world.context quiz)) }) :
      ListCases t s view' (.displayRow row fetch)

/-- A screen other than the list lies on top of it. -/
theorem lists_cons {stack : List Shown} {e : Shown} {view : QuizzesTableViewController}
    (h : ∃ e' ∈ e :: stack, e'.controller = .quizzes view) (he : e.controller ≠ .quizzes view) :
    ∃ e' ∈ stack, e'.controller = .quizzes view := by
  obtain ⟨e', hmem, hview⟩ := h
  rcases List.mem_cons.mp hmem with rfl | hmem
  · exact absurd hview he
  · exact ⟨e', hmem, hview⟩

theorem lists_of_rest {stack : List Shown} {e : Shown} {view : QuizzesTableViewController}
    (hstack : s.stack = e :: stack) (h : ∃ e' ∈ stack, e'.controller = .quizzes view) :
    s.Lists view := by
  obtain ⟨e', hmem, hview⟩ := h
  exact ⟨e', hstack ▸ List.mem_cons_of_mem _ hmem, hview⟩

theorem list_cases {a : NavigationAction} {view' : QuizzesTableViewController}
    (h : (s.step t a).Lists view') : ListCases t s view' a := by
  cases a with
  | logInEnds r env =>
    change (s.logInEnds r env).Lists view' at h
    unfold logInEnds at h
    split at h <;> exact .kept h
  | taskFailed index => exact .kept h
  | showHome =>
    change s.showHome.Lists view' at h
    unfold showHome at h
    split at h
    · exact .kept (lists_cons h (by simp))
    · exact .kept h
  | showCreateQuiz =>
    change s.showCreateQuiz.Lists view' at h
    unfold showCreateQuiz at h
    split at h
    · exact .kept (lists_cons h (by simp))
    · exact .kept h
  | showQuizzes fetch =>
    change (s.showQuizzes t fetch).Lists view' at h
    unfold showQuizzes at h
    split at h
    · next hstack =>
      obtain ⟨e, he, hview⟩ := h
      rcases List.mem_cons.mp he with rfl | he
      · exact .shown hstack (ViewController.quizzes.inj hview).symm
      · exact .kept ⟨e, he, hview⟩
    · exact .kept h
  | startButtonTapped title env =>
    change (s.startButtonTapped title env).Lists view' at h
    unfold startButtonTapped at h
    split at h
    · split at h
      · exact .kept h
      · exact .kept (lists_cons h (by simp))
    · exact .kept h
  | edit a =>
    change (s.edit a).Lists view' at h
    unfold edit at h
    split at h
    · next hstack =>
      dsimp only [Lists] at h
      split at h
      · obtain ⟨e, he, -⟩ := h
        exact absurd he List.not_mem_nil
      · exact .kept (lists_of_rest hstack (lists_cons h (by simp)))
    · exact .kept h
  | displayRow row fetch =>
    change (s.displayRow t row fetch).Lists view' at h
    unfold displayRow at h
    split at h
    · next user view rest hstack =>
      split at h
      · next hrow =>
        split at h
        · exact .kept h
        · next hquiz =>
          obtain ⟨e, he, hview⟩ := h
          rcases List.mem_cons.mp he with rfl | he
          · have hlists : s.Lists view := ⟨_, hstack ▸ List.mem_cons_self .., rfl⟩
            exact .displayed hlists hrow hquiz (ViewController.quizzes.inj hview).symm
          · exact .kept (lists_of_rest hstack ⟨e, he, hview⟩)
      · exact .kept h
    · exact .kept h
  | selectRow row fetch =>
    change (s.selectRow t row fetch).Lists view' at h
    unfold selectRow at h
    split at h
    · split at h
      · split at h
        · exact .kept h
        · exact .kept (lists_cons h (by simp))
      · exact .kept h
    · exact .kept h
  | startQuiz fetch shuffle =>
    change (s.startQuiz fetch shuffle).Lists view' at h
    unfold startQuiz at h
    split at h
    · exact .kept (lists_cons h (by simp))
    · exact .kept h
  | tap t' =>
    change (s.tap t').Lists view' at h
    unfold tap at h
    split at h
    · next hstack =>
      dsimp only at h
      split at h
      · exact .kept (lists_of_rest hstack (lists_cons (lists_cons h (by simp)) (by simp)))
      · exact .kept (lists_of_rest hstack (lists_cons h (by simp)))
    · exact .kept h
  | doneButtonTapped =>
    change s.doneButtonTapped.Lists view' at h
    unfold doneButtonTapped at h
    split at h
    · obtain ⟨e, he, -⟩ := h
      exact absurd he List.not_mem_nil
    · exact .kept h
  | back =>
    obtain ⟨e, he, hview⟩ := h
    exact .kept ⟨e, List.mem_of_mem_tail he, hview⟩

-- ---------------------------------------------------------------------------
-- Runs
-- ---------------------------------------------------------------------------

/-- What holds in every run from a launch: until the login ends no quiz is there that is not
saved, and the lists on the stack say what the context has. -/
structure ListSound (t : TitleOrder) (s : Navigation) : Prop extends Sound s where
  saved : s.loggingIn = true → s.core.SameTitles s.core.world.context.quizTitles
  rows : ∀ view, s.Lists view →
    view.numberOfRows ≤ s.core.world.context.listedQuizzes.length
  cells : ∀ view, s.Lists view → ∀ row cell, view.cells row = some cell →
    RowSays t s.core.world.context row cell.titleLabel

theorem listSound_launch (t : TitleOrder) (w : World) : ListSound t (launch w.relaunch) where
  toSound := sound_launch _
  saved _ := ⟨rfl, rfl⟩
  rows view h := by
    obtain ⟨e, he, -⟩ := h
    exact absurd he List.not_mem_nil
  cells view h := by
    obtain ⟨e, he, -⟩ := h
    exact absurd he List.not_mem_nil

/-- The world is left alone while the login is on its way. -/
theorem Sound.world_step_of_waiting (h : s.Sound) (hwaiting : s.loggingIn = true)
    {a : NavigationAction} (ha : ∀ r env, a ≠ .logInEnds r env) :
    (s.step t a).core.world = s.core.world := by
  obtain ⟨user, hpath, huser⟩ := h.path
  refine world_step hpath (.inl ?_) ha
  cases huser' : user with
  | none => rfl
  | some u =>
    have hsome := huser (huser' ▸ rfl)
    rw [h.waiting hwaiting, huser'] at hsome
    cases hsome

/-- Where a list is still on the stack, it lists the same titles. -/
theorem ListSound.titles_step (h : ListSound t s) {a : NavigationAction}
    {view : QuizzesTableViewController} (hlists : (s.step t a).Lists view) :
    (s.step t a).core.world.context.quizTitles = s.core.world.context.quizTitles := by
  obtain ⟨user, hpath, -⟩ := h.path
  by_cases ha : ∃ r env, a = .logInEnds r env
  · obtain ⟨r, env, rfl⟩ := ha
    show (s.logInEnds r env).core.world.context.quizTitles = _
    unfold logInEnds
    split
    · next hwaiting => exact ((h.saved hwaiting).getUser r env).context
    · rfl
  · have ha' : ∀ r env, a ≠ .logInEnds r env := fun r env heq => ha ⟨r, env, heq⟩
    cases list_cases hlists with
    | kept hkept => rw [world_step hpath (.inr ⟨view, hkept⟩) ha']
    | displayed hkept => rw [world_step hpath (.inr ⟨_, hkept⟩) ha']
    | @shown _ fetch =>
      show (s.showQuizzes t fetch).core.world.context.quizTitles = _
      unfold showQuizzes
      split <;> rfl

theorem numberOfRows_le (c : Context) (fetch : FetchOutcome) :
    QuizzesTableViewController.numberOfRowsInSection c t fetch ≤ c.listedQuizzes.length := by
  unfold QuizzesTableViewController.numberOfRowsInSection
  cases hfetched : c.fetchedQuizzes t fetch with
  | none => exact Nat.zero_le _
  | some quizzes => exact (Context.fetchedQuizzes_spec hfetched).1.length_eq.le

/-- One action. -/
theorem ListSound.step (h : ListSound t s) (a : NavigationAction) : ListSound t (s.step t a) where
  toSound := h.toSound.step a
  saved hwaiting := by
    by_cases ha : ∃ r env, a = .logInEnds r env
    · obtain ⟨r, env, rfl⟩ := ha
      change (s.logInEnds r env).loggingIn = true at hwaiting
      show (s.logInEnds r env).core.SameTitles _
      unfold logInEnds at hwaiting ⊢
      split
      · next hbefore =>
        rw [if_pos hbefore] at hwaiting
        cases hwaiting
      · next hbefore =>
        rw [if_neg hbefore] at hwaiting
        exact absurd hwaiting hbefore
    · have ha' : ∀ r env, a ≠ .logInEnds r env := fun r env heq => ha ⟨r, env, heq⟩
      rw [loggingIn_step ha'] at hwaiting
      have hworld := h.world_step_of_waiting (t := t) hwaiting ha'
      obtain ⟨hcontext, hstore⟩ := h.saved hwaiting
      exact ⟨rfl, by rw [hworld]; exact hstore⟩
  rows view hlists := by
    rw [length_of_titles (h.titles_step hlists)]
    cases list_cases hlists with
    | kept hkept => exact h.rows view hkept
    | @displayed _ _ view' _ hkept _ _ hview =>
      rw [hview]
      exact h.rows view' hkept
    | shown _ hview =>
      rw [hview]
      exact numberOfRows_le _ _
  cells view hlists row cell hcell := by
    refine RowSays.of_titles ?_ (h.titles_step hlists)
    cases list_cases hlists with
    | kept hkept => exact h.cells view hkept row cell hcell
    | shown _ hview =>
      rw [hview] at hcell
      cases hcell
    | @displayed row' _ view' _ hkept _ hquiz hview =>
      rw [hview] at hcell
      change Function.update view'.cells row' _ row = some cell at hcell
      by_cases hrow : row = row'
      · rw [hrow, Function.update_self] at hcell
        rw [← Option.some.inj hcell, hrow]
        exact rowSays_of_quizAt hquiz
      · rw [Function.update_of_ne hrow] at hcell
        exact h.cells view' hkept row cell hcell

theorem ListSound.handle (h : ListSound t s) (e : NavigationEvent) :
    ListSound t (s.handle t e) := by
  cases e with
  | action a =>
    show ListSound t (if s.terminated then s else s.step t a)
    split
    · exact h
    · exact h.step a
  | launch => exact listSound_launch t _

theorem listSound_run (t : TitleOrder) (w : World) (es : List NavigationEvent) :
    ListSound t (run (Navigation.handle t) (.launch w.relaunch) es) :=
  invariant_run_all (fun _ e h => h.handle e) (listSound_launch t w) es

/-- A row on screen is found by every lookup that does not throw. -/
theorem ListSound.exists_quizAt (h : ListSound t s) {view : QuizzesTableViewController}
    (hlists : s.Lists view) {row : Nat} {cell : QuizTableViewCell}
    (hcell : view.cells row = some cell) (order : Reordering ObjectID) :
    ∃ quiz, s.core.world.context.quizAt t (some order) row = some quiz ∧
      AntisymmRel t.Le cell.titleLabel (s.core.world.context.quizTitle quiz) := by
  have hsaid := h.cells view hlists row cell hcell
  obtain ⟨quiz, hquiz⟩ := Context.exists_quizAt (t := t) order hsaid.lt
  exact ⟨quiz, hquiz, hsaid.tied _ quiz hquiz⟩

/-- Only a lookup whose fetch throws ends the app. -/
theorem ListSound.terminated_step (h : ListSound t s) {a : NavigationAction}
    (ha : a.Fetches) : (s.step t a).terminated = s.terminated := by
  cases a with
  | displayRow row fetch =>
    obtain ⟨order, rfl⟩ := Option.isSome_iff_exists.mp ha
    show (s.displayRow t row (some order)).terminated = _
    unfold displayRow
    split
    · next user view rest hstack =>
      split
      · next hrow =>
        have hlists : s.Lists view := ⟨_, hstack ▸ List.mem_cons_self .., rfl⟩
        obtain ⟨quiz, hquiz⟩ := Context.exists_quizAt (t := t) order
          (lt_of_lt_of_le hrow (h.rows view hlists))
        rw [hquiz]
      · rfl
    · rfl
  | selectRow row fetch =>
    obtain ⟨order, rfl⟩ := Option.isSome_iff_exists.mp ha
    show (s.selectRow t row (some order)).terminated = _
    unfold selectRow
    split
    · next user view rest hstack =>
      split
      · next hcell =>
        obtain ⟨cell, hcell⟩ := Option.isSome_iff_exists.mp hcell
        have hlists : s.Lists view := ⟨_, hstack ▸ List.mem_cons_self .., rfl⟩
        obtain ⟨quiz, hquiz, -⟩ := h.exists_quizAt hlists hcell order
        rw [hquiz]
        rfl
      · rfl
    · rfl
  | taskFailed | back => rfl
  | logInEnds | showHome | showCreateQuiz | showQuizzes | startButtonTapped | edit | startQuiz
  | tap | doneButtonTapped =>
    simp only [Navigation.step, logInEnds, showHome, showCreateQuiz, showQuizzes,
      startButtonTapped, edit, startQuiz, tap, doneButtonTapped, push]
    repeat' split
    all_goals rfl

theorem terminated_run (w : World) {es : List NavigationEvent} (hes : ∀ e ∈ es, e.Fetches) :
    (run (Navigation.handle t) (.launch w.relaunch) es).terminated = false := by
  have hstep : ∀ (s : Navigation) (e : NavigationEvent),
      ListSound t s ∧ s.terminated = false → e.Fetches →
      ListSound t (s.handle t e) ∧ (s.handle t e).terminated = false := by
    intro s e h he
    refine ⟨h.1.handle e, ?_⟩
    cases e with
    | action a =>
      show (if s.terminated then s else s.step t a).terminated = false
      rw [if_neg (by simp [h.2]), h.1.terminated_step he]
      exact h.2
    | launch => rfl
  exact (invariant_run_of_forall hstep ⟨listSound_launch t w, rfl⟩ hes).2

/-- What a tap on a row opens. -/
theorem selectRow_eq {rest : List Shown} {view : QuizzesTableViewController}
    (hstack : s.stack = ⟨user, .quizzes view⟩ :: rest) {row : Nat} {fetch : FetchOutcome}
    {quiz : ObjectID} (hcell : (view.cells row).isSome)
    (hquiz : s.core.world.context.quizAt t fetch row = some quiz) :
    s.step t (.selectRow row fetch) = s.push user (.quiz
      (QuizViewController.updateViews { quiz } s.core.world.context user)) := by
  show s.selectRow t row fetch = _
  unfold selectRow
  rw [hstack]
  dsimp only
  rw [if_pos hcell, hquiz]

/-- What the display of a row leaves. -/
theorem displayRow_eq {rest : List Shown} {view : QuizzesTableViewController}
    (hstack : s.stack = ⟨user, .quizzes view⟩ :: rest) {row : Nat} {fetch : FetchOutcome}
    {quiz : ObjectID} (hrow : row < view.numberOfRows)
    (hquiz : s.core.world.context.quizAt t fetch row = some quiz) :
    s.step t (.displayRow row fetch) = { s with stack := ⟨user, .quizzes { view with
      cells := Function.update view.cells row
        (some (QuizzesTableViewController.cellFor s.core.world.context quiz)) }⟩ :: rest } := by
  show s.displayRow t row fetch = _
  unfold displayRow
  rw [hstack]
  dsimp only
  rw [if_pos hrow, hquiz]

end Navigation

theorem quiz_updateViews (v : QuizViewController) (c : Context) (user : Option ObjectID) :
    (v.updateViews c user).quiz = v.quiz := by
  cases user <;> rfl

theorem titleLabel_updateViews (v : QuizViewController) (c : Context) {user : Option ObjectID}
    (huser : user.isSome) : (v.updateViews c user).titleLabel = c.quizTitle v.quiz := by
  cases user with
  | none => cases huser
  | some user => rfl

/-- **Rows open.** In every run in which the lookups of rows do not throw, whatever the saves,
the encodings and the other fetches do, no lookup of a row fails: the app is not terminated,
and a tap on a displayed row opens a quiz whose title compares equal to the label. -/
theorem rows_open (t : TitleOrder) (w : World) {es : List NavigationEvent}
    (hes : ∀ e ∈ es, e.Fetches) :
    let s := run (Navigation.handle t) (.launch w.relaunch) es
    s.terminated = false ∧
      ∀ user view rest row cell, s.stack = ⟨user, .quizzes view⟩ :: rest →
        view.cells row = some cell → ∀ order, ∃ z : QuizViewController,
          (s.step t (.selectRow row (some order))).stack = ⟨user, .quiz z⟩ :: s.stack ∧
            AntisymmRel t.Le cell.titleLabel (s.core.world.context.quizTitle z.quiz) ∧
            (user.isSome → z.titleLabel = s.core.world.context.quizTitle z.quiz) := by
  intro s
  have hsound : Navigation.ListSound t s := Navigation.listSound_run t w es
  refine ⟨Navigation.terminated_run w hes, ?_⟩
  intro user view rest row cell hstack hcell order
  have hlists : s.Lists view := ⟨_, hstack ▸ List.mem_cons_self .., rfl⟩
  obtain ⟨quiz, hquiz, htied⟩ := hsound.exists_quizAt hlists hcell order
  rw [Navigation.selectRow_eq hstack (by simp [hcell]) hquiz]
  refine ⟨_, rfl, ?_, fun huser => ?_⟩
  · rw [quiz_updateViews]
    exact htied
  · rw [titleLabel_updateViews _ _ huser, quiz_updateViews]

-- ---------------------------------------------------------------------------
-- From the display to the tap
-- ---------------------------------------------------------------------------

/-- The data task of `LogInViewController.getUser` ends. -/
def NavigationEvent.isLogInEnd : NavigationEvent → Bool
  | .action (.logInEnds _ _) => true
  | _ => false

namespace Navigation

variable {s : Navigation} {t : TitleOrder} {user : Option ObjectID}

/-- The user has not gone back from the list, and no login ends. -/
def ListOpen (s : Navigation) (e : NavigationEvent) : Prop :=
  (∃ view, s.Lists view) ∧ (e.isLogInEnd → s.loggingIn = false)

/-- There is one list on the stack at most. -/
theorem lists_unique (h : Path user s.stack) {view view' : QuizzesTableViewController}
    (hlists : s.Lists view) (hlists' : s.Lists view') : view = view' := by
  obtain ⟨core, loggingIn, stack, terminated⟩ := s
  cases h <;> simp_all [Lists]

/-- Nothing has happened since row `row` was displayed but what can happen above the list. -/
structure Displayed (w : World) (row : Nat) (s : Navigation) : Prop where
  world : s.core.world = w
  shown : ∃ view, s.Lists view ∧ (view.cells row).isSome

theorem Displayed.step {w : World} {row : Nat} (h : s.Displayed w row) (hpath : Path user s.stack)
    {a : NavigationAction} (hlogIn : (NavigationEvent.action a).isLogInEnd → s.loggingIn = false)
    (hopen : ∃ view, (s.step t a).Lists view) :
    (s.step t a).Displayed w row := by
  obtain ⟨view, hlists, hcell⟩ := h.shown
  obtain ⟨view', hlists'⟩ := hopen
  by_cases ha : ∃ r env, a = .logInEnds r env
  · obtain ⟨r, env, rfl⟩ := ha
    have hstep : s.step t (.logInEnds r env) = s := by
      show s.logInEnds r env = s
      unfold logInEnds
      rw [if_neg (by simp [hlogIn rfl])]
    rw [hstep]
    exact h
  · have ha' : ∀ r env, a ≠ .logInEnds r env := fun r env heq => ha ⟨r, env, heq⟩
    refine ⟨(world_step hpath (.inr ⟨view, hlists⟩) ha').trans h.world, view', hlists', ?_⟩
    cases list_cases hlists' with
    | kept hkept => exact lists_unique hpath hlists hkept ▸ hcell
    | shown hstack =>
      rw [hstack] at hpath
      cases hpath
      simp [Lists, hstack] at hlists
    | @displayed row' _ view₀ _ hkept _ _ hview =>
      rw [hview, ← lists_unique hpath hlists hkept]
      show (Function.update view.cells row' _ row).isSome
      by_cases hrow : row = row'
      · rw [hrow, Function.update_self]
        rfl
      · rw [Function.update_of_ne hrow]
        exact hcell

theorem displayed_displayRow {rest : List Shown} {view : QuizzesTableViewController}
    (hstack : s.stack = ⟨user, .quizzes view⟩ :: rest) {row : Nat}
    {fetch : FetchOutcome} {quiz : ObjectID} (hrow : row < view.numberOfRows)
    (hquiz : s.core.world.context.quizAt t fetch row = some quiz) :
    (s.step t (.displayRow row fetch)).Displayed s.core.world row := by
  rw [displayRow_eq hstack hrow hquiz]
  refine ⟨rfl, _, ⟨_, List.mem_cons_self .., rfl⟩, ?_⟩
  dsimp only
  rw [Function.update_self]
  rfl

/-- A tap on a displayed row opens one quiz in every order just when every lookup finds it. -/
theorem opens_all_iff {rest : List Shown} {view : QuizzesTableViewController}
    (hstack : s.stack = ⟨user, .quizzes view⟩ :: rest) {row : Nat}
    (hcell : (view.cells row).isSome) (hrow : row < s.core.world.context.listedQuizzes.length)
    (quiz : ObjectID) :
    (∀ order, ∃ z : QuizViewController,
      (s.step t (.selectRow row (some order))).stack = ⟨user, .quiz z⟩ :: s.stack ∧
        z.quiz = quiz) ↔
      ∀ order, s.core.world.context.quizAt t (some order) row = some quiz := by
  refine forall_congr' fun order => ?_
  obtain ⟨found, hfound⟩ := Context.exists_quizAt (t := t) order hrow
  rw [selectRow_eq hstack hcell hfound, hfound, Option.some.injEq]
  constructor
  · rintro ⟨z, hz, rfl⟩
    have htop := (List.cons_eq_cons.mp hz).1
    rw [← ViewController.quiz.inj (Shown.mk.inj htop).2, quiz_updateViews]
  · rintro rfl
    exact ⟨_, rfl, quiz_updateViews ..⟩

theorem displayed_run {w : World} {row : Nat} (hsound : s.Sound) (h : s.Displayed w row)
    {es : List NavigationEvent} (hopen : Along (Navigation.handle t) ListOpen s es)
    (hend : ∃ view, (run (Navigation.handle t) s es).Lists view) :
    (run (Navigation.handle t) s es).Displayed w row := by
  have hstep : ∀ (s : Navigation) (e : NavigationEvent),
      s.Sound ∧ ((∃ view, s.Lists view) → s.Displayed w row) → s.ListOpen e →
      (s.handle t e).Sound ∧
        ((∃ view, (s.handle t e).Lists view) → (s.handle t e).Displayed w row) := by
    rintro s e ⟨hsound, h⟩ hopen
    refine ⟨hsound.handle e, ?_⟩
    cases e with
    | action a =>
      show (∃ view, (if s.terminated then s else s.step t a).Lists view) →
        (if s.terminated then s else s.step t a).Displayed w row
      split
      · exact h
      · obtain ⟨user, hpath, -⟩ := hsound.path
        exact (h hopen.1).step hpath hopen.2
    | launch =>
      rintro ⟨view, e, he, -⟩
      exact absurd he List.not_mem_nil
  exact (invariant_run hstep ⟨hsound, fun _ => h⟩ hopen).2 hend

end Navigation

/-- Two quizzes of one title have been saved. -/
def World.twoFilms : World where
  uuids := .numbered
  coreData := { store := { quizzes :=
    (({} : Heap Quiz).alloc { title := some "Films" }).alloc { title := some "Films" } } }

/-- The list is opened before the login ends, and its first row displayed. -/
def NavigationEvent.earlyList : List NavigationEvent :=
  [.action .showHome, .action (.showQuizzes (some .asIs)), .action (.displayRow 0 (some .asIs))]

/-- The login then creates a user and cannot save it, so both quizzes are new objects. -/
def NavigationEvent.lateLogIn : NavigationEvent :=
  .action (.logInEnds .offline { onError := { saves := false } })

theorem rows_open_late :
    let s := run (Navigation.handle .byCharacters) (.launch World.twoFilms.relaunch)
      (NavigationEvent.earlyList ++ [.lateLogIn])
    s.core.world.context.listedQuizzes = [2, 3] ∧ ∀ order, ∃ z : QuizViewController,
      (s.step .byCharacters (.selectRow 0 (some order))).stack = ⟨none, .quiz z⟩ :: s.stack := by
  refine ⟨by decide, fun order => ?_⟩
  have hes : ∀ e ∈ NavigationEvent.earlyList ++ [.lateLogIn], e.Fetches := by decide
  obtain ⟨z, hz, -⟩ := (rows_open .byCharacters World.twoFilms hes).2 _ _ _ 0 _ rfl rfl order
  exact ⟨z, hz⟩

/-- **Which quiz.** A row is displayed for a quiz and tapped at a later time, the list having
been on the stack all the while, and no login having ended. The tap opens that very quiz
whatever order the fetches return, exactly when no other title compares equal to its own. -/
theorem row_opens_shown_iff (t : TitleOrder) (w : World) (before after : List NavigationEvent)
    {user user' : Option ObjectID} {view view' : QuizzesTableViewController}
    {rest rest' : List Shown} {row : Nat} {order : Reordering ObjectID} {quiz : ObjectID}
    (hrunning : (run (Navigation.handle t) (.launch w) before).terminated = false)
    (hstack : (run (Navigation.handle t) (.launch w) before).stack =
      ⟨user, .quizzes view⟩ :: rest)
    (hrow : row < view.numberOfRows)
    (hquiz : (run (Navigation.handle t) (.launch w) before).core.world.context.quizAt t
      (some order) row = some quiz)
    (hopen : Along (Navigation.handle t) Navigation.ListOpen
      ((run (Navigation.handle t) (.launch w) before).handle t
        (.action (.displayRow row (some order)))) after)
    (hend : (run (Navigation.handle t) (.launch w)
      (before ++ .action (.displayRow row (some order)) :: after)).stack =
        ⟨user', .quizzes view'⟩ :: rest') :
    let s := run (Navigation.handle t) (.launch w)
      (before ++ .action (.displayRow row (some order)) :: after)
    (∀ order', ∃ z : QuizViewController,
      (s.step t (.selectRow row (some order'))).stack = ⟨user', .quiz z⟩ :: s.stack ∧
        z.quiz = quiz) ↔
      ∀ other ∈ s.core.world.context.listedQuizzes,
        AntisymmRel t.Le (s.core.world.context.quizTitle quiz)
          (s.core.world.context.quizTitle other) → other = quiz := by
  intro s
  have hshown : ((run (Navigation.handle t) (.launch w) before).handle t
      (.action (.displayRow row (some order)))).Displayed
        (run (Navigation.handle t) (.launch w) before).core.world row := by
    show (if _ then _ else _ : Navigation).Displayed _ row
    rw [if_neg (by simp [hrunning])]
    exact Navigation.displayed_displayRow hstack hrow hquiz
  have hsound : s.Sound := Navigation.sound_run w _
  have hlists : s.Lists view' := ⟨_, hend ▸ List.mem_cons_self .., rfl⟩
  have hdisplayed : s.Displayed (run (Navigation.handle t) (.launch w) before).core.world row := by
    have hs : s = run (Navigation.handle t) ((run (Navigation.handle t) (.launch w) before).handle t
        (.action (.displayRow row (some order)))) after := run_append ..
    rw [hs] at hlists ⊢
    exact Navigation.displayed_run ((Navigation.sound_run w before).handle _) hshown hopen
      ⟨view', hlists⟩
  -- the lookup that was displayed is one of the lookups there are now
  rw [← hdisplayed.world] at hquiz
  obtain ⟨user₀, hpath, -⟩ := hsound.path
  obtain ⟨view₀, hlists₀, hcell⟩ := hdisplayed.shown
  rw [Navigation.lists_unique hpath hlists₀ hlists] at hcell
  rw [Navigation.opens_all_iff hend hcell (rowSays_of_quizAt hquiz).lt]
  exact Context.quizAt_certain_iff hquiz

/-- The user logs in and opens the list. -/
def NavigationEvent.openList : List NavigationEvent :=
  [.action (.logInEnds .offline {}), .action .showHome, .action (.showQuizzes (some .asIs))]

/-- A first tap on the row, a look at the first quote, and back to the list. -/
def NavigationEvent.lookAndBack : List NavigationEvent :=
  [.action (.selectRow 0 (some .asIs)), .action (.startQuiz (some .asIs) .asIs), .action .back,
    .action .back]

/-- The first of two quizzes of one title is on display; the tap may open the other. -/
theorem row_opens_shown_twoFilms :
    let s := run (Navigation.handle .byCharacters) (.launch World.twoFilms.relaunch)
      (NavigationEvent.openList ++
        .action (.displayRow 0 (some .asIs)) :: NavigationEvent.lookAndBack)
    ¬ ∀ order, ∃ z : QuizViewController,
      (s.step .byCharacters (.selectRow 0 (some order))).stack =
        ⟨some 0, .quiz z⟩ :: s.stack ∧ z.quiz = 0 := by
  intro s hall
  have hopen : Along (Navigation.handle .byCharacters) Navigation.ListOpen
      ((run (Navigation.handle .byCharacters) (.launch World.twoFilms.relaunch)
        NavigationEvent.openList).handle .byCharacters (.action (.displayRow 0 (some .asIs))))
      NavigationEvent.lookAndBack :=
    ⟨⟨⟨_, _, List.mem_cons_self .., rfl⟩, nofun⟩,
      ⟨⟨_, _, List.mem_cons_of_mem _ (List.mem_cons_self ..), rfl⟩, nofun⟩,
      ⟨⟨_, _, List.mem_cons_of_mem _ (List.mem_cons_of_mem _ (List.mem_cons_self ..)), rfl⟩, nofun⟩,
      ⟨⟨_, _, List.mem_cons_of_mem _ (List.mem_cons_self ..), rfl⟩, nofun⟩, trivial⟩
  have hothers := (row_opens_shown_iff .byCharacters World.twoFilms.relaunch
    NavigationEvent.openList NavigationEvent.lookAndBack rfl rfl (by decide) rfl hopen rfl).mp hall
  have hother := hothers 1 (by decide) (by decide)
  exact absurd hother (by decide)

end KnowTheQuote
