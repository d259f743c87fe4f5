import KnowTheQuote.Properties.LogInServer
import KnowTheQuote.Properties.Requests

/-!
# Know the Quote — the order of delivery

Users, quizzes and quotes are put at nested paths, and every PUT replaces what is
below its path. A quiz is put without its quotes and a user without its quizzes, so a
request that arrives after one below it takes that one away. No request waits for
another, so any order is possible.

* `Request.clears_or_spares` — two requests of a run either do not meet or one clears
  the other.
* `converges_iff` — the orders in which every quiz and quote arrives at its place.
* `late_quiz_clears_quote` — one in which a quote does not.
-/

namespace KnowTheQuote

open Machine PathTree

-- ---------------------------------------------------------------------------
-- The documents
-- ---------------------------------------------------------------------------

/-- An empty array leaves nothing behind. -/
theorem QuizRepresentation.leafAt_quotes {rep : QuizRepresentation} (hquotes : rep.quotes = [])
    (q : List String) : rep.document.leafAt ("quotes" :: q) = none := by
  unfold document
  rw [hquotes]
  cases q <;> rfl

/-- The leaves of a quiz without quotes are those of its other fields. -/
theorem QuizRepresentation.leafAt_document {rep : QuizRepresentation} (hquotes : rep.quotes = [])
    {q : List String} (hq : rep.document.leafAt q ≠ none) :
    ∃ field rest, q = field :: rest ∧ field ≠ "quotes" := by
  rcases q with _ | ⟨field, rest⟩
  · exact absurd rfl hq
  · refine ⟨field, rest, rfl, ?_⟩
    rintro rfl
    exact hq (rep.leafAt_quotes hquotes rest)

namespace Request

/-- The request puts a quiz or a quote. -/
def isCreation (r : Request) : Bool :=
  match r.body with
  | .user _ => false
  | .quiz _ | .quote _ => true

/-- The write of the server. -/
def write (r : Request) : Write String JSONValue := (r.path, r.body.document)

/-- A quiz or a quote is in the tree, at the place for it below the user it was put for. -/
def IsStored (tree : Document) (r : Request) : Prop :=
  match r.body with
  | .user _ => True
  | .quiz rep => ∃ username,
      r.path = ["users", username, "quizzesCreated", rep.id.uuidString] ∧
        tree.Contains r.path rep.document
  | .quote rep => ∃ username,
      r.path = ["users", username, "quizzesCreated", rep.quizID, "quotes", rep.quoteID] ∧
        tree.Contains r.path rep.document

variable {uuids : UUIDSource} {drawn : Nat} {r r' : Request}

/-- A shaped request has the right path, so what counts is its document. -/
theorem Shaped.isStored_iff (h : r.Shaped uuids drawn) (tree : Document) :
    r.IsStored tree ↔ (r.isCreation → tree.Contains r.path r.body.document) := by
  cases h with
  | user username rep => exact iff_of_true trivial nofun
  | quiz username rep =>
    exact ⟨fun ⟨_, _, hcontains⟩ _ => hcontains, fun h => ⟨username, rfl, h rfl⟩⟩
  | quote username rep =>
    exact ⟨fun ⟨_, _, hcontains⟩ _ => hcontains, fun h => ⟨username, rfl, h rfl⟩⟩

/-- The document of a quiz or a quote is not empty. -/
theorem exists_leaf (hr : r.isCreation) : ∃ q, r.write.2.leafAt q ≠ none := by
  obtain ⟨path, rep | rep | rep⟩ := r
  · cases hr
  · exact ⟨["id"], nofun⟩
  · exact ⟨["quoteID"], nofun⟩

-- ---------------------------------------------------------------------------
-- Two requests
-- ---------------------------------------------------------------------------

/-- A user clears what is below it and spares the rest. -/
theorem user_clears_or_spares (username name : String) (rep : UserRepresentation)
    {rest : List String} {doc : Document} :
    Clears (write ⟨["users", username], .user rep⟩)
        ("users" :: name :: "quizzesCreated" :: rest, doc) ∨
      Spares (write ⟨["users", username], .user rep⟩)
        ("users" :: name :: "quizzesCreated" :: rest, doc) := by
  by_cases hname : username = name
  · subst hname
    exact .inl ⟨⟨_, rfl⟩, fun q => rep.leafAt_quizzesCreated _⟩
  · right
    intro q _
    constructor
    · simp [write, hname]
    · simp [write]

/-- **Two requests of a run.** Unless it puts the same quiz or quote, a request clears what
another one puts or spares it. -/
theorem clears_or_spares {uuids' : UUIDSource} {drawn' : Nat} (h : r.Shaped uuids drawn)
    (h' : r'.Shaped uuids' drawn') (hapart : r.Apart r') (hr : r.isCreation) :
    Clears r'.write r.write ∨ Spares r'.write r.write := by
  cases h with
  | user => cases hr
  | quiz name rep _ _ hquotes =>
    cases h' with
    | user username rep' => exact user_clears_or_spares ..
    | quiz username rep' =>
      -- different ids
      right
      have hne : rep'.id.uuidString ≠ rep.id.uuidString := fun heq =>
        hapart _ rfl (congrArg some heq)
      intro q _
      constructor
      · simp [write, hne]
      · simp [write, hne.symm]
    | quote username rep' =>
      -- the quote is written below `quotes`, where the quiz has no leaf
      right
      intro q hq
      obtain ⟨field, rest, rfl, hfield⟩ := QuizRepresentation.leafAt_document hquotes hq
      constructor
      · simp [write, hfield.symm]
      · simp [write, hfield]
  | quote name rep =>
    cases h' with
    | user username rep' => exact user_clears_or_spares ..
    | quiz username rep' _ _ hquotes =>
      by_cases hsame : username = name ∧ rep'.id.uuidString = rep.quizID
      · -- the quote's own quiz, put without the quote
        obtain ⟨rfl, hid⟩ := hsame
        refine .inl ⟨?_, fun q => ?_⟩
        · simp [write, hid]
        · exact rep'.leafAt_quotes hquotes _
      · right
        intro q _
        constructor
        · simpa [write] using fun h1 h2 => hsame ⟨h1, h2⟩
        · simp [write]
    | quote username rep' =>
      right
      have hne : rep'.quoteID ≠ rep.quoteID := fun heq =>
        hapart _ rfl (congrArg some heq)
      intro q _
      constructor
      · simp [write, hne]
      · simp [write, hne.symm]

end Request

-- ---------------------------------------------------------------------------
-- The server
-- ---------------------------------------------------------------------------

/-- **Convergence.** Once the requests of a run have reached the server, in some order, every
quiz and every quote that was put is at its place if and only if none of them was followed by
a request at or above its path: a user's after one of its quizzes or quotes, or a quiz's after
one of its quotes. -/
theorem converges_iff (w : World) (hw : w.coreData.store.Closed) (ops : List Operation)
    (server : Document) (requests : List Request)
    (horder : requests.Perm
      ((run Core.step (Core.launch w.relaunch) ops).world.tasks.map Task.request)) :
    (∀ r ∈ requests, r.IsStored (serve server requests)) ↔
      requests.Pairwise fun r r' => r.isCreation → ¬ r'.path <+: r.path := by
  have haddressed := Core.addressed_run hw ops
  generalize run Core.step (Core.launch w.relaunch) ops = c at horder haddressed
  have hshaped : ∀ r ∈ requests, r.Shaped c.world.uuids c.world.drawn := by
    intro r hr
    obtain ⟨t, ht, rfl⟩ := List.mem_map.mp (horder.mem_iff.mp hr)
    exact haddressed.shaped t ht
  -- being apart is symmetric, so it survives the reordering
  have hapart : requests.Pairwise Request.Apart :=
    (horder.pairwise_iff Request.Apart.symm).mpr (List.pairwise_map.mpr haddressed.apart)
  have hcs : requests.Pairwise fun r r' =>
      r.isCreation → Clears r'.write r.write ∨ Spares r'.write r.write :=
    hapart.imp_of_mem fun hr hr' hapart hcreation =>
      Request.clears_or_spares (hshaped _ hr) (hshaped _ hr') hapart hcreation
  have hconverges := contains_deliver_iff (t := server) (fun r _ hr => Request.exists_leaf hr) hcs
  refine Iff.trans ?_ hconverges
  exact forall₂_congr fun r hr => (hshaped r hr).isStored_iff _

/-- A quiz with one quote, by a new user. -/
def Operation.firstQuiz : List Operation :=
  [.createUser "userOne" "pass" {}, .syncUser, .setTitle (some "Films"), .createEmptyQuiz {},
    .createQuote (some "I see dead") none "people" ["cats", "dogs", "plants"] {}]

/-- The requests it issues, in the order it issues them: the user, the quiz, the quote. -/
def Request.firstQuiz : List Request :=
  (run Core.step (Core.launch { uuids := .numbered }) Operation.firstQuiz).world.tasks.map
    Task.request

/-- The quiz is overtaken by its quote. -/
def Request.lateQuiz : List Request :=
  Request.firstQuiz.take 1 ++ (Request.firstQuiz.drop 1).reverse

/-- The quote, as it was put. -/
def QuoteRepresentation.first : QuoteRepresentation :=
  NewQuote.representation ⟨some "I see dead", none, "people", ["cats", "dogs", "plants"]⟩
    ⟨"2"⟩ ⟨"1"⟩

theorem converges_in_order :
    Request.firstQuiz.length = 3 ∧
      ∀ r ∈ Request.firstQuiz, r.IsStored (serve .empty Request.firstQuiz) :=
  ⟨by decide, (converges_iff { uuids := .numbered } Context.closed_empty Operation.firstQuiz .empty
    Request.firstQuiz (.refl _)).mpr (by decide)⟩

theorem late_quiz_clears_quote :
    ¬ ∀ (w : World), w.coreData.store.Closed → ∀ (ops : List Operation) (server : Document)
      (requests : List Request),
      requests.Perm
        ((run Core.step (Core.launch w.relaunch) ops).world.tasks.map Task.request) →
      ∀ r ∈ requests, r.IsStored (serve server requests) := by
  intro h
  have hstored := h { uuids := .numbered } Context.closed_empty Operation.firstQuiz .empty
    Request.lateQuiz (by decide)
    ⟨["users", "userOne", "quizzesCreated", "1", "quotes", "2"], .quote .first⟩ (by decide)
  obtain ⟨_, _, hcontains⟩ := hstored
  have hanswer := hcontains ["answer"] (.string "people") (by decide)
  revert hanswer
  decide

end KnowTheQuote
