import KnowTheQuote.Properties.RoundTrips

/-!
# Know the Quote — a quiz read back from its pieces

`createEmptyQuiz` puts a quiz without quotes, and `createQuote` puts each quote under its
id. The server then has no list of quotes: it has nothing at `quotes`, which a GET answers
with null, or an object with UUIDs for keys. `QuizRepresentation` asks for an array there,
so a quiz that was put in pieces is not read back, while each of its quotes is.

* `Core.Wrote.decode_quiz`, `Core.Wrote.decode_quote` — what is read of the pieces.
* `quiz_document_iff` — the pieces against one `put` of the quiz.
* `quiz_never_reads_back` — the quiz does not decode, and its quotes do.
-/

namespace KnowTheQuote

open Machine PathTree

-- ---------------------------------------------------------------------------
-- Decoding the pieces
-- ---------------------------------------------------------------------------

/-- A quiz does not decode without an array of quotes. -/
theorem QuizRepresentation.decode_eq_none {uuids : UUIDReader} {body : Body}
    (h : Body.decodeArray QuoteRepresentation.decode (body.get "quotes") = none) :
    QuizRepresentation.decode uuids body = none := by
  rw [Option.eq_none_iff_forall_ne_some]
  intro rep hrep
  simp only [decode, Option.bind_eq_bind, Option.bind_eq_some_iff] at hrep
  obtain ⟨_, -, _, -, _, -, _, -, quotes, hquotes, -⟩ := hrep
  rw [h] at hquotes
  cases hquotes

namespace Core.Wrote

variable {start c : Core} {username : String} {rep : QuizRepresentation}
  {made : List QuoteRepresentation}

/-- Quotes under ids that are no indices are answered as an object, and no quotes as null. -/
theorem decode_quiz (h : start.Wrote c username rep made)
    (hids : ∀ q ∈ made, ∀ i : Nat, q.quoteID ≠ toString i) (uuids : UUIDReader) {server : Document}
    {body : Body}
    (hbody : Answers (serve server ((c.world.tasks.drop start.world.tasks.length).map
      Task.request)) (quizPath username rep.id) body) :
    QuizRepresentation.decode uuids body = none := by
  refine QuizRepresentation.decode_eq_none ?_
  rw [Answers, h.subtree_serve] at hbody
  have hquotes : JSON.Answers toString (body.get "quotes") (quotesByID made) :=
    answers_field hbody (by decide) (rep.subtree_pieces h.nodup_ids)
  cases made with
  | nil =>
    rw [(hquotes.eq_null_iff toString_injective).mpr (by ext q : 1; cases q <;> rfl)]
    rfl
  | cons q made =>
    have hfirst : (quotesByID (q :: made)).subtree [q.quoteID] ≠ .empty := by
      rw [quotesByID, List.map_cons, subtree_object, List.lookup_cons_self, Option.getD_some]
      exact q.document_ne_empty
    have hnoArray := hquotes.ne_array (hids q (List.mem_cons_self ..)) hfirst
    generalize body.get "quotes" = quotes at hnoArray
    cases quotes with
    | array elements => exact absurd rfl (hnoArray elements)
    | null => rfl
    | scalar a => rfl
    | object members => rfl

/-- No id drawn for a quote is an index when UUID strings have hyphens. -/
theorem id_ne_toString (h : start.Wrote c username rep made)
    (hhyphens : ∀ n, '-' ∈ (start.world.uuids.next n).uuidString.toList)
    {q : QuoteRepresentation} (hq : q ∈ made) (i : Nat) : q.quoteID ≠ toString i := by
  have hid : q.quoteID ∈ made.map QuoteRepresentation.quoteID := List.mem_map_of_mem hq
  rw [h.ids] at hid
  obtain ⟨j, -, hj⟩ := List.mem_map.mp hid
  rw [← hj]
  exact ne_toString_of_hyphen (hhyphens _) i

/-- Each quote is answered on its own. -/
theorem decode_quote (h : start.Wrote c username rep made) {q : QuoteRepresentation}
    (hq : q ∈ made) {server : Document} {body : Body}
    (hbody : Answers (serve server ((c.world.tasks.drop start.world.tasks.length).map
      Task.request)) (quizPath username rep.id ++ ["quotes", q.quoteID]) body) :
    QuoteRepresentation.decode body = if q.Readable then some q else none := by
  refine q.decode_answer ?_
  have hquotes : (quotesByID made).subtree [q.quoteID] = q.document :=
    subtree_object_of_lookup
      ((lookup_eq_some_iff_mem (nodup_fields h.nodup_ids)).mpr (List.mem_map_of_mem hq))
  have hpath : quizPath username rep.id ++ ["quotes", q.quoteID] =
      quizPath username rep.id ++ (["quotes"] ++ [q.quoteID]) := rfl
  rwa [Answers, hpath, ← subtree_subtree, h.subtree_serve, ← subtree_subtree,
    rep.subtree_pieces h.nodup_ids, hquotes] at hbody

end Core.Wrote

-- ---------------------------------------------------------------------------
-- Pieces and whole
-- ---------------------------------------------------------------------------

/-- The server has the current quiz as one `put` of it would leave it, with the quotes in some
order, and may answer with a body that decodes as what would have been put. -/
def Core.ReadsBackWhole (uuids : UUIDReader) (c : Core) (server : Document) : Prop :=
  ∃ path rep, c.PutsWhole path rep ∧
    server.subtree path = (serve server [⟨path, .quiz rep⟩]).subtree path ∧
    ∃ body, Answers server path body ∧ QuizRepresentation.decode uuids body = some rep

/-- **Pieces and whole.** From every state of the app, whatever the server has: after
`createEmptyQuiz` and then some calls of `createQuote`, all of which succeed, and with their
requests delivered in order, the server has the quiz as one `put` of it would leave it if and
only if the UUIDs drawn for the quotes are, in some order, the indices of a list of that
length. No UUID string with a hyphen is an index: with those the documents agree on a quiz
without quotes only, and that one does not decode. -/
theorem quiz_document_iff (w : World) (hw : w.coreData.store.Closed) (ops : List Operation)
    (env : Env) (calls : List (NewQuote × Env)) (server : Document)
    (hquiz : (run Core.step (Core.launch w.relaunch) ops).StoresQuiz env)
    (hcalls : Along Core.call Core.StoresQuote
      ((run Core.step (Core.launch w.relaunch) ops).createEmptyQuiz env) calls) :
    let c := run Core.step (Core.launch w.relaunch) ops
    let c' := run Core.call (c.createEmptyQuiz env) calls
    let server' := serve server ((c'.world.tasks.drop c.world.tasks.length).map Task.request)
    (c'.WholeOnServer server' ↔
      ((List.range calls.length).map fun i =>
        (c.world.uuids.next (c.world.drawn + 1 + i)).uuidString).Perm (indices calls.length)) ∧
    ((∀ n, '-' ∈ (c.world.uuids.next n).uuidString.toList) →
      (c'.WholeOnServer server' ↔ calls = []) ∧ ∀ uuids, ¬ c'.ReadsBackWhole uuids server') := by
  intro c c' server'
  have hclosed : c.world.context.Closed := (Core.addressed_run hw ops).context
  have hwhole := Core.wholeOnServer_iff hclosed hquiz hcalls server
  refine ⟨hwhole, fun hhyphens => ⟨hwhole.trans ⟨fun hperm => ?_, ?_⟩, ?_⟩⟩
  · rcases calls with _ | ⟨q, calls⟩
    · rfl
    · -- the first quote's id would be an index
      have hindex := hperm.mem_iff.mp
        (List.mem_map_of_mem (List.mem_range.mpr (Nat.succ_pos calls.length)))
      exact absurd (hhyphens _) (hyphen_notMem_of_mem_indices hindex)
  · rintro rfl
    exact .nil
  · rintro uuids ⟨path, rep', hputs, -, body, hbody, hdecode⟩
    obtain ⟨username, rep, made, -, hmade⟩ := Core.wrote_calls hclosed hquiz hcalls
    obtain ⟨rfl, -⟩ := hmade.putsWhole_iff.mp hputs
    -- with quotes or without, there is no array to decode
    have hnone := hmade.decode_quiz (fun q hq => hmade.id_ne_toString hhyphens hq) uuids hbody
    rw [hnone] at hdecode
    cases hdecode

/-- A new user types a title. -/
def Operation.titled : List Operation :=
  [.createUser "userOne" "pass" {}, .syncUser, .setTitle (some "Films")]

/-- The app is there then. -/
def Core.titled : Core :=
  run Core.step (launch (World.relaunch { uuids := .hyphenated })) Operation.titled

/-- One quote. -/
def NewQuote.people : NewQuote := ⟨some "I see dead", none, "people", ["cats", "dogs", "plants"]⟩

theorem Core.storesQuiz_titled : Core.titled.StoresQuiz {} :=
  ⟨by decide, ⟨0, by decide, by decide, by decide, by decide, rfl⟩, rfl⟩

theorem Core.storesQuote_titled :
    Along Core.call Core.StoresQuote (Core.titled.createEmptyQuiz {}) [(.people, {})] :=
  ⟨⟨by decide, rfl⟩, trivial⟩

theorem quiz_document_one_quote :
    let c' := run Core.call (Core.titled.createEmptyQuiz {}) [(.people, {})]
    let requests := (c'.world.tasks.drop Core.titled.world.tasks.length).map Task.request
    requests.length = 2 ∧ ∀ uuids, ¬ c'.ReadsBackWhole uuids (serve .empty requests) :=
  ⟨by decide, ((quiz_document_iff { uuids := .hyphenated } Context.closed_empty
    Operation.titled {} [(.people, {})] .empty Core.storesQuiz_titled
    Core.storesQuote_titled).2 UUIDSource.hyphen_mem_hyphenated).2⟩

theorem quote_under_its_id :
    ¬ ∀ (w : World), w.coreData.store.Closed → ∀ (ops : List Operation) (env : Env)
      (calls : List (NewQuote × Env)) (server : Document) (uuids : UUIDReader),
      let c := run Core.step (Core.launch w.relaunch) ops
      let c' := run Core.call (c.createEmptyQuiz env) calls
      let server' := serve server ((c'.world.tasks.drop c.world.tasks.length).map Task.request)
      c.StoresQuiz env → Along Core.call Core.StoresQuote (c.createEmptyQuiz env) calls →
        c'.ReadsBackWhole uuids server' := by
  intro h
  have hclosed : Core.titled.world.context.Closed :=
    (Core.addressed_run Context.closed_empty Operation.titled).context
  obtain ⟨path, rep, hputs, hdocument, -⟩ := h { uuids := .hyphenated } Context.closed_empty
    Operation.titled {} [(.people, {})] .empty .lenient Core.storesQuiz_titled
    Core.storesQuote_titled
  -- the document alone would have the quote under an index
  have hindices := (Core.wholeOnServer_iff hclosed Core.storesQuiz_titled
    Core.storesQuote_titled .empty).mp ⟨path, rep, hputs, hdocument⟩
  revert hindices
  decide

/-- **Piece by piece.** From every state of the app: after `createEmptyQuiz` and any number of
calls of `createQuote`, all of which succeed, and with their requests delivered in order, no
answer to a GET of the quiz decodes as a `QuizRepresentation`, while a GET of one of its quotes
decodes as the representation of that quote, if no list in it is empty. -/
theorem quiz_never_reads_back (w : World) (hw : w.coreData.store.Closed) (ops : List Operation)
    (env : Env) (calls : List (NewQuote × Env)) (server : Document)
    (hquiz : (run Core.step (Core.launch w.relaunch) ops).StoresQuiz env)
    (hcalls : Along Core.call Core.StoresQuote
      ((run Core.step (Core.launch w.relaunch) ops).createEmptyQuiz env) calls)
    (hhyphens : ∀ n, '-' ∈ ((run Core.step (Core.launch w.relaunch)
      ops).world.uuids.next n).uuidString.toList) :
    let c := run Core.step (Core.launch w.relaunch) ops
    let c' := run Core.call (c.createEmptyQuiz env) calls
    let server' := serve server ((c'.world.tasks.drop c.world.tasks.length).map Task.request)
    ∀ quiz env' path rep, c'.quizController.quiz = some quiz →
      c'.quizController.put c'.world.context quiz env' = .ok ⟨path, .quiz rep⟩ →
      (∀ uuids body, Answers server' path body → QuizRepresentation.decode uuids body = none) ∧
      ∀ q ∈ rep.quotes, ∀ body, Answers server' (path ++ ["quotes", q.quoteID]) body →
        QuoteRepresentation.decode body = if q.Readable then some q else none := by
  intro c c' server' quiz env' path rep' hcurrent hput
  have hclosed : c.world.context.Closed := (Core.addressed_run hw ops).context
  obtain ⟨username, rep, made, -, hmade⟩ := Core.wrote_calls hclosed hquiz hcalls
  obtain ⟨rfl, reps, hperm, rfl⟩ := hmade.putsWhole_iff.mp ⟨quiz, env', hcurrent, hput⟩
  exact ⟨fun uuids body hbody =>
      hmade.decode_quiz (fun q hq => hmade.id_ne_toString hhyphens hq) uuids hbody,
    fun q hq body hbody => hmade.decode_quote (hperm.mem_iff.mp hq) hbody⟩

theorem quiz_never_reads_back_one_quote :
    let c' := run Core.call (Core.titled.createEmptyQuiz {}) [(.people, {})]
    let server' := serve .empty
      ((c'.world.tasks.drop Core.titled.world.tasks.length).map Task.request)
    c'.world.tasks.length = 3 ∧
      ∀ quiz env' path rep, c'.quizController.quiz = some quiz →
        c'.quizController.put c'.world.context quiz env' = .ok ⟨path, .quiz rep⟩ →
        (∀ uuids body, Answers server' path body →
          QuizRepresentation.decode uuids body = none) ∧
        ∀ q ∈ rep.quotes, ∀ body, Answers server' (path ++ ["quotes", q.quoteID]) body →
          QuoteRepresentation.decode body = if q.Readable then some q else none :=
  ⟨by decide, quiz_never_reads_back { uuids := .hyphenated } Context.closed_empty
    Operation.titled {} [(.people, {})] .empty Core.storesQuiz_titled Core.storesQuote_titled
    UUIDSource.hyphen_mem_hyphenated⟩

end KnowTheQuote
