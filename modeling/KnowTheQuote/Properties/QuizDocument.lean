import KnowTheQuote.Properties.Creation
import KnowTheQuote.Properties.Delivery
import KnowTheQuote.Properties.EditorGuards

/-!
# Know the Quote — a quiz on the server

A quiz reaches the server in pieces: without quotes when it is created, and then one
request for each quote, which puts it under its id. `quizRepresentation` would put the
quotes as a list, so the server would have them under their indices. The two documents
are one only when the ids of the quotes are these indices, and no UUID is an index.

* `pieces_eq_iff` — when the pieces make the document of a representation.
* `Core.Wrote`, `Core.wrote_calls` — what a run that creates a quiz and quotes has put.
* `Core.wholeOnServer_iff` — the quizzes the server has as one `put` of them would leave them.
-/

namespace KnowTheQuote

open Machine PathTree

-- ---------------------------------------------------------------------------
-- The documents
-- ---------------------------------------------------------------------------

/-- The document of a quiz that was put without quotes, and then of each quote. -/
def QuizRepresentation.pieces (rep : QuizRepresentation) (made : List QuoteRepresentation) :
    Document :=
  ({ rep with quotes := [] } : QuizRepresentation).document.deliver
    (made.map fun q => (["quotes", q.quoteID], q.document))

/-- The quotes of a quiz under their ids. -/
def quotesByID (made : List QuoteRepresentation) : Document :=
  .object (made.map fun q => (q.quoteID, q.document))

/-- Different ids make different fields. -/
theorem nodup_fields {made : List QuoteRepresentation}
    (hnodup : (made.map QuoteRepresentation.quoteID).Nodup) :
    ((made.map fun q => (q.quoteID, q.document)).map Prod.fst).Nodup := by
  rw [List.map_map]
  exact hnodup

namespace QuizRepresentation

variable {rep : QuizRepresentation} {made reps : List QuoteRepresentation}

theorem subtree_document (rep : QuizRepresentation) :
    rep.document.subtree ["quotes"] =
      Document.array (rep.quotes.map QuoteRepresentation.document) := by
  ext q : 1
  simp [document, List.lookup_cons]

/-- Apart from its quotes, the document of a quiz does not depend on them. -/
theorem leafAt_document_of_ne {field : String} (hne : field ≠ "quotes") (q : List String) :
    ({ rep with quotes := made } : QuizRepresentation).document.leafAt (field :: q) =
      ({ rep with quotes := reps } : QuizRepresentation).document.leafAt (field :: q) := by
  have hbeq : (field == "quotes") = false := beq_eq_false_iff_ne.mpr hne
  simp [document, List.lookup_cons, hbeq]

theorem subtree_pieces (rep : QuizRepresentation)
    (hnodup : (made.map QuoteRepresentation.quoteID).Nodup) :
    (rep.pieces made).subtree ["quotes"] = quotesByID made := by
  have hbelow : (made.map fun q => (["quotes", q.quoteID], q.document)) =
      ((made.map fun q => (q.quoteID, q.document)).map fun f => ([f.1], f.2)).map
        fun w => (["quotes"] ++ w.1, w.2) := by
    simp
  rw [pieces, hbelow, subtree_deliver, subtree_document]
  show (PathTree.object []).deliver _ = _
  rw [deliver_object (nodup_fields hnodup)]
  rfl

theorem leafAt_pieces_of_ne {field : String} (hne : field ≠ "quotes") (q : List String) :
    (rep.pieces made).leafAt (field :: q) =
      ({ rep with quotes := [] } : QuizRepresentation).document.leafAt (field :: q) := by
  have hbelow : (made.map fun q => (["quotes", q.quoteID], q.document)) =
      (made.map fun q => ([q.quoteID], q.document)).map fun w => ("quotes" :: w.1, w.2) := by
    simp
  rw [pieces, hbelow]
  exact leafAt_deliver_of_ne hne q _

theorem leafAt_pieces_nil : (rep.pieces made).leafAt [] = none := by
  refine leafAt_deliver_eq_none (.inl rfl) fun w hw hpre => ?_
  obtain ⟨q, -, rfl⟩ := List.mem_map.mp hw
  exact absurd (List.prefix_nil.mp hpre) (by simp)

/-- The pieces make a document when they make its quotes. -/
theorem pieces_eq_iff (hnodup : (made.map QuoteRepresentation.quoteID).Nodup) :
    rep.pieces made = ({ rep with quotes := reps } : QuizRepresentation).document ↔
      quotesByID made = Document.array (reps.map QuoteRepresentation.document) := by
  rw [← subtree_pieces rep hnodup]
  have hwhole := subtree_document { rep with quotes := reps }
  constructor
  · intro heq
    rw [heq, hwhole]
  · intro heq
    ext path : 1
    rcases path with _ | ⟨field, q⟩
    · exact leafAt_pieces_nil
    · by_cases hfield : field = "quotes"
      · subst hfield
        exact congrArg (fun t => PathTree.leafAt t q) (heq.trans hwhole.symm)
      · rw [leafAt_pieces_of_ne hfield, leafAt_document_of_ne hfield]

end QuizRepresentation

/-- The indices of a list of `n` elements, as the server has them. -/
def indices (n : Nat) : List String := (List.range n).map toString

theorem array_eq_object (reps : List QuoteRepresentation) :
    Document.array (reps.map QuoteRepresentation.document) =
      .object ((indices reps.length).zip (reps.map QuoteRepresentation.document)) := by
  unfold Document.array indices
  congr 1
  apply List.ext_getElem
  · simp
  · intro i h1 h2
    simp

/-- Quotes that the server finds under indices have indices for ids. -/
theorem perm_indices_of_quotesByID {made reps : List QuoteRepresentation}
    (hnodup : (made.map QuoteRepresentation.quoteID).Nodup) (hlen : reps.length = made.length)
    (heq : quotesByID made = Document.array (reps.map QuoteRepresentation.document)) :
    (made.map QuoteRepresentation.quoteID).Perm (indices made.length) := by
  have hsubset : made.map QuoteRepresentation.quoteID ⊆ indices made.length := by
    intro id hid
    obtain ⟨q, hq, rfl⟩ := List.mem_map.mp hid
    -- the quote's document has a leaf there
    have hlookup := (lookup_eq_some_iff_mem (nodup_fields hnodup)).mpr
      (List.mem_map.mpr ⟨q, hq, rfl⟩ : (q.quoteID, q.document) ∈ _)
    have hleaf : (quotesByID made).leafAt [q.quoteID, "quoteID"] =
        some (.string q.quoteID) := by
      rw [quotesByID, leafAt_object_cons, hlookup]
      rfl
    rw [heq, array_eq_object, leafAt_object_cons] at hleaf
    obtain ⟨doc, hdoc, -⟩ := Option.bind_eq_some_iff.mp hleaf
    obtain ⟨f, hf, hkey⟩ := List.lookup_isSome_iff.mp (Option.isSome_of_eq_some hdoc)
    rw [beq_iff_eq.mp hkey, ← hlen]
    exact (List.of_mem_zip hf).1
  have hcount : (indices made.length).length ≤ (made.map QuoteRepresentation.quoteID).length := by
    simp [indices]
  exact (List.subperm_of_subset hnodup hsubset).perm_of_length_le hcount

/-- Quotes with indices for ids can be listed so that each has its own index. -/
theorem quotesByID_of_perm_indices {made : List QuoteRepresentation}
    (hnodup : (made.map QuoteRepresentation.quoteID).Nodup)
    (hperm : (made.map QuoteRepresentation.quoteID).Perm (indices made.length)) :
    ∃ reps : List QuoteRepresentation, reps.Perm made ∧
      quotesByID made = Document.array (reps.map QuoteRepresentation.document) := by
  obtain ⟨reps, hreps, hids⟩ := exists_perm_map_eq hperm.symm
  refine ⟨reps, hreps, ?_⟩
  rw [array_eq_object, hreps.length_eq, hids, List.zip_map', quotesByID]
  exact object_perm (hreps.symm.map _) (nodup_fields hnodup)

-- ---------------------------------------------------------------------------
-- The controllers
-- ---------------------------------------------------------------------------

/-- The path of a quiz on the server. -/
def quizPath (username : String) (id : UUID) : List String :=
  ["users", username, "quizzesCreated", id.uuidString]

/-- The representation of a quote, if the object is there and has one. -/
def Context.representationOf (c : Context) (quote : ObjectID) : Option QuoteRepresentation :=
  (c.quotes.get? quote).bind Quote.quoteRepresentation

/-- A quiz that is left alone has one representation but for its quotes. -/
theorem Context.quizRepresentation_of_get? {c c' : Context} {quiz : ObjectID}
    {order : Reordering ObjectID} {rep : QuizRepresentation}
    (hsame : c'.quizzes.get? quiz = c.quizzes.get? quiz)
    (hrep : c.quizRepresentation quiz order = some rep) (order' : Reordering ObjectID) :
    c'.quizRepresentation quiz order' =
      some { rep with
        quotes := (order'.apply (c'.quotesOf quiz)).filterMap c'.representationOf } := by
  simp only [Context.quizRepresentation, Option.bind_eq_bind, Option.bind_eq_some_iff,
    Option.pure_def, Option.some.injEq] at hrep ⊢
  obtain ⟨z, hz, id, hid, title, htitle, date, hdate, creatorID, hcreatorID, rfl⟩ := hrep
  exact ⟨z, hsame.trans hz, id, hid, title, htitle, date, hdate, creatorID, hcreatorID, rfl⟩

namespace Core

/-- A call of `createQuote`. -/
def call (c : Core) (q : NewQuote × Env) : Core := c.createQuoteOf q.1 q.2

/-- `createEmptyQuiz` succeeds: it can put the quiz, and the save does not throw. -/
def StoresQuiz (c : Core) (env : Env) : Prop :=
  c.quizController.title.isSome ∧
    (∃ creator, c.quizController.user = some creator ∧ c.QuizReady creator env) ∧
    env.saves = true

/-- The call of `createQuote` succeeds: it can put the quote, and the save does not throw. -/
def StoresQuote (c : Core) (q : NewQuote × Env) : Prop := c.CanStore q.2 ∧ q.2.saves = true

/-- Since `start` a quiz without quotes has been put, with the representation `rep` then, and
after it the quotes `made`; they are the quotes the quiz has. -/
structure Wrote (start c : Core) (username : String) (rep : QuizRepresentation)
    (made : List QuoteRepresentation) : Prop where
  current : c.quizController.quiz = some start.world.context.quizzes.size
  baseURL : c.quizController.baseURL.isSome
  user : ∃ user, c.quizController.user = some user ∧
    c.world.context.username user = some username
  represented : ∀ order, c.world.context.quizRepresentation start.world.context.quizzes.size
    order = some { rep with
      quotes := (order.apply (c.world.context.quotesOf start.world.context.quizzes.size)).filterMap
        c.world.context.representationOf }
  quotes : ((c.world.context.quotesOf start.world.context.quizzes.size).map
    c.world.context.representationOf).Perm (made.map some)
  requests : c.world.tasks.map Task.request = start.world.tasks.map Task.request ++
    ⟨quizPath username rep.id, .quiz { rep with quotes := [] }⟩ ::
      made.map fun q => ⟨quizPath username rep.id ++ ["quotes", q.quoteID], .quote q⟩
  uuids : c.world.uuids = start.world.uuids
  drawn : c.world.drawn = start.world.drawn + 1 + made.length
  ids : made.map QuoteRepresentation.quoteID = (List.range made.length).map fun i =>
    (start.world.uuids.next (start.world.drawn + 1 + i)).uuidString

variable {start c : Core}

/-- A new quiz. -/
theorem wrote_createEmptyQuiz (hclosed : start.world.context.Closed) {env : Env}
    (h : start.StoresQuiz env) :
    ∃ username rep, start.Wrote (start.createEmptyQuiz env) username rep [] := by
  obtain ⟨htitle, ⟨creator, huser, hready⟩, hsaves⟩ := h
  obtain ⟨creatorID, hcreatorID⟩ := Option.isSome_iff_exists.mp hready.id
  have hcases := start.createEmptyQuiz_cases env
  generalize start.createEmptyQuiz env = c' at hcases ⊢
  cases hcases with
  | skipped hskip =>
    rcases hskip with hnone | hnone
    · rw [hnone] at htitle
      cases htitle
    · rw [hnone] at huser
      cases huser
  | refused _ huser' hput =>
    cases huser.symm.trans huser'
    obtain ⟨r, hok⟩ := (emptyQuizPut_ok_iff huser).mpr hready
    rw [hok] at hput
    cases hput
  | @added title creator' r _ huser' hput =>
    cases huser.symm.trans huser'
    obtain ⟨hurl, -, rep, user, username, hrep, hputUser, hname, rfl⟩ :=
      QuizController.put_eq_ok.mp hput
    have hcreator : user = creator := by
      rw [quizController_withEmptyQuiz, huser] at hputUser
      exact (Option.some.inj hputUser).symm
    subst hcreator
    have hcontext : ((start.withEmptyQuiz title user env).put
        (.ok ⟨["users", username, "quizzesCreated", rep.id.uuidString], .quiz rep⟩)
        (.createEmptyQuiz user start.world.context.quizzes.size) true).world.context =
          (start.withEmptyQuiz title user env).world.context :=
      start.addToQuizzesCreated_withEmptyQuiz title env hcreatorID
    have hnone := quotesOf_withEmptyQuiz hclosed title user env
    have hquotes : rep.quotes = [] := by
      rw [(Context.quizRepresentation_eq_some hrep).2, hnone, Reordering.apply_nil,
        List.filterMap_nil]
    rw [hsaves]
    refine ⟨username, rep, ?_, ?_, ⟨user, ?_, ?_⟩, ?_, ?_, ?_, ?_, ?_, rfl⟩
    · simp
    · simpa using hurl
    · simpa using huser
    · rw [hcontext]
      exact hname
    · intro order
      rw [hcontext]
      exact Context.quizRepresentation_of_get? rfl hrep order
    · rw [hcontext, hnone]
      exact .refl _
    · rw [tasks_put_createEmptyQuiz, tasks_withEmptyQuiz, List.map_append]
      obtain ⟨id, repTitle, date, repCreatorID, quotes, reported⟩ := rep
      cases hquotes
      rfl
    · rw [uuids_put_createEmptyQuiz, uuids_withEmptyQuiz]
    · rw [drawn_put_createEmptyQuiz, start.drawn_withEmptyQuiz_of_id title env hcreatorID]
      rfl

/-- **One more quote.** -/
theorem Wrote.call {username : String} {rep : QuizRepresentation}
    {made : List QuoteRepresentation} (h : start.Wrote c username rep made) {q : NewQuote × Env}
    (hq : c.StoresQuote q) : ∃ new, start.Wrote (c.call q) username rep (made ++ [new]) := by
  obtain ⟨a, env⟩ := q
  obtain ⟨⟨⟨quiz, hready⟩, hcount, henc⟩, hsaves⟩ := hq
  cases h.current.symm.trans hready.current
  obtain ⟨user, huser, hname⟩ := h.user
  have hid : c.world.context.quizID start.world.context.quizzes.size = some rep.id :=
    (Context.quizRepresentation_eq_some (h.represented .asIs)).1
  have hput := newQuotePut_eq_ok hready.baseURL huser hname a rep.id henc
  have hadded := createQuoteOf_eq h.current hid hcount hput
  rw [hsaves] at hadded
  unfold Core.call
  rw [hadded]
  set quiz := start.world.context.quizzes.size with hquiz
  set uuid := c.world.uuids.next c.world.drawn with huuid
  set r : Request := ⟨["users", username, "quizzesCreated", rep.id.uuidString, "quotes",
    uuid.uuidString], .quote (a.representation uuid rep.id)⟩ with hr
  refine ⟨a.representation uuid rep.id, ?_, ?_, ⟨user, ?_, ?_⟩, ?_, ?_, ?_, ?_, ?_, ?_⟩
  · simpa [withAddedQuote] using h.current
  · simpa [withAddedQuote] using h.baseURL
  · simpa [withAddedQuote] using huser
  · rw [username_withAddedQuote]
    exact hname
  · intro order
    exact Context.quizRepresentation_of_get?
      (congrArg (Heap.get? · quiz) (quizzes_withAddedQuote a rep.id r)) (h.represented .asIs) order
  · have hnew : (c.withAddedQuote a quiz rep.id r true).world.context.representationOf
        c.world.context.quotes.size = some (a.representation uuid rep.id) := by
      rw [Context.representationOf, get?_withAddedQuote, if_pos rfl]
      rfl
    -- the quotes of before read as before
    have hold : (c.world.context.quotesOf quiz).map
        (c.withAddedQuote a quiz rep.id r true).world.context.representationOf =
          (c.world.context.quotesOf quiz).map c.world.context.representationOf := by
      refine List.map_congr_left fun quote hquote => ?_
      obtain ⟨_, hget, -⟩ := mem_quotesOf.mp hquote
      rw [Context.representationOf, get?_withAddedQuote,
        if_neg (Nat.ne_of_lt (Heap.lt_size_of_get? hget))]
      rfl
    refine ((quotesOf_withAddedQuote_perm a rep.id r).map _).trans ?_
    rw [List.map_cons, hnew, hold, List.map_append, List.map_singleton]
    exact (h.quotes.cons _).trans (List.perm_append_singleton ..).symm
  · show (c.world.tasks ++ [_]).map Task.request = _
    rw [List.map_append, h.requests, List.map_append, List.append_assoc, List.cons_append]
    rfl
  · exact h.uuids
  · show c.world.drawn + 1 = _
    rw [h.drawn, List.length_append]
    rfl
  · rw [List.map_append, h.ids, List.length_append, List.length_singleton, List.range_succ,
      List.map_append, List.map_singleton, List.map_singleton, huuid, h.uuids, h.drawn]
    rfl

namespace Wrote

variable {username : String} {rep : QuizRepresentation} {made : List QuoteRepresentation}

/-- **Quote after quote.** -/
theorem run (h : start.Wrote c username rep made) {calls : List (NewQuote × Env)}
    (hcalls : Along Core.call StoresQuote c calls) :
    ∃ new : List QuoteRepresentation, new.length = calls.length ∧
      start.Wrote (Machine.run Core.call c calls) username rep (made ++ new) := by
  induction calls generalizing c made with
  | nil => exact ⟨[], rfl, by simpa using h⟩
  | cons q calls ih =>
    obtain ⟨hq, hcalls⟩ := hcalls
    obtain ⟨new, hnew⟩ := h.call hq
    obtain ⟨rest, hlen, hrest⟩ := ih hnew hcalls
    refine ⟨new :: rest, congrArg (· + 1) hlen, ?_⟩
    rwa [List.append_assoc, List.singleton_append] at hrest

theorem nodup_ids (h : start.Wrote c username rep made) :
    (made.map QuoteRepresentation.quoteID).Nodup := by
  rw [h.ids]
  refine List.nodup_range.map fun i j heq => ?_
  have hdrawn := start.world.uuids.uuidString_injective heq
  omega

/-- The requests of the run, in the order they were issued, make the pieces. -/
theorem subtree_serve (h : start.Wrote c username rep made) (server : Document) :
    (serve server ((c.world.tasks.drop start.world.tasks.length).map Task.request)).subtree
      (quizPath username rep.id) = rep.pieces made := by
  have hsent : (c.world.tasks.drop start.world.tasks.length).map Task.request =
      ⟨quizPath username rep.id, .quiz { rep with quotes := [] }⟩ ::
        made.map fun q => ⟨quizPath username rep.id ++ ["quotes", q.quoteID], .quote q⟩ := by
    rw [List.map_drop, h.requests, List.drop_left' (List.length_map ..)]
  have hbelow : (made.map fun q => (⟨quizPath username rep.id ++ ["quotes", q.quoteID],
      .quote q⟩ : Request)).map (fun r => (r.path, r.body.document)) =
        (made.map fun q => (["quotes", q.quoteID], q.document)).map
          fun w => (quizPath username rep.id ++ w.1, w.2) := by
    simp [Representation.document]
  rw [hsent, serve, List.map_cons, deliver_cons, hbelow, subtree_deliver, subtree_put_self]
  rfl

end Wrote

/-- **A quiz and its quotes**, each call putting one more. -/
theorem wrote_calls (hclosed : start.world.context.Closed) {env : Env}
    (hquiz : start.StoresQuiz env) {calls : List (NewQuote × Env)}
    (hcalls : Along Core.call StoresQuote (start.createEmptyQuiz env) calls) :
    ∃ username rep made, made.length = calls.length ∧
      start.Wrote (Machine.run Core.call (start.createEmptyQuiz env) calls) username rep made := by
  obtain ⟨username, rep, hempty⟩ := wrote_createEmptyQuiz hclosed hquiz
  obtain ⟨made, hlen, hmade⟩ := hempty.run hcalls
  exact ⟨username, rep, made, hlen, hmade⟩

/-- A `put` of the current quiz would put the representation at the path, with the quotes in
some order. -/
def PutsWhole (c : Core) (path : List String) (rep : QuizRepresentation) : Prop :=
  ∃ quiz env, c.quizController.quiz = some quiz ∧
    c.quizController.put c.world.context quiz env = .ok ⟨path, .quiz rep⟩

/-- The server has the current quiz as one `put` of it would leave it, with the quotes in some
order. -/
def WholeOnServer (c : Core) (server : Document) : Prop :=
  ∃ path rep, c.PutsWhole path rep ∧
    server.subtree path = (serve server [⟨path, .quiz rep⟩]).subtree path

/-- A `put` of the quiz names the path the pieces were put at, and may list the quotes in any
order. -/
theorem Wrote.putsWhole_iff {username : String} {rep rep' : QuizRepresentation}
    {made : List QuoteRepresentation} (h : start.Wrote c username rep made)
    {path : List String} :
    c.PutsWhole path rep' ↔ path = quizPath username rep.id ∧
      ∃ reps : List QuoteRepresentation, reps.Perm made ∧ rep' = { rep with quotes := reps } := by
  obtain ⟨user, huser, hname⟩ := h.user
  constructor
  · rintro ⟨quiz, env, hquiz, hput⟩
    obtain ⟨-, -, _, _, _, hrep', huser', hname', heq⟩ := QuizController.put_eq_ok.mp hput
    cases h.current.symm.trans hquiz
    cases huser.symm.trans huser'
    cases hname.symm.trans hname'
    cases (h.represented env.order).symm.trans hrep'
    cases heq
    exact ⟨rfl, _, (exists_filterMap_eq_iff h.quotes).mp ⟨env.order, rfl⟩, rfl⟩
  · rintro ⟨rfl, reps, hperm, rfl⟩
    obtain ⟨order, rfl⟩ := (exists_filterMap_eq_iff h.quotes).mpr hperm
    refine ⟨_, { order := order }, h.current, QuizController.put_eq_ok.mpr ?_⟩
    exact ⟨h.baseURL, rfl, _, user, username, h.represented order, huser, hname, rfl⟩

theorem Wrote.wholeOnServer_iff {username : String} {rep : QuizRepresentation}
    {made : List QuoteRepresentation} (h : start.Wrote c username rep made) (server : Document) :
    c.WholeOnServer server ↔ ∃ reps : List QuoteRepresentation, reps.Perm made ∧
      server.subtree (quizPath username rep.id) =
        ({ rep with quotes := reps } : QuizRepresentation).document := by
  have hput : ∀ path rep', (serve server [⟨path, .quiz rep'⟩]).subtree path = rep'.document :=
    fun path rep' => subtree_put_self ..
  constructor
  · rintro ⟨path, rep', hputs, hdocument⟩
    obtain ⟨rfl, reps, hperm, rfl⟩ := h.putsWhole_iff.mp hputs
    exact ⟨reps, hperm, hdocument.trans (hput ..)⟩
  · rintro ⟨reps, hperm, hdocument⟩
    exact ⟨_, _, h.putsWhole_iff.mpr ⟨rfl, reps, hperm, rfl⟩, hdocument.trans (hput ..).symm⟩

/-- The pieces are the whole when the ids of the quotes are indices. -/
theorem Wrote.serve_iff {username : String} {rep : QuizRepresentation}
    {made : List QuoteRepresentation} (h : start.Wrote c username rep made) (server : Document) :
    c.WholeOnServer
        (serve server ((c.world.tasks.drop start.world.tasks.length).map Task.request)) ↔
      (made.map QuoteRepresentation.quoteID).Perm (indices made.length) := by
  rw [h.wholeOnServer_iff, h.subtree_serve]
  constructor
  · rintro ⟨reps, hperm, hdocument⟩
    exact perm_indices_of_quotesByID h.nodup_ids hperm.length_eq
      ((QuizRepresentation.pieces_eq_iff h.nodup_ids).mp hdocument)
  · intro hindices
    obtain ⟨reps, hperm, hquotes⟩ := quotesByID_of_perm_indices h.nodup_ids hindices
    exact ⟨reps, hperm, (QuizRepresentation.pieces_eq_iff h.nodup_ids).mpr hquotes⟩

/-- The pieces of a run are the whole when the UUIDs drawn for its quotes are indices. -/
theorem wholeOnServer_iff (hclosed : start.world.context.Closed) {env : Env}
    (hquiz : start.StoresQuiz env) {calls : List (NewQuote × Env)}
    (hcalls : Along Core.call StoresQuote (start.createEmptyQuiz env) calls) (server : Document) :
    let c := Machine.run Core.call (start.createEmptyQuiz env) calls
    c.WholeOnServer
        (serve server ((c.world.tasks.drop start.world.tasks.length).map Task.request)) ↔
      ((List.range calls.length).map fun i =>
        (start.world.uuids.next (start.world.drawn + 1 + i)).uuidString).Perm
          (indices calls.length) := by
  intro c
  obtain ⟨username, rep, made, hlen, hmade⟩ := wrote_calls hclosed hquiz hcalls
  rw [hmade.serve_iff server, hmade.ids, hlen]

end Core

/-- An index has no hyphen. -/
theorem hyphen_notMem_of_mem_indices {s : String} {n : Nat} (h : s ∈ indices n) :
    '-' ∉ s.toList := by
  obtain ⟨i, -, rfl⟩ := List.mem_map.mp h
  intro hmem
  rw [Nat.toString_eq_repr, Nat.toList_repr] at hmem
  exact absurd (Nat.isDigit_of_mem_toDigits (by decide) (by decide) hmem) (by decide)

/-- The source that numbers its UUIDs after a common prefix, as UUIDs are written. -/
def UUIDSource.hyphenated : UUIDSource where
  next n := ⟨"00000000-0000-0000-0000-" ++ n.repr⟩
  injective _ _ h := repr_injective ((String.append_right_inj _).mp (UUID.mk.inj h))

theorem UUIDSource.hyphen_mem_hyphenated (n : Nat) :
    '-' ∈ (hyphenated.next n).uuidString.toList := by
  show '-' ∈ ("00000000-0000-0000-0000-" ++ n.repr).toList
  rw [String.toList_append]
  exact List.mem_append_left _ (by decide)

end KnowTheQuote
