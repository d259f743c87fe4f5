import KnowTheQuote.Model.Codable
import KnowTheQuote.Properties.QuizDocument

/-!
# Know the Quote — what can be read back

Between encoding and decoding stands a server that drops empty arrays and answers with
objects where it has no indices.

* `tree_encode_user`, `tree_encode_quote`, `tree_encode_quiz` — what the server makes of a
  body.
* `UserRepresentation.decode_answer`, `QuoteRepresentation.decode_answer`,
  `QuizRepresentation.decode_answer` — what is read of the server's answer.
-/

namespace KnowTheQuote

open PathTree

-- ---------------------------------------------------------------------------
-- Field by field
-- ---------------------------------------------------------------------------

/-- The whole numbers an `Int16` is encoded to decode. -/
theorem Body.decodeInt16_number (n : Int16) :
    Body.decodeInt16 (.number n.toInt) = some n := by
  have hrange : Int16.minValue.toInt ≤ n.toInt ∧ n.toInt ≤ Int16.maxValue.toInt :=
    ⟨n.minValue_le_toInt, n.toInt_le⟩
  show (if _ then _ else _) = _
  rw [Rat.den_intCast, Rat.num_intCast, if_pos ⟨rfl, hrange⟩, Int16.ofInt_toInt]

/-- A user decodes field by field. -/
theorem UserRepresentation.decode_of_fields {uuids : UUIDReader} {body : Body}
    {r : UserRepresentation} (hid : Body.decodeUUID uuids (body.get "id") = some r.id)
    (hdate : Body.decodeDate (body.get "signupDate") = some r.signupDate)
    (hname : Body.decodeString (body.get "username") = some r.username)
    (hpassword : Body.decodeString (body.get "password") = some r.password)
    (hcoins : Body.decodeInt16 (body.get "coins") = some r.coins)
    (hids : Body.decodeIfPresent (Body.decodeArray Body.decodeString)
      (body.get "quizesCreatedIDs") = some r.quizesCreatedIDs) :
    UserRepresentation.decode uuids body = some r := by
  unfold UserRepresentation.decode
  rw [hid, hdate, hname, hpassword, hcoins, hids]
  rfl

/-- So does a quote, but for its options. -/
theorem QuoteRepresentation.decode_of_fields {body : Body} {r : QuoteRepresentation}
    (hquoteID : Body.decodeString (body.get "quoteID") = some r.quoteID)
    (hfirst : Body.decodeString (body.get "firstPart") = some r.firstPart)
    (hsecond : Body.decodeString (body.get "secondPart") = some r.secondPart)
    (hanswer : Body.decodeString (body.get "answer") = some r.answer)
    (hquizID : Body.decodeString (body.get "quizID") = some r.quizID) :
    QuoteRepresentation.decode body = do
      let incorrectOptions ← Body.decodeArray Body.decodeString (body.get "incorrectOptions")
      let allOptions ← Body.decodeArray Body.decodeString (body.get "allOptions")
      return { r with incorrectOptions, allOptions } := by
  unfold QuoteRepresentation.decode
  rw [hquoteID, hfirst, hsecond, hanswer, hquizID]
  rfl

/-- So does a quiz, but for its quotes. -/
theorem QuizRepresentation.decode_of_fields {uuids : UUIDReader} {body : Body}
    {r : QuizRepresentation} (hid : Body.decodeUUID uuids (body.get "id") = some r.id)
    (htitle : Body.decodeString (body.get "title") = some r.title)
    (hdate : Body.decodeDate (body.get "dateCreated") = some r.dateCreated)
    (hcreatorID : Body.decodeString (body.get "creatorID") = some r.creatorID)
    (hreported : Body.decodeBool (body.get "hasBeenReported") = some r.hasBeenReported) :
    QuizRepresentation.decode uuids body =
      (Body.decodeArray QuoteRepresentation.decode (body.get "quotes")).map
        fun quotes => { r with quotes } := by
  unfold QuizRepresentation.decode
  rw [hid, htitle, hdate, hcreatorID, hreported]
  cases Body.decodeArray QuoteRepresentation.decode (body.get "quotes") <;> rfl

-- ---------------------------------------------------------------------------
-- Trees of bodies
-- ---------------------------------------------------------------------------

/-- The elements of an array are stored under their indices. -/
theorem tree_array {β : Type} (encode : β → Body) (document : β → Document)
    (h : ∀ b, (encode b).tree toString = document b) (xs : List β) :
    (JSON.array (xs.map encode)).tree toString = Document.array (xs.map document) := by
  rw [JSON.tree, JSON.trees_eq, List.map_map]
  exact congrArg Document.array (List.map_congr_left fun b _ => h b)

/-- The tree the server makes of the body of a PUT. -/
theorem tree_encode_quote (r : QuoteRepresentation) : r.encode.tree toString = r.document := by
  have hstrings := tree_array Body.string Document.string fun _ => rfl
  rw [QuoteRepresentation.encode, QuoteRepresentation.document, ← hstrings, ← hstrings]
  rfl

/-- The encoding of a quiz is its document. -/
theorem tree_encode_quiz (r : QuizRepresentation) : r.encode.tree toString = r.document := by
  rw [QuizRepresentation.encode, QuizRepresentation.document, ← tree_array _ _ tree_encode_quote]
  rfl

theorem tree_encode_user (r : UserRepresentation) : r.encode.tree toString = r.document := by
  have hstrings := tree_array Body.string Document.string fun _ => rfl
  obtain ⟨id, signupDate, username, password, coins, ids⟩ := r
  cases ids with
  | none => rfl
  | some ids =>
    unfold UserRepresentation.encode UserRepresentation.document
    simp only [Option.map_some]
    rw [← hstrings]
    rfl

-- ---------------------------------------------------------------------------
-- The server's answers
-- ---------------------------------------------------------------------------

theorem toString_injective : Function.Injective (toString : Nat → String) := repr_injective

/-- A field with a letter in its name is no index. -/
theorem ne_toString_of_any {field : String} (h : field.toList.any fun c => !c.isDigit) (i : Nat) :
    field ≠ toString i := by
  rintro rfl
  obtain ⟨c, hc, hdigit⟩ := List.any_eq_true.mp h
  rw [Nat.toString_eq_repr, Nat.toList_repr] at hc
  rw [Nat.isDigit_of_mem_toDigits (by decide) (by decide) hc] at hdigit
  cases hdigit

/-- A string with a hyphen is no index. -/
theorem ne_toString_of_hyphen {s : String} (h : '-' ∈ s.toList) (i : Nat) : s ≠ toString i :=
  ne_toString_of_any (List.any_eq_true.mpr ⟨'-', h, by decide⟩) i

section Answers

variable {body : Body}

/-- A string reads back. -/
theorem decodeString_answer {s : String}
    (h : JSON.Answers toString body (Document.string s)) : Body.decodeString body = some s := by
  rw [h.scalar]
  rfl

theorem decodeDate_answer {n : ℚ} (h : JSON.Answers toString body (Document.number n)) :
    Body.decodeDate body = some n := by
  rw [h.scalar]
  rfl

theorem decodeInt16_answer {n : Int16}
    (h : JSON.Answers toString body (Document.number n.toInt)) :
    Body.decodeInt16 body = some n := by
  rw [h.scalar]
  exact Body.decodeInt16_number n

theorem decodeBool_answer {b : Bool} (h : JSON.Answers toString body (Document.bool b)) :
    Body.decodeBool body = some b := by
  rw [h.scalar]
  rfl

theorem decodeUUID_answer {id : UUID} (uuids : UUIDReader)
    (h : JSON.Answers toString body (Document.string id.uuidString)) :
    Body.decodeUUID uuids body = some id := by
  rw [Body.decodeUUID, decodeString_answer h, Option.bind_some, uuids.read_uuidString]

/-- The elements decode one by one. -/
theorem mapM_of_forall₂ {β : Type} {element : Body → Option β} {document : β → Document}
    {ok : β → Prop} [DecidablePred ok]
    (helement : ∀ b body, JSON.Answers toString body (document b) →
      element body = if ok b then some b else none) {bodies : List Body} {xs : List β}
    (h : List.Forall₂ (JSON.Answers toString) bodies (xs.map document)) :
    bodies.mapM element = if ∀ x ∈ xs, ok x then some xs else none := by
  induction xs generalizing bodies with
  | nil =>
    cases h
    rfl
  | cons x xs ih =>
    obtain ⟨first, rest, hfirst, hrest, rfl⟩ := List.forall₂_cons_right_iff.mp h
    rw [List.mapM_cons, helement x first hfirst, ih hrest]
    have hall : (∀ y ∈ x :: xs, ok y) ↔ ok x ∧ ∀ y ∈ xs, ok y := List.forall_mem_cons
    by_cases hx : ok x
    · by_cases hxs : ∀ y ∈ xs, ok y
      · rw [if_pos hx, if_pos hxs, if_pos (hall.mpr ⟨hx, hxs⟩)]
        rfl
      · rw [if_pos hx, if_neg hxs, if_neg fun h => hxs (hall.mp h).2]
        rfl
    · rw [if_neg hx, if_neg fun h => hx (hall.mp h).1]
      rfl

/-- **Arrays.** An empty one is answered with null. -/
theorem decodeArray_answer {β : Type} {element : Body → Option β} {document : β → Document}
    {ok : β → Prop} [DecidablePred ok] (hdocument : ∀ b, document b ≠ .empty)
    (helement : ∀ b body, JSON.Answers toString body (document b) →
      element body = if ok b then some b else none) {xs : List β}
    (h : JSON.Answers toString body (Document.array (xs.map document))) :
    Body.decodeArray element body =
      if xs ≠ [] ∧ ∀ x ∈ xs, ok x then some xs else none := by
  by_cases hne : xs = []
  · subst hne
    have hnull : body = .null := (h.eq_null_iff toString_injective).mpr <| by
      ext q : 1
      cases q <;> rfl
    rw [hnull, if_neg fun h => h.1 rfl]
    rfl
  · obtain ⟨elements, rfl, helements⟩ := JSON.Answers.array toString_injective h
      (fun heq => hne (List.map_eq_nil_iff.mp heq)) fun t ht => by
        obtain ⟨x, -, rfl⟩ := List.mem_map.mp ht
        exact hdocument x
    show elements.mapM element = _
    rw [mapM_of_forall₂ helement helements]
    simp [hne]

/-- A list of strings reads back unless it is empty. -/
theorem decodeStrings_answer {xs : List String}
    (h : JSON.Answers toString body (Document.array (xs.map Document.string))) :
    Body.decodeArray Body.decodeString body = if xs ≠ [] then some xs else none := by
  have helement : ∀ s body, JSON.Answers toString body (Document.string s) →
      Body.decodeString body = if True then some s else none := by
    intro s body hs
    rw [decodeString_answer hs, if_pos trivial]
  have hstrings := decodeArray_answer (fun s => ne_empty_iff.mpr ⟨[], .string s, rfl⟩) helement h
  simpa using hstrings

/-- An optional array that is empty is as good as none. -/
theorem decodeIfPresent_strings_answer {xs : List String}
    (h : JSON.Answers toString body (Document.array (xs.map Document.string))) :
    Body.decodeIfPresent (Body.decodeArray Body.decodeString) body =
      some (if xs ≠ [] then some xs else none) := by
  have hstrings := decodeStrings_answer h
  by_cases hne : xs = []
  · subst hne
    have hnull : body = .null := (h.eq_null_iff toString_injective).mpr (by
      ext q : 1
      cases q <;> rfl)
    rw [hnull]
    rfl
  · rw [if_pos hne] at hstrings ⊢
    cases body with
    | null => cases hstrings
    | scalar a => cases hstrings
    | object members => cases hstrings
    | array elements =>
      show (Body.decodeArray Body.decodeString (.array elements)).map some = _
      rw [hstrings]
      rfl

-- ---------------------------------------------------------------------------
-- Representations
-- ---------------------------------------------------------------------------

/-- No list of the quote is empty. -/
def QuoteRepresentation.Readable (r : QuoteRepresentation) : Prop :=
  r.incorrectOptions ≠ [] ∧ r.allOptions ≠ []

instance (r : QuoteRepresentation) : Decidable r.Readable :=
  inferInstanceAs (Decidable (_ ∧ _))

/-- No list of the quiz is empty, down to its quotes. -/
def QuizRepresentation.Readable (r : QuizRepresentation) : Prop :=
  r.quotes ≠ [] ∧ ∀ q ∈ r.quotes, q.Readable

instance (r : QuizRepresentation) : Decidable r.Readable :=
  inferInstanceAs (Decidable (_ ∧ _))

theorem QuoteRepresentation.document_ne_empty (r : QuoteRepresentation) : r.document ≠ .empty :=
  ne_empty_iff.mpr ⟨["quoteID"], .string r.quoteID, rfl⟩

theorem subtree_object_of_lookup {fields : List (String × Document)} {field : String}
    {doc : Document} (h : fields.lookup field = some doc) :
    (PathTree.object fields).subtree [field] = doc := by
  rw [subtree_object, h, Option.getD_some]

theorem subtree_object_of_lookup_none {fields : List (String × Document)} {field : String}
    (h : fields.lookup field = none) : (PathTree.object fields).subtree [field] = .empty := by
  rw [subtree_object, h, Option.getD_none]

/-- The member of an answer is the answer to the field. -/
theorem answers_field {tree doc : Document} (h : JSON.Answers toString body tree)
    {field : String} (hfield : field.toList.any fun c => !c.isDigit)
    (hdoc : tree.subtree [field] = doc) : JSON.Answers toString (body.get field) doc :=
  hdoc ▸ h.get (ne_toString_of_any hfield)

/-- The user, with an empty list of ids dropped. -/
def UserRepresentation.stored (r : UserRepresentation) : UserRepresentation :=
  { r with quizesCreatedIDs := r.quizesCreatedIDs.filter (· ≠ []) }

/-- **Users.** Whatever is stored below `quizzesCreated`, a user is read back. -/
theorem UserRepresentation.decode_answer (uuids : UUIDReader) (r : UserRepresentation)
    {tree : Document} (hfields : ∀ field, field ≠ "quizzesCreated" →
      tree.subtree [field] = r.document.subtree [field])
    (h : JSON.Answers toString body tree) :
    UserRepresentation.decode uuids body = some r.stored := by
  have hfield : ∀ {field : String} {doc : Document},
      field.toList.any (fun c => !c.isDigit) → field ≠ "quizzesCreated" →
      r.document.subtree [field] = doc → JSON.Answers toString (body.get field) doc :=
    fun hletter hne hdoc => answers_field h hletter ((hfields _ hne).trans hdoc)
  refine decode_of_fields (decodeUUID_answer uuids (hfield (by decide) (by decide) ?_))
    (decodeDate_answer (hfield (by decide) (by decide) ?_))
    (decodeString_answer (hfield (by decide) (by decide) ?_))
    (decodeString_answer (hfield (by decide) (by decide) ?_))
    (decodeInt16_answer (hfield (by decide) (by decide) ?_)) ?_
  · exact subtree_object_of_lookup rfl
  · exact subtree_object_of_lookup rfl
  · exact subtree_object_of_lookup rfl
  · exact subtree_object_of_lookup rfl
  · exact subtree_object_of_lookup rfl
  · -- the one optional property
    have hids : JSON.Answers toString (body.get "quizesCreatedIDs")
        (r.document.subtree ["quizesCreatedIDs"]) := hfield (by decide) (by decide) rfl
    cases hsome : r.quizesCreatedIDs with
    | none =>
      have hempty : r.document.subtree ["quizesCreatedIDs"] = .empty := by
        rw [document, hsome]
        exact subtree_object_of_lookup_none rfl
      rw [(hids.eq_null_iff toString_injective).mpr hempty, stored, hsome]
      rfl
    | some ids =>
      have harray : r.document.subtree ["quizesCreatedIDs"] =
          Document.array (ids.map Document.string) := by
        rw [document, hsome]
        exact subtree_object_of_lookup rfl
      rw [harray] at hids
      rw [decodeIfPresent_strings_answer hids, stored, hsome]
      by_cases hne : ids = []
      · subst hne
        rfl
      · have hkept : (some ids).filter (fun ids => decide (ids ≠ [])) = some ids :=
          Option.filter_some_pos (decide_eq_true hne)
        rw [if_pos hne]
        exact congrArg some hkept.symm

/-- **Quotes.** A quote is read back unless one of its lists is empty. -/
theorem QuoteRepresentation.decode_answer (r : QuoteRepresentation)
    (h : JSON.Answers toString body r.document) :
    QuoteRepresentation.decode body = if r.Readable then some r else none := by
  have hfield : ∀ {field : String} {doc : Document},
      field.toList.any (fun c => !c.isDigit) → r.document.subtree [field] = doc →
      JSON.Answers toString (body.get field) doc := fun hletter => answers_field h hletter
  rw [decode_of_fields
    (decodeString_answer (hfield (by decide) (subtree_object_of_lookup rfl)))
    (decodeString_answer (hfield (by decide) (subtree_object_of_lookup rfl)))
    (decodeString_answer (hfield (by decide) (subtree_object_of_lookup rfl)))
    (decodeString_answer (hfield (by decide) (subtree_object_of_lookup rfl)))
    (decodeString_answer (hfield (by decide) (subtree_object_of_lookup rfl))),
    decodeStrings_answer (hfield (by decide) (subtree_object_of_lookup rfl)),
    decodeStrings_answer (hfield (by decide) (subtree_object_of_lookup rfl))]
  by_cases hincorrect : r.incorrectOptions = []
  · simp [Readable, hincorrect]
  · by_cases hall : r.allOptions = []
    · simp [Readable, hall]
    · simp [Readable, hincorrect, hall]

/-- **Quizzes.** A quiz is read back if it has quotes, and each of them is. -/
theorem QuizRepresentation.decode_answer (uuids : UUIDReader) (r : QuizRepresentation)
    (h : JSON.Answers toString body r.document) :
    QuizRepresentation.decode uuids body = if r.Readable then some r else none := by
  have hfield : ∀ {field : String} {doc : Document},
      field.toList.any (fun c => !c.isDigit) → r.document.subtree [field] = doc →
      JSON.Answers toString (body.get field) doc := fun hletter => answers_field h hletter
  rw [decode_of_fields
    (decodeUUID_answer uuids (hfield (by decide) (subtree_object_of_lookup rfl)))
    (decodeString_answer (hfield (by decide) (subtree_object_of_lookup rfl)))
    (decodeDate_answer (hfield (by decide) (subtree_object_of_lookup rfl)))
    (decodeString_answer (hfield (by decide) (subtree_object_of_lookup rfl)))
    (decodeBool_answer (hfield (by decide) (subtree_object_of_lookup rfl))),
    decodeArray_answer QuoteRepresentation.document_ne_empty
      (fun q _ => q.decode_answer) (hfield (by decide) (subtree_object_of_lookup rfl))]
  have hparts : r.Readable ↔ r.quotes ≠ [] ∧ ∀ q ∈ r.quotes, q.Readable := Iff.rfl
  by_cases hreadable : r.Readable
  · rw [if_pos hreadable, if_pos (hparts.mp hreadable)]
    rfl
  · rw [if_neg hreadable, if_neg fun h => hreadable (hparts.mpr h)]
    rfl

end Answers

/-- An object with the given fields. -/
theorem rendered_object (fields : List String) {members : List (String × Body)}
    (hkeys : members.map Prod.fst = fields)
    (hletter : fields.any fun field => field.toList.any fun c => !c.isDigit)
    (hnodup : fields.Nodup) (hmembers : ∀ m ∈ members, m.2.Rendered toString) :
    (JSON.object members).Rendered toString := by
  subst hkeys
  obtain ⟨field, hmem, hfield⟩ := List.any_eq_true.mp hletter
  exact JSON.rendered_object hmem (ne_toString_of_any hfield) hnodup hmembers

/-- A list of strings that is not empty is answered as it was put. -/
theorem rendered_strings {xs : List String} (hne : xs ≠ []) :
    (JSON.array (xs.map Body.string)).Rendered toString := by
  refine JSON.rendered_array (fun hnil => hne (List.map_eq_nil_iff.mp hnil)) fun e he => ?_
  obtain ⟨s, -, rfl⟩ := List.mem_map.mp he
  exact .scalar _

/-- What was put is an answer itself, if no list in it is empty. -/
theorem QuoteRepresentation.answers_encode {r : QuoteRepresentation} (h : r.Readable) :
    JSON.Answers toString r.encode r.document := by
  refine ⟨tree_encode_quote r, .inr ?_⟩
  refine rendered_object ["quoteID", "firstPart", "secondPart", "answer", "quizID",
    "incorrectOptions", "allOptions"] rfl (by decide) (by decide) ?_
  simp only [List.forall_mem_cons, List.not_mem_nil, false_implies, implies_true, and_true]
  exact ⟨.scalar _, .scalar _, .scalar _, .scalar _, .scalar _, rendered_strings h.1,
    rendered_strings h.2⟩

theorem QuizRepresentation.answers_encode {r : QuizRepresentation} (h : r.Readable) :
    JSON.Answers toString r.encode r.document := by
  refine ⟨tree_encode_quiz r, .inr ?_⟩
  refine rendered_object ["id", "title", "dateCreated", "creatorID", "quotes",
    "hasBeenReported"] rfl (by decide) (by decide) ?_
  simp only [List.forall_mem_cons, List.not_mem_nil, false_implies, implies_true, and_true]
  refine ⟨.scalar _, .scalar _, .scalar _, .scalar _, ?_, .scalar _⟩
  refine JSON.rendered_array (fun hnil => h.1 (List.map_eq_nil_iff.mp hnil)) fun e he => ?_
  obtain ⟨q, hq, rfl⟩ := List.mem_map.mp he
  exact (QuoteRepresentation.answers_encode (h.2 q hq)).rendered.resolve_left nofun

/-- An empty list of ids and none at all make one document. -/
theorem UserRepresentation.document_stored (r : UserRepresentation) :
    r.stored.document = r.document := by
  obtain ⟨id, signupDate, username, password, coins, _ | _ | ⟨first, ids⟩⟩ := r
  · rfl
  · -- an empty list leaves nothing behind
    have hempty : Document.array [] = .empty := indexed_nil toString
    unfold document
    simp only [stored, Option.map_some, List.map_nil, hempty, Option.toList_some,
      object_concat_empty]
    rfl
  · rfl

/-- Without the empty list it may have, so is a user. -/
theorem UserRepresentation.answers_encode (r : UserRepresentation) :
    JSON.Answers toString r.stored.encode r.document := by
  refine ⟨(tree_encode_user r.stored).trans r.document_stored, .inr ?_⟩
  have hscalars : ∀ m ∈ [("id", Body.string r.id.uuidString),
      ("signupDate", Body.number r.signupDate), ("username", Body.string r.username),
      ("password", Body.string r.password), ("coins", Body.number r.coins.toInt)],
      m.2.Rendered toString := by
    simp only [List.forall_mem_cons, List.not_mem_nil, false_implies, implies_true, and_true]
    exact ⟨.scalar _, .scalar _, .scalar _, .scalar _, .scalar _⟩
  unfold encode
  cases hids : r.stored.quizesCreatedIDs with
  | none =>
    exact rendered_object ["id", "signupDate", "username", "password", "coins"] rfl (by decide)
      (by decide) hscalars
  | some ids =>
    have hne : ids ≠ [] := by simpa using (Option.filter_eq_some_iff.mp hids).2
    refine rendered_object ["id", "signupDate", "username", "password", "coins",
      "quizesCreatedIDs"] rfl (by decide) (by decide) (List.forall_mem_append.mpr ⟨hscalars, ?_⟩)
    intro m hm
    rw [List.mem_singleton.mp hm]
    exact rendered_strings hne

-- ---------------------------------------------------------------------------
-- PUT and GET
-- ---------------------------------------------------------------------------

/-- What arrived last is all there is at its path. -/
theorem answers_serve_last (server : Document) (before : List Request) (path : List String)
    (rep : Representation) {body : Body} (h : JSON.Answers toString body rep.document) :
    Answers (serve server (before ++ [⟨path, rep⟩])) path body := by
  rw [Answers, serve, List.map_append, deliver, List.foldl_append]
  show JSON.Answers toString body (((server.deliver _).put path rep.document).subtree path)
  rwa [subtree_put_self]

/-- **A whole quiz.** A quiz that was put as a whole is read back exactly when no list in it,
down to the options of its quotes, is empty; else the answer does not decode. -/
theorem quiz_reads_back (uuids : UUIDReader) (server : Document) (path : List String)
    (rep : QuizRepresentation) (body : Body)
    (h : Answers (serve server [⟨path, .quiz rep⟩]) path body) :
    QuizRepresentation.decode uuids body = if rep.Readable then some rep else none := by
  refine rep.decode_answer uuids ?_
  rwa [Answers, serve, List.map_singleton, deliver_cons, deliver_nil, subtree_put_self] at h

/-- A quiz with one quote. -/
def QuizRepresentation.whole : QuizRepresentation where
  id := ⟨"1"⟩
  title := "Films"
  dateCreated := 0
  creatorID := "0"
  quotes := [.first]
  hasBeenReported := false

theorem quiz_reads_back_whole :
    QuizRepresentation.decode .lenient QuizRepresentation.whole.encode = some .whole :=
  quiz_reads_back .lenient .empty (quizPath "userOne" ⟨"1"⟩) .whole _
    (answers_serve_last _ [] _ _ (QuizRepresentation.answers_encode (by decide)))

/-- The server has the user's own fields. -/
def HoldsUser (server : Document) (username : String) (rep : UserRepresentation) : Prop :=
  ∀ field, field ≠ "quizzesCreated" →
    server.subtree ["users", username, field] = rep.document.subtree [field]

namespace HoldsUser

variable {server : Document} {username : String} {rep : UserRepresentation}

theorem decode (h : HoldsUser server username rep) (uuids : UUIDReader) {body : Body}
    (hbody : Answers server ["users", username] body) :
    UserRepresentation.decode uuids body = some rep.stored := by
  refine rep.decode_answer uuids (fun field hfield => ?_) hbody
  rw [subtree_subtree]
  exact h field hfield

theorem put (server : Document) (username : String) (rep : UserRepresentation) :
    HoldsUser (server.put ["users", username] rep.document) username rep := by
  intro field _
  show (server.put ["users", username] rep.document).subtree (["users", username] ++ [field]) = _
  rw [← subtree_subtree, subtree_put_self]

/-- Every other request of a run leaves the user's own fields alone. -/
theorem put_of_ne (h : HoldsUser server username rep) {uuids : UUIDSource} {drawn : Nat}
    {r : Request} (hshaped : r.Shaped uuids drawn) (hne : r.path ≠ ["users", username]) :
    HoldsUser (server.put r.path r.body.document) username rep := by
  intro field hfield
  rw [subtree_put_of_incomparable, h field hfield]
  · cases hshaped with
    | user name => simpa using hne
    | quiz => simp [hfield.symm]
    | quote => simp [hfield.symm]
  · cases hshaped with
    | user => simp
    | quiz => simp [hfield]
    | quote => simp [hfield]

/-- Requests for anything but the user leave the account. -/
theorem serve (h : HoldsUser server username rep) {requests : List Request}
    (hrequests : ∀ r ∈ requests, ∃ uuids drawn, r.Shaped uuids drawn)
    (hne : ∀ r ∈ requests, r.path ≠ ["users", username]) :
    HoldsUser (serve server requests) username rep := by
  induction requests generalizing server with
  | nil => exact h
  | cons r requests ih =>
    obtain ⟨uuids, drawn, hshaped⟩ := hrequests r (List.mem_cons_self ..)
    exact ih (h.put_of_ne hshaped (hne r (List.mem_cons_self ..)))
      (fun r' hr' => hrequests r' (List.mem_cons_of_mem _ hr'))
      (fun r' hr' => hne r' (List.mem_cons_of_mem _ hr'))

end HoldsUser

/-- **The last user put.** In whatever order the requests of a run have arrived, a GET of a
username is answered with the last user put there, but for an empty list of ids. -/
theorem user_reads_back (w : World) (hw : w.coreData.store.Closed) (ops : List Operation)
    (server : Document) (before after : List Request) (username : String)
    (rep : UserRepresentation)
    (horder : (before ++ ⟨["users", username], .user rep⟩ :: after).Perm
      ((Machine.run Core.step (Core.launch w.relaunch) ops).world.tasks.map Task.request))
    (hlast : ∀ r ∈ after, r.path ≠ ["users", username]) (uuids : UUIDReader) (body : Body)
    (h : Answers (serve server (before ++ ⟨["users", username], .user rep⟩ :: after))
      ["users", username] body) :
    UserRepresentation.decode uuids body = some rep.stored := by
  have haddressed := Core.addressed_run hw ops
  have hshaped : ∀ r ∈ after, ∃ uuids drawn, r.Shaped uuids drawn := by
    intro r hr
    have hmem := horder.mem_iff.mp (List.mem_append_right before (List.mem_cons_of_mem _ hr))
    obtain ⟨t, ht, rfl⟩ := List.mem_map.mp hmem
    exact ⟨_, _, haddressed.shaped t ht⟩
  refine HoldsUser.decode ?_ uuids h
  rw [serve, List.map_append, List.map_cons, deliver, List.foldl_append]
  exact (HoldsUser.put _ username rep).serve hshaped hlast

/-- The user of the first quiz, as it was put. -/
def UserRepresentation.first : UserRepresentation where
  id := ⟨"0"⟩
  signupDate := 0
  username := "userOne"
  password := "pass"
  coins := 250
  quizesCreatedIDs := some []

/-- The user arrives after its quiz and quote. -/
theorem user_reads_back_late :
    UserRepresentation.decode .lenient UserRepresentation.first.stored.encode =
      some { UserRepresentation.first with quizesCreatedIDs := none } :=
  user_reads_back { uuids := .numbered } Context.closed_empty Operation.firstQuiz .empty
    (Request.firstQuiz.drop 1) [] "userOne" .first (by decide) nofun .lenient _
    (answers_serve_last _ _ _ (.user .first) (UserRepresentation.answers_encode .first))

end KnowTheQuote
