import KnowTheQuote.Properties.DataSteps
import KnowTheQuote.Properties.Fleet

/-!
# Know the Quote — several devices and the order of arrival

With the account out of danger, the only request that can take away another one's document
is a quiz that arrives after one of its own quotes. Both come from one device, so it is
enough that the requests of each device arrive in turn, however the devices interleave.

* `fleet_converges_iff` — the orders of arrival in which all quizzes and quotes are stored.
* `Shaped.putID_mem_mentions` — a request at or above the path of another is put under an id
  that the other names; no request is put under an id that an earlier one has named.
* `fleet_in_turn` — nothing is lost when the requests of each device arrive in turn.
-/

namespace KnowTheQuote

open Machine PathTree

-- ---------------------------------------------------------------------------
-- Any order
-- ---------------------------------------------------------------------------

/-- No two devices draw the same UUID. -/
def FreshUUIDs {ι : Type} (w : ι → World) : Prop :=
  ∀ i j m n, (w i).uuids.next m = (w j).uuids.next n → i = j

namespace Fleet

variable {ι : Type} {w : ι → World} {server : Document} {rep : UserRepresentation}
  {reader : UUIDReader} {s : Fleet ι}

/-- The id of a request was drawn by its sender. -/
theorem Serves.putID (h : s.Serves w server rep reader) {x : ι × Request}
    (hx : x ∈ s.mail.sent) : ∃ n < (s.device x.1).world.drawn,
      x.2.putID = some ((w x.1).uuids.next n).uuidString := by
  have hcreation := h.creations x hx
  obtain ⟨i, r⟩ := x
  cases h.shaped _ hx with
  | user => cases hcreation
  | quiz username rep hn hid => exact ⟨_, hn, by rw [← hid]; rfl⟩
  | quote username rep hn hid => exact ⟨_, hn, by rw [← hid]; rfl⟩

/-- No two requests put a quiz or quote under one id. -/
def Apart (s : Fleet ι) : Prop := s.mail.sent.Pairwise fun x y => x.2.Apart y.2

/-- **Convergence of all devices.** -/
theorem Serves.stored_iff (h : s.Serves w server rep reader) (hapart : s.Apart) :
    (∀ x ∈ s.mail.arrived, x.2.IsStored s.server) ↔
      s.mail.arrived.Pairwise fun x y => ¬ y.2.path <+: x.2.path := by
  have hsent : ∀ x ∈ s.mail.arrived, x ∈ s.mail.sent := fun x hx =>
    h.mail.mem_sent hx
  have hcs : s.mail.arrived.Pairwise fun x y => True →
      Clears y.2.write x.2.write ∨ Spares y.2.write x.2.write := by
    have harrived := h.mail.pairwise_arrived (fun hxy => Request.Apart.symm hxy) hapart
    refine harrived.imp_of_mem fun hx hy hxy _ => ?_
    exact Request.clears_or_spares (h.shaped _ (hsent _ hx)) (h.shaped _ (hsent _ hy)) hxy
      (h.creations _ (hsent _ hx))
  have hconverges := contains_deliver_iff (t := server)
    (fun x hx _ => Request.exists_leaf (h.creations x (hsent x hx))) hcs
  simp only [true_imp_iff] at hconverges
  refine Iff.trans ?_ hconverges
  have hserver : s.server = server.deliver (s.mail.arrived.map fun x => x.2.write) := by
    rw [h.server, serve, List.map_map]
    rfl
  rw [← hserver]
  refine forall₂_congr fun x hx => ?_
  rw [(h.shaped x (hsent x hx)).isStored_iff]
  exact ⟨fun hstored => hstored (h.creations x (hsent x hx)), fun hcontains _ => hcontains⟩

variable [DecidableEq ι]

theorem Serves.apart_step (h : s.Serves w server rep reader) (hfresh : FreshUUIDs w)
    (hapart : s.Apart) {e : FleetEvent ι} (he : s.Admits reader e) : (s.step e).Apart := by
  cases e with
  | operation i op =>
    refine List.pairwise_append.mpr ⟨hapart, ?_, ?_⟩
    · rcases requests_cases (h.addressed i) (h.baseURL i) (h.putsNoUser he) with hnil | ⟨r, hone, -⟩
      · rw [hnil]
        exact .nil
      · rw [hone]
        exact List.pairwise_singleton _ _
    · intro x hx y hy
      rcases requests_cases (h.addressed i) (h.baseURL i) (h.putsNoUser he) with
        hnil | ⟨r, hone, hid, -⟩
      · rw [hnil] at hy
        cases hy
      · rw [hone, List.map_singleton, List.mem_singleton] at hy
        rw [hy]
        by_cases heq : x.1 = i
        · subst heq
          rw [h.source] at hid
          exact (h.shaped x hx).apart hid
        · -- another device has drawn the id of `x`
          obtain ⟨n, -, hid'⟩ := h.putID hx
          intro id hx' hr
          rw [hid'] at hx'
          rw [hid, h.source, ← hx'] at hr
          exact heq (hfresh _ _ _ _ (congrArg UUID.mk (Option.some.inj hr))).symm
  | launch i => exact hapart
  | arrives n => exact hapart
  | lost n => exact hapart
  | answered body => exact hapart

end Fleet

/-- **Any order of arrival.** In every such run of devices that draw different UUIDs, and in
every state of it, all the quizzes and quotes that have arrived are stored at their places if
and only if none was followed by a request at or above its path: no quote by its own quiz. -/
theorem fleet_converges_iff {ι : Type} [DecidableEq ι] (w : ι → World)
    (hw : ∀ i, (w i).coreData.store.Closed) (hfresh : FreshUUIDs w) (server : Document)
    (rep : UserRepresentation) (haccount : HoldsUser server logInUsername rep)
    (reader : UUIDReader) (es : List (FleetEvent ι))
    (hes : Along Fleet.step (Fleet.Admits reader) (Fleet.start w server) es) :
    let s := run Fleet.step (Fleet.start w server) es
    (∀ x ∈ s.mail.arrived, x.2.IsStored s.server) ↔
      s.mail.arrived.Pairwise fun x y => ¬ y.2.path <+: x.2.path := by
  intro s
  have hstep : ∀ (s : Fleet ι) e, s.Serves w server rep reader ∧ s.Apart → s.Admits reader e →
      (s.step e).Serves w server rep reader ∧ (s.step e).Apart :=
    fun s e h he => ⟨h.1.step he, h.1.apart_step hfresh h.2 he⟩
  obtain ⟨h, hapart⟩ := invariant_run hstep ⟨Fleet.Serves.start hw haccount, .nil⟩ hes
  exact h.stored_iff hapart

/-- Two devices with nothing in their stores. -/
def World.ofDevice (i : Bool) : World := { uuids := if i then .hyphenated else .numbered }

theorem freshUUIDs_ofDevice : FreshUUIDs World.ofDevice := by
  have hne : ∀ m n, UUIDSource.hyphenated.next m ≠ UUIDSource.numbered.next n := by
    intro m n heq
    exact ne_toString_of_hyphen (UUIDSource.hyphen_mem_hyphenated m) n (congrArg _ heq)
  intro i j m n heq
  cases i with
  | false =>
    cases j with
    | false => rfl
    | true => exact absurd heq.symm (hne n m)
  | true =>
    cases j with
    | false => exact absurd heq (hne m n)
    | true => rfl

/-- The quiz that arrives after its quote takes it away. -/
theorem fleet_converges_lateQuiz :
    let s := run Fleet.step (Fleet.start World.ofDevice .withAccount) FleetEvent.lateQuiz
    ¬ ∀ x ∈ s.mail.arrived, x.2.IsStored s.server :=
  fun hstored => absurd ((fleet_converges_iff World.ofDevice (fun _ => Context.closed_empty)
    freshUUIDs_ofDevice .withAccount .first (HoldsUser.put _ _ _) .lenient FleetEvent.lateQuiz
    (Fleet.admits_lateQuiz _)).mp hstored) (by decide)

-- ---------------------------------------------------------------------------
-- Ids
-- ---------------------------------------------------------------------------

/-- Every id a quiz has was drawn. -/
def Context.IDsDrawn (c : Context) (uuids : UUIDSource) (drawn : Nat) : Prop :=
  c.quizzes.All fun quiz => ∀ id, quiz.id = some id → ∃ n < drawn, id = uuids.next n

theorem Context.IDsDrawn.quizID {c : Context} {uuids : UUIDSource} {drawn : Nat}
    (h : c.IDsDrawn uuids drawn) {quiz : ObjectID} {id : UUID} (hid : c.quizID quiz = some id) :
    ∃ n < drawn, id = uuids.next n := by
  obtain ⟨z, hz, hid⟩ := Option.bind_eq_some_iff.mp hid
  exact h quiz z hz id hid

namespace Core

/-- The quizzes of the context and of the store have ids that were drawn. -/
structure IDsDrawn (c : Core) : Prop where
  context : c.world.context.IDsDrawn c.world.uuids c.world.drawn
  store : c.world.coreData.store.IDsDrawn c.world.uuids c.world.drawn

/-- Every operation draws the ids it gives. -/
theorem IDsDrawn.step {c : Core} (h : c.IDsDrawn) (op : Operation) : (c.step op).IDsDrawn := by
  have hids : c.HasIDs c.world.uuids 0 (fun drawn id => ∃ n < drawn, id = c.world.uuids.next n)
      (fun _ _ => True) :=
    ⟨rfl, Nat.zero_le _, ⟨h.context, fun _ _ _ _ _ => trivial⟩,
      ⟨h.store, fun _ _ _ _ _ => trivial⟩⟩
  have hnext := hids.step c.world.uuids.admits_drawn.quizzes op
  refine ⟨?_, ?_⟩
  · rw [hnext.source]
    exact hnext.context.quizzes
  · rw [hnext.source]
    exact hnext.store.quizzes

end Core

-- ---------------------------------------------------------------------------
-- In turn
-- ---------------------------------------------------------------------------

namespace Request

/-- A quiz or quote that is put at or above the path of another one is put under an id that
the other one names. -/
theorem Shaped.putID_mem_mentions {uuids uuids' : UUIDSource} {drawn drawn' : Nat}
    {r r' : Request} (h : r.Shaped uuids drawn) (h' : r'.Shaped uuids' drawn')
    (hr : r.isCreation) (hr' : r'.isCreation) (hpath : r'.path <+: r.path) :
    ∃ id ∈ r.mentions, r'.putID = some id := by
  cases h with
  | user => cases hr
  | quiz name rep =>
    cases h' with
    | user => cases hr'
    | quiz name' rep' =>
      obtain ⟨-, hid⟩ : name' = name ∧ rep'.id.uuidString = rep.id.uuidString := by
        simpa using hpath
      exact ⟨_, List.mem_singleton_self _, congrArg some hid⟩
    | quote name' rep' =>
      exact absurd hpath.length_le (by simp)
  | quote name rep =>
    cases h' with
    | user => cases hr'
    | quiz name' rep' =>
      obtain ⟨-, hid⟩ : name' = name ∧ rep'.id.uuidString = rep.quizID := by
        simpa using hpath
      exact ⟨rep.quizID, by simp [mentions], congrArg some hid⟩
    | quote name' rep' =>
      obtain ⟨-, -, hid⟩ :
          name' = name ∧ rep'.quizID = rep.quizID ∧ rep'.quoteID = rep.quoteID := by
        simpa using hpath
      exact ⟨rep.quoteID, by simp [mentions], congrArg some hid⟩

end Request

namespace Fleet

variable {ι : Type} {w : ι → World} {server : Document} {rep : UserRepresentation}
  {reader : UUIDReader} {s : Fleet ι}

/-- The ids that requests name were drawn by their senders, no request is put at or above the
path of an earlier one of its sender, and those of each sender arrive in turn. -/
structure InTurn (w : ι → World) [DecidableEq ι] (s : Fleet ι) : Prop where
  ids : ∀ i, (s.device i).IDsDrawn
  mentions : ∀ x ∈ s.mail.sent, ∀ id ∈ x.2.mentions,
    ∃ n < (s.device x.1).world.drawn, id = ((w x.1).uuids.next n).uuidString
  later : s.mail.sent.Pairwise fun x y => x.1 = y.1 → ¬ y.2.path <+: x.2.path
  mail : s.mail.InOrder

variable [DecidableEq ι]

/-- Only the oldest request of a device arrives. -/
def TakesTurn (s : Fleet ι) : FleetEvent ι → Prop
  | .arrives n => s.mail.Oldest n
  | _ => True

instance (s : Fleet ι) : DecidablePred s.TakesTurn
  | .arrives n => inferInstanceAs (Decidable (s.mail.Oldest n))
  | .operation .. | .launch _ | .lost _ | .answered _ => .isTrue trivial

namespace InTurn

theorem operation (h : s.InTurn w) (hserves : s.Serves w server rep reader) {i : ι}
    {op : Operation} (hop : op.PutsNoUser) : (s.step (.operation i op)).InTurn w := by
  have hfollows := (s.device i).follows_step op
  have hnext := hserves.operation (i := i) hop
  have hcases := requests_cases (hserves.addressed i) (hserves.baseURL i) hop
  have hdrawn : ∀ j, (s.device j).world.drawn ≤
      ((s.step (.operation i op)).device j).world.drawn := by
    intro j
    show _ ≤ (Function.update s.device i _ j).world.drawn
    rw [Function.update_apply]
    split
    · next heq => exact heq ▸ hfollows.drawn
    · exact Nat.le_refl _
  refine ⟨fun j => ?_, fun x hx id hid => ?_, ?_, h.mail.send i _⟩
  · show (Function.update s.device i _ j).IDsDrawn
    rw [Function.update_apply]
    split
    · exact (h.ids i).step op
    · exact h.ids j
  · rcases List.mem_append.mp hx with hold | hnew
    · obtain ⟨n, hn, heq⟩ := h.mentions x hold id hid
      exact ⟨n, hn.trans_le (hdrawn x.1), heq⟩
    · rcases hcases with hnil | ⟨r, hone, hputID, hmentions⟩
      · rw [hnil] at hnew
        cases hnew
      · rw [hone, List.map_singleton, List.mem_singleton] at hnew
        subst hnew
        rw [hserves.source] at hputID
        rcases hmentions id hid with hown | ⟨quiz, quizID, hquiz, rfl⟩
        · -- its own id has just been drawn
          refine ⟨_, (hnext.shaped _ hx).lt_of_putID hputID, ?_⟩
          exact Option.some.inj (hown.symm.trans hputID)
        · obtain ⟨n, hn, rfl⟩ := (h.ids i).context.quizID hquiz
          exact ⟨n, hn.trans_le (hdrawn i), by rw [hserves.source]⟩
  · refine List.pairwise_append.mpr ⟨h.later, ?_, ?_⟩
    · rcases hcases with hnil | ⟨r, hone, -⟩
      · rw [hnil]
        exact .nil
      · rw [hone]
        exact List.pairwise_singleton _ _
    · intro x hx y hy heq hpath
      have hy' : y ∈ (s.step (.operation i op)).mail.sent := List.mem_append_right _ hy
      obtain ⟨id, hid, hput⟩ := (hserves.shaped x hx).putID_mem_mentions (hnext.shaped y hy')
        (hserves.creations x hx) (hnext.creations y hy') hpath
      obtain ⟨n, hn, rfl⟩ := h.mentions x hx id hid
      rcases hcases with hnil | ⟨r, hone, hputID, -⟩
      · rw [hnil] at hy
        cases hy
      · rw [hone, List.map_singleton, List.mem_singleton] at hy
        subst hy
        -- the new request is put under an id that had not been drawn before
        subst heq
        rw [hserves.source] at hputID
        have hsame := (w x.1).uuids.uuidString_injective
          (Option.some.inj (hput.symm.trans hputID))
        omega

theorem step (h : s.InTurn w) (hserves : s.Serves w server rep reader) {e : FleetEvent ι}
    (he : s.Admits reader e) (hturn : s.TakesTurn e) : (s.step e).InTurn w := by
  cases e with
  | operation i op => exact h.operation hserves (hserves.putsNoUser he)
  | launch i =>
    refine ⟨fun j => ?_, fun x hx id hid => ?_, h.later, h.mail⟩
    · show (Function.update s.device i _ j).IDsDrawn
      rw [Function.update_apply]
      split
      · exact ⟨(h.ids i).store, (h.ids i).store⟩
      · exact h.ids j
    · show ∃ n < (Function.update s.device i _ x.1).world.drawn, _
      rw [Function.update_apply]
      have hold := h.mentions x hx id hid
      split
      · next heq => rw [heq] at hold ⊢; exact hold
      · exact hold
  | arrives n => exact ⟨h.ids, h.mentions, h.later, h.mail.arrive hturn⟩
  | lost n => exact ⟨h.ids, h.mentions, h.later, h.mail.lose n⟩
  | answered body => exact ⟨h.ids, h.mentions, h.later, h.mail⟩

/-- No request has arrived after one below it. -/
theorem pairwise_arrived (h : s.InTurn w) (hserves : s.Serves w server rep reader)
    (hfresh : FreshUUIDs w) :
    s.mail.arrived.Pairwise fun x y => ¬ y.2.path <+: x.2.path := by
  refine h.mail.pairwise_arrived (fun i => ?_) fun x hx y hy hne hpath => ?_
  · refine (h.later.sublist List.filter_sublist).imp_of_mem fun hx hy hlater => ?_
    have hxi := of_decide_eq_true (List.mem_filter.mp hx).2
    have hyi := of_decide_eq_true (List.mem_filter.mp hy).2
    exact hlater (hxi.trans hyi.symm)
  · -- the ids of different devices are different
    obtain ⟨id, hid, hput⟩ := (hserves.shaped x hx).putID_mem_mentions (hserves.shaped y hy)
      (hserves.creations x hx) (hserves.creations y hy) hpath
    obtain ⟨n, -, rfl⟩ := h.mentions x hx id hid
    obtain ⟨n', -, hput'⟩ := hserves.putID hy
    exact hne (hfresh _ _ _ _ (congrArg UUID.mk (Option.some.inj (hput.symm.trans hput'))))

end InTurn

end Fleet

/-- **In turn.** In every such run in which the requests of each device arrive in the order it
has sent them, though some may be lost, and however the devices interleave: in every state,
every quiz and every quote that has arrived is stored at its place. -/
theorem fleet_in_turn {ι : Type} [DecidableEq ι] (w : ι → World)
    (hw : ∀ i, (w i).coreData.store.Closed)
    (hids : ∀ i, (w i).coreData.store.IDsDrawn (w i).uuids (w i).drawn) (hfresh : FreshUUIDs w)
    (server : Document) (rep : UserRepresentation)
    (haccount : HoldsUser server logInUsername rep) (reader : UUIDReader)
    (es : List (FleetEvent ι))
    (hes : Along Fleet.step (fun s e => s.Admits reader e ∧ s.TakesTurn e)
      (Fleet.start w server) es) :
    let s := run Fleet.step (Fleet.start w server) es
    ∀ x ∈ s.mail.arrived, x.2.IsStored s.server := by
  intro s
  have hstep : ∀ (s : Fleet ι) e, (s.Serves w server rep reader ∧ s.Apart) ∧ s.InTurn w →
      s.Admits reader e ∧ s.TakesTurn e →
      ((s.step e).Serves w server rep reader ∧ (s.step e).Apart) ∧ (s.step e).InTurn w :=
    fun s e h he => ⟨⟨h.1.1.step he.1, h.1.1.apart_step hfresh h.1.2 he.1⟩,
      h.2.step h.1.1 he.1 he.2⟩
  have hstart : (Fleet.start w server).InTurn w :=
    ⟨fun i => ⟨hids i, hids i⟩, nofun, .nil, Mail.inOrder_empty⟩
  obtain ⟨⟨hserves, hapart⟩, hturn⟩ :=
    invariant_run hstep ⟨⟨Fleet.Serves.start hw haccount, .nil⟩, hstart⟩ hes
  exact (hserves.stored_iff hapart).mpr (hturn.pairwise_arrived hserves hfresh)

/-- Both devices create a quiz with one quote, and their requests arrive in turn. -/
def FleetEvent.bothQuizzes : List (FleetEvent Bool) :=
  [.answered UserRepresentation.first.stored.encode] ++ firstQuiz true ++ firstQuiz false ++
    [.arrives 2, .arrives 0, .arrives 1, .arrives 0]

theorem Fleet.admits_bothQuizzes :
    Along Fleet.step (fun s e => Fleet.Admits .lenient s e ∧ s.TakesTurn e)
      (Fleet.start World.ofDevice .withAccount) FleetEvent.bothQuizzes :=
  ⟨⟨answers_withAccount, trivial⟩, ⟨⟨_, List.mem_singleton_self _, rfl, rfl, rfl⟩, trivial⟩,
    ⟨trivial, trivial⟩, ⟨trivial, trivial⟩, ⟨trivial, trivial⟩,
    ⟨⟨_, List.mem_singleton_self _, rfl, rfl, rfl⟩, trivial⟩, ⟨trivial, trivial⟩,
    ⟨trivial, trivial⟩, ⟨trivial, trivial⟩, ⟨trivial, by decide⟩, ⟨trivial, by decide⟩,
    ⟨trivial, by decide⟩, ⟨trivial, by decide⟩, trivial⟩

theorem fleet_in_turn_bothQuizzes :
    let s := run Fleet.step (Fleet.start World.ofDevice .withAccount) FleetEvent.bothQuizzes
    s.mail.arrived.length = 4 ∧ ∀ x ∈ s.mail.arrived, x.2.IsStored s.server :=
  ⟨by decide, fleet_in_turn World.ofDevice (fun _ => Context.closed_empty)
    (fun _ => Heap.all_empty) freshUUIDs_ofDevice .withAccount .first (HoldsUser.put _ _ _)
    .lenient FleetEvent.bothQuizzes Fleet.admits_bothQuizzes⟩

end KnowTheQuote
