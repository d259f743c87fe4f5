import KnowTheQuote.Properties.Commits
import KnowTheQuote.Properties.Delivery
import KnowTheQuote.Model.Transport

/-!
# Know the Quote — what a `put` reports

A `put` tells its completion handler about a success before the request has left, and
about a transport error afterwards; of a response it tells nothing. So the handler
hears the truth, and hears it once, exactly when no request is sent or the server
accepts it. The callers save in the handler, so what they have saved is on the server
when every request is accepted, none replaces what an earlier one has put, and no save
takes an object along whose `put` was refused.

* `put_taskEnded` — the calls of the handler are what a `put` and the end of its task do.
* `PutCall.truthful_iff` — the outcomes that are reported truthfully.
* `Connection.Arrived` — the requests whose tasks have ended are on the server, and there
  is one for everything a success branch has saved.
* `put_reports_iff` — both.
-/

namespace KnowTheQuote

open Machine PathTree

-- ---------------------------------------------------------------------------
-- One put
-- ---------------------------------------------------------------------------

/-- The end of a task changes nothing in the app. -/
theorem Core.taskEnded_eq (c : Core) (index : Nat) (e : TaskEnd) : c.taskEnded index e = c := by
  cases e with
  | transportError => exact c.step_taskFailed index
  | response => rfl

/-- A `put` and the end of the task it has resumed, if any, call the handler as `putCalls`
says: apart from the lists of tasks and failures nothing else changes. -/
theorem put_taskEnded (c : Core) (outcome : Except NetworkingError Request)
    (handler : Completion) (saves : Bool) (e : TaskEnd) :
    { (c.put outcome handler saves).taskEnded c.world.tasks.length e with
      world.tasks := c.world.tasks, world.failures := c.world.failures } =
    (putCalls outcome e).foldl (fun c result => c.complete saves handler result) c := by
  rw [Core.taskEnded_eq]
  rcases outcome with failure | request
  · rw [Core.put_error]
    simp [putCalls, Core.refused]
  · cases e <;> cases handler <;> cases saves <;> simp [putCalls, TaskEnd.results] <;> rfl

/-- A call of one of the three `put` methods. -/
inductive PutCall where
  | user (self : UserController) (user : ObjectID) (env : Env)
  | quiz (self : QuizController) (quiz : ObjectID) (env : Env)
  | quote (self : QuoteController) (quote : ObjectID) (quizID : UUID) (encodes : Bool)

namespace PutCall

/-- What happens before a data task is resumed. -/
def outcome (ctx : Context) : PutCall → Except NetworkingError Request
  | .user self r env => self.put ctx r env
  | .quiz self r env => self.put ctx r env
  | .quote self r quizID encodes => self.put ctx r quizID encodes

/-- The object has a representation, its owner a name, and the encoder does not throw. -/
def Sends (ctx : Context) : PutCall → Prop
  | .user self r env =>
    self.baseURL.isSome ∧ env.encodes = true ∧ (ctx.userRepresentation r env.order).isSome ∧
      (ctx.username r).isSome
  | .quiz self r env =>
    self.baseURL.isSome ∧ env.encodes = true ∧ (ctx.quizRepresentation r env.order).isSome ∧
      (self.user.bind ctx.username).isSome
  | .quote self r _ encodes =>
    self.baseURL.isSome ∧ encodes = true ∧
      ((ctx.quotes.get? r).bind Quote.quoteRepresentation).isSome ∧
      (self.user.bind ctx.username).isSome

variable (p : PutCall) (ctx : Context) (e : TaskEnd)

theorem sends_iff : p.Sends ctx ↔ ∃ r, p.outcome ctx = .ok r := by
  cases p with
  | user self r env =>
    simp only [Sends, outcome, UserController.put_eq_ok, Option.isSome_iff_exists]
    constructor
    · rintro ⟨hurl, henc, ⟨rep, hrep⟩, name, hname⟩
      exact ⟨_, hurl, henc, rep, name, hrep, hname, rfl⟩
    · rintro ⟨_, hurl, henc, rep, name, hrep, hname, -⟩
      exact ⟨hurl, henc, ⟨rep, hrep⟩, name, hname⟩
  | quiz self r env =>
    simp only [Sends, outcome, QuizController.put_eq_ok, Option.isSome_iff_exists,
      Option.bind_eq_some_iff]
    constructor
    · rintro ⟨hurl, henc, ⟨rep, hrep⟩, name, creator, hcreator, hname⟩
      exact ⟨_, hurl, henc, rep, creator, name, hrep, hcreator, hname, rfl⟩
    · rintro ⟨_, hurl, henc, rep, creator, name, hrep, hcreator, hname, -⟩
      exact ⟨hurl, henc, ⟨rep, hrep⟩, name, creator, hcreator, hname⟩
  | quote self r quizID encodes =>
    simp only [Sends, outcome, QuoteController.put_eq_ok, Option.isSome_iff_exists,
      Option.bind_eq_some_iff]
    constructor
    · rintro ⟨hurl, henc, ⟨rep, hrep⟩, name, creator, hcreator, hname⟩
      exact ⟨_, hurl, henc, rep, creator, name, hrep, hcreator, hname, rfl⟩
    · rintro ⟨_, hurl, henc, rep, creator, name, hrep, hcreator, hname, -⟩
      exact ⟨hurl, henc, ⟨rep, hrep⟩, name, creator, hcreator, hname⟩

/-- The `put`, with the given handler, and then the end of the task it has resumed, if any. -/
def perform (c : Core) (handler : Completion) (saves : Bool) : Core :=
  (c.put (p.outcome c.world.context) handler saves).taskEnded c.world.tasks.length e

/-- The handler is called once, and with a success exactly when the server has accepted a
request: `result` is all that the `put` and the end of its task hand to a handler, and
apart from the lists of tasks and failures the call with it is all they do. -/
def Truthful (c : Core) : Prop :=
  ∃ result, putCalls (p.outcome c.world.context) e = [result] ∧
    (∀ handler saves, { p.perform e c handler saves with
      world.tasks := c.world.tasks, world.failures := c.world.failures } =
        c.complete saves handler result) ∧
    ((∃ body, result = .ok body) ↔ p.Sends c.world.context ∧ e.accepted = true)

/-- A put reports the truth if and only if it sends nothing or the server accepts it. -/
theorem truthful_iff (c : Core) :
    p.Truthful e c ↔ (p.Sends c.world.context → e.accepted = true) := by
  have hcalls : ∀ result, putCalls (p.outcome c.world.context) e = [result] →
      ∀ handler saves, { p.perform e c handler saves with
        world.tasks := c.world.tasks, world.failures := c.world.failures } =
          c.complete saves handler result := by
    intro result hresult handler saves
    rw [perform, put_taskEnded, hresult]
    rfl
  unfold Truthful
  rw [sends_iff]
  rcases hput : p.outcome c.world.context with failure | request
  · -- nothing is sent, and the failure is reported
    refine iff_of_true ⟨.error failure, rfl, hcalls _ (by rw [hput]; rfl), ?_⟩ ?_
    · simp
    · simp
  · have hsends : ∃ r, Except.ok (ε := NetworkingError) request = .ok r := ⟨request, rfl⟩
    cases e with
    | transportError =>
      -- the success and then the failure
      simp [putCalls, TaskEnd.results, TaskEnd.accepted]
    | response code =>
      have hcalls := hcalls (.ok request.body) (by rw [hput]; rfl)
      simp [putCalls, TaskEnd.results, hcalls]

end PutCall

-- ---------------------------------------------------------------------------
-- The tasks of a run
-- ---------------------------------------------------------------------------

/-- Tasks are only appended. -/
theorem Core.tasks_prefix_step (c : Core) (op : Operation) :
    c.world.tasks <+: (c.step op).world.tasks := by
  have hSync : ∀ c' : Core, c.world.tasks <+: c'.world.tasks →
      c.world.tasks <+: c'.syncUser.world.tasks := by
    intro c' h
    rw [world_syncUser]
    exact h
  cases op with
  | createUser username password env =>
    exact createUser_induction (P := fun c' => c.world.tasks <+: c'.world.tasks)
      (fun _ _ _ _ h => h) (fun _ h => h) (fun _ _ _ h => h.trans (List.prefix_append _ _))
      (fun _ _ h => h) (List.prefix_refl _) username password
  | syncUser => exact hSync c (List.prefix_refl _)
  | getUser r env =>
    exact getUser_induction (P := fun c' => c.world.tasks <+: c'.world.tasks)
      (fun _ _ _ _ h => h) (fun _ _ _ h => h) (fun _ _ _ h => h.trans (List.prefix_append _ _))
      (fun _ _ h => h) (fun _ _ h => h) (fun _ _ h => h) (fun _ _ _ _ h => h) hSync
      (List.prefix_refl _) r
  | setTitle title => exact List.prefix_refl _
  | createEmptyQuiz env =>
    have hcases := c.createEmptyQuiz_cases env
    show c.world.tasks <+: (c.createEmptyQuiz env).world.tasks
    generalize c.createEmptyQuiz env = c' at hcases ⊢
    cases hcases with
    | skipped => exact List.prefix_refl _
    | refused => simp
    | added => simp
  | createQuote first second answer incorrect env =>
    have hcases := c.createQuote_cases ⟨first, second, answer, incorrect⟩ env
    show c.world.tasks <+: (c.createQuote first second answer incorrect env).world.tasks
    generalize c.createQuote first second answer incorrect env = c' at hcases ⊢
    cases hcases with
    | skipped => exact List.prefix_refl _
    | full => exact List.prefix_refl _
    | refused => simp
    | added => simp
  | moveToNextQuote =>
    obtain ⟨cursor, hstep⟩ := c.step_moveToNextQuote
    exact hstep ▸ List.prefix_refl _
  | moveToPrevQuote =>
    obtain ⟨cursor, hstep⟩ := c.step_moveToPrevQuote
    exact hstep ▸ List.prefix_refl _
  | setupStart quiz fetch => exact List.prefix_refl _
  | nextQuoteToDisplay =>
    obtain ⟨cursor, hstep⟩ := c.step_nextQuoteToDisplay
    exact hstep ▸ List.prefix_refl _
  | taskFailed index => rw [step_taskFailed]

/-- Two tasks of a run put no quiz or quote under one id. -/
theorem Core.Addressed.apart_of_ne {c : Core} (h : c.Addressed) {i j : Nat} {t t' : Task}
    (hi : c.world.tasks[i]? = some t) (hj : c.world.tasks[j]? = some t') (hne : i ≠ j) :
    t.request.Apart t'.request := by
  obtain ⟨hilt, rfl⟩ := List.getElem?_eq_some_iff.mp hi
  obtain ⟨hjlt, rfl⟩ := List.getElem?_eq_some_iff.mp hj
  have hpair := List.pairwise_iff_getElem.mp h.apart
  rcases Nat.lt_or_gt_of_ne hne with hlt | hgt
  · exact hpair i j hilt hjlt hlt
  · exact (hpair j i hjlt hilt hgt).symm

-- ---------------------------------------------------------------------------
-- Arrival
-- ---------------------------------------------------------------------------

/-- A user's document has no leaf where the quizzes are. -/
theorem Request.user_spares {uuids : UUIDSource} {drawn : Nat} {username : String}
    {rep : UserRepresentation} {r' : Request} (h' : r'.Shaped uuids drawn)
    (hpath : ¬ r'.path <+: ["users", username]) :
    Spares r'.write (write ⟨["users", username], .user rep⟩) := by
  intro q hq
  have hfield : ∀ rest, q ≠ "quizzesCreated" :: rest := by
    rintro rest rfl
    exact hq (rep.leafAt_quizzesCreated rest)
  rcases q with _ | ⟨field, rest⟩
  · exact absurd rfl hq
  · have hne : field ≠ "quizzesCreated" := fun heq => hfield rest (by rw [heq])
    cases h' with
    | user name rep' =>
      have hname : name ≠ username := fun heq => hpath (by rw [heq])
      simp [write, hname, hname.symm]
    | quiz name rep' => simp [write, hne, hne.symm]
    | quote name rep' => simp [write, hne, hne.symm]

/-- A request that is not put at or above the path of another one spares it. -/
theorem Request.Shaped.spares {uuids : UUIDSource} {drawn : Nat} {r r' : Request}
    (h : r.Shaped uuids drawn) (h' : r'.Shaped uuids drawn) (hapart : r.Apart r')
    (hpath : ¬ r'.path <+: r.path) : Spares r'.write r.write := by
  by_cases hr : r.isCreation = true
  · exact (clears_or_spares h h' hapart hr).resolve_left fun hclears => hpath hclears.1
  · cases h with
    | user username rep => exact user_spares h' hpath
    | quiz => exact absurd rfl hr
    | quote => exact absurd rfl hr

namespace Connection

variable {s : Connection}

/-- The tasks that have ended. -/
def landed (s : Connection) : List Task := s.ended.filterMap fun i => s.core.world.tasks[i]?

/-- Nothing else waits in the context when a success branch saves, the server accepts every
request, and none is put at or above the path of one it has accepted before. -/
def Admits (s : Connection) : ConnectionEvent → Prop
  | .operation op => s.core.SavesOwn op
  | .taskEnded index e =>
    ∀ task ∈ s.inFlight index,
      e.accepted = true ∧ ∀ t ∈ s.landed, ¬ task.request.path <+: t.request.path

instance (s : Connection) : DecidablePred s.Admits
  | .operation op => inferInstanceAs (Decidable (s.core.SavesOwn op))
  | .taskEnded index e => inferInstanceAs (Decidable (∀ task ∈ s.inFlight index,
      e.accepted = true ∧ ∀ t ∈ s.landed, ¬ task.request.path <+: t.request.path))

/-- The requests whose tasks have ended are on the server, and what the success branches
have saved was put. -/
structure Arrived (s : Connection) : Prop where
  addressed : s.core.Addressed
  accounted : s.core.Accounted
  issued : ∀ i ∈ s.ended, i < s.core.world.tasks.length
  stored : ∀ i ∈ s.ended, ∀ t, s.core.world.tasks[i]? = some t →
    s.server.Contains t.request.path t.request.body.document

/-- One event. -/
theorem Arrived.step (h : s.Arrived) {e : ConnectionEvent} (he : s.Admits e) :
    (s.step e).Arrived := by
  cases e with
  | operation op =>
    have hprefix := s.core.tasks_prefix_step op
    refine ⟨h.addressed.step op, h.accounted.step he,
      fun i hi => (h.issued i hi).trans_le hprefix.length_le, ?_⟩
    -- an old index still names the old task
    intro i hi t ht
    have hlt := h.issued i hi
    refine h.stored i hi t ?_
    obtain ⟨ts, hts⟩ := hprefix
    have hold : (s.core.world.tasks ++ ts)[i]? = s.core.world.tasks[i]? :=
      List.getElem?_append_left hlt
    rw [← hold, hts]
    exact ht
  | taskEnded index e =>
    simp only [Connection.step]
    cases hflight : s.inFlight index with
    | none => exact h
    | some task =>
      obtain ⟨hacc, hpath⟩ := he task hflight
      obtain ⟨hnew, htask⟩ : index ∉ s.ended ∧ s.core.world.tasks[index]? = some task := by
        unfold inFlight at hflight
        split at hflight
        · cases hflight
        · next hnew => exact ⟨hnew, hflight⟩
      dsimp only
      rw [Core.taskEnded_eq, if_pos hacc]
      refine ⟨h.addressed, h.accounted, ?_, ?_⟩
      · intro i hi
        rcases List.mem_append.mp hi with hi | hi
        · exact h.issued i hi
        · rw [List.mem_singleton.mp hi]
          exact (List.getElem?_eq_some_iff.mp htask).1
      · intro i hi t ht
        show (s.server.put task.request.path task.request.body.document).Contains _ _
        rcases List.mem_append.mp hi with hi | hi
        · -- the new request spares the ones that have arrived
          have hne : i ≠ index := fun heq => hnew (heq ▸ hi)
          have hspares : Spares task.request.write t.request.write :=
            (h.addressed.shaped t (List.mem_of_getElem? ht)).spares
              (h.addressed.shaped task (List.mem_of_getElem? htask))
              (h.addressed.apart_of_ne ht htask hne)
              (hpath t (List.mem_filterMap.mpr ⟨i, hi, ht⟩))
          exact contains_put hspares (h.stored i hi t ht)
        · rw [List.mem_singleton.mp hi] at ht
          cases htask.symm.trans ht
          exact contains_put_self s.server task.request.path task.request.body.document

/-- Once nothing is in flight, every request is on the server. -/
theorem Arrived.all_stored (h : s.Arrived) (hidle : s.Idle) {t : Task}
    (ht : t ∈ s.core.world.tasks) :
    s.server.Contains t.request.path t.request.body.document := by
  obtain ⟨i, hlt, rfl⟩ := List.mem_iff_getElem.mp ht
  have hended : i ∈ s.ended := by
    by_contra hnot
    have hflight := hidle i hlt
    rw [inFlight, if_neg hnot, List.getElem?_eq_getElem hlt] at hflight
    cases hflight
  exact h.stored i hended _ (List.getElem?_eq_getElem hlt)

/-- The object is on the server, as it is in the context. -/
def Holds (s : Connection) (ctx : Context) (o : ManagedObject) : Prop :=
  ∃ r, ctx.IsPutOf r o ∧ s.server.Contains r.path r.body.document

/-- Once nothing is in flight, what the success branches have saved is on the server. -/
theorem Arrived.all_saved_held (h : s.Arrived) (hidle : s.Idle) {x : Commit}
    (hx : x ∈ s.core.world.commits) {o : ManagedObject} (hadds : x.Adds o) : s.Holds x.after o := by
  obtain ⟨t, ht, hput⟩ := h.accounted x hx o hadds
  exact ⟨t.request, hput, h.all_stored hidle ht⟩

end Connection

/-- **Reports.** A `put` calls its completion handler once, and with a success exactly when
the server has accepted the request, if and only if it sends no request or the server
accepts it. In a run in which the server accepts every request, none is put at or above
the path of one accepted before, and nothing else waits in the context when a success
branch saves, every user, quiz and quote that a success branch has stored is on the server
once nothing is in flight. -/
theorem put_reports_iff (w : World) (hw : w.coreData.store.Closed) (server : Document)
    (es : List ConnectionEvent) :
    (∀ (p : PutCall) (e : TaskEnd) (c : Core),
      p.Truthful e c ↔ (p.Sends c.world.context → e.accepted = true)) ∧
    (Along Connection.step Connection.Admits ⟨.launch w.relaunch, server, []⟩ es →
      let s := run Connection.step ⟨.launch w.relaunch, server, []⟩ es
      s.Idle → ∀ x ∈ s.core.world.commits, ∀ o, x.Adds o → s.Holds x.after o) := by
  refine ⟨fun p e c => p.truthful_iff e c, ?_⟩
  intro hadmits s hidle x hx o hadds
  have hstart : Connection.Arrived ⟨.launch w.relaunch, server, []⟩ :=
    ⟨Core.Addressed.launch hw, Core.Accounted.launch w, nofun, nofun⟩
  have harrived : s.Arrived := invariant_run (fun _ _ h he => h.step he) hstart hadmits
  exact harrived.all_saved_held hidle hx hadds

/-- A user, a quiz and a quote, each accepted by the server in its turn. -/
def ConnectionEvent.firstQuiz : List ConnectionEvent :=
  Operation.firstQuiz.map .operation ++
    [.taskEnded 0 (.response (some 200)), .taskEnded 1 (.response (some 200)),
      .taskEnded 2 (.response (some 200))]

theorem put_reports_firstQuiz :
    let s := run Connection.step ⟨.launch (World.relaunch { uuids := .numbered }), .empty, []⟩
      ConnectionEvent.firstQuiz
    (s.core.world.commits.map fun x => x.after.managed.filter (· ∉ x.before.managed)) =
        [[.user 0], [.quiz 0], [.quote 0]] ∧
      ∀ x ∈ s.core.world.commits, ∀ o, x.Adds o → s.Holds x.after o :=
  ⟨by decide, (put_reports_iff { uuids := .numbered } Context.closed_empty .empty
    ConnectionEvent.firstQuiz).2 (by decide) (by decide)⟩

/-- A new user whose request is lost. -/
def ConnectionEvent.lostUser : List ConnectionEvent :=
  [.operation (.createUser "userOne" "pass" {}), .taskEnded 0 .transportError]

theorem lost_user_reported_and_saved :
    (¬ ∀ (p : PutCall) (e : TaskEnd) (c : Core), p.Truthful e c) ∧
    ¬ ∀ (es : List ConnectionEvent),
      let s := run Connection.step
        ⟨.launch (World.relaunch { uuids := .numbered }), .empty, []⟩ es
      s.Idle → ∀ x ∈ s.core.world.commits, ∀ o, x.Adds o → s.Holds x.after o := by
  constructor
  · intro h
    have htruth := h (.user { baseURL := some baseURL } 0 {}) .transportError
      ((Core.launch { uuids := .numbered }).withNewUser "userOne" "pass" 0)
    have haccepted := (PutCall.truthful_iff _ _ _).mp htruth ⟨rfl, rfl, by decide, by decide⟩
    cases haccepted
  · intro h
    -- the user has been saved, and the server holds nothing
    obtain ⟨r, ⟨order, rep, -, rfl⟩, hcontains⟩ := h ConnectionEvent.lostUser (by decide)
      ⟨{}, { users := ⟨[some (.fresh ⟨"0"⟩ "userOne" "pass" 0)]⟩ }⟩ (by decide) (.user 0)
      ⟨by decide, by decide⟩
    have hid := hcontains ["id"] (.string rep.id.uuidString) rfl
    revert hid
    exact nofun

end KnowTheQuote
