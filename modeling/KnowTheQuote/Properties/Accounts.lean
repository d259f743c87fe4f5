import KnowTheQuote.Properties.LogInServer

/-!
# Know the Quote — accounts over many launches

Every launch runs the login over the same store. A decoded record makes `fetch` look
into the store before it creates a user; a failure makes the handler create one at
once. A new user reaches the store with the next save that succeeds, unless a save
that throws comes first and resets the context.

* `Ledger` — how many users are stored and how many wait in the context, with what a
  creation does to the two numbers.
* `Accounts` — the controllers count what the ledger says; `Accounts.getUser` — a login
  is a sequence of creations.
* `unambiguous_iff` — the sequences of launches after which no username is stored twice.
* `two_offline_launches` — a sequence after which one is.
-/

namespace KnowTheQuote

open Machine

-- ---------------------------------------------------------------------------
-- The ledger
-- ---------------------------------------------------------------------------

/-- What becomes of a new user. -/
inductive Creation where
  /-- the encoder throws: the user waits in the context -/
  | unsaved
  /-- the save after the `put` succeeds -/
  | saved
  /-- that save throws and resets the context -/
  | forgotten
deriving DecidableEq

/-- The users of one name: in the store, and in the context only. -/
structure Ledger where
  stored : Nat
  unsaved : Nat := 0

namespace Ledger

def total (l : Ledger) : Nat := l.stored + l.unsaved

def insert (l : Ledger) : Ledger := { l with unsaved := l.unsaved + 1 }

/-- A save stores what waits; a save that throws drops it. -/
def save (l : Ledger) (saves : Bool) : Ledger := { stored := if saves then l.total else l.stored }

def create (l : Ledger) : Creation → Ledger
  | .unsaved => l.insert
  | .saved => l.insert.save true
  | .forgotten => l.insert.save false

/-- A user that reaches the store is the only one of its name. -/
def CreatesFirst (l : Ledger) (x : Creation) : Prop := x = .saved → l.total = 0

instance (l : Ledger) (x : Creation) : Decidable (l.CreatesFirst x) :=
  inferInstanceAs (Decidable (x = .saved → l.total = 0))

theorem stored_le_create (l : Ledger) (x : Creation) : l.stored ≤ (l.create x).stored := by
  cases x with
  | unsaved => exact Nat.le_refl _
  | saved => simp only [create, save, insert, total, if_true]; omega
  | forgotten => exact Nat.le_refl _

/-- The store never loses a user. -/
theorem stored_le_run (l : Ledger) (xs : List Creation) :
    l.stored ≤ (run create l xs).stored := by
  induction xs generalizing l with
  | nil => exact Nat.le_refl _
  | cons x xs ih => exact (l.stored_le_create x).trans (ih (l.create x))

/-- One creation keeps the store unambiguous exactly when it comes first. -/
theorem stored_create_le_one {l : Ledger} (h : l.stored ≤ 1) (x : Creation) :
    (l.create x).stored ≤ 1 ↔ l.CreatesFirst x := by
  cases x with
  | unsaved => exact iff_of_true h nofun
  | saved =>
    simp only [create, save, insert, total, CreatesFirst, if_true, true_implies]
    omega
  | forgotten => exact iff_of_true h nofun

theorem stored_run_le_one {l : Ledger} (h : l.stored ≤ 1) (xs : List Creation) :
    (run create l xs).stored ≤ 1 ↔ Along create CreatesFirst l xs := by
  rw [← invariant_along_iff (P := fun l => l.stored ≤ 1) (fun _ x h => stored_create_le_one h x)
    h xs]
  constructor
  · -- what is stored on the way is stored in the end
    rintro hend pre ⟨post, rfl⟩
    rw [run_append] at hend
    exact (stored_le_run _ post).trans hend
  · intro hall
    exact hall xs (List.prefix_refl xs)

end Ledger

-- ---------------------------------------------------------------------------
-- The creations of a login
-- ---------------------------------------------------------------------------

/-- What becomes of the user that `createUser` makes. -/
def Env.creation (env : Env) : Creation :=
  if env.encodes then if env.saves then .saved else .forgotten else .unsaved

namespace LogInEnv

variable (env : LogInEnv) (r : Response)

/-- The handler creates a user for the error. -/
def errorCreations : List Creation := if r.error then [env.onError.creation] else []

/-- The handler creates a user for data that does not decode, and `fetch` one for a record
whose username the lookup does not find. -/
def dataCreations (found : String → Nat) : List Creation :=
  match r.data with
  | none => []
  | some none => [env.onData.creation]
  | some (some rep) =>
    if env.fetch = none ∨ found rep.username = 0 then
      [if env.onData.saves then .saved else .forgotten]
    else []

/-- The handler creates a user for the status. -/
def statusCreations : List Creation :=
  if r.statusCode.any (· ≠ 200) then [env.onStatus.creation] else []

/-- The creations of a login over a store with `stored name` users of each name. The record
is looked up after the creation for the error. -/
def creations (stored : String → Nat) : List Creation :=
  env.errorCreations r ++
    env.dataCreations r (Function.update stored logInUsername
      (run Ledger.create ⟨stored logInUsername, 0⟩ (env.errorCreations r)).total) ++
    env.statusCreations r

end LogInEnv

-- ---------------------------------------------------------------------------
-- The users of a context
-- ---------------------------------------------------------------------------

namespace Context

variable (c : Context)

/-- The number of users a fetch for `username` finds. -/
def accounts (username : String) : Nat := (c.fetchUsers username).length

theorem accounts_alloc (u : User) (username : String) :
    ({ c with users := c.users.alloc u } : Context).accounts username =
      c.accounts username + if u.username = some username then 1 else 0 := by
  unfold accounts fetchUsers
  rw [Heap.live_alloc, List.filter_append, List.length_append]
  congr 1
  · congr 1
    apply List.filter_congr
    intro r hr
    obtain ⟨u', hu'⟩ := Heap.mem_live.mp hr
    rw [Heap.get?_alloc_of_lt u (Heap.lt_size_of_get? hu')]
  · by_cases hname : u.username = some username
    · simp [hname]
    · simp [hname]

theorem accounts_reload (store : Context) (username : String) :
    (c.reload store).accounts username = store.accounts username := by
  unfold accounts fetchUsers reload
  rw [Heap.live_reload, List.filter_map, List.length_map]
  congr 1
  apply List.filter_congr
  intro r _
  simp [Heap.get?_reload_add]

/-- The lookup returns no user: the fetch throws, or there is none. -/
theorem getUserFromCD_eq_none (username : String) (fetch : FetchOutcome) :
    getUserFromCD c username fetch = none ↔ fetch = none ∨ c.accounts username = 0 := by
  rcases fetch with _ | order
  · exact iff_of_true rfl (.inl rfl)
  · show (order.apply (c.fetchUsers username)).head? = none ↔ _
    rw [List.head?_eq_none_iff, ← List.length_eq_zero_iff, order.length_apply]
    simp [accounts]

end Context

-- ---------------------------------------------------------------------------
-- The controllers and the ledger
-- ---------------------------------------------------------------------------

/-- Store and context count what the ledger says for the user of the login, and `others`
for every other name. -/
structure Accounts (others : String → Nat) (l : Ledger) (c : Core) : Prop where
  baseURL : c.userController.baseURL.isSome
  stored : c.world.coreData.store.accounts logInUsername = l.stored
  context : c.world.context.accounts logInUsername = l.total
  others : ∀ username, username ≠ logInUsername →
    c.world.coreData.store.accounts username = others username ∧
      c.world.context.accounts username = others username

namespace Accounts

variable {others : String → Nat} {l : Ledger} {c : Core}

/-- Only Core Data counts. -/
theorem of_coreData (h : Accounts others l c) {c' : Core}
    (hurl : c'.userController.baseURL = c.userController.baseURL)
    (hdata : c'.world.coreData = c.world.coreData) : Accounts others l c' := by
  have hcontext : c'.world.context = c.world.context := congrArg CoreDataStack.context hdata
  refine ⟨by rw [hurl]; exact h.baseURL, by rw [hdata]; exact h.stored,
    by rw [hcontext]; exact h.context, fun username hne => ?_⟩
  rw [hdata, hcontext]
  exact h.others username hne

theorem withNewUser (h : Accounts others l c) (password : String) (now : Date) :
    Accounts others l.insert (c.withNewUser logInUsername password now) := by
  refine ⟨h.baseURL, h.stored, ?_, fun username hne => ⟨(h.others username hne).1, ?_⟩⟩
  · rw [Core.context_withNewUser, Context.accounts_alloc, h.context]
    simp only [User.fresh, if_true, Ledger.total, Ledger.insert]
    omega
  · rw [Core.context_withNewUser, Context.accounts_alloc, (h.others username hne).2]
    simp [User.fresh, hne.symm]

theorem save (h : Accounts others l c) (saves : Bool) :
    Accounts others (l.save saves) (c.save saves) := by
  cases saves with
  | true =>
    exact ⟨h.baseURL, h.context, h.context, fun username hne =>
      ⟨(h.others username hne).2, (h.others username hne).2⟩⟩
  | false =>
    -- the context is loaded from the store again
    have hreload : ∀ username, (c.save false).world.context.accounts username =
        c.world.coreData.store.accounts username := fun username => by
      rw [Core.world_save, World.context_save_false, Context.accounts_reload]
    have hstore : ∀ username, (c.save false).world.coreData.store.accounts username =
        c.world.coreData.store.accounts username := hreload
    refine ⟨h.baseURL, (hstore _).trans h.stored, (hreload _).trans h.stored,
      fun username hne => ⟨?_, ?_⟩⟩
    · exact (hstore _).trans (h.others username hne).1
    · exact (hreload _).trans (h.others username hne).1

/-- A failure is one creation. -/
theorem reply_error (h : Accounts others l c) (e : NetworkingError) (call : Env) :
    Accounts others (l.create call.creation)
      (c.reply getUserCompletion (.error e) call) := by
  have hreplied : Accounts others l (c.replied (.error e)) := h.of_coreData rfl rfl
  have hnew := hreplied.withNewUser logInPassword call.now
  obtain ⟨rep, hspec⟩ := (c.replied (.error e)).createUser_spec h.baseURL logInUsername
    logInPassword call
  have hcreated : Accounts others (l.create call.creation)
      ((c.replied (.error e)).createUser logInUsername logInPassword call).1 := by
    rw [hspec]
    unfold Env.creation
    by_cases henc : call.encodes = true
    · rw [if_pos henc, if_pos henc]
      cases hsaves : call.saves with
      | true => exact (hnew.save true).of_coreData rfl rfl
      | false => exact (hnew.save false).of_coreData rfl rfl
    · rw [if_neg henc, if_neg henc]
      exact hnew.of_coreData rfl rfl
  rw [Core.reply_error]
  refine hcreated.of_coreData ?_ ?_
  · exact congrArg UserController.baseURL (Core.syncUser_user _).1
  · exact congrArg World.coreData (Core.world_syncUser _)

theorem reply_ok (h : Accounts others l c) (user : Option ObjectID) (call : Env) :
    Accounts others l (c.reply getUserCompletion (.ok user) call) := by
  rw [Core.reply_ok]
  refine h.of_coreData ?_ ?_
  · rw [(Core.syncUser_user _).1]
    rfl
  · rw [Core.world_syncUser]
    rfl

-- ---------------------------------------------------------------------------
-- The checks of the closure
-- ---------------------------------------------------------------------------

variable (r : Response) (env : LogInEnv)

theorem errorChecked (h : Accounts others l c) :
    Accounts others (run Ledger.create l (env.errorCreations r)) (c.errorChecked r env) := by
  unfold Core.errorChecked LogInEnv.errorCreations
  split
  · exact h.reply_error _ _
  · exact h

theorem dataChecked (h : Accounts others l c) :
    Accounts others
      (run Ledger.create l
        (env.dataCreations r (Function.update others logInUsername l.total)))
      (c.dataChecked r env) := by
  unfold Core.dataChecked LogInEnv.dataCreations
  rcases r.data with _ | _ | rep
  · exact h
  · exact h.reply_error _ _
  · have hfound : c.world.context.accounts rep.username =
        Function.update others logInUsername l.total rep.username := by
      by_cases hname : rep.username = logInUsername
      · rw [hname, Function.update_self, h.context]
      · rw [Function.update_of_ne hname, (h.others _ hname).2]
    have hlookup := c.world.context.getUserFromCD_eq_none rep.username env.fetch
    rw [hfound] at hlookup
    cases huser : getUserFromCD c.world.context rep.username env.fetch with
    | some user =>
      have hhit := fun hmiss => Option.some_ne_none user (huser.symm.trans (hlookup.mpr hmiss))
      simp only [if_neg hhit, Core.fetchDecoded_found huser]
      have hcurrent : Accounts others l { c with userController.user := some user } :=
        h.of_coreData rfl rfl
      exact hcurrent.reply_ok _ _
    | none =>
      simp only [if_pos (hlookup.mp huser), Core.fetchDecoded_missed huser]
      have hsaved := (h.withNewUser logInPassword env.onData.now).save env.onData.saves
      have hcreate : l.insert.save env.onData.saves =
          l.create (if env.onData.saves then .saved else .forgotten) := by
        cases env.onData.saves <;> rfl
      rw [hcreate] at hsaved
      exact hsaved.reply_ok _ _

theorem statusChecked (h : Accounts others l c) :
    Accounts others (run Ledger.create l (env.statusCreations r)) (c.statusChecked r env) := by
  unfold Core.statusChecked LogInEnv.statusCreations
  rcases r.statusCode with _ | code
  · exact h
  · by_cases hcode : code = 200
    · simpa [hcode] using h
    · simpa [hcode] using h.reply_error _ _

/-- **A login is a sequence of creations.** -/
theorem getUser (stored : String → Nat) (h : Accounts stored ⟨stored logInUsername, 0⟩ c) :
    Accounts stored (run Ledger.create ⟨stored logInUsername, 0⟩ (env.creations r stored))
      (c.getUser r env) := by
  rw [c.getUser_eq r env h.baseURL]
  unfold LogInEnv.creations
  rw [run_append, run_append]
  exact ((h.errorChecked r env).dataChecked r env).statusChecked r env

end Accounts

-- ---------------------------------------------------------------------------
-- Launches
-- ---------------------------------------------------------------------------

/-- One launch and its login, whose data task ends with the given response. -/
def World.logIn (w : World) (l : Response × LogInEnv) : World :=
  ((Core.launch w.relaunch).getUser l.1 l.2).world

/-- No two stored users have the same username. -/
def World.Unambiguous (w : World) : Prop :=
  ∀ username, (w.coreData.store.fetchUsers username).length ≤ 1

/-- Every user the login creates and saves is made while no user of that name is stored or
waits in the context. -/
def World.CreatesFirst (w : World) (l : Response × LogInEnv) : Prop :=
  Along Ledger.create Ledger.CreatesFirst ⟨w.coreData.store.accounts logInUsername, 0⟩
    (l.2.creations l.1 w.coreData.store.accounts)

instance (w : World) (l : Response × LogInEnv) : Decidable (w.CreatesFirst l) :=
  inferInstanceAs (Decidable (Along _ _ _ _))

/-- A launch starts with what is stored. -/
theorem accounts_launch (w : World) :
    Accounts w.coreData.store.accounts ⟨w.coreData.store.accounts logInUsername, 0⟩
      (Core.launch w.relaunch) :=
  ⟨rfl, rfl, rfl, fun _ _ => ⟨rfl, rfl⟩⟩

theorem unambiguous_logIn {w : World} (h : w.Unambiguous) (l : Response × LogInEnv) :
    (w.logIn l).Unambiguous ↔ w.CreatesFirst l := by
  have hafter := (accounts_launch w).getUser l.1 l.2
  have hstored : w.coreData.store.accounts logInUsername ≤ 1 := h logInUsername
  unfold World.CreatesFirst
  rw [← Ledger.stored_run_le_one hstored, ← hafter.stored]
  constructor
  · intro hall
    exact hall logInUsername
  · -- the other names are stored as often as before
    intro hone username
    by_cases hname : username = logInUsername
    · rw [hname]
      exact hone
    · exact (hafter.others username hname).1.trans_le (h username)

/-- **One account per username.** From a store without duplicates, no launch leaves two
users of one name in the store if and only if, in every launch, a user that is saved is
created while there is none of its name. -/
theorem unambiguous_iff (w : World) (h : w.Unambiguous) (launches : List (Response × LogInEnv)) :
    (∀ pre, pre <+: launches → (run World.logIn w pre).Unambiguous) ↔
      Along World.logIn World.CreatesFirst w launches :=
  invariant_along_iff (P := World.Unambiguous) (fun _ l hw => unambiguous_logIn hw l) h launches

/-- A launch without a connection. -/
def offline : Response × LogInEnv := ({ data := none, statusCode := none, error := true }, {})

/-- A launch whose login the server answers. -/
def online : Response × LogInEnv := (.decoded, {})

theorem unambiguous_offline_online :
    (run World.logIn { uuids := .numbered } [offline]).coreData.store.accounts logInUsername = 1 ∧
      ∀ pre, pre <+: [offline, online, online] →
        (run World.logIn { uuids := .numbered } pre).Unambiguous :=
  ⟨by decide, (unambiguous_iff { uuids := .numbered } (fun _ => Nat.zero_le 1)
    [offline, online, online]).mpr (by decide)⟩

theorem two_offline_launches :
    ¬ ∀ (w : World), w.Unambiguous → ∀ (launches : List (Response × LogInEnv)) pre,
      pre <+: launches → (run World.logIn w pre).Unambiguous := by
  intro h
  have htwo := h { uuids := .numbered } (fun _ => Nat.zero_le 1) [offline, offline] _
    (List.prefix_refl _) logInUsername
  revert htwo
  decide

end KnowTheQuote
