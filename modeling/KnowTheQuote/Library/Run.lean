import Mathlib.Data.List.Infix

/-!
# Runs of a deterministic machine

A machine is a total step function `step : σ → α → σ`; the nondeterminism of
its surroundings (what the user taps, what the network answers) is carried by
the actions `α`. A run is a list of actions, and the state it reaches is the
left fold of the step function.

Main rules:

* `invariant_run` — an invariant that every step from a good state preserves,
  for the actions a side condition admits, holds at the end of every admitted run.
* `along_initial` — an admitted run admits its prefixes, so the rule above
  speaks about every state reached and not only about the last one.
* `along_congr`, `invariant_along_iff` — the runs that stay in an invariant, when the
  condition of a step is exact.
* `invariant_history` — the invariant rule for invariants that speak about the actions
  taken so far; `split_unique` — what is done once in a run is done at one moment.
-/

namespace Machine

variable {σ α : Type*}

/-- The state reached from `s` by the actions `as`, in order. -/
def run (step : σ → α → σ) (s : σ) (as : List α) : σ :=
  as.foldl step s

/-- Every action of the run meets `cond` in the state it is taken from. -/
def Along (step : σ → α → σ) (cond : σ → α → Prop) : σ → List α → Prop
  | _, [] => True
  | s, a :: as => cond s a ∧ Along step cond (step s a) as

instance decidableAlong (step : σ → α → σ) (cond : σ → α → Prop)
    [∀ s a, Decidable (cond s a)] : ∀ s as, Decidable (Along step cond s as)
  | _, [] => .isTrue trivial
  | s, a :: as =>
    have := decidableAlong step cond (step s a) as
    inferInstanceAs (Decidable (cond s a ∧ Along step cond (step s a) as))

variable {step : σ → α → σ} {cond : σ → α → Prop}

@[simp] theorem run_nil (s : σ) : run step s [] = s := rfl

@[simp] theorem run_cons (s : σ) (a : α) (as : List α) :
    run step s (a :: as) = run step (step s a) as := rfl

@[simp] theorem run_append (s : σ) (as bs : List α) :
    run step s (as ++ bs) = run step (run step s as) bs :=
  List.foldl_append

@[simp] theorem along_nil (s : σ) : Along step cond s [] := trivial

@[simp] theorem along_cons (s : σ) (a : α) (as : List α) :
    Along step cond s (a :: as) ↔ cond s a ∧ Along step cond (step s a) as := Iff.rfl

theorem along_append (s : σ) (as bs : List α) :
    Along step cond s (as ++ bs) ↔
      Along step cond s as ∧ Along step cond (run step s as) bs := by
  induction as generalizing s with
  | nil => simp
  | cons a as ih => simp [ih, and_assoc]

/-- An admitted run admits its prefixes. -/
theorem along_initial {s : σ} {as bs : List α} (hpre : as <+: bs)
    (h : Along step cond s bs) : Along step cond s as := by
  obtain ⟨cs, rfl⟩ := hpre
  exact ((along_append s as cs).mp h).1

/-- A weaker side condition admits more runs. -/
theorem along_mono {cond' : σ → α → Prop} (himp : ∀ s a, cond s a → cond' s a) {s : σ}
    {as : List α} (h : Along step cond s as) : Along step cond' s as := by
  induction as generalizing s with
  | nil => trivial
  | cons a as ih => exact ⟨himp s a h.1, ih h.2⟩

/-- A condition on the actions alone. -/
theorem along_of_forall {p : α → Prop} {s : σ} {as : List α} (h : ∀ a ∈ as, p a) :
    Along step (fun _ a => p a) s as := by
  induction as generalizing s with
  | nil => trivial
  | cons a as ih =>
    exact ⟨h a (List.mem_cons_self ..), ih fun a' ha' => h a' (List.mem_cons_of_mem _ ha')⟩

theorem along_and {cond' : σ → α → Prop} {s : σ} {as : List α} :
    Along step (fun s a => cond s a ∧ cond' s a) s as ↔
      Along step cond s as ∧ Along step cond' s as := by
  induction as generalizing s with
  | nil => simp
  | cons a as ih =>
    simp only [along_cons, ih]
    exact and_and_and_comm

/-- **Invariant rule.** What every admitted step preserves holds at the end of
every admitted run. -/
theorem invariant_run {Inv : σ → Prop}
    (hstep : ∀ s a, Inv s → cond s a → Inv (step s a)) {s : σ} (hs : Inv s)
    {as : List α} (has : Along step cond s as) : Inv (run step s as) := by
  induction as generalizing s with
  | nil => exact hs
  | cons a as ih => exact ih (hstep s a hs has.1) has.2

/-- What an invariant implies about the next action holds along every admitted run. -/
theorem along_of_invariant {Inv : σ → Prop} {cond' : σ → α → Prop}
    (hstep : ∀ s a, Inv s → cond s a → Inv (step s a))
    (himp : ∀ s a, Inv s → cond s a → cond' s a) {s : σ} (hs : Inv s) {as : List α}
    (has : Along step cond s as) : Along step cond' s as := by
  induction as generalizing s with
  | nil => trivial
  | cons a as ih => exact ⟨himp s a hs has.1, ih (hstep s a hs has.1) has.2⟩

/-- The invariant rule for a side condition on the actions alone. -/
theorem invariant_run_of_forall {Inv : σ → Prop} {p : α → Prop}
    (hstep : ∀ s a, Inv s → p a → Inv (step s a)) {s : σ} (hs : Inv s) {as : List α}
    (has : ∀ a ∈ as, p a) : Inv (run step s as) := by
  induction as generalizing s with
  | nil => exact hs
  | cons a as ih =>
    exact ih (hstep s a hs (has a (List.mem_cons_self ..)))
      fun a' ha' => has a' (List.mem_cons_of_mem _ ha')

/-- The invariant rule for a machine whose every action is admitted. -/
theorem invariant_run_all {Inv : σ → Prop} (hstep : ∀ s a, Inv s → Inv (step s a))
    {s : σ} (hs : Inv s) (as : List α) : Inv (run step s as) := by
  induction as generalizing s with
  | nil => exact hs
  | cons a as ih => exact ih (hstep s a hs)

/-- A property of every state reached is one of the first state and of every step. -/
theorem forall_prefix_iff {P : σ → Prop} {s : σ} {as : List α} :
    (∀ pre, pre <+: as → P (run step s pre)) ↔
      P s ∧ Along step (fun s a => P (step s a)) s as := by
  induction as generalizing s with
  | nil => simp
  | cons a as ih =>
    rw [along_cons, ← ih]
    constructor
    · intro hall
      exact ⟨hall [] (List.nil_prefix ..), fun pre hpre =>
        hall (a :: pre) (List.cons_prefix_cons.mpr ⟨rfl, hpre⟩)⟩
    · rintro ⟨hs, hall⟩ pre hpre
      rcases pre with _ | ⟨b, pre⟩
      · exact hs
      · obtain ⟨heq, hrest⟩ := List.cons_prefix_cons.mp hpre
        subst heq
        exact hall pre hrest

/-- Conditions that agree wherever an invariant holds, which the steps that meet them keep,
admit the same runs. -/
theorem along_congr {Inv : σ → Prop} {cond' : σ → α → Prop}
    (hiff : ∀ s a, Inv s → (cond s a ↔ cond' s a))
    (hstep : ∀ s a, Inv s → cond s a → Inv (step s a)) {s : σ} (hs : Inv s) (as : List α) :
    Along step cond s as ↔ Along step cond' s as := by
  constructor
  · exact along_of_invariant hstep (fun s a hs hcond => (hiff s a hs).mp hcond) hs
  · exact along_of_invariant (fun s a hs hcond => hstep s a hs ((hiff s a hs).mpr hcond))
      (fun s a hs hcond => (hiff s a hs).mpr hcond) hs

/-- **Exact condition rule.** Where a step keeps the invariant exactly when it meets the
condition, the runs that never leave the invariant are the ones that always meet it. -/
theorem invariant_along_iff {P : σ → Prop} (hstep : ∀ s a, P s → (P (step s a) ↔ cond s a))
    {s : σ} (hs : P s) (as : List α) :
    (∀ pre, pre <+: as → P (run step s pre)) ↔ Along step cond s as := by
  rw [forall_prefix_iff, and_iff_right hs]
  exact along_congr hstep (fun _ _ _ hnext => hnext) hs as

/-- **History rule.** An invariant of the actions taken so far, and so of the state they
lead to. -/
theorem invariant_history {Inv : List α → Prop} {s : σ} (hs : Inv [])
    (hstep : ∀ as a, Inv as → cond (run step s as) a → Inv (as ++ [a])) {as : List α}
    (has : Along step cond s as) : Inv as := by
  induction as using List.reverseRecOn with
  | nil => exact hs
  | append_singleton as a ih =>
    obtain ⟨hpre, hlast⟩ := (along_append s as [a]).mp has
    exact hstep as a (ih hpre) hlast.1

/-- Two moments of a run at which the same is done are one moment, if it is done once. -/
theorem split_unique {β : Type*} {f : α → Option β} {as pre pre' post post' : List α} {a a' : α}
    {b : β} (hnodup : (as.filterMap f).Nodup) (has : as = pre ++ a :: post)
    (has' : as = pre' ++ a' :: post') (ha : f a = some b) (ha' : f a' = some b) : pre = pre' := by
  -- a moment before the other one would do it twice
  have htwice : ∀ (pre mid post post' : List α) (a a' : α), f a = some b → f a' = some b →
      ((pre ++ a :: post).filterMap f).Nodup → a :: post = mid ++ a' :: post' → mid = [] := by
    intro pre mid post post' a a' ha ha' hnodup heq
    rcases mid with _ | ⟨x, mid⟩
    · rfl
    · obtain ⟨rfl, rfl⟩ := List.cons_eq_cons.mp heq
      simp [List.filterMap_append, ha, ha', List.nodup_append] at hnodup
  rcases List.append_eq_append_iff.mp (has.symm.trans has') with ⟨mid, rfl, heq⟩ | ⟨mid, rfl, heq⟩
  · rw [htwice pre mid post post' a a' ha ha' (has ▸ hnodup) heq, List.append_nil]
  · rw [htwice pre' mid post' post a' a ha' ha (has' ▸ hnodup) heq, List.append_nil]

end Machine
