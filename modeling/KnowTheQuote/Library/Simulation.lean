import KnowTheQuote.Library.Run

/-!
# Simulations of deterministic machines

A concrete machine is an abstract one seen closer when each of its steps, looked at through a
view of its states, is a run of the abstract machine: no step, one or several. The view may
be right only in the states the concrete machine can get to, so a simulation comes with an
invariant of it.

* `Simulation.run` — a run of the concrete machine is a run of the abstract one.
* `forall_traces` — what the concrete actions promise about the abstract ones.
-/

namespace Machine

variable {σ τ α β : Type*}

/-- The abstract actions of a run, when those of one step are `trace s a`. -/
def traces (step : σ → α → σ) (trace : σ → α → List β) : σ → List α → List β
  | _, [] => []
  | s, a :: as => trace s a ++ traces step trace (step s a) as

/-- Where the invariant holds, a step is the abstract run `trace`. -/
structure Simulation (cstep : σ → α → σ) (astep : τ → β → τ) (view : σ → τ)
    (trace : σ → α → List β) (Inv : σ → Prop) : Prop where
  keeps : ∀ s a, Inv s → Inv (cstep s a)
  agrees : ∀ s a, Inv s → view (cstep s a) = run astep (view s) (trace s a)

variable {cstep : σ → α → σ} {astep : τ → β → τ} {view : σ → τ} {trace : σ → α → List β}
  {Inv : σ → Prop}

/-- **Simulation rule.** Seen through the view, a run is the abstract run of its traces. -/
theorem Simulation.run (h : Simulation cstep astep view trace Inv) {s : σ} (hs : Inv s)
    (as : List α) :
    view (run cstep s as) = run astep (view s) (traces cstep trace s as) := by
  induction as generalizing s with
  | nil => rfl
  | cons a as ih =>
    rw [run_cons, ih (h.keeps s a hs), h.agrees s a hs, traces, run_append]

/-- What every admitted action promises about its trace holds of the trace of a run. -/
theorem forall_traces {p : α → Prop} {q : β → Prop}
    (hstep : ∀ s a, p a → ∀ b ∈ trace s a, q b) {as : List α} (has : ∀ a ∈ as, p a) (s : σ) :
    ∀ b ∈ traces cstep trace s as, q b := by
  induction as generalizing s with
  | nil => exact fun _ h => absurd h List.not_mem_nil
  | cons a as ih =>
    rw [traces]
    refine List.forall_mem_append.mpr ⟨hstep s a (has a (List.mem_cons_self ..)), ?_⟩
    exact ih (fun a' ha' => has a' (List.mem_cons_of_mem _ ha')) _

end Machine
