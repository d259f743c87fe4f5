import Mathlib.Data.List.Infix
import Mathlib.Data.List.Perm.Subperm

/-!
# Messages in flight

Several senders and one receiver. A message that was sent is in flight until it arrives or
is lost, each at any time and in any order. What was sent and what has arrived is kept as
history, with the senders.

* `Sound` — every message arrives at most once, and only if it was sent;
  `Sound.pairwise_arrived` — what holds between any two messages sent holds between any two
  that have arrived.
* `InOrder` — the messages of each sender arrive in the order they were sent, though some may
  be lost; `InOrder.pairwise_arrived` — what holds between a message and the later ones of its
  sender, and between messages of different senders, holds in the order of arrival.
* `sentBy` — what one sender has sent; `IsLost` — what will not arrive any more.
-/

/-- Messages of several senders on their way to one receiver. -/
structure Mail (ι μ : Type*) where
  sent : List (ι × μ) := []
  inFlight : List (ι × μ) := []
  arrived : List (ι × μ) := []

namespace Mail

variable {ι μ : Type*}

/-- Sender `i` sends messages. -/
def send (m : Mail ι μ) (i : ι) (messages : List μ) : Mail ι μ :=
  { m with
    sent := m.sent ++ messages.map (i, ·)
    inFlight := m.inFlight ++ messages.map (i, ·) }

/-- A message in flight arrives. -/
def arrive (m : Mail ι μ) (n : Nat) : Mail ι μ :=
  { m with
    inFlight := m.inFlight.eraseIdx n
    arrived := m.arrived ++ m.inFlight[n]?.toList }

/-- A message in flight is lost. -/
def lose (m : Mail ι μ) (n : Nat) : Mail ι μ := { m with inFlight := m.inFlight.eraseIdx n }

-- ---------------------------------------------------------------------------
-- At most once
-- ---------------------------------------------------------------------------

/-- No message is in two places, or in flight or arrived without having been sent. -/
def Sound (m : Mail ι μ) : Prop := (m.arrived ++ m.inFlight).Subperm m.sent

variable {m : Mail ι μ}

/-- Before anything is sent there is nothing to account for. -/
theorem sound_empty : ({} : Mail ι μ).Sound := List.Subperm.refl []

/-- A message is in flight once it is sent. -/
theorem Sound.send (h : m.Sound) (i : ι) (messages : List μ) : (m.send i messages).Sound := by
  show (m.arrived ++ (m.inFlight ++ messages.map (i, ·))).Subperm _
  rw [← List.append_assoc]
  exact (List.subperm_append_right _).mpr h

/-- A message that gets lost was in flight. -/
theorem Sound.lose (h : m.Sound) (n : Nat) : (m.lose n).Sound := by
  refine List.Subperm.trans ?_ h
  exact ((List.eraseIdx_sublist _ n).append_left m.arrived).subperm

/-- A message arrives out of those in flight. -/
theorem Sound.arrive (h : m.Sound) (n : Nat) : (m.arrive n).Sound := by
  -- the same messages, in another order
  have hperm : (m.inFlight[n]?.toList ++ m.inFlight.eraseIdx n).Perm m.inFlight := by
    by_cases hn : n < m.inFlight.length
    · rw [List.getElem?_eq_getElem hn]
      exact List.getElem_cons_eraseIdx_perm hn
    · rw [List.getElem?_eq_none (Nat.le_of_not_lt hn),
        List.eraseIdx_of_length_le (Nat.le_of_not_lt hn)]
      exact .refl _
  show ((m.arrived ++ m.inFlight[n]?.toList) ++ m.inFlight.eraseIdx n).Subperm _
  rw [List.append_assoc]
  exact (hperm.append_left m.arrived).subperm.trans h

theorem Sound.mem_sent (h : m.Sound) {x : ι × μ} (hx : x ∈ m.arrived) : x ∈ m.sent :=
  h.subset (List.mem_append_left _ hx)

/-- What holds between any two messages, in whatever order, holds along the arrivals. -/
theorem Sound.pairwise_arrived (h : m.Sound) {R : ι × μ → ι × μ → Prop}
    (hsymm : ∀ {x y}, R x y → R y x) (hsent : m.sent.Pairwise R) : m.arrived.Pairwise R := by
  obtain ⟨l, hperm, hsub⟩ := h
  have hall := (hperm.pairwise_iff hsymm).mp (hsent.sublist hsub)
  exact hall.sublist (List.sublist_append_left ..)

-- ---------------------------------------------------------------------------
-- In order
-- ---------------------------------------------------------------------------

/-- What holds within every class and between the classes holds throughout. -/
theorem pairwise_of_classes [DecidableEq ι] {α : Type*} {f : α → ι} {R : α → α → Prop}
    {l : List α} (hsame : ∀ i, (l.filter fun x => f x = i).Pairwise R)
    (hother : ∀ x ∈ l, ∀ y ∈ l, f x ≠ f y → R x y) : l.Pairwise R := by
  induction l with
  | nil => exact .nil
  | cons x l ih =>
    refine List.pairwise_cons.mpr ⟨fun y hy => ?_, ih (fun i => ?_) fun y hy z hz => ?_⟩
    · by_cases heq : f y = f x
      · have hclass := hsame (f x)
        rw [List.filter_cons_of_pos (by simp)] at hclass
        exact (List.pairwise_cons.mp hclass).1 y (List.mem_filter.mpr ⟨hy, decide_eq_true heq⟩)
      · exact hother x (List.mem_cons_self ..) y (List.mem_cons_of_mem _ hy) (Ne.symm heq)
    · exact (hsame i).sublist ((List.sublist_cons_self x l).filter _)
    · exact hother y (List.mem_cons_of_mem _ hy) z (List.mem_cons_of_mem _ hz)

variable [DecidableEq ι]

/-- The messages of one sender. -/
def ofSender (i : ι) (l : List (ι × μ)) : List (ι × μ) := l.filter fun x => x.1 = i

/-- What a sender has sent comes in pieces as the messages do. -/
@[simp] theorem ofSender_append (i : ι) (l l' : List (ι × μ)) :
    ofSender i (l ++ l') = ofSender i l ++ ofSender i l' := List.filter_append ..

/-- What one sender has sent, in order. -/
def sentBy (m : Mail ι μ) (i : ι) : List μ := (ofSender i m.sent).map Prod.snd

@[simp] theorem sentBy_empty (i : ι) : ({} : Mail ι μ).sentBy i = [] := rfl

/-- A sender's list grows by its own messages only. -/
theorem sentBy_send (i j : ι) (messages : List μ) :
    (m.send i messages).sentBy j = m.sentBy j ++ if i = j then messages else [] := by
  simp only [sentBy, send, ofSender_append, List.map_append]
  split
  · next heq => simp [ofSender, heq, List.filter_map, Function.comp_def]
  · next hne => simp [ofSender, hne]

/-- It has been sent, and is neither in flight nor arrived. -/
def IsLost (m : Mail ι μ) (x : ι × μ) : Prop := x ∈ m.sent ∧ x ∉ m.inFlight ∧ x ∉ m.arrived

/-- Of each sender some messages have arrived and later ones are in flight, in the order they
were sent. -/
def InOrder (m : Mail ι μ) : Prop :=
  ∀ i, (ofSender i (m.arrived ++ m.inFlight)).Sublist (ofSender i m.sent)

/-- No message in flight is an older one of the same sender. -/
def Oldest (m : Mail ι μ) (n : Nat) : Prop :=
  ∀ x ∈ m.inFlight.take n, ∀ y ∈ m.inFlight[n]?, x.1 ≠ y.1

instance (m : Mail ι μ) : DecidablePred m.Oldest := fun n =>
  inferInstanceAs (Decidable (∀ x ∈ m.inFlight.take n, ∀ y ∈ m.inFlight[n]?, x.1 ≠ y.1))

theorem inOrder_empty : ({} : Mail ι μ).InOrder := fun _ => List.Sublist.refl _

/-- The newest message is behind all earlier ones. -/
theorem InOrder.send (h : m.InOrder) (i : ι) (messages : List μ) : (m.send i messages).InOrder := by
  intro j
  show (ofSender j (m.arrived ++ (m.inFlight ++ messages.map (i, ·)))).Sublist
    (ofSender j (m.sent ++ messages.map (i, ·)))
  rw [← List.append_assoc, ofSender_append, ofSender_append j m.sent]
  exact (h j).append_right _

/-- Losing a message does not let another one overtake. -/
theorem InOrder.lose (h : m.InOrder) (n : Nat) : (m.lose n).InOrder := by
  intro i
  refine List.Sublist.trans ?_ (h i)
  exact ((List.eraseIdx_sublist _ n).append_left m.arrived).filter _

/-- The oldest message of a sender may arrive. -/
theorem InOrder.arrive (h : m.InOrder) {n : Nat} (hn : m.Oldest n) : (m.arrive n).InOrder := by
  intro i
  suffices heq : ofSender i ((m.arrive n).arrived ++ (m.arrive n).inFlight) =
      ofSender i (m.arrived ++ m.inFlight) by
    rw [heq]
    exact h i
  by_cases hlt : n < m.inFlight.length
  · -- split what is in flight at the message
    have hsplit : m.inFlight = m.inFlight.take n ++ m.inFlight[n] :: m.inFlight.drop (n + 1) := by
      rw [← List.drop_eq_getElem_cons hlt, List.take_append_drop]
    have hold : m.inFlight[n].1 = i → ofSender i (m.inFlight.take n) = [] := by
      intro heq
      refine List.filter_eq_nil_iff.mpr fun x hx => ?_
      have hne := hn x hx m.inFlight[n] (List.getElem?_eq_getElem hlt)
      simpa [heq] using hne
    show ofSender i ((m.arrived ++ m.inFlight[n]?.toList) ++ m.inFlight.eraseIdx n) =
      ofSender i (m.arrived ++ m.inFlight)
    rw [List.getElem?_eq_getElem hlt, List.eraseIdx_eq_take_drop_succ]
    conv_rhs => rw [hsplit]
    generalize m.inFlight.take n = l at hold
    generalize m.inFlight.drop (n + 1) = l'
    generalize m.inFlight[n] = y at hold
    simp only [Option.toList_some, ofSender_append, List.append_assoc]
    by_cases heq : y.1 = i
    · rw [hold heq]
      simp [ofSender, heq]
    · simp [ofSender, heq]
  · rw [Mail.arrive, List.getElem?_eq_none (Nat.le_of_not_lt hlt),
      List.eraseIdx_of_length_le (Nat.le_of_not_lt hlt)]
    simp

theorem InOrder.mem_sent (h : m.InOrder) {x : ι × μ} (hx : x ∈ m.arrived) : x ∈ m.sent := by
  have hmem : x ∈ ofSender x.1 (m.arrived ++ m.inFlight) :=
    List.mem_filter.mpr ⟨List.mem_append_left _ hx, decide_eq_true rfl⟩
  exact List.mem_of_mem_filter ((h x.1).subset hmem)

/-- What holds along the messages of each sender, and between different senders, holds along
the arrivals. -/
theorem InOrder.pairwise_arrived (h : m.InOrder) {R : ι × μ → ι × μ → Prop}
    (hsame : ∀ i, (ofSender i m.sent).Pairwise R)
    (hother : ∀ x ∈ m.sent, ∀ y ∈ m.sent, x.1 ≠ y.1 → R x y) : m.arrived.Pairwise R := by
  refine pairwise_of_classes (fun i => ?_) fun x hx y hy =>
    hother x (h.mem_sent hx) y (h.mem_sent hy)
  refine (hsame i).sublist (List.Sublist.trans ?_ (h i))
  exact (List.sublist_append_left ..).filter _

end Mail
