import Mathlib.Data.List.Infix
import Mathlib.Tactic.Common

/-!
# Trees addressed by paths

A tree stores its leaves by path. No path with a leaf extends another one, so a
tree is a nested object whose inner nodes carry no value of their own; an empty
object and an absent one are the same tree. Writing at a path replaces the whole
subtree there, and whatever leaf an ancestor carried.

* `leafAt_put_of_prefix`, `leafAt_put_of_incomparable` — what a write changes.
* `Contains` and `contains_put` — a document that was written, and the later
  writes that leave it alone.
* `deliver` — a sequence of writes; `contains_deliver` and `leafAt_deliver_eq_none`
  are its survival and its loss rule, and `contains_deliver_iff` says when every
  document of the sequence survives.
* `subtree` — what a path leads to; `subtree_deliver` says what writes below the path
  make of it, and `deliver_object` that writing fields one by one makes an object.
-/

/-- Leaves by path, no leaf below another. -/
structure PathTree (κ α : Type*) where
  leafAt : List κ → Option α
  prefixFree : ∀ p q, p <+: q → p ≠ q → leafAt p ≠ none → leafAt q = none

namespace PathTree

variable {κ α : Type*}

/-- The tree without leaves. -/
def empty : PathTree κ α := ⟨fun _ => none, by simp⟩

/-- The tree that is one leaf. -/
def leaf (a : α) : PathTree κ α where
  leafAt
    | [] => some a
    | _ :: _ => none
  prefixFree p q hpq hne hp := by
    cases p with
    | nil =>
      cases q with
      | nil => exact absurd rfl hne
      | cons k q => rfl
    | cons k p => exact absurd rfl hp

@[simp] theorem leafAt_empty (p : List κ) : (empty : PathTree κ α).leafAt p = none := rfl

@[simp] theorem leafAt_leaf_nil (a : α) : (leaf a : PathTree κ α).leafAt [] = some a := rfl

@[simp] theorem leafAt_leaf_cons (a : α) (k : κ) (p : List κ) :
    (leaf a : PathTree κ α).leafAt (k :: p) = none := rfl

@[ext] theorem ext {t t' : PathTree κ α} (h : ∀ p, t.leafAt p = t'.leafAt p) : t = t' := by
  obtain ⟨leafAt, _⟩ := t
  obtain ⟨leafAt', _⟩ := t'
  have heq : leafAt = leafAt' := funext h
  subst heq
  rfl

/-- The tree below a path. -/
def subtree (t : PathTree κ α) (p : List κ) : PathTree κ α where
  leafAt q := t.leafAt (p ++ q)
  prefixFree q r hqr hne hq := by
    refine t.prefixFree (p ++ q) (p ++ r) ?_ ?_ hq
    · exact (List.prefix_append_right_inj p).mpr hqr
    · exact fun heq => hne (List.append_cancel_left heq)

@[simp] theorem leafAt_subtree (t : PathTree κ α) (p q : List κ) :
    (t.subtree p).leafAt q = t.leafAt (p ++ q) := rfl

theorem subtree_subtree (t : PathTree κ α) (p q : List κ) :
    (t.subtree p).subtree q = t.subtree (p ++ q) := by
  ext r : 1
  simp

variable [DecidableEq κ]

/-- The tree with the given fields below its root. -/
def object (fields : List (κ × PathTree κ α)) : PathTree κ α where
  leafAt
    | [] => none
    | k :: p => (fields.lookup k).bind fun t => t.leafAt p
  prefixFree p q hpq hne hp := by
    cases p with
    | nil => exact absurd rfl hp
    | cons k p =>
      obtain ⟨r, rfl⟩ := hpq
      simp only [List.cons_append] at hp hne ⊢
      cases hk : fields.lookup k with
      | none => rfl
      | some t =>
        simp only [hk, Option.bind_some] at hp ⊢
        exact t.prefixFree p (p ++ r) (List.prefix_append p r) (by simpa using hne) hp

@[simp] theorem leafAt_object_nil (fields : List (κ × PathTree κ α)) :
    (object fields).leafAt [] = none := rfl

@[simp] theorem leafAt_object_cons (fields : List (κ × PathTree κ α)) (k : κ) (p : List κ) :
    (object fields).leafAt (k :: p) = (fields.lookup k).bind fun t => t.leafAt p := rfl

-- ---------------------------------------------------------------------------
-- Writing
-- ---------------------------------------------------------------------------

/-- Replace the subtree at `p`; a leaf above `p` goes with it. -/
def put (t : PathTree κ α) (p : List κ) (doc : PathTree κ α) : PathTree κ α where
  leafAt q :=
    if p <+: q then doc.leafAt (q.drop p.length)
    else if q <+: p then none
    else t.leafAt q
  prefixFree q r hqr hne hq := by
    obtain ⟨s, rfl⟩ := hqr
    have hs : s ≠ [] := by
      rintro rfl
      simp at hne
    by_cases hpq : p <+: q
    · obtain ⟨u, rfl⟩ := hpq
      simp only [List.prefix_append, if_true, List.append_assoc, List.drop_left] at hq ⊢
      exact doc.prefixFree u (u ++ s) (List.prefix_append u s) (by simpa using hs) hq
    · rw [if_neg hpq] at hq
      by_cases hqp : q <+: p
      · rw [if_pos hqp] at hq
        exact absurd rfl hq
      · -- neither extends the other, so nothing below `q` is comparable with `p`
        rw [if_neg hqp] at hq
        have h1 : ¬ p <+: q ++ s := fun h =>
          (List.prefix_or_prefix_of_prefix h (List.prefix_append q s)).elim hpq hqp
        have h2 : ¬ q ++ s <+: p := fun h => hqp ((List.prefix_append q s).trans h)
        rw [if_neg h1, if_neg h2]
        exact t.prefixFree q (q ++ s) (List.prefix_append q s) (by simpa using hs) hq

theorem leafAt_put (t : PathTree κ α) (p q : List κ) (doc : PathTree κ α) :
    (t.put p doc).leafAt q =
      if p <+: q then doc.leafAt (q.drop p.length)
      else if q <+: p then none
      else t.leafAt q := rfl

@[simp] theorem leafAt_put_append (t : PathTree κ α) (p q : List κ) (doc : PathTree κ α) :
    (t.put p doc).leafAt (p ++ q) = doc.leafAt q := by
  simp [leafAt_put]

theorem leafAt_put_of_incomparable {t : PathTree κ α} {p q : List κ} {doc : PathTree κ α}
    (hpq : ¬ p <+: q) (hqp : ¬ q <+: p) : (t.put p doc).leafAt q = t.leafAt q := by
  rw [leafAt_put, if_neg hpq, if_neg hqp]

-- ---------------------------------------------------------------------------
-- Documents in a tree
-- ---------------------------------------------------------------------------

/-- Every leaf of `doc` is in `t` below `p`. -/
def Contains (t : PathTree κ α) (p : List κ) (doc : PathTree κ α) : Prop :=
  ∀ q a, doc.leafAt q = some a → t.leafAt (p ++ q) = some a

theorem contains_put_self (t : PathTree κ α) (p : List κ) (doc : PathTree κ α) :
    (t.put p doc).Contains p doc := by
  intro q a hq
  rw [leafAt_put_append, hq]

/-- A write at a path. -/
abbrev Write (κ α : Type*) := List κ × PathTree κ α

/-- The write `w'` touches no leaf of the document that `w` wrote. -/
def Spares (w' w : Write κ α) : Prop :=
  ∀ q, w.2.leafAt q ≠ none → ¬ w'.1 <+: w.1 ++ q ∧ ¬ w.1 ++ q <+: w'.1

/-- The write `w'` replaces everything at and below the path of `w`, by nothing. -/
def Clears (w' w : Write κ α) : Prop :=
  w'.1 <+: w.1 ∧ ∀ q, w'.2.leafAt ((w.1 ++ q).drop w'.1.length) = none

/-- A write that spares a document leaves it in place. -/
theorem contains_put {t : PathTree κ α} {w w' : Write κ α} (hspares : Spares w' w)
    (h : t.Contains w.1 w.2) : (t.put w'.1 w'.2).Contains w.1 w.2 := by
  intro q a hq
  obtain ⟨h1, h2⟩ := hspares q (by simp [hq])
  rw [leafAt_put_of_incomparable h1 h2]
  exact h q a hq

-- ---------------------------------------------------------------------------
-- Sequences of writes
-- ---------------------------------------------------------------------------

/-- Apply writes in order. -/
def deliver (t : PathTree κ α) (ws : List (Write κ α)) : PathTree κ α :=
  ws.foldl (fun t w => t.put w.1 w.2) t

@[simp] theorem deliver_nil (t : PathTree κ α) : t.deliver [] = t := rfl

@[simp] theorem deliver_cons (t : PathTree κ α) (w : Write κ α) (ws : List (Write κ α)) :
    t.deliver (w :: ws) = (t.put w.1 w.2).deliver ws := rfl

/-- **Survival.** A document in the tree outlives writes that spare it. -/
theorem contains_deliver {t : PathTree κ α} {w : Write κ α} {ws : List (Write κ α)}
    (hspares : ∀ w' ∈ ws, Spares w' w) (h : t.Contains w.1 w.2) :
    (t.deliver ws).Contains w.1 w.2 := by
  induction ws generalizing t with
  | nil => exact h
  | cons w' ws ih =>
    rw [deliver_cons]
    exact ih (fun w'' hw'' => hspares w'' (List.mem_cons_of_mem _ hw''))
      (contains_put (hspares w' (List.mem_cons_self ..)) h)

/-- **Loss.** A path without a leaf, or whose leaf some write has replaced, has none in
the end when every write at or above it has no leaf there. -/
theorem leafAt_deliver_eq_none {t : PathTree κ α} {q : List κ}
    {ws : List (Write κ α)} (hgone : t.leafAt q = none ∨ ∃ w ∈ ws, w.1 <+: q)
    (hno : ∀ w ∈ ws, w.1 <+: q → w.2.leafAt (q.drop w.1.length) = none) :
    (t.deliver ws).leafAt q = none := by
  induction ws generalizing t with
  | nil => exact hgone.resolve_right (by simp)
  | cons w ws ih =>
    rw [deliver_cons]
    refine ih ?_ fun w' hw' => hno w' (List.mem_cons_of_mem _ hw')
    rw [leafAt_put]
    by_cases hpre : w.1 <+: q
    · rw [if_pos hpre]
      exact .inl (hno w (List.mem_cons_self ..) hpre)
    · -- the write leaves the path alone or takes the leaf there with it
      rw [if_neg hpre]
      rcases hgone with hgone | ⟨w', hw', hpre'⟩
      · rw [hgone, ite_self]
        exact .inl rfl
      · rcases List.mem_cons.mp hw' with rfl | hw'
        · exact absurd hpre' hpre
        · exact .inr ⟨w', hw', hpre'⟩

/-- A later write at or above the path of a document that every later write clears or
spares leaves nothing of it. -/
theorem not_contains_deliver {t : PathTree κ α} {w w' : Write κ α} {ws : List (Write κ α)}
    (hleaf : ∃ q, w.2.leafAt q ≠ none) (hcs : ∀ w'' ∈ ws, Clears w'' w ∨ Spares w'' w)
    (hw' : w' ∈ ws) (hpre : w'.1 <+: w.1) : ¬ (t.deliver ws).Contains w.1 w.2 := by
  intro hcontains
  obtain ⟨q, hq⟩ := hleaf
  obtain ⟨a, ha⟩ := Option.ne_none_iff_exists'.mp hq
  have hkept := hcontains q a ha
  have hnone : (t.deliver ws).leafAt (w.1 ++ q) = none := by
    refine leafAt_deliver_eq_none (.inr ⟨w', hw', hpre.trans (List.prefix_append _ _)⟩) ?_
    intro w'' hw'' hpre''
    exact ((hcs w'' hw'').resolve_right fun hspares => (hspares q hq).1 hpre'').2 q
  rw [hnone] at hkept
  cases hkept

/-- **Convergence.** Of the writes of a class whose documents every later write clears or
spares, all are in the tree in the end if and only if none is followed by a write at or
above its path. -/
theorem contains_deliver_iff {ι : Type*} {write : ι → Write κ α} {K : ι → Prop} {l : List ι}
    {t : PathTree κ α} (hleaf : ∀ i ∈ l, K i → ∃ q, (write i).2.leafAt q ≠ none)
    (hcs : l.Pairwise fun i j =>
      K i → Clears (write j) (write i) ∨ Spares (write j) (write i)) :
    (∀ i ∈ l, K i → (t.deliver (l.map write)).Contains (write i).1 (write i).2) ↔
      l.Pairwise fun i j => K i → ¬ (write j).1 <+: (write i).1 := by
  induction l generalizing t with
  | nil => simp
  | cons i l ih =>
    obtain ⟨hhead, htail⟩ := List.pairwise_cons.mp hcs
    have ih' := ih (t := t.put (write i).1 (write i).2)
      (fun j hj => hleaf j (List.mem_cons_of_mem _ hj)) htail
    rw [List.pairwise_cons, List.map_cons, deliver_cons, List.forall_mem_cons, ih']
    refine and_congr_left fun _ => ?_
    constructor
    · intro hkept j hj hK hpre
      refine not_contains_deliver (hleaf i (List.mem_cons_self ..) hK) (fun w hw => ?_)
        (List.mem_map_of_mem hj) hpre (hkept hK)
      obtain ⟨j', hj', rfl⟩ := List.mem_map.mp hw
      exact hhead j' hj' hK
    · intro hlast hK
      refine contains_deliver (fun w hw => ?_) (contains_put_self t (write i).1 (write i).2)
      obtain ⟨j, hj, rfl⟩ := List.mem_map.mp hw
      exact (hhead j hj hK).resolve_left fun hclears => hlast j hj hK hclears.1

-- ---------------------------------------------------------------------------
-- Subtrees
-- ---------------------------------------------------------------------------

@[simp] theorem subtree_put_self (t : PathTree κ α) (p : List κ) (doc : PathTree κ α) :
    (t.put p doc).subtree p = doc := by
  ext q : 1
  simp

theorem subtree_put_append (t : PathTree κ α) (p q : List κ) (doc : PathTree κ α) :
    (t.put (p ++ q) doc).subtree p = (t.subtree p).put q doc := by
  ext r : 1
  simp only [leafAt_subtree, leafAt_put, List.prefix_append_right_inj, List.length_append,
    ← List.drop_drop, List.drop_left]

/-- A write that is neither above nor below a path leaves alone what is there. -/
theorem subtree_put_of_incomparable {t : PathTree κ α} {p q : List κ} {doc : PathTree κ α}
    (hpq : ¬ p <+: q) (hqp : ¬ q <+: p) : (t.put p doc).subtree q = t.subtree q := by
  ext r : 1
  refine leafAt_put_of_incomparable (fun hpre => ?_) (fun hpre => ?_)
  · exact (List.prefix_or_prefix_of_prefix hpre (List.prefix_append q r)).elim hpq hqp
  · exact hqp ((List.prefix_append q r).trans hpre)

/-- What was written at a path is all there is, unless a later write is above or below it. -/
theorem subtree_deliver_last {t : PathTree κ α} {before after : List (Write κ α)}
    {w : Write κ α} (hafter : ∀ w' ∈ after, ¬ w'.1 <+: w.1 ∧ ¬ w.1 <+: w'.1) :
    (t.deliver (before ++ w :: after)).subtree w.1 = w.2 := by
  suffices hleft : ∀ t : PathTree κ α, (t.deliver after).subtree w.1 = t.subtree w.1 by
    rw [deliver, List.foldl_append]
    show ((PathTree.put _ w.1 w.2).deliver after).subtree w.1 = _
    rw [hleft, subtree_put_self]
  induction after with
  | nil => exact fun t => rfl
  | cons w' after ih =>
    intro t
    obtain ⟨habove, hbelow⟩ := hafter w' (List.mem_cons_self ..)
    rw [deliver_cons, ih fun w'' hw'' => hafter w'' (List.mem_cons_of_mem _ hw''),
      subtree_put_of_incomparable habove hbelow]

/-- Writes below a path change the subtree there as they would change it alone. -/
theorem subtree_deliver (t : PathTree κ α) (p : List κ) (ws : List (Write κ α)) :
    (t.deliver (ws.map fun w => (p ++ w.1, w.2))).subtree p = (t.subtree p).deliver ws := by
  induction ws generalizing t with
  | nil => rfl
  | cons w ws ih => rw [List.map_cons, deliver_cons, deliver_cons, ih, subtree_put_append]

/-- Writes below one field leave the others alone. -/
theorem leafAt_deliver_of_ne {t : PathTree κ α} {k k' : κ} (hne : k' ≠ k) (q : List κ)
    (ws : List (Write κ α)) :
    (t.deliver (ws.map fun w => (k :: w.1, w.2))).leafAt (k' :: q) = t.leafAt (k' :: q) := by
  induction ws generalizing t with
  | nil => rfl
  | cons w ws ih =>
    rw [List.map_cons, deliver_cons, ih]
    refine leafAt_put_of_incomparable ?_ ?_
    · simp [hne.symm]
    · simp [hne]

/-- A new field, written into an object. -/
theorem put_object {fields : List (κ × PathTree κ α)} {k : κ}
    (hk : k ∉ fields.map Prod.fst) (doc : PathTree κ α) :
    (object fields).put [k] doc = object (fields ++ [(k, doc)]) := by
  have hnone : fields.lookup k = none := by
    rw [List.lookup_eq_none_iff]
    intro f hf
    rw [bne_iff_ne]
    rintro rfl
    exact hk (List.mem_map_of_mem hf)
  ext q : 1
  rcases q with _ | ⟨k', q⟩
  · simp [leafAt_put]
  · rw [leafAt_put, leafAt_object_cons, leafAt_object_cons, List.lookup_append]
    by_cases heq : k' = k
    · subst heq
      simp [hnone]
    · have hne : ¬ k = k' := fun h => heq h.symm
      have hno : [(k, doc)].lookup k' = none := by simp [heq]
      simp [heq, hne, hno]

/-- **Field by field.** Writing the fields of an object one after the other makes the
object. -/
theorem deliver_object {fields more : List (κ × PathTree κ α)}
    (hnodup : ((fields ++ more).map Prod.fst).Nodup) :
    (object fields).deliver (more.map fun f => ([f.1], f.2)) = object (fields ++ more) := by
  induction more generalizing fields with
  | nil => simp
  | cons f more ih =>
    have hf : f.1 ∉ fields.map Prod.fst := by
      rw [List.map_append, List.map_cons, List.nodup_append] at hnodup
      exact fun hmem => hnodup.2.2 f.1 hmem f.1 (List.mem_cons_self ..) rfl
    rw [List.map_cons, deliver_cons, put_object hf, ih, List.append_assoc, List.singleton_append]
    rwa [List.append_assoc, List.singleton_append]

theorem lookup_eq_some_iff_mem {fields : List (κ × PathTree κ α)}
    (hnodup : (fields.map Prod.fst).Nodup) {k : κ} {t : PathTree κ α} :
    fields.lookup k = some t ↔ (k, t) ∈ fields := by
  induction fields with
  | nil => simp
  | cons f fields ih =>
    obtain ⟨k', t'⟩ := f
    obtain ⟨hnew, hrest⟩ := List.nodup_cons.mp hnodup
    rw [List.lookup_cons]
    by_cases heq : k = k'
    · subst heq
      have hno : (k, t) ∉ fields := fun hmem => hnew (List.mem_map.mpr ⟨_, hmem, rfl⟩)
      simp [hno, eq_comm]
    · simp [beq_eq_false_iff_ne.mpr heq, heq, ih hrest]

/-- The order of the fields does not matter. -/
theorem object_perm {fields fields' : List (κ × PathTree κ α)} (h : fields.Perm fields')
    (hnodup : (fields.map Prod.fst).Nodup) : object fields = object fields' := by
  have hnodup' : (fields'.map Prod.fst).Nodup := (h.map Prod.fst).nodup_iff.mp hnodup
  have hlookup : ∀ k, fields.lookup k = fields'.lookup k := by
    intro k
    ext t
    rw [lookup_eq_some_iff_mem hnodup, lookup_eq_some_iff_mem hnodup', h.mem_iff]
  ext q : 1
  rcases q with _ | ⟨k, q⟩
  · rfl
  · rw [leafAt_object_cons, leafAt_object_cons, hlookup]

end PathTree
