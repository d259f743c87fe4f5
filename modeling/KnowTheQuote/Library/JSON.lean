import Mathlib.Data.List.Forall2
import Mathlib.Data.List.Nodup
import KnowTheQuote.Library.PathTree

/-!
# JSON documents and the trees they make

A JSON document is stored as a tree: the members of an object under their keys, the
elements of an array under their indices. Null and empty containers leave no leaf, so the
tree does not tell them apart from what is not there, nor an array from an object whose
keys are its indices. Asked for what it has stored, a tree database answers with one of the
documents that make that tree, without empty containers, and with an array for what could
be one.

* `tree` — the tree a document makes.
* `Rendered`, `Answers` — the documents a database answers with.
* `Answers.scalar`, `Answers.get`, `Answers.array` — what an answer to a known tree looks
  like: a scalar, a member of an object, the elements of an array.
-/

namespace PathTree

variable {κ α : Type*}

theorem eq_empty_iff {t : PathTree κ α} : t = empty ↔ ∀ q, t.leafAt q = none := by
  constructor
  · rintro rfl q
    rfl
  · intro hnone
    ext q : 1
    exact hnone q

theorem ne_empty_iff {t : PathTree κ α} : t ≠ empty ↔ ∃ q a, t.leafAt q = some a := by
  rw [Ne, eq_empty_iff, not_forall]
  exact exists_congr fun q => Option.ne_none_iff_exists'

variable [DecidableEq κ]

/-- What an object has under a key. -/
theorem subtree_object (fields : List (κ × PathTree κ α)) (k : κ) :
    (object fields).subtree [k] = (fields.lookup k).getD empty := by
  ext q : 1
  rw [leafAt_subtree, List.singleton_append, leafAt_object_cons]
  cases fields.lookup k <;> rfl

/-- A field without leaves might as well not be there. -/
theorem object_concat_empty (fields : List (κ × PathTree κ α)) (k : κ) :
    object (fields ++ [(k, .empty)]) = object fields := by
  ext q : 1
  rcases q with _ | ⟨k', q⟩
  · rfl
  · rw [leafAt_object_cons, leafAt_object_cons, List.lookup_append]
    cases fields.lookup k' with
    | some t => rfl
    | none =>
      rw [Option.none_or, List.lookup_cons]
      cases k' == k <;> rfl

/-- The tree with the given trees under their indices. -/
def indexed (index : Nat → κ) (elements : List (PathTree κ α)) : PathTree κ α :=
  .object (elements.zipIdx.map fun e => (index e.2, e.1))

@[simp] theorem indexed_nil (index : Nat → κ) :
    indexed index ([] : List (PathTree κ α)) = .empty := by
  ext q : 1
  cases q <;> rfl

variable {index : Nat → κ}

theorem lookup_zipIdx (hindex : Function.Injective index) (elements : List (PathTree κ α))
    (i : Nat) :
    (elements.zipIdx.map fun e => (index e.2, e.1)).lookup (index i) = elements[i]? := by
  -- the induction moves the first index
  suffices h : ∀ n, n ≤ i → ((elements.zipIdx n).map fun e => (index e.2, e.1)).lookup (index i) =
      elements[i - n]? from h 0 (Nat.zero_le i)
  induction elements with
  | nil => simp
  | cons t ts ih =>
    intro n hn
    rw [List.zipIdx_cons, List.map_cons, List.lookup_cons]
    by_cases heq : i = n
    · subst heq
      simp
    · have hne : (index i == index n) = false := beq_eq_false_iff_ne.mpr (hindex.ne heq)
      rw [hne, ih (n + 1) (by omega), show i - n = i - (n + 1) + 1 by omega,
        List.getElem?_cons_succ]

theorem subtree_indexed (hindex : Function.Injective index) (elements : List (PathTree κ α))
    (i : Nat) : (indexed index elements).subtree [index i] = elements[i]?.getD empty := by
  rw [indexed, subtree_object, lookup_zipIdx hindex]

/-- There is nothing under a key that is no index. -/
theorem subtree_indexed_of_forall_ne {k : κ} (hk : ∀ i, k ≠ index i)
    (elements : List (PathTree κ α)) : (indexed index elements).subtree [k] = empty := by
  have hnone : (elements.zipIdx.map fun e => (index e.2, e.1)).lookup k = none := by
    rw [List.lookup_eq_none_iff]
    intro f hf
    obtain ⟨e, -, rfl⟩ := List.mem_map.mp hf
    exact bne_iff_ne.mpr (hk e.2)
  rw [indexed, subtree_object, hnone, Option.getD_none]

end PathTree

/-- A JSON document: scalars, arrays and objects. -/
inductive JSON (κ α : Type*) where
  | null
  | scalar (a : α)
  | array (elements : List (JSON κ α))
  | object (members : List (κ × JSON κ α))

namespace JSON

open PathTree

variable {κ α : Type*}

-- ---------------------------------------------------------------------------
-- Rendering
-- ---------------------------------------------------------------------------

/-- A document without empty containers, and with no object whose keys are the indices of a
list. A list may have gaps, but not at its end. -/
inductive Rendered (index : Nat → κ) : JSON κ α → Prop where
  | scalar (a : α) : Rendered index (.scalar a)
  | array {elements : List (JSON κ α)} {last : JSON κ α} (hlast : elements.getLast? = some last)
      (hend : last ≠ .null) (helements : ∀ e ∈ elements, e ≠ .null → Rendered index e) :
      Rendered index (.array elements)
  | object {members : List (κ × JSON κ α)} (hne : members ≠ [])
      (hnodup : (members.map Prod.fst).Nodup)
      (hkeys : ¬ (members.map Prod.fst).Perm ((List.range members.length).map index))
      (hmembers : ∀ m ∈ members, Rendered index m.2) : Rendered index (.object members)

variable {index : Nat → κ}

/-- An object with a key that is no index. -/
theorem rendered_object {members : List (κ × JSON κ α)} {k : κ}
    (hmem : k ∈ members.map Prod.fst) (hk : ∀ i, k ≠ index i)
    (hnodup : (members.map Prod.fst).Nodup) (hmembers : ∀ m ∈ members, m.2.Rendered index) :
    (JSON.object members).Rendered index := by
  refine .object (fun hnil => ?_) hnodup (fun hperm => ?_) hmembers
  · rw [hnil] at hmem
    cases hmem
  · obtain ⟨i, -, hi⟩ := List.mem_map.mp (hperm.mem_iff.mp hmem)
    exact hk i hi.symm

/-- A list without gaps. -/
theorem rendered_array {elements : List (JSON κ α)} (hne : elements ≠ [])
    (helements : ∀ e ∈ elements, e.Rendered index) : (JSON.array elements).Rendered index := by
  refine .array (List.getLast?_eq_some_getLast hne) (fun hnull => ?_) fun e he _ => helements e he
  have hlast := helements _ (List.getLast_mem hne)
  rw [hnull] at hlast
  cases hlast

variable [DecidableEq κ] (index)

-- ---------------------------------------------------------------------------
-- Trees
-- ---------------------------------------------------------------------------

mutual

/-- The tree of a document. -/
def tree : JSON κ α → PathTree κ α
  | .null => .empty
  | .scalar a => .leaf a
  | .array elements => .indexed index (trees elements)
  | .object members => .object (memberTrees members)

def trees : List (JSON κ α) → List (PathTree κ α)
  | [] => []
  | element :: elements => element.tree :: trees elements

def memberTrees : List (κ × JSON κ α) → List (κ × PathTree κ α)
  | [] => []
  | (key, value) :: members => (key, value.tree) :: memberTrees members

end

/-- The member of an object with the given key; null when there is none. -/
def get (key : κ) : JSON κ α → JSON κ α
  | .object members => (members.lookup key).getD .null
  | .null | .scalar _ | .array _ => .null

theorem trees_eq (elements : List (JSON κ α)) :
    trees index elements = elements.map (tree index) := by
  induction elements with
  | nil => rfl
  | cons element elements ih => rw [trees, ih, List.map_cons]

theorem lookup_memberTrees (members : List (κ × JSON κ α)) (k : κ) :
    (memberTrees index members).lookup k = (members.lookup k).map (tree index) := by
  induction members with
  | nil => rfl
  | cons m members ih =>
    obtain ⟨key, value⟩ := m
    rw [memberTrees, List.lookup_cons, List.lookup_cons, ih]
    cases k == key <;> rfl

theorem mem_of_lookup {β : Type*} {members : List (κ × β)} {k : κ} {value : β}
    (h : members.lookup k = some value) : (k, value) ∈ members := by
  obtain ⟨l₁, l₂, rfl, -⟩ := List.lookup_eq_some_iff.mp h
  exact List.mem_append_right l₁ (List.mem_cons_self ..)

/-- What is below a key is the tree of the member with that key. -/
theorem subtree_tree_object (members : List (κ × JSON κ α)) (k : κ) :
    ((object members).tree index).subtree [k] = ((object members).get k).tree index := by
  rw [tree, subtree_object, lookup_memberTrees, get]
  cases members.lookup k <;> rfl

/-- What is below an index is the tree of the element there. -/
theorem subtree_tree_array {index : Nat → κ} (hindex : Function.Injective index)
    (elements : List (JSON κ α)) (i : Nat) :
    ((array elements).tree index).subtree [index i] = (elements[i]?.getD .null).tree index := by
  rw [tree, subtree_indexed hindex, trees_eq, List.getElem?_map]
  cases elements[i]? <;> rfl

-- ---------------------------------------------------------------------------
-- Answers
-- ---------------------------------------------------------------------------

/-- The document answers the request for a tree. -/
structure Answers (body : JSON κ α) (t : PathTree κ α) : Prop where
  tree : body.tree index = t
  rendered : body = .null ∨ body.Rendered index

variable {index} {body : JSON κ α} {t : PathTree κ α}

theorem answers_null : Answers index (.null : JSON κ α) .empty := ⟨rfl, .inl rfl⟩

/-- What is rendered is not empty. -/
theorem Rendered.ne_empty (hindex : Function.Injective index) (h : body.Rendered index) :
    body.tree index ≠ .empty := by
  -- a leaf of the last element or of the first member
  have hbelow : ∀ {t : PathTree κ α} {k : κ}, t.subtree [k] ≠ .empty → t ≠ .empty := by
    rintro t k hsub rfl
    exact hsub (eq_empty_iff.mpr fun _ => rfl)
  induction h with
  | scalar a => exact ne_empty_iff.mpr ⟨[], a, rfl⟩
  | @array elements last hlast hend helements ih =>
    refine hbelow (k := index (elements.length - 1)) ?_
    rw [subtree_tree_array hindex, ← List.getLast?_eq_getElem?, hlast]
    exact ih last (List.mem_of_getLast? hlast) hend
  | @object members hne hnodup hkeys hmembers ih =>
    obtain ⟨m, members, rfl⟩ := List.exists_cons_of_ne_nil hne
    refine hbelow (k := m.1) ?_
    rw [subtree_tree_object, get, List.lookup_cons_self]
    exact ih m (List.mem_cons_self ..)

namespace Answers

theorem eq_null_iff (hindex : Function.Injective index) (h : Answers index body t) :
    body = .null ↔ t = .empty := by
  constructor
  · rintro rfl
    exact h.tree.symm
  · rintro rfl
    exact h.rendered.resolve_right fun hrendered => hrendered.ne_empty hindex h.tree

/-- A leaf is answered with its scalar. -/
theorem scalar {a : α} (h : Answers index body (.leaf a)) : body = .scalar a := by
  have hleaf : (body.tree index).leafAt [] = some a := by
    rw [h.tree]
    rfl
  cases body with
  | null => cases hleaf
  | scalar b =>
    cases hleaf
    rfl
  | array elements => cases hleaf
  | object members => cases hleaf

/-- Below a key that is no index an answer has the answer to what is stored there. -/
theorem get (h : Answers index body t) {k : κ} (hk : ∀ i, k ≠ index i) :
    Answers index (body.get k) (t.subtree [k]) := by
  obtain ⟨htree, hrendered⟩ := h
  subst htree
  cases body with
  | null => exact answers_null
  | scalar a => exact answers_null
  | array elements =>
    rw [JSON.tree, subtree_indexed_of_forall_ne hk]
    exact answers_null
  | object members =>
    refine ⟨(subtree_tree_object index members k).symm, ?_⟩
    cases hlookup : members.lookup k with
    | none => exact .inl (by rw [JSON.get, hlookup]; rfl)
    | some value =>
      right
      rw [JSON.get, hlookup, Option.getD_some]
      cases hrendered.resolve_left nofun with
      | object hne hnodup hkeys hmembers =>
        exact hmembers _ (mem_of_lookup hlookup)

/-- An answer with a key that is no index is no array. -/
theorem ne_array (h : Answers index body t) {k : κ} (hk : ∀ i, k ≠ index i)
    (hsub : t.subtree [k] ≠ .empty) (elements : List (JSON κ α)) : body ≠ .array elements := by
  rintro rfl
  refine hsub ?_
  rw [← h.tree, JSON.tree, subtree_indexed_of_forall_ne hk]

/-- An answer has members exactly where something is stored. -/
theorem mem_keys_iff (hindex : Function.Injective index) {members : List (κ × JSON κ α)}
    (h : Answers index (.object members) t) (k : κ) :
    k ∈ members.map Prod.fst ↔ t.subtree [k] ≠ .empty := by
  rw [← h.tree, subtree_tree_object, JSON.get]
  cases hlookup : members.lookup k with
  | none =>
    refine iff_of_false (fun hmem => ?_) (fun hne => hne rfl)
    obtain ⟨m, hm, rfl⟩ := List.mem_map.mp hmem
    exact bne_iff_ne.mp (List.lookup_eq_none_iff.mp hlookup m hm) rfl
  | some value =>
    have hmem := mem_of_lookup hlookup
    cases h.rendered.resolve_left nofun with
    | object _ _ _ hmembers =>
      exact iff_of_true (List.mem_map_of_mem hmem) ((hmembers _ hmem).ne_empty hindex)

/-- **A list** of trees that are not empty is answered with the list of their answers. -/
theorem array (hindex : Function.Injective index) {ts : List (PathTree κ α)}
    (h : Answers index body (.indexed index ts)) (hne : ts ≠ [])
    (hts : ∀ t ∈ ts, t ≠ .empty) :
    ∃ elements, body = .array elements ∧ List.Forall₂ (Answers index) elements ts := by
  have hstored : ∀ i, (indexed index ts).subtree [index i] ≠ .empty ↔ i < ts.length := by
    intro i
    rw [subtree_indexed hindex]
    by_cases hi : i < ts.length
    · rw [List.getElem?_eq_getElem hi]
      exact iff_of_true (hts _ (List.getElem_mem hi)) hi
    · rw [List.getElem?_eq_none (Nat.le_of_not_lt hi)]
      exact iff_of_false (fun hne => hne rfl) hi
  have hfirst := (hstored 0).mpr (List.length_pos_of_ne_nil hne)
  cases body with
  | null =>
    rw [← h.tree] at hfirst
    exact absurd rfl hfirst
  | scalar a =>
    rw [← h.tree] at hfirst
    exact absurd rfl hfirst
  | object members =>
    -- its keys would be the indices
    exfalso
    cases h.rendered.resolve_left nofun with
    | object _ hnodup hkeys _ =>
      have hperm : (members.map Prod.fst).Perm ((List.range ts.length).map index) := by
        refine (List.perm_ext_iff_of_nodup hnodup
          (List.Nodup.map hindex List.nodup_range)).mpr fun k => ?_
        rw [h.mem_keys_iff hindex, List.mem_map]
        constructor
        · intro hsub
          obtain ⟨i, rfl⟩ : ∃ i, k = index i := by
            by_contra hno
            exact hsub (subtree_indexed_of_forall_ne (fun i hi => hno ⟨i, hi⟩) ts)
          exact ⟨i, List.mem_range.mpr ((hstored i).mp hsub), rfl⟩
        · rintro ⟨i, hi, rfl⟩
          exact (hstored i).mpr (List.mem_range.mp hi)
      have hlength : members.length = ts.length := by simpa using hperm.length_eq
      exact hkeys (hlength ▸ hperm)
  | array elements =>
    refine ⟨elements, rfl, ?_⟩
    have hread : ∀ i : Nat, (elements[i]?.getD JSON.null).tree index =
        ts[i]?.getD PathTree.empty := by
      intro i
      rw [← subtree_tree_array hindex, h.tree, subtree_indexed hindex]
    cases h.rendered.resolve_left nofun with
    | @array _ last hlast hend helements =>
      have hsome : ∀ i, i < ts.length → i < elements.length := by
        intro i hi
        by_contra hle
        refine (hstored i).mpr hi ?_
        rw [subtree_indexed hindex, ← hread, List.getElem?_eq_none (Nat.le_of_not_lt hle)]
        rfl
      have hlength : elements.length = ts.length := by
        refine Nat.le_antisymm ?_ (Nat.le_of_not_lt fun hlt => (hsome _ hlt).false)
        -- the last element is not null
        have hread := hread (elements.length - 1)
        rw [← List.getLast?_eq_getElem?, hlast, Option.getD_some] at hread
        have hrendered := helements last (List.mem_of_getLast? hlast) hend
        have hlt := (hstored (elements.length - 1)).mp (by
          rw [subtree_indexed hindex, ← hread]
          exact hrendered.ne_empty hindex)
        omega
      refine List.forall₂_iff_get.mpr ⟨hlength, fun i hi hi' => ?_⟩
      have htree := hread i
      rw [List.getElem?_eq_getElem hi, List.getElem?_eq_getElem hi', Option.getD_some,
        Option.getD_some] at htree
      refine ⟨htree, .inr (helements _ (List.getElem_mem hi) fun hnull => ?_)⟩
      refine hts _ (List.getElem_mem hi') ?_
      have hnull' : elements[i] = .null := hnull
      rw [← htree, hnull']
      rfl

end Answers

end JSON
