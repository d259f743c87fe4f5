import Mathlib.Data.Finmap
import Mathlib.Data.Finset.Card
import Mathlib.Data.List.Perm.Basic
import Mathlib.Tactic.Ring

/-!
# Unordered collections

Two things a program does with a collection that has no order of its own.

It enumerates it: the order is up to the runtime, so an enumeration is the
collection's list form passed through some `Reordering`.

* `exists_filterMap_eq_iff`, `listsEach_filterMap` — a collecting loop: the lists it may
  make, and when it drops nothing.
* `PairedOff` — the elements of two collections belong together, one to one.

It numbers it: a dictionary keyed by integers *numbers* a list when its keys are
exactly `1, …, n` and key `i + 1` holds element `i`. Counting, appending at key
`count + 1`, and filling an empty dictionary with a cursor that starts at 1 are
then the operations of a list, and the dictionary has no gaps to fall into.

* `Numbers.count`, `Numbers.mem_iff`, `Numbers.key_unique` — what numbering gives.
* `Numbers.insert` — writing at key `count + 1` is appending.
* `numbers_fill` — the filling loop numbers the list it runs over.

A dictionary that is written once per key *holds* the list of its entries.

* `Holds.insert` — writing at a new key appends an entry.
* `Holds.count`, `Holds.countValues` — counting its keys, and those whose value
  passes a test.
-/

/-- An order for every list: a rearrangement that neither drops nor adds. -/
structure Reordering (α : Type*) where
  apply : List α → List α
  perm : ∀ l, (apply l).Perm l

namespace Reordering

variable {α : Type*}

/-- Leaving the order as it is. -/
def asIs : Reordering α := ⟨id, fun _ => .refl _⟩

/-- The order that lists `xs` as `ys`. -/
def listing [DecidableEq α] {xs ys : List α} (h : ys.Perm xs) : Reordering α where
  apply l := if l = xs then ys else l
  perm l := by
    split
    · next heq => exact heq ▸ h
    · exact .refl l

@[simp] theorem listing_apply [DecidableEq α] {xs ys : List α} (h : ys.Perm xs) :
    (listing h).apply xs = ys := if_pos rfl

@[simp] theorem asIs_apply (l : List α) : (asIs : Reordering α).apply l = l := rfl

@[simp] theorem mem_apply (o : Reordering α) (l : List α) (a : α) : a ∈ o.apply l ↔ a ∈ l :=
  (o.perm l).mem_iff

@[simp] theorem length_apply (o : Reordering α) (l : List α) :
    (o.apply l).length = l.length :=
  (o.perm l).length_eq

theorem nodup_apply (o : Reordering α) {l : List α} (h : l.Nodup) : (o.apply l).Nodup :=
  (o.perm l).nodup_iff.mpr h

@[simp] theorem apply_nil (o : Reordering α) : o.apply [] = [] := (o.perm []).eq_nil

end Reordering

/-- A rearrangement of images is the image of a rearrangement. -/
theorem exists_perm_map_eq {α β : Type*} {f : α → β} {l : List α} {ys : List β}
    (h : ys.Perm (l.map f)) : ∃ l' : List α, l'.Perm l ∧ ys = l'.map f := by
  have hpoint : List.Forall₂ (fun y a => y = f a) (l.map f) l :=
    List.forall₂_map_left_iff.mpr (List.forall₂_same.mpr fun _ _ => rfl)
  obtain ⟨l', hys, hl'⟩ := List.perm_comp_forall₂ h hpoint
  refine ⟨l', hl', ?_⟩
  rw [← List.forall₂_eq_eq_eq, List.forall₂_map_right_iff]
  exact hys

/-- A loop that collects the values of `f` lists them in any order the enumeration likes. -/
theorem exists_filterMap_eq_iff {α β : Type*} [DecidableEq α] {f : α → Option β} {xs : List α}
    {ys zs : List β} (h : (xs.map f).Perm (ys.map some)) :
    (∃ o : Reordering α, (o.apply xs).filterMap f = zs) ↔ zs.Perm ys := by
  -- collecting is mapping, followed by a loop that only unwraps
  have hcollect : ∀ l : List α, l.filterMap f = (l.map f).filterMap id := by
    simp [List.filterMap_map]
  have hunwrap : ∀ l : List β, (l.map some).filterMap id = l := by
    simp [List.filterMap_map]
  constructor
  · rintro ⟨o, rfl⟩
    have hvalues := (((o.perm xs).map f).trans h).filterMap id
    rwa [hunwrap, ← hcollect] at hvalues
  · intro hperm
    obtain ⟨l, hl, hvalues⟩ := exists_perm_map_eq ((hperm.map some).trans h.symm)
    refine ⟨.listing hl, ?_⟩
    rw [Reordering.listing_apply, hcollect, ← hvalues, hunwrap]

/-- `ys` lists the value of `f` at every element of `xs`, once each, and nothing else. -/
structure ListsEach {α β : Type*} (ys : List β) (f : α → Option β) (xs : List α) : Prop where
  nodup : ys.Nodup
  each : ∀ x ∈ xs, ∃ y ∈ ys, f x = some y
  only : ∀ y ∈ ys, ∃ x ∈ xs, f x = some y
  length : ys.length = xs.length

/-- A loop that collects the values of `f`, over any enumeration of a set, drops nothing when
`f` is defined on the set and takes no value twice. -/
theorem listsEach_filterMap {α β : Type*} (o : Reordering α) {xs : List α} {f : α → Option β}
    (hnodup : xs.Nodup) (hsome : ∀ x ∈ xs, (f x).isSome)
    (hinj : ∀ x ∈ xs, ∀ x' ∈ xs, f x = f x' → x = x') :
    ListsEach ((o.apply xs).filterMap f) f xs := by
  refine ⟨?_, ?_, ?_, ?_⟩
  · refine List.pairwise_filterMap.mpr (List.Pairwise.imp_of_mem ?_ (o.nodup_apply hnodup))
    intro x x' hx hx' hne y hy y' hy' heq
    rw [o.mem_apply] at hx hx'
    exact hne (hinj x hx x' hx' (by rw [hy, hy', heq]))
  · intro x hx
    obtain ⟨y, hy⟩ := Option.isSome_iff_exists.mp (hsome x hx)
    exact ⟨y, List.mem_filterMap.mpr ⟨x, (o.mem_apply xs x).mpr hx, hy⟩, hy⟩
  · intro y hy
    obtain ⟨x, hx, hy⟩ := List.mem_filterMap.mp hy
    exact ⟨x, (o.mem_apply xs x).mp hx, hy⟩
  · rw [← o.length_apply xs]
    exact List.filterMap_length_eq_length.mpr fun x hx => hsome x ((o.mem_apply xs x).mp hx)

/-- Every element of `xs` belongs to an element of `ys` by `R`, one to one. -/
def PairedOff {α β : Type*} (R : α → β → Prop) (xs : List α) (ys : List β) : Prop :=
  ∃ ys', List.Forall₂ R xs ys' ∧ ys'.Perm ys

namespace PairedOff

variable {α β : Type*} {R S : α → β → Prop} {xs xs' : List α} {ys : List β}

theorem nil : PairedOff R [] [] := ⟨[], .nil, .refl _⟩

theorem length_eq (h : PairedOff R xs ys) : xs.length = ys.length := by
  obtain ⟨ys', hpairs, hperm⟩ := h
  rw [hpairs.length_eq, hperm.length_eq]

/-- The order of the elements does not matter. -/
theorem of_perm (h : PairedOff R xs ys) (hperm : xs'.Perm xs) : PairedOff R xs' ys := by
  obtain ⟨ys', hpairs, hys⟩ := h
  obtain ⟨ys'', hpairs', hys'⟩ := List.perm_comp_forall₂ hperm hpairs
  exact ⟨ys'', hpairs', hys'.trans hys⟩

theorem imp (h : PairedOff R xs ys) (himp : ∀ a ∈ xs, ∀ b, R a b → S a b) :
    PairedOff S xs ys := by
  obtain ⟨ys', hpairs, hys⟩ := h
  refine ⟨ys', List.forall₂_iff_zip.mpr ⟨hpairs.length_eq, fun hmem => ?_⟩, hys⟩
  exact himp _ (List.of_mem_zip hmem).1 _ (List.forall₂_zip hpairs hmem)

/-- One pair more. -/
theorem cons (h : PairedOff R xs ys) {a : α} {b : β} (hab : R a b) :
    PairedOff R (a :: xs) (ys ++ [b]) := by
  obtain ⟨ys', hpairs, hys⟩ := h
  exact ⟨b :: ys', .cons hab hpairs, (hys.cons b).trans (List.perm_append_singleton b ys).symm⟩

end PairedOff

/-- A dictionary: finitely many keys, at most one value each, no order. -/
abbrev Dict (κ α : Type*) := Finmap fun _ : κ => α

namespace Dict

variable {κ α : Type*}

/-- Number of keys. -/
def count (d : Dict κ α) : Nat := d.keys.card

@[simp] theorem count_empty : count (∅ : Dict κ α) = 0 := rfl

variable [DecidableEq κ]

/-- The keys of `d` are `1, …, l.length`, and key `i + 1` holds `l[i]`. -/
def Numbers (d : Dict Int α) (l : List α) : Prop :=
  ∀ k : Int, d.lookup k = if 1 ≤ k then l[(k - 1).toNat]? else none

/-- The loop `for x in xs { d[cursor] = x; cursor += 1 }`. -/
def fill (d : Dict Int α) (cursor : Int) (xs : List α) : Dict Int α × Int :=
  xs.foldl (fun s x => (Finmap.insert s.2 x s.1, s.2 + 1)) (d, cursor)

theorem numbers_empty : Numbers (∅ : Dict Int α) [] := by
  intro k
  simp

namespace Numbers

variable {d : Dict Int α} {l : List α}

theorem lookup_succ (h : Numbers d l) (i : Nat) : d.lookup ((i : Int) + 1) = l[i]? := by
  rw [h, if_pos (by omega)]
  congr 1
  omega

/-- A key that is present is the position of its value, counted from 1. -/
theorem exists_index (h : Numbers d l) {k : Int} {a : α} (hk : d.lookup k = some a) :
    ∃ i : Nat, k = (i : Int) + 1 ∧ l[i]? = some a := by
  rw [h] at hk
  split at hk
  · exact ⟨(k - 1).toNat, by omega, hk⟩
  · cases hk

theorem keys_eq (h : Numbers d l) :
    d.keys = (Finset.range l.length).image fun i : Nat => (i : Int) + 1 := by
  ext k
  rw [Finmap.mem_keys, Finmap.mem_iff, Finset.mem_image]
  constructor
  · rintro ⟨a, ha⟩
    obtain ⟨i, rfl, hi⟩ := h.exists_index ha
    exact ⟨i, Finset.mem_range.mpr (List.getElem?_eq_some_iff.mp hi).1, rfl⟩
  · rintro ⟨i, hi, rfl⟩
    have hlt := Finset.mem_range.mp hi
    exact ⟨l[i], by rw [h.lookup_succ, List.getElem?_eq_getElem hlt]⟩

theorem count (h : Numbers d l) : d.count = l.length := by
  have hinj : Function.Injective fun i : Nat => (i : Int) + 1 := by
    intro i j hij
    simpa using hij
  rw [Dict.count, h.keys_eq, Finset.card_image_of_injective _ hinj, Finset.card_range]

theorem mem_iff (h : Numbers d l) (k : Int) : k ∈ d ↔ 1 ≤ k ∧ k ≤ d.count := by
  rw [h.count, Finmap.mem_iff]
  constructor
  · rintro ⟨a, ha⟩
    obtain ⟨i, rfl, hi⟩ := h.exists_index ha
    have := (List.getElem?_eq_some_iff.mp hi).1
    omega
  · rintro ⟨hlo, hhi⟩
    have hlt : (k - 1).toNat < l.length := by omega
    exact ⟨l[(k - 1).toNat], by rw [h, if_pos hlo, List.getElem?_eq_getElem hlt]⟩

theorem value_iff (h : Numbers d l) (a : α) : (∃ k, d.lookup k = some a) ↔ a ∈ l := by
  constructor
  · rintro ⟨k, hk⟩
    obtain ⟨i, -, hi⟩ := h.exists_index hk
    exact List.mem_of_getElem? hi
  · intro ha
    obtain ⟨i, hlt, rfl⟩ := List.mem_iff_getElem.mp ha
    exact ⟨(i : Int) + 1, by rw [h.lookup_succ, List.getElem?_eq_getElem hlt]⟩

/-- No value sits under two keys when the list has no duplicates. -/
theorem key_unique (h : Numbers d l) (hnd : l.Nodup) {j k : Int} {a : α}
    (hj : d.lookup j = some a) (hk : d.lookup k = some a) : j = k := by
  obtain ⟨i, rfl, hi⟩ := h.exists_index hj
  obtain ⟨i', rfl, hi'⟩ := h.exists_index hk
  obtain ⟨hlt, rfl⟩ := List.getElem?_eq_some_iff.mp hi
  obtain ⟨hlt', heq⟩ := List.getElem?_eq_some_iff.mp hi'
  have := (hnd.getElem_inj_iff).mp heq
  omega

/-- Key `count + 1` is free. -/
theorem next_notMem (h : Numbers d l) : (d.count : Int) + 1 ∉ d := by
  rw [h.mem_iff]
  omega

/-- Writing at key `count + 1` appends. -/
theorem insert (h : Numbers d l) (a : α) :
    Numbers (Finmap.insert ((d.count : Int) + 1) a d) (l ++ [a]) := by
  intro k
  rw [h.count]
  by_cases hk : k = (l.length : Int) + 1
  · subst hk
    rw [Finmap.lookup_insert, if_pos (by omega)]
    simp
  · rw [Finmap.lookup_insert_of_ne _ hk, h k]
    split
    · rw [List.getElem?_append]
      split
      · rfl
      · rw [List.getElem?_eq_none (by omega), List.getElem?_eq_none (by simp; omega)]
    · rfl

/-- Writing at key `count + 1` leaves every entry unchanged. -/
theorem lookup_insert_of_some (h : Numbers d l) {k : Int} {a : α} (b : α)
    (hk : d.lookup k = some a) :
    (Finmap.insert ((d.count : Int) + 1) b d).lookup k = some a := by
  rw [Finmap.lookup_insert_of_ne _ ?_, hk]
  rintro rfl
  exact h.next_notMem (Finmap.mem_of_lookup_eq_some hk)

end Numbers

/-- The filling loop, started with the cursor on the first free key, appends the
list it runs over and leaves the cursor on the next free key. -/
theorem numbers_fill {d : Dict Int α} {l : List α} (h : Numbers d l) (xs : List α) :
    Numbers (fill d ((l.length : Int) + 1) xs).1 (l ++ xs) ∧
      (fill d ((l.length : Int) + 1) xs).2 = ((l ++ xs).length : Int) + 1 := by
  induction xs generalizing d l with
  | nil => exact ⟨by simpa [fill] using h, by simp [fill]⟩
  | cons x xs ih =>
    have hstep : Numbers (Finmap.insert ((l.length : Int) + 1) x d) (l ++ [x]) := by
      simpa only [h.count] using h.insert x
    have hlen : ((l ++ [x]).length : Int) + 1 = (l.length : Int) + 1 + 1 := by simp
    have hrest := ih hstep
    rw [hlen, List.append_assoc, List.singleton_append] at hrest
    exact hrest

/-- The entries of `d` are those of `l`, and `l` has each key once. -/
structure Holds (d : Dict κ α) (l : List (κ × α)) : Prop where
  nodup : (l.map Prod.fst).Nodup
  entry : ∀ k a, d.lookup k = some a ↔ (k, a) ∈ l

/-- Number of keys whose value passes a test. -/
def countValues (d : Dict κ α) (p : α → Bool) : Nat :=
  (d.keys.filter fun k => (d.lookup k).any p).card

theorem holds_empty : Holds (∅ : Dict κ α) [] := ⟨List.nodup_nil, by simp⟩

namespace Holds

variable {d : Dict κ α} {l : List (κ × α)}

theorem mem_iff (h : Holds d l) (k : κ) : k ∈ d ↔ k ∈ l.map Prod.fst := by
  rw [Finmap.mem_iff, List.mem_map]
  constructor
  · rintro ⟨a, ha⟩
    exact ⟨(k, a), (h.entry k a).mp ha, rfl⟩
  · rintro ⟨⟨_, a⟩, hmem, rfl⟩
    exact ⟨a, (h.entry _ a).mpr hmem⟩

/-- Writing at a new key appends. -/
theorem insert (h : Holds d l) {k : κ} (hk : k ∉ l.map Prod.fst) (a : α) :
    Holds (Finmap.insert k a d) (l ++ [(k, a)]) := by
  refine ⟨?_, ?_⟩
  · rw [List.map_append]
    exact h.nodup.append (List.nodup_singleton _) (by simpa using hk)
  · intro k' a'
    by_cases heq : k' = k
    · subst heq
      have hno : (k', a') ∉ l := fun hmem => hk (List.mem_map_of_mem hmem)
      simp [hno, eq_comm]
    · simp [Finmap.lookup_insert_of_ne _ heq, h.entry, heq]

theorem count (h : Holds d l) : d.count = l.length := by
  have hkeys : d.keys = (l.map Prod.fst).toFinset := by
    ext k
    rw [Finmap.mem_keys, h.mem_iff, List.mem_toFinset]
  rw [Dict.count, hkeys, List.toFinset_card_of_nodup h.nodup, List.length_map]

theorem countValues (h : Holds d l) (p : α → Bool) :
    d.countValues p = l.countP fun e => p e.2 := by
  have hkeys : (d.keys.filter fun k => (d.lookup k).any p) =
      ((l.filter fun e => p e.2).map Prod.fst).toFinset := by
    ext k
    rw [Finset.mem_filter, Finmap.mem_keys, Finmap.mem_iff, List.mem_toFinset, List.mem_map]
    constructor
    · rintro ⟨⟨a, ha⟩, hp⟩
      rw [ha] at hp
      exact ⟨(k, a), List.mem_filter.mpr ⟨(h.entry k a).mp ha, hp⟩, rfl⟩
    · rintro ⟨⟨_, a⟩, hmem, rfl⟩
      obtain ⟨hmem, hp⟩ := List.mem_filter.mp hmem
      have ha := (h.entry _ a).mpr hmem
      exact ⟨⟨a, ha⟩, by rw [ha]; exact hp⟩
  have hnodup : ((l.filter fun e => p e.2).map Prod.fst).Nodup :=
    h.nodup.sublist (List.filter_sublist.map _)
  rw [Dict.countValues, hkeys, List.toFinset_card_of_nodup hnodup, List.length_map,
    List.countP_eq_length_filter]

end Holds

end Dict
