import Mathlib.Data.List.Nodup
import Mathlib.Data.List.Range
import Mathlib.Data.List.ReduceOption

/-!
# An allocation heap

Objects live in numbered cells. Allocation always uses a new cell, a cell is
written in place, and `reload` forgets every cell and allocates the objects of
another heap afresh, so a number is never used for two objects.

* `get?_alloc`, `get?_modify`, `get?_reload` — what each operation reads back.
* `nodup_live`, `mem_live`, `live_alloc`, `live_modify`, `live_reload` — the enumeration of the
  live cells; `objects` — the objects in them.
* `All` — a property of every object; `Keyed` — every object has a key of its own, taken
  from a supply that never repeats.
* `Embeds` — every object of one heap is in another one, in a cell that is known.
-/

/-- Cells hold an object, or nothing once the object has been forgotten. -/
structure Heap (α : Type*) where
  cells : List (Option α) := []
deriving DecidableEq

namespace Heap

variable {α β : Type*}

/-- Number of cells ever allocated; also the number of the next cell. -/
def size (h : Heap α) : Nat := h.cells.length

/-- The object in a cell, if the cell is live. -/
def get? (h : Heap α) (r : Nat) : Option α := h.cells[r]?.join

/-- Put an object into a new cell; the cell's number is the old `size`. -/
def alloc (h : Heap α) (a : α) : Heap α := ⟨h.cells ++ [some a]⟩

/-- Write a live cell in place. -/
def modify (h : Heap α) (r : Nat) (f : α → α) : Heap α :=
  ⟨h.cells.modify r (Option.map f)⟩

/-- Forget every cell, then allocate the objects of `new`, each through `f`. -/
def reload (old : Heap α) (new : Heap β) (f : β → α) : Heap α :=
  ⟨List.replicate old.size none ++ new.cells.map (Option.map f)⟩

/-- The live cells, in allocation order. -/
def live (h : Heap α) : List Nat := (List.range h.size).filter fun r => (h.get? r).isSome

-- ---------------------------------------------------------------------------
-- Reading back
-- ---------------------------------------------------------------------------

/-- Only an allocation takes a new cell. -/
@[simp] theorem size_alloc (h : Heap α) (a : α) : (h.alloc a).size = h.size + 1 := by
  simp [size, alloc]

@[simp] theorem size_modify (h : Heap α) (r : Nat) (f : α → α) :
    (h.modify r f).size = h.size := by
  simp [size, modify]

@[simp] theorem size_reload (old : Heap α) (new : Heap β) (f : β → α) :
    (old.reload new f).size = old.size + new.size := by
  simp [size, reload]

/-- Cells that have not been allocated hold nothing. -/
theorem get?_of_size_le {h : Heap α} {r : Nat} (hr : h.size ≤ r) : h.get? r = none := by
  simp [get?, List.getElem?_eq_none hr]

/-- What a cell holds was allocated in it. -/
theorem lt_size_of_get? {h : Heap α} {r : Nat} {a : α} (hr : h.get? r = some a) :
    r < h.size := by
  by_contra hle
  rw [get?_of_size_le (Nat.le_of_not_lt hle)] at hr
  cases hr

/-- The newest cell holds the new object, and the others what they held. -/
theorem get?_alloc (h : Heap α) (a : α) (r : Nat) :
    (h.alloc a).get? r = if r = h.size then some a else h.get? r := by
  unfold alloc get? size
  split
  · next heq => simp [heq]
  · next hne =>
    rcases Nat.lt_or_ge r h.cells.length with hlt | hge
    · rw [List.getElem?_append_left hlt]
    · rw [List.getElem?_eq_none (by simp; omega), List.getElem?_eq_none hge]

@[simp] theorem get?_alloc_self (h : Heap α) (a : α) : (h.alloc a).get? h.size = some a := by
  simp [get?_alloc]

theorem get?_alloc_of_lt {h : Heap α} {r : Nat} (a : α) (hr : r < h.size) :
    (h.alloc a).get? r = h.get? r := by
  rw [get?_alloc, if_neg (by omega)]

/-- Only the cell that is written changes. -/
theorem get?_modify (h : Heap α) (r : Nat) (f : α → α) (r' : Nat) :
    (h.modify r f).get? r' = if r' = r then (h.get? r).map f else h.get? r' := by
  unfold modify get?
  rw [List.getElem?_modify]
  split
  · next heq =>
    subst heq
    cases h.cells[r]? <;> simp
  · next hne => simp [Ne.symm hne]

/-- Writing what is there already changes nothing. -/
theorem modify_eq_self {h : Heap α} {r : Nat} {f : α → α} {a : α} (hr : h.get? r = some a)
    (hf : f a = a) : h.modify r f = h := by
  unfold modify
  unfold get? at hr
  have hcells : h.cells.modify r (Option.map f) = h.cells := by
    apply List.ext_getElem?
    intro i
    rw [List.getElem?_modify]
    split
    · next heq =>
      subst heq
      cases hcell : h.cells[r]? with
      | none => rfl
      | some cell =>
        rw [hcell] at hr
        cases hr
        simp [hf]
    · cases h.cells[i]? <;> rfl
  rw [hcells]

/-- Cells that existed before a reload are dead after it. -/
theorem get?_reload_of_lt {old : Heap α} {r : Nat} (new : Heap β) (f : β → α)
    (hr : r < old.size) : (old.reload new f).get? r = none := by
  have hlen : r < (List.replicate old.size (none : Option α)).length := by simpa using hr
  simp [reload, get?, List.getElem?_append_left hlen, hr]

/-- The reloaded objects sit above all cells that existed before. -/
theorem get?_reload_add (old : Heap α) (new : Heap β) (f : β → α) (r : Nat) :
    (old.reload new f).get? (old.size + r) = (new.get? r).map f := by
  have hlen : (List.replicate old.size (none : Option α)).length ≤ old.size + r := by simp
  unfold reload get?
  rw [List.getElem?_append_right hlen]
  simp only [List.length_replicate, Nat.add_sub_cancel_left, List.getElem?_map]
  cases new.cells[r]? <;> simp

-- ---------------------------------------------------------------------------
-- Enumeration
-- ---------------------------------------------------------------------------

/-- A cell is live when it holds an object. -/
@[simp] theorem mem_live {h : Heap α} {r : Nat} : r ∈ h.live ↔ ∃ a, h.get? r = some a := by
  simp only [live, List.mem_filter, List.mem_range, Option.isSome_iff_exists]
  constructor
  · rintro ⟨-, hr⟩
    exact hr
  · rintro ⟨a, ha⟩
    exact ⟨lt_size_of_get? ha, a, ha⟩

theorem nodup_live (h : Heap α) : h.live.Nodup := List.nodup_range.filter _

/-- A new object comes last in the enumeration. -/
theorem live_alloc (h : Heap α) (a : α) : (h.alloc a).live = h.live ++ [h.size] := by
  unfold live
  rw [size_alloc, List.range_succ, List.filter_append]
  congr 1
  · apply List.filter_congr
    intro r hr
    rw [get?_alloc_of_lt a (List.mem_range.mp hr)]
  · simp

/-- Writing a cell in place makes no object and forgets none. -/
@[simp] theorem live_modify (h : Heap α) (r : Nat) (f : α → α) : (h.modify r f).live = h.live := by
  unfold live
  rw [size_modify]
  apply List.filter_congr
  intro r' _
  rw [get?_modify]
  split
  · next heq => rw [heq, Option.isSome_map]
  · rfl

/-- After a reload exactly the reloaded cells are live. -/
theorem live_reload (old : Heap α) (new : Heap β) (f : β → α) :
    (old.reload new f).live = new.live.map (old.size + ·) := by
  unfold live
  rw [size_reload, List.range_add, List.filter_append, List.filter_map]
  have hdead : (List.range old.size).filter (fun r => ((old.reload new f).get? r).isSome) = [] := by
    rw [List.filter_eq_nil_iff]
    intro r hr
    simp [get?_reload_of_lt new f (List.mem_range.mp hr)]
  rw [hdead, List.nil_append]
  congr 1
  apply List.filter_congr
  intro r _
  simp [get?_reload_add]

/-- The objects in the live cells, in allocation order. -/
def objects (h : Heap α) : List α := h.cells.reduceOption

@[simp] theorem objects_empty : ({} : Heap α).objects = [] := rfl

/-- A new object comes last. -/
@[simp] theorem objects_alloc (h : Heap α) (a : α) : (h.alloc a).objects = h.objects ++ [a] := by
  simp [objects, alloc, List.reduceOption_append]

/-- What a write in place does not change is the same of all objects. -/
theorem map_objects_modify {f : α → α} {g : α → β} (hf : ∀ a, g (f a) = g a) (h : Heap α)
    (r : Nat) : (h.modify r f).objects.map g = h.objects.map g := by
  have hcells : ∀ (cells : List (Option α)) (r : Nat),
      (cells.modify r (Option.map f)).reduceOption.map g = cells.reduceOption.map g := by
    intro cells
    induction cells with
    | nil => intro r; cases r <;> rfl
    | cons cell cells ih =>
      rintro (_ | r)
      · cases cell with
        | none => rfl
        | some a => simp [hf]
      · cases cell <;> simpa using ih r
  exact hcells h.cells r

/-- A reload brings in the objects of the other heap and no others. -/
theorem objects_reload (old : Heap α) (new : Heap β) (f : β → α) :
    (old.reload new f).objects = new.objects.map f := by
  have hdead : (List.replicate old.size (none : Option α)).reduceOption = [] := by
    induction old.size with
    | zero => rfl
    | succ n ih => simp [List.replicate_succ, ih]
  unfold objects reload
  rw [List.reduceOption_append, hdead, List.nil_append, List.reduceOption_map]

/-- An object that is written right after its allocation might have been allocated so. -/
theorem modify_alloc_self (h : Heap α) (a : α) (f : α → α) :
    (h.alloc a).modify h.size f = h.alloc (f a) := by
  unfold modify alloc size
  rw [List.modify_eq_take_cons_drop (by simp)]
  simp

-- ---------------------------------------------------------------------------
-- Properties of every object
-- ---------------------------------------------------------------------------

/-- Every object of the heap satisfies `P`. -/
def All (h : Heap α) (P : α → Prop) : Prop := ∀ r a, h.get? r = some a → P a

theorem all_empty {P : α → Prop} : ({} : Heap α).All P := nofun

/-- A new object with the property. -/
theorem All.alloc {h : Heap α} {P : α → Prop} (hall : h.All P) {a : α} (ha : P a) :
    (h.alloc a).All P := by
  intro r b hr
  rw [get?_alloc] at hr
  split at hr
  · cases hr
    exact ha
  · exact hall _ _ hr

/-- A write in place that keeps the property. -/
theorem All.modify {h : Heap α} {P : α → Prop} (hall : h.All P) {f : α → α}
    (hf : ∀ a, P a → P (f a)) (r : Nat) : (h.modify r f).All P := by
  intro r' b hr
  rw [get?_modify] at hr
  split at hr
  · obtain ⟨a, ha, rfl⟩ := Option.map_eq_some_iff.mp hr
    exact hf a (hall _ _ ha)
  · exact hall _ _ hr

/-- The reloaded objects have what the map makes of their property. -/
theorem All.reload {old : Heap α} {new : Heap β} {P : β → Prop} {Q : α → Prop} (hall : new.All P)
    {f : β → α} (hf : ∀ b, P b → Q (f b)) : (old.reload new f).All Q := by
  intro r a hr
  by_cases hlt : r < old.size
  · rw [get?_reload_of_lt new f hlt] at hr
    cases hr
  · obtain ⟨i, rfl⟩ := Nat.exists_eq_add_of_le (Nat.le_of_not_lt hlt)
    rw [get?_reload_add] at hr
    obtain ⟨b, hb, rfl⟩ := Option.map_eq_some_iff.mp hr
    exact hf b (hall i b hb)

/-- Every object has one of the first `drawn` keys of a supply, and no two have the same. -/
structure Keyed {κ : Type*} (h : Heap α) (key : α → Option κ) (supply : Nat → κ)
    (drawn : Nat) : Prop where
  taken : ∀ {r a}, h.get? r = some a → ∃ n < drawn, key a = some (supply n)
  distinct : ∀ {r r' a a'}, h.get? r = some a → h.get? r' = some a' → key a = key a' → r = r'

namespace Keyed

variable {κ : Type*} {h : Heap α} {key : α → Option κ} {supply : Nat → κ} {drawn : Nat}

theorem empty : ({} : Heap α).Keyed key supply drawn := ⟨nofun, nofun⟩

/-- The objects keep their keys while more are drawn. -/
theorem mono (hkeyed : h.Keyed key supply drawn) {drawn' : Nat} (hle : drawn ≤ drawn') :
    h.Keyed key supply drawn' := by
  refine ⟨fun hr => ?_, hkeyed.distinct⟩
  obtain ⟨n, hn, hkey⟩ := hkeyed.taken hr
  exact ⟨n, hn.trans_le hle, hkey⟩

/-- A new object takes the next key, which no object has. -/
theorem alloc (hkeyed : h.Keyed key supply drawn) (hsupply : Function.Injective supply) {a : α}
    (ha : key a = some (supply drawn)) : (h.alloc a).Keyed key supply (drawn + 1) := by
  have hnew : ∀ {r b}, h.get? r = some b → key b ≠ key a := by
    intro r b hr heq
    obtain ⟨n, hn, hkey⟩ := hkeyed.taken hr
    rw [hkey, ha] at heq
    exact hn.ne (hsupply (Option.some.inj heq))
  constructor
  · intro r b hr
    rw [get?_alloc] at hr
    split at hr
    · cases hr
      exact ⟨drawn, Nat.lt_succ_self _, ha⟩
    · exact (hkeyed.mono (Nat.le_succ _)).taken hr
  · intro r r' b b' hr hr' heq
    rw [get?_alloc] at hr hr'
    split at hr
    · split at hr'
      · omega
      · cases hr
        exact absurd heq.symm (hnew hr')
    · split at hr'
      · cases hr'
        exact absurd heq (hnew hr)
      · exact hkeyed.distinct hr hr' heq

/-- Writing an object in place leaves its key. -/
theorem modify (hkeyed : h.Keyed key supply drawn) {f : α → α} (hf : ∀ a, key (f a) = key a)
    (r : Nat) : (h.modify r f).Keyed key supply drawn := by
  have hold : ∀ {r' b}, (h.modify r f).get? r' = some b →
      ∃ a, h.get? r' = some a ∧ key a = key b := by
    intro r' b hr
    rw [get?_modify] at hr
    split at hr
    · next heq =>
      obtain ⟨a, ha, rfl⟩ := Option.map_eq_some_iff.mp hr
      exact ⟨a, heq ▸ ha, (hf a).symm⟩
    · exact ⟨b, hr, rfl⟩
  constructor
  · intro r' b hr
    obtain ⟨a, ha, hkey⟩ := hold hr
    rw [← hkey]
    exact hkeyed.taken ha
  · intro r' r'' b b' hr hr' heq
    obtain ⟨a, ha, hkey⟩ := hold hr
    obtain ⟨a', ha', hkey'⟩ := hold hr'
    exact hkeyed.distinct ha ha' (by rw [hkey, hkey', heq])

end Keyed

-- ---------------------------------------------------------------------------
-- One heap in another
-- ---------------------------------------------------------------------------

/-- Every object of `h` is in `h'`: the one in cell `r` is in `cell r`, as `f` makes it. -/
def Embeds (h : Heap α) (h' : Heap β) (cell : Nat → Nat) (f : α → β) : Prop :=
  ∀ r a, h.get? r = some a → h'.get? (cell r) = some (f a)

namespace Embeds

variable {γ : Type*} {h : Heap α} {h' : Heap β} {cell : Nat → Nat} {f : α → β}

theorem refl (h : Heap α) : h.Embeds h id id := fun _ _ hr => hr

theorem trans (hembeds : h.Embeds h' cell f) {h'' : Heap γ} {cell' : Nat → Nat} {g : β → γ}
    (hembeds' : h'.Embeds h'' cell' g) : h.Embeds h'' (cell' ∘ cell) (g ∘ f) :=
  fun r a hr => hembeds' _ _ (hembeds r a hr)

/-- An object more. -/
theorem alloc (hembeds : h.Embeds h' cell f) (b : β) : h.Embeds (h'.alloc b) cell f := by
  intro r a hr
  have hr' := hembeds r a hr
  rw [get?_alloc_of_lt b (lt_size_of_get? hr'), hr']

/-- A cell is written that no object of `h` is in. -/
theorem modify (hembeds : h.Embeds h' cell f) {r' : Nat} (g : β → β)
    (hr' : ∀ r a, h.get? r = some a → cell r ≠ r') : h.Embeds (h'.modify r' g) cell f := by
  intro r a hr
  rw [get?_modify, if_neg (hr' r a hr)]
  exact hembeds r a hr

/-- A reload puts the objects behind the cells that were there. -/
theorem reload (old : Heap β) (new : Heap α) (f : α → β) :
    new.Embeds (old.reload new f) (old.size + ·) f := by
  intro r a hr
  rw [get?_reload_add, hr, Option.map_some]

end Embeds

end Heap
