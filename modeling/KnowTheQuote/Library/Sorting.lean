import Mathlib.Data.List.Nodup
import Mathlib.Logic.Equiv.Basic
import Mathlib.Order.Antisymmetrization

/-!
# Sorting by a key

A list that is sorted by a key can be rearranged where keys are tied, and nowhere else: two
sorted rearrangements agree position by position, up to ties. So what a position holds is
certain exactly when its key is tied with no other.

* `exists_getElem?_antisymmRel` — sorted rearrangements agree up to ties.
* `SortedBy.position_iff` — when a position is certain.
-/

variable {α κ : Type*} {r : κ → κ → Prop}

/-- The list is sorted by the key. -/
def SortedBy (r : κ → κ → Prop) (key : α → κ) (l : List α) : Prop :=
  l.Pairwise fun a b => r (key a) (key b)

/-- Sorted rearrangements of one list agree up to ties. -/
theorem forall₂_antisymmRel [IsPreorder κ r] {l l' : List κ} (hperm : l.Perm l')
    (hl : l.Pairwise r) (hl' : l'.Pairwise r) : List.Forall₂ (AntisymmRel r) l l' := by
  let order : Preorder κ :=
    { le := r, le_refl := fun a => refl_of r a, le_trans := fun _ _ _ => trans_of r }
  -- in the order of the classes there are no ties
  have hsorted : ∀ {l : List κ}, l.Pairwise r →
      (l.map (toAntisymmetrization (· ≤ ·))).Pairwise (· ≤ ·) := fun h =>
    List.pairwise_map.mpr (h.imp toAntisymmetrization_le_toAntisymmetrization_iff.mpr)
  have heq := (hperm.map _).eq_of_pairwise (fun _ _ _ _ => le_antisymm) (hsorted hl) (hsorted hl')
  rw [← List.forall₂_eq_eq_eq, List.forall₂_map_left_iff, List.forall₂_map_right_iff] at heq
  exact heq.imp fun _ _ h => Quotient.exact h

/-- The same at one position. -/
theorem exists_getElem?_antisymmRel [IsPreorder κ r] {l l' : List κ} (hperm : l.Perm l')
    (hl : l.Pairwise r) (hl' : l'.Pairwise r) {i : Nat} {a : κ} (hi : l[i]? = some a) :
    ∃ b, l'[i]? = some b ∧ AntisymmRel r a b := by
  obtain ⟨hlt, ha⟩ := List.getElem?_eq_some_iff.mp hi
  have hlt' : i < l'.length := hperm.length_eq ▸ hlt
  refine ⟨l'[i], List.getElem?_eq_getElem hlt', ?_⟩
  have htied := (forall₂_antisymmRel hperm hl hl').get hlt hlt'
  simpa [ha] using htied

namespace SortedBy

variable {key : α → κ} {l : List α}

theorem map_key (h : SortedBy r key l) : (l.map key).Pairwise r := List.pairwise_map.mpr h

/-- Exchanging two elements whose keys are tied. -/
theorem map_swap [DecidableEq α] [IsPreorder κ r] (h : SortedBy r key l) {a b : α}
    (htied : AntisymmRel r (key a) (key b)) : SortedBy r key (l.map (Equiv.swap a b)) := by
  have hsame : ∀ x, AntisymmRel r (key (Equiv.swap a b x)) (key x) := by
    intro x
    rw [Equiv.swap_apply_def]
    split
    · next heq => exact heq ▸ htied.symm
    · split
      · next heq => exact heq ▸ htied
      · exact .refl r _
  refine List.pairwise_map.mpr (h.imp fun {x y} hxy => ?_)
  exact trans_of r (trans_of r (hsame x).1 hxy) (hsame y).2

/-- Exchanging two elements of a list without repetitions. -/
theorem perm_map_swap [DecidableEq α] (hnodup : l.Nodup) {a b : α} (ha : a ∈ l) (hb : b ∈ l) :
    (l.map (Equiv.swap a b)).Perm l := by
  have hmem : ∀ x ∈ l, Equiv.swap a b x ∈ l := by
    intro x hx
    rw [Equiv.swap_apply_def]
    split
    · exact hb
    · split
      · exact ha
      · exact hx
  refine (List.perm_ext_iff_of_nodup (hnodup.map (Equiv.swap a b).injective) hnodup).mpr ?_
  refine fun x => ⟨fun hx => ?_, fun hx => ?_⟩
  · obtain ⟨y, hy, rfl⟩ := List.mem_map.mp hx
    exact hmem y hy
  · exact List.mem_map.mpr ⟨Equiv.swap a b x, hmem x hx, Equiv.swap_apply_self a b x⟩

/-- **Certain positions.** The sorted rearrangements of a list all have the same element at
a position exactly when the key of that element is tied with no other. -/
theorem position_iff [IsPreorder κ r] (h : SortedBy r key l) (hnodup : l.Nodup) {i : Nat}
    {a : α} (hi : l[i]? = some a) :
    (∀ l' : List α, l'.Perm l → SortedBy r key l' → l'[i]? = some a) ↔
      ∀ b ∈ l, AntisymmRel r (key a) (key b) → b = a := by
  classical
  have ha : a ∈ l := List.mem_of_getElem? hi
  constructor
  · intro hcertain b hb htied
    -- the element and the one its key is tied with change places
    have hswapped := hcertain _ (perm_map_swap hnodup ha hb) (h.map_swap htied)
    rw [List.getElem?_map, hi, Option.map_some, Equiv.swap_apply_left] at hswapped
    exact Option.some.inj hswapped
  · intro hunique l' hperm hsorted
    have hkey : (l.map key)[i]? = some (key a) := by rw [List.getElem?_map, hi, Option.map_some]
    obtain ⟨k, hk, htied⟩ :=
      exists_getElem?_antisymmRel (hperm.symm.map key) h.map_key hsorted.map_key hkey
    obtain ⟨b, hb, rfl⟩ := Option.map_eq_some_iff.mp (List.getElem?_map .. ▸ hk)
    rw [hb, hunique b (hperm.mem_iff.mp (List.mem_of_getElem? hb)) htied]

end SortedBy
