import Mathlib.Data.List.Nodup
import Mathlib.Data.List.Perm.Subperm
import Mathlib.Order.Lattice
import Mathlib.Order.MinMax
import Mathlib.Tactic.Common

/-!
# Bags given as lists

A list counts its members.  The union of some bags has, of every member, as many as the bag that has
most (`maxCount`).  `mem_union_iff` says that as sets of numbered members: the `i`-th copy of a
member is in the union exactly where some bag has more than `i` copies of it.  A store that keeps
numbered members therefore computes the union of bags by forming the union of sets, and
`length_eq_of_numbered` reads the count off such a store.
-/

namespace Bag

variable {α κ : Type*} [DecidableEq α]

/-- How many copies of a member the union of some bags has. -/
def maxCount (bags : List (List α)) (a : α) : ℕ := (bags.map (List.count a)).foldr max 0

@[simp] lemma maxCount_nil (a : α) : maxCount [] a = 0 := rfl

@[simp] lemma maxCount_cons (bag : List α) (bags : List (List α)) (a : α) :
    maxCount (bag :: bags) a = max (bag.count a) (maxCount bags a) := rfl

/-- The copies of a member are numbered from 0. -/
theorem mem_union_iff {bags : List (List α)} {a : α} {i : ℕ} :
    i < maxCount bags a ↔ ∃ bag ∈ bags, i < bag.count a := by
  induction bags with
  | nil => simp
  | cons bag bags ih => simp [ih]

lemma maxCount_perm {bags bags' : List (List α)} (h : bags.Perm bags') (a : α) :
    maxCount bags a = maxCount bags' a := by
  refine eq_of_forall_lt_iff fun i => ?_
  rw [mem_union_iff, mem_union_iff]
  constructor
  · rintro ⟨bag, hbag, hi⟩
    exact ⟨bag, h.subset hbag, hi⟩
  · rintro ⟨bag, hbag, hi⟩
    exact ⟨bag, h.symm.subset hbag, hi⟩

/-- One more member adds one numbered copy. -/
lemma lt_count_concat {bag : List α} {a b : α} {i : ℕ} :
    i < (bag ++ [b]).count a ↔ i < bag.count a ∨ a = b ∧ i = bag.count b := by
  rw [List.count_append]
  by_cases hab : a = b
  · subst hab
    rw [List.count_singleton_self]
    simp only [true_and]
    omega
  · rw [List.count_singleton, if_neg (by simpa using Ne.symm hab)]
    simp [hab]

/-- A list whose members carry, once each, the numbers below `n` is `n` long. -/
lemma length_eq_of_numbered {β : Type*} {rows : List β} {n : ℕ} (name : β → κ) (number : ℕ → κ)
    (hrows : (rows.map name).Nodup)
    (hnumber : ∀ i < n, ∀ j < n, number i = number j → i = j)
    (h : ∀ k, k ∈ rows.map name ↔ ∃ i < n, number i = k) : rows.length = n := by
  have hnodup : ((List.range n).map number).Nodup := by
    refine List.Nodup.map_on (fun i hi j hj => ?_) List.nodup_range
    exact hnumber i (List.mem_range.mp hi) j (List.mem_range.mp hj)
  have hperm : (rows.map name).Perm ((List.range n).map number) := by
    refine (List.perm_ext_iff_of_nodup hrows hnodup).mpr fun k => ?_
    rw [h k, List.mem_map]
    simp only [List.mem_range]
  have hlength := hperm.length_eq
  rwa [List.length_map, List.length_map, List.length_range] at hlength

end Bag
