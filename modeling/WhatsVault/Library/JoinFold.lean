import Mathlib.Data.Multiset.Lattice

/-!
# Folds that only join

A loop that joins a contribution of each element onto its state, under some reading `view` of the
state (`Joins`), computes the join of all contributions (`Joins.view_foldl`).  The result depends on
the set of elements alone: neither their order nor their number matters, concatenation is the join,
and further elements only raise it.
-/

namespace JoinFold

variable {σ α L : Type*} [SemilatticeSup L] [OrderBot L] {step : σ → α → σ} {view : σ → L}
  {f : α → L}

/-- The join of what the elements of a list contribute. -/
def join (f : α → L) (xs : List α) : L := Multiset.sup (xs.map f : List L)

@[simp] lemma join_nil : join f [] = ⊥ := Multiset.sup_zero

@[simp] lemma join_cons (x : α) (xs : List α) : join f (x :: xs) = f x ⊔ join f xs := by
  rw [join, List.map_cons, ← Multiset.cons_coe, Multiset.sup_cons]
  rfl

lemma join_append (xs ys : List α) : join f (xs ++ ys) = join f xs ⊔ join f ys := by
  rw [join, List.map_append, ← Multiset.coe_add, Multiset.sup_add]
  rfl

lemma join_mono {xs ys : List α} (h : xs ⊆ ys) : join f xs ≤ join f ys :=
  Multiset.sup_mono (List.map_subset f h)

/-- Elements that are the same up to order and repetition have one join. -/
lemma join_congr {xs ys : List α} (h : xs ⊆ ys) (h' : ys ⊆ xs) : join f xs = join f ys :=
  le_antisymm (join_mono h) (join_mono h')

/-- Each step joins a contribution of its element onto the state. -/
def Joins (step : σ → α → σ) (view : σ → L) (f : α → L) : Prop :=
  ∀ s x, view (step s x) = view s ⊔ f x

theorem Joins.view_foldl (h : Joins step view f) (s : σ) (xs : List α) :
    view (xs.foldl step s) = view s ⊔ join f xs := by
  induction xs generalizing s with
  | nil => simp
  | cons x xs ih => rw [List.foldl_cons, ih, h, join_cons, sup_assoc]

end JoinFold
