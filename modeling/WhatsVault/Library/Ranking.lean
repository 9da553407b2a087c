import Mathlib.Data.Finset.Card
import Mathlib.Data.List.Perm.Subperm
import Mathlib.Data.List.Sort
import Mathlib.Tactic.Common

/-!
# Ranked lists that are read through a limit

A ranking is a list of rows sorted by a rank (`sortBy`), rows of equal rank in the order they came
in.  Two rankings are joined by `merge`, which puts the rows of the second after those of the first
and leaves out the keys the first has.  A reader sees the first `n` rows of the result.

`filter_take_eq_iff` is about what a limit does to a fence: two lists whose rows of one kind are the
same show the same rows of that kind through their limits exactly where no such row is pushed over
the limit in one of them alone.
-/

namespace Ranking

variable {α κ ρ : Type*}

section Sorting

variable [LinearOrder ρ] (rank : α → ρ)

/-- The rows by rank, lowest first. -/
def sortBy (l : List α) : List α := l.insertionSort fun x y => rank x ≤ rank y

lemma mem_sortBy {l : List α} {x : α} : x ∈ sortBy rank l ↔ x ∈ l := List.mem_insertionSort _

lemma perm_sortBy (l : List α) : (sortBy rank l).Perm l := List.perm_insertionSort _ l

lemma pairwise_sortBy (l : List α) : (sortBy rank l).Pairwise fun x y => rank x ≤ rank y := by
  have htotal : Std.Total fun x y : α => rank x ≤ rank y := ⟨fun x y => le_total (rank x) (rank y)⟩
  have htrans : IsTrans α fun x y => rank x ≤ rank y := ⟨fun _ _ _ => le_trans⟩
  exact List.pairwise_insertionSort _ l

lemma orderedInsert_of_forall {x : α} {l : List α} (h : ∀ y ∈ l, rank x ≤ rank y) :
    l.orderedInsert (fun x y => rank x ≤ rank y) x = x :: l := by
  cases l with
  | nil => rfl
  | cons y l =>
    exact List.orderedInsert_cons_of_le (fun x y => rank x ≤ rank y) l (h y List.mem_cons_self)

/-- Inserting a row commutes with a filter, where the rows are sorted. -/
lemma filter_orderedInsert (p : α → Bool) (x : α) {l : List α}
    (h : l.Pairwise fun x y => rank x ≤ rank y) :
    (l.orderedInsert (fun x y => rank x ≤ rank y) x).filter p =
      if p x = true then (l.filter p).orderedInsert (fun x y => rank x ≤ rank y) x
      else l.filter p := by
  induction l with
  | nil =>
    by_cases hp : p x = true
    · simp [hp]
    · simp [hp]
  | cons y l ih =>
    obtain ⟨hy, htail⟩ := List.pairwise_cons.mp h
    by_cases hle : rank x ≤ rank y
    · have hall : ∀ z ∈ (y :: l).filter p, rank x ≤ rank z := by
        intro z hz
        rcases List.mem_cons.mp (List.mem_of_mem_filter hz) with rfl | hmem
        · exact hle
        · exact hle.trans (hy z hmem)
      rw [List.orderedInsert_cons_of_le (fun x y => rank x ≤ rank y) l hle,
        orderedInsert_of_forall rank hall, List.filter_cons]
    · rw [List.orderedInsert_of_not_le (fun x y => rank x ≤ rank y) l hle, List.filter_cons, ih htail,
        List.filter_cons]
      by_cases hx : p x = true
      · by_cases hp : p y = true
        · simp [hx, hp, hle]
        · simp [hx, hp]
      · simp [hx]

/-- Sorting commutes with a filter. -/
theorem filter_sortBy (p : α → Bool) (l : List α) :
    (sortBy rank l).filter p = sortBy rank (l.filter p) := by
  induction l with
  | nil => rfl
  | cons x l ih =>
    have hinsert := filter_orderedInsert rank p x (pairwise_sortBy rank l)
    rw [ih] at hinsert
    rw [List.filter_cons]
    split
    · rename_i hx
      rwa [if_pos hx] at hinsert
    · rename_i hx
      rwa [if_neg hx] at hinsert

/-- `top` is the head of a ranking of `l`: it is sorted, and nothing it leaves out ranks before what
it has. -/
structure Leads (l top : List α) : Prop where
  sorted : top.Pairwise fun x y => rank x ≤ rank y
  subset : ∀ x ∈ top, x ∈ l
  best : ∀ x ∈ l, x ∉ top → ∀ y ∈ top, rank y ≤ rank x

lemma leads_take (l : List α) (n : ℕ) : Leads rank l ((sortBy rank l).take n) where
  sorted := (pairwise_sortBy rank l).sublist (List.take_sublist n _)
  subset x hx := (mem_sortBy rank).mp (List.mem_of_mem_take hx)
  best x hx hleft y hy := by
    have hsorted := pairwise_sortBy rank l
    have hmem := (mem_sortBy rank).mpr hx
    rw [← List.take_append_drop n (sortBy rank l)] at hsorted hmem
    rcases List.mem_append.mp hmem with htaken | hdropped
    · exact absurd htaken hleft
    · exact (List.pairwise_append.mp hsorted).2.2 y hy x hdropped

end Sorting

section Merge

variable [DecidableEq κ] (key : α → κ)

/-- The rows of the first list, then those of the second whose key the first does not have. -/
def merge (l₁ l₂ : List α) : List α := l₁ ++ l₂.filter fun x => key x ∉ l₁.map key

@[simp] lemma merge_nil_left (l : List α) : merge key [] l = l := by simp [merge]

@[simp] lemma merge_nil_right (l : List α) : merge key l [] = l := by simp [merge]

lemma nodup_merge {l₁ l₂ : List α} (h₁ : (l₁.map key).Nodup) (h₂ : (l₂.map key).Nodup) :
    ((merge key l₁ l₂).map key).Nodup := by
  have hsub : ((l₂.filter fun x => key x ∉ l₁.map key).map key).Sublist (l₂.map key) :=
    List.filter_sublist.map key
  unfold merge
  rw [List.map_append]
  refine List.nodup_append.mpr ⟨h₁, h₂.sublist hsub, fun k hk k' hk' heq => ?_⟩
  obtain ⟨y, hy, rfl⟩ := List.mem_map.mp hk'
  have hfresh : key y ∉ l₁.map key := by simpa using List.of_mem_filter hy
  exact hfresh (heq ▸ hk)

/-- A filter that looks at a row's key alone goes through a merge. -/
lemma filter_merge {p : α → Bool} {l₁ l₂ : List α}
    (hp : ∀ x ∈ l₁, ∀ y ∈ l₂, key x = key y → p x = p y) :
    (merge key l₁ l₂).filter p = merge key (l₁.filter p) (l₂.filter p) := by
  unfold merge
  rw [List.filter_append, List.filter_filter, List.filter_filter]
  congr 1
  refine List.filter_congr fun y hy => ?_
  by_cases hpy : p y = true
  · have hiff : key y ∉ l₁.map key ↔ key y ∉ (l₁.filter p).map key := by
      simp only [List.mem_map, List.mem_filter, not_exists, not_and, and_imp]
      constructor
      · intro h x hx _
        exact h x hx
      · intro h x hx hkey
        exact h x hx ((hp x hx y hy hkey).trans hpy) hkey
    simp only [hpy, Bool.true_and, Bool.and_true]
    exact decide_eq_decide.mpr hiff
  · simp [hpy]

/-- A row the limit cuts off the first list leaves no room for the second. -/
lemma take_merge_of_le {n : ℕ} {l₁ : List α} (l₂ : List α) (h : n ≤ l₁.length) :
    (merge key l₁ l₂).take n = l₁.take n := List.take_append_of_le_length h

/-- A second list is read to the limit as well: the rows it drops would not have been reached. -/
lemma take_merge_take (n : ℕ) (l₁ : List α) {l₂ : List α} (h₂ : (l₂.map key).Nodup) :
    (merge key l₁ (l₂.take n)).take n = (merge key l₁ l₂).take n := by
  rcases Nat.lt_or_ge n l₂.length with hlong | hshort
  · have hsplit : merge key l₁ l₂ = merge key l₁ (l₂.take n) ++
        (l₂.drop n).filter (fun x => key x ∉ l₁.map key) := by
      unfold merge
      rw [List.append_assoc, ← List.filter_append, List.take_append_drop]
    -- every row left out of the first `n` of `l₂` has its key among those of `l₁`
    have hcover : (l₂.take n).length ≤
        l₁.length + ((l₂.take n).filter fun x => key x ∉ l₁.map key).length := by
      have hkeys : ((l₂.take n).filter fun x => key x ∈ l₁.map key).length ≤ l₁.length := by
        have hnodup : (((l₂.take n).filter fun x => key x ∈ l₁.map key).map key).Nodup :=
          h₂.sublist ((List.filter_sublist.trans (List.take_sublist n l₂)).map key)
        have hsubset : ((l₂.take n).filter fun x => key x ∈ l₁.map key).map key ⊆ l₁.map key := by
          intro k hk
          obtain ⟨y, hy, rfl⟩ := List.mem_map.mp hk
          simpa using List.of_mem_filter hy
        have hle := (hnodup.subperm hsubset).length_le
        simpa using hle
      have hcount := List.length_eq_length_filter_add (l := l₂.take n)
        (fun x => decide (key x ∈ l₁.map key))
      simp only [← decide_not] at hcount
      omega
    have hfull : n ≤ (merge key l₁ (l₂.take n)).length := by
      have htake : (l₂.take n).length = n := List.length_take_of_le hlong.le
      unfold merge
      rw [List.length_append]
      omega
    rw [hsplit, List.take_append_of_le_length hfull]
  · rw [List.take_of_length_le hshort]

/-- A merge names each key of either list once. -/
lemma length_merge {l₁ l₂ : List α} (h₁ : (l₁.map key).Nodup) (h₂ : (l₂.map key).Nodup) :
    (merge key l₁ l₂).length = ((l₁.map key).toFinset ∪ (l₂.map key).toFinset).card := by
  have hkeys : ((merge key l₁ l₂).map key).toFinset =
      (l₁.map key).toFinset ∪ (l₂.map key).toFinset := by
    ext k
    unfold merge
    simp only [List.mem_toFinset, Finset.mem_union, List.map_append, List.mem_append]
    constructor
    · intro h
      rcases h with h | h
      · exact .inl h
      · exact .inr ((List.filter_sublist.map key).subset h)
    · intro h
      by_cases hfirst : k ∈ l₁.map key
      · exact .inl hfirst
      · obtain ⟨x, hx, rfl⟩ := List.mem_map.mp (h.resolve_left hfirst)
        exact .inr (List.mem_map_of_mem (List.mem_filter.mpr ⟨hx, by simpa using hfirst⟩))
  rw [← hkeys, List.toFinset_card_of_nodup (nodup_merge key h₁ h₂), List.length_map]

end Merge

section Fill

variable [LinearOrder ρ] (rank : α → ρ) [DecidableEq κ] (key : α → κ)

def keys (l : List α) : Finset κ := (l.map key).toFinset

lemma mem_keys {l : List α} {k : κ} : k ∈ keys key l ↔ ∃ x ∈ l, key x = k := by simp [keys]

lemma keys_sortBy (l : List α) : keys key (sortBy rank l) = keys key l := by
  ext k
  simp [mem_keys, mem_sortBy]

omit [DecidableEq κ] in
lemma nodup_sortBy {l : List α} (h : (l.map key).Nodup) : ((sortBy rank l).map key).Nodup :=
  ((perm_sortBy rank l).map key).nodup_iff.mpr h

/-- `n` rows are filled from two rankings: the head of the first, then the head of what the second
has beside it. -/
structure Fills (n : ℕ) (l₁ l₂ top₁ top₂ : List α) : Prop where
  nodup : ((top₁ ++ top₂).map key).Nodup
  complete : (top₁ ++ top₂).length = min n (keys key l₁ ∪ keys key l₂).card
  first_complete : top₁.length = min n (keys key l₁).card
  first : Leads rank l₁ top₁
  second : Leads rank (l₂.filter fun x => key x ∉ keys key l₁) top₂

/-- The head of a merge fills its rows from the two rankings. -/
theorem fills_take_merge {l₁ l₂ : List α} (h₁ : (l₁.map key).Nodup) (h₂ : (l₂.map key).Nodup)
    (n : ℕ) :
    ∃ top₁ top₂, (merge key (sortBy rank l₁) (sortBy rank l₂)).take n = top₁ ++ top₂ ∧
      Fills rank key n l₁ l₂ top₁ top₂ := by
  have hsorted₁ := nodup_sortBy rank key h₁
  have hsorted₂ := nodup_sortBy rank key h₂
  have hbeside : merge key (sortBy rank l₁) (sortBy rank l₂) =
      sortBy rank l₁ ++ sortBy rank (l₂.filter fun x => key x ∉ keys key l₁) := by
    rw [merge, ← filter_sortBy, ← keys_sortBy rank key l₁]
    simp [keys]
  have htake : (merge key (sortBy rank l₁) (sortBy rank l₂)).take n =
      (sortBy rank l₁).take n ++ (sortBy rank (l₂.filter fun x => key x ∉ keys key l₁)).take
        (n - (sortBy rank l₁).length) := by
    rw [hbeside, List.take_append]
  refine ⟨_, _, htake, ?_, ?_, ?_, leads_take rank l₁ n, leads_take rank _ _⟩
  · rw [← htake]
    exact (nodup_merge key hsorted₁ hsorted₂).sublist ((List.take_sublist n _).map key)
  · have hall := length_merge key hsorted₁ hsorted₂
    rw [← htake, List.length_take, hall]
    congr 2
    exact congrArg₂ (· ∪ ·) (keys_sortBy rank key l₁) (keys_sortBy rank key l₂)
  · have hcard := List.toFinset_card_of_nodup h₁
    rw [List.length_map] at hcard
    rw [List.length_take, (perm_sortBy rank l₁).length_eq, keys, hcard]

end Fill

section Limit

/-- Two lists that begin with the same rows and are equally long are equal. -/
lemma eq_of_prefix_of_map_eq {β : Type*} {f : α → β} {l l₁ l₂ : List α} (h₁ : l₁ <+: l)
    (h₂ : l₂ <+: l) (h : l₁.map f = l₂.map f) : l₁ = l₂ := by
  have hlength : l₁.length = l₂.length := by simpa using congrArg List.length h
  rw [List.prefix_iff_eq_take.mp h₁, List.prefix_iff_eq_take.mp h₂, hlength]

/-- Two beginnings of a list without repeats that have the same members are equal. -/
lemma eq_of_prefix_of_mem_iff {l l₁ l₂ : List α} (hl : l.Nodup) (h₁ : l₁ <+: l) (h₂ : l₂ <+: l)
    (h : ∀ x ∈ l, x ∈ l₁ ↔ x ∈ l₂) : l₁ = l₂ := by
  have hlength : l₁.length = l₂.length := by
    refine le_antisymm ?_ ?_
    · refine ((hl.sublist h₁.sublist).subperm fun x hx => ?_).length_le
      exact (h x (h₁.subset hx)).mp hx
    · refine ((hl.sublist h₂.sublist).subperm fun x hx => ?_).length_le
      exact (h x (h₂.subset hx)).mpr hx
  rw [List.prefix_iff_eq_take.mp h₁, List.prefix_iff_eq_take.mp h₂, hlength]

variable [DecidableEq α] {p : α → Bool} {l₁ l₂ : List α}

/-- What two limited readers see of the rows in `p` is the same exactly where each such row is
inside both limits or outside both. -/
theorem filter_take_eq_iff (h : l₁.filter p = l₂.filter p) (hnodup : l₁.Nodup) (n₁ n₂ : ℕ) :
    (l₁.take n₁).filter p = (l₂.take n₂).filter p ↔
      ∀ x ∈ l₁.filter p, l₁.idxOf x < n₁ ↔ l₂.idxOf x < n₂ := by
  have hshown : ∀ x ∈ l₁.filter p, (x ∈ (l₁.take n₁).filter p ↔ l₁.idxOf x < n₁) ∧
      (x ∈ (l₂.take n₂).filter p ↔ l₂.idxOf x < n₂) := by
    intro x hx
    have hx₂ : x ∈ l₂.filter p := h ▸ hx
    rw [List.mem_filter] at hx hx₂
    rw [List.mem_filter, List.mem_filter, List.mem_take_iff_idxOf_lt hx.1,
      List.mem_take_iff_idxOf_lt hx₂.1]
    simp [hx.2]
  constructor
  · intro heq x hx
    rw [← (hshown x hx).1, ← (hshown x hx).2, heq]
  · intro hsame
    have h₁ : (l₁.take n₁).filter p <+: l₁.filter p := (List.take_prefix n₁ l₁).filter p
    have h₂ : (l₂.take n₂).filter p <+: l₁.filter p := h ▸ (List.take_prefix n₂ l₂).filter p
    refine eq_of_prefix_of_mem_iff (hnodup.filter p) h₁ h₂ fun x hx => ?_
    rw [(hshown x hx).1, (hshown x hx).2]
    exact hsame x hx

end Limit

end Ranking
