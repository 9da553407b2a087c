import Mathlib.Data.Prod.Lex
import WhatsVault.Library.Ranking

/-!
# Merging intervals

An interval is a pair, closed below and open above.  `merge` sorts a list of intervals and joins those
that overlap or touch.  What is left covers the same points (`covers_merge`), and there is a gap
between any two of its intervals (`apart_merge`).
-/

namespace Intervals

variable {α : Type*} [LinearOrder α]

def Contains (s : α × α) (i : α) : Prop := s.1 ≤ i ∧ i < s.2

/-- Some interval of the list contains the point. -/
def Covers (spans : List (α × α)) (i : α) : Prop := ∃ s ∈ spans, Contains s i

instance (s : α × α) (i : α) : Decidable (Contains s i) := inferInstanceAs (Decidable (_ ∧ _))

instance (spans : List (α × α)) (i : α) : Decidable (Covers spans i) :=
  inferInstanceAs (Decidable (∃ s ∈ spans, Contains s i))

/-- Join sorted intervals to the last one so far, or begin another one. -/
def mergeFrom (last : α × α) : List (α × α) → List (α × α)
  | [] => [last]
  | span :: spans =>
    if span.1 ≤ last.2 then mergeFrom (last.1, max last.2 span.2) spans
    else last :: mergeFrom span spans

def merge (spans : List (α × α)) : List (α × α) :=
  match Ranking.sortBy toLex spans with
  | [] => []
  | first :: rest => mergeFrom first rest

/-! ## Sorted lists -/

/-- The intervals are in the order of their lower ends. -/
def Sorted (spans : List (α × α)) : Prop := spans.Pairwise fun a b => a.1 ≤ b.1

lemma sorted_sortBy (spans : List (α × α)) : Sorted (Ranking.sortBy toLex spans) :=
  (Ranking.pairwise_sortBy toLex spans).imp fun {a b} h => Prod.Lex.monotone_fst (toLex a) (toLex b) h

/-- Joining the next interval keeps the list sorted. -/
lemma Sorted.join {last span : α × α} {spans : List (α × α)} (h : Sorted (last :: span :: spans))
    (upper : α) : Sorted ((last.1, upper) :: spans) := by
  obtain ⟨hlast, htail⟩ := List.pairwise_cons.mp h
  refine List.pairwise_cons.mpr ⟨fun s hs => ?_, (List.pairwise_cons.mp htail).2⟩
  exact hlast s (List.mem_cons_of_mem _ hs)

lemma Sorted.tail {last : α × α} {spans : List (α × α)} (h : Sorted (last :: spans)) :
    Sorted spans := (List.pairwise_cons.mp h).2

lemma contains_join {last span : α × α} (hfirst : last.1 ≤ span.1) (htouch : span.1 ≤ last.2) (i : α) :
    Contains (last.1, max last.2 span.2) i ↔ Contains last i ∨ Contains span i := by
  unfold Contains
  constructor
  · intro h
    by_cases hlast : i < last.2
    · exact .inl ⟨h.1, hlast⟩
    · have hpast := not_lt.mp hlast
      exact .inr ⟨htouch.trans hpast, (lt_max_iff.mp h.2).resolve_left hlast⟩
  · intro h
    rcases h with h | h
    · exact ⟨h.1, lt_max_of_lt_left h.2⟩
    · exact ⟨hfirst.trans h.1, lt_max_of_lt_right h.2⟩

lemma covers_cons {s : α × α} {spans : List (α × α)} {i : α} :
    Covers (s :: spans) i ↔ Contains s i ∨ Covers spans i := by
  simp [Covers]

lemma covers_mergeFrom {last : α × α} {spans : List (α × α)} (h : Sorted (last :: spans)) (i : α) :
    Covers (mergeFrom last spans) i ↔ Covers (last :: spans) i := by
  induction spans generalizing last with
  | nil => rfl
  | cons span spans ih =>
    have hfirst : last.1 ≤ span.1 := (List.pairwise_cons.mp h).1 span List.mem_cons_self
    unfold mergeFrom
    split
    · rename_i htouch
      rw [ih (h.join _), covers_cons, contains_join hfirst htouch, covers_cons, covers_cons, or_assoc]
    · rw [covers_cons, ih h.tail, covers_cons, covers_cons, covers_cons]

/-- Joined intervals begin where the first of them did. -/
lemma le_of_mem_mergeFrom {last : α × α} {spans : List (α × α)} (h : Sorted (last :: spans)) :
    ∀ s ∈ mergeFrom last spans, last.1 ≤ s.1 := by
  induction spans generalizing last with
  | nil =>
    intro s hs
    rw [List.mem_singleton.mp hs]
  | cons span spans ih =>
    intro s hs
    unfold mergeFrom at hs
    split at hs
    · exact ih (h.join (max last.2 span.2)) s hs
    · rcases List.mem_cons.mp hs with rfl | hs
      · exact le_rfl
      · have hfirst : last.1 ≤ span.1 := (List.pairwise_cons.mp h).1 span List.mem_cons_self
        exact hfirst.trans (ih h.tail s hs)

lemma apart_mergeFrom {last : α × α} {spans : List (α × α)} (h : Sorted (last :: spans)) :
    (mergeFrom last spans).Pairwise fun a b => a.2 < b.1 := by
  induction spans generalizing last with
  | nil => exact List.pairwise_singleton _ _
  | cons span spans ih =>
    unfold mergeFrom
    split
    · exact ih (h.join _)
    · rename_i hgap
      refine List.pairwise_cons.mpr ⟨fun s hs => ?_, ih h.tail⟩
      exact (not_le.mp hgap).trans_le (le_of_mem_mergeFrom h.tail s hs)

lemma proper_mergeFrom {last : α × α} {spans : List (α × α)}
    (h : ∀ s ∈ last :: spans, s.1 < s.2) : ∀ s ∈ mergeFrom last spans, s.1 < s.2 := by
  induction spans generalizing last with
  | nil => exact h
  | cons span spans ih =>
    have hlast := h last List.mem_cons_self
    intro s hs
    unfold mergeFrom at hs
    split at hs
    · refine ih (fun t ht => ?_) s hs
      rcases List.mem_cons.mp ht with rfl | ht
      · exact lt_max_of_lt_left hlast
      · exact h t (List.mem_cons_of_mem _ (List.mem_cons_of_mem _ ht))
    · rcases List.mem_cons.mp hs with rfl | hs
      · exact hlast
      · exact ih (fun t ht => h t (List.mem_cons_of_mem _ ht)) s hs

/-! ## Any list -/

lemma covers_sortBy (spans : List (α × α)) (i : α) :
    Covers (Ranking.sortBy toLex spans) i ↔ Covers spans i := by
  simp only [Covers, Ranking.mem_sortBy]

theorem covers_merge (spans : List (α × α)) (i : α) : Covers (merge spans) i ↔ Covers spans i := by
  rw [← covers_sortBy spans i]
  have hsorted := sorted_sortBy spans
  unfold merge
  split
  · rename_i hnil
    rw [hnil]
  · rename_i first rest hcons
    rw [hcons] at hsorted ⊢
    exact covers_mergeFrom hsorted i

theorem apart_merge (spans : List (α × α)) : (merge spans).Pairwise fun a b => a.2 < b.1 := by
  have hsorted := sorted_sortBy spans
  unfold merge
  split
  · exact List.Pairwise.nil
  · rename_i first rest hcons
    rw [hcons] at hsorted
    exact apart_mergeFrom hsorted

theorem proper_merge {spans : List (α × α)} (h : ∀ s ∈ spans, s.1 < s.2) :
    ∀ s ∈ merge spans, s.1 < s.2 := by
  have hall : ∀ s ∈ Ranking.sortBy toLex spans, s.1 < s.2 := fun s hs =>
    h s ((Ranking.mem_sortBy toLex).mp hs)
  unfold merge
  split
  · intro s hs
    cases hs
  · rename_i first rest hcons
    rw [hcons] at hall
    exact proper_mergeFrom hall

end Intervals
