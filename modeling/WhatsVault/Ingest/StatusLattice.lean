import Mathlib
import WhatsVault.Ingest.Status
import WhatsVault.Library.JoinFold

/-!
# Delivery states form a join-semilattice

A delivery state is a rank, the earliest failure, the earliest deletion and a set of statuses not
known, ordered by what has been seen.  `reduce_status` is the fold that joins what each event
contributes (`delivery_reduceStatus`), and what it returns is the canonical form of that state, so
that equal states are equal results.
-/

namespace WhatsVault.Ingest

open JoinFold

/-- What has been seen: ranks and sets grow, times grow earlier. -/
abbrev Delivery := ℕ × (WithTop ℤ)ᵒᵈ × (WithTop ℤ)ᵒᵈ × Finset String

/-- An earliest time, if any: none is later than all. -/
def seenAt (ms : Option ℤ) : (WithTop ℤ)ᵒᵈ := OrderDual.toDual (ms.elim ⊤ fun t => (t : WithTop ℤ))

/-- The state a result stands for. -/
def Reduced.delivery (r : Reduced) : Delivery :=
  (r.deliveryRank, seenAt r.failedAtMs, seenAt r.deletedAtMs, r.unknownStatuses.toFinset)

/-- What one event contributes. -/
def StatusEvent.delivery (e : StatusEvent) : Delivery :=
  match statusRank e.status with
  | some rank => (rank, ⊥, ⊥, ∅)
  | none =>
    if e.status = "failed" then (0, seenAt (some e.providerTsMs), ⊥, ∅)
    else if e.status = "deleted" then (0, ⊥, seenAt (some e.providerTsMs), ∅)
    else (0, ⊥, ⊥, {e.status})

lemma seenAt_earliest (old : Option ℤ) (ts : ℤ) :
    seenAt (earliest old ts) = seenAt old ⊔ seenAt (some ts) := by
  cases old with
  | none => exact bot_sup_eq _ |>.symm
  | some ms =>
    show OrderDual.toDual ((min ms ts : ℤ) : WithTop ℤ) = _
    rw [WithTop.coe_min]
    rfl

/-- A turn of the loop joins what its event contributes. -/
lemma joins_add : Joins Reduced.add Reduced.delivery StatusEvent.delivery := by
  intro r e
  unfold Reduced.add StatusEvent.delivery Reduced.delivery
  rcases statusRank e.status with _ | rank
  · by_cases hfailed : e.status = "failed"
    · simp [hfailed, seenAt_earliest]
    · by_cases hdeleted : e.status = "deleted"
      · simp [hdeleted, seenAt_earliest]
      · have hinsert : (r.unknownStatuses.insert e.status).toFinset =
            r.unknownStatuses.toFinset ∪ {e.status} := by
          ext s
          simp
        simp [hfailed, hdeleted, hinsert]
  · simp

/-! ## The canonical form -/

/-- The unknown statuses of a result are sorted, each once. -/
def Reduced.Canonical (r : Reduced) : Prop :=
  r.unknownStatuses.Nodup ∧ r.unknownStatuses.Pairwise (· ≤ ·)

lemma seenAt_injective : Function.Injective seenAt := by
  intro a b h
  have helim : (a.elim ⊤ fun t => (t : WithTop ℤ)) = b.elim ⊤ fun t => (t : WithTop ℤ) :=
    OrderDual.toDual.injective h
  cases a with
  | none =>
    cases b with
    | none => rfl
    | some t => exact absurd helim.symm (WithTop.coe_ne_top)
  | some t =>
    cases b with
    | none => exact absurd helim WithTop.coe_ne_top
    | some t' => exact congrArg some (WithTop.coe_injective helim)

/-- A canonical result is the only one of its state. -/
lemma Reduced.Canonical.eq {r s : Reduced} (hr : r.Canonical) (hs : s.Canonical)
    (h : r.delivery = s.delivery) : r = s := by
  obtain ⟨hrank, hfailed, hdeleted, hunknown⟩ : _ ∧ _ ∧ _ ∧ _ := by
    simpa only [Reduced.delivery, Prod.mk.injEq] using h
  have hperm := List.perm_of_nodup_nodup_toFinset_eq hr.1 hs.1 hunknown
  have hlists := hperm.eq_of_pairwise (fun _ _ _ _ => le_antisymm) hr.2 hs.2
  cases r
  cases s
  exact Reduced.mk.injEq .. |>.mpr
    ⟨hrank, seenAt_injective hfailed, seenAt_injective hdeleted, hlists⟩

lemma nodup_unknownStatuses (events : List StatusEvent) {r : Reduced}
    (h : r.unknownStatuses.Nodup) : (events.foldl Reduced.add r).unknownStatuses.Nodup := by
  induction events generalizing r with
  | nil => exact h
  | cons e events ih =>
    apply ih
    unfold Reduced.add
    split
    · exact h
    · split
      · exact h
      · split
        · exact h
        · exact h.insert

lemma canonical_sorted {r : Reduced} (h : r.unknownStatuses.Nodup) :
    Reduced.Canonical { r with unknownStatuses := Ranking.sortBy id r.unknownStatuses } :=
  ⟨(Ranking.perm_sortBy id _).nodup_iff.mpr h, Ranking.pairwise_sortBy id _⟩

lemma delivery_sorted (r : Reduced) :
    Reduced.delivery { r with unknownStatuses := Ranking.sortBy id r.unknownStatuses } =
      r.delivery := by
  simp [Reduced.delivery, List.toFinset_eq_of_perm _ _ (Ranking.perm_sortBy id r.unknownStatuses)]

lemma canonical_reduceStatus (events : List StatusEvent) : (reduceStatus events).Canonical :=
  canonical_sorted (nodup_unknownStatuses events List.nodup_nil)

/-- `reduce_status` computes the join of what its events contribute. -/
theorem delivery_reduceStatus (events : List StatusEvent) :
    (reduceStatus events).delivery = join StatusEvent.delivery events := by
  unfold reduceStatus
  rw [delivery_sorted, joins_add.view_foldl]
  exact bot_sup_eq _

/-! ## The join of results -/

/-- The componentwise join: the higher rank, the earlier times, and the unknown statuses of both. -/
def Reduced.join (r s : Reduced) : Reduced where
  deliveryRank := max r.deliveryRank s.deliveryRank
  failedAtMs := Option.merge min r.failedAtMs s.failedAtMs
  deletedAtMs := Option.merge min r.deletedAtMs s.deletedAtMs
  unknownStatuses := Ranking.sortBy id (r.unknownStatuses ∪ s.unknownStatuses)

/-- What the one reports, the other reports too: no lower rank, no later time, every unknown
status. -/
structure Reduced.AtMost (r s : Reduced) : Prop where
  rank : r.deliveryRank ≤ s.deliveryRank
  failed : ∀ t, r.failedAtMs = some t → ∃ t' ≤ t, s.failedAtMs = some t'
  deleted : ∀ t, r.deletedAtMs = some t → ∃ t' ≤ t, s.deletedAtMs = some t'
  unknown : r.unknownStatuses ⊆ s.unknownStatuses

lemma seenAt_merge (a b : Option ℤ) : seenAt (Option.merge min a b) = seenAt a ⊔ seenAt b := by
  cases a with
  | none => cases b <;> exact (bot_sup_eq _).symm
  | some a =>
    cases b with
    | none => exact (sup_bot_eq _).symm
    | some b => exact seenAt_earliest (some a) b

lemma delivery_join (r s : Reduced) : (r.join s).delivery = r.delivery ⊔ s.delivery := by
  have hunion : (r.unknownStatuses ∪ s.unknownStatuses).toFinset =
      r.unknownStatuses.toFinset ∪ s.unknownStatuses.toFinset := by
    ext s
    simp
  simp only [Reduced.join, Reduced.delivery, seenAt_merge,
    List.toFinset_eq_of_perm _ _ (Ranking.perm_sortBy id _), hunion]
  rfl

lemma seenAt_le {a b : Option ℤ} (h : seenAt a ≤ seenAt b) :
    ∀ t, a = some t → ∃ t' ≤ t, b = some t' := by
  rintro t rfl
  have hle : (b.elim ⊤ fun t => (t : WithTop ℤ)) ≤ (t : WithTop ℤ) := h
  cases b with
  | none => exact absurd hle (by simp)
  | some t' => exact ⟨t', WithTop.coe_le_coe.mp hle, rfl⟩

lemma Reduced.atMost_of_le {r s : Reduced} (h : r.delivery ≤ s.delivery) : r.AtMost s where
  rank := h.1
  failed := seenAt_le h.2.1
  deleted := seenAt_le h.2.2.1
  unknown _ hx := List.mem_toFinset.mp (h.2.2.2 (List.mem_toFinset.mpr hx))

variable {xs ys : List StatusEvent}

/-- Neither the order of the events nor how often each is there matters. -/
theorem reduceStatus_congr (h : xs ⊆ ys) (h' : ys ⊆ xs) : reduceStatus xs = reduceStatus ys := by
  apply (canonical_reduceStatus xs).eq (canonical_reduceStatus ys)
  rw [delivery_reduceStatus, delivery_reduceStatus, join_congr h h']

/-- The events of two lists reduce to the join of what each reduces to. -/
theorem reduceStatus_append (xs ys : List StatusEvent) :
    reduceStatus (xs ++ ys) = (reduceStatus xs).join (reduceStatus ys) := by
  have hunion : ((reduceStatus xs).unknownStatuses ∪ (reduceStatus ys).unknownStatuses).Nodup :=
    List.Nodup.union _ (canonical_reduceStatus ys).1
  apply (canonical_reduceStatus _).eq (canonical_sorted (r := { (reduceStatus xs).join
    (reduceStatus ys) with
      unknownStatuses := (reduceStatus xs).unknownStatuses ∪ (reduceStatus ys).unknownStatuses })
    hunion)
  show _ = ((reduceStatus xs).join (reduceStatus ys)).delivery
  rw [delivery_join, delivery_reduceStatus, delivery_reduceStatus, delivery_reduceStatus,
    join_append]

/-- Further events take nothing back. -/
theorem reduceStatus_atMost (h : xs ⊆ ys) : (reduceStatus xs).AtMost (reduceStatus ys) := by
  apply Reduced.atMost_of_le
  rw [delivery_reduceStatus, delivery_reduceStatus]
  exact join_mono h

end WhatsVault.Ingest
