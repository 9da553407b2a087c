import Mathlib.Algebra.Order.Group.Abs
import Mathlib.Algebra.Order.Ring.Int
import Mathlib.Data.Int.LeastGreatest
import Mathlib.Data.Set.Insert
import Mathlib.Tactic.Common

/-!
# Clocks put forward and back

An offset that changes at some instants (`IsTransition`) makes a wall clock, which reads `u + off u`
at the instant `u`.  Around a transition the clock skips or repeats the wall times between `early`
and `late`.  If transitions are further apart than twice the largest change (`Spaced`), the wall
times of one transition end before those of the next begin (`late_lt_early`), so a wall time belongs
to at most one of them.

A reader of the clock who knows which transitions have passed picks one of two offsets for a wall
time: that after the transitions whose `late` time has come, or that after those whose `early` time
has come (`Passed`).  Comparing the two tells how often the clock reads the time
(`readings_of_eq`, `readings_of_gt`, `readings_of_lt`).
-/

namespace Timeline

variable (off : ℤ → ℤ)

def IsTransition (T : ℤ) : Prop := off (T - 1) ≠ off T

/-- The instants at which the clock reads `t`. -/
def readings (t : ℤ) : Set ℤ := {u | u + off u = t}

/-- A wall time of a transition, with what `pick` takes of the offsets before and after it. -/
def wallTime (pick : ℤ → ℤ → ℤ) (T : ℤ) : ℤ := T + pick (off (T - 1)) (off T)

/-- The earlier of the wall times of a transition, just before it or at it. -/
def early (T : ℤ) : ℤ := wallTime off min T

/-- The later of the two. -/
def late (T : ℤ) : ℤ := wallTime off max T

/-- No change exceeds `D`, and any two transitions are further apart than twice that. -/
structure Spaced (D : ℤ) : Prop where
  change : ∀ T, IsTransition off T → |off T - off (T - 1)| ≤ D
  apart : ∀ T T', IsTransition off T → IsTransition off T' → T < T' → T + 2 * D < T'

/-- The transitions up to the instant `s` are those whose wall time has come by `t`. -/
def Passed (wall : ℤ → ℤ) (t s : ℤ) : Prop :=
  ∀ T, IsTransition off T → (T ≤ s ↔ wall T ≤ t)

variable {off} {D : ℤ}

lemma mem_readings {t u : ℤ} : u ∈ readings off t ↔ u + off u = t := Iff.rfl

/-! ## Between transitions -/

lemma eq_of_no_transition {a b : ℤ} (hab : a ≤ b)
    (h : ∀ T, a < T → T ≤ b → ¬ IsTransition off T) : off a = off b := by
  induction b, hab using Int.leInduction with
  | base => rfl
  | succ b hab ih =>
    have hstep : off b = off (b + 1) := by
      have hnot := h (b + 1) (by omega) (le_refl _)
      unfold IsTransition at hnot
      rw [not_not] at hnot
      simpa using hnot
    rw [← hstep]
    exact ih fun T ha hb => h T ha (by omega)

/-- Instants that no transition separates have the same offset. -/
lemma eq_of_same_side {a b : ℤ} (h : ∀ T, IsTransition off T → (T ≤ a ↔ T ≤ b)) :
    off a = off b := by
  rcases le_total a b with hab | hab
  · apply eq_of_no_transition hab
    intro T ha hb hT
    exact absurd ((h T hT).mpr hb) (by omega)
  · symm
    apply eq_of_no_transition hab
    intro T hb ha hT
    exact absurd ((h T hT).mp ha) (by omega)

/-- The last transition up to an instant sets its offset. -/
lemma exists_last {T b : ℤ} (hT : IsTransition off T) (hb : T ≤ b) :
    ∃ S, T ≤ S ∧ S ≤ b ∧ IsTransition off S ∧ off S = off b := by
  obtain ⟨S, ⟨hTS, hSb, hS⟩, hlast⟩ :=
    Int.exists_greatest_of_bdd (P := fun S => T ≤ S ∧ S ≤ b ∧ IsTransition off S)
      ⟨b, fun S hS => hS.2.1⟩ ⟨T, le_refl T, hb, hT⟩
  refine ⟨S, hTS, hSb, hS, ?_⟩
  apply eq_of_no_transition hSb
  intro S' hlt hle hS'
  have hle' := hlast S' ⟨by omega, hle, hS'⟩
  omega

/-- Up to the first transition after an instant its offset lasts. -/
lemma exists_first {a T : ℤ} (hT : IsTransition off T) (ha : a < T) :
    ∃ S, a < S ∧ S ≤ T ∧ IsTransition off S ∧ off (S - 1) = off a := by
  obtain ⟨S, ⟨haS, hST, hS⟩, hfirst⟩ :=
    Int.exists_least_of_bdd (P := fun S => a < S ∧ S ≤ T ∧ IsTransition off S)
      ⟨a, fun S hS => le_of_lt hS.1⟩ ⟨T, ha, le_refl T, hT⟩
  refine ⟨S, haS, hST, hS, ?_⟩
  symm
  apply eq_of_no_transition (by omega)
  intro S' hlt hle hS'
  have hle' := hfirst S' ⟨hlt, by omega, hS'⟩
  omega

/-! ## Wall times -/

lemma early_le_late (T : ℤ) : early off T ≤ late off T :=
  add_le_add_right (min_le_max) T

lemma early_le_before (T : ℤ) : early off T ≤ T + off (T - 1) :=
  add_le_add_right (min_le_left _ _) T

lemma early_le_after (T : ℤ) : early off T ≤ T + off T :=
  add_le_add_right (min_le_right _ _) T

lemma before_le_late (T : ℤ) : T + off (T - 1) ≤ late off T :=
  add_le_add_right (le_max_left _ _) T

lemma after_le_late (T : ℤ) : T + off T ≤ late off T :=
  add_le_add_right (le_max_right _ _) T

lemma late_lt_early_of_next (h : Spaced off D) {T S : ℤ} (hT : IsTransition off T)
    (hS : IsTransition off S) (hlt : T < S) (hnext : off (S - 1) = off T) :
    late off T < early off S := by
  have hchange := abs_le.mp (h.change T hT)
  have hchange' := abs_le.mp (h.change S hS)
  have hapart := h.apart T S hT hS hlt
  have hlate : late off T ≤ T + (off T + D) := by
    apply add_le_add_right
    exact max_le (by omega) (by omega)
  have hearly : S + (off T - D) ≤ early off S := by
    apply add_le_add_right
    exact le_min (by omega) (by omega)
  omega

/-- The wall times of a transition end before those of any later one begin. -/
theorem late_lt_early (h : Spaced off D) {T T' : ℤ} (hT : IsTransition off T)
    (hT' : IsTransition off T') (hlt : T < T') : late off T < early off T' := by
  induction hn : (T' - T).toNat using Nat.strong_induction_on generalizing T with
  | _ n ih =>
    obtain ⟨S, hTS, hST', hS, hnext⟩ := exists_first hT' hlt
    have hfirst := late_lt_early_of_next h hT hS hTS hnext
    rcases eq_or_lt_of_le hST' with rfl | hST'
    · exact hfirst
    · have hrest := ih (T' - S).toNat (by omega) hS hST' rfl
      have hmid : early off S ≤ late off S := early_le_late S
      omega

lemma lt_early_of_lt (h : Spaced off D) {t C T : ℤ} (hC : IsTransition off C)
    (hT : IsTransition off T) (hlate : t < late off C) (hlt : C < T) : t < early off T :=
  lt_trans hlate (late_lt_early h hC hT hlt)

lemma late_le_of_lt (h : Spaced off D) {t C T : ℤ} (hC : IsTransition off C)
    (hT : IsTransition off T) (hearly : early off C ≤ t) (hlt : T < C) : late off T ≤ t :=
  le_of_lt (lt_of_lt_of_le (late_lt_early h hT hC hlt) hearly)

/-- After a transition the clock reads no less than its early time. -/
lemma early_le_reading (h : Spaced off D) {T u : ℤ} (hT : IsTransition off T) (hu : T ≤ u) :
    early off T ≤ u + off u := by
  obtain ⟨S, hTS, hSu, hS, hlast⟩ := exists_last hT hu
  have hread : early off S ≤ u + off u := by
    have hafter : early off S ≤ S + off S := early_le_after S
    omega
  rcases eq_or_lt_of_le hTS with rfl | hlt
  · exact hread
  · have hwalls := late_lt_early h hT hS hlt
    have hmid : early off T ≤ late off T := early_le_late T
    omega

/-- Before a transition it reads less than its late time. -/
lemma reading_lt_late (h : Spaced off D) {T u : ℤ} (hT : IsTransition off T) (hu : u < T) :
    u + off u < late off T := by
  obtain ⟨S, huS, hST, hS, hfirst⟩ := exists_first hT hu
  have hread : u + off u < late off S := by
    have hbefore : S + off (S - 1) ≤ late off S := before_le_late S
    omega
  rcases eq_or_lt_of_le hST with rfl | hlt
  · exact hread
  · have hwalls := late_lt_early h hS hT hlt
    have hmid : early off T ≤ late off T := early_le_late T
    omega

/-! ## How often a time is read -/

section Counting

variable {t s₀ s₁ : ℤ}

/-- The offset of `s` reads `t` if the wall clock agrees on which transitions have passed. -/
lemma sub_mem_readings {s : ℤ} (hle : ∀ T, IsTransition off T → T ≤ s → T + off T ≤ t)
    (hlt : ∀ T, IsTransition off T → s < T → t < T + off (T - 1)) : t - off s ∈ readings off t := by
  have hsame : off (t - off s) = off s := by
    apply eq_of_same_side
    intro T hT
    constructor
    · intro hle'
      by_contra hnot
      obtain ⟨S, hsS, hST, hS, hfirst⟩ := exists_first hT (not_le.mp hnot)
      have hwall := hlt S hS hsS
      omega
    · intro hle'
      obtain ⟨S, hTS, hSs, hS, hlast⟩ := exists_last hT hle'
      have hwall := hle S hS hSs
      omega
  rw [mem_readings, hsame]
  omega

/-- A wall time between the two times of a transition; `s₀` and `s₁` are on its two sides. -/
lemma offsets_of_critical (h : Spaced off D) (h₀ : Passed off (late off) t s₀)
    (h₁ : Passed off (early off) t s₁) {C : ℤ} (hC : IsTransition off C) (hearly : early off C ≤ t)
    (hlate : t < late off C) : off s₀ = off (C - 1) ∧ off s₁ = off C := by
  constructor
  · apply eq_of_same_side
    intro T hT
    rw [h₀ T hT]
    constructor
    · intro hle
      by_contra hnot
      rcases eq_or_lt_of_le (show C ≤ T by omega) with rfl | hlt
      · omega
      · have hwall := lt_early_of_lt h hC hT hlate hlt
        have hmid : early off T ≤ late off T := early_le_late T
        omega
    · intro hle
      exact late_le_of_lt h hC hT hearly (by omega)
  · apply eq_of_same_side
    intro T hT
    rw [h₁ T hT]
    constructor
    · intro hle
      by_contra hnot
      have hwall := lt_early_of_lt h hC hT hlate (by omega)
      omega
    · intro hle
      rcases eq_or_lt_of_le hle with rfl | hlt
      · exact hearly
      · exact le_trans (early_le_late T) (late_le_of_lt h hC hT hearly hlt)

/-- Unless a transition is critical, both offsets are one and the clock reads the time once. -/
lemma readings_of_no_critical (h : Spaced off D) (h₀ : Passed off (late off) t s₀)
    (h₁ : Passed off (early off) t s₁)
    (hnone : ∀ T, IsTransition off T → early off T ≤ t → late off T ≤ t) :
    off s₀ = off s₁ ∧ readings off t = {t - off s₀} := by
  have hpassed {T : ℤ} (hT : IsTransition off T) : T ≤ s₀ ↔ early off T ≤ t := by
    rw [h₀ T hT]
    exact ⟨le_trans (early_le_late T), hnone T hT⟩
  refine ⟨eq_of_same_side fun T hT => by rw [hpassed hT, h₁ T hT], ?_⟩
  apply Set.Subset.antisymm
  · intro u hu
    have hsame : off u = off s₀ := by
      apply eq_of_same_side
      intro T hT
      rw [hpassed hT, ← mem_readings.mp hu]
      constructor
      · exact early_le_reading h hT
      · intro hle
        have hlate := hnone T hT (by rw [← mem_readings.mp hu]; exact hle)
        by_contra hnot
        have hread := reading_lt_late h hT (not_le.mp hnot)
        rw [mem_readings.mp hu] at hread
        omega
    rw [Set.mem_singleton_iff, ← hsame, ← mem_readings.mp hu]
    omega
  · rw [Set.singleton_subset_iff]
    apply sub_mem_readings
    · intro T hT hle
      exact le_trans (after_le_late T) ((h₀ T hT).mp hle)
    · intro T hT hlt
      refine lt_of_lt_of_le ?_ (early_le_before T)
      by_contra hnot
      exact absurd ((hpassed hT).mpr (not_lt.mp hnot)) (not_le.mpr hlt)

/-- A reading of a critical time is on either side of the transition. -/
lemma reading_of_critical (h : Spaced off D) {C u : ℤ} (hC : IsTransition off C)
    (hearly : early off C ≤ t) (hlate : t < late off C) (hu : u + off u = t) :
    (u < C ∧ off u = off (C - 1)) ∨ (C ≤ u ∧ off u = off C) := by
  rcases lt_or_ge u C with hlt | hle
  · refine .inl ⟨hlt, ?_⟩
    apply eq_of_same_side
    intro T hT
    constructor
    · intro hTu
      omega
    · intro hTC
      by_contra hnot
      have hread := reading_lt_late h hT (not_le.mp hnot)
      have hwall := late_le_of_lt h hC hT hearly (by omega)
      omega
  · refine .inr ⟨hle, ?_⟩
    apply eq_of_same_side
    intro T hT
    constructor
    · intro hTu
      by_contra hnot
      have hread := early_le_reading h hT hTu
      have hwall := lt_early_of_lt h hC hT hlate (by omega)
      omega
    · intro hTC
      omega

variable (h : Spaced off D) (h₀ : Passed off (late off) t s₀) (h₁ : Passed off (early off) t s₁)

include h h₀ h₁

lemma exists_critical (hne : off s₀ ≠ off s₁) :
    ∃ C, IsTransition off C ∧ early off C ≤ t ∧ t < late off C := by
  by_contra hnone
  apply hne
  refine (readings_of_no_critical h h₀ h₁ ?_).1
  intro T hT hearly
  by_contra hlate
  exact hnone ⟨T, hT, hearly, not_le.mp hlate⟩

/-- Equal offsets: the clock reads the time once. -/
theorem readings_of_eq (heq : off s₀ = off s₁) : readings off t = {t - off s₀} := by
  refine (readings_of_no_critical h h₀ h₁ ?_).2
  intro T hT hearly
  by_contra hlate
  obtain ⟨hbefore, hafter⟩ := offsets_of_critical h h₀ h₁ hT hearly (not_le.mp hlate)
  exact hT (by rw [← hbefore, ← hafter, heq])

/-- A smaller offset after it: the clock was put back and reads the time twice. -/
theorem readings_of_gt (hgt : off s₁ < off s₀) :
    readings off t = {t - off s₀, t - off s₁} := by
  obtain ⟨C, hC, hearly, hlate⟩ := exists_critical h h₀ h₁ (by omega)
  obtain ⟨hbefore, hafter⟩ := offsets_of_critical h h₀ h₁ hC hearly hlate
  apply Set.Subset.antisymm
  · intro u hu
    rw [Set.mem_insert_iff, Set.mem_singleton_iff]
    rw [mem_readings] at hu
    rcases reading_of_critical h hC hearly hlate hu with ⟨-, hoff⟩ | ⟨-, hoff⟩
    · left
      omega
    · right
      omega
  · rw [Set.insert_subset_iff, Set.singleton_subset_iff]
    have hwalls : early off C = C + off C ∧ late off C = C + off (C - 1) := by
      unfold early late wallTime
      rw [min_eq_right (by omega), max_eq_left (by omega)]
      exact ⟨rfl, rfl⟩
    constructor
    · apply sub_mem_readings
      · intro T hT hle
        exact le_trans (after_le_late T) ((h₀ T hT).mp hle)
      · intro T hT hlt
        have hwall : t < late off T := not_le.mp fun hle => absurd ((h₀ T hT).mpr hle) (by omega)
        rcases lt_trichotomy T C with hTC | rfl | hCT
        · have hpassed := late_le_of_lt h hC hT hearly hTC
          omega
        · omega
        · exact lt_of_lt_of_le (lt_early_of_lt h hC hT hlate hCT) (early_le_before T)
    · apply sub_mem_readings
      · intro T hT hle
        have hwall := (h₁ T hT).mp hle
        rcases lt_trichotomy T C with hTC | rfl | hCT
        · exact le_trans (after_le_late T) (late_le_of_lt h hC hT hearly hTC)
        · omega
        · have hpassed := lt_early_of_lt h hC hT hlate hCT
          omega
      · intro T hT hlt
        have hwall : t < early off T := not_le.mp fun hle => absurd ((h₁ T hT).mpr hle) (by omega)
        exact lt_of_lt_of_le hwall (early_le_before T)

/-- A larger offset after it: the clock was put forward over the time and never reads it. -/
theorem readings_of_lt (hlt : off s₀ < off s₁) : readings off t = ∅ := by
  obtain ⟨C, hC, hearly, hlate⟩ := exists_critical h h₀ h₁ (by omega)
  obtain ⟨hbefore, hafter⟩ := offsets_of_critical h h₀ h₁ hC hearly hlate
  have hwalls : early off C = C + off (C - 1) ∧ late off C = C + off C := by
    unfold early late wallTime
    rw [min_eq_left (by omega), max_eq_right (by omega)]
    exact ⟨rfl, rfl⟩
  rw [Set.eq_empty_iff_forall_notMem]
  intro u hu
  rw [mem_readings] at hu
  rcases reading_of_critical h hC hearly hlate hu with ⟨hside, hoff⟩ | ⟨hside, hoff⟩
  · omega
  · omega

end Counting

/-! ## Coarse clocks -/

/-- Offsets and transitions are multiples of `m`. -/
structure Whole (off : ℤ → ℤ) (m : ℤ) : Prop where
  offset : ∀ u, m ∣ off u
  transition : ∀ T, IsTransition off T → m ∣ T

variable {m : ℤ}

/-- A multiple of `m` that `a + d` has reached, `a` has. -/
lemma le_add_iff_of_dvd {a b d : ℤ} (ha : m ∣ a) (hb : m ∣ b) (hd : 0 ≤ d) (hdm : d < m) :
    b ≤ a + d ↔ b ≤ a := by
  obtain ⟨i, rfl⟩ := ha
  obtain ⟨j, rfl⟩ := hb
  constructor
  · intro hle
    have hlt : m * j < m * (i + 1) := by
      rw [mul_add, mul_one]
      omega
    have hij := lt_of_mul_lt_mul_left hlt (by omega)
    exact mul_le_mul_of_nonneg_left (by omega) (by omega)
  · intro hle
    omega

/-- Nothing changes before the next multiple of `m`. -/
lemma Whole.offset_add (h : Whole off m) {u d : ℤ} (hu : m ∣ u) (hd : 0 ≤ d) (hdm : d < m) :
    off (u + d) = off u := by
  apply eq_of_same_side
  intro T hT
  exact le_add_iff_of_dvd hu (h.transition T hT) hd hdm

lemma Whole.dvd_early (h : Whole off m) {T : ℤ} (hT : IsTransition off T) : m ∣ early off T := by
  refine Int.dvd_add (h.transition T hT) ?_
  rcases min_choice (off (T - 1)) (off T) with heq | heq
  · rw [heq]
    exact h.offset _
  · rw [heq]
    exact h.offset _

lemma Whole.dvd_late (h : Whole off m) {T : ℤ} (hT : IsTransition off T) : m ∣ late off T := by
  refine Int.dvd_add (h.transition T hT) ?_
  rcases max_choice (off (T - 1)) (off T) with heq | heq
  · rw [heq]
    exact h.offset _
  · rw [heq]
    exact h.offset _

/-- What has passed by a time in a minute has passed by its start. -/
lemma Passed.start {wall : ℤ → ℤ} (hwall : ∀ T, IsTransition off T → m ∣ wall T) {t d s : ℤ}
    (ht : m ∣ t) (hd : 0 ≤ d) (hdm : d < m) (h : Passed off wall (t + d) s) :
    Passed off wall t s := by
  intro T hT
  rw [h T hT]
  exact le_add_iff_of_dvd ht (hwall T hT) hd hdm

/-! ## Tables -/

/-- The offset at an instant, from the offset before the first entry and the entries of a table, each
an instant and the offset from then on. -/
def offsetAt (first : ℤ) : List (ℤ × ℤ) → ℤ → ℤ
  | [], _ => first
  | (T, o) :: rest, u => if T ≤ u then offsetAt o rest u else first

/-- The offset after the entries whose wall time has come by `t`, where `pick` takes the wall time
of an entry from the offsets before and after it. -/
def wallOffset (pick : ℤ → ℤ → ℤ) (first : ℤ) : List (ℤ × ℤ) → ℤ → ℤ
  | [], _ => first
  | (T, o) :: rest, t => if T + pick first o ≤ t then wallOffset pick o rest t else first

/-- Every entry changes the offset by at most `D`, and comes more than `2 * D` after the one
before. -/
def Entries (D : ℤ) : ℤ → List (ℤ × ℤ) → Prop
  | _, [] => True
  | first, (T, o) :: rest =>
    first ≠ o ∧ |o - first| ≤ D ∧ (∀ e ∈ rest, T + 2 * D < e.1) ∧ Entries D o rest

section Tables

variable {first : ℤ} {entries : List (ℤ × ℤ)}

lemma offsetAt_of_lt {u : ℤ} (h : ∀ e ∈ entries, u < e.1) : offsetAt first entries u = first := by
  cases entries with
  | nil => rfl
  | cons e entries =>
    obtain ⟨T, o⟩ := e
    have hlt := h (T, o) List.mem_cons_self
    rw [offsetAt, if_neg (by omega)]

lemma Entries.later {T o : ℤ} (h : Entries D first ((T, o) :: entries)) :
    ∀ e ∈ entries, T < e.1 := by
  obtain ⟨-, hchange, hlater, -⟩ := h
  intro e he
  have hnonneg := le_trans (abs_nonneg _) hchange
  have hapart := hlater e he
  omega

/-- The transitions of a table are its entries. -/
lemma Entries.isTransition_cons {T o : ℤ} (h : Entries D first ((T, o) :: entries)) {S : ℤ} :
    IsTransition (offsetAt first ((T, o) :: entries)) S ↔
      S = T ∨ T < S ∧ IsTransition (offsetAt o entries) S := by
  unfold IsTransition
  simp only [offsetAt]
  rcases lt_trichotomy S T with hlt | rfl | hgt
  · rw [if_neg (by omega), if_neg (by omega)]
    constructor
    · intro hne
      exact absurd rfl hne
    · rintro (heq | ⟨hgt, -⟩)
      · omega
      · omega
  · rw [if_neg (by omega), if_pos (le_refl _), offsetAt_of_lt h.later]
    exact ⟨fun _ => .inl rfl, fun _ => h.1⟩
  · rw [if_pos (by omega), if_pos (by omega)]
    constructor
    · intro hne
      exact .inr ⟨hgt, hne⟩
    · rintro (heq | ⟨-, hne⟩)
      · omega
      · exact hne

lemma Entries.lt_of_isTransition {T o : ℤ} (h : Entries D first ((T, o) :: entries)) {S : ℤ}
    (hS : IsTransition (offsetAt o entries) S) : T < S := by
  by_contra hnot
  apply hS
  rw [offsetAt_of_lt, offsetAt_of_lt]
  · intro e he
    have hlater := h.later e he
    omega
  · intro e he
    have hlater := h.later e he
    omega

lemma Entries.wallTime_first {T o : ℤ} (h : Entries D first ((T, o) :: entries))
    (pick : ℤ → ℤ → ℤ) :
    wallTime (offsetAt first ((T, o) :: entries)) pick T = T + pick first o := by
  simp only [wallTime, offsetAt]
  rw [if_pos (le_refl _), if_neg (by omega), offsetAt_of_lt h.later]

lemma Entries.exists_entry (h : Entries D first entries) {S : ℤ}
    (hS : IsTransition (offsetAt first entries) S) : ∃ e ∈ entries, e.1 = S := by
  induction entries generalizing first with
  | nil => exact absurd rfl hS
  | cons e entries ih =>
    obtain ⟨T, o⟩ := e
    rcases h.isTransition_cons.mp hS with rfl | ⟨-, hS⟩
    · exact ⟨(S, o), List.mem_cons_self, rfl⟩
    · obtain ⟨e, he, heS⟩ := ih h.2.2.2 hS
      exact ⟨e, List.mem_cons_of_mem _ he, heS⟩

lemma wallTime_of_lt {pick : ℤ → ℤ → ℤ} {T o S : ℤ} (hS : T < S) :
    wallTime (offsetAt first ((T, o) :: entries)) pick S =
      wallTime (offsetAt o entries) pick S := by
  simp only [wallTime, offsetAt]
  rw [if_pos (by omega), if_pos (by omega)]

theorem Entries.spaced (h : Entries D first entries) : Spaced (offsetAt first entries) D := by
  induction entries generalizing first with
  | nil => exact ⟨fun T hT => absurd rfl hT, fun T _ hT => absurd rfl hT⟩
  | cons e entries ih =>
    obtain ⟨T, o⟩ := e
    have hrest := ih h.2.2.2
    have hlater {S : ℤ} (hS : IsTransition (offsetAt o entries) S) : T + 2 * D < S := by
      obtain ⟨e, he, rfl⟩ := h.2.2.2.exists_entry hS
      exact h.2.2.1 e he
    constructor
    · intro S hS
      rcases h.isTransition_cons.mp hS with rfl | ⟨hlt, hS⟩
      · simp only [offsetAt]
        rw [if_pos (le_refl _), if_neg (by omega), offsetAt_of_lt h.later]
        exact h.2.1
      · simp only [offsetAt]
        rw [if_pos (by omega), if_pos (by omega)]
        exact hrest.change S hS
    · intro S S' hS hS' hlt
      rcases h.isTransition_cons.mp hS with rfl | ⟨-, hS⟩
      · rcases h.isTransition_cons.mp hS' with rfl | ⟨-, hS'⟩
        · omega
        · exact hlater hS'
      · have hT := h.lt_of_isTransition hS
        rcases h.isTransition_cons.mp hS' with rfl | ⟨-, hS'⟩
        · omega
        · exact hrest.apart S S' hS hS' hlt

theorem Entries.whole (h : Entries D first entries) (hfirst : m ∣ first)
    (hentries : ∀ e ∈ entries, m ∣ e.1 ∧ m ∣ e.2) : Whole (offsetAt first entries) m := by
  constructor
  · intro u
    clear h
    induction entries generalizing first with
    | nil => exact hfirst
    | cons e entries ih =>
      obtain ⟨T, o⟩ := e
      rw [offsetAt]
      split
      · exact ih (hentries _ List.mem_cons_self).2 fun e he =>
          hentries e (List.mem_cons_of_mem _ he)
      · exact hfirst
  · intro T hT
    obtain ⟨e, he, rfl⟩ := h.exists_entry hT
    exact (hentries e he).1

/-- Going through the table by wall time finds the offset after the entries that have passed. -/
theorem Entries.passed (h : Entries D first entries) (pick : ℤ → ℤ → ℤ)
    (hpick : ∀ a b, min a b ≤ pick a b ∧ pick a b ≤ max a b) (t : ℤ) :
    ∃ s, wallOffset pick first entries t = offsetAt first entries s ∧
      Passed (offsetAt first entries) (wallTime (offsetAt first entries) pick) t s := by
  induction entries generalizing first with
  | nil => exact ⟨0, rfl, fun T hT => absurd rfl hT⟩
  | cons e entries ih =>
    obtain ⟨T, o⟩ := e
    have hfirst := h.wallTime_first pick
    rw [wallOffset]
    split
    · rename_i hcome
      obtain ⟨s, hs, hpassed⟩ := ih h.2.2.2
      refine ⟨max T s, ?_, ?_⟩
      · rw [hs, offsetAt, if_pos (le_max_left T s)]
        apply eq_of_same_side
        intro S hS
        have hlt := h.lt_of_isTransition hS
        omega
      · intro S hS
        rcases h.isTransition_cons.mp hS with rfl | ⟨hlt, hS⟩
        · rw [hfirst]
          exact ⟨fun _ => hcome, fun _ => le_max_left S s⟩
        · rw [wallTime_of_lt hlt, ← hpassed S hS]
          omega
    · rename_i hnot
      refine ⟨T - 1, ?_, ?_⟩
      · rw [offsetAt, if_neg (by omega)]
      · have hT := h.isTransition_cons.mpr (.inl (rfl : T = T))
        intro S hS
        rcases h.isTransition_cons.mp hS with rfl | ⟨hlt, -⟩
        · rw [hfirst]
          omega
        · have hwalls := late_lt_early h.spaced hT hS hlt
          have hlate : late (offsetAt first ((T, o) :: entries)) T = T + max first o :=
            h.wallTime_first max
          have hlow : early (offsetAt first ((T, o) :: entries)) S ≤
              wallTime (offsetAt first ((T, o) :: entries)) pick S :=
            add_le_add_right (hpick _ _).1 S
          have hhigh := (hpick first o).2
          constructor
          · intro hle
            omega
          · intro hle
            omega

end Tables

end Timeline
