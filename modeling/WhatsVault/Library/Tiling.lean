import Mathlib.Data.List.Forall2
import Mathlib.Order.Lattice
import Mathlib.Tactic.Common

/-!
# Tilings

Items with a start and a stop in a linear order tile `[lo, hi)` where they are not empty, the first
starts at `lo`, each one starts where the one before it stops, and the last stops at `hi`.  A point of
`[lo, hi)` is then in exactly one item (`Tiles.existsUnique`), and runs of items that are merged tile
what the items tiled (`Tiles.merge`).
-/

namespace Tiling

variable {α β γ : Type*} [LinearOrder β]

section Items

variable (start stop : α → β)

def Tiles : β → List α → β → Prop
  | lo, [], hi => lo = hi
  | lo, a :: as, hi => start a = lo ∧ lo < stop a ∧ Tiles (stop a) as hi

variable {start stop}

lemma Tiles.append_iff {lo hi : β} {as bs : List α} :
    Tiles start stop lo (as ++ bs) hi ↔
      ∃ mid, Tiles start stop lo as mid ∧ Tiles start stop mid bs hi := by
  induction as generalizing lo with
  | nil => simp [Tiles]
  | cons a as ih =>
    simp only [List.cons_append, Tiles, ih]
    constructor
    · rintro ⟨hstart, hlt, mid, has, hbs⟩
      exact ⟨mid, ⟨hstart, hlt, has⟩, hbs⟩
    · rintro ⟨mid, ⟨hstart, hlt, has⟩, hbs⟩
      exact ⟨hstart, hlt, mid, has, hbs⟩

lemma Tiles.le {lo hi : β} {as : List α} (h : Tiles start stop lo as hi) : lo ≤ hi := by
  induction as generalizing lo with
  | nil => exact le_of_eq h
  | cons a as ih => exact le_trans (le_of_lt h.2.1) (ih h.2.2)

lemma Tiles.bounds {lo hi : β} {as : List α} (h : Tiles start stop lo as hi) {a : α}
    (ha : a ∈ as) : lo ≤ start a ∧ start a < stop a ∧ stop a ≤ hi := by
  induction as generalizing lo with
  | nil => cases ha
  | cons b as ih =>
    obtain ⟨hstart, hlt, hrest⟩ := h
    rcases List.mem_cons.mp ha with rfl | ha
    · exact ⟨le_of_eq hstart.symm, by rwa [hstart], hrest.le⟩
    · obtain ⟨hlo, hnonempty, hhi⟩ := ih hrest ha
      exact ⟨le_trans (le_of_lt hlt) hlo, hnonempty, hhi⟩

/-- The last item stops where the tiling does. -/
lemma Tiles.last {lo hi : β} {a : α} {as : List α} (h : Tiles start stop lo (a :: as) hi) :
    as.getLast?.elim (stop a) stop = hi := by
  induction as generalizing lo a with
  | nil => exact h.2.2
  | cons b as ih =>
    have hrest := ih h.2.2
    cases as with
    | nil => exact hrest
    | cons c as => exact hrest

lemma Tiles.of_mem_flatten {lo hi : β} {runs : List (List α)}
    (h : Tiles start stop lo runs.flatten hi) {run : List α} (hrun : run ∈ runs) :
    ∃ lo' hi', Tiles start stop lo' run hi' := by
  obtain ⟨before, after, rfl⟩ := List.append_of_mem hrun
  rw [List.flatten_append, List.flatten_cons] at h
  obtain ⟨lo', -, h⟩ := Tiles.append_iff.mp h
  obtain ⟨hi', hrun, -⟩ := Tiles.append_iff.mp h
  exact ⟨lo', hi', hrun⟩

/-- Every point is in exactly one item. -/
theorem Tiles.existsUnique {lo hi : β} {as : List α} (h : Tiles start stop lo as hi) {x : β}
    (hlo : lo ≤ x) (hhi : x < hi) : ∃! a, a ∈ as ∧ start a ≤ x ∧ x < stop a := by
  induction as generalizing lo with
  | nil =>
    have hempty : lo = hi := h
    exact absurd (lt_of_le_of_lt hlo hhi) (by simp [hempty])
  | cons b as ih =>
    obtain ⟨hstart, hlt, hrest⟩ := h
    by_cases hx : x < stop b
    · refine ⟨b, ⟨List.mem_cons_self, hstart ▸ hlo, hx⟩, ?_⟩
      rintro c ⟨hc, hcstart, -⟩
      rcases List.mem_cons.mp hc with rfl | hc
      · rfl
      · exact absurd (lt_of_lt_of_le hx (hrest.bounds hc).1) (not_lt.mpr hcstart)
    · obtain ⟨a, ⟨ha, hin⟩, hunique⟩ := ih hrest (not_lt.mp hx)
      refine ⟨a, ⟨List.mem_cons_of_mem _ ha, hin⟩, ?_⟩
      rintro c ⟨hc, hcin⟩
      rcases List.mem_cons.mp hc with rfl | hc
      · exact absurd hcin.2 hx
      · exact hunique c ⟨hc, hcin⟩

end Items

/-- Runs of items, each merged into one, tile what the items tiled. -/
theorem Tiles.merge (start stop : α → β) {start' stop' : γ → β} {R : List α → γ → Prop}
    (hR : ∀ as c lo hi, R as c → Tiles start stop lo as hi →
      start' c = lo ∧ stop' c = hi ∧ lo < hi)
    {runs : List (List α)} {cs : List γ} (hmerged : List.Forall₂ R runs cs) {lo hi : β}
    (h : Tiles start stop lo runs.flatten hi) : Tiles start' stop' lo cs hi := by
  induction hmerged generalizing lo with
  | nil => exact h
  | cons hac _ ih =>
    obtain ⟨mid, hrun, hrest⟩ := Tiles.append_iff.mp h
    obtain ⟨hstart, hstop, hlt⟩ := hR _ _ _ _ hac hrun
    refine ⟨hstart, ?_, ?_⟩
    · rwa [hstop]
    · rw [hstop]
      exact ih hrest

end Tiling
