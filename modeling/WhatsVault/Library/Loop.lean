import Mathlib.Data.List.Forall2
import Mathlib.Tactic.Common

/-!
# Loops that may raise

A loop whose body can raise is a `foldlM` in `Option`: `none` is the exception.  The rules say when a
loop goes through (`isSome_iff`, `goes_through`), what holds after it (`invariant`, with the items
done so far `progress`), and that what a turn leaves behind for its item is there at the end
(`traces`).  A loop that makes one thing of each item is a `mapM` (`mapM_eq_some`).
-/

namespace Loop

variable {σ α : Type*} {f : σ → α → Option σ}

lemma cons_eq_some {s t : σ} {a : α} {as : List α} :
    (a :: as).foldlM f s = some t ↔ ∃ s', f s a = some s' ∧ as.foldlM f s' = some t := by
  rw [List.foldlM_cons]
  exact Option.bind_eq_some_iff

/-- Where it depends on the item alone whether a turn raises, the loop goes through exactly when no
item raises. -/
theorem isSome_iff {P : α → Prop} (hf : ∀ s a, (f s a).isSome ↔ P a) (s : σ) (as : List α) :
    (as.foldlM f s).isSome ↔ ∀ a ∈ as, P a := by
  induction as generalizing s with
  | nil => simp
  | cons a as ih =>
    rw [List.forall_mem_cons, ← hf s a, Option.isSome_iff_exists]
    simp only [cons_eq_some]
    constructor
    · rintro ⟨t, s', hs', ht⟩
      exact ⟨by rw [hs']; rfl, (ih s').mp (by rw [ht]; rfl)⟩
    · rintro ⟨hs, hrest⟩
      obtain ⟨s', hs'⟩ := Option.isSome_iff_exists.mp hs
      obtain ⟨t, ht⟩ := Option.isSome_iff_exists.mp ((ih s').mpr hrest)
      exact ⟨t, s', hs', ht⟩

/-- An invariant of the loop, which may speak of the items done so far. -/
theorem progress {J : List α → σ → Prop}
    (hf : ∀ done s a s', J done s → f s a = some s' → J (done ++ [a]) s') {d : List α} {s t : σ}
    (h : J d s) {as : List α} (ht : as.foldlM f s = some t) : J (d ++ as) t := by
  induction as generalizing d s with
  | nil =>
    rw [List.append_nil]
    rw [List.foldlM_nil] at ht
    rwa [← Option.some.inj ht]
  | cons a as ih =>
    obtain ⟨s', hs', hrest⟩ := cons_eq_some.mp ht
    have hnext := ih (hf d s a s' h hs') hrest
    rwa [List.append_assoc] at hnext

/-- A loop goes through where an invariant lets every turn, and carries it to the end. -/
theorem goes_through {J : List α → σ → Prop} {d as : List α} {s : σ} (h : J d s)
    (hf : ∀ done a rest s, d ++ as = done ++ a :: rest → J done s →
      ∃ s', f s a = some s' ∧ J (done ++ [a]) s') :
    ∃ t, as.foldlM f s = some t ∧ J (d ++ as) t := by
  induction as generalizing d s with
  | nil => exact ⟨s, List.foldlM_nil, by rwa [List.append_nil]⟩
  | cons a as ih =>
    obtain ⟨s', hs', hnext⟩ := hf d a as s rfl h
    have hsplit : d ++ [a] ++ as = d ++ a :: as := by rw [List.append_assoc, List.singleton_append]
    obtain ⟨t, ht, hlast⟩ := ih hnext fun done b rest s heq => hf done b rest s (hsplit ▸ heq)
    exact ⟨t, cons_eq_some.mpr ⟨s', hs', ht⟩, hsplit ▸ hlast⟩

/-- An invariant of the loop. -/
theorem invariant {I : σ → Prop} (hf : ∀ s a s', I s → f s a = some s' → I s') {s t : σ} (h : I s)
    {as : List α} (ht : as.foldlM f s = some t) : I t :=
  progress (J := fun _ s => I s) (fun _ => hf) (d := []) h ht

/-- What each turn leaves behind for its item, and no later turn removes, is there at the end. -/
theorem traces {Q : α → σ → Prop} (hleaves : ∀ s a s', f s a = some s' → Q a s')
    (hkeeps : ∀ s a s' b, f s a = some s' → Q b s → Q b s') {s t : σ} {as : List α}
    (ht : as.foldlM f s = some t) : ∀ a ∈ as, Q a t := by
  have hdone := progress (J := fun done s => ∀ a ∈ done, Q a s) (f := f) (fun done s a s' hJ hs => ?_)
    (d := []) (by simp) ht
  · simpa using hdone
  · intro b hb
    rcases List.mem_append.mp hb with hb | hb
    · exact hkeeps s a s' b hs (hJ b hb)
    · rw [List.mem_singleton.mp hb]
      exact hleaves s a s' hs

/-- A `mapM` makes of each item what the function makes of it. -/
theorem mapM_eq_some {β : Type*} {g : α → Option β} {as : List α} {bs : List β} :
    as.mapM g = some bs ↔ List.Forall₂ (fun a b => g a = some b) as bs := by
  induction as generalizing bs with
  | nil =>
    rw [List.mapM_nil, List.forall₂_nil_left_iff]
    exact ⟨fun h => (Option.some.inj h).symm, fun h => by rw [h]; rfl⟩
  | cons a as ih =>
    simp only [List.mapM_cons, Option.bind_eq_bind, Option.bind_eq_some_iff, Option.pure_def,
      Option.some.injEq, List.forall₂_cons_left_iff]
    constructor
    · rintro ⟨b, hb, bs', hbs', rfl⟩
      exact ⟨b, bs', hb, ih.mp hbs', rfl⟩
    · rintro ⟨b, bs', hb, hbs', rfl⟩
      exact ⟨b, hb, bs', ih.mpr hbs', rfl⟩

lemma exists_of_mapM {β : Type*} {g : α → Option β} {as : List α} {bs : List β}
    (h : as.mapM g = some bs) {a : α} (ha : a ∈ as) : ∃ b ∈ bs, g a = some b := by
  have hmade := mapM_eq_some.mp h
  clear h
  induction hmade with
  | nil => cases ha
  | @cons a' b as bs hb _ ih =>
    rcases List.mem_cons.mp ha with rfl | ha
    · exact ⟨b, List.mem_cons_self, hb⟩
    · obtain ⟨c, hc, hmade⟩ := ih ha
      exact ⟨c, List.mem_cons_of_mem _ hc, hmade⟩

lemma exists_of_mem_mapM {β : Type*} {g : α → Option β} {as : List α} {bs : List β}
    (h : as.mapM g = some bs) {b : β} (hb : b ∈ bs) : ∃ a ∈ as, g a = some b := by
  have hmade := mapM_eq_some.mp h
  clear h
  induction hmade with
  | nil => cases hb
  | @cons a b' as bs ha _ ih =>
    rcases List.mem_cons.mp hb with rfl | hb
    · exact ⟨a, List.mem_cons_self, ha⟩
    · obtain ⟨c, hc, hmade⟩ := ih hb
      exact ⟨c, List.mem_cons_of_mem _ hc, hmade⟩

end Loop
