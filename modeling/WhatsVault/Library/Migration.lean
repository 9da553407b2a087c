import Mathlib.Order.Nat
import WhatsVault.Library.Program

/-!
# Numbered migrations

A store has a version and contents, and a migration is a numbered script that makes the contents of
its version out of those before it, or fails.  `migrate` goes through a list of migrations and applies
those whose number is above the version, each in one step that also sets the version.

For a list in the order of its numbers there is then only one migration that can be applied to a store
(`IsNext`), so whatever every next migration keeps is kept by `migrate`, also where it is cut off
(`migrate_spec`).  `Built` is what it keeps first of all: the contents are those that the migrations
up to the version make of nothing.
-/

universe u w

/-- A store inside a larger state: its version and contents, written together. -/
structure Versioned (σ : Type u) (κ : Type*) where
  version : σ → ℕ
  contents : σ → κ
  write : ℕ → κ → σ → σ
  version_write : ∀ n c s, version (write n c s) = n
  contents_write : ∀ n c s, contents (write n c s) = c

namespace Migration

open Program

variable {σ : Type u} {κ ι : Type*} {ε : Type w} (V : Versioned σ κ) (run : ι → κ → Option κ)
  (failed : ι → ε)

/-- One migration, unless the store is past it. -/
def apply (m : ℕ × ι) : Program σ ε PUnit := do
  let s ← now
  if m.1 ≤ V.version s then pure ⟨⟩
  else
    match run m.2 (V.contents s) with
    | none => raise (failed m.2)
    | some c => change (V.write m.1 c)

def migrate (ms : List (ℕ × ι)) : Program σ ε PUnit :=
  ms.foldlM (fun _ m => apply V run failed m) ⟨⟩

/-- What the migrations up to `v` make of `start`. -/
def build (start : κ) (ms : List (ℕ × ι)) (v : ℕ) : Option κ :=
  (ms.filter fun m => m.1 ≤ v).foldlM (fun c m => run m.2 c) start

/-- In the order of their numbers. -/
def Ordered (ms : List (ℕ × ι)) : Prop := ms.Pairwise fun m m' => m.1 < m'.1

/-- The migration that a store at version `v` has not had, with nothing before it that it has not
had either. -/
structure IsNext (ms : List (ℕ × ι)) (v : ℕ) (m : ℕ × ι) : Prop where
  mem : m ∈ ms
  above : v < m.1
  passed : ∀ m' ∈ ms, m'.1 < m.1 → m'.1 ≤ v

/-- The contents are those of the version. -/
def Built (start : κ) (ms : List (ℕ × ι)) (s : σ) : Prop :=
  build run start ms (V.version s) = some (V.contents s)

variable {V run failed} {ms : List (ℕ × ι)}

lemma IsNext.filter_eq (hord : Ordered ms) {v : ℕ} {m : ℕ × ι} (h : IsNext ms v m) :
    (ms.filter fun m' => m'.1 ≤ m.1) = (ms.filter fun m' => m'.1 ≤ v) ++ [m] := by
  obtain ⟨before, after, rfl⟩ := List.append_of_mem h.mem
  obtain ⟨-, htail, hbefore⟩ := List.pairwise_append.mp hord
  have hafter : ∀ m' ∈ after, m.1 < m'.1 := (List.pairwise_cons.mp htail).1
  have hfirst : ∀ m' ∈ before, m'.1 < m.1 := fun m' hm' => hbefore m' hm' m List.mem_cons_self
  have hpassed : ∀ m' ∈ before, m'.1 ≤ v := fun m' hm' =>
    h.passed m' (List.mem_append_left _ hm') (hfirst m' hm')
  have hbound {n : ℕ} (hn : ∀ m' ∈ before, m'.1 ≤ n) :
      (before.filter fun m' => m'.1 ≤ n) = before :=
    List.filter_eq_self.mpr fun m' hm' => decide_eq_true (hn m' hm')
  have hnone {n : ℕ} (hn : n ≤ m.1) : (after.filter fun m' => m'.1 ≤ n) = [] := by
    rw [List.filter_eq_nil_iff]
    intro m' hm'
    have hlt := hafter m' hm'
    simp only [decide_eq_true_eq]
    omega
  have habove := h.above
  rw [List.filter_append, List.filter_append, hbound fun m' hm' => (hfirst m' hm').le,
    hbound hpassed, List.filter_cons_of_pos (by simp), List.filter_cons_of_neg (by simpa using habove),
    hnone le_rfl, hnone habove.le, List.append_nil]

variable (run) in
lemma IsNext.build_eq (hord : Ordered ms) {v : ℕ} {m : ℕ × ι} (h : IsNext ms v m) (start : κ) :
    build run start ms m.1 = (build run start ms v).bind (run m.2) := by
  unfold build
  rw [h.filter_eq hord, List.foldlM_append]
  simp only [List.foldlM_cons, List.foldlM_nil, Option.bind_eq_bind, Option.pure_def,
    Option.bind_fun_some]

/-- A next migration keeps a store built. -/
lemma IsNext.built (hord : Ordered ms) {start : κ} {s : σ} {m : ℕ × ι} {c : κ}
    (h : IsNext ms (V.version s) m) (hbuilt : Built V run start ms s)
    (hrun : run m.2 (V.contents s) = some c) : Built V run start ms (V.write m.1 c s) := by
  unfold Built at *
  rw [V.version_write, V.contents_write, h.build_eq run hord, hbuilt, Option.bind_some, hrun]

/-- In the loop: once those before it have been had, a migration is the next one or has been had. -/
lemma isNext_of_passed {done rest : List (ℕ × ι)} {m : ℕ × ι} (hord : Ordered (done ++ m :: rest))
    {v : ℕ} (hpassed : ∀ m' ∈ done, m'.1 ≤ v) (habove : v < m.1) :
    IsNext (done ++ m :: rest) v m := by
  obtain ⟨-, htail, -⟩ := List.pairwise_append.mp hord
  have hafter : ∀ m' ∈ rest, m.1 < m'.1 := (List.pairwise_cons.mp htail).1
  refine ⟨by simp, habove, fun m' hm' hlt => ?_⟩
  rcases List.mem_append.mp hm' with hdone | hrest
  · exact hpassed m' hdone
  · rcases List.mem_cons.mp hrest with rfl | hrest
    · exact absurd hlt (lt_irrefl _)
    · exact absurd hlt (not_lt.mpr (hafter m' hrest).le)

variable (V run failed) in
/-- What every next migration keeps is kept by `migrate`, and afterwards the store is past them
all. -/
theorem migrate_spec (hord : Ordered ms) {I : σ → Prop}
    (hI : ∀ s m c, I s → IsNext ms (V.version s) m → run m.2 (V.contents s) = some c →
      I (V.write m.1 c s)) :
    Triple I (fun _ => True) (migrate V run failed ms) fun _ s => ∀ m ∈ ms, m.1 ≤ V.version s := by
  have hloop := Triple.foldlM (I := I) (f := fun (_ : PUnit) m => apply V run failed m)
    (J := fun done _ s => ∀ m ∈ done, m.1 ≤ V.version s) [] ms ?_ ⟨⟩
  · exact hloop.pre (by simp)
  intro before m after _ heq
  obtain rfl : ms = before ++ m :: after := heq
  unfold apply
  refine Triple.now_bind fun s hs hpassed => ?_
  split
  · rename_i hle
    refine Triple.pure ?_
    rintro _ _ rfl m' hm'
    rcases List.mem_append.mp hm' with hm' | hm'
    · exact hpassed m' hm'
    · rwa [List.mem_singleton.mp hm']
  rename_i habove
  rw [not_le] at habove
  cases hrun : run m.2 (V.contents s) with
  | none => exact Triple.raise
  | some c =>
    refine Triple.change ?_ ?_
    · rintro _ hs rfl
      exact hI _ m c hs (isNext_of_passed hord hpassed habove) hrun
    · rintro _ _ rfl m' hm'
      rw [V.version_write]
      rcases List.mem_append.mp hm' with hm' | hm'
      · exact (hpassed m' hm').trans habove.le
      · exact (congrArg Prod.fst (List.mem_singleton.mp hm')).le

variable (failed) in
/-- Where every version can be built, `migrate` of a built store returns. -/
theorem migrate_returns (hord : Ordered ms) {start : κ} (hall : ∀ v, (build run start ms v).isSome)
    {s : σ} (hbuilt : Built V run start ms s) :
    ∃ t, Returns (migrate V run failed ms) s ⟨⟩ t := by
  have hloop (done rest : List (ℕ × ι)) (heq : done ++ rest = ms) (s : σ)
      (hbuilt : Built V run start ms s) (hpassed : ∀ m ∈ done, m.1 ≤ V.version s) :
      ∃ t, Returns (migrate V run failed rest) s ⟨⟩ t := by
    induction rest generalizing done s with
    | nil => exact ⟨s, Returns.pure⟩
    | cons m rest ih =>
      have hassoc : (done ++ [m]) ++ rest = ms := by rw [← heq, List.append_assoc, List.singleton_append]
      have hgrown {t : σ} (ht : V.version s ≤ V.version t) (hm : m.1 ≤ V.version t) :
          ∀ m' ∈ done ++ [m], m'.1 ≤ V.version t := by
        intro m' hm'
        rcases List.mem_append.mp hm' with hm' | hm'
        · exact (hpassed m' hm').trans ht
        · rwa [List.mem_singleton.mp hm']
      rcases le_or_gt m.1 (V.version s) with hle | habove
      · have hskip : Returns (apply V run failed m) s ⟨⟩ s := by
          refine Returns.now_bind ?_
          rw [if_pos hle]
          exact Returns.pure
        obtain ⟨t, ht⟩ := ih (done ++ [m]) hassoc s hbuilt (hgrown le_rfl hle)
        exact ⟨t, hskip.bind ht⟩
      · have hnext : IsNext ms (V.version s) m := by
          subst heq
          exact isNext_of_passed hord hpassed habove
        obtain ⟨c, hc⟩ := Option.isSome_iff_exists.mp (hall m.1)
        have hrun : run m.2 (V.contents s) = some c := by
          rwa [hnext.build_eq run hord, hbuilt, Option.bind_some] at hc
        have happly : Returns (apply V run failed m) s ⟨⟩ (V.write m.1 c s) := by
          refine Returns.now_bind ?_
          rw [if_neg (not_le.mpr habove), hrun]
          exact Returns.change
        have hversion := V.version_write m.1 c s
        obtain ⟨t, ht⟩ := ih (done ++ [m]) hassoc _ (hnext.built hord hbuilt hrun)
          (hgrown (by rw [hversion]; exact habove.le) (by rw [hversion]))
        exact ⟨t, happly.bind ht⟩
  exact hloop [] ms rfl s hbuilt (by simp)

end Migration
