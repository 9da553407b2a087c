import Mathlib.Data.List.Nodup
import Mathlib.Tactic.Common

/-!
# Tables with a key

A table is the list of its rows in insertion order.  `find` is a lookup by key, `insert` an
`INSERT` under a UNIQUE constraint on the key (it fails where the key is taken) and `upsert` an
insert that replaces the row with the same key.  `Unique` is the constraint itself; under it a
lookup finds exactly the row with that key (`find_eq_some_iff`).
-/

namespace Table

variable {ρ κ : Type*}

/-! ## The constraint -/

/-- No two rows share a key. -/
def Unique (key : ρ → κ) (rows : List ρ) : Prop := (rows.map key).Nodup

lemma unique_nil (key : ρ → κ) : Unique key [] := List.nodup_nil

lemma Unique.eq_of_key_eq {key : ρ → κ} {rows : List ρ} (h : Unique key rows) {r s : ρ}
    (hr : r ∈ rows) (hs : s ∈ rows) (hkey : key r = key s) : r = s :=
  List.inj_on_of_nodup_map h hr hs hkey

lemma Unique.append {key : ρ → κ} {rows : List ρ} (h : Unique key rows) {row : ρ}
    (hfree : ∀ r ∈ rows, key r ≠ key row) : Unique key (rows ++ [row]) := by
  unfold Unique at *
  simp only [List.map_append, List.map_cons, List.map_nil]
  refine List.nodup_append.mpr ⟨h, List.nodup_singleton _, ?_⟩
  intro k hk k' hk'
  obtain ⟨r, hr, rfl⟩ := List.mem_map.mp hk
  rw [List.mem_singleton.mp hk']
  exact hfree r hr

/-- Under the constraint an UPDATE by key changes one row, in its place. -/
lemma Unique.map_replace [DecidableEq κ] {key : ρ → κ} {rows : List ρ} (h : Unique key rows)
    {old row : ρ} (hold : old ∈ rows) (hkey : key row = key old) :
    ∃ before after, rows = before ++ old :: after ∧
      (rows.map fun r => if key r = key row then row else r) = before ++ row :: after := by
  obtain ⟨before, after, rfl⟩ := List.append_of_mem hold
  refine ⟨before, after, rfl, ?_⟩
  unfold Unique at h
  rw [List.map_append, List.map_cons, List.nodup_append, List.nodup_cons] at h
  obtain ⟨-, ⟨hafter, -⟩, hbefore⟩ := h
  have hother {r : ρ} (hr : key r ≠ key old) : (if key r = key row then row else r) = r :=
    if_neg (hkey ▸ hr)
  rw [List.map_append, List.map_cons, if_pos hkey.symm]
  congr 1
  · refine (List.map_congr_left fun r hr => hother ?_).trans (List.map_id _)
    exact hbefore _ (List.mem_map_of_mem hr) _ List.mem_cons_self
  · congr 1
    refine (List.map_congr_left fun r hr => hother fun hsame => hafter ?_).trans (List.map_id _)
    exact hsame ▸ List.mem_map_of_mem hr

/-- Under the constraint a SELECT by key gives one row. -/
lemma Unique.filter_key [DecidableEq κ] {key : ρ → κ} {rows : List ρ} (h : Unique key rows) {row : ρ}
    (hrow : row ∈ rows) : (rows.filter fun r => key r = key row) = [row] := by
  obtain ⟨before, after, rfl⟩ := List.append_of_mem hrow
  unfold Unique at h
  rw [List.map_append, List.map_cons, List.nodup_append, List.nodup_cons] at h
  obtain ⟨-, ⟨hafter, -⟩, hbefore⟩ := h
  have hnone₁ : before.filter (fun r => key r = key row) = [] := by
    rw [List.filter_eq_nil_iff]
    intro r hr
    simpa using hbefore _ (List.mem_map_of_mem hr) _ List.mem_cons_self
  have hnone₂ : after.filter (fun r => key r = key row) = [] := by
    rw [List.filter_eq_nil_iff]
    intro r hr hsame
    exact hafter ((of_decide_eq_true hsame) ▸ List.mem_map_of_mem hr)
  rw [List.filter_append, hnone₁, List.filter_cons_of_pos (by simp), hnone₂]
  rfl

/-- A column the new row shares with the old one stays as it is. -/
lemma Unique.map_map_replace [DecidableEq κ] {key : ρ → κ} {rows : List ρ} (h : Unique key rows)
    {old row : ρ} (hold : old ∈ rows) (hkey : key row = key old) {β : Type*} {column : ρ → β}
    (hcolumn : column row = column old) :
    (rows.map fun r => if key r = key row then row else r).map column = rows.map column := by
  obtain ⟨before, after, hrows, hmap⟩ := h.map_replace hold hkey
  rw [hmap, hrows]
  simp [hcolumn]

/-- An UPDATE that clears a flag of some row and sets it on none lowers the number of rows with it. -/
lemma countP_map_lt {p : ρ → Bool} {f : ρ → ρ} {rows : List ρ}
    (hkeep : ∀ r ∈ rows, p (f r) = true → p r = true) {row : ρ} (hrow : row ∈ rows)
    (hbefore : p row = true) (hafter : p (f row) = false) :
    (rows.map f).countP p + 1 ≤ rows.countP p := by
  obtain ⟨first, last, rfl⟩ := List.append_of_mem hrow
  have hfirst : (first.map f).countP p ≤ first.countP p := by
    rw [List.countP_map]
    exact List.countP_mono_left fun r hr => hkeep r (List.mem_append_left _ hr)
  have hlast : (last.map f).countP p ≤ last.countP p := by
    rw [List.countP_map]
    exact List.countP_mono_left fun r hr =>
      hkeep r (List.mem_append_right _ (List.mem_cons_of_mem _ hr))
  rw [List.map_append, List.map_cons, List.countP_append, List.countP_append,
    List.countP_cons_of_pos hbefore, List.countP_cons_of_neg (by simpa using hafter)]
  omega

/-! ## Lookup, insert and upsert -/

variable [DecidableEq κ] (key : ρ → κ)

/-- The first row with key `k`. -/
def find (k : κ) (rows : List ρ) : Option ρ := rows.find? fun r => key r = k

def insert (row : ρ) (rows : List ρ) : Option (List ρ) :=
  if (find key (key row) rows).isSome then none else some (rows ++ [row])

def upsert (row : ρ) (rows : List ρ) : List ρ :=
  rows.filter (fun r => key r ≠ key row) ++ [row]

variable {key}

lemma mem_of_find_eq_some {k : κ} {rows : List ρ} {r : ρ} (h : find key k rows = some r) :
    r ∈ rows ∧ key r = k :=
  ⟨List.mem_of_find?_eq_some h, by simpa using List.find?_some h⟩

lemma find_eq_none_iff {k : κ} {rows : List ρ} :
    find key k rows = none ↔ ∀ r ∈ rows, key r ≠ k := by
  simp [find]

lemma find_isSome_iff {k : κ} {rows : List ρ} :
    (find key k rows).isSome ↔ ∃ r ∈ rows, key r = k := by
  simp [find]

lemma Unique.find_eq_some_iff {rows : List ρ} (h : Unique key rows) {k : κ} {r : ρ} :
    find key k rows = some r ↔ r ∈ rows ∧ key r = k := by
  refine ⟨mem_of_find_eq_some, fun ⟨hr, hk⟩ => ?_⟩
  rcases hfind : find key k rows with _ | s
  · exact absurd hk (find_eq_none_iff.mp hfind r hr)
  · obtain ⟨hs, hsk⟩ := mem_of_find_eq_some hfind
    rw [h.eq_of_key_eq hs hr (hsk.trans hk.symm)]

lemma find?_filter_of_unique {q p : ρ → Bool} {rows : List ρ}
    (h : ∀ r ∈ rows, ∀ s ∈ rows, q r = true → q s = true → r = s) :
    (rows.filter p).find? q = (rows.find? q).filter p := by
  rcases hfind : rows.find? q with _ | r
  · rw [Option.filter_none, List.find?_eq_none]
    intro s hs
    exact List.find?_eq_none.mp hfind s (List.mem_of_mem_filter hs)
  · have hr := List.mem_of_find?_eq_some hfind
    have hqr := List.find?_some hfind
    rcases hkept : (rows.filter p).find? q with _ | s
    · symm
      rw [Option.filter_eq_none_iff]
      intro s hs hps
      obtain rfl := Option.some.inj hs
      exact List.find?_eq_none.mp hkept r (List.mem_filter.mpr ⟨hr, hps⟩) hqr
    · obtain ⟨hs, hps⟩ := List.mem_filter.mp (List.mem_of_find?_eq_some hkept)
      obtain rfl := h r hr s hs hqr (List.find?_some hkept)
      rw [Option.filter_some, if_pos hps]

/-- Under the constraint a lookup among some of the rows finds the row, if it is one of them. -/
lemma Unique.find_filter {rows : List ρ} (h : Unique key rows) (p : ρ → Bool) (k : κ) :
    find key k (rows.filter p) = (find key k rows).filter p := by
  apply find?_filter_of_unique
  intro r hr s hs hrk hsk
  rw [decide_eq_true_eq] at hrk hsk
  exact h.eq_of_key_eq hr hs (hrk.trans hsk.symm)

lemma insert_eq_some_iff {row : ρ} {rows rows' : List ρ} :
    insert key row rows = some rows' ↔
      (∀ r ∈ rows, key r ≠ key row) ∧ rows' = rows ++ [row] := by
  unfold insert
  split
  · rename_i htaken
    obtain ⟨r, hr, hk⟩ := find_isSome_iff.mp htaken
    simpa using fun h => absurd hk (h r hr)
  · rename_i hfree
    rw [find_isSome_iff] at hfree
    push Not at hfree
    constructor
    · intro h
      exact ⟨hfree, (Option.some.inj h).symm⟩
    · rintro ⟨-, rfl⟩
      rfl

lemma Unique.insert {rows rows' : List ρ} {row : ρ} (h : Unique key rows)
    (hins : Table.insert key row rows = some rows') : Unique key rows' := by
  obtain ⟨hfree, rfl⟩ := insert_eq_some_iff.mp hins
  exact h.append hfree

lemma find_append_of_free {rows : List ρ} {row : ρ} (hfree : ∀ r ∈ rows, key r ≠ key row)
    (k : κ) : find key k (rows ++ [row]) = if key row = k then some row else find key k rows := by
  unfold find
  rw [List.find?_append]
  split
  · rename_i hk
    subst hk
    rw [List.find?_eq_none.mpr (by simpa using hfree)]
    simp
  · rename_i hk
    simp [hk]

lemma find_upsert (row : ρ) (rows : List ρ) (k : κ) :
    find key k (upsert key row rows) = if key row = k then some row else find key k rows := by
  unfold upsert
  rw [find_append_of_free (by simp)]
  split
  · rfl
  · rename_i hk
    unfold find
    rw [List.find?_filter]
    congr 1
    funext r
    by_cases hr : key r = k
    · subst hr
      simp [Ne.symm hk]
    · simp [hr]

end Table
