import WhatsVault.Library.Table

/-!
# A table and a mirror of it

A mirror of a table is kept outside of it as a bag of entries, one for each row, that is brought up
to date by hand: an entry is put in, or an exact entry is taken out.  `Mirrors` says that the bag is
the entries of the rows.  An insert keeps it so, and so does replacing a row when the entry of the row
it replaces is the one taken out.
-/

namespace Mirror

variable {ρ κ ε : Type*}

/-- The entries are those of the rows, each as often as rows have it. -/
def Mirrors (entry : ρ → ε) (rows : List ρ) (entries : List ε) : Prop :=
  entries.Perm (rows.map entry)

lemma mirrors_nil (entry : ρ → ε) : Mirrors entry [] [] := List.Perm.refl _

variable {entry : ρ → ε} {rows : List ρ} {entries : List ε}

lemma Mirrors.exists_row (h : Mirrors entry rows entries) {e : ε} (he : e ∈ entries) :
    ∃ r ∈ rows, entry r = e :=
  List.mem_map.mp (h.mem_iff.mp he)

lemma Mirrors.insert (h : Mirrors entry rows entries) (row : ρ) :
    Mirrors entry (rows ++ [row]) (entries ++ [entry row]) := by
  unfold Mirrors
  rw [List.map_append]
  exact h.append_right _

/-- Replacing a row by one with the same key. -/
theorem Mirrors.replace [DecidableEq κ] [BEq ε] [LawfulBEq ε] {key : ρ → κ}
    (h : Mirrors entry rows entries) (hunique : Table.Unique key rows) {old row : ρ}
    (hold : old ∈ rows) (hkey : key row = key old) :
    Mirrors entry (rows.map fun r => if key r = key row then row else r)
      (entries.erase (entry old) ++ [entry row]) := by
  obtain ⟨before, after, hrows, hmap⟩ := hunique.map_replace hold hkey
  have hentries : entries.Perm (entry old :: (before.map entry ++ after.map entry)) := by
    refine h.trans ?_
    rw [hrows, List.map_append, List.map_cons]
    exact List.perm_middle
  have hrest := hentries.erase (entry old)
  rw [List.erase_cons_head] at hrest
  unfold Mirrors
  rw [hmap, List.map_append, List.map_cons]
  refine (hrest.append_right _).trans ?_
  rw [List.append_assoc]
  exact List.Perm.append_left _ (List.perm_append_singleton _ _)

/-- Where the entries carry the key of their row, a mirror has one text for each row. -/
theorem Mirrors.filter_key {τ : Type*} [DecidableEq κ] {key : ρ → κ} {text : ρ → τ}
    {entries : List (κ × τ)} (h : Mirrors (fun r => (key r, text r)) rows entries)
    (hunique : Table.Unique key rows) {row : ρ} (hrow : row ∈ rows) :
    (entries.filter fun e => e.1 = key row).map Prod.snd = [text row] := by
  rw [← List.perm_singleton]
  have hperm := (h.filter fun e => e.1 = key row).map Prod.snd
  rw [List.filter_map, List.map_map] at hperm
  have hselected := hunique.filter_key hrow
  exact hperm.trans (.of_eq (congrArg (List.map text) hselected))

end Mirror
