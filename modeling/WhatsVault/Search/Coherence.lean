import Mathlib.Data.List.MinMax
import WhatsVault.Library.Mirror
import WhatsVault.Search.Index

/-!
# The index tables stay coherent

There is one document a message, and each of the two full-text indexes mirrors the texts of the
documents (`Coherent`).  `stage_message` keeps it so because what it has FTS5 delete is the old text of
the document it updates.  Which messages have a document is a set that staging extends by one
(`indexed_stageMessage`), that `reindex_stale` leaves alone and that `rebuild_all` makes the messages
with a text.
-/

namespace WhatsVault.Search

def lexicalEntry (d : SearchDocument) : ℕ × String := (d.rowid, d.textSearch)

def compactEntry (d : SearchDocument) : ℕ × String := (d.rowid, d.textCompact)

structure Coherent (s : SearchTables) : Prop where
  rowids : Table.Unique SearchDocument.rowid s.documents
  messageIds : Table.Unique SearchDocument.messageId s.documents
  lexical : Mirror.Mirrors lexicalEntry s.documents s.ftsLexical
  compact : Mirror.Mirrors compactEntry s.documents s.ftsCompact

lemma Coherent.empty : Coherent ⟨[], [], []⟩ :=
  ⟨Table.unique_nil _, Table.unique_nil _, Mirror.mirrors_nil _, Mirror.mirrors_nil _⟩

/-- The message has a document. -/
def Indexed (s : SearchTables) (messageId : String) : Prop :=
  ∃ d ∈ s.documents, d.messageId = messageId

instance (s : SearchTables) (messageId : String) : Decidable (Indexed s messageId) :=
  inferInstanceAs (Decidable (∃ d ∈ s.documents, d.messageId = messageId))

lemma not_indexed_empty (messageId : String) : ¬ Indexed ⟨[], [], []⟩ messageId := by
  simp [Indexed]

variable {s : SearchTables} {v : Vault} (N : Normaliser) {messageId : String} (text : String)

lemma rowid_lt_nextRowid {d : SearchDocument} (hd : d ∈ s.documents) : d.rowid < nextRowid s := by
  have hle : d.rowid ≤ (s.documents.map SearchDocument.rowid).foldr max 0 :=
    List.le_max_of_le' 0 (List.mem_map_of_mem hd) le_rfl
  unfold nextRowid
  omega

/-! ## One document -/

def addDocument (row : SearchDocument) (s : SearchTables) : SearchTables :=
  ⟨s.documents ++ [row], s.ftsLexical ++ [lexicalEntry row], s.ftsCompact ++ [compactEntry row]⟩

/-- The new row in the place of the old one, and its texts for the old ones. -/
def replaceDocument (old row : SearchDocument) (s : SearchTables) : SearchTables :=
  ⟨s.documents.map fun d => if d.rowid = row.rowid then row else d,
    s.ftsLexical.erase (lexicalEntry old) ++ [lexicalEntry row],
    s.ftsCompact.erase (compactEntry old) ++ [compactEntry row]⟩

lemma stageMessage_of_none (h : document messageId s = none) :
    stageMessage N messageId text s =
      addDocument (documentRow N (nextRowid s) messageId text) s := by
  unfold stageMessage stageStatements
  rw [h]
  rfl

lemma stageMessage_of_some {old : SearchDocument} (h : document messageId s = some old) :
    stageMessage N messageId text s =
      replaceDocument old (documentRow N old.rowid messageId text) s := by
  unfold stageMessage stageStatements
  rw [h]
  rfl

lemma Coherent.addDocument (h : Coherent s) {row : SearchDocument}
    (hrowid : ∀ d ∈ s.documents, d.rowid ≠ row.rowid)
    (hmessage : ∀ d ∈ s.documents, d.messageId ≠ row.messageId) : Coherent (addDocument row s) where
  rowids := h.rowids.append hrowid
  messageIds := h.messageIds.append hmessage
  lexical := h.lexical.insert row
  compact := h.compact.insert row

lemma Coherent.replaceDocument (h : Coherent s) {old row : SearchDocument}
    (hold : old ∈ s.documents) (hrowid : row.rowid = old.rowid)
    (hmessage : row.messageId = old.messageId) : Coherent (replaceDocument old row s) where
  rowids := by
    unfold Table.Unique
    exact (h.rowids.map_map_replace hold hrowid hrowid) ▸ h.rowids
  messageIds := by
    unfold Table.Unique
    exact (h.rowids.map_map_replace hold hrowid hmessage) ▸ h.messageIds
  lexical := h.lexical.replace h.rowids hold hrowid
  compact := h.compact.replace h.rowids hold hrowid

theorem Coherent.stageMessage (h : Coherent s) : Coherent (stageMessage N messageId text s) := by
  rcases hfind : document messageId s with _ | old
  · rw [stageMessage_of_none N text hfind]
    refine h.addDocument (fun d hd => ?_) (Table.find_eq_none_iff.mp hfind)
    exact (rowid_lt_nextRowid hd).ne
  · obtain ⟨hold, hmessage⟩ := Table.mem_of_find_eq_some hfind
    rw [stageMessage_of_some N text hfind]
    exact h.replaceDocument hold rfl hmessage.symm

lemma indexed_iff (s : SearchTables) (id : String) :
    Indexed s id ↔ id ∈ s.documents.map SearchDocument.messageId := by
  simp [Indexed]

/-- Staging a message gives it a document, and takes none away. -/
theorem indexed_stageMessage (h : Coherent s) (id : String) :
    Indexed (stageMessage N messageId text s) id ↔ Indexed s id ∨ id = messageId := by
  rcases hfind : document messageId s with _ | old
  · rw [stageMessage_of_none N text hfind, indexed_iff, indexed_iff]
    simp [Search.addDocument, documentRow]
  · obtain ⟨hold, hmessage⟩ := Table.mem_of_find_eq_some hfind
    have hsame : Indexed (Search.stageMessage N messageId text s) id ↔ Indexed s id := by
      rw [stageMessage_of_some N text hfind, indexed_iff, indexed_iff]
      have hrowid : (documentRow N old.rowid messageId text).rowid = old.rowid := rfl
      unfold Search.replaceDocument
      rw [h.rowids.map_map_replace hold hrowid hmessage.symm]
    rw [hsame, iff_self_or]
    rintro rfl
    exact ⟨old, hold, hmessage⟩

/-! ## Loops over documents -/

section Loop

variable {β : Type*} (messageIdOf : β → String) (textOf : Vault → β → String)

/-- What a loop of stagings does. -/
structure Staged (ids : List String) (v v' : Vault) : Prop where
  frame : v' = { v with search := v'.search }
  coherent : Coherent v'.search
  indexed : ∀ id, Indexed v'.search id ↔ Indexed v.search id ∨ id ∈ ids

lemma staged_foldl (h : Coherent v.search) (items : List β) :
    Staged (items.map messageIdOf) v
      (items.foldl (fun v b => stageIn N (messageIdOf b) (textOf v b) v) v) := by
  induction items generalizing v with
  | nil => exact ⟨rfl, h, by simp⟩
  | cons b items ih =>
    have hnext : Coherent (stageIn N (messageIdOf b) (textOf v b) v).search := h.stageMessage N _
    have hrest := ih hnext
    refine ⟨?_, hrest.coherent, fun id => ?_⟩
    · rw [List.foldl_cons, hrest.frame]
      rfl
    · rw [List.foldl_cons, hrest.indexed, List.map_cons, List.mem_cons, ← or_assoc]
      exact or_congr_left (indexed_stageMessage N (textOf v b) h id)

end Loop

/-- `reindex_stale` keeps what is indexed. -/
theorem staged_reindexStale (h : Coherent v.search) : Staged [] v (reindexStale N v) := by
  have hloop := staged_foldl N SearchDocument.messageId (fun v d => storedText v d.messageId) h
    (v.search.documents.filter fun d => d.normaliserVersion ≠ N.version)
  refine ⟨hloop.frame, hloop.coherent, fun id => ?_⟩
  rw [reindexStale, hloop.indexed id, List.mem_map]
  constructor
  · rintro (hindexed | ⟨d, hd, rfl⟩)
    · exact .inl hindexed
    · exact .inl ⟨d, List.mem_of_mem_filter hd, rfl⟩
  · rintro (hindexed | hnil)
    · exact .inl hindexed
    · exact absurd hnil List.not_mem_nil

/-- `rebuild_all` indexes the messages with a text, and no others. -/
theorem rebuildAll_spec (v : Vault) :
    rebuildAll N v = { v with search := (rebuildAll N v).search } ∧
      Coherent (rebuildAll N v).search ∧
      ∀ id, Indexed (rebuildAll N v).search id ↔
        ∃ m ∈ v.evidence.messages, m.id = id ∧ m.textOriginal ≠ none := by
  have hloop := staged_foldl (v := { v with search := ⟨[], [], []⟩ }) N Prod.fst
    (fun (_ : Vault) (m : String × String) => m.2) Coherent.empty (indexable v)
  refine ⟨hloop.frame, hloop.coherent, fun id => (hloop.indexed id).trans ?_⟩
  rw [or_iff_right (not_indexed_empty id), List.mem_map]
  constructor
  · rintro ⟨⟨_, text⟩, hmem, rfl⟩
    obtain ⟨m, hm, hpair⟩ := List.mem_filterMap.mp hmem
    obtain ⟨text, htext, hpair⟩ := Option.map_eq_some_iff.mp hpair
    obtain ⟨rfl, rfl⟩ := Prod.mk.inj hpair
    exact ⟨m, hm, rfl, by simp [htext]⟩
  · rintro ⟨m, hm, rfl, htext⟩
    obtain ⟨text, htext⟩ := Option.ne_none_iff_exists'.mp htext
    exact ⟨(m.id, text), List.mem_filterMap.mpr ⟨m, hm, by rw [htext]; rfl⟩, rfl⟩

end WhatsVault.Search
