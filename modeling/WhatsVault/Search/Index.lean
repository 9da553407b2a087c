import WhatsVault.Vault.Schema

/-!
# Index maintenance

`stage_message` writes the index rows of one message inside its caller's transaction.  It is given
here as the list of its statements, so that a call that fails at one of them leaves the effect of
those before it.  A full-text index is a list of (row id, text) pairs; its `delete` command removes
one occurrence of the exact pair it is given, and its insert adds one.
-/

namespace WhatsVault.Search

/-- `search/normalise.py`: the two normal forms of a text and the version that names them. -/
structure Normaliser where
  toSearch : String → String
  toCompact : String → String
  version : ℤ

def document (messageId : String) (s : SearchTables) : Option SearchDocument :=
  Table.find SearchDocument.messageId messageId s.documents

/-- The row id SQLite gives a new document: one above the largest. -/
def nextRowid (s : SearchTables) : ℕ :=
  (s.documents.map SearchDocument.rowid).foldr max 0 + 1

/-- A statement on the search tables. -/
abbrev Statement := SearchTables → SearchTables

def deleteLexical (rowid : ℕ) (text : String) : Statement := fun s =>
  { s with ftsLexical := s.ftsLexical.erase (rowid, text) }

def deleteCompact (rowid : ℕ) (text : String) : Statement := fun s =>
  { s with ftsCompact := s.ftsCompact.erase (rowid, text) }

def updateDocument (row : SearchDocument) : Statement := fun s =>
  { s with documents := s.documents.map fun d => if d.rowid = row.rowid then row else d }

def insertDocument (row : SearchDocument) : Statement := fun s =>
  { s with documents := s.documents ++ [row] }

def insertLexical (rowid : ℕ) (text : String) : Statement := fun s =>
  { s with ftsLexical := s.ftsLexical ++ [(rowid, text)] }

def insertCompact (rowid : ℕ) (text : String) : Statement := fun s =>
  { s with ftsCompact := s.ftsCompact ++ [(rowid, text)] }

/-- The document `stage_message` writes for a text. -/
def documentRow (N : Normaliser) (rowid : ℕ) (messageId text : String) : SearchDocument where
  rowid := rowid
  messageId := messageId
  normaliserVersion := N.version
  textSearch := N.toSearch text
  textCompact := N.toCompact text

/-- The statements of `stage_message`, for the tables it finds. -/
def stageStatements (N : Normaliser) (messageId text : String) (s : SearchTables) :
    List Statement :=
  match document messageId s with
  | some old =>
    [deleteLexical old.rowid old.textSearch, deleteCompact old.rowid old.textCompact,
      updateDocument (documentRow N old.rowid messageId text),
      insertLexical old.rowid (N.toSearch text), insertCompact old.rowid (N.toCompact text)]
  | none =>
    let rowid := nextRowid s
    [insertDocument (documentRow N rowid messageId text), insertLexical rowid (N.toSearch text),
      insertCompact rowid (N.toCompact text)]

def execute (statements : List Statement) (s : SearchTables) : SearchTables :=
  statements.foldl (fun s f => f s) s

/-- `stage_message`. -/
def stageMessage (N : Normaliser) (messageId text : String) (s : SearchTables) : SearchTables :=
  execute (stageStatements N messageId text s) s

/-- `stage_message` that fails after its first `n` statements. -/
def stagePartially (N : Normaliser) (n : ℕ) (messageId text : String) (s : SearchTables) :
    SearchTables :=
  execute ((stageStatements N messageId text s).take n) s

/-- The text of a message as `reindex_stale` reads it: empty for one that is gone. -/
def storedText (v : Vault) (messageId : String) : String :=
  ((v.message messageId).bind Message.textOriginal).getD ""

def stageIn (N : Normaliser) (messageId text : String) (v : Vault) : Vault :=
  { v with search := stageMessage N messageId text v.search }

/-- `reindex_stale`, before its commit. -/
def reindexStale (N : Normaliser) (v : Vault) : Vault :=
  let stale := v.search.documents.filter fun d => d.normaliserVersion ≠ N.version
  stale.foldl (fun v d => stageIn N d.messageId (storedText v d.messageId) v) v

/-- The messages `rebuild_all` stages, with their texts. -/
def indexable (v : Vault) : List (String × String) :=
  v.evidence.messages.filterMap fun m => m.textOriginal.map fun text => (m.id, text)

/-- `rebuild_all`, before its commit. -/
def rebuildAll (N : Normaliser) (v : Vault) : Vault :=
  (indexable v).foldl (fun v m => stageIn N m.1 m.2 v) { v with search := ⟨[], [], []⟩ }

end WhatsVault.Search
