import WhatsVault.Library.Checks
import WhatsVault.Library.Ranking
import WhatsVault.Json
import WhatsVault.Search.Index

/-!
# The query compiler and the two search tiers

A `SearchQuery` is compiled to two MATCH strings.  Every user string is normalised, stripped and
quoted as an FTS5 phrase, and the filters become predicates on the joined message row.  `run` reads
the lexical tier through the limit and fills what room is left from the compact one, without the
messages it has.

An FTS5 table is a parameter: what its MATCH accepts, which documents match, and the rank a matched
document gets.  A document is what was indexed under its row id.  Rows of equal rank come in the
order of the table.
-/

namespace WhatsVault.Search

/-- What a read raises. -/
inductive Raised
  | queryTooComplex (reason : String)
  | valueError (reason : String)
  /-- `UnicodeEncodeError`: a string with a lone surrogate was encoded or bound. -/
  | unicodeEncodeError
  /-- `OverflowError`: an integer SQLite does not take. -/
  | overflowError
  /-- `sqlite3.OperationalError`: a MATCH string FTS5 does not parse. -/
  | operationalError
  deriving DecidableEq

def maxTerms : ℕ := 16
def maxQueryBytes : ℕ := 512
def maxNear : ℕ := 10
def maxLimit : ℤ := 200
def defaultLimit : ℤ := 50

structure SearchQuery where
  terms : List PyStr
  phrase : Option PyStr
  termPrefix : Option PyStr
  near : Option (List PyStr × ℤ)
  conversations : List PyStr
  contacts : List PyStr
  direction : Option PyStr
  fromMs : Option ℤ
  toMs : Option ℤ
  origins : List PyStr
  limit : Option ℤ
  deriving DecidableEq

/-- The defaults of the dataclass. -/
def SearchQuery.empty : SearchQuery :=
  ⟨[], none, none, none, [], [], none, none, none, [], some defaultLimit⟩

/-! ## Strings -/

/-- `_quote`. -/
def quote (tok : String) : String :=
  "\"" ++ String.ofList (tok.toList.flatMap fun c => if c.toNat = 34 then [c, c] else [c]) ++ "\""

/-- `" ".join(parts)`. -/
def joined (parts : List String) : String := " ".intercalate parts

/-- `x` where `if x:` holds. -/
def given (x : Option PyStr) : Option PyStr := x.filter PyStr.truthy

/-- What `.encode("utf-8")` and every SQL binding do first. -/
def encoded (s : PyStr) : Except Raised String := Checks.orStop s.encode .unicodeEncodeError

/-! ## Compilation -/

/-- `_caps`. -/
def caps (q : SearchQuery) : Except Raised Unit := do
  Checks.require (q.terms.length ≤ maxTerms) (.queryTooComplex "too many terms")
  Checks.require (∀ near ∈ q.near, near.1.length ≤ maxNear) (.queryTooComplex "NEAR list too wide")
  Checks.require (∀ limit ∈ q.limit, limit ≤ maxLimit) (.queryTooComplex "limit too high")

/-- `_guard_len`. -/
def guardLen (matchText : String) : Except Raised String := do
  Checks.require ((utf8 matchText).length ≤ maxQueryBytes)
    (.queryTooComplex "compiled query too long")
  pure matchText

variable (N : Normaliser)

/-- `normalise_query(t)[0].strip()`.  A lone surrogate passes through every fold and reaches the
`.encode` of `_guard_len`. -/
def lexicalForm (t : PyStr) : Except Raised String := do
  let s ← encoded t
  pure (strip (N.toSearch s))

/-- `normalise_query(t)[1].strip()`. -/
def compactForm (t : PyStr) : Except Raised String := do
  let s ← encoded t
  pure (strip (N.toCompact s))

/-- The parts that are not empty, quoted. -/
def quotedParts (forms : List String) : List String :=
  (forms.filter fun s => s ≠ "").map quote

/-- The NEAR group over its non-empty tokens. -/
def nearPart (forms : List String) (distance : ℤ) : List String :=
  let toks := quotedParts forms
  if toks = [] then [] else ["NEAR(" ++ joined toks ++ ", " ++ toString distance ++ ")"]

def compileLexical (q : SearchQuery) : Except Raised String := do
  caps q
  let terms ← q.terms.mapM (lexicalForm N)
  let phrase ← (given q.phrase).toList.mapM (lexicalForm N)
  let start ← (given q.termPrefix).toList.mapM (lexicalForm N)
  let near ← (q.near.elim [] Prod.fst).mapM (lexicalForm N)
  guardLen (joined (quotedParts terms ++ quotedParts phrase ++
    (quotedParts start).map (· ++ "*") ++ nearPart near (q.near.elim 0 Prod.snd)))

def compileCompact (q : SearchQuery) : Except Raised String := do
  caps q
  let forms ← (q.terms ++ (given q.phrase).toList).mapM (compactForm N)
  guardLen (joined ((forms.filter fun c => 3 ≤ c.length).map quote))

/-! ## Filters -/

/-- The bound parameters of `_filters`: an empty list or an absent value adds no predicate. -/
structure Filters where
  conversations : List String
  contacts : List String
  direction : Option String
  origins : List String
  fromMs : Option ℤ
  toMs : Option ℤ
  deriving DecidableEq

def boundInt (n : ℤ) : Except Raised ℤ := do
  Checks.require (fitsInt64 n = true) .overflowError
  pure n

def bindFilters (q : SearchQuery) : Except Raised Filters := do
  let conversations ← q.conversations.mapM encoded
  let contacts ← q.contacts.mapM encoded
  let direction ← (given q.direction).mapM encoded
  let origins ← q.origins.mapM encoded
  let fromMs ← q.fromMs.mapM boundInt
  let toMs ← q.toMs.mapM boundInt
  pure ⟨conversations, contacts, direction, origins, fromMs, toMs⟩

/-- `x IN (…)` on a nullable column. -/
def isIn (x : Option String) (values : List String) : Bool := values = [] ∨ ∃ v ∈ values, x = some v

/-- The WHERE clause on a joined message row; the time filters ask for overlap. -/
def Filters.admits (f : Filters) (m : Message) : Bool :=
  isIn (some m.conversationId) f.conversations ∧ isIn m.senderContactId f.contacts ∧
    (∀ direction ∈ f.direction, m.direction.name = direction) ∧
    isIn (some m.origin.name) f.origins ∧ (∀ ms ∈ f.fromMs, ms < m.tsUpperMsExclusive) ∧
    ∀ ms ∈ f.toMs, m.tsLowerMs < ms

/-! ## The tiers -/

inductive Tier
  | lexical
  | compact
  deriving DecidableEq, Repr

/-- An FTS5 table: the MATCH strings it parses, the documents a MATCH string hits, and `bm25` of a
matched document. -/
structure Fts (ρ : Type) where
  accepts : String → Bool
  hits : String → List String → Bool
  bm25 : String → ℕ → List String → ρ

/-- A row of a tier. -/
structure Row (ρ : Type) where
  messageId : String
  textOriginal : Option String
  conversationId : String
  rank : ρ
  tier : Tier
  deriving DecidableEq

/-- What is indexed under a row id. -/
def Tier.texts (tier : Tier) (s : SearchTables) (rowid : ℕ) : List String :=
  let fts := match tier with
    | lexical => s.ftsLexical
    | compact => s.ftsCompact
  (fts.filter fun entry => entry.1 = rowid).map Prod.snd

variable {ρ : Type} (F : Tier → Fts ρ)

/-- One row of the join of an FTS table with `search_documents` and `messages`, where it satisfies
the WHERE clause. -/
def joinedRow (tier : Tier) (matchText : String) (f : Filters) (v : Vault) (d : SearchDocument) :
    Option (Row ρ) :=
  let texts := tier.texts v.search d.rowid
  match v.message d.messageId with
  | some m =>
    if texts ≠ [] ∧ (F tier).hits matchText texts = true ∧ f.admits m = true then
      some ⟨d.messageId, m.textOriginal, m.conversationId, (F tier).bm25 matchText d.rowid texts,
        tier⟩
    else none
  | none => none

variable [LinearOrder ρ]

/-- The rows of a tier in rank order, before its LIMIT. -/
def tierRows (tier : Tier) (matchText : String) (f : Filters) (v : Vault) : List (Row ρ) :=
  Ranking.sortBy Row.rank (v.search.documents.filterMap (joinedRow F tier matchText f v))

/-- `LIMIT n`: a negative one is no limit. -/
def limited {α : Type} (n : ℤ) (rows : List α) : List α :=
  if n < 0 then rows else rows.take n.toNat

/-- `rows[:n]`. -/
def sliceTo {α : Type} (n : ℤ) (rows : List α) : List α :=
  rows.take (if n < 0 then rows.length - (-n).toNat else n.toNat)

/-- `_tier`. -/
def runTier (tier : Tier) (matchText : String) (q : SearchQuery) (limit : ℤ) (v : Vault) :
    Except Raised (List (Row ρ)) := do
  let f ← bindFilters q
  Checks.require (fitsInt64 limit = true) .overflowError
  Checks.require ((F tier).accepts matchText = true) .operationalError
  pure (limited limit (tierRows F tier matchText f v))

/-- A tier is read where its MATCH string is not empty and the loop has `room` for more. -/
def readTier (tier : Tier) (matchText : String) (room : Prop) [Decidable room] (q : SearchQuery)
    (limit : ℤ) (v : Vault) : Except Raised (List (Row ρ)) :=
  if matchText ≠ "" ∧ room then runTier F tier matchText q limit v else pure []

/-- The loop over the rows of a tier, with the results so far as the `seen` set. -/
def collect (results rows : List (Row ρ)) : List (Row ρ) :=
  rows.foldl (fun results r =>
    if r.messageId ∈ results.map Row.messageId then results else results ++ [r]) results

/-- `min(q.limit or DEFAULT_LIMIT, MAX_LIMIT)`. -/
def effectiveLimit (q : SearchQuery) : ℤ :=
  min ((q.limit.filter fun limit => limit ≠ 0).getD defaultLimit) maxLimit

def run (q : SearchQuery) (v : Vault) : Except Raised (List (Row ρ)) := do
  let limit := effectiveLimit q
  let lex ← compileLexical N q
  let found ← readTier F .lexical lex True q limit v
  let results := collect [] found
  let comp ← compileCompact N q
  let more ← readTier F .compact comp ((results.length : ℤ) < limit) q limit v
  pure (sliceTo limit (collect results more))

end WhatsVault.Search
