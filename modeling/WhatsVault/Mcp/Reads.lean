import Mathlib.Data.Prod.Lex
import Mathlib.Data.String.Basic
import Mathlib.Order.WithBot
import WhatsVault.Control.Window
import WhatsVault.Ingest.Status
import WhatsVault.Mcp.Present
import WhatsVault.Search.Query

/-!
# The read tools

The five reads of messages and conversations, each over a vault and a control database.  The
conversations marked LOCAL_ONLY are left out at a different place in each of them: after the search
has run, before the messages are read, in the WHERE clause of the chat list, after the message was
looked up, before the window is read.
-/

namespace WhatsVault.Mcp

open WhatsVault.Search (Raised SearchQuery Tier encoded boundInt)

/-- The two databases, with the constraints the reads rely on: two PRIMARY KEYs, and the UNIQUE
message id of an index document. -/
structure Databases where
  vault : Vault
  control : Control
  conversationIds : Table.Unique Conversation.id vault.evidence.conversations
  messageIds : Table.Unique Message.id vault.evidence.messages
  documentIds : Table.Unique SearchDocument.messageId vault.search.documents

/-- What the reads call: the platform, the normaliser, the FTS5 tables, `str.isdigit`, and SQLite's
`LIKE` of a pattern and a text. -/
structure Runtime (ρ : Type) where
  platform : Platform
  stdlib : Stdlib
  normaliser : Search.Normaliser
  fts : Tier → Search.Fts ρ
  isDigit : Char → Bool
  like : String → String → Bool

/-- `acl.local_only_ids`. -/
def localOnlyIds (v : Vault) : List String :=
  (v.evidence.conversations.filter fun c => c.mcpVisibility = .localOnly).map Conversation.id

section Tools

variable {ρ : Type} (R : Runtime ρ)

/-- `_clamp`.  `int(inf)` raises `OverflowError`, which the handler does not catch. -/
def clamp (limit : Json) : Except Raised ℕ :=
  match limit with
  | .float (.inf _) => .error .overflowError
  | _ => do
    let n ← Checks.orStop (limit.toInt R.stdlib) (.valueError "limit must be an integer")
    pure (max 1 (min n Search.maxLimit)).toNat

/-- `_contact`. -/
def readContact (v : Vault) (contactId : Option String) : Option Contact :=
  (nonempty contactId).bind v.contact

/-- `_view`. -/
def view (v : Vault) (m : Message) : MessageView :=
  messageView R.platform R.isDigit m (readContact v m.senderContactId)

/-- A message as `search` returns it. -/
structure Hit (ρ : Type) where
  view : MessageView
  rank : ρ
  tier : Tier
  deriving DecidableEq

/-- One turn of the loop of `search`. -/
def toHit (v : Vault) (r : Search.Row ρ) : Option (Hit ρ) :=
  if r.conversationId ∈ localOnlyIds v then none
  else (v.message r.messageId).map fun m => ⟨view R v m, r.rank, r.tier⟩

def search [LinearOrder ρ] (q : SearchQuery) (v : Vault) : Except Raised (List (Hit ρ)) := do
  let rows ← Search.run R.normaliser R.fts q v
  pure (rows.filterMap (toHit R v))

/-- The WHERE clause of `get_messages`. -/
def inConversation (conversationId : String) (fromMs toMs : Option ℤ) (m : Message) : Bool :=
  m.conversationId = conversationId ∧ (∀ ms ∈ fromMs, ms < m.tsUpperMsExclusive) ∧
    ∀ ms ∈ toMs, m.tsLowerMs < ms

def getMessages (conversationId : PyStr) (fromMs toMs : Option ℤ) (limit : Json) (v : Vault) :
    Except Raised (List MessageView) := do
  let id ← encoded conversationId
  match v.conversation id with
  | none => pure []
  | some c =>
    if c.mcpVisibility = .localOnly then pure []
    else do
      let n ← clamp R limit
      let fromMs ← fromMs.mapM boundInt
      let toMs ← toMs.mapM boundInt
      let rows := v.evidence.messages.filter (inConversation id fromMs toMs)
      let sorted := Ranking.sortBy (fun m => toLex (m.tsLowerMs, m.id)) rows
      pure ((sorted.take n).map (view R v))

/-- A row of `list_chats`. -/
structure ChatView where
  conversationId : String
  type : String
  subject : Option Untrusted
  lastMessageMs : Option ℤ
  deriving DecidableEq

def chatView (c : Conversation) : ChatView where
  conversationId := c.id
  type := c.type.name
  subject := untrusted c.subject
  lastMessageMs := c.lastMessageMs

/-- The WHERE clause of `list_chats`; a NULL subject is like nothing. -/
def isListed (pattern : Option String) (c : Conversation) : Bool :=
  c.mcpVisibility ≠ .localOnly ∧ ∀ p ∈ pattern, ∃ subject ∈ c.subject, R.like p subject = true

/-- The sort key of `ORDER BY last_message_ms DESC`, with NULL last. -/
def recency (c : Conversation) : OrderDual (WithBot ℤ) :=
  OrderDual.toDual (c.lastMessageMs.elim ⊥ fun ms => (ms : WithBot ℤ))

def listChats (query : Option PyStr) (limit : Json) (v : Vault) :
    Except Raised (List ChatView) := do
  let n ← clamp R limit
  let pattern ← (Search.given query).mapM encoded
  let rows := v.evidence.conversations.filter (isListed R (pattern.map fun s => "%" ++ s ++ "%"))
  pure (((Ranking.sortBy recency rows).take n).map chatView)

def getMessageStatus (messageId : PyStr) (v : Vault) : Except Raised (Option Ingest.Reduced) := do
  let id ← encoded messageId
  match v.message id with
  | none => pure none
  | some m =>
    if m.conversationId ∈ localOnlyIds v then pure none
    else
      match nonempty m.wamid with
      | none => pure (some .none)
      | some wamid =>
        let events := v.evidence.statusEvents.filter fun e => e.wamid = wamid
        pure (some (Ingest.reduceStatus events))

structure WindowView where
  isOpen : Bool
  lastInboundMs : ℤ
  closesAtMs : ℤ
  deriving DecidableEq

def getConversationWindow (conversationId : PyStr) (nowMs : ℤ) (v : Vault) (c : Control) :
    Except Raised WindowView := do
  let id ← encoded conversationId
  if id ∈ localOnlyIds v then pure ⟨false, 0, Control.windowMs⟩
  else
    let last := c.lastInboundMs id
    pure ⟨0 < last ∧ nowMs < last + Control.windowMs, last, last + Control.windowMs⟩

end Tools

/-! ## Calls -/

/-- A call of a read tool with its arguments. -/
inductive Call
  | search (q : SearchQuery)
  | getMessages (conversationId : PyStr) (fromMs toMs : Option ℤ) (limit : Json)
  | listChats (query : Option PyStr) (limit : Json)
  | getMessageStatus (messageId : PyStr)
  | getConversationWindow (conversationId : PyStr) (nowMs : ℤ)

inductive Answer (ρ : Type)
  | hits (rows : List (Hit ρ))
  | messages (rows : List MessageView)
  | chats (rows : List ChatView)
  | status (reduced : Option Ingest.Reduced)
  | window (row : WindowView)
  deriving DecidableEq

/-- The ids of messages and conversations in an answer, in its order. -/
def Answer.ids {ρ : Type} : Answer ρ → List String
  | hits rows => rows.map fun h => h.view.messageId
  | messages rows => rows.map MessageView.messageId
  | chats rows => rows.map ChatView.conversationId
  | status _ | window _ => []

def answer {ρ : Type} [LinearOrder ρ] (R : Runtime ρ) (s : Databases) :
    Call → Except Raised (Answer ρ)
  | .search q => (search R q s.vault).map .hits
  | .getMessages conversationId fromMs toMs limit =>
    (getMessages R conversationId fromMs toMs limit s.vault).map .messages
  | .listChats query limit => (listChats R query limit s.vault).map .chats
  | .getMessageStatus messageId => (getMessageStatus messageId s.vault).map .status
  | .getConversationWindow conversationId nowMs =>
    (getConversationWindow conversationId nowMs s.vault s.control).map .window

end WhatsVault.Mcp
