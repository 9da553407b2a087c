import Mathlib.Algebra.Order.Group.Int
import WhatsVault.Library.Table
import WhatsVault.Text

/-!
# The schema of `vault.db`

The tables of the evidence vault, one row type a table and in four groups by who writes them: the
evidence that ingest and import append, the bookkeeping of imports, the derived search tables, and
the operational state of ingest.  A row's enumerated columns are inductive types, and the CHECK on a
message's time interval is a field of its row.

A column no modelled function reads is left out, and so is the generated id of a row that is never
looked up by it (`ingest_events`, `message_status_events`, `ingest_dlq`, `conversation_sources`);
generated ids do not collide.
-/

namespace WhatsVault

/-! ## Evidence -/

/-- A row of `accounts`. -/
structure Account where
  id : String
  phoneNumberId : String
  deriving DecidableEq

/-- A row of `contacts`. -/
structure Contact where
  id : String
  waId : Option String
  displayName : Option String
  pushName : Option String
  deriving DecidableEq

inductive ConversationType
  | dm
  | group
  deriving DecidableEq, Repr

/-- The value stored for a type. -/
def ConversationType.name : ConversationType → String
  | dm => "dm"
  | group => "group"

inductive Visibility
  | allowMcp
  | localOnly
  deriving DecidableEq, Repr

/-- A row of `conversations`. -/
structure Conversation where
  id : String
  accountId : String
  type : ConversationType
  waChatId : Option String
  subject : Option String
  lastMessageMs : Option ℤ
  mcpVisibility : Visibility
  deriving DecidableEq

inductive Direction
  | inbound
  | outbound
  deriving DecidableEq, Repr

def Direction.name : Direction → String
  | inbound => "in"
  | outbound => "out"

inductive Precision
  | ms
  | s
  | min
  | day
  deriving DecidableEq, Repr

def Precision.name : Precision → String
  | ms => "ms"
  | s => "s"
  | min => "min"
  | day => "day"

inductive Origin
  | cloudApi
  | businessAppEcho
  | historySync
  | manualExport
  deriving DecidableEq, Repr

def Origin.name : Origin → String
  | cloudApi => "cloud_api"
  | businessAppEcho => "business_app_echo"
  | historySync => "history_sync"
  | manualExport => "manual_export"

/-- A row of `messages`. -/
structure Message where
  id : String
  accountId : String
  conversationId : String
  senderContactId : Option String
  direction : Direction
  tsLowerMs : ℤ
  tsUpperMsExclusive : ℤ
  tsPrecision : Precision
  tzName : Option String
  type : String
  textOriginal : Option String
  replyToWamid : Option String
  origin : Origin
  windowEligible : Bool
  wamid : Option String
  importFingerprint : Option String
  deliveryRank : ℕ
  interval : tsLowerMs < tsUpperMsExclusive
  deriving DecidableEq

/-- A row of `message_status_events`. -/
structure StatusEvent where
  wamid : String
  status : String
  providerTsMs : ℤ
  recipientId : Option String
  deriving DecidableEq

inductive Family
  | messageInbound
  | messageEcho
  | messageStatus
  | historyEvent
  | systemEvent
  | unknownSupported
  deriving DecidableEq, Repr

/-- A row of `ingest_events`; the provider is always `meta`. -/
structure IngestEvent where
  externalEventId : Option String
  semanticEventKey : String
  family : Family
  providerTsMs : Option ℤ
  receivedAtMs : ℤ
  rawPayloadSha256 : String
  rawPayload : Bytes
  deriving DecidableEq

structure Evidence where
  accounts : List Account
  contacts : List Contact
  conversations : List Conversation
  messages : List Message
  statusEvents : List StatusEvent
  ingestEvents : List IngestEvent
  deriving DecidableEq

/-! ## Imports -/

/-- A row of `import_batches`. -/
structure ImportBatch where
  id : String
  sourceSha256 : String
  sourceArtifact : Option (String × String)
  declaredDateFormat : String
  declaredTimezone : String
  selfParticipantLabel : String
  messageCount : ℕ
  systemEventCount : ℕ
  undoneAtMs : Option ℤ
  deriving DecidableEq

/-- A row of `import_participants`. -/
structure ImportParticipant where
  id : String
  importBatchId : String
  rawDisplayName : String
  deriving DecidableEq

/-- A row of `message_import_observations`. -/
structure Observation where
  batchId : String
  messageId : String
  senderImportParticipantId : String
  sourceOrdinal : ℕ
  sourceStartOffset : ℕ
  sourceEndOffset : ℕ
  sourceFingerprint : String
  deriving DecidableEq

/-- A row of `conversation_sources`. -/
structure ConversationSource where
  conversationId : String
  accountId : String
  importBatchId : String
  deriving DecidableEq

structure Imports where
  batches : List ImportBatch
  participants : List ImportParticipant
  observations : List Observation
  sources : List ConversationSource
  deriving DecidableEq

/-! ## Search -/

/-- A row of `search_documents`. -/
structure SearchDocument where
  rowid : ℕ
  messageId : String
  normaliserVersion : ℤ
  textSearch : String
  textCompact : String
  deriving DecidableEq

/-- The document table and the two external-content full-text indexes over it, each as the pairs of
a row id and a text that were put into it. -/
structure SearchTables where
  documents : List SearchDocument
  ftsLexical : List (ℕ × String)
  ftsCompact : List (ℕ × String)
  deriving DecidableEq

/-! ## Ingest operation -/

/-- A row of `ingest_dlq`. -/
structure DlqRow where
  eventIdHash : Option String
  envelope : Bytes
  failureClass : String
  failureCode : String
  pipelineStage : String
  recipientKeyId : Option ℕ
  cryptoVersion : Option ℕ
  envelopeVersion : Option ℕ
  ciphertextSha256 : Option String
  sanitisedDetail : String
  firstSeenMs : ℤ
  deriving DecidableEq

/-- The one row of `ingest_state`: closed, or tripped at a time for a reason. -/
inductive Circuit
  | closed
  | tripped (atMs : ℤ) (reason : String)
  deriving DecidableEq

structure Vault where
  evidence : Evidence
  imports : Imports
  search : SearchTables
  ingestDlq : List DlqRow
  circuit : Circuit
  deriving DecidableEq

namespace Vault

/-- The database the migrations leave. -/
def empty : Vault where
  evidence := ⟨[], [], [], [], [], []⟩
  imports := ⟨[], [], [], []⟩
  search := ⟨[], [], []⟩
  ingestDlq := []
  circuit := .closed

def message (v : Vault) (id : String) : Option Message :=
  Table.find Message.id id v.evidence.messages

def contact (v : Vault) (id : String) : Option Contact :=
  Table.find Contact.id id v.evidence.contacts

def conversation (v : Vault) (id : String) : Option Conversation :=
  Table.find Conversation.id id v.evidence.conversations

end Vault

end WhatsVault
