import Mathlib.Algebra.Order.Group.Int
import WhatsVault.Library.Table
import WhatsVault.Text

/-!
# The schema of `control.db`

The tables of the control database that the approval path, the templates and the window projection
read and write, one row type a table, with the CHECK constraints kept by the row types: a nonce is
32 bytes long, a window value is not negative, and an enumerated column is an inductive type.
`Control.empty` is the freshly migrated database.

A digest column carries no length constraint here, since what is written to it is always the
output of SHA-256.
-/

namespace WhatsVault

/-- `BLOB CHECK (length(nonce) = 32)`. -/
abbrev Nonce := { b : Bytes // b.length = 32 }

inductive DeviceStatus
  | active
  | revoked
  deriving DecidableEq, Repr

/-- A row of `approval_devices`. -/
structure Device where
  id : String
  name : String
  publicKey : Bytes
  agreementPublicKey : Option Bytes
  createdAtMs : Option ℤ
  status : DeviceStatus
  deriving DecidableEq

inductive DraftKind
  | text
  | template
  | markRead
  deriving DecidableEq, Repr

/-- The value stored for a kind. -/
def DraftKind.name : DraftKind → String
  | text => "text"
  | template => "template"
  | markRead => "mark_read"

/-- `CHECK (kind IN ('text','template','mark_read'))`. -/
def DraftKind.ofName (s : String) : Option DraftKind :=
  [DraftKind.text, .template, .markRead].find? fun k => k.name = s

inductive DraftState
  | draft
  | pendingApproval
  | approvalReceived
  | sending
  | submitting
  | submitted
  | expired
  | rejected
  | cancelled
  | failed
  | indeterminate
  | abandonedIndeterminate
  deriving DecidableEq, Repr

/-- A row of `drafts`. -/
structure Draft where
  id : String
  conversationId : String
  accountId : String
  phoneNumberId : String
  recipientWaId : Option String
  bodyBytes : Option Bytes
  bodySha256 : Option Bytes
  kind : DraftKind
  templateId : Option String
  templateParamsSha256 : Option Bytes
  attachmentsDigest : Option Bytes
  replyToWamid : Option String
  targetMessageWamid : Option String
  nonce : Option Nonce
  createdAtMs : Option ℤ
  expiresAtMs : Option ℤ
  state : DraftState
  deriving DecidableEq

inductive Decision
  | approve
  | reject
  deriving DecidableEq, Repr

def Decision.name : Decision → String
  | approve => "APPROVE"
  | reject => "REJECT"

def Decision.ofName (s : String) : Option Decision :=
  [Decision.approve, .reject].find? fun d => d.name = s

/-- A row of `approvals`. -/
structure Approval where
  approvalId : String
  draftId : String
  deviceId : String
  decision : Decision
  signature : Bytes
  envelope : Bytes
  nonce : Option Nonce
  deriving DecidableEq

/-- A row of `approval_nonces`. -/
structure ApprovalNonce where
  nonce : Nonce
  consumedBy : String
  consumedAtMs : ℤ
  deriving DecidableEq

inductive AttemptState
  | submitting
  | submitted
  | failed
  | indeterminate
  | abandonedIndeterminate
  deriving DecidableEq, Repr

/-- A row of `send_attempts`. -/
structure SendAttempt where
  id : String
  draftId : String
  idempotencyKey : String
  state : AttemptState
  wamid : Option String
  errorCode : Option String
  createdAtMs : ℤ
  updatedAtMs : ℤ
  deriving DecidableEq

/-- A row of `conversation_windows`. -/
structure ConversationWindow where
  conversationId : String
  lastInboundMs : ℤ
  nonneg : 0 ≤ lastInboundMs
  deriving DecidableEq

/-- What the `schema` column of a template says of its parameters: nothing (NULL, or an object
with no `params`), a JSON value that is not an object, or a number of parameters. -/
inductive TemplateSchema
  | unconstrained
  | notAnObject
  | arity (params : ℤ)
  deriving DecidableEq

/-- A row of `templates`. -/
structure Template where
  templateId : String
  name : String
  language : String
  status : String
  definitionVersion : ℤ
  schema : TemplateSchema
  deriving DecidableEq

structure Control where
  approvalDevices : List Device
  drafts : List Draft
  approvals : List Approval
  approvalNonces : List ApprovalNonce
  sendAttempts : List SendAttempt
  conversationWindows : List ConversationWindow
  templates : List Template
  deriving DecidableEq

namespace Control

/-- The database the migrations leave. -/
def empty : Control := ⟨[], [], [], [], [], [], []⟩

def device (c : Control) (id : String) : Option Device := Table.find Device.id id c.approvalDevices

def draft (c : Control) (id : String) : Option Draft := Table.find Draft.id id c.drafts

def window (c : Control) (conversationId : String) : Option ConversationWindow :=
  Table.find ConversationWindow.conversationId conversationId c.conversationWindows

end Control

end WhatsVault
