import WhatsVault.Approval.Drafts
import WhatsVault.Control.Window
import WhatsVault.Library.Transaction

/-!
# The sender

`executeWrite` is the permission-to-transmit transaction: it recomputes the canonical bytes from
the stored draft, verifies the envelope's signature over them, evaluates the policy again, consumes
a nonce, opens an attempt, commits and only then calls the provider.  `authorise` is its part before
the first write.

Two records feed it.  The signed bytes come from the draft, `canonicalFields` taking only the
decision and the device from the envelope, while the nonce it consumes is the envelope's own.  The
module keeps the two apart as the code does.
-/

namespace WhatsVault.Sender

open Checks Transaction

/-- The envelope dictionary.  An entry is `none` where reading it raises: it is missing, or is not
of the type its first use needs. -/
structure Envelope where
  draftId : Option String
  decision : Option String
  deviceId : Option String
  signature : Option Bytes
  nonce : Option Bytes
  deriving DecidableEq

/-- The sender's process: its connection to the control database and its clock guard. -/
structure Process where
  control : Conn Control
  clock : ClockGuard
  deriving DecidableEq

/-- How a call ends without a send. -/
inductive Stop
  | refused (reason : String)
  | denied (reason : String)
  | raised
  deriving DecidableEq, Repr

/-- What the provider does with the message. -/
inductive ProviderReply
  | timeoutAfterSend
  | connectFailed
  | submitted (wamid : Option String)
  | rejected (errorCode : Option String)
  | raises
  deriving DecidableEq, Repr

/-- Where the process dies inside a call, if it does. -/
inductive Crash
  | beforeCommit
  | afterCommit
  | afterSend
  deriving DecidableEq, Repr

/-- `_canonical_fields(draft, env)`. -/
def canonicalFields (draft : Draft) (decision deviceId : String) : Canonical.Fields where
  decision := some decision
  draftId := some draft.id
  accountId := some draft.accountId
  phoneNumberId := some draft.phoneNumberId
  recipientWaId := draft.recipientWaId
  bodySha256 := draft.bodySha256
  kind := some draft.kind.name
  templateId := draft.templateId
  templateParamsSha256 := draft.templateParamsSha256
  replyToWamid := draft.replyToWamid
  targetMessageWamid := draft.targetMessageWamid
  attachmentsDigest := draft.attachmentsDigest
  nonce := draft.nonce.map Subtype.val
  createdAtMs := draft.createdAtMs
  expiresAtMs := draft.expiresAtMs
  deviceId := some deviceId

/-- `verify.verify`. -/
def verify (P : Platform) (payload signature publicKey : Bytes) : Bool :=
  signature.length = 64 ∧ P.ecdsaVerify payload signature publicKey

/-- The context `execute_write` hands to the policy. -/
def sendContext (c : Control) (draft : Draft) (now : ℤ) : PolicyContext where
  recipientWaId := draft.recipientWaId
  kind := draft.kind.name
  nowMs := some now
  expiresAtMs := draft.expiresAtMs
  windowOpen := c.windowOpen draft.conversationId now

/-- What `execute_write` has established when it reaches its first write. -/
structure Permit where
  draft : Draft
  deviceId : String
  signingPub : Bytes
  signature : Bytes
  payload : Bytes
  body : Bytes
  deriving DecidableEq

/-- `execute_write` up to the policy. -/
def authorise (P : Platform) (c : Control) (now : ℤ) (env : Envelope) : Except Stop Permit := do
  let draftId ← orStop env.draftId .raised
  let draft ← orStop (c.draft draftId) (.denied "UNKNOWN_DRAFT")
  let decision ← orStop env.decision .raised
  require (decision = "APPROVE") (.denied "NOT_APPROVED")
  let deviceId ← orStop env.deviceId .raised
  let signingPub ← orStop (Devices.activeSigningKey c deviceId) (.denied "DEVICE_INACTIVE")
  let payload ← orStop (Canonical.encode (canonicalFields draft decision deviceId)) .raised
  let signature ← orStop env.signature .raised
  require (verify P payload signature signingPub) (.denied "SIGNATURE_INVALID")
  let body := draft.bodyBytes.getD []
  require (draft.bodySha256.all fun digest => digest = P.sha256 body) (.denied "PAYLOAD_CHANGED")
  let failed := evaluate (sendContext c draft now)
  require (failed = []) (.denied (failed.headD ""))
  pure ⟨draft, deviceId, signingPub, signature, payload, body⟩

/-- The INSERT into `approval_nonces`. -/
def consumeNonce (env : Envelope) (draftId : String) (now : ℤ) (c : Control) :
    Except Stop (Nonce × Control) := do
  let nonce ← orStop env.nonce .raised
  require (fitsInt64 now) .raised
  if h : nonce.length = 32 then
    let row := ⟨⟨nonce, h⟩, draftId, now⟩
    let rows ← orStop (Table.insert ApprovalNonce.nonce row c.approvalNonces)
      (.denied "APPROVAL_ALREADY_CONSUMED")
    pure (⟨nonce, h⟩, { c with approvalNonces := rows })
  else .error (.denied "APPROVAL_ALREADY_CONSUMED")

def idempotencyKey (P : Platform) (draftId : String) (nonce : Nonce) : String :=
  P.hexdigest (utf8 draftId ++ nonce)

/-- The INSERT into `send_attempts`. -/
def openAttempt (P : Platform) (attemptId draftId : String) (nonce : Nonce) (now : ℤ)
    (c : Control) : Option Control :=
  let row := ⟨attemptId, draftId, idempotencyKey P draftId nonce, .submitting, none, none, now, now⟩
  if ∀ a ∈ c.sendAttempts, a.id ≠ row.id ∧ a.idempotencyKey ≠ row.idempotencyKey then
    some { c with sendAttempts := c.sendAttempts ++ [row] }
  else none

/-- `_finish`: a column that is not named keeps its value, and one that is named with `None` becomes
NULL. -/
def finish (attemptId : String) (state : AttemptState) (now : ℤ)
    (wamid errorCode : Option (Option String)) (c : Control) : Control :=
  { c with sendAttempts := c.sendAttempts.map fun a =>
      if a.id = attemptId then
        { a with
          state := state
          updatedAtMs := now
          wamid := wamid.getD a.wamid
          errorCode := errorCode.getD a.errorCode }
      else a }

/-- The attempt after the provider's answer; on an exception of another kind it stays open. -/
def settle (attemptId : String) (now : ℤ) (reply : ProviderReply) (c : Control) : Control :=
  match reply with
  | .timeoutAfterSend => finish attemptId .indeterminate now none none c
  | .connectFailed => finish attemptId .failed now none (some (some "connect_fail")) c
  | .submitted wamid => finish attemptId .submitted now (some wamid) none c
  | .rejected errorCode => finish attemptId .failed now none (some errorCode) c
  | .raises => c

/-- What a call lets the outside see. -/
inductive Event
  /-- The nonce was inserted, under a signature verified over the encoding of `signed`. -/
  | nonceConsumed (signed : Canonical.Fields) (nonce : Nonce)
  /-- `provider.send_text(phone_number_id, recipient_wa_id, body)` was called at `now`. -/
  | sendText (permit : Permit) (now : ℤ) (phoneNumberId : String) (recipientWaId : Option String)
      (body : String)
  | stopped (reason : Stop)
  | answered (attemptId : String) (reply : ProviderReply)
  deriving DecidableEq

def Process.restart (s : Process) : Process := ⟨s.control.rollback, ⟨none⟩⟩

/-- The call from its commit on: `c` is what it has committed. -/
def transmit (permit : Permit) (attemptId : String) (now : ℤ) (crash : Option Crash)
    (reply : ProviderReply) (clock : ClockGuard) (c : Control) : Process × List Event :=
  if crash = some .afterCommit then (⟨.clean c, ⟨none⟩⟩, [])
  else
    match decodeUtf8 permit.body with
    | none => (⟨.clean c, clock⟩, [.stopped .raised])
    | some body =>
      let sent :=
        Event.sendText permit now permit.draft.phoneNumberId permit.draft.recipientWaId body
      if crash = some .afterSend then (⟨.clean c, ⟨none⟩⟩, [sent])
      else (⟨.clean (settle attemptId now reply c), clock⟩, [sent, .answered attemptId reply])

/-- `execute_write`. -/
def executeWrite (P : Platform) (env : Envelope) (reading : ℤ) (attemptId : String)
    (crash : Option Crash) (reply : ProviderReply) (s : Process) : Process × List Event :=
  match s.clock.trustedNow reading with
  | none => (s, [.stopped (.refused "CLOCK_UNTRUSTED")])
  | some (now, clock) =>
    match authorise P s.control.working now env with
    | .error stop => (⟨s.control, clock⟩, [.stopped stop])
    | .ok permit =>
      match consumeNonce env permit.draft.id now s.control.working with
      | .error stop => (⟨s.control, clock⟩, [.stopped stop])
      | .ok (nonce, c) =>
        let consumed :=
          Event.nonceConsumed (canonicalFields permit.draft "APPROVE" permit.deviceId) nonce
        match openAttempt P attemptId permit.draft.id nonce now c with
        | none => (⟨⟨s.control.durable, c⟩, clock⟩, [consumed, .stopped .raised])
        | some c =>
          if crash = some .beforeCommit then (s.restart, [consumed])
          else
            let r := transmit permit attemptId now crash reply clock c
            (r.1, consumed :: r.2)

/-- `recover_startup`. -/
def recoverStartup (nowMs : ℤ) (c : Control) : Option Control :=
  if fitsInt64 nowMs then
    some { c with sendAttempts := c.sendAttempts.map fun a =>
      if a.state = .submitting then
        { a with state := .indeterminate, updatedAtMs := nowMs }
      else a }
  else none

end WhatsVault.Sender
