import WhatsVault.Importers.Fingerprint
import WhatsVault.Importers.Parse
import WhatsVault.Ingest.Consumer
import WhatsVault.Library.Checks
import WhatsVault.Library.Loop

/-!
# The export importer

`import_batch` refuses what it would have to guess and then writes one batch in one transaction: the
batch row, a participant for each sender, the messages that are not there yet, one observation for
each message of the export, and the source row.  A message is looked up by its import fingerprint,
which names its place among the like messages of the export, so an export that repeats a message
adds nothing to the one that brought it first.

`undo_batch` takes back the observations of a batch and deletes the messages nobody else observed.

What the storage does to a call is its `Verdict`, and the ids it draws are an input of it.
-/

namespace WhatsVault.Importers

open Transaction
open Ingest (insertMessage)

/-- What the importer calls: the platform, `str`, the normaliser of the search index and the tz
database, in which an unknown name raises. -/
structure Importer where
  platform : Platform
  unicode : Unicode
  normaliser : Search.Normaliser
  zone : String → Option Zone

/-- The arguments of `import_batch`; an absent one of the texts it checks is empty. -/
structure ImportArgs where
  text : String
  sourceSha256 : String
  dateFormat : String
  tzName : String
  conversationId : String
  accountId : String
  selfParticipantLabel : String
  dstResolutions : List (ℕ × ℤ)
  sourceArtifact : Option (String × String)
  deriving DecidableEq

/-- The ids drawn in a call. -/
structure ImportIds where
  batch : String
  participant : ℕ → String
  message : ℕ → String

/-- `ImportRefused`. -/
structure ImportRefused where
  code : String
  message : String
  deriving DecidableEq, Repr

/-- How a call ends that does not return. -/
inductive Stop
  | refused (reason : ImportRefused)
  | raised
  | crashed
  deriving DecidableEq, Repr

/-- What `import_batch` returns. -/
structure Summary where
  batchId : String
  added : ℕ
  observations : ℕ
  participants : ℕ
  deriving DecidableEq, Repr

/-! ## The messages of an export -/

/-- A record of kind `message`, with its `source_ordinal`. -/
structure Sent where
  time : HeaderTime
  sender : String
  body : String
  mediaState : Option String
  sourceStartOffset : ℕ
  sourceEndOffset : ℕ
  sourceOrdinal : ℕ
  deriving DecidableEq

def sentOf (r : Record × ℕ) : Option Sent :=
  match r.1.content with
  | .message time sender body mediaState =>
    some ⟨time, sender, body, mediaState, r.1.sourceStartOffset, r.1.sourceEndOffset, r.2⟩
  | _ => none

/-- `_messages`. -/
def messagesOf (records : List (Record × ℕ)) : List Sent := records.filterMap sentOf

/-- How many records are system lines. -/
def systemLines (records : List (Record × ℕ)) : ℕ :=
  records.countP fun r => r.1.kind ∈ ["system", "system_unknown"]

/-- The `fold` a message is read with; `none` where it raises. -/
def foldOf (dstResolutions : List (ℕ × ℤ)) (r : Sent) : Option Bool :=
  if r.time.dstClass = .unambiguous then some false
  else do
    let fold ← dstResolutions.lookup r.sourceOrdinal
    if fold = 0 then some false else if fold = 1 then some true else none

/-- `_minute_epoch_ms`. -/
def minuteEpochMs (zone : Option Zone) (dstResolutions : List (ℕ × ℤ)) (r : Sent) : Option ℤ := do
  let fold ← foldOf dstResolutions r
  let z ← zone
  let local' ← datetime r.time.date r.time.hour r.time.minute 0
  pure (timestamp z local' fold * 1000)

/-! ## Refusals -/

def missingSelf : ImportRefused :=
  ⟨"MISSING_SELF", "self_participant_label is required (direction cannot be guessed)"⟩

def missingFormat : ImportRefused := ⟨"MISSING_FORMAT", "date_format is required"⟩

def missingTz : ImportRefused := ⟨"MISSING_TZ", "tz_name is required"⟩

def formatMismatch (dateFormat : String) (validating : List String) : ImportRefused :=
  ⟨"FORMAT_MISMATCH", dateFormat ++ " not among validating families [" ++
    ", ".intercalate (validating.map fun f => "'" ++ f ++ "'") ++ "]"⟩

def dstUnresolved (r : Sent) : ImportRefused :=
  ⟨"DST_UNRESOLVED", "source_ordinal " ++ toString r.sourceOrdinal ++ " is a " ++
    r.time.dstClass.value ++ " instant"⟩

variable (I : Importer)

/-- The gates of `import_batch`, before any write: the records of the text. -/
def gate (args : ImportArgs) : Except Stop (List (Record × ℕ)) := do
  Checks.require (args.selfParticipantLabel ≠ "") (.refused missingSelf)
  Checks.require (args.dateFormat ≠ "") (.refused missingFormat)
  Checks.require (args.tzName ≠ "") (.refused missingTz)
  let validating := suggestFamilies I.unicode args.text
  Checks.require (args.dateFormat ∈ validating)
    (.refused (formatMismatch args.dateFormat validating))
  let parsed := parseTranscript I.unicode (I.zone args.tzName) args.dateFormat args.text
  let records ← Checks.orStop parsed .raised
  match (messagesOf records).find? fun r => r.time.dstClass ≠ .unambiguous ∧
      (args.dstResolutions.lookup r.sourceOrdinal).isNone with
  | some r => .error (.refused (dstUnresolved r))
  | none => pure records

/-! ## The rows of a batch -/

/-- The INSERT into `import_batches`, with the CHECK on its format. -/
def insertBatch (row : ImportBatch) (rows : List ImportBatch) : Option (List ImportBatch) :=
  if row.declaredDateFormat ∈ families then Table.insert ImportBatch.id row rows else none

def batchRow (args : ImportArgs) (batchId : String) (records : List (Record × ℕ)) : ImportBatch where
  id := batchId
  sourceSha256 := args.sourceSha256
  sourceArtifact := args.sourceArtifact
  declaredDateFormat := args.dateFormat
  declaredTimezone := args.tzName
  selfParticipantLabel := args.selfParticipantLabel
  messageCount := (messagesOf records).length
  systemEventCount := systemLines records
  undoneAtMs := none

/-- One turn of the loop over the senders: the ids of those seen, and the table. -/
def addParticipant (ids : ImportIds) (s : List (String × String) × List ImportParticipant)
    (r : Sent) : Option (List (String × String) × List ImportParticipant) :=
  if (s.1.lookup r.sender).isSome then some s
  else do
    let id := ids.participant s.1.length
    let rows ← Table.insert ImportParticipant.id ⟨id, ids.batch, r.sender⟩ s.2
    pure (s.1 ++ [(r.sender, id)], rows)

/-- The bucket of a message, `none` where computing it raises. -/
def bucketOf (args : ImportArgs) (r : Sent) : Option Bucket := do
  let minuteMs ← minuteEpochMs (I.zone args.tzName) args.dstResolutions r
  let type := if r.mediaState.isSome then "media" else "text"
  let contentFp ← contentFingerprint I.platform type (some r.body)
  pure ⟨args.conversationId, minuteMs, r.sender, type, contentFp⟩

/-- The evidence row of a message of an export. -/
def evidenceRow (args : ImportArgs) (id : String) (r : Sent) (b : Bucket) (importFp : String) :
    Message where
  id := id
  accountId := args.accountId
  conversationId := args.conversationId
  senderContactId := none
  direction := if strip r.sender = strip args.selfParticipantLabel then .outbound else .inbound
  tsLowerMs := (fromLocalMinute b.minuteMs).1
  tsUpperMsExclusive := (fromLocalMinute b.minuteMs).2
  tsPrecision := .min
  tzName := some args.tzName
  type := b.type
  textOriginal := some r.body
  replyToWamid := none
  origin := .manualExport
  windowEligible := false
  wamid := none
  importFingerprint := some importFp
  deliveryRank := 0
  interval := fromLocalMinute_lt b.minuteMs

/-- What a row of an account and a conversation refers to is there. -/
def References (e : Evidence) (accountId conversationId : String) : Prop :=
  (∃ a ∈ e.accounts, a.id = accountId) ∧ ∃ c ∈ e.conversations, c.id = conversationId

instance (e : Evidence) (accountId conversationId : String) :
    Decidable (References e accountId conversationId) :=
  inferInstanceAs (Decidable
    ((∃ a ∈ e.accounts, a.id = accountId) ∧ ∃ c ∈ e.conversations, c.id = conversationId))

/-- The INSERT of a message of an export, and `stage_message`. -/
def addMessage (row : Message) (body : String) (v : Vault) : Option Vault := do
  if References v.evidence row.accountId row.conversationId then
    let evidence ← insertMessage row v.evidence
    pure (Search.stageIn I.normaliser row.id body { v with evidence := evidence })
  else none

/-- The INSERT into `message_import_observations`, with its two UNIQUE constraints. -/
def insertObservation (row : Observation) (rows : List Observation) : Option (List Observation) :=
  if ∀ o ∈ rows, o.batchId = row.batchId →
      o.messageId ≠ row.messageId ∧ o.sourceOrdinal ≠ row.sourceOrdinal then
    some (rows ++ [row])
  else none

def withObservations (observations : List Observation) (v : Vault) : Vault :=
  { v with imports := { v.imports with observations := observations } }

/-- The loop over the messages: the vault, `occ`, and the two counters. -/
structure Stage where
  vault : Vault
  occ : Bucket → ℕ
  added : ℕ
  obsCount : ℕ

/-- The message with a fingerprint, inserted where there is none. -/
def resolveMessage (args : ImportArgs) (ids : ImportIds) (r : Sent) (b : Bucket) (importFp : String)
    (s : Stage) : Option (String × Stage) :=
  match Table.find Message.importFingerprint (some importFp) s.vault.evidence.messages with
  | some existing => some (existing.id, s)
  | none => do
    let id := ids.message s.added
    let vault ← addMessage I (evidenceRow args id r b importFp) r.body s.vault
    pure (id, { s with vault := vault, added := s.added + 1 })

/-- One turn of the loop over the messages. -/
def importMessage (args : ImportArgs) (ids : ImportIds) (participantIds : List (String × String))
    (s : Stage) (r : Sent) : Option Stage := do
  let b ← bucketOf I args r
  let idx := s.occ b
  let s := { s with occ := Function.update s.occ b (idx + 1) }
  let importFp ← importFingerprint I.platform b idx
  let (messageId, s) ← resolveMessage I args ids r b importFp s
  let participantId ← participantIds.lookup r.sender
  let row := ⟨ids.batch, messageId, participantId, r.sourceOrdinal, r.sourceStartOffset,
    r.sourceEndOffset, b.contentFp⟩
  let observations ← insertObservation row s.vault.imports.observations
  pure { s with vault := withObservations observations s.vault, obsCount := s.obsCount + 1 }

/-- The INSERT into `conversation_sources`. -/
def addSource (row : ConversationSource) (v : Vault) : Option Vault :=
  if References v.evidence row.accountId row.conversationId then
    some { v with imports := { v.imports with sources := v.imports.sources ++ [row] } }
  else none

/-- The transaction of `import_batch`. -/
def importBody (args : ImportArgs) (ids : ImportIds) (records : List (Record × ℕ)) (v : Vault) :
    Option (Vault × Summary) := do
  let msgs := messagesOf records
  let batches ← insertBatch (batchRow args ids.batch records) v.imports.batches
  let (participantIds, participants) ←
    msgs.foldlM (addParticipant ids) ([], v.imports.participants)
  let v := { v with imports := { v.imports with batches := batches, participants := participants } }
  let s ← msgs.foldlM (importMessage I args ids participantIds) ⟨v, fun _ => 0, 0, 0⟩
  let v ← addSource ⟨args.conversationId, args.accountId, ids.batch⟩ s.vault
  pure (v, ⟨ids.batch, s.added, s.obsCount, participantIds.length⟩)

/-- How a transaction that did not refuse anything ended. -/
def ending {α : Type} : Outcome α → Except Stop α
  | .done a => .ok a
  | .raised => .error .raised
  | .crashed => .error .crashed

/-- `import_batch`. -/
def importBatch (verdict : Verdict) (args : ImportArgs) (ids : ImportIds) (c : Conn Vault) :
    Conn Vault × Except Stop Summary :=
  match gate I args with
  | .error stop => (c, .error stop)
  | .ok records =>
    let r := transact verdict (importBody I args ids records) c
    (r.1, ending r.2)

/-! ## Undo -/

/-- The rows of a batch. -/
def observedBy (batchId : String) (v : Vault) : List String :=
  (v.imports.observations.filter fun o => o.batchId = batchId).map Observation.messageId

/-- The observations the DELETE of a batch leaves. -/
def unobserved (batchId : String) (v : Vault) : List Observation :=
  v.imports.observations.filter fun o => o.batchId ≠ batchId

/-- A message that nobody observes and the provider did not send. -/
def Orphaned (v : Vault) (messageId : String) : Prop :=
  (∀ o ∈ v.imports.observations, o.messageId ≠ messageId) ∧
    ∃ m ∈ v.message messageId, m.wamid = none

instance (v : Vault) (messageId : String) : Decidable (Orphaned v messageId) :=
  inferInstanceAs (Decidable ((∀ o ∈ v.imports.observations, o.messageId ≠ messageId) ∧
    ∃ m ∈ v.message messageId, m.wamid = none))

def deleteMessage (messageId : String) (v : Vault) : Vault :=
  { v with evidence :=
    { v.evidence with messages := v.evidence.messages.filter fun m => m.id ≠ messageId } }

/-- One turn of the loop over the messages of a batch, with the count of those deleted. -/
def dropOrphan (s : Vault × ℕ) (messageId : String) : Vault × ℕ :=
  if Orphaned s.1 messageId then (deleteMessage messageId s.1, s.2 + 1) else s

/-- The loop. -/
def dropOrphans (messageIds : List String) (v : Vault) : Vault × ℕ :=
  messageIds.foldl dropOrphan (v, 0)

/-- The DELETE on `import_participants`, which an observation of another batch would stop. -/
def deleteParticipants (batchId : String) (s : Imports) : Option Imports :=
  if ∀ p ∈ s.participants, p.importBatchId = batchId →
      ∀ o ∈ s.observations, o.senderImportParticipantId ≠ p.id then
    some { s with participants := s.participants.filter fun p => p.importBatchId ≠ batchId }
  else none

def stampUndone (batchId : String) (nowMs : ℤ) (s : Imports) : Imports :=
  { s with
    sources := s.sources.filter fun row => row.importBatchId ≠ batchId
    batches := s.batches.map fun row =>
      if row.id = batchId then { row with undoneAtMs := some nowMs } else row }

/-- What `undo_batch` returns. -/
structure UndoSummary where
  batchId : String
  observationsDeleted : ℕ
  messagesDeleted : ℕ
  deriving DecidableEq, Repr

/-- The transaction of `undo_batch`. -/
def undoBody (batchId : String) (nowMs : ℤ) (v : Vault) : Option (Vault × UndoSummary) := do
  let messageIds := observedBy batchId v
  let dropped := dropOrphans messageIds (withObservations (unobserved batchId v) v)
  let imports ← deleteParticipants batchId dropped.1.imports
  pure ({ dropped.1 with imports := stampUndone batchId nowMs imports },
    ⟨batchId, messageIds.length, dropped.2⟩)

/-- `undo_batch`. -/
def undoBatch (verdict : Verdict) (batchId : String) (nowMs : ℤ) (c : Conn Vault) :
    Conn Vault × Except Stop UndoSummary :=
  let r := transact verdict (undoBody batchId nowMs) c
  (r.1, ending r.2)

end WhatsVault.Importers
