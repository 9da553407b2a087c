import WhatsVault.Control.Window
import WhatsVault.Crypto.Sealed
import WhatsVault.Ingest.Normalise
import WhatsVault.Library.Transaction
import WhatsVault.Search.Index

/-!
# The ingest consumer

`drain_once` over a batch of leased envelopes, down to its commits.  An atom is stored in one
transaction on the vault; the window projection is advanced in a second one, on the control
database, and the search index updated in a third, whose failure is swallowed.

Everything a run does not decide by itself is an input of the step: the envelopes and their order,
the keys at hand, the ids drawn, and what goes wrong at each of the commits.
-/

namespace WhatsVault.Ingest

open Transaction

/-! ## Storing one atom -/

/-- The ids drawn for the rows of one atom. -/
structure AtomIds where
  account : String
  contact : String
  conversation : String
  message : String
  deriving DecidableEq

/-- `_get_account`; the phone number column is NOT NULL. -/
def getAccount (phoneNumberId : Option String) (id : String) (e : Evidence) :
    Option (String × Evidence) := do
  let phone ← phoneNumberId
  match Table.find Account.phoneNumberId phone e.accounts with
  | some a => pure (a.id, e)
  | none =>
    let accounts ← Table.insert Account.id ⟨id, phone⟩ e.accounts
    pure (id, { e with accounts := accounts })

/-- `_get_contact`; NULL equals no stored id. -/
def getContact (waId name : Option String) (id : String) (e : Evidence) :
    Option (String × Evidence) :=
  match e.contacts.find? fun c => waId ≠ none ∧ c.waId = waId with
  | some c => some (c.id, e)
  | none => do
    let contacts ← Table.insert Contact.id ⟨id, waId, name, none⟩ e.contacts
    pure (id, { e with contacts := contacts })

/-- `_get_conversation`. -/
def getConversation (accountId : String) (waChatId : Option String) (id : String) (e : Evidence) :
    Option (String × Evidence) :=
  match e.conversations.find? fun c => c.accountId = accountId ∧ waChatId ≠ none ∧
      c.waChatId = waChatId with
  | some c => some (c.id, e)
  | none => do
    let row := ⟨id, accountId, .dm, waChatId, none, none, .allowMcp⟩
    let conversations ← Table.insert Conversation.id row e.conversations
    pure (id, { e with conversations := conversations })

/-- The INSERT into `messages`, with its three UNIQUE constraints. -/
def insertMessage (row : Message) (e : Evidence) : Option Evidence :=
  if ∀ m ∈ e.messages, m.id ≠ row.id ∧
      (row.wamid = none ∨ m.accountId ≠ row.accountId ∨ m.wamid ≠ row.wamid) ∧
      (row.importFingerprint = none ∨ m.importFingerprint ≠ row.importFingerprint) then
    some { e with messages := e.messages ++ [row] }
  else none

/-- What `_apply_rows` returns for a message. -/
structure Applied where
  conversationId : String
  messageId : String
  text : Json
  providerMs : ℤ

/-- The message row of an atom. -/
def messageRow (rows : MessageRows) (id accountId contactId conversationId type : String)
    (text wamid : Option String) : Message where
  id := id
  accountId := accountId
  conversationId := conversationId
  senderContactId := some contactId
  direction := rows.direction
  tsLowerMs := rows.tsLowerMs
  tsUpperMsExclusive := rows.tsLowerMs + 1000
  tsPrecision := .s
  tzName := none
  type := type
  textOriginal := text
  replyToWamid := none
  origin := rows.origin
  windowEligible := rows.windowEligible
  wamid := wamid
  importFingerprint := none
  deliveryRank := 0
  interval := by omega

/-- `_apply_rows` for a message. -/
def applyMessage (S : Stdlib) (ids : AtomIds) (rows : MessageRows) (e : Evidence) :
    Option (Evidence × Applied) := do
  let phoneNumberId ← rows.phoneNumberId.bindText S
  let waId ← rows.waId.bindText S
  let name ← rows.name.bindText S
  let type ← (← rows.type.bindText S)
  let text ← rows.textOriginal.bindText S
  let wamid ← rows.wamid.bindText S
  let (accountId, e) ← getAccount phoneNumberId ids.account e
  let (contactId, e) ← getContact waId name ids.contact e
  let (conversationId, e) ← getConversation accountId waId ids.conversation e
  if fitsInt64 rows.tsLowerMs ∧ fitsInt64 (rows.tsLowerMs + 1000) then
    let row := messageRow rows ids.message accountId contactId conversationId type text wamid
    let e ← insertMessage row e
    pure (e, ⟨conversationId, ids.message, rows.textOriginal, rows.tsLowerMs⟩)
  else none

/-- `_apply_rows` for a status. -/
def applyStatus (S : Stdlib) (rows : StatusRows) (e : Evidence) : Option Evidence := do
  let wamid ← (← rows.wamid.bindText S)
  let status ← (← rows.status.bindText S)
  let recipientId ← rows.recipientId.bindText S
  if fitsInt64 rows.providerTsMs then
    pure { e with
      statusEvents := e.statusEvents ++ [⟨wamid, status, rows.providerTsMs, recipientId⟩] }
  else none

/-- `_apply_rows`. -/
def applyRows (S : Stdlib) (ids : AtomIds) (rows : Rows) (e : Evidence) :
    Option (Evidence × Option Applied) :=
  match rows with
  | .message rows => (applyMessage S ids rows e).map fun (e, applied) => (e, some applied)
  | .status rows => (applyStatus S rows e).map fun e => (e, none)
  | .none => some (e, none)

/-- What the loop computes of an atom before it opens a transaction. -/
structure Decoded where
  family : Family
  key : String
  rows : Rows
  raw : Bytes

def decode (P : Platform) (S : Stdlib) (atom : Atom) : Option Decoded := do
  let (family, key) ← semanticKey P S atom
  let rows ← toRows S atom
  let raw ← atom.raw.dumps S
  pure ⟨family, key, rows, raw⟩

/-- The ledger row of an atom, `none` where one of its values cannot be bound. -/
def ledgerRow (P : Platform) (S : Stdlib) (now : ℤ) (atom : Atom) (x : Decoded) :
    Option IngestEvent := do
  let externalEventId ← ((atom.raw.orElse (.obj [])).get "id").bind (Json.bindText S)
  if (x.rows.providerTs.all fitsInt64) ∧ fitsInt64 now then
    pure
      { externalEventId
        semanticEventKey := x.key
        family := x.family
        providerTsMs := x.rows.providerTs
        receivedAtMs := now
        rawPayloadSha256 := P.hexdigest x.raw
        rawPayload := x.raw }
  else none

def Recorded (e : Evidence) (key : String) : Prop :=
  ∃ event ∈ e.ingestEvents, event.semanticEventKey = key

instance (e : Evidence) (key : String) : Decidable (Recorded e key) :=
  inferInstanceAs (Decidable (∃ event ∈ e.ingestEvents, event.semanticEventKey = key))

inductive Ingested
  | duplicate
  | stored (applied : Option Applied)

/-- The transaction of one atom. -/
def ingestBody (P : Platform) (S : Stdlib) (ids : AtomIds) (now : ℤ) (atom : Atom) (x : Decoded)
    (v : Vault) : Option (Vault × Ingested) := do
  let event ← ledgerRow P S now atom x
  if Recorded v.evidence x.key then pure (v, .duplicate)
  else
    let ledger := v.evidence.ingestEvents ++ [event]
    let (evidence, applied) ← applyRows S ids x.rows { v.evidence with ingestEvents := ledger }
    pure ({ v with evidence := evidence }, .stored applied)

/-! ## The steps after its commit -/

/-- Where indexing fails: after some of its statements, at its commit, or with the process. -/
inductive IndexFault
  | statements (n : ℕ)
  | commit
  | crash
  deriving DecidableEq, Repr

/-- What goes wrong around one atom. -/
structure AtomFaults where
  evidence : Verdict := .ok
  window : Option Fault := none
  index : Option IndexFault := none
  hook : Verdict := .ok
  deriving DecidableEq, Repr

/-- `text_original or ""` where the normaliser accepts it. -/
def indexText (text : Json) : Option String :=
  if text.truthy then text.encode else some ""

def withSearch (f : SearchTables → SearchTables) (v : Vault) : Vault :=
  { v with search := f v.search }

/-- `index_message`. -/
def indexMessage (N : Search.Normaliser) (fault : Option IndexFault) (messageId : String)
    (text : Json) (c : Conn Vault) : Conn Vault × Outcome Unit :=
  match fault, indexText text with
  | some .crash, _ => (c.rollback, .crashed)
  | _, none => (c, .raised)
  | some (.statements n), some text =>
    (c.exec (withSearch (Search.stagePartially N n messageId text)), .raised)
  | some .commit, some text =>
    (c.exec (withSearch (Search.stageMessage N messageId text)), .raised)
  | none, some text =>
    (.clean (withSearch (Search.stageMessage N messageId text) c.working), .done ())

/-- The consumer's process: its two connections. -/
structure Daemon where
  vault : Conn Vault
  control : Conn Control
  deriving DecidableEq

def Daemon.restart (d : Daemon) : Daemon := ⟨d.vault.rollback, d.control.rollback⟩

/-- A lease that was passed to `queue.ack`: its envelope, and the plaintext that was processed, or
`none` where the envelope was quarantined. -/
structure Ack where
  leaseId : String
  envelope : Bytes
  payload : Option Bytes
  deriving DecidableEq

inductive Event
  /-- The atom with this key was committed. -/
  | stored (key : String)
  /-- An atom with this key was found in the ledger. -/
  | deduped (key : String)
  | quarantined (envelope : Bytes)
  | nacked (leaseId : String)
  | acked (ack : Ack)
  deriving DecidableEq

/-- A daemon, how the code that ran on it ended, and what it emitted. -/
abbrev Step (α : Type) := Daemon × Outcome α × List Event

/-- The test hook after an atom. -/
def runHook (hook : Verdict) (d : Daemon) : Daemon × Outcome Unit :=
  match hook with
  | .ok => (d, .done ())
  | .raise => (d, .raised)
  | .crash => (d.restart, .crashed)

/-- The projection and the index, after the commit of an inbound message. -/
def project (N : Search.Normaliser) (faults : AtomFaults) (applied : Applied) (d : Daemon) :
    Daemon × Outcome Unit :=
  match attempt faults.window
      (Control.advanceWindow applied.conversationId applied.providerMs) d.control with
  | (control, .crashed) => (⟨d.vault.rollback, control⟩, .crashed)
  | (control, .raised) => (⟨d.vault, control⟩, .raised)
  | (control, .done _) =>
    match indexMessage N faults.index applied.messageId applied.text d.vault with
    | (vault, .crashed) => (⟨vault, control.rollback⟩, .crashed)
    | (vault, _) => runHook faults.hook ⟨vault, control⟩

/-- What follows the commit of an atom. -/
def afterCommit (N : Search.Normaliser) (faults : AtomFaults) (family : Family)
    (applied : Option Applied) (d : Daemon) : Daemon × Outcome Unit :=
  match family, applied with
  | .messageInbound, some applied => project N faults applied d
  | _, _ => runHook faults.hook d

/-! ## Payloads -/

section Process

variable (P : Platform) (S : Stdlib) (N : Search.Normaliser)

/-- One turn of the loop of `_process_payload`. -/
def processAtom (now : ℤ) (ids : AtomIds) (faults : AtomFaults) (atom : Atom) (d : Daemon) :
    Step Unit :=
  match decode P S atom with
  | none => (d, .raised, [])
  | some x =>
    match transact faults.evidence (ingestBody P S ids now atom x) d.vault with
    | (vault, .crashed) => (⟨vault, d.control.rollback⟩, .crashed, [])
    | (vault, .raised) => (⟨vault, d.control⟩, .raised, [])
    | (vault, .done .duplicate) => (⟨vault, d.control⟩, .done (), [.deduped x.key])
    | (vault, .done (.stored applied)) =>
      let r := afterCommit N faults x.family applied ⟨vault, d.control⟩
      (r.1, r.2, [.stored x.key])

/-- The loop, from the atom at position `i` on. -/
def processAtoms (now : ℤ) (ids : ℕ → AtomIds) (faults : ℕ → AtomFaults) :
    ℕ → List Atom → Daemon → Step Unit
  | _, [], d => (d, .done (), [])
  | i, atom :: atoms, d =>
    match processAtom P S N now (ids i) (faults i) atom d with
    | (d, .done _, log) =>
      let r := processAtoms now ids faults (i + 1) atoms d
      (r.1, r.2.1, log ++ r.2.2)
    | r => r

/-- The atoms of a plaintext. -/
def payloadAtoms (plaintext : Bytes) : Option (List Atom) :=
  (S.loads plaintext).bind splitWebhook

/-- `_process_payload`. -/
def processPayload (now : ℤ) (ids : ℕ → AtomIds) (faults : ℕ → AtomFaults) (plaintext : Bytes)
    (d : Daemon) : Step Unit :=
  match payloadAtoms S plaintext with
  | none => (d, .raised, [])
  | some atoms => processAtoms P S N now ids faults 0 atoms d

end Process

/-! ## Quarantine and the circuit breaker -/

def dlqRow (P : Platform) (envelope : Bytes) (failureClass failureCode : String) (now : ℤ) :
    DlqRow where
  eventIdHash := (Sealed.parseHeader P envelope).map fun h => hex h.eventIdHash
  envelope := envelope
  failureClass := failureClass
  failureCode := failureCode
  pipelineStage := "decrypt"
  recipientKeyId := (Sealed.parseHeader P envelope).map Sealed.Header.recipientKeyId
  cryptoVersion := (Sealed.parseHeader P envelope).map Sealed.Header.cryptoVersion
  envelopeVersion := (Sealed.parseHeader P envelope).map Sealed.Header.envelopeVersion
  ciphertextSha256 := (Sealed.parseHeader P envelope).map Sealed.Header.ciphertextSha256
  sanitisedDetail := "stage=decrypt"
  firstSeenMs := now

/-- The INSERT of `dlq.quarantine`. -/
def quarantine (P : Platform) (envelope : Bytes) (failureClass failureCode : String) (now : ℤ)
    (v : Vault) : Option Vault :=
  let row := dlqRow P envelope failureClass failureCode now
  if fitsInt64 now then some { v with ingestDlq := v.ingestDlq ++ [row] } else none

/-- The UPDATE of `dlq.trip`. -/
def trip (keyId : ℕ) (now : ℤ) (v : Vault) : Option Vault :=
  let reason := "systemic decrypt failure key=" ++ toString keyId
  if fitsInt64 now then some { v with circuit := .tripped now reason } else none

/-- `dlq.reset`. -/
def resetCircuit (v : Vault) : Vault := { v with circuit := .closed }

/-! ## Draining a batch -/

/-- A leased envelope, with what the environment contributes while it is handled. -/
structure Lease where
  leaseId : String
  body : Bytes
  ids : ℕ → AtomIds
  faults : ℕ → AtomFaults
  dlq : Option Fault

/-- One call of `drain_once`. -/
structure Drain where
  leases : List Lease
  keyLookup : ℕ → Option Bytes
  keyHealth : List ℕ
  now : ℤ

/-- What becomes of a lease in the loop; `halt` is the `break`, after the circuit was tripped. -/
inductive Disposition
  | ack (payload : Option Bytes)
  | nack
  | halt
  deriving DecidableEq

/-- What a lease adds to `to_ack`. -/
def toAck (lease : Lease) : Disposition → List Ack
  | .ack payload => [⟨lease.leaseId, lease.body, payload⟩]
  | _ => []

section Draining

variable (P : Platform) (S : Stdlib) (N : Search.Normaliser) (C : Sealed.Primitives)

/-- The end of a branch that writes to the vault and then disposes of the lease.  An exception in
it is not caught. -/
def disposeAfter (fault : Option Fault) (f : Vault → Option Vault) (disposition : Disposition)
    (log : List Event) (d : Daemon) : Step Disposition :=
  match attempt fault f d.vault with
  | (vault, .done _) => (⟨vault, d.control⟩, .done disposition, log)
  | (vault, .raised) => (⟨vault, d.control⟩, .raised, [])
  | (vault, .crashed) => (⟨vault, d.control.rollback⟩, .crashed, [])

/-- The body of the loop of `drain_once`; `health` is the key ids found healthy so far. -/
def handleLease (r : Drain) (lease : Lease) (health : List ℕ) (d : Daemon) : Step Disposition :=
  match Sealed.openSealed P C r.keyLookup lease.body with
  | .raised => (d, .raised, [])
  | .keyUnavailable => (d, .done .nack, [.nacked lease.leaseId])
  | .badEnvelope =>
    disposeAfter lease.dlq (quarantine P lease.body "POISON_MALFORMED" "bad_envelope" r.now)
      (.ack none) [.quarantined lease.body] d
  | .authFailed =>
    let keyId := (Sealed.parseHeader P lease.body).elim 0 Sealed.Header.recipientKeyId
    if keyId ∈ health then
      disposeAfter lease.dlq (quarantine P lease.body "AEAD_AUTH_FAILED_ISOLATED" "aead" r.now)
        (.ack none) [.quarantined lease.body] d
    else disposeAfter lease.dlq (trip keyId r.now) .halt [] d
  | .opened plaintext _ =>
    match processPayload P S N r.now lease.ids lease.faults plaintext d with
    | (d, .done _, log) => (d, .done (.ack (some plaintext)), log)
    | (d, .raised, log) => (d, .done .nack, log ++ [.nacked lease.leaseId])
    | (d, .crashed, log) => (d, .crashed, log)

/-- The key ids healthy after a lease. -/
def healthAfter (r : Drain) (lease : Lease) (health : List ℕ) : List ℕ :=
  match Sealed.openSealed P C r.keyLookup lease.body with
  | .opened _ header => header.recipientKeyId :: health
  | _ => health

/-- The loop of `drain_once`: the leases to acknowledge, when it comes to its end. -/
def drainLoop (r : Drain) : List Lease → List ℕ → Daemon → Step (List Ack)
  | [], _, d => (d, .done [], [])
  | lease :: leases, health, d =>
    match handleLease P S N C r lease health d with
    | (d, .crashed, log) => (d, .crashed, log)
    | (d, .raised, log) => (d, .raised, log)
    | (d, .done .halt, log) => (d, .done [], log)
    | (d, .done disposition, log) =>
      let rest := drainLoop r leases (healthAfter P C r lease health) d
      (rest.1, rest.2.1.map (toAck lease disposition ++ ·), log ++ rest.2.2)

/-- `drain_once`. -/
def drainOnce (r : Drain) (d : Daemon) : Daemon × List Event :=
  if d.vault.working.circuit ≠ .closed then (d, [])
  else
    match drainLoop P S N C r r.leases r.keyHealth d with
    | (d, .done acks, log) => (d, log ++ acks.map .acked)
    | (d, _, log) => (d, log)

/-! ## Runs -/

inductive Op
  | drain (drain : Drain)
  | restart
  | resetCircuit

def step (d : Daemon) : Op → Daemon × List Event
  | .drain r => drainOnce P S N C r d
  | .restart => (d.restart, [])
  | .resetCircuit =>
    (⟨⟨resetCircuit d.vault.durable, resetCircuit d.vault.working⟩, d.control⟩, [])

end Draining

/-- A process on freshly migrated databases. -/
def start : Daemon := ⟨.clean .empty, .clean .empty⟩

/-! ## A sample environment -/

/-- Four bytes, big-endian. -/
def packU32 (n : ℕ) : Bytes := [3, 2, 1, 0].map fun i => UInt8.ofNat (n / 256 ^ i)

/-- An envelope for key 1, whose ciphertext is the plaintext and a tag. -/
def sampleEnvelope (plaintext : Bytes) : Bytes :=
  Sealed.magic ++ [1, 1, 1] ++ packU32 1 ++ List.replicate 76 0 ++
    packU32 (plaintext.length + 16) ++ plaintext ++ List.replicate 16 0

def samplePrimitives : Sealed.Primitives where
  exchange _ _ := some []
  derive _ := []
  decrypt _ _ ct _ := some (ct.take (ct.length - 16))

def samplePlatform : Platform := ⟨fun b => b, fun _ _ _ => false⟩

def sampleNormaliser : Search.Normaliser := ⟨id, id, 1⟩

/-- One text message from 61400, as the provider delivers it. -/
def sampleText : String :=
  "\x7b\"from\": \"61400\", \"id\": \"wamid.X\", \"text\": \x7b\"body\": \"hello\"\x7d, " ++
    "\"timestamp\": \"1700000000\", \"type\": \"text\"\x7d"

def samplePlaintext : Bytes :=
  utf8 ("\x7b\"entry\": [\x7b\"changes\": [\x7b\"value\": \x7b\"metadata\": " ++
    "\x7b\"phone_number_id\": \"PN1\"\x7d, \"messages\": [" ++ sampleText ++ "]\x7d\x7d]\x7d]\x7d")

def field (key : String) (x : Json) : PyStr × Json := (.text key, x)

def text (s : String) : Json := .str (.text s)

def sampleMessage : Json :=
  .obj [field "from" (text "61400"), field "id" (text "wamid.X"),
    field "text" (.obj [field "body" (text "hello")]), field "timestamp" (text "1700000000"),
    field "type" (text "text")]

def samplePayload : Json :=
  .obj [field "entry" (.arr [.obj [field "changes" (.arr [.obj [field "value"
    (.obj [field "metadata" (.obj [field "phone_number_id" (text "PN1")]),
      field "messages" (.arr [sampleMessage])])]])]])]

/-- The library functions on the texts of the sample. -/
def sampleStdlib : Stdlib where
  loads b := if b = samplePlaintext then some samplePayload else none
  dumps _ := utf8 sampleText
  intOfStr
    | .text s => some (s.toList.foldl (fun n c => 10 * n + (c.toNat - 48)) 0)
    | .lone .. => none
  floatText _ := ""
  upper s := s
  strip s := s

def sampleIds (i : ℕ) : AtomIds :=
  let suffix := String.ofList (List.replicate (i + 1) '1')
  ⟨"acc_" ++ suffix, "cnt_" ++ suffix, "cnv_" ++ suffix, "msg_" ++ suffix⟩

def sampleKeys : ℕ → Option Bytes := fun keyId => if keyId = 1 then some [] else none

/-- A lease of one envelope, with what goes wrong around its atoms. -/
def sampleLease (plaintext : Bytes) (faults : AtomFaults) : Lease :=
  ⟨"lse_1", sampleEnvelope plaintext, sampleIds, fun _ => faults, none⟩

def sampleCall (plaintext : Bytes) (faults : AtomFaults) : Drain :=
  ⟨[sampleLease plaintext faults], sampleKeys, [], 1700000001000⟩

def sampleDrain (plaintext : Bytes) (faults : AtomFaults) : Op := .drain (sampleCall plaintext faults)

lemma openSealed_sample :
    (Sealed.openSealed samplePlatform samplePrimitives sampleKeys
      (sampleEnvelope samplePlaintext)).plaintext = some samplePlaintext := by decide +kernel

def sampleAtom : Atom := ⟨.message, text "PN1", sampleMessage, false, .null⟩

lemma payloadAtoms_sample : payloadAtoms sampleStdlib samplePlaintext = some [sampleAtom] := by
  have hloads : sampleStdlib.loads samplePlaintext = some samplePayload := by simp [sampleStdlib]
  rw [payloadAtoms, hloads]
  rfl

end WhatsVault.Ingest
