import WhatsVault.Json
import WhatsVault.Library.Framing
import WhatsVault.Platform
import WhatsVault.Vault.Schema

/-!
# Fan-out and normalisation of a webhook

A decrypted payload is one JSON value that carries any number of atomic events.  `splitWebhook`
draws them out, `semanticKey` names each for the dedup ledger and `toRows` gives the values its
domain rows are made of.  None of them looks at a database, and each raises (`none`) on the values
its dictionary reads, conversions and encodings cannot take.
-/

namespace WhatsVault.Ingest

open Framing

def provider : String := "meta"

inductive AtomKind
  | message
  | status
  | history
  | system
  | unknown
  deriving DecidableEq, Repr

/-- One atomic event of a payload. -/
structure Atom where
  kind : AtomKind
  phoneNumberId : Json
  raw : Json
  echo : Bool := false
  contactName : Json := .null

/-! ## Fan-out -/

/-- `x.get(key) or default`, iterated over. -/
def items (x : Json) (key : String) : Option (List Json) := do
  let v ← x.get key
  (v.orElse (.arr [])).iterate

/-- One entry of the dictionary of contacts. -/
def contactEntry (c : Json) : Option (Json × Json) := do
  let waId ← c.get "wa_id"
  let profile ← c.get "profile"
  let name ← (profile.orElse (.obj [])).get "name"
  if waId.hashable then pure (waId, name) else none

/-- `contacts.get(key)`: the last entry with that key, raising on a key that is not hashable. -/
def contactName (contacts : List (Json × Json)) (key : Json) : Option Json :=
  if key.hashable then
    some (((contacts.reverse.find? fun entry => entry.1.keyEq key).map Prod.snd).getD .null)
  else none

def messageAtom (phoneNumberId : Json) (contacts : List (Json × Json)) (m : Json) :
    Option Atom := do
  let echo ← m.get "_wv_echo"
  let sender ← m.get "from"
  let name ← contactName contacts sender
  pure ⟨.message, phoneNumberId, m, echo.truthy, name⟩

/-- The atoms of one element of `changes`. -/
def splitChange (change : Json) : Option (List Atom) := do
  let value := (← change.getD "value" (.obj [])).orElse (.obj [])
  let metadata ← value.get "metadata"
  let phoneNumberId ← (metadata.orElse (.obj [])).get "phone_number_id"
  let contacts ← (← items value "contacts").mapM contactEntry
  let messages ← items value "messages"
  let statuses ← items value "statuses"
  let messageAtoms ← messages.mapM (messageAtom phoneNumberId contacts)
  let statusAtoms := statuses.map fun s => { kind := .status, phoneNumberId, raw := s }
  if messages = [] ∧ statuses = [] then
    pure [{ kind := .unknown, phoneNumberId, raw := value }]
  else pure (messageAtoms ++ statusAtoms)

def splitEntry (entry : Json) : Option (List Atom) := do
  let changes ← entry.getD "changes" (.arr [])
  let parts ← (← (changes.orElse (.arr [])).iterate).mapM splitChange
  pure parts.flatten

/-- `split_webhook`. -/
def splitWebhook (payload : Json) : Option (List Atom) := do
  let entries ← payload.getD "entry" (.arr [])
  let parts ← (← (entries.orElse (.arr [])).iterate).mapM splitEntry
  pure parts.flatten

/-! ## Families, rows and keys -/

/-- `classify`. -/
def classify (atom : Atom) : Family :=
  match atom.kind with
  | .message => if atom.echo then .messageEcho else .messageInbound
  | .status => .messageStatus
  | .history => .historyEvent
  | .system => .systemEvent
  | .unknown => .unknownSupported

/-- The contact and message entries of `to_rows`. -/
structure MessageRows where
  waId : Json
  name : Json
  wamid : Json
  tsLowerMs : ℤ
  type : Json
  textOriginal : Json
  direction : Direction
  origin : Origin
  windowEligible : Bool
  phoneNumberId : Json

/-- The status entry of `to_rows`. -/
structure StatusRows where
  wamid : Json
  status : Json
  providerTsMs : ℤ
  recipientId : Json

inductive Rows
  | message (rows : MessageRows)
  | status (rows : StatusRows)
  | none

/-- `x == "…"`. -/
def isText (x : Json) (s : String) : Bool :=
  match x with
  | .str (.text t) => t = s
  | _ => false

/-- `int(raw.get("timestamp", 0)) * 1000`. -/
def timestampMs (S : Stdlib) (raw : Json) : Option ℤ := do
  let timestamp ← raw.getD "timestamp" (.int 0)
  let seconds ← timestamp.toInt S
  pure (seconds * 1000)

/-- `_text(m)`. -/
def textOf (m : Json) : Option Json := do
  let type ← m.get "type"
  if isText type "text" then
    let text ← m.get "text"
    (text.orElse (.obj [])).get "body"
  else pure .null

def messageRows (S : Stdlib) (atom : Atom) : Option MessageRows := do
  let m := atom.raw
  let tsLowerMs ← timestampMs S m
  let waId ← m.get "from"
  let wamid ← m.get "id"
  let type ← m.getD "type" (.str (.text "text"))
  let textOriginal ← textOf m
  pure
    { waId
      name := atom.contactName
      wamid
      tsLowerMs
      type
      textOriginal
      direction := if atom.echo then .outbound else .inbound
      origin := if atom.echo then .businessAppEcho else .cloudApi
      windowEligible := !atom.echo
      phoneNumberId := atom.phoneNumberId }

def statusRows (S : Stdlib) (s : Json) : Option StatusRows := do
  let wamid ← s.get "id"
  let status ← s.get "status"
  let providerTsMs ← timestampMs S s
  let recipientId ← s.get "recipient_id"
  pure { wamid, status, providerTsMs, recipientId }

/-- `to_rows`. -/
def toRows (S : Stdlib) (atom : Atom) : Option Rows :=
  match atom.kind with
  | .message => (messageRows S atom).map .message
  | .status => (statusRows S atom.raw).map .status
  | .history | .system | .unknown => some .none

/-- `_provider_ts`. -/
def Rows.providerTs : Rows → Option ℤ
  | .message rows => some rows.tsLowerMs
  | .status rows => some rows.providerTsMs
  | .none => Option.none

/-- `dedupe._sha`. -/
def sha (P : Platform) (domain : String) (parts : List String) : Option String :=
  (frames 4 (parts.map utf8)).map fun body => P.hexdigest (utf8 domain ++ body)

/-- `dedupe.message_key`. -/
def messageKey (P : Platform) (phoneNumberId wamid : String) : Option String :=
  sha P "WHATSVAULT-DEDUPE-MESSAGE-V1" [provider, phoneNumberId, wamid]

/-- `dedupe.status_key`. -/
def statusKey (P : Platform) (phoneNumberId wamid status : String) (providerTsMs : ℤ)
    (recipientId : Option String) : Option String :=
  sha P "WHATSVAULT-DEDUPE-STATUS-V1"
    [provider, phoneNumberId, wamid, status, toString providerTsMs,
      recipientId.getD (String.ofList [Char.ofNat 0] ++ "none")]

/-- `x or ""`, encoded. -/
def orEmpty (x : Json) : Option String := (x.orElse (.str (.text ""))).encode

/-- A status recipient: NULL, or a string that can be encoded. -/
def recipient : Json → Option (Option String)
  | .null => some none
  | x => x.encode.map some

/-- `semantic_key`. -/
def semanticKey (P : Platform) (S : Stdlib) (atom : Atom) : Option (Family × String) :=
  let family := classify atom
  match atom.kind with
  | .message => do
    let id ← atom.raw.get "id"
    let phoneNumberId ← orEmpty atom.phoneNumberId
    let key ← messageKey P phoneNumberId (← orEmpty id)
    pure (family, key)
  | .status => do
    let id ← atom.raw.get "id"
    let status ← atom.raw.get "status"
    let providerTsMs ← timestampMs S atom.raw
    let recipientId ← atom.raw.get "recipient_id"
    let phoneNumberId ← orEmpty atom.phoneNumberId
    let key ← statusKey P phoneNumberId (← orEmpty id) (← orEmpty status) providerTsMs
      (← recipient recipientId)
    pure (family, key)
  | .history | .system | .unknown => do
    let raw ← atom.raw.dumps S
    pure (family, P.hexdigest (utf8 "WHATSVAULT-DEDUPE-OTHER-V1" ++ raw))

end WhatsVault.Ingest
