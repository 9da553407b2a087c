import WhatsVault.Approval.Canonical
import WhatsVault.Approval.Policy
import WhatsVault.Control.Schema
import WhatsVault.Json
import WhatsVault.Library.Checks

/-!
# Devices, drafts and templates

The writers of the control database that come before a send: enrolment and revocation of a device,
`drafts.prepare`, the template catalogue and `templates.prepare_template`.  A fresh id or nonce is
an argument, and the INSERT that stores it checks its constraint.

A result carries the database as the call's transaction leaves it; `Written.fresh` says whether
there was anything to commit.
-/

namespace WhatsVault

open Checks

/-- The result of a call that returns the id of a row it wrote or found. -/
structure Written where
  id : String
  fresh : Bool
  control : Control
  deriving DecidableEq

/-! ## Devices -/

namespace Devices

/-- `devices.enroll`. -/
def enroll (did name : String) (signingPub : Bytes) (agreementPub : Option Bytes)
    (nowMs : Option ℤ) (c : Control) : Option Control :=
  if nowMs.all fitsInt64 then
    (Table.insert Device.id ⟨did, name, signingPub, agreementPub, nowMs, .active⟩
      c.approvalDevices).map fun devices => { c with approvalDevices := devices }
  else none

def revokeRow (deviceId : String) (d : Device) : Device :=
  if d.id = deviceId then { d with status := .revoked } else d

/-- `devices.revoke`. -/
def revoke (deviceId : String) (c : Control) : Control :=
  { c with approvalDevices := c.approvalDevices.map (revokeRow deviceId) }

/-- `devices.active_signing_key`. -/
def activeSigningKey (c : Control) (deviceId : String) : Option Bytes :=
  (c.device deviceId).bind fun d => if d.status = .active then some d.publicKey else none

lemma activeSigningKey_eq_some {c : Control} {deviceId : String} {key : Bytes} :
    activeSigningKey c deviceId = some key ↔
      ∃ d, c.device deviceId = some d ∧ d.status = .active ∧ d.publicKey = key := by
  simp [activeSigningKey, Option.bind_eq_some_iff]

lemma enroll_eq_some {did name : String} {signingPub : Bytes} {agreementPub : Option Bytes}
    {nowMs : Option ℤ} {c c' : Control}
    (h : enroll did name signingPub agreementPub nowMs c = some c') :
    ∃ devices, c' = { c with approvalDevices := devices } := by
  unfold enroll at h
  split at h
  · obtain ⟨devices, -, rfl⟩ := Option.map_eq_some_iff.mp h
    exact ⟨devices, rfl⟩
  · cases h

end Devices

/-! ## Drafts -/

namespace Drafts

def defaultTtlMs : ℤ := 15 * 60 * 1000

/-- Why a call wrote no draft: the code it refused with, or an exception of another kind. -/
inductive Refusal
  | refused (code : String)
  | raised
  deriving DecidableEq, Repr

/-- The INSERT into `drafts`, with its PRIMARY KEY and the UNIQUE constraint on the nonce. -/
def insertDraft (row : Draft) (c : Control) : Option Control :=
  if row.createdAtMs.all fitsInt64 ∧ row.expiresAtMs.all fitsInt64 ∧
      ∀ d ∈ c.drafts, d.id ≠ row.id ∧ (d.nonce = none ∨ d.nonce ≠ row.nonce) then
    some { c with drafts := c.drafts ++ [row] }
  else none

/-- The arguments of `prepare`. -/
structure PrepareRequest where
  conversationId : String
  accountId : String
  phoneNumberId : String
  recipientWaId : Option String
  text : PyStr
  kind : String := "text"
  nowMs : ℤ
  windowOpen : Bool
  expiresAtMs : Option ℤ := none

/-- The context `prepare` hands to the policy. -/
def PrepareRequest.context (r : PrepareRequest) : PolicyContext where
  recipientWaId := r.recipientWaId
  kind := r.kind
  nowMs := some r.nowMs
  expiresAtMs := some (r.nowMs + 1)
  windowOpen := r.windowOpen

/-- `expires_at_ms or (now_ms + DEFAULT_TTL_MS)`. -/
def PrepareRequest.expiry (r : PrepareRequest) : ℤ :=
  match r.expiresAtMs with
  | none | some 0 => r.nowMs + defaultTtlMs
  | some n => n

/-- The row `prepare` inserts. -/
def preparedRow (P : Platform) (r : PrepareRequest) (draftId : String) (nonce : Nonce)
    (body : Bytes) (kind : DraftKind) : Draft where
  id := draftId
  conversationId := r.conversationId
  accountId := r.accountId
  phoneNumberId := r.phoneNumberId
  recipientWaId := r.recipientWaId
  bodyBytes := some body
  bodySha256 := some (P.sha256 body)
  kind := kind
  templateId := none
  templateParamsSha256 := none
  attachmentsDigest := Canonical.attachmentsDigest P []
  replyToWamid := none
  targetMessageWamid := none
  nonce := some nonce
  createdAtMs := some r.nowMs
  expiresAtMs := some r.expiry
  state := .pendingApproval

/-- The pending draft `prepare` looks up before it writes one. -/
def pendingDraft (c : Control) (conversationId : String) (bodySha256 : Bytes) : Option Draft :=
  c.drafts.find? fun d => d.conversationId = conversationId ∧ d.bodySha256 = some bodySha256 ∧
    d.state = .pendingApproval

/-- `drafts.prepare`. -/
def prepare (P : Platform) (r : PrepareRequest) (draftId : String) (nonce : Nonce) (c : Control) :
    Except Refusal Written :=
  match evaluate r.context with
  | code :: _ => .error (.refused code)
  | [] =>
    match r.text.encode with
    | none => .error .raised
    | some text =>
      match pendingDraft c r.conversationId (P.sha256 (utf8 text)) with
      | some existing => .ok ⟨existing.id, false, c⟩
      | none => do
        let kind ← orStop (DraftKind.ofName r.kind) .raised
        let row := preparedRow P r draftId nonce (utf8 text) kind
        let control ← orStop (insertDraft row c) .raised
        pure ⟨draftId, true, control⟩

lemma insertDraft_eq_some {row : Draft} {c c' : Control} (h : insertDraft row c = some c') :
    c' = { c with drafts := c.drafts ++ [row] } ∧
      ∀ d ∈ c.drafts, d.id ≠ row.id ∧ (d.nonce = none ∨ d.nonce ≠ row.nonce) := by
  unfold insertDraft at h
  split at h
  · rename_i hconstraints
    exact ⟨(Option.some.inj h).symm, hconstraints.2.2⟩
  · cases h

/-- What `prepare` can do when it returns: name a pending draft with the same conversation and
body, or append a draft whose body hash is that of its body. -/
theorem prepare_eq_ok {P : Platform} {r : PrepareRequest} {draftId : String} {nonce : Nonce}
    {c : Control} {w : Written} (h : prepare P r draftId nonce c = .ok w) :
    (w.fresh = false ∧ w.control = c) ∨
    ∃ text kind, r.text.encode = some text ∧ DraftKind.ofName r.kind = some kind ∧
      w.fresh = true ∧
      insertDraft (preparedRow P r draftId nonce (utf8 text) kind) c = some w.control := by
  unfold prepare at h
  split at h
  · cases h
  split at h
  · cases h
  rename_i text htext
  split at h
  · cases h
    exact .inl ⟨rfl, rfl⟩
  · simp only [bind_eq_ok, orStop_eq_ok, pure_eq_ok] at h
    obtain ⟨kind, hkind, control, hcontrol, rfl⟩ := h
    exact .inr ⟨text, kind, htext, hkind, rfl, hcontrol⟩

end Drafts

/-! ## Templates -/

namespace Templates

open Framing Drafts

def tplDomain : Bytes := utf8 "WHATSVAULT-TEMPLATE-PARAMS-V1\n"

/-- One parameter as the digest reads it: the value is its `str()`, and one that is not a
dictionary has the component type `body` and the type `text`. -/
structure TemplateParam where
  componentType : PyStr := .text "body"
  paramType : PyStr := .text "text"
  value : PyStr
  deriving DecidableEq

/-- The chunks `params_digest` hashes for a parameter list that starts at ordinal `i`. -/
def paramParts : ℕ → List TemplateParam → Option (List Bytes)
  | _, [] => some []
  | i, p :: ps => do
    let componentType ← p.componentType.encode
    let paramType ← p.paramType.encode
    let value ← p.value.encode
    let rest ← paramParts (i + 1) ps
    pure ([utf8 (toString i), utf8 componentType, utf8 paramType, utf8 value] ++ rest)

/-- `params_digest`. -/
def paramsDigest (P : Platform) (name language : String) (definitionVersion : ℤ)
    (params : List TemplateParam) : Option Bytes := do
  let parts ← paramParts 0 params
  let body ← frames 4 ([utf8 name, utf8 language, utf8 (toString definitionVersion)] ++ parts)
  pure (P.sha256 (tplDomain ++ body))

/-- `upsert_from_sync`: the catalogue after it, and whether every row could be written.  A row
that cannot (`none`) raises, with the rows before it left in the open transaction. -/
def upsertFromSync : List (Option Template) → Control → Control × Bool
  | [], c => (c, true)
  | none :: _, c => (c, false)
  | some row :: rows, c =>
    upsertFromSync rows { c with templates := Table.upsert Template.templateId row c.templates }

/-- The arguments of `prepare_template`. -/
structure TemplateRequest where
  conversationId : String
  accountId : String
  phoneNumberId : String
  templateId : String
  params : List TemplateParam
  nowMs : ℤ

/-- The row `prepare_template` inserts: it names no recipient and no body. -/
def templatedRow (r : TemplateRequest) (draftId : String) (nonce : Nonce) (digest : Bytes) :
    Draft where
  id := draftId
  conversationId := r.conversationId
  accountId := r.accountId
  phoneNumberId := r.phoneNumberId
  recipientWaId := none
  bodyBytes := none
  bodySha256 := none
  kind := .template
  templateId := some r.templateId
  templateParamsSha256 := some digest
  attachmentsDigest := none
  replyToWamid := none
  targetMessageWamid := none
  nonce := some nonce
  createdAtMs := some r.nowMs
  expiresAtMs := some (r.nowMs + defaultTtlMs)
  state := .pendingApproval

/-- Whether a parameter list of this length fits the template's schema: `some false` is a
mismatch, `none` a schema that `schema.get` raises on. -/
def arityOk : TemplateSchema → ℕ → Option Bool
  | .unconstrained, _ => some true
  | .notAnObject, _ => none
  | .arity params, given => some ((given : ℤ) = params)

/-- `prepare_template`. -/
def prepareTemplate (P : Platform) (r : TemplateRequest) (draftId : String) (nonce : Nonce)
    (c : Control) : Except Refusal Written := do
  let row ← orStop (Table.find Template.templateId r.templateId c.templates)
    (.refused "UNKNOWN_TEMPLATE")
  require (row.status = "APPROVED") (.refused "NOT_APPROVED")
  let fits ← orStop (arityOk row.schema r.params.length) .raised
  require fits (.refused "PARAM_MISMATCH")
  let digest ← orStop (paramsDigest P row.name row.language row.definitionVersion r.params) .raised
  let control ← orStop (insertDraft (templatedRow r draftId nonce digest) c) .raised
  pure ⟨draftId, true, control⟩

lemma prepareTemplate_eq_ok {P : Platform} {r : TemplateRequest} {draftId : String} {nonce : Nonce}
    {c : Control} {w : Written} (h : prepareTemplate P r draftId nonce c = .ok w) :
    ∃ digest, w.fresh = true ∧
      insertDraft (templatedRow r draftId nonce digest) c = some w.control := by
  simp only [prepareTemplate, bind_eq_ok, orStop_eq_ok, require_eq_ok, pure_eq_ok] at h
  obtain ⟨row, -, -, -, fits, -, -, -, digest, -, control, hcontrol, rfl⟩ := h
  exact ⟨digest, rfl, hcontrol⟩

lemma upsertFromSync_eq (rows : List (Option Template)) (c : Control) :
    ∃ templates, (upsertFromSync rows c).1 = { c with templates := templates } := by
  induction rows generalizing c with
  | nil => exact ⟨c.templates, rfl⟩
  | cons row rows ih =>
    cases row with
    | none => exact ⟨c.templates, rfl⟩
    | some row =>
      obtain ⟨templates, h⟩ := ih { c with
        templates := Table.upsert Template.templateId row c.templates }
      exact ⟨templates, h⟩

end Templates

end WhatsVault
