import WhatsVault.Approval.Drafts

/-!
# The approval relay

`accept_envelope` persists a signed decision after a structural check of it: a known active device,
a 64-byte signature, a known decision and an existing draft.  It verifies no signature and
authorises nothing; its only write is a row of `approvals`.
-/

namespace WhatsVault.Relay

open Checks

/-- Why `accept_envelope` did not return: a `RelayRejected` reason, or another exception. -/
inductive Refusal
  | rejected (reason : String)
  | raised
  deriving DecidableEq, Repr

/-! ## Hexadecimal input -/

/-- The value of a hexadecimal digit, of either case. -/
def digitValue (c : Char) : Option ℕ :=
  if '0' ≤ c ∧ c ≤ '9' then some (c.toNat - 48)
  else if 'a' ≤ c ∧ c ≤ 'f' then some (c.toNat - 87)
  else if 'A' ≤ c ∧ c ≤ 'F' then some (c.toNat - 55)
  else none

/-- The white space `bytes.fromhex` skips between two bytes. -/
def isSpace (c : Char) : Bool :=
  c = ' ' ∨ c = '\t' ∨ c = '\n' ∨ c = '\r' ∨ c.toNat = 11 ∨ c.toNat = 12

def fromHexChars : List Char → Option Bytes
  | [] => some []
  | c :: cs =>
    if isSpace c then fromHexChars cs
    else
      match cs with
      | [] => none
      | d :: ds => do
        let high ← digitValue c
        let low ← digitValue d
        let rest ← fromHexChars ds
        pure (UInt8.ofNat (16 * high + low) :: rest)

/-- `bytes.fromhex(x)`: raises on what is not a string of digit pairs. -/
def fromHex : Json → Option Bytes
  | .str (.text s) => fromHexChars s.toList
  | _ => none

/-- `bytes.fromhex(env[key]) if env.get(key) else default`. -/
def hexEntry (env : Json) (key : String) : Option (Option Bytes) := do
  let v ← env.get key
  if v.truthy then (fromHex v).map some else pure none

/-! ## The structural check and the insert -/

/-- Whether a nullable column equals a bound value. -/
def matchesNullable {α : Type} [DecidableEq α] (column bound : Option α) : Bool :=
  column = bound ∧ bound.isSome

/-- The row a repeated envelope finds. -/
def findApproval (c : Control) (draftId deviceId : String) (decision : Decision)
    (nonce : Option Bytes) : Option Approval :=
  c.approvals.find? fun a => a.draftId = draftId ∧ a.deviceId = deviceId ∧
    a.decision = decision ∧ matchesNullable (a.nonce.map Subtype.val) nonce

/-- The INSERT into `approvals`. -/
def insertApproval (row : Approval) (c : Control) : Option Control :=
  (Table.insert Approval.approvalId row c.approvals).map fun approvals =>
    { c with approvals := approvals }

/-- The `CHECK` on the nonce column. -/
def checkNonce : Option Bytes → Option (Option Nonce)
  | none => some none
  | some b => if h : b.length = 32 then some (some ⟨b, h⟩) else none

/-- `accept_envelope`. -/
def acceptEnvelope (S : Stdlib) (envelope : Bytes) (approvalId : String) (c : Control) :
    Except Refusal Written := do
  let env ← orStop (S.loads envelope) .raised
  let deviceId ← orStop ((env.get "device_id").bind (Json.bindText S)) .raised
  let device ← orStop (deviceId.bind c.device) (.rejected "unknown_or_inactive_device")
  require (device.status = .active) (.rejected "unknown_or_inactive_device")
  let sig ← orStop (hexEntry env "signature_hex") .raised
  require ((sig.getD []).length = 64) (.rejected "bad_signature_length")
  let decision ← orStop (env.get "decision") .raised
  let decision ← orStop (decision.encode.bind Decision.ofName) (.rejected "bad_decision")
  let draftId ← orStop ((env.get "draft_id").bind (Json.bindText S)) .raised
  let draft ← orStop (draftId.bind c.draft) (.rejected "unknown_draft")
  let nonce ← orStop (hexEntry env "nonce_hex") .raised
  match findApproval c draft.id device.id decision nonce with
  | some existing => pure ⟨existing.approvalId, false, c⟩
  | none =>
    let nonce ← orStop (checkNonce nonce) .raised
    let row := ⟨approvalId, draft.id, device.id, decision, sig.getD [], envelope, nonce⟩
    let control ← orStop (insertApproval row c) .raised
    pure ⟨approvalId, true, control⟩

/-- An accepted envelope changes nothing but `approvals`. -/
theorem acceptEnvelope_eq_ok {S : Stdlib} {envelope : Bytes} {approvalId : String} {c : Control}
    {w : Written} (h : acceptEnvelope S envelope approvalId c = .ok w) :
    ∃ approvals, w.control = { c with approvals := approvals } := by
  simp only [acceptEnvelope, bind_eq_ok, orStop_eq_ok, require_eq_ok] at h
  obtain ⟨env, -, deviceId, -, device, -, -, -, sig, -, -, -, v, -, decision, -, draftId, -,
    draft, -, nonce, -, h⟩ := h
  split at h
  · cases pure_eq_ok.mp h
    exact ⟨c.approvals, rfl⟩
  · simp only [bind_eq_ok, orStop_eq_ok, pure_eq_ok, insertApproval, Option.map_eq_some_iff] at h
    obtain ⟨checked, -, control, ⟨approvals, -, rfl⟩, rfl⟩ := h
    exact ⟨approvals, rfl⟩

end WhatsVault.Relay
