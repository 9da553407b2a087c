import WhatsVault.Platform

/-!
# The canonical draft decision

`encode` is the byte string the phone signs and the sender recomputes: a domain line, a two-byte
version and sixteen length-prefixed slots in a fixed order.  An absent value is a zero-length
slot, so two field maps encode to the same bytes exactly when they agree slot by slot up to
identifying an absent string with the empty one (`encode_injective`); an absent integer is not
confused with any integer, because a present one always takes eight bytes.
-/

namespace WhatsVault.Canonical

open Framing

def version : ℕ := 1

def domain : Bytes := utf8 "WHATSVAULT-DRAFT-DECISION-V1\n"

/-- The dictionary `encode` reads, with `none` for `None` and for a missing entry. -/
structure Fields where
  decision : Option String
  draftId : Option String
  accountId : Option String
  phoneNumberId : Option String
  recipientWaId : Option String
  bodySha256 : Option Bytes
  kind : Option String
  templateId : Option String
  templateParamsSha256 : Option Bytes
  replyToWamid : Option String
  targetMessageWamid : Option String
  attachmentsDigest : Option Bytes
  nonce : Option Bytes
  createdAtMs : Option ℤ
  expiresAtMs : Option ℤ
  deviceId : Option String
  deriving DecidableEq

/-- `_field_bytes("str", v)`. -/
def strField (v : Option String) : Bytes := utf8 (v.getD "")

/-- `_field_bytes("bytes", v)`. -/
def bytesField (v : Option Bytes) : Bytes := v.getD []

/-- `_field_bytes("u64", v)`: `to_bytes` raises on a negative number and on one of more than
eight bytes. -/
def u64Field : Option ℤ → Option Bytes
  | none => some []
  | some n => if 0 ≤ n then toBytes 8 n.toNat else none

/-- The slots, in the order of `_FIELDS`. -/
def Fields.slots (f : Fields) : Option (List Bytes) := do
  let createdAtMs ← u64Field f.createdAtMs
  let expiresAtMs ← u64Field f.expiresAtMs
  pure [strField f.decision, strField f.draftId, strField f.accountId, strField f.phoneNumberId,
    strField f.recipientWaId, bytesField f.bodySha256, strField f.kind, strField f.templateId,
    bytesField f.templateParamsSha256, strField f.replyToWamid, strField f.targetMessageWamid,
    bytesField f.attachmentsDigest, bytesField f.nonce, createdAtMs, expiresAtMs,
    strField f.deviceId]

/-- `encode(fields)`, `none` where it raises. -/
def encode (f : Fields) : Option Bytes := do
  let slots ← f.slots
  let body ← frames 4 slots
  pure (domain ++ digits 2 version ++ body)

def attachDomain : Bytes := utf8 "WHATSVAULT-ATTACHMENTS-V1\n"

/-- One entry of an attachment list, with the defaults of `it.get` filled in. -/
structure Attachment where
  contentSha256 : String
  mime : String
  size : ℤ

/-- The chunks `attachments_digest` hashes for a list that starts at ordinal `i`. -/
def attachmentParts : ℕ → List Attachment → List Bytes
  | _, [] => []
  | i, item :: items =>
    [utf8 (toString i), utf8 item.contentSha256, utf8 item.mime, utf8 (toString item.size)] ++
      attachmentParts (i + 1) items

/-- `attachments_digest(items)`. -/
def attachmentsDigest (P : Platform) (items : List Attachment) : Option Bytes :=
  (frames 4 (attachmentParts 0 items)).map fun body => P.sha256 (attachDomain ++ body)

/-! ## Injectivity -/

@[simp] lemma strField_inj {v w : Option String} :
    strField v = strField w ↔ v.getD "" = w.getD "" := utf8_inj

lemma u64Field_eq_some {v : Option ℤ} {b : Bytes} (h : u64Field v = some b) :
    (v = none ∧ b = []) ∨ ∃ n, v = some n ∧ 0 ≤ n ∧ toBytes 8 n.toNat = some b := by
  cases v with
  | none => exact .inl ⟨rfl, by simpa [u64Field] using h.symm⟩
  | some n =>
    simp only [u64Field] at h
    split at h
    · exact .inr ⟨n, rfl, ‹_›, h⟩
    · cases h

lemma u64Field_injective {v w : Option ℤ} {b : Bytes} (hv : u64Field v = some b)
    (hw : u64Field w = some b) : v = w := by
  rcases u64Field_eq_some hv with ⟨rfl, rfl⟩ | ⟨m, rfl, hm, hmb⟩
  · rcases u64Field_eq_some hw with ⟨rfl, -⟩ | ⟨n, -, -, hnb⟩
    · rfl
    · exact absurd (length_of_toBytes hnb) (by simp)
  · rcases u64Field_eq_some hw with ⟨-, rfl⟩ | ⟨n, rfl, hn, hnb⟩
    · exact absurd (length_of_toBytes hmb) (by simp)
    · have hnat := toBytes_injective hmb hnb
      congr 1
      omega

/-- Slot-by-slot agreement, an absent string counting as the empty one. -/
structure Fields.Agree (f g : Fields) : Prop where
  decision : f.decision.getD "" = g.decision.getD ""
  draftId : f.draftId.getD "" = g.draftId.getD ""
  accountId : f.accountId.getD "" = g.accountId.getD ""
  phoneNumberId : f.phoneNumberId.getD "" = g.phoneNumberId.getD ""
  recipientWaId : f.recipientWaId.getD "" = g.recipientWaId.getD ""
  bodySha256 : f.bodySha256.getD [] = g.bodySha256.getD []
  kind : f.kind.getD "" = g.kind.getD ""
  templateId : f.templateId.getD "" = g.templateId.getD ""
  templateParamsSha256 : f.templateParamsSha256.getD [] = g.templateParamsSha256.getD []
  replyToWamid : f.replyToWamid.getD "" = g.replyToWamid.getD ""
  targetMessageWamid : f.targetMessageWamid.getD "" = g.targetMessageWamid.getD ""
  attachmentsDigest : f.attachmentsDigest.getD [] = g.attachmentsDigest.getD []
  nonce : f.nonce.getD [] = g.nonce.getD []
  createdAtMs : f.createdAtMs = g.createdAtMs
  expiresAtMs : f.expiresAtMs = g.expiresAtMs
  deviceId : f.deviceId.getD "" = g.deviceId.getD ""

lemma slots_injective {f g : Fields} {slots : List Bytes} (hf : f.slots = some slots)
    (hg : g.slots = some slots) : f.Agree g := by
  simp only [Fields.slots, Option.bind_eq_bind, Option.pure_def, Option.bind_eq_some_iff,
    Option.some.injEq] at hf hg
  obtain ⟨created, hcreated, expires, hexpires, rfl⟩ := hf
  obtain ⟨created', hcreated', expires', hexpires', heq⟩ := hg
  simp only [List.cons.injEq, strField_inj, bytesField, and_true] at heq
  obtain ⟨hdecision, hdraft, haccount, hphone, hrecipient, hbody, hkind, htemplate, hparams,
    hreply, htarget, hattachments, hnonce, rfl, rfl, hdevice⟩ := heq
  exact ⟨hdecision.symm, hdraft.symm, haccount.symm, hphone.symm, hrecipient.symm, hbody.symm,
    hkind.symm, htemplate.symm, hparams.symm, hreply.symm, htarget.symm, hattachments.symm,
    hnonce.symm, u64Field_injective hcreated hcreated', u64Field_injective hexpires hexpires',
    hdevice.symm⟩

lemma encode_eq_some {f : Fields} {payload : Bytes} :
    encode f = some payload ↔ ∃ slots body, f.slots = some slots ∧ frames 4 slots = some body ∧
      domain ++ digits 2 version ++ body = payload := by
  simp [encode, Option.bind_eq_some_iff]

/-- **The signed bytes determine the decision.** -/
theorem encode_injective {f g : Fields} {payload : Bytes} (hf : encode f = some payload)
    (hg : encode g = some payload) : f.Agree g := by
  obtain ⟨slots, body, hslots, hbody, rfl⟩ := encode_eq_some.mp hf
  obtain ⟨slots', body', hslots', hbody', heq⟩ := encode_eq_some.mp hg
  obtain rfl : body' = body := List.append_cancel_left heq
  obtain rfl : slots = slots' := frames_injective (by decide) hbody hbody'
  exact slots_injective hslots hslots'

end WhatsVault.Canonical
