import WhatsVault.Approval.Canonical

/-!
# The three signed messages

A phone signs draft decisions (`Canonical.encode`), capability grants (`encodeGrant`) and
enrolments (`binding`).  Each format is a domain line followed by length-prefixed slots.  The
slots of one format are read off its bytes in one way only, and the domain lines differ before
any of them ends, so a signature given for one message is a signature on no other
(`signed_messages_unambiguous`).
-/

namespace WhatsVault

open Framing

/-! ## Capability grants -/

namespace Capabilities

open Canonical

def domain : Bytes := utf8 "WHATSVAULT-CAPABILITY-V1\n"

def version : ℕ := 1

/-- The dictionary `encode_grant` reads, with `none` for `None` and for a missing entry. -/
structure Fields where
  capabilityId : Option String
  deviceId : Option String
  accountId : Option String
  conversationId : Option String
  action : Option String
  createdAtMs : Option ℤ
  expiresAtMs : Option ℤ
  maxActions : Option ℤ
  nonce : Option Bytes
  deriving DecidableEq

/-- The slots, in the order of `_FIELDS`; `_fb` is `_field_bytes` of the draft decision. -/
def Fields.slots (f : Fields) : Option (List Bytes) := do
  let createdAtMs ← u64Field f.createdAtMs
  let expiresAtMs ← u64Field f.expiresAtMs
  let maxActions ← u64Field f.maxActions
  pure [strField f.capabilityId, strField f.deviceId, strField f.accountId,
    strField f.conversationId, strField f.action, createdAtMs, expiresAtMs, maxActions,
    bytesField f.nonce]

/-- `encode_grant(fields)`, `none` where it raises. -/
def encodeGrant (f : Fields) : Option Bytes := do
  let slots ← f.slots
  let body ← frames 4 slots
  pure (domain ++ digits 2 version ++ body)

/-- Slot-by-slot agreement, an absent string counting as the empty one. -/
structure Fields.Agree (f g : Fields) : Prop where
  capabilityId : f.capabilityId.getD "" = g.capabilityId.getD ""
  deviceId : f.deviceId.getD "" = g.deviceId.getD ""
  accountId : f.accountId.getD "" = g.accountId.getD ""
  conversationId : f.conversationId.getD "" = g.conversationId.getD ""
  action : f.action.getD "" = g.action.getD ""
  createdAtMs : f.createdAtMs = g.createdAtMs
  expiresAtMs : f.expiresAtMs = g.expiresAtMs
  maxActions : f.maxActions = g.maxActions
  nonce : f.nonce.getD [] = g.nonce.getD []

lemma grantSlots_injective {f g : Fields} {slots : List Bytes} (hf : f.slots = some slots)
    (hg : g.slots = some slots) : f.Agree g := by
  simp only [Fields.slots, Option.bind_eq_bind, Option.pure_def, Option.bind_eq_some_iff,
    Option.some.injEq] at hf hg
  obtain ⟨created, hcreated, expires, hexpires, actions, hactions, rfl⟩ := hf
  obtain ⟨created', hcreated', expires', hexpires', actions', hactions', heq⟩ := hg
  simp only [List.cons.injEq, strField_inj, bytesField, and_true] at heq
  obtain ⟨hcapability, hdevice, haccount, hconversation, haction, rfl, rfl, rfl, hnonce⟩ := heq
  exact ⟨hcapability.symm, hdevice.symm, haccount.symm, hconversation.symm, haction.symm,
    u64Field_injective hcreated hcreated', u64Field_injective hexpires hexpires',
    u64Field_injective hactions hactions', hnonce.symm⟩

lemma encodeGrant_eq_some {f : Fields} {payload : Bytes} :
    encodeGrant f = some payload ↔ ∃ slots body, f.slots = some slots ∧
      frames 4 slots = some body ∧ domain ++ digits 2 version ++ body = payload := by
  simp [encodeGrant, Option.bind_eq_some_iff]

/-- **The signed bytes determine the grant.** -/
theorem encodeGrant_injective {f g : Fields} {payload : Bytes}
    (hf : encodeGrant f = some payload) (hg : encodeGrant g = some payload) : f.Agree g := by
  obtain ⟨slots, body, hslots, hbody, rfl⟩ := encodeGrant_eq_some.mp hf
  obtain ⟨slots', body', hslots', hbody', heq⟩ := encodeGrant_eq_some.mp hg
  obtain rfl : body' = body := List.append_cancel_left heq
  obtain rfl : slots = slots' := frames_injective (by decide) hbody hbody'
  exact grantSlots_injective hslots hslots'

end Capabilities

/-! ## Enrolment -/

namespace Devices

def enrolDomain : Bytes := utf8 "WHATSVAULT-ENROL-V1\n"

/-- The four parts of an enrolment. -/
structure Parts where
  pairingId : String
  challenge : Bytes
  signingPub : Bytes
  agreementPub : Bytes
  deriving DecidableEq

def Parts.chunks (p : Parts) : List Bytes :=
  [utf8 p.pairingId, p.challenge, p.signingPub, p.agreementPub]

/-- `_binding(pairing_id, challenge, signing_pub, agreement_pub)`, `none` where it raises. -/
def binding (p : Parts) : Option Bytes := (frames 4 p.chunks).map (enrolDomain ++ ·)

lemma binding_eq_some {p : Parts} {payload : Bytes} :
    binding p = some payload ↔
      ∃ body, frames 4 p.chunks = some body ∧ enrolDomain ++ body = payload := by
  simp [binding]

/-- **The signed bytes determine the enrolment.** -/
theorem binding_injective {p q : Parts} {payload : Bytes} (hp : binding p = some payload)
    (hq : binding q = some payload) : p = q := by
  obtain ⟨body, hbody, rfl⟩ := binding_eq_some.mp hp
  obtain ⟨body', hbody', heq⟩ := binding_eq_some.mp hq
  obtain rfl : body' = body := List.append_cancel_left heq
  have hchunks := frames_injective (by decide) hbody hbody'
  simp only [Parts.chunks, List.cons.injEq, utf8_inj, and_true] at hchunks
  obtain ⟨hpairing, hchallenge, hsigning, hagreement⟩ := hchunks
  cases p
  cases q
  simp_all

end Devices

/-! ## What can be encoded -/

/-- A `u64` slot holds `None` or a number of eight bytes. -/
def IsU64 (v : Option ℤ) : Prop := ∀ n ∈ v, 0 ≤ n ∧ n < 2 ^ 64

/-- A slot fits its four-byte length. -/
def Fits (b : Bytes) : Prop := b.length < 2 ^ 32

lemma u64Field_isSome {v : Option ℤ} (h : IsU64 v) :
    ∃ b, Canonical.u64Field v = some b ∧ Fits b := by
  cases v with
  | none => exact ⟨[], rfl, by simp [Fits]⟩
  | some n =>
    obtain ⟨hnonneg, hlt⟩ := h n rfl
    have hbytes : toBytes 8 n.toNat = some (digits 8 n.toNat) := by
      rw [toBytes_eq_some]
      exact ⟨by omega, rfl⟩
    exact ⟨digits 8 n.toNat, by simp [Canonical.u64Field, hnonneg, hbytes], by simp [Fits]⟩

lemma frames_of_fits {chunks : List Bytes} (h : ∀ chunk ∈ chunks, Fits chunk) :
    ∃ body, frames 4 chunks = some body := by
  rw [← Option.isSome_iff_exists, frames_isSome]
  intro chunk hmem
  have hfits : chunk.length < 2 ^ 32 := h chunk hmem
  exact lt_of_lt_of_eq hfits (by decide)

/-- Every value of a decision is `None` or of the declared type: the strings and byte strings fit
their length prefix and the two times are `u64`. -/
structure Canonical.Fields.Encodable (f : Canonical.Fields) : Prop where
  strings : ∀ v ∈ [f.decision, f.draftId, f.accountId, f.phoneNumberId, f.recipientWaId, f.kind,
    f.templateId, f.replyToWamid, f.targetMessageWamid, f.deviceId], Fits (Canonical.strField v)
  bytes : ∀ v ∈ [f.bodySha256, f.templateParamsSha256, f.attachmentsDigest, f.nonce],
    Fits (Canonical.bytesField v)
  createdAtMs : IsU64 f.createdAtMs
  expiresAtMs : IsU64 f.expiresAtMs

/-- Every value of a grant is `None` or of the declared type. -/
structure Capabilities.Fields.Encodable (f : Capabilities.Fields) : Prop where
  strings : ∀ v ∈ [f.capabilityId, f.deviceId, f.accountId, f.conversationId, f.action],
    Fits (Canonical.strField v)
  nonce : Fits (Canonical.bytesField f.nonce)
  createdAtMs : IsU64 f.createdAtMs
  expiresAtMs : IsU64 f.expiresAtMs
  maxActions : IsU64 f.maxActions

/-- Every part of an enrolment fits its length prefix. -/
def Devices.Parts.Encodable (p : Devices.Parts) : Prop := ∀ chunk ∈ p.chunks, Fits chunk

lemma Canonical.encode_of_encodable {f : Canonical.Fields} (h : f.Encodable) :
    ∃ payload, Canonical.encode f = some payload := by
  obtain ⟨created, hcreated, hcreatedfits⟩ := u64Field_isSome h.createdAtMs
  obtain ⟨expires, hexpires, hexpiresfits⟩ := u64Field_isSome h.expiresAtMs
  obtain ⟨slots, hslots⟩ : ∃ slots, f.slots = some slots := by
    simp [Fields.slots, hcreated, hexpires]
  have hfits : ∀ slot ∈ slots, Fits slot := by
    simp only [Fields.slots, hcreated, hexpires, Option.bind_eq_bind, Option.bind_some,
      Option.pure_def, Option.some.injEq] at hslots
    have hstrings := h.strings
    have hbytes := h.bytes
    subst hslots
    simp only [List.forall_mem_cons] at hstrings hbytes ⊢
    tauto
  obtain ⟨body, hbody⟩ := frames_of_fits hfits
  exact ⟨_, encode_eq_some.mpr ⟨slots, body, hslots, hbody, rfl⟩⟩

lemma Capabilities.encodeGrant_of_encodable {f : Capabilities.Fields} (h : f.Encodable) :
    ∃ payload, Capabilities.encodeGrant f = some payload := by
  obtain ⟨created, hcreated, hcreatedfits⟩ := u64Field_isSome h.createdAtMs
  obtain ⟨expires, hexpires, hexpiresfits⟩ := u64Field_isSome h.expiresAtMs
  obtain ⟨actions, hactions, hactionsfits⟩ := u64Field_isSome h.maxActions
  obtain ⟨slots, hslots⟩ : ∃ slots, f.slots = some slots := by
    simp [Fields.slots, hcreated, hexpires, hactions]
  have hfits : ∀ slot ∈ slots, Fits slot := by
    simp only [Fields.slots, hcreated, hexpires, hactions, Option.bind_eq_bind, Option.bind_some,
      Option.pure_def, Option.some.injEq] at hslots
    have hstrings := h.strings
    have hnonce := h.nonce
    subst hslots
    simp only [List.forall_mem_cons] at hstrings ⊢
    tauto
  obtain ⟨body, hbody⟩ := frames_of_fits hfits
  exact ⟨_, encodeGrant_eq_some.mpr ⟨slots, body, hslots, hbody, rfl⟩⟩

lemma Devices.binding_of_encodable {p : Devices.Parts} (h : p.Encodable) :
    ∃ payload, Devices.binding p = some payload := by
  obtain ⟨body, hbody⟩ := frames_of_fits h
  exact ⟨_, binding_eq_some.mpr ⟨body, hbody, rfl⟩⟩

/-! ## The formats are disjoint -/

/-- Two byte strings that begin differently within their first twelve bytes are no two
encodings of one. -/
lemma append_ne_of_take_ne {a b x y : Bytes} (ha : 12 ≤ a.length) (hb : 12 ≤ b.length)
    (h : a.take 12 ≠ b.take 12) : a ++ x ≠ b ++ y := by
  intro heq
  have htake := congrArg (List.take 12) heq
  rw [List.take_append_of_le_length ha, List.take_append_of_le_length hb] at htake
  exact h htake

lemma decision_ne_grant {f : Canonical.Fields} {g : Capabilities.Fields} {payload : Bytes}
    (hf : Canonical.encode f = some payload) : Capabilities.encodeGrant g ≠ some payload := by
  intro hg
  obtain ⟨-, body, -, -, rfl⟩ := Canonical.encode_eq_some.mp hf
  obtain ⟨-, body', -, -, heq⟩ := Capabilities.encodeGrant_eq_some.mp hg
  rw [List.append_assoc, List.append_assoc] at heq
  exact append_ne_of_take_ne (by decide) (by decide) (by decide) heq

lemma decision_ne_binding {f : Canonical.Fields} {p : Devices.Parts} {payload : Bytes}
    (hf : Canonical.encode f = some payload) : Devices.binding p ≠ some payload := by
  intro hp
  obtain ⟨-, body, -, -, rfl⟩ := Canonical.encode_eq_some.mp hf
  obtain ⟨body', -, heq⟩ := Devices.binding_eq_some.mp hp
  rw [List.append_assoc] at heq
  exact append_ne_of_take_ne (by decide) (by decide) (by decide) heq

lemma grant_ne_binding {g : Capabilities.Fields} {p : Devices.Parts} {payload : Bytes}
    (hg : Capabilities.encodeGrant g = some payload) : Devices.binding p ≠ some payload := by
  intro hp
  obtain ⟨-, body, -, -, rfl⟩ := Capabilities.encodeGrant_eq_some.mp hg
  obtain ⟨body', -, heq⟩ := Devices.binding_eq_some.mp hp
  rw [List.append_assoc] at heq
  exact append_ne_of_take_ne (by decide) (by decide) (by decide) heq

/-- A message a phone signs. -/
inductive SignedMessage
  | decision (f : Canonical.Fields)
  | grant (f : Capabilities.Fields)
  | enrolment (p : Devices.Parts)

namespace SignedMessage

/-- The bytes the signature is over. -/
def encode : SignedMessage → Option Bytes
  | decision f => Canonical.encode f
  | grant f => Capabilities.encodeGrant f
  | enrolment p => Devices.binding p

def Encodable : SignedMessage → Prop
  | decision f => f.Encodable
  | grant f => f.Encodable
  | enrolment p => p.Encodable

/-- One message, up to identifying an absent string with the empty one. -/
def Agree : SignedMessage → SignedMessage → Prop
  | decision f, decision g => f.Agree g
  | grant f, grant g => f.Agree g
  | enrolment p, enrolment q => p = q
  | _, _ => False

lemma encode_of_encodable {m : SignedMessage} (h : m.Encodable) :
    ∃ payload, m.encode = some payload := by
  cases m with
  | decision f => exact Canonical.encode_of_encodable h
  | grant f => exact Capabilities.encodeGrant_of_encodable h
  | enrolment p => exact Devices.binding_of_encodable h

end SignedMessage

/-- **Signed messages are unambiguous.**  Every message whose values have the declared types has an
encoding, and two messages with one encoding are of one kind and agree slot by slot. -/
theorem signed_messages_unambiguous (m n : SignedMessage) (hm : m.Encodable) (hn : n.Encodable) :
    (∃ payload, m.encode = some payload) ∧ (m.encode = n.encode → m.Agree n) := by
  obtain ⟨payload, hpayload⟩ := SignedMessage.encode_of_encodable hm
  refine ⟨⟨payload, hpayload⟩, fun heq => ?_⟩
  have hpayload' : n.encode = some payload := by rw [← heq, hpayload]
  cases m with
  | decision f =>
    cases n with
    | decision g => exact Canonical.encode_injective hpayload hpayload'
    | grant g => exact absurd hpayload' (decision_ne_grant hpayload)
    | enrolment p => exact absurd hpayload' (decision_ne_binding hpayload)
  | grant f =>
    cases n with
    | decision g => exact absurd hpayload (decision_ne_grant hpayload')
    | grant g => exact Capabilities.encodeGrant_injective hpayload hpayload'
    | enrolment p => exact absurd hpayload' (grant_ne_binding hpayload)
  | enrolment p =>
    cases n with
    | decision g => exact absurd hpayload (decision_ne_binding hpayload')
    | grant g => exact absurd hpayload (grant_ne_binding hpayload')
    | enrolment q => exact Devices.binding_injective hpayload hpayload'

/-- An absent reply target and an empty one are the one case that a signature does not tell
apart. -/
theorem signed_messages_unambiguous_sample :
    let empty : Canonical.Fields :=
      ⟨some "APPROVE", none, none, none, none, none, none, none, none, none, none, none, none,
        some 0, none, none⟩
    (∃ payload, (SignedMessage.decision empty).encode = some payload) ∧
      ((SignedMessage.decision empty).encode =
          (SignedMessage.decision { empty with replyToWamid := some "" }).encode →
        (SignedMessage.decision empty).Agree
          (SignedMessage.decision { empty with replyToWamid := some "" })) := by
  refine signed_messages_unambiguous _ _ ⟨?_, ?_, ?_, ?_⟩ ⟨?_, ?_, ?_, ?_⟩
  all_goals simp [Fits, IsU64, Canonical.strField, Canonical.bytesField]
  all_goals decide

end WhatsVault
