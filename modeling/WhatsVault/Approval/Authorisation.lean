import WhatsVault.Approval.Operations

/-!
# Every transmission is authorised byte for byte

`SendAuthority` lists what stands behind a message handed to the provider: an active device, its
64-byte signature, and a field map whose encoding the signature verifies over and whose entries are
the very arguments of the call.  `SameDecision` is what the encoding's injectivity adds: a signature
made over another map passes the check only when that map says the same.

An absent string and an empty one share the zero-length slot.  Of the fields that matter here only
the phone number id can be empty, so it is the one entry compared up to that identification.
-/

namespace WhatsVault.Approval

open Transaction Sender

/-- Ideal signatures: what was signed under a key, and that a signature made over one message
verifies for no other. -/
structure IdealSignatures (P : Platform) where
  /-- `made key signature payload`. -/
  made : Bytes → Bytes → Bytes → Prop
  binding : ∀ key signature payload payload', made key signature payload →
    P.ecdsaVerify payload' signature key = true → payload' = payload

/-- The authority behind `send_text(p, r, b)` at time `now`. -/
structure SendAuthority (P : Platform) (c : Control) (env : Envelope) (now : ℤ) (p : String)
    (r : Option String) (b : String) (device : Device) (draft : Draft) (fields : Canonical.Fields)
    (payload signature : Bytes) : Prop where
  named : env.draftId = some draft.id ∧ c.draft draft.id = some draft
  enrolled : env.deviceId = some device.id ∧ c.device device.id = some device
  active : device.status = .active
  signed : env.signature = some signature ∧ signature.length = 64
  encoded : Canonical.encode fields = some payload
  verified : P.ecdsaVerify payload signature device.publicKey = true
  decision : fields.decision = some "APPROVE"
  phoneNumberId : fields.phoneNumberId = some p
  recipientWaId : fields.recipientWaId = r ∧ r.getD "" ≠ ""
  bodySha256 : fields.bodySha256 = some (P.sha256 (utf8 b))
  draftNonce : ∃ nonce, draft.nonce = some nonce ∧ fields.nonce = some nonce.val
  draftExpiry : ∃ expires, draft.expiresAtMs = some expires ∧ fields.expiresAtMs = some expires ∧
    now < expires

/-- `g` approves sending the same body to the same recipient from the same number, under the same
nonce and expiry. -/
structure SameDecision (P : Platform) (fields g : Canonical.Fields) (p : String)
    (r : Option String) (b : String) : Prop where
  decision : g.decision = some "APPROVE"
  phoneNumberId : g.phoneNumberId.getD "" = p
  recipientWaId : g.recipientWaId = r
  bodySha256 : g.bodySha256 = some (P.sha256 (utf8 b))
  body : ∀ b', g.bodySha256 = some (P.sha256 (utf8 b')) → b' = b
  nonce : g.nonce = fields.nonce
  expiresAtMs : g.expiresAtMs = fields.expiresAtMs

/-! ## The invariant of the drafts -/

def DraftsWellPrepared (P : Platform) (c : Control) : Prop := ∀ d ∈ c.drafts, WellPrepared P d

lemma draftsWellPrepared_untouched {P : Platform} {c c' : Control} (hc : Untouched P c c')
    (h : DraftsWellPrepared P c) : DraftsWellPrepared P c' := by
  obtain ⟨rows, hrows, hwell⟩ := hc.drafts
  intro d hd
  rw [hrows] at hd
  rcases List.mem_append.mp hd with hold | hnew
  · exact h d hold
  · exact hwell d hnew

lemma draftsWellPrepared_wrote {P : Platform} {env : Envelope} {now : ℤ}
    {before after : Conn Control} {log : List Event} (hw : Wrote P env now before after log)
    (h : before.Holds (DraftsWellPrepared P)) : after.Holds (DraftsWellPrepared P) := by
  cases hw with
  | stopped stop => exact h
  | uncommitted auth consumed durable working silent =>
    obtain ⟨-, -, rfl⟩ := consumeNonce_eq_ok consumed
    refine ⟨durable ▸ h.1, ?_⟩
    rcases working with hworking | hworking
    · exact hworking ▸ h.1
    · exact hworking ▸ h.2
  | committed auth consumed same sent =>
    obtain ⟨-, -, rfl⟩ := consumeNonce_eq_ok consumed
    refine Conn.holds_clean fun d hd => ?_
    rw [same.drafts] at hd
    exact h.2 d hd

lemma draftsWellPrepared_step {P : Platform} {S : Stdlib} (s : Process) (op : Op)
    (h : s.control.Holds (DraftsWellPrepared P)) :
    (step P S s op).1.control.Holds (DraftsWellPrepared P) := by
  cases op with
  | call call => exact holds_call (fun _ _ hc => draftsWellPrepared_untouched hc) h call
  | executeWrite env reading attemptId crash reply =>
    exact draftsWellPrepared_wrote (executeWrite_cases P env reading attemptId crash reply s) h
  | restart => exact h.rollback

/-! ## One call -/

section Send

variable {P : Platform} {c : Control} {now : ℤ} {env : Envelope} {permit : Permit} {b : String}

/-- The body an authorised call decodes is the one whose hash was signed. -/
lemma Authorised.bodySha256 (h : Authorised P c now env permit) (hdrafts : DraftsWellPrepared P c)
    (hb : decodeUtf8 permit.body = some b) :
    permit.draft.bodySha256 = some (P.sha256 (utf8 b)) := by
  obtain ⟨hrecipient, -⟩ := (evaluate_ok_iff _).mp h.policy
  obtain ⟨hmem, -⟩ := Table.mem_of_find_eq_some h.draft
  obtain ⟨-, -, hnone | ⟨body, hbody, hsha⟩⟩ := hdrafts _ hmem
  · simp [sendContext, hnone] at hrecipient
  · rw [h.body, hbody, Option.getD_some, decodeUtf8_eq_some] at hb
    rw [hb, hsha]

lemma Authorised.sendAuthority (h : Authorised P c now env permit)
    (hdrafts : DraftsWellPrepared P c) (hb : decodeUtf8 permit.body = some b) :
    ∃ device, SendAuthority P c env now permit.draft.phoneNumberId permit.draft.recipientWaId b
      device permit.draft (canonicalFields permit.draft "APPROVE" permit.deviceId) permit.payload
      permit.signature := by
  obtain ⟨hrecipient, -, -, hunexpired, -⟩ := (evaluate_ok_iff _).mp h.policy
  obtain ⟨device, hdevice, hactive, hkey⟩ := Devices.activeSigningKey_eq_some.mp h.signingPub
  obtain ⟨hmem, -⟩ := Table.mem_of_find_eq_some h.draft
  obtain ⟨hnonce, hexpires, -⟩ := hdrafts _ hmem
  obtain ⟨nonce, hnonce⟩ := Option.isSome_iff_exists.mp hnonce
  obtain ⟨expires, hexpires⟩ := Option.isSome_iff_exists.mp hexpires
  have hid := (Table.mem_of_find_eq_some hdevice).2
  have hverified := h.verified
  simp only [verify, decide_eq_true_eq] at hverified
  refine ⟨device, ⟨h.draftId, h.draft⟩, ⟨hid ▸ h.deviceId, hid ▸ hdevice⟩, hactive,
    ⟨h.signature, hverified.1⟩, h.payload, hkey ▸ hverified.2, rfl, rfl, ⟨rfl, hrecipient⟩,
    h.bodySha256 hdrafts hb, ⟨nonce, hnonce, by simp [canonicalFields, hnonce]⟩,
    ⟨expires, hexpires, hexpires, ?_⟩⟩
  simpa [sendContext, hexpires, unexpired] using hunexpired

end Send

/-- `some s` for a nonempty `s` is determined up to the identification of absent and empty. -/
lemma eq_some_of_getD_eq {α : Type} {v : Option α} {d x : α} (h : v.getD d = x) (hx : x ≠ d) :
    v = some x := by
  cases v with
  | none => exact absurd h.symm hx
  | some y => exact congrArg some h

/-- A map with the same encoding as that of an authorised send takes the same decision. -/
lemma SendAuthority.sameDecision {P : Platform} {c : Control} {env : Envelope} {now : ℤ}
    {p : String} {r : Option String} {b : String} {device : Device} {draft : Draft}
    {fields g : Canonical.Fields} {payload signature : Bytes}
    (h : SendAuthority P c env now p r b device draft fields payload signature)
    (hsha : Function.Injective P.sha256) (hne : ∀ m, P.sha256 m ≠ [])
    (hg : Canonical.encode g = some payload) : SameDecision P fields g p r b := by
  have hagree := Canonical.encode_injective hg h.encoded
  obtain ⟨nonce, -, hnonce⟩ := h.draftNonce
  obtain ⟨hrecipient, hbound⟩ := h.recipientWaId
  have hbody : g.bodySha256 = some (P.sha256 (utf8 b)) :=
    eq_some_of_getD_eq (by simpa [h.bodySha256] using hagree.bodySha256) (hne _)
  refine ⟨eq_some_of_getD_eq (by simpa [h.decision] using hagree.decision) (by decide),
    by simpa [h.phoneNumberId] using hagree.phoneNumberId, ?_, hbody, ?_, ?_, hagree.expiresAtMs⟩
  · cases r with
    | none => exact absurd rfl hbound
    | some wa =>
      exact eq_some_of_getD_eq (by simpa [hrecipient] using hagree.recipientWaId) hbound
  · intro b' hb'
    exact utf8_injective (hsha (Option.some.inj (hb'.symm.trans hbody)))
  · have hlength : nonce.val ≠ [] := fun hnil => by simpa [hnil] using nonce.property
    rw [hnonce]
    exact eq_some_of_getD_eq (by simpa [hnonce] using hagree.nonce) hlength

/-! ## The runs -/

/-- Every message this step hands to the provider is backed by an authority, and only a signature
over the same decision could have passed its check. -/
def ByteForByte (P : Platform) (S : Stdlib) (M : IdealSignatures P) (s : Process) : Op → Prop
  | .executeWrite env reading attemptId crash reply =>
    ∀ permit now p r b,
      .sendText permit now p r b ∈
        (step P S s (.executeWrite env reading attemptId crash reply)).2 →
      ∃ device draft fields payload signature,
        SendAuthority P s.control.working env now p r b device draft fields payload signature ∧
        ∀ g payload', Canonical.encode g = some payload' →
          M.made device.publicKey signature payload' → SameDecision P fields g p r b
  | _ => True

/-- **Every transmission of every run is authorised byte for byte.** -/
theorem transmissions_authorised (P : Platform) (S : Stdlib) (M : IdealSignatures P)
    (hsha : Function.Injective P.sha256) (hne : ∀ m, P.sha256 m ≠ []) (ops : List Op) :
    Run.Meets (step P S) (ByteForByte P S M) start ops := by
  refine Run.meets_of_invariant (C := fun _ _ => True)
    (I := fun s => s.control.Holds (DraftsWellPrepared P))
    (fun s op hs _ => draftsWellPrepared_step s op hs) (fun s op hs _ => ?_)
    (Conn.holds_clean (by simp [DraftsWellPrepared, Control.empty]))
    (Run.meets_of_forall (fun _ _ => trivial) start ops)
  cases op with
  | call call => trivial
  | restart => trivial
  | executeWrite env reading attemptId crash reply =>
    intro permit now p r b hsend
    obtain ⟨rfl, hauth, rfl, rfl, hb⟩ :=
      (executeWrite_cases P env reading attemptId crash reply s).sendText hsend
    obtain ⟨device, hauthority⟩ := hauth.sendAuthority hs.2 hb
    refine ⟨device, permit.draft, _, permit.payload, permit.signature, hauthority,
      fun g payload' hg hmade => ?_⟩
    obtain rfl := M.binding _ _ _ _ hmade hauthority.verified
    exact hauthority.sameDecision hsha hne hg

/-- On the platform of one signature, the signature was made over that one payload. -/
def sampleSignatures (payload : Bytes) : IdealSignatures (signedOnce payload) where
  made key signature m := m = payload ∧ signature = sampleSignature ∧ key = sampleKey
  binding key signature m m' hmade hverify := by
    simp only [signedOnce, decide_eq_true_eq] at hverify
    rw [hmade.1, hverify.1]

/-- The theorem on a run that sends. -/
theorem transmissions_authorised_sample_run :
    transmissions (Run.events (step (signedOnce (samplePayload "PN1" "text")) sampleStdlib) start
      (.call (.advanceWindow "cnv_1" 1500) :: sampleRun "PN1" "text")) = ["drf_1"] ∧
    Run.Meets (step (signedOnce (samplePayload "PN1" "text")) sampleStdlib)
      (ByteForByte _ sampleStdlib (sampleSignatures (samplePayload "PN1" "text"))) start
      (.call (.advanceWindow "cnv_1" 1500) :: sampleRun "PN1" "text") :=
  ⟨by decide +kernel, transmissions_authorised _ _ _ (fun _ _ h => List.tail_eq_of_cons_eq h)
    (fun _ => List.cons_ne_nil _ _) _⟩

/-- A draft prepared with the empty phone number id is sent on a signature made over a map that
names no phone number at all. -/
theorem absent_number_signs_the_empty_one :
    ∃ permit g payload,
      .sendText permit 2000 "" (some "61999") "hi" ∈
        Run.events (step (signedOnce (samplePayload "" "text")) sampleStdlib) start
          (.call (.advanceWindow "cnv_1" 1500) :: sampleRun "" "text") ∧
      Canonical.encode g = some payload ∧
      (sampleSignatures (samplePayload "" "text")).made permit.signingPub permit.signature payload ∧
      g.phoneNumberId ≠ some "" :=
  ⟨⟨sampleDraft "" "text", "dev_1", sampleKey, sampleSignature, samplePayload "" "text", utf8 "hi"⟩,
    { sampleFields "" "text" with phoneNumberId := none }, samplePayload "" "text",
    by decide +kernel, by decide +kernel, ⟨rfl, rfl, rfl⟩, by decide⟩

end WhatsVault.Approval
