import WhatsVault.Approval.Preparation
import WhatsVault.Crypto.DeviceSeal
import WhatsVault.Library.JsonText

/-!
# What the phone is shown

`sealed_draft_detail` seals the recipient, the body and the nonce of a draft to the agreement key of an
active device, as one JSON object, with the id of the draft as associated data.

Nothing changes a draft once it is there, so what was sealed of it, at any moment of a run, is what every
transmission of the draft in that run hands to the provider (`displayed_is_sent`).
-/

namespace WhatsVault

open Checks Transaction

/-! ## The detail of a draft -/

/-- `devices.active_agreement_key`. -/
def Devices.activeAgreementKey (c : Control) (deviceId : String) : Option Bytes :=
  (c.device deviceId).bind fun d => if d.status = .active then d.agreementPublicKey else none

lemma Devices.activeAgreementKey_eq_some {c : Control} {deviceId : String} {key : Bytes} :
    activeAgreementKey c deviceId = some key ↔
      ∃ d, c.device deviceId = some d ∧ d.status = .active ∧ d.agreementPublicKey = some key := by
  simp [activeAgreementKey, Option.bind_eq_some_iff]

namespace Relay

/-- The object `sealed_draft_detail` writes. -/
structure Detail where
  draftId : String
  recipientWaId : Option String
  body : Option String
  nonce : Option String
  deriving DecidableEq, Repr

def Detail.members (d : Detail) : List (List Char × Option (List Char)) :=
  [("draft_id".toList, some d.draftId.toList), ("recipient_wa_id".toList, d.recipientWaId.map String.toList),
    ("body".toList, d.body.map String.toList), ("nonce".toList, d.nonce.map String.toList)]

/-- `json.dumps(…).encode("utf-8")`. -/
def Detail.dumps (d : Detail) : Bytes := utf8 (String.ofList (JsonText.object d.members))

/-- The detail of a row, `none` where its body is not UTF-8. -/
def detailOf (draftId : String) (row : Draft) : Option Detail :=
  match row.bodyBytes with
  | none => some ⟨draftId, row.recipientWaId, none, row.nonce.map fun n => hex n.val⟩
  | some body => (decodeUtf8 body).map fun body =>
    ⟨draftId, row.recipientWaId, some body, row.nonce.map fun n => hex n.val⟩

/-- The call of `device_seal.seal` that `sealed_draft_detail` makes, with the key and the nonce that it
draws. -/
def detailCall (draftId deviceId : String) (eph nonce : Bytes) (c : Control) :
    Except Refusal DeviceSeal.SealCall := do
  let agreePub ← orStop (Devices.activeAgreementKey c deviceId)
    (.rejected "device_has_no_active_agreement_key")
  let row ← orStop (c.draft draftId) (.rejected "unknown_draft")
  let detail ← orStop (detailOf draftId row) .raised
  pure ⟨agreePub, detail.dumps, utf8 draftId, eph, nonce⟩

/-- `sealed_draft_detail`. -/
def sealedDraftDetail (C : DeviceSeal.Primitives) (draftId deviceId : String) (eph nonce : Bytes)
    (c : Control) : Except Refusal Bytes := do
  let call ← detailCall draftId deviceId eph nonce c
  orStop (call.seal C) .raised

/-- A written detail has one reading. -/
lemma dumps_injective : Function.Injective Detail.dumps := by
  intro d d' h
  have hmembers := JsonText.object_injective (String.ofList_injective (utf8_injective h))
  have hchars {v w : Option String} (hv : v.map String.toList = w.map String.toList) : v = w :=
    Option.map_injective (fun _ _ h => String.toList_inj.mp h) hv
  simp only [Detail.members, List.cons.injEq, Prod.mk.injEq, true_and, and_true, Option.some.injEq,
    String.toList_inj] at hmembers
  obtain ⟨hid, hrecipient, hbody, hnonce⟩ := hmembers
  cases d
  cases d'
  simp only [Detail.mk.injEq]
  exact ⟨hid, hchars hrecipient, hchars hbody, hchars hnonce⟩

/-- The body a detail shows is the one that is sent; a draft without one shows none and sends the empty
one. -/
lemma body_of_detailOf {draftId : String} {row : Draft} {detail : Detail} {body : String}
    (hdetail : detailOf draftId row = some detail)
    (hbody : decodeUtf8 (row.bodyBytes.getD []) = some body) : body = detail.body.getD "" := by
  unfold detailOf at hdetail
  split at hdetail
  · rename_i hnone
    rw [hnone] at hbody
    cases hdetail
    have hempty : decodeUtf8 [] = some "" := decodeUtf8_eq_some.mpr (by decide)
    exact Option.some.inj (hbody.symm.trans hempty)
  · rename_i bytes hsome
    rw [hsome, Option.getD_some] at hbody
    obtain ⟨body', hdecode, rfl⟩ := Option.map_eq_some_iff.mp hdetail
    exact Option.some.inj (hbody.symm.trans hdecode)

lemma detailOf_fields {draftId : String} {row : Draft} {detail : Detail}
    (h : detailOf draftId row = some detail) : detail.draftId = draftId ∧
      detail.recipientWaId = row.recipientWaId ∧ detail.nonce = row.nonce.map fun n => hex n.val := by
  unfold detailOf at h
  split at h
  · cases h
    exact ⟨rfl, rfl, rfl⟩
  · obtain ⟨body, -, rfl⟩ := Option.map_eq_some_iff.mp h
    exact ⟨rfl, rfl, rfl⟩

end Relay

/-! ## Runs with details -/

namespace SealedDetail

open Approval Sender

/-- A call on the sender's process, or a request for the detail of a draft. -/
inductive Op
  | approval (op : Approval.Op)
  | sealedDraftDetail (draftId deviceId : String) (eph nonce : Bytes)

inductive Event
  | approval (event : Sender.Event)
  /-- The envelope that went out, and the call that made it. -/
  | detailed (draftId deviceId : String) (call : DeviceSeal.SealCall) (envelope : Bytes)
  deriving DecidableEq

variable (P : Platform) (S : Stdlib) (C : DeviceSeal.Primitives)

def step (s : Process) : Op → Process × List Event
  | .approval op => ((Approval.step P S s op).1, (Approval.step P S s op).2.map .approval)
  | .sealedDraftDetail draftId deviceId eph nonce =>
    match Relay.detailCall draftId deviceId eph nonce s.control.working,
        Relay.sealedDraftDetail C draftId deviceId eph nonce s.control.working with
    | .ok call, .ok envelope => (s, [.detailed draftId deviceId call envelope])
    | _, _ => (s, [])

variable {P S C} {s : Process}

/-! ## The drafts of a connection -/

/-- No draft is in an open transaction. -/
def DraftsCommitted (conn : Conn Control) : Prop := conn.durable.drafts = conn.working.drafts

lemma draftsCommitted_write {conn : Conn Control} {f : Control → Option Control}
    (h : DraftsCommitted conn) : DraftsCommitted (conn.write f) := by
  unfold Conn.write
  cases f conn.working with
  | none => exact h
  | some c => rfl

lemma draftsCommitted_settled {ε : Type} {r : Except ε Written} {conn : Conn Control}
    (h : DraftsCommitted conn) : DraftsCommitted (settled r conn) := by
  unfold settled
  split
  · split
    · rfl
    · exact h
  · exact h

lemma draftsCommitted_call {conn : Conn Control} (h : DraftsCommitted conn) (call : Call) :
    DraftsCommitted (call.run P S conn) := by
  cases call with
  | enroll did name signingPub agreementPub nowMs => exact draftsCommitted_write h
  | revoke deviceId => rfl
  | prepare request draftId nonce => exact draftsCommitted_settled h
  | upsertFromSync rows =>
    obtain ⟨templates, htemplates⟩ := Templates.upsertFromSync_eq rows conn.working
    simp only [Call.run, synced]
    split
    · rfl
    · unfold DraftsCommitted
      rw [htemplates]
      exact h
  | prepareTemplate request draftId nonce => exact draftsCommitted_settled h
  | acceptEnvelope envelope approvalId => exact draftsCommitted_settled h
  | advanceWindow conversationId incomingProviderMs => exact draftsCommitted_write h
  | recoverStartup nowMs => exact draftsCommitted_write h

lemma draftsCommitted_step (h : DraftsCommitted s.control) (op : Approval.Op) :
    DraftsCommitted (Approval.step P S s op).1.control := by
  cases op with
  | call call => exact draftsCommitted_call h call
  | executeWrite env reading attemptId crash reply =>
    have hwrote := executeWrite_cases P env reading attemptId crash reply s
    simp only [Approval.step]
    generalize (executeWrite P env reading attemptId crash reply s).1.control = after at hwrote ⊢
    generalize (executeWrite P env reading attemptId crash reply s).2 = log at hwrote
    cases hwrote with
    | stopped stop => exact h
    | uncommitted auth consumed durable working silent =>
      obtain ⟨-, -, rfl⟩ := consumeNonce_eq_ok consumed
      unfold DraftsCommitted
      obtain hworking | hworking := working
      · rw [durable, hworking]
      · rw [durable, hworking]
        exact h
    | committed auth consumed same sent => rfl
  | restart => rfl

lemma DraftsCommitted.holds {conn : Conn Control} (h : DraftsCommitted conn) {draftId : String}
    {row : Draft} (hrow : conn.working.draft draftId = some row) :
    conn.Holds fun c => c.draft draftId = some row := by
  have hdurable : Table.find Draft.id draftId conn.durable.drafts = some row := by
    rw [h]
    exact hrow
  exact ⟨hdurable, hrow⟩

/-! ## What a run has shown and sent -/

/-- A message that was sent and a detail that was sealed were made from a row that is there. -/
def Recorded (C : DeviceSeal.Primitives) (s : Process) : Event → Prop
  | .approval (.sendText permit _ _ recipientWaId body) =>
    (s.control.Holds fun c => c.draft permit.draft.id = some permit.draft) ∧
      recipientWaId = permit.draft.recipientWaId ∧
      decodeUtf8 (permit.draft.bodyBytes.getD []) = some body
  | .detailed draftId _ call envelope =>
    call.seal C = some envelope ∧ call.aad = utf8 draftId ∧
      ∃ row detail, (s.control.Holds fun c => c.draft draftId = some row) ∧
        Relay.detailOf draftId row = some detail ∧ call.plaintext = detail.dumps
  | _ => True

/-- A row that is there stays there, so what was recorded stays so. -/
lemma Recorded.step {e : Event} (h : Recorded C s e) (op : Op) :
    Recorded C (SealedDetail.step P S C s op).1 e := by
  have hkeep {draftId : String} {row : Draft}
      (hrow : s.control.Holds fun c => c.draft draftId = some row) :
      (SealedDetail.step P S C s op).1.control.Holds fun c => c.draft draftId = some row := by
    cases op with
    | approval op => exact draft_persists hrow [op]
    | sealedDraftDetail draftId deviceId eph nonce =>
      unfold SealedDetail.step
      dsimp only
      split <;> exact hrow
  cases e with
  | approval e =>
    cases e with
    | sendText permit now p r b => exact ⟨hkeep h.1, h.2⟩
    | nonceConsumed signed nonce => trivial
    | stopped reason => trivial
    | answered attemptId reply => trivial
  | detailed draftId deviceId call envelope =>
    obtain ⟨hseal, haad, row, detail, hrow, hdetail⟩ := h
    exact ⟨hseal, haad, row, detail, hkeep hrow, hdetail⟩

/-- The call of a detail, and what it was made from. -/
lemma detailCall_eq_ok {draftId deviceId : String} {eph nonce : Bytes} {c : Control}
    {call : DeviceSeal.SealCall} (h : Relay.detailCall draftId deviceId eph nonce c = .ok call) :
    Devices.activeAgreementKey c deviceId = some call.agreementPub ∧ call.aad = utf8 draftId ∧
      ∃ row detail, c.draft draftId = some row ∧ Relay.detailOf draftId row = some detail ∧
        call.plaintext = detail.dumps := by
  simp only [Relay.detailCall, bind_eq_ok, orStop_eq_ok, pure_eq_ok] at h
  obtain ⟨agreePub, hkey, row, hrow, detail, hdetail, rfl⟩ := h
  exact ⟨hkey, rfl, row, detail, hrow, hdetail, rfl⟩

/-- The one event of a request for a detail. -/
lemma detailed_mem_step {op : Op} {draftId deviceId : String} {call : DeviceSeal.SealCall}
    {envelope : Bytes} (h : .detailed draftId deviceId call envelope ∈ (step P S C s op).2) :
    ∃ eph nonce, op = .sealedDraftDetail draftId deviceId eph nonce ∧
      Relay.detailCall draftId deviceId eph nonce s.control.working = .ok call ∧
      call.seal C = some envelope := by
  cases op with
  | approval op =>
    obtain ⟨e, -, he⟩ := List.mem_map.mp h
    cases he
  | sealedDraftDetail draftId' deviceId' eph nonce =>
    unfold step at h
    dsimp only at h
    split at h
    · rename_i call' envelope' hcall hsealed
      obtain ⟨rfl, rfl, rfl, rfl⟩ := by simpa using h
      simp only [Relay.sealedDraftDetail, hcall, bind_eq_ok, orStop_eq_ok, Except.ok.injEq,
        exists_eq_left'] at hsealed
      exact ⟨eph, nonce, rfl, hcall, hsealed⟩
    · cases h

/-- A message that a step sent was authorised in the state that it read. -/
lemma sent_mem_step {op : Op} {permit : Permit} {now : ℤ} {p : String} {r : Option String} {b : String}
    (h : .approval (.sendText permit now p r b) ∈ (step P S C s op).2) :
    (∃ env, Authorised P s.control.working now env permit) ∧ r = permit.draft.recipientWaId ∧
      decodeUtf8 permit.body = some b := by
  cases op with
  | sealedDraftDetail draftId deviceId eph nonce =>
    unfold step at h
    dsimp only at h
    split at h <;> simp at h
  | approval op =>
    obtain ⟨e, he, heq⟩ := List.mem_map.mp h
    cases heq
    cases op with
    | call call => cases he
    | restart => cases he
    | executeWrite env reading attemptId crash reply =>
      obtain ⟨rfl, hauth, -, hrecipient, hbody⟩ :=
        (executeWrite_cases P env reading attemptId crash reply s).sendText he
      exact ⟨⟨env, hauth⟩, hrecipient, hbody⟩

/-- What one step adds to the record. -/
lemma recorded_of_mem_step (hs : DraftsCommitted s.control) (op : Op) {e : Event}
    (he : e ∈ (step P S C s op).2) : Recorded C s e := by
  cases e with
  | detailed draftId deviceId call envelope =>
    obtain ⟨eph, nonce, rfl, hcall, hseal⟩ := detailed_mem_step he
    obtain ⟨-, haad, row, detail, hrow, hdetail, hplain⟩ := detailCall_eq_ok hcall
    exact ⟨hseal, haad, row, detail, hs.holds hrow, hdetail, hplain⟩
  | approval e =>
    cases e with
    | nonceConsumed signed nonce => trivial
    | stopped reason => trivial
    | answered attemptId reply => trivial
    | sendText permit now p r b =>
      obtain ⟨⟨env, hauth⟩, hrecipient, hbody⟩ := sent_mem_step he
      rw [hauth.body] at hbody
      exact ⟨hs.holds hauth.draft, hrecipient, hbody⟩

/-- Every message that a run sent and every detail that it sealed is of a row that is there at its
end. -/
lemma recorded_of_run (P : Platform) (S : Stdlib) (C : DeviceSeal.Primitives) (ops : List Op) :
    ∀ e ∈ Run.events (step P S C) start ops, Recorded C (Run.final (step P S C) start ops) e := by
  let J (log : List Event) (s : Process) := DraftsCommitted s.control ∧ ∀ e ∈ log, Recorded C s e
  have hstart : J [] start := ⟨rfl, by simp⟩
  have hrun : J ([] ++ Run.events (step P S C) start ops) (Run.final (step P S C) start ops) := by
    refine Run.log_invariant_of_meets (C := fun _ _ => True) (fun log s op h _ => ?_) hstart
      (Run.meets_of_forall (fun _ _ => trivial) start ops)
    obtain ⟨hs, hlog⟩ := h
    constructor
    · cases op with
      | approval op => exact draftsCommitted_step hs op
      | sealedDraftDetail draftId deviceId eph nonce =>
        unfold step
        dsimp only
        split <;> exact hs
    · intro e he
      rcases List.mem_append.mp he with he | he
      · exact (hlog e he).step op
      · exact (recorded_of_mem_step hs op he).step op
  exact hrun.2

/-! ## What is shown is what is sent -/

/-- **What a phone is shown of a draft is what the provider is given.**  The envelope opens on the device
that was active, as the detail of that draft and as nothing else, to a text with one reading; and every
transmission of the draft, before or after, has its recipient, its body and its nonce. -/
theorem displayed_is_sent (P : Platform) (S : Stdlib) (C : DeviceSeal.Primitives) (ops : List Op)
    {draftId deviceId : String} {call : DeviceSeal.SealCall} {envelope : Bytes}
    (hevent : .detailed draftId deviceId call envelope ∈ Run.events (step P S C) start ops)
    {held : List Bytes} {calls : List DeviceSeal.SealCall} (hideal : DeviceSeal.Ideal C held calls)
    (hcall : call ∈ calls) :
    ∃ detail : Relay.Detail,
      (∀ priv ∈ held, ∀ aad pt, DeviceSeal.openSealed C priv envelope aad = .opened pt ↔
        call.For C priv ∧ utf8 draftId = aad ∧ detail.dumps = pt) ∧
      (∀ detail' : Relay.Detail, detail'.dumps = detail.dumps → detail' = detail) ∧
      (∃ before after eph nonce,
        ops = before ++ .sealedDraftDetail draftId deviceId eph nonce :: after ∧
        Devices.activeAgreementKey (Run.final (step P S C) start before).control.working deviceId =
          some call.agreementPub) ∧
      ∀ permit now p r b,
        .approval (.sendText permit now p r b) ∈ Run.events (step P S C) start ops →
        permit.draft.id = draftId →
        r = detail.recipientWaId ∧ b = detail.body.getD "" ∧
          (permit.draft.nonce.map fun n => hex n.val) = detail.nonce := by
  obtain ⟨hseal, haad, row, detail, hrow, hdetail, hplain⟩ := recorded_of_run P S C ops _ hevent
  refine ⟨detail, fun priv hpriv aad pt => ?_, fun _ h => Relay.dumps_injective h, ?_, ?_⟩
  · rw [DeviceSeal.opened_seal_iff hideal hpriv hcall hseal, haad, hplain]
  · obtain ⟨before, after, heq⟩ := List.append_of_mem hevent
    obtain ⟨pre, op, post, rfl, hmem, -⟩ := Run.exists_step_of_events heq
    obtain ⟨eph, nonce, rfl, hmade, -⟩ := detailed_mem_step hmem
    exact ⟨pre, post, eph, nonce, rfl, (detailCall_eq_ok hmade).1⟩
  · rintro permit now p r b hsent rfl
    obtain ⟨hpermit, rfl, hbody⟩ := recorded_of_run P S C ops _ hsent
    obtain rfl := Option.some.inj (hrow.2.symm.trans hpermit.2)
    obtain ⟨-, hrecipient, hnonce⟩ := Relay.detailOf_fields hdetail
    exact ⟨hrecipient.symm, Relay.body_of_detailOf hdetail hbody, hnonce.symm⟩

/-- A device is enrolled, a draft prepared, shown and sent. -/
def sampleOps : List Op :=
  [.approval (.call (.enroll "dev_1" "phone" sampleKey (some (DeviceSeal.paddedKey [1])) none)),
    .approval (.call (.advanceWindow "cnv_1" 1500)),
    .approval (.call (.prepare (sampleRequest "PN1" "text") "drf_1" sampleNonce)),
    .sealedDraftDetail "drf_1" "dev_1" [2] (List.replicate 12 3),
    .approval (sampleSend sampleNonce "atm_1")]

/-- The call that sealed its detail. -/
def sampleCall : DeviceSeal.SealCall where
  agreementPub := DeviceSeal.paddedKey [1]
  plaintext := Relay.Detail.dumps ⟨"drf_1", some "61999", some "hi", some (hex sampleNonce.val)⟩
  aad := utf8 "drf_1"
  eph := [2]
  nonce := List.replicate 12 3

def sampleEnvelope : Bytes := (sampleCall.seal (DeviceSeal.oneSeal sampleCall [1])).getD []

theorem displayed_is_sent_sampleOps :
    let P := signedOnce (samplePayload "PN1" "text")
    let C := DeviceSeal.oneSeal sampleCall [1]
    ∃ detail : Relay.Detail,
      (∀ priv ∈ [[1]], ∀ aad pt, DeviceSeal.openSealed C priv sampleEnvelope aad = .opened pt ↔
        sampleCall.For C priv ∧ utf8 "drf_1" = aad ∧ detail.dumps = pt) ∧
      (∀ detail' : Relay.Detail, detail'.dumps = detail.dumps → detail' = detail) ∧
      (∃ before after eph nonce,
        sampleOps = before ++ .sealedDraftDetail "drf_1" "dev_1" eph nonce :: after ∧
        Devices.activeAgreementKey
            (Run.final (step P sampleStdlib C) start before).control.working "dev_1" =
          some sampleCall.agreementPub) ∧
      ∀ permit now p r b,
        .approval (.sendText permit now p r b) ∈
          Run.events (step P sampleStdlib C) start sampleOps →
        permit.draft.id = "drf_1" →
        r = detail.recipientWaId ∧ b = detail.body.getD "" ∧
          (permit.draft.nonce.map fun n => hex n.val) = detail.nonce :=
  displayed_is_sent _ _ _ sampleOps (by decide +kernel) (DeviceSeal.ideal_oneSeal rfl rfl)
    (List.mem_singleton_self _)

end SealedDetail

end WhatsVault
