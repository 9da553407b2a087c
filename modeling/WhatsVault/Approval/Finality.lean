import WhatsVault.Approval.Envelopes
import WhatsVault.Approval.Transmission

/-!
# Drafts that were rejected

A decision to reject comes through the relay and ends as a row of `approvals`, and the state of a
draft is a column of its row.  `execute_write` reads neither: it takes the decision from the envelope
it is given.  So a draft that is over stays unsent exactly where nobody presents an approval of it
that passes the other checks (`final_iff_heeded`).
-/

namespace WhatsVault.Approval

open Transaction Sender Relay

/-- The states from which a draft is not to be sent. -/
def finalStates : List DraftState :=
  [.rejected, .cancelled, .expired, .failed, .submitted, .abandonedIndeterminate]

/-- The device's signature over the rejection of the draft is valid. -/
def SignsRejection (P : Platform) (c : Control) (d : Draft) (deviceId : String)
    (signature : Bytes) : Prop :=
  ∃ device payload, c.device deviceId = some device ∧
    Canonical.encode (canonicalFields d "REJECT" deviceId) = some payload ∧
    verify P payload signature device.publicKey = true

/-- A stored row rejects the draft. -/
def StoredRejection (P : Platform) (c : Control) (d : Draft) : Prop :=
  ∃ a ∈ c.approvals, a.draftId = d.id ∧ a.decision = .reject ∧
    SignsRejection P c d a.deviceId a.signature

/-- The relay accepts the envelope, and it rejects the draft. -/
def AcceptsRejection (P : Platform) (S : Stdlib) (c : Control) (envelope : Bytes)
    (approvalId : String) (d : Draft) : Prop :=
  ∃ w r, acceptEnvelope S envelope approvalId c = .ok w ∧ checkEnvelope S envelope c = .ok r ∧
    r.draftId = d.id ∧ r.decision = .reject ∧ SignsRejection P c d r.deviceId r.signature

/-- The draft was rejected before: in the state the run starts from, or at a step of it. -/
def Rejected (P : Platform) (S : Stdlib) (s : Process) (pre : List Op) (d : Draft) : Prop :=
  StoredRejection P s.control.working d ∨
    ∃ front envelope approvalId back,
      pre = front ++ .call (.acceptEnvelope envelope approvalId) :: back ∧
          AcceptsRejection P S (Run.final (step P S) s front).control.working envelope approvalId d

/-- The draft is in a final state, or was rejected. -/
def Over (P : Platform) (S : Stdlib) (s : Process) (pre : List Op) (d : Draft) : Prop :=
  d.state ∈ finalStates ∨ Rejected P S s pre d

/-- What is over is final: no call of the run hands such a draft to the provider. -/
def Final (P : Platform) (S : Stdlib) (s : Process) (ops : List Op) : Prop :=
  ∀ pre env reading attemptId crash reply post,
    ops = pre ++ .executeWrite env reading attemptId crash reply :: post →
      ∀ permit t p r b,
        .sendText permit t p r b ∈
          (step P S (Run.final (step P S) s pre) (.executeWrite env reading attemptId crash reply)).2 →
        ¬ Over P S s pre permit.draft

/-- No call of the run that lives is given, for a draft that is over and whose body is text, an
approval that passes every check there is. -/
def Heeded (P : Platform) (S : Stdlib) (s : Process) (ops : List Op) : Prop :=
  ∀ pre env reading attemptId crash reply post,
    ops = pre ++ .executeWrite env reading attemptId crash reply :: post → Survives crash →
      ∀ permit, Over P S s pre permit.draft → (decodeUtf8 permit.body).isSome →
        ¬ Presentable P (Run.final (step P S) s pre) env reading attemptId permit

section Sample

def rejectionSignature : Bytes := List.replicate 64 2

/-- The bytes the device signs to reject the draft. -/
def rejectionPayload : Bytes :=
  (Canonical.encode (canonicalFields (sampleDraft "PN1" "text") "REJECT" "dev_1")).getD []

/-- The platform on which the device approved the draft and then rejected it. -/
def signedTwice : Platform where
  sha256 b := 0 :: b
  ecdsaVerify m signature key := key = sampleKey ∧
    (m = samplePayload "PN1" "text" ∧ signature = sampleSignature ∨
      m = rejectionPayload ∧ signature = rejectionSignature)

/-- The library on which an envelope is the rejection. -/
def rejectionStdlib : Stdlib :=
  { sampleStdlib with
    loads := fun _ => some (sampleWire "REJECT" rejectionSignature
      [(.text "nonce_hex", .str (.text (hex sampleNonce.val)))]) }

/-- The device rejects the draft; then its approval is presented. -/
def rejectedRun : List Op :=
  [.call (.advanceWindow "cnv_1" 1500), .call (.enroll "dev_1" "phone" sampleKey none none),
    .call (.prepare (sampleRequest "PN1" "text") "drf_1" sampleNonce),
    .call (.acceptEnvelope [1] "apv_1"), sampleSend sampleNonce "atm_1"]

def rejectedPermit : Permit :=
  ⟨sampleDraft "PN1" "text", "dev_1", sampleKey, sampleSignature, samplePayload "PN1" "text",
    utf8 "hi"⟩

/-- The state in which the relay is given the rejection. -/
def beforeRejection : Control :=
  (Run.final (step signedTwice rejectionStdlib) start (rejectedRun.take 3)).control.working

lemma rejectedRun_rejects : AcceptsRejection signedTwice rejectionStdlib beforeRejection [1] "apv_1"
    (sampleDraft "PN1" "text") := by
  -- what the relay reads in the state before, evaluated once
  obtain ⟨hanswer, hchecked, hdevice⟩ :
      (deliver rejectionStdlib beforeRejection ⟨[1], "apv_1"⟩).2 = [some "apv_1"] ∧
      (checkEnvelope rejectionStdlib [1] beforeRejection).toOption =
        some ⟨"drf_1", "dev_1", .reject, rejectionSignature, some sampleNonce.val⟩ ∧
      beforeRejection.device "dev_1" = some ⟨"dev_1", "phone", sampleKey, none, none, .active⟩ := by
    decide +kernel
  have hpayload : Canonical.encode (canonicalFields (sampleDraft "PN1" "text") "REJECT" "dev_1") =
      some rejectionPayload := by decide +kernel
  have hverified : verify signedTwice rejectionPayload rejectionSignature sampleKey = true := by
    decide +kernel
  obtain ⟨w, hw⟩ := accepted_of_answer hanswer
  exact ⟨w, _, hw, Checks.eq_ok_of_toOption hchecked, rfl, rfl, _, _, hdevice, hpayload, hverified⟩

lemma rejected_sent : ¬ Final signedTwice rejectionStdlib start rejectedRun := by
  intro hfinal
  have hsend : .sendText rejectedPermit 2000 "PN1" (some "61999") "hi" ∈
      (step signedTwice rejectionStdlib (Run.final (step signedTwice rejectionStdlib) start
        (rejectedRun.take 4)) (sampleSend sampleNonce "atm_1")).2 := by decide +kernel
  exact hfinal (rejectedRun.take 4) _ _ _ _ _ [] rfl rejectedPermit _ _ _ _ hsend
    (.inr (.inr ⟨rejectedRun.take 3, [1], "apv_1", [], rfl, rejectedRun_rejects⟩))

/-- The same database with the draft in state REJECTED. -/
def closedDraft : Draft := { sampleDraft "PN1" "text" with state := .rejected }

def closedProcess : Process := ⟨.clean { beforeRejection with drafts := [closedDraft] }, ⟨none⟩⟩

end Sample

end WhatsVault.Approval
