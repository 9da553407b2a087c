import WhatsVault.Approval.Envelopes
import WhatsVault.Approval.SealedDetail

/-!
# Revocation

`devices.revoke` marks the row of a device, and every path that lets a device do something reads the mark
itself: the sender for its signing key, the relay for an envelope and for a detail.  No call takes the
mark back, since an id is enrolled once.

So a device that is revoked is out, for the rest of every run (`revocation_final`): what it had approved
before is not sent, nothing of it is accepted any more, and nothing is shown to it.
-/

namespace WhatsVault.Revocation

open Checks Transaction Approval Sender

variable {P : Platform} {S : Stdlib} {C : DeviceSeal.Primitives} {I : Control → Prop} {deviceId : String}

/-! ## What the operations do to the devices and the approvals -/

lemma openAttempt_eq_some {attemptId draftId : String} {nonce : Nonce} {now : ℤ} {c c' : Control}
    (h : openAttempt P attemptId draftId nonce now c = some c') :
    ∃ attempts, c' = { c with sendAttempts := attempts } := by
  unfold openAttempt at h
  dsimp only at h
  split at h
  · exact ⟨_, (Option.some.inj h).symm⟩
  · cases h

lemma settle_eq (attemptId : String) (now : ℤ) (reply : ProviderReply) (c : Control) :
    ∃ attempts, settle attemptId now reply c = { c with sendAttempts := attempts } := by
  cases reply with
  | timeoutAfterSend => exact ⟨_, rfl⟩
  | connectFailed => exact ⟨_, rfl⟩
  | submitted wamid => exact ⟨_, rfl⟩
  | rejected errorCode => exact ⟨_, rfl⟩
  | raises => exact ⟨c.sendAttempts, rfl⟩

/-- A send writes nonces and attempts alone. -/
lemma holds_executeWrite (hsame : ∀ c nonces attempts,
      I c → I { c with approvalNonces := nonces, sendAttempts := attempts })
    {s : Process} (h : s.control.Holds I) (env : Envelope) (reading : ℤ) (attemptId : String)
    (crash : Option Crash) (reply : ProviderReply) :
    (executeWrite P env reading attemptId crash reply s).1.control.Holds I := by
  unfold executeWrite
  split
  · exact h
  split
  · exact h
  split
  · exact h
  rename_i nonce c hconsumed
  obtain ⟨-, -, rfl⟩ := consumeNonce_eq_ok hconsumed
  have hworking (nonces : List ApprovalNonce) (attempts : List SendAttempt) :
      I { s.control.working with approvalNonces := nonces, sendAttempts := attempts } :=
    hsame _ _ _ h.2
  dsimp only
  split
  · exact ⟨h.1, hworking _ _⟩
  rename_i c' hopen
  obtain ⟨attempts, rfl⟩ := openAttempt_eq_some hopen
  split
  · exact h.rollback
  -- the call has committed, and whatever becomes of it only settles the attempt
  unfold transmit
  split
  · exact Conn.holds_clean (hworking _ _)
  split
  · exact Conn.holds_clean (hworking _ _)
  dsimp only
  split
  · exact Conn.holds_clean (hworking _ _)
  · obtain ⟨attempts', hsettled⟩ := settle_eq attemptId _ reply
      { s.control.working with approvalNonces := _, sendAttempts := attempts }
    rw [hsettled]
    exact Conn.holds_clean (hworking _ _)

/-- What a call may do to the devices and the approvals. -/
structure Keeps (S : Stdlib) (I : Control → Prop) : Prop where
  /-- Nothing: it writes other tables. -/
  same : ∀ c c', c'.approvalDevices = c.approvalDevices → c'.approvals = c.approvals → I c → I c'
  enroll : ∀ did name signingPub agreementPub nowMs c c',
    Devices.enroll did name signingPub agreementPub nowMs c = some c' → I c → I c'
  revoke : ∀ did c, I c → I (Devices.revoke did c)
  accept : ∀ envelope approvalId c w, Relay.acceptEnvelope S envelope approvalId c = .ok w → I c →
    I w.control

lemma Keeps.call (hI : Keeps S I) {conn : Conn Control} (h : conn.Holds I) (call : Call) :
    (call.run P S conn).Holds I := by
  have hsettled {ε : Type} {r : Except ε Written}
      (hr : ∀ w, r = .ok w → w.fresh → I w.control) : (settled r conn).Holds I := by
    unfold settled
    split
    · rename_i w
      split
      · rename_i hfresh
        exact Conn.holds_clean (hr w rfl hfresh)
      · exact h
    · exact h
  have hinsert {row : Draft} {c' : Control} (hins : Drafts.insertDraft row conn.working = some c') :
      I c' := by
    obtain ⟨rfl, -⟩ := Drafts.insertDraft_eq_some hins
    exact hI.same conn.working _ rfl rfl h.2
  cases call with
  | enroll did name signingPub agreementPub nowMs =>
    exact h.write fun c' hc' => hI.enroll _ _ _ _ _ _ _ hc' h.2
  | revoke did => exact Conn.holds_clean (hI.revoke did _ h.2)
  | prepare request draftId nonce =>
    refine hsettled fun w hw hfresh => ?_
    obtain ⟨hstale, -⟩ | ⟨text, kind, -, -, -, hins⟩ := Drafts.prepare_eq_ok hw
    · simp [hstale] at hfresh
    · exact hinsert hins
  | upsertFromSync rows =>
    obtain ⟨templates, htemplates⟩ := Templates.upsertFromSync_eq rows conn.working
    have hworking : I (Templates.upsertFromSync rows conn.working).1 := by
      rw [htemplates]
      exact hI.same conn.working _ rfl rfl h.2
    simp only [Call.run, synced]
    split
    · exact Conn.holds_clean hworking
    · exact ⟨h.1, hworking⟩
  | prepareTemplate request draftId nonce =>
    refine hsettled fun w hw _ => ?_
    obtain ⟨digest, -, hins⟩ := Templates.prepareTemplate_eq_ok hw
    exact hinsert hins
  | acceptEnvelope envelope approvalId =>
    exact hsettled fun w hw _ => hI.accept _ _ _ _ hw h.2
  | advanceWindow conversationId incomingProviderMs =>
    refine h.write fun c' hc' => ?_
    rw [Control.advanceWindow_eq_some hc']
    exact hI.same conn.working _ rfl rfl h.2
  | recoverStartup nowMs =>
    refine h.write fun c' hc' => ?_
    unfold Sender.recoverStartup at hc'
    split at hc'
    · obtain rfl := Option.some.inj hc'
      exact hI.same conn.working _ rfl rfl h.2
    · cases hc'

lemma Keeps.step (hI : Keeps S I) {s : Process} (h : s.control.Holds I) (op : SealedDetail.Op) :
    (SealedDetail.step P S C s op).1.control.Holds I := by
  cases op with
  | approval op =>
    cases op with
    | call call => exact hI.call h call
    | executeWrite env reading attemptId crash reply =>
      exact holds_executeWrite (fun c _ _ => hI.same c _ rfl rfl) h env reading attemptId crash reply
    | restart => exact h.rollback
  | sealedDraftDetail draftId deviceId eph nonce =>
    unfold SealedDetail.step
    dsimp only
    split <;> exact h

lemma Keeps.run (hI : Keeps S I) {s : Process} (h : s.control.Holds I) (ops : List SealedDetail.Op) :
    (Run.final (SealedDetail.step P S C) s ops).control.Holds I :=
  Run.invariant (I := fun s : Process => s.control.Holds I) (fun _ op hs => hI.step hs op) h ops

/-! ## A revoked device -/

/-- The device is there, and revoked. -/
def Revoked (deviceId : String) (c : Control) : Prop :=
  ∃ d, c.device deviceId = some d ∧ d.status = .revoked

/-- The rows of `approvals` from a device. -/
def approvalsOf (deviceId : String) (c : Control) : List Approval :=
  c.approvals.filter fun a => a.deviceId = deviceId

lemma device_revoke (did id : String) (c : Control) :
    (Devices.revoke did c).device id = (c.device id).map (Devices.revokeRow did) := by
  have hid (d : Device) : (Devices.revokeRow did d).id = d.id := by
    unfold Devices.revokeRow
    split <;> rfl
  unfold Control.device Table.find Devices.revoke
  simp only [List.find?_map, Function.comp_def, hid]

lemma status_revokeRow {did : String} {d : Device} (h : d.id = did ∨ d.status = .revoked) :
    (Devices.revokeRow did d).status = .revoked := by
  unfold Devices.revokeRow
  split
  · rfl
  · rename_i hne
    exact h.resolve_left hne

lemma Revoked.activeSigningKey {c : Control} (h : Revoked deviceId c) :
    Devices.activeSigningKey c deviceId = none := by
  obtain ⟨d, hd, hstatus⟩ := h
  simp [Devices.activeSigningKey, hd, hstatus]

lemma Revoked.activeAgreementKey {c : Control} (h : Revoked deviceId c) :
    Devices.activeAgreementKey c deviceId = none := by
  obtain ⟨d, hd, hstatus⟩ := h
  simp [Devices.activeAgreementKey, hd, hstatus]

/-- An accepted envelope is of an active device, and so are the row that answers it and any row that it
adds. -/
lemma accepted_cases {envelope : Bytes} {approvalId : String} {c : Control} {w : Written}
    (h : Relay.acceptEnvelope S envelope approvalId c = .ok w) :
    ∃ d a, c.device d.id = some d ∧ d.status = .active ∧ a ∈ w.control.approvals ∧
      a.approvalId = w.id ∧ a.deviceId = d.id ∧
      (w.control = c ∨ w.control = { c with approvals := c.approvals ++ [a] }) := by
  rw [Relay.acceptEnvelope_eq, bind_eq_ok] at h
  obtain ⟨r, hcheck, hrecord⟩ := h
  simp only [Relay.checkEnvelope, bind_eq_ok, orStop_eq_ok, require_eq_ok, pure_eq_ok,
    Option.bind_eq_some_iff] at hcheck
  obtain ⟨env, -, deviceId, -, d, ⟨id, -, hd⟩, -, hactive, sig, -, -, -, v, -, decision, -, draftId, -,
    draft, -, nonce, -, rfl⟩ := hcheck
  obtain rfl := (Table.mem_of_find_eq_some hd).2
  rcases Relay.recordEnvelope_eq_ok hrecord with ⟨a, hfound, rfl⟩ | ⟨row, -, hslot, -, hid, rfl⟩
  · refine ⟨d, a, hd, hactive, List.mem_of_find?_eq_some hfound, rfl, ?_, .inl rfl⟩
    have hmatch := List.find?_some hfound
    simp only [decide_eq_true_eq] at hmatch
    exact hmatch.2.1
  · refine ⟨d, row, hd, hactive, by simp, hid, ?_, .inr rfl⟩
    simp only [Relay.slot, Relay.Checked.slot, Prod.mk.injEq] at hslot
    exact hslot.2.1

/-- The device is revoked, and these are the envelopes that were accepted from it. -/
def Out (deviceId : String) (rows : List Approval) (c : Control) : Prop :=
  Revoked deviceId c ∧ approvalsOf deviceId c = rows

lemma keeps_out (S : Stdlib) (deviceId : String) (rows : List Approval) :
    Keeps S (Out deviceId rows) where
  same := by
    rintro c c' hdevices happrovals ⟨⟨d, hd, hstatus⟩, hrows⟩
    refine ⟨⟨d, ?_, hstatus⟩, ?_⟩
    · unfold Control.device at hd ⊢
      rwa [hdevices]
    · unfold approvalsOf at hrows ⊢
      rwa [happrovals]
  enroll := by
    rintro did name signingPub agreementPub nowMs c c' h ⟨⟨d, hd, hstatus⟩, hrows⟩
    unfold Devices.enroll at h
    split at h
    · obtain ⟨devices, hinsert, rfl⟩ := Option.map_eq_some_iff.mp h
      obtain ⟨-, rfl⟩ := Table.insert_eq_some_iff.mp hinsert
      refine ⟨⟨d, ?_, hstatus⟩, hrows⟩
      unfold Control.device Table.find at hd ⊢
      rw [List.find?_append, hd]
      rfl
    · cases h
  revoke := by
    rintro did c ⟨⟨d, hd, hstatus⟩, hrows⟩
    exact ⟨⟨_, by rw [device_revoke, hd, Option.map_some], status_revokeRow (.inr hstatus)⟩, hrows⟩
  accept := by
    rintro envelope approvalId c w h ⟨⟨d, hd, hstatus⟩, hrows⟩
    obtain ⟨d', a, hd', hactive, -, -, hdevice, hcontrol⟩ := accepted_cases h
    have hne : d'.id ≠ deviceId := by
      rintro rfl
      rw [hd] at hd'
      cases hd'
      rw [hstatus] at hactive
      cases hactive
    obtain hcontrol | hcontrol := hcontrol
    · rw [hcontrol]
      exact ⟨⟨d, hd, hstatus⟩, hrows⟩
    · rw [hcontrol]
      refine ⟨⟨d, hd, hstatus⟩, ?_⟩
      unfold approvalsOf at hrows ⊢
      rw [List.filter_append, hrows, List.filter_cons_of_neg (by simpa [hdevice] using hne),
        List.filter_nil, List.append_nil]

/-- The event is no message that the device approved and no detail that was sealed to it. -/
def Spares (deviceId : String) : SealedDetail.Event → Prop
  | .approval (.sendText permit _ _ _ _) => permit.deviceId ≠ deviceId
  | .detailed _ deviceId' _ _ => deviceId' ≠ deviceId
  | _ => True

lemma spares_step {s : Process} (h : Revoked deviceId s.control.working) (op : SealedDetail.Op) :
    ∀ e ∈ (SealedDetail.step P S C s op).2, Spares deviceId e := by
  intro e he
  cases e with
  | detailed draftId deviceId' call envelope =>
    rintro rfl
    obtain ⟨eph, nonce, -, hcall, -⟩ := SealedDetail.detailed_mem_step he
    have hkey := (SealedDetail.detailCall_eq_ok hcall).1
    rw [h.activeAgreementKey] at hkey
    cases hkey
  | approval e =>
    cases e with
    | nonceConsumed signed nonce => trivial
    | stopped reason => trivial
    | answered attemptId reply => trivial
    | sendText permit now p r b =>
      rintro rfl
      obtain ⟨⟨env, hauth⟩, -⟩ := SealedDetail.sent_mem_step he
      have hkey := hauth.signingPub
      rw [h.activeSigningKey] at hkey
      cases hkey

/-- **A revoked device is out for good.**  Whatever is done after the revocation, nothing is sent on its
approval, nothing is sealed to it, and no envelope of it is accepted. -/
theorem revocation_final (P : Platform) (S : Stdlib) (C : DeviceSeal.Primitives) (s : Process)
    {deviceId : String} (hdevice : s.control.working.device deviceId ≠ none)
    (ops : List SealedDetail.Op) :
    let revoked := (SealedDetail.step P S C s (.approval (.call (.revoke deviceId)))).1
    let final := Run.final (SealedDetail.step P S C) revoked ops
    (∀ e ∈ Run.events (SealedDetail.step P S C) revoked ops, Spares deviceId e) ∧
      (final.control.Holds fun c => Revoked deviceId c ∧
        approvalsOf deviceId c = approvalsOf deviceId s.control.working) ∧
      ∀ envelope approvalId w,
        Relay.acceptEnvelope S envelope approvalId final.control.working = .ok w →
          ∃ a ∈ w.control.approvals, a.approvalId = w.id ∧ a.deviceId ≠ deviceId := by
  intro revoked final
  let rows := approvalsOf deviceId s.control.working
  have hkeeps := keeps_out S deviceId rows
  have hout : revoked.control.Holds (Out deviceId rows) := by
    obtain ⟨d, hd⟩ := Option.ne_none_iff_exists'.mp hdevice
    have hid := (Table.mem_of_find_eq_some hd).2
    refine Conn.holds_clean ⟨⟨_, ?_, status_revokeRow (.inl hid)⟩, rfl⟩
    rw [device_revoke, hd, Option.map_some]
  have hfinal : final.control.Holds (Out deviceId rows) := hkeeps.run hout ops
  refine ⟨?_, hfinal, fun envelope approvalId w h => ?_⟩
  · refine Run.events_forall_of_meets ?_
    exact Run.meets_of_invariant (C := fun _ _ => True)
      (I := fun s : Process => s.control.Holds (Out deviceId rows))
      (fun s op hs _ => hkeeps.step hs op) (fun s op hs _ => spares_step hs.2.1 op) hout
      (Run.meets_of_forall (fun _ _ => trivial) revoked ops)
  · obtain ⟨d', a, hd', hactive, ha, hid, hof, -⟩ := accepted_cases h
    refine ⟨a, ha, hid, ?_⟩
    rintro rfl
    obtain ⟨⟨d, hd, hstatus⟩, -⟩ := hfinal.2
    rw [hof, hd'] at hd
    cases hd
    rw [hstatus] at hactive
    cases hactive

/-- The device of the sample run is revoked before the draft that it approved is sent. -/
theorem revocation_final_sampleOps :
    let P := signedOnce (samplePayload "PN1" "text")
    let C := DeviceSeal.oneSeal SealedDetail.sampleCall [1]
    let s := Run.final (SealedDetail.step P sampleStdlib C) start (SealedDetail.sampleOps.take 4)
    let revoked := (SealedDetail.step P sampleStdlib C s (.approval (.call (.revoke "dev_1")))).1
    let final := Run.final (SealedDetail.step P sampleStdlib C) revoked (SealedDetail.sampleOps.drop 4)
    (∀ e ∈ Run.events (SealedDetail.step P sampleStdlib C) revoked (SealedDetail.sampleOps.drop 4),
        Spares "dev_1" e) ∧
      (final.control.Holds fun c => Revoked "dev_1" c ∧
        approvalsOf "dev_1" c = approvalsOf "dev_1" s.control.working) ∧
      ∀ envelope approvalId w,
        Relay.acceptEnvelope sampleStdlib envelope approvalId final.control.working = .ok w →
          ∃ a ∈ w.control.approvals, a.approvalId = w.id ∧ a.deviceId ≠ "dev_1" :=
  revocation_final _ _ _ _ (by decide +kernel) (SealedDetail.sampleOps.drop 4)

end WhatsVault.Revocation
