import WhatsVault.Approval.Permission

/-!
# When a call transmits

`executeWrite_cases` says what a send can have done; here is what it takes for one to be done.  An
envelope passes `authorise` exactly where everything it checks holds (`authorise_eq_ok_iff`), and a
call hands a draft to the provider exactly where its approval is `Presentable`
(`sendText_mem_iff`).
-/

namespace WhatsVault.Approval

open Checks Transaction Sender

variable {P : Platform} {c : Control} {now reading : ℤ} {env : Envelope} {permit : Permit}
  {attemptId : String} {crash : Option Crash} {reply : ProviderReply} {s : Process}

lemma authorise_of_authorised (h : Authorised P c now env permit) :
    authorise P c now env = .ok permit := by
  simp only [authorise, bind_eq_ok, orStop_eq_ok, require_eq_ok, pure_eq_ok]
  refine ⟨_, h.draftId, _, h.draft, _, h.decision, (), rfl, _, h.deviceId, _, h.signingPub, _,
    h.payload, _, h.signature, (), h.verified, (), ?_, (), h.policy, ?_⟩
  · rw [Option.all_eq_true]
    intro digest hdigest
    simpa [h.body] using h.digest digest hdigest
  · rw [← h.body]

theorem authorise_eq_ok_iff : authorise P c now env = .ok permit ↔ Authorised P c now env permit :=
  ⟨authorised, authorise_of_authorised⟩

lemma consumeNonce_of_free {nonce : Nonce} (draftId : String) (hnonce : env.nonce = some nonce.val)
    (htime : fitsInt64 now = true) (hfree : ∀ row ∈ c.approvalNonces, row.nonce ≠ nonce) :
    consumeNonce env draftId now c =
      .ok (nonce, { c with approvalNonces := c.approvalNonces ++ [⟨nonce, draftId, now⟩] }) := by
  have hinsert : Table.insert ApprovalNonce.nonce ⟨nonce, draftId, now⟩ c.approvalNonces =
      some (c.approvalNonces ++ [⟨nonce, draftId, now⟩]) := Table.insert_eq_some_iff.mpr ⟨hfree, rfl⟩
  simp only [consumeNonce, bind_eq_ok, orStop_eq_ok, require_eq_ok]
  refine ⟨nonce.val, hnonce, (), htime, ?_⟩
  rw [dif_pos nonce.property]
  simp only [bind_eq_ok, orStop_eq_ok, pure_eq_ok]
  exact ⟨_, hinsert, rfl⟩

lemma fits_of_consumeNonce {draftId : String} {r : Nonce × Control}
    (h : consumeNonce env draftId now c = .ok r) : fitsInt64 now = true := by
  simp only [consumeNonce, bind_eq_ok, require_eq_ok] at h
  obtain ⟨-, -, -, htime, -⟩ := h
  exact htime

lemma openAttempt_of_free {row : ApprovalNonce} (h : Free P attemptId row c) :
    openAttempt P attemptId row.consumedBy row.nonce row.consumedAtMs
      { c with approvalNonces := c.approvalNonces ++ [row] } =
        some (permitted P attemptId row c) := by
  unfold openAttempt
  dsimp only
  rw [if_pos h.attempt]
  rfl

/-- An approval that every check of the call lets pass: the clock, the draft, the device and its
signature, the body and the policy, the nonce and the attempt. -/
structure Presentable (P : Platform) (s : Process) (env : Envelope) (reading : ℤ) (attemptId : String)
    (permit : Permit) : Prop where
  clock : (s.clock.trustedNow reading).isSome
  authorised : Authorised P s.control.working reading env permit
  stored : fitsInt64 reading = true
  nonce : ∃ nonce : Nonce, env.nonce = some nonce.val ∧
    Free P attemptId ⟨nonce, permit.draft.id, reading⟩ s.control.working

/-- A call with a presentable approval reaches its commit. -/
lemma Presentable.executeWrite (h : Presentable P s env reading attemptId permit) :
    ∃ row clock, ∀ crash reply, executeWrite P env reading attemptId crash reply s =
      permittedCall P permit row attemptId reading clock s crash reply := by
  obtain ⟨⟨now, clock⟩, htrusted⟩ := Option.isSome_iff_exists.mp h.clock
  obtain ⟨rfl, -⟩ := ClockGuard.trustedNow_eq_some htrusted
  obtain ⟨nonce, hnonce, hfree⟩ := h.nonce
  refine ⟨⟨nonce, permit.draft.id, now⟩, clock, fun crash reply => ?_⟩
  have hopen := openAttempt_of_free hfree
  simp only [Sender.executeWrite, htrusted, authorise_of_authorised h.authorised,
    consumeNonce_of_free permit.draft.id hnonce h.stored hfree.nonce, hopen, permittedCall, consumption]

/-- The process lives long enough to call the provider. -/
def Survives (crash : Option Crash) : Prop := crash ≠ some .beforeCommit ∧ crash ≠ some .afterCommit

/-- A committed call hands its permit's draft to the provider, if it lives and can decode the body. -/
lemma sendText_mem_permittedCall {permit' : Permit} {row : ApprovalNonce} {clock : ClockGuard} :
    (∃ t p r b, .sendText permit' t p r b ∈
      (permittedCall P permit row attemptId now clock s crash reply).2) ↔
      permit' = permit ∧ Survives crash ∧ (decodeUtf8 permit.body).isSome := by
  unfold permittedCall transmit Survives
  rcases hbody : decodeUtf8 permit.body with _ | body
  · rcases crash with _ | _ | _ | _ <;> simp [consumption]
  · rcases crash with _ | _ | _ | _ <;> simp [consumption]

/-- A call is quiet, or its approval is presentable. -/
lemma sendText_presentable {permit' : Permit} {t : ℤ} {p : String} {r : Option String} {b : String}
    (hsend : .sendText permit' t p r b ∈ (executeWrite P env reading attemptId crash reply s).2) :
    Presentable P s env reading attemptId permit' := by
  rcases htrusted : s.clock.trustedNow reading with _ | ⟨now, clock⟩
  · simp [executeWrite, htrusted] at hsend
  obtain ⟨rfl, -⟩ := ClockGuard.trustedNow_eq_some htrusted
  rcases hpermit : authorise P s.control.working now env with stop | permit
  · simp [executeWrite, htrusted, hpermit] at hsend
  rcases hconsumed : consumeNonce env permit.draft.id now s.control.working with stop | ⟨nonce, c⟩
  · simp [executeWrite, htrusted, hpermit, hconsumed] at hsend
  obtain ⟨hnonce, hfree, rfl⟩ := consumeNonce_eq_ok hconsumed
  rcases hopen : openAttempt P attemptId permit.draft.id nonce now { s.control.working with
    approvalNonces := s.control.working.approvalNonces ++ [⟨nonce, permit.draft.id, now⟩] } with
    _ | c'
  · simp [executeWrite, htrusted, hpermit, hconsumed, hopen] at hsend
  obtain ⟨hattempt, rfl⟩ := openAttempt_eq_some ⟨nonce, permit.draft.id, now⟩ hfree hopen
  have hpresentable : Presentable P s env now attemptId permit :=
    ⟨by rw [htrusted]; rfl, authorised hpermit, fits_of_consumeNonce hconsumed,
      ⟨nonce, hnonce, hattempt⟩⟩
  obtain ⟨row, clock', hcall⟩ := hpresentable.executeWrite
  rw [hcall] at hsend
  obtain ⟨rfl, -⟩ := sendText_mem_permittedCall.mp ⟨t, p, r, b, hsend⟩
  exact hpresentable

/-- **Transmission.**  A call hands a draft to the provider exactly where the approval it presents
passes every check, the body is text and the process lives. -/
theorem sendText_mem_iff :
    (∃ t p r b, .sendText permit t p r b ∈
      (executeWrite P env reading attemptId crash reply s).2) ↔
      Presentable P s env reading attemptId permit ∧ Survives crash ∧
        (decodeUtf8 permit.body).isSome := by
  constructor
  · rintro ⟨t, p, r, b, hsend⟩
    have hpresentable := sendText_presentable hsend
    obtain ⟨row, clock, hcall⟩ := hpresentable.executeWrite
    rw [hcall] at hsend
    obtain ⟨-, halive, hbody⟩ := sendText_mem_permittedCall.mp ⟨t, p, r, b, hsend⟩
    exact ⟨hpresentable, halive, hbody⟩
  · rintro ⟨hpresentable, halive, hbody⟩
    obtain ⟨row, clock, hcall⟩ := hpresentable.executeWrite
    rw [hcall]
    exact sendText_mem_permittedCall.mpr ⟨rfl, halive, hbody⟩

end WhatsVault.Approval
