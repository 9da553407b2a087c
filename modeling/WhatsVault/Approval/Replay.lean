import WhatsVault.Approval.Operations

/-!
# Single use of an approval

The replay gate is the UNIQUE constraint on `approval_nonces`.  It closes a draft for good once the
draft's own nonce is in the table, so a run transmits a draft at most once as long as every verified
envelope carries the nonce its signature covers (`CarriesSignedNonce`).  The sender does not check
that: the verified bytes take the nonce from the draft and the insert takes it from the envelope, so
one signature sends again under every fresh nonce (`replayRun`).
-/

namespace WhatsVault.Approval

open Transaction Sender

/-- An envelope that signs the draft it names carries that draft's nonce. -/
def CarriesSignedNonce (P : Platform) (s : Process) : Op → Prop
  | .executeWrite env .. =>
    ∀ draftId d, env.draftId = some draftId → s.control.working.draft draftId = some d →
      SignsDraft P s.control.working env d → env.nonce = d.nonce.map Subtype.val
  | _ => True

/-! ## The invariant -/

/-- The nonce of the draft is in `approval_nonces`. -/
def Spent (c : Control) (draftId : String) : Prop :=
  ∃ d nonce, c.draft draftId = some d ∧ d.nonce = some nonce ∧
    ∃ row ∈ c.approvalNonces, row.nonce = nonce

/-- What both states of the connection satisfy: the nonces of the transmitted drafts are consumed,
and every consumed nonce is that of the draft it was consumed by. -/
structure Gate (log : List Event) (c : Control) : Prop where
  spent : ∀ draftId ∈ transmissions log, Spent c draftId
  covered : ∀ row ∈ c.approvalNonces,
    ∃ d, c.draft row.consumedBy = some d ∧ d.nonce = some row.nonce

structure SingleUse (log : List Event) (c : Conn Control) : Prop where
  once : (transmissions log).Nodup
  signed : ∀ fields nonce, .nonceConsumed fields nonce ∈ log → fields.nonce = some nonce.val
  gate : c.Holds (Gate log)

lemma Spent.mono {c c' : Control} {draftId : String} (h : Spent c draftId)
    (hdraft : ∀ d, c.draft draftId = some d → c'.draft draftId = some d)
    (hnonces : ∀ row ∈ c.approvalNonces, row ∈ c'.approvalNonces) : Spent c' draftId := by
  obtain ⟨d, nonce, hd, hnonce, row, hrow, rfl⟩ := h
  exact ⟨d, row.nonce, hdraft d hd, hnonce, row, hnonces row hrow, rfl⟩

lemma Gate.untouched {P : Platform} {log : List Event} {c c' : Control} (h : Gate log c)
    (hc : Untouched P c c') : Gate log c' where
  spent draftId hsent :=
    (h.spent draftId hsent).mono (fun _ hd => hc.draft hd) (by simp [hc.approvalNonces])
  covered row hrow := by
    rw [hc.approvalNonces] at hrow
    obtain ⟨d, hd, hnonce⟩ := h.covered row hrow
    exact ⟨d, hc.draft hd, hnonce⟩

lemma Gate.quiet {log rest : List Event} {c : Control} (h : Gate log c)
    (hrest : transmissions rest = []) : Gate (log ++ rest) c :=
  ⟨by simpa [hrest] using h.spent, h.covered⟩

section Consume

variable {P : Platform} {log : List Event} {c c' : Control} {now : ℤ} {env : Envelope}
  {permit : Permit} {nonce : Nonce}

/-- Consuming the nonce of an authorised draft keeps the gate and closes the draft. -/
lemma Gate.consume (h : Gate log c) (hauth : Authorised P c now env permit)
    (hnonce : permit.draft.nonce = some nonce)
    (hc : consumeNonce env permit.draft.id now c = .ok (nonce, c')) :
    Gate log c' ∧ Spent c' permit.draft.id := by
  obtain ⟨-, -, rfl⟩ := consumeNonce_eq_ok hc
  refine ⟨⟨fun draftId hsent => (h.spent draftId hsent).mono (fun _ hd => hd) (by simp +contextual),
    fun row hrow => ?_⟩, permit.draft, nonce, hauth.draft, hnonce, ⟨nonce, permit.draft.id, now⟩,
    by simp, rfl⟩
  rcases List.mem_append.mp hrow with hold | hnew
  · exact h.covered row hold
  · rw [List.mem_singleton.mp hnew]
    exact ⟨permit.draft, hauth.draft, hnonce⟩

/-- A draft whose nonce can still be consumed has not been transmitted. -/
lemma Gate.not_sent (h : Gate log c) (hauth : Authorised P c now env permit)
    (hnonce : permit.draft.nonce = some nonce)
    (hc : consumeNonce env permit.draft.id now c = .ok (nonce, c')) :
    permit.draft.id ∉ transmissions log := by
  intro hsent
  obtain ⟨d, n, hd, hn, row, hrow, rfl⟩ := h.spent _ hsent
  obtain ⟨-, hfree, -⟩ := consumeNonce_eq_ok hc
  obtain rfl : permit.draft = d := Option.some.inj (hauth.draft.symm.trans hd)
  exact hfree row hrow (Option.some.inj (hn.symm.trans hnonce))

end Consume

lemma Gate.same {log : List Event} {c c' : Control} (h : Gate log c) (hc : SameButAttempts c c') :
    Gate log c' :=
  ⟨fun draftId hsent => (h.spent draftId hsent).mono
      (fun d hd => by rwa [Control.draft, hc.drafts]) (by simp [hc.approvalNonces]),
    fun row hrow => by
      rw [hc.approvalNonces] at hrow
      obtain ⟨d, hd, hnonce⟩ := h.covered row hrow
      exact ⟨d, by rwa [Control.draft, hc.drafts], hnonce⟩⟩

lemma Quiet.not_consumed {rest : List Event} (h : Quiet rest) {fields : Canonical.Fields}
    {nonce : Nonce} : .nonceConsumed fields nonce ∉ rest := fun hmem => by
  simpa using h _ hmem

lemma AtMostOnce.not_consumed {permit : Permit} {now : ℤ} {rest : List Event}
    (h : AtMostOnce permit now rest) {fields : Canonical.Fields} {nonce : Nonce} :
    .nonceConsumed fields nonce ∉ rest := by
  rcases h with h | ⟨body, rest, -, rfl, h⟩
  · exact h.not_consumed
  · intro hmem
    rcases List.mem_cons.mp hmem with hhead | htail
    · cases hhead
    · exact h.not_consumed htail

lemma AtMostOnce.transmissions {permit : Permit} {now : ℤ} {rest : List Event}
    (h : AtMostOnce permit now rest) :
    transmissions rest = [] ∨ transmissions rest = [permit.draft.id] := by
  rcases h with h | ⟨body, rest, -, rfl, h⟩
  · exact .inl h.transmissions
  · refine .inr ?_
    have hrest : Approval.transmissions rest = [] := h.transmissions
    simpa [Approval.transmissions, sendOf, sentDraft] using hrest

@[simp] lemma transmissions_consumption (permit : Permit) (nonce : Nonce) (rest : List Event) :
    transmissions (consumption permit nonce :: rest) = transmissions rest := rfl

/-- A call of `execute_write` keeps the invariant when the nonce it consumes is the draft's. -/
lemma SingleUse.wrote {P : Platform} {log events : List Event} {before after : Conn Control}
    {env : Envelope} {now : ℤ} (h : SingleUse log before)
    (hw : Wrote P env now before after events)
    (hcarries : ∀ permit, Authorised P before.working now env permit →
      env.nonce = permit.draft.nonce.map Subtype.val) :
    SingleUse (log ++ events) after := by
  have hnonce : ∀ {permit nonce c}, Authorised P before.working now env permit →
      consumeNonce env permit.draft.id now before.working = .ok (nonce, c) →
      permit.draft.nonce = some nonce := by
    intro permit nonce c hauth hc
    have hcarried := (hcarries permit hauth).symm.trans (consumeNonce_eq_ok hc).1
    obtain ⟨n, hn, hval⟩ := Option.map_eq_some_iff.mp hcarried
    rwa [Subtype.ext hval] at hn
  have hsigned : ∀ {permit nonce rest}, permit.draft.nonce = some nonce →
      (∀ fields n, .nonceConsumed fields n ∉ rest) →
      ∀ fields n, .nonceConsumed fields n ∈ log ++ consumption permit nonce :: rest →
        fields.nonce = some n.val := by
    intro permit nonce rest hdraft hrest fields n hmem
    rcases List.mem_append.mp hmem with hold | hnew
    · exact h.signed fields n hold
    rcases List.mem_cons.mp hnew with hhead | htail
    · cases hhead
      simp [canonicalFields, hdraft]
    · exact absurd htail (hrest fields n)
  cases hw with
  | stopped stop =>
    have hnone : transmissions [.stopped stop] = [] := rfl
    refine ⟨by simpa [hnone] using h.once, fun fields n hmem => h.signed fields n ?_,
      h.gate.mono fun c hc => hc.quiet hnone⟩
    simpa using hmem
  | @uncommitted permit nonce c after rest auth consumed durable working silent =>
    have hdraft := hnonce auth consumed
    have hnone : transmissions (consumption permit nonce :: rest) = [] := silent.transmissions
    have hdurable := h.gate.1.quiet hnone
    refine ⟨by simpa [hnone] using h.once, hsigned hdraft fun _ _ => silent.not_consumed,
      by rwa [durable], ?_⟩
    rcases working with hworking | hworking
    · rwa [hworking]
    · rw [hworking]
      exact (h.gate.2.consume auth hdraft consumed).1.quiet hnone
  | @committed permit nonce c c' rest auth consumed same sent =>
    have hdraft := hnonce auth consumed
    obtain ⟨hgate, hspent⟩ := h.gate.2.consume auth hdraft consumed
    have hspent' : Spent c' permit.draft.id :=
      hspent.mono (fun d hd => by rwa [Control.draft, same.drafts]) (by simp [same.approvalNonces])
    have hclosed : Gate (log ++ consumption permit nonce :: rest) c' := by
      refine ⟨fun draftId hmem => ?_, (hgate.same same).covered⟩
      rw [transmissions_append, transmissions_consumption] at hmem
      rcases List.mem_append.mp hmem with hold | hnew
      · exact (hgate.same same).spent draftId hold
      · rcases sent.transmissions with hnone | hone
        · simp [hnone] at hnew
        · rw [hone, List.mem_singleton] at hnew
          rwa [hnew]
    refine ⟨?_, hsigned hdraft fun _ _ => sent.not_consumed, Conn.holds_clean hclosed⟩
    rw [transmissions_append, transmissions_consumption]
    rcases sent.transmissions with hnone | hone
    · simpa [hnone] using h.once
    · rw [hone]
      refine List.nodup_append.mpr ⟨h.once, List.nodup_singleton _, fun a ha b hb => ?_⟩
      rw [List.mem_singleton.mp hb]
      exact fun heq => h.gate.2.not_sent auth hdraft consumed (heq ▸ ha)

lemma singleUse_step {P : Platform} {S : Stdlib} {log : List Event} {s : Process} {op : Op}
    (h : SingleUse log s.control) (hop : CarriesSignedNonce P s op) :
    SingleUse (log ++ (step P S s op).2) (step P S s op).1.control := by
  cases op with
  | call call =>
    simp only [step, List.append_nil]
    exact ⟨h.once, h.signed, holds_call (fun _ _ hc hgate => hgate.untouched hc) h.gate call⟩
  | executeWrite env reading attemptId crash reply =>
    refine h.wrote (executeWrite_cases P env reading attemptId crash reply s) fun permit hauth => ?_
    exact hop permit.draft.id permit.draft hauth.draftId hauth.draft hauth.signsDraft
  | restart =>
    simp only [step, List.append_nil]
    exact ⟨h.once, h.signed, h.gate.rollback⟩

lemma singleUse_start : SingleUse [] start.control :=
  ⟨List.nodup_nil, by simp, Conn.holds_clean
    ⟨by simp [transmissions], by simp [Control.empty]⟩⟩

/-! ## The runs -/

/-- **At most one transmission per draft.**  In a run whose verified envelopes carry the nonce their
signature covers, no draft is handed to the provider twice, and what is consumed is always the nonce
of the verified bytes, in the events as in the committed table. -/
theorem transmissions_at_most_once (P : Platform) (S : Stdlib) (ops : List Op)
    (hcarries : Run.Meets (step P S) (CarriesSignedNonce P) start ops) :
    (∀ draftId, (transmissions (Run.events (step P S) start ops)).count draftId ≤ 1) ∧
    (∀ fields nonce, .nonceConsumed fields nonce ∈ Run.events (step P S) start ops →
      fields.nonce = some nonce.val) ∧
    ∀ row ∈ (Run.final (step P S) start ops).control.durable.approvalNonces,
      ∃ d, (Run.final (step P S) start ops).control.durable.draft row.consumedBy = some d ∧
        d.nonce = some row.nonce := by
  have hrun := Run.log_invariant_of_meets (J := fun log s => SingleUse log s.control)
    (fun log s op h hop => singleUse_step h hop) singleUse_start hcarries
  exact ⟨fun draftId => List.nodup_iff_count_le_one.mp hrun.once draftId, hrun.signed,
    hrun.gate.1.covered⟩

/-- A computable condition that implies `CarriesSignedNonce`: the envelope carries the nonce of the
draft it names, whatever it signs. -/
def carriesDraftNonce (s : Process) : Op → Bool
  | .executeWrite env .. =>
    (env.draftId.bind s.control.working.draft).all fun d => env.nonce = d.nonce.map Subtype.val
  | _ => true

lemma carriesSignedNonce_of_carriesDraftNonce {P : Platform} {s : Process} {op : Op}
    (h : carriesDraftNonce s op = true) : CarriesSignedNonce P s op := by
  cases op with
  | executeWrite env reading attemptId crash reply =>
    intro draftId d hdraftId hd _
    simpa [carriesDraftNonce, hdraftId, hd] using h
  | call call => trivial
  | restart => trivial

def replayPlatform : Platform := signedOnce (samplePayload "PN1" "text")

/-- A draft sent under its own nonce, then offered again after a restart. -/
def singleRun : List Op :=
  .call (.advanceWindow "cnv_1" 1500) :: sampleRun "PN1" "text" ++
    [.restart, .call (.recoverStartup 2500), sampleSend sampleNonce "atm_2"]

/-- The rule on a run that sends, and whose second offer of the same envelope is denied. -/
theorem transmissions_at_most_once_single_run :
    transmissions (Run.events (step replayPlatform sampleStdlib) start singleRun) = ["drf_1"] ∧
    ∀ draftId, (transmissions
      (Run.events (step replayPlatform sampleStdlib) start singleRun)).count draftId ≤ 1 := by
  have hcarries : Run.Meets (step replayPlatform sampleStdlib)
      (fun s op => carriesDraftNonce s op = true) start singleRun := by decide +kernel
  exact ⟨by decide +kernel, (transmissions_at_most_once replayPlatform sampleStdlib singleRun
    (hcarries.mono fun _ _ => carriesSignedNonce_of_carriesDraftNonce)).1⟩

/-- The same envelope twice, the second time with a nonce nobody signed. -/
def replayRun : List Op :=
  .call (.advanceWindow "cnv_1" 1500) :: sampleRun "PN1" "text" ++
    [sampleSend (List.replicate 32 8) "atm_2"]

/-- The device made one signature, over the approval of the one draft; the draft is transmitted
twice, and the second consumed nonce is not the signed one. -/
theorem replayed_under_fresh_nonce :
    (∀ payload signature key, replayPlatform.ecdsaVerify payload signature key = true →
      payload = samplePayload "PN1" "text" ∧ signature = sampleSignature ∧ key = sampleKey) ∧
    transmissions (Run.events (step replayPlatform sampleStdlib) start replayRun) =
      ["drf_1", "drf_1"] ∧
    ∃ e ∈ Run.events (step replayPlatform sampleStdlib) start replayRun,
      ∃ fields nonce, e = .nonceConsumed fields nonce ∧ fields.nonce ≠ some nonce.val :=
  ⟨fun payload signature key h => by simpa [replayPlatform, signedOnce] using h, by decide +kernel,
    .nonceConsumed (sampleFields "PN1" "text") ⟨List.replicate 32 8, rfl⟩, by decide +kernel, _, _,
    rfl, by decide⟩

end WhatsVault.Approval
