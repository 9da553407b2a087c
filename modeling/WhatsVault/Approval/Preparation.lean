import WhatsVault.Approval.Transmission

/-!
# What was prepared

`drafts.prepare` hands back a pending draft of the same conversation and body hash where there is
one, and `execute_write` never takes a draft out of its state.  So the draft it returns may bind
another recipient, be expired or be spent; it is usable exactly where what the lookup finds happens to
suit the request (`prepared_usable_iff`).

The draft of `templates.prepare_template` has a NULL recipient, which the policy refuses.  Of the
drafts that are newly created those of `drafts.prepare` are the ones that can be sent
(`undenied_iff_prepared`).
-/

namespace WhatsVault.Approval

open Checks Transaction Sender Drafts

variable {P : Platform} {S : Stdlib} {I : Control → Prop}

/-! ## What the calls do to the drafts -/

/-- What depends only on the drafts and survives a new one is kept by every call. -/
lemma holds_call_of_drafts (hsame : ∀ c c', c'.drafts = c.drafts → I c → I c')
    (hinsert : ∀ row c c', insertDraft row c = some c' → I c → I c') {conn : Conn Control}
    (h : conn.Holds I) (call : Call) : (call.run P S conn).Holds I := by
  cases call with
  | enroll did name signingPub agreementPub nowMs =>
    refine h.write fun c' hc' => ?_
    obtain ⟨devices, rfl⟩ := Devices.enroll_eq_some hc'
    exact hsame conn.working _ rfl h.2
  | revoke deviceId => exact Conn.holds_clean (hsame conn.working _ rfl h.2)
  | prepare request draftId nonce =>
    simp only [Call.run, settled]
    split
    · rename_i w hran
      obtain ⟨hstale, -⟩ | ⟨text, kind, -, -, hfresh, hins⟩ := prepare_eq_ok hran
      · simpa [hstale] using h
      · simpa [hfresh] using Conn.holds_clean (hinsert _ _ _ hins h.2)
    · exact h
  | upsertFromSync rows =>
    obtain ⟨templates, htemplates⟩ := Templates.upsertFromSync_eq rows conn.working
    have hworking : I (Templates.upsertFromSync rows conn.working).1 :=
      hsame conn.working _ (by rw [htemplates]) h.2
    simp only [Call.run, synced]
    split
    · exact Conn.holds_clean hworking
    · exact ⟨h.1, hworking⟩
  | prepareTemplate request draftId nonce =>
    simp only [Call.run, settled]
    split
    · rename_i w hran
      obtain ⟨digest, hfresh, hins⟩ := Templates.prepareTemplate_eq_ok hran
      simpa [hfresh] using Conn.holds_clean (hinsert _ _ _ hins h.2)
    · exact h
  | acceptEnvelope envelope approvalId =>
    simp only [Call.run, settled]
    split
    · rename_i w hran
      obtain ⟨approvals, happrovals⟩ := Relay.acceptEnvelope_eq_ok hran
      split
      · exact Conn.holds_clean (hsame conn.working _ (by rw [happrovals]) h.2)
      · exact h
    · exact h
  | advanceWindow conversationId incomingProviderMs =>
    refine h.write fun c' hc' => ?_
    rw [Control.advanceWindow_eq_some hc']
    exact hsame conn.working _ rfl h.2
  | recoverStartup nowMs =>
    refine h.write fun c' hc' => ?_
    unfold Sender.recoverStartup at hc'
    split at hc'
    · obtain rfl := Option.some.inj hc'
      exact hsame conn.working _ rfl h.2
    · cases hc'

/-- So it is by every operation. -/
lemma holds_step_of_drafts (hsame : ∀ c c', c'.drafts = c.drafts → I c → I c')
    (hinsert : ∀ row c c', insertDraft row c = some c' → I c → I c') {s : Process}
    (h : s.control.Holds I) (op : Op) : (step P S s op).1.control.Holds I := by
  cases op with
  | call call => exact holds_call_of_drafts hsame hinsert h call
  | executeWrite env reading attemptId crash reply =>
    have hwrote := executeWrite_cases P env reading attemptId crash reply s
    simp only [step]
    generalize (executeWrite P env reading attemptId crash reply s).1.control = after at hwrote ⊢
    generalize (executeWrite P env reading attemptId crash reply s).2 = log at hwrote
    cases hwrote with
    | stopped stop => exact h
    | uncommitted auth consumed durable working silent =>
      obtain ⟨-, -, rfl⟩ := consumeNonce_eq_ok consumed
      refine ⟨durable ▸ h.1, ?_⟩
      obtain hworking | hworking := working
      · exact hworking ▸ h.1
      · exact hworking ▸ hsame s.control.working _ rfl h.2
    | committed auth consumed same sent =>
      obtain ⟨-, -, rfl⟩ := consumeNonce_eq_ok consumed
      exact Conn.holds_clean (hsame s.control.working _ same.drafts h.2)
  | restart => exact h.rollback

/-- A draft that is there stays, as it is. -/
lemma draft_persists {id : String} {d : Draft} {s : Process}
    (h : s.control.Holds fun c => c.draft id = some d) (ops : List Op) :
    (Run.final (step P S) s ops).control.Holds fun c => c.draft id = some d := by
  refine Run.invariant (I := fun s : Process => s.control.Holds fun c => c.draft id = some d)
    (fun s op hs => holds_step_of_drafts ?_ ?_ hs op) h ops
  · intro c c' hdrafts hd
    rwa [Control.draft, hdrafts]
  · intro row c c' hins hd
    obtain ⟨rfl, -⟩ := insertDraft_eq_some hins
    unfold Control.draft Table.find at *
    rw [List.find?_append, hd]
    rfl

/-- The PRIMARY KEY of `drafts`, over runs. -/
lemma drafts_unique (ops : List Op) :
    (Run.final (step P S) start ops).control.Holds fun c => Table.Unique Draft.id c.drafts := by
  have hstart : start.control.Holds fun c : Control => Table.Unique Draft.id c.drafts :=
    Conn.holds_clean (Table.unique_nil Draft.id)
  refine Run.invariant
    (I := fun s : Process => s.control.Holds fun c : Control => Table.Unique Draft.id c.drafts)
    (fun s op hs => holds_step_of_drafts ?_ ?_ hs op) hstart ops
  · intro c c' hdrafts hunique
    rwa [hdrafts]
  · intro row c c' hins hunique
    obtain ⟨rfl, hfree⟩ := insertDraft_eq_some hins
    exact hunique.append fun d hd => (hfree d hd).1

/-! ## The draft `prepare` returns -/

/-- The draft is what the request asked for, and can be approved. -/
structure Usable (c : Control) (r : PrepareRequest) (d : Draft) : Prop where
  conversation : d.conversationId = r.conversationId
  account : d.accountId = r.accountId
  phoneNumber : d.phoneNumberId = r.phoneNumberId
  recipient : d.recipientWaId = r.recipientWaId
  kind : d.kind.name = r.kind
  body : ∃ text, r.text.encode = some text ∧ d.bodyBytes = some (utf8 text)
  unexpired : ∃ expires, d.expiresAtMs = some expires ∧ r.nowMs < expires
  unconsumed : ∀ row ∈ c.approvalNonces, d.nonce ≠ some row.nonce

/-- A draft that is found under the conversation and the body hash agrees with the request in the
rest, and it has neither expired nor been spent. -/
structure SuitsFound (c : Control) (r : PrepareRequest) (text : String) (d : Draft) : Prop where
  account : d.accountId = r.accountId
  phoneNumber : d.phoneNumberId = r.phoneNumberId
  recipient : d.recipientWaId = r.recipientWaId
  kind : d.kind.name = r.kind
  body : d.bodyBytes = some (utf8 text)
  unexpired : ∃ expires, d.expiresAtMs = some expires ∧ r.nowMs < expires
  unconsumed : ∀ row ∈ c.approvalNonces, d.nonce ≠ some row.nonce

/-- What the lookup finds suits the request; where it finds nothing, the expiry asked for is still to
come and the nonce drawn is new. -/
structure Suits (P : Platform) (c : Control) (r : PrepareRequest) (nonce : Nonce) : Prop where
  found : ∀ text d, r.text.encode = some text →
    pendingDraft c r.conversationId (P.sha256 (utf8 text)) = some d → SuitsFound c r text d
  fresh : ∀ text, r.text.encode = some text →
    pendingDraft c r.conversationId (P.sha256 (utf8 text)) = none →
      r.nowMs < r.expiry ∧ ∀ row ∈ c.approvalNonces, row.nonce ≠ nonce

variable {c : Control} {r : PrepareRequest} {draftId : String} {nonce : Nonce} {w : Written}

lemma kind_name_of_ofName {name : String} {kind : DraftKind} (h : DraftKind.ofName name = some kind) :
    kind.name = name := by
  simpa using List.find?_some h

/-- What `prepare` returns: the pending draft it found, or the row it wrote. -/
lemma prepare_returns (h : prepare P r draftId nonce c = .ok w) :
    r.recipientWaId.getD "" ≠ "" ∧ ∃ text, r.text.encode = some text ∧
      ((∃ d, pendingDraft c r.conversationId (P.sha256 (utf8 text)) = some d ∧
          w = ⟨d.id, false, c⟩) ∨
        ∃ kind c', pendingDraft c r.conversationId (P.sha256 (utf8 text)) = none ∧
          DraftKind.ofName r.kind = some kind ∧
          insertDraft (preparedRow P r draftId nonce (utf8 text) kind) c = some c' ∧
          w = ⟨draftId, true, c'⟩) := by
  unfold prepare at h
  split at h
  · cases h
  rename_i hpolicy
  have hbound := ((evaluate_ok_iff _).mp hpolicy).1
  split at h
  · cases h
  rename_i text htext
  refine ⟨hbound, text, htext, ?_⟩
  split at h
  · rename_i d hfound
    exact .inl ⟨d, hfound, (Except.ok.inj h).symm⟩
  · rename_i hnone
    simp only [bind_eq_ok, orStop_eq_ok, pure_eq_ok] at h
    obtain ⟨kind, hkind, c', hins, rfl⟩ := h
    exact .inr ⟨kind, c', hnone, hkind, hins, rfl⟩

lemma draft_of_insertDraft {row : Draft} {c' : Control} (h : insertDraft row c = some c') :
    c'.draft row.id = some row := by
  obtain ⟨rfl, hfree⟩ := insertDraft_eq_some h
  have hid : ∀ d ∈ c.drafts, d.id ≠ row.id := fun d hd => (hfree d hd).1
  exact (Table.find_append_of_free hid row.id).trans (if_pos rfl)

/-- What a pending draft is found by. -/
lemma pendingDraft_eq_some {conversationId : String} {digest : Bytes} {d : Draft}
    (h : pendingDraft c conversationId digest = some d) :
    d ∈ c.drafts ∧ d.conversationId = conversationId := by
  have hcolumns : d.conversationId = conversationId ∧ d.bodySha256 = some digest ∧
      d.state = .pendingApproval := by simpa using List.find?_some h
  exact ⟨List.mem_of_find?_eq_some h, hcolumns.1⟩

lemma usable_found_iff {text : String} (htext : r.text.encode = some text) {d : Draft}
    (hfound : pendingDraft c r.conversationId (P.sha256 (utf8 text)) = some d) :
    Usable c r d ↔ Suits P c r nonce := by
  constructor
  · intro husable
    refine ⟨fun text' d' htext' hfound' => ?_, fun text' htext' hnone => ?_⟩
    · obtain rfl := Option.some.inj (htext.symm.trans htext')
      obtain rfl := Option.some.inj (hfound.symm.trans hfound')
      obtain ⟨text', htext', hbody⟩ := husable.body
      obtain rfl := Option.some.inj (htext.symm.trans htext')
      exact ⟨husable.account, husable.phoneNumber, husable.recipient, husable.kind, hbody,
        husable.unexpired, husable.unconsumed⟩
    · obtain rfl := Option.some.inj (htext.symm.trans htext')
      rw [hfound] at hnone
      cases hnone
  · intro hsuits
    have hd := hsuits.found text d htext hfound
    exact ⟨(pendingDraft_eq_some hfound).2, hd.account, hd.phoneNumber, hd.recipient, hd.kind,
      ⟨text, htext, hd.body⟩, hd.unexpired, hd.unconsumed⟩

lemma usable_fresh_iff (draftId : String) {text : String} (htext : r.text.encode = some text)
    {kind : DraftKind} (hkind : DraftKind.ofName r.kind = some kind)
    (hnone : pendingDraft c r.conversationId (P.sha256 (utf8 text)) = none) :
    Usable c r (preparedRow P r draftId nonce (utf8 text) kind) ↔ Suits P c r nonce := by
  constructor
  · intro husable
    refine ⟨fun text' d htext' hfound => ?_, fun text' _ _ => ⟨?_, fun row hrow hsame => ?_⟩⟩
    · obtain rfl := Option.some.inj (htext.symm.trans htext')
      rw [hnone] at hfound
      cases hfound
    · obtain ⟨expires, hexpires, hlater⟩ := husable.unexpired
      obtain rfl := Option.some.inj hexpires
      exact hlater
    · exact husable.unconsumed row hrow (congrArg some hsame.symm)
  · intro hsuits
    obtain ⟨hlater, hnew⟩ := hsuits.fresh text htext hnone
    refine ⟨rfl, rfl, rfl, rfl, kind_name_of_ofName hkind, ⟨text, htext, rfl⟩, ⟨_, rfl, hlater⟩, ?_⟩
    intro row hrow hsame
    exact hnew row hrow (Option.some.inj hsame).symm

section Sample

/-- The sample draft is prepared, approved and sent. -/
def sentRun : List Op := .call (.advanceWindow "cnv_1" 1500) :: sampleRun "PN1" "text"

def sentControl : Control :=
  (Run.final (step replayPlatform sampleStdlib) start sentRun).control.working

/-- The same text to another recipient, half an hour later. -/
def laterRequest : PrepareRequest :=
  { sampleRequest "PN1" "text" with recipientWaId := some "62000", nowMs := 1801000 }

end Sample

/-! ## What can be sent -/

/-- The row of a draft that was newly written. -/
def newDraft {ε : Type} : Except ε Written → Option Draft
  | .ok w => if w.fresh then w.control.draft w.id else none
  | .error _ => none

/-- When a call creates a draft, and the draft. -/
def Call.creates (P : Platform) (c : Control) : Call → Option (ℤ × Draft)
  | .prepare request draftId nonce =>
    (newDraft (Drafts.prepare P request draftId nonce c)).map fun d => (request.nowMs, d)
  | .prepareTemplate request draftId nonce =>
    (newDraft (Templates.prepareTemplate P request draftId nonce c)).map fun d => (request.nowMs, d)
  | _ => none

/-- The call is one of `drafts.prepare`. -/
def Call.IsPrepare : Call → Prop
  | .prepare .. => True
  | _ => False

/-- An approval of a draft created at `t` is presented as it should be: in its time and by a clock that
has not gone back, in an open window, with the correct signature of an active device and the draft's
own nonce, which nobody has consumed. -/
structure Ready (P : Platform) (s : Process) (t : ℤ) (d : Draft) (env : Envelope)
    (reading : ℤ) : Prop where
  later : t ≤ reading
  unexpired : ∃ expires, d.expiresAtMs = some expires ∧ reading < expires
  clock : (s.clock.trustedNow reading).isSome
  window : s.control.working.windowOpen d.conversationId reading = true
  named : env.draftId = some d.id
  decision : env.decision = some "APPROVE"
  signed : SignsDraft P s.control.working env d
  nonce : env.nonce = d.nonce.map Subtype.val
  unconsumed : ∀ row ∈ s.control.working.approvalNonces, d.nonce ≠ some row.nonce

/-- The call did not end in a denial. -/
def Undenied (log : List Event) : Prop := ∀ reason, .stopped (.denied reason) ∉ log

lemma newDraft_eq_some {ε : Type} {x : Except ε Written} {d : Draft} (h : newDraft x = some d) :
    ∃ w, x = .ok w ∧ w.fresh = true ∧ w.control.draft w.id = some d := by
  cases x with
  | error e => cases h
  | ok w =>
    simp only [newDraft, Option.ite_none_right_eq_some] at h
    exact ⟨w, rfl, h⟩

/-- What a created draft is, and that it is committed. -/
lemma creates_eq_some {conn : Conn Control} {call : Call} {t : ℤ} {d : Draft}
    (h : call.creates P conn.working = some (t, d)) :
    (call.run P S conn).Holds (fun c => c.draft d.id = some d) ∧
      ((call.IsPrepare ∧ d.recipientWaId.getD "" ≠ "" ∧
          ∃ body, d.bodyBytes = some body ∧ d.bodySha256 = some (P.sha256 body)) ∨
        ¬ call.IsPrepare ∧ d.recipientWaId = none ∧ d.bodySha256 = none) ∧ d.nonce.isSome := by
  unfold Call.creates at h
  split at h
  · rename_i request draftId nonce
    obtain ⟨d', hnew, heq⟩ := Option.map_eq_some_iff.mp h
    obtain ⟨w, hran, hfresh, hdraft⟩ := newDraft_eq_some hnew
    obtain ⟨rfl, rfl⟩ := Prod.mk.inj heq
    obtain ⟨hbound, text, -, ⟨found, -, rfl⟩ | ⟨kind, c', -, -, hins, rfl⟩⟩ := prepare_returns hran
    · cases hfresh
    have hstored := draft_of_insertDraft hins
    obtain rfl := Option.some.inj (hstored.symm.trans hdraft)
    refine ⟨?_, .inl ⟨trivial, hbound, _, rfl, rfl⟩, rfl⟩
    simp only [Call.run, settled, hran, if_true]
    exact Conn.holds_clean hstored
  · rename_i request draftId nonce
    obtain ⟨d', hnew, heq⟩ := Option.map_eq_some_iff.mp h
    obtain ⟨w, hran, hfresh, hdraft⟩ := newDraft_eq_some hnew
    obtain ⟨rfl, rfl⟩ := Prod.mk.inj heq
    have hcall : (Call.prepareTemplate request draftId nonce).run P S conn = .clean w.control := by
      simp only [Call.run, settled, hran, hfresh, if_true]
    simp only [Templates.prepareTemplate, bind_eq_ok, orStop_eq_ok, require_eq_ok, pure_eq_ok] at hran
    obtain ⟨row, -, -, -, fits, -, -, -, digest, -, c', hins, rfl⟩ := hran
    have hstored := draft_of_insertDraft hins
    obtain rfl := Option.some.inj (hstored.symm.trans hdraft)
    refine ⟨?_, .inr ⟨fun hprepare => hprepare, rfl, rfl⟩, rfl⟩
    rw [hcall]
    exact Conn.holds_clean hstored
  · cases h

section OneCall

variable {s : Process} {t : ℤ} {d : Draft} {env : Envelope} {reading : ℤ} {attemptId : String}
  {crash : Option Crash} {reply : ProviderReply}

/-- A ready approval of a draft with a recipient and a true digest is authorised. -/
lemma Ready.authorised (h : Ready P s t d env reading)
    (hdraft : s.control.working.draft d.id = some d) (hbound : d.recipientWaId.getD "" ≠ "")
    {body : Bytes} (hbody : d.bodyBytes = some body) (hdigest : d.bodySha256 = some (P.sha256 body)) :
    ∃ permit, Authorised P s.control.working reading env permit := by
  obtain ⟨deviceId, key, payload, signature, hdevice, hkey, hpayload, hsignature, hverified⟩ := h.signed
  obtain ⟨expires, hexpires, hunexpired⟩ := h.unexpired
  refine ⟨⟨d, deviceId, key, signature, payload, body⟩, h.named, hdraft, h.decision, hdevice, hkey,
    hpayload, hsignature, hverified, by rw [hbody]; rfl, fun digest hsome => ?_, ?_⟩
  · exact Option.some.inj (hsome.symm.trans hdigest)
  · refine (evaluate_ok_iff _).mpr ⟨hbound, fun _ => h.window, rfl, ?_, rfl, rfl, rfl⟩
    simpa [sendContext, hexpires, WhatsVault.unexpired] using hunexpired

/-- Once it is authorised, a call with the draft's unconsumed nonce is not denied. -/
lemma Ready.undenied (h : Ready P s t d env reading) (hnonce : d.nonce.isSome) {permit : Permit}
    (hauth : Authorised P s.control.working reading env permit) :
    Undenied (executeWrite P env reading attemptId crash reply s).2 := by
  obtain ⟨⟨now, clock⟩, htrusted⟩ := Option.isSome_iff_exists.mp h.clock
  obtain ⟨rfl, -⟩ := ClockGuard.trustedNow_eq_some htrusted
  obtain ⟨nonce, hnonce⟩ := Option.isSome_iff_exists.mp hnonce
  have hcarried : env.nonce = some nonce.val := by rw [h.nonce, hnonce]; rfl
  have hfree : ∀ row ∈ s.control.working.approvalNonces, row.nonce ≠ nonce := by
    intro row hrow hsame
    exact h.unconsumed row hrow (hnonce.trans (congrArg some hsame.symm))
  intro reason
  rcases htime : fitsInt64 now with _ | _
  · have hraised : consumeNonce env permit.draft.id now s.control.working = .error .raised := by
      simp [consumeNonce, hcarried, htime, orStop, require, ok_bind, error_bind]
    simp [executeWrite, htrusted, authorise_of_authorised hauth, hraised]
  have hconsumed := consumeNonce_of_free permit.draft.id hcarried htime hfree
  rcases hopen : openAttempt P attemptId permit.draft.id nonce now { s.control.working with
    approvalNonces := s.control.working.approvalNonces ++ [⟨nonce, permit.draft.id, now⟩] } with
    _ | c'
  · simp [executeWrite, htrusted, authorise_of_authorised hauth, hconsumed, hopen]
  simp only [executeWrite, htrusted, authorise_of_authorised hauth, hconsumed, hopen, transmit]
  rcases decodeUtf8 permit.body with _ | body
  · rcases crash with _ | _ | _ | _ <;> simp
  · rcases crash with _ | _ | _ | _ <;> simp

/-- A ready approval of a draft without recipient and digest is denied by the policy. -/
lemma Ready.denied (h : Ready P s t d env reading)
    (hdraft : s.control.working.draft d.id = some d) (hnone : d.recipientWaId = none)
    (hdigest : d.bodySha256 = none) :
    (executeWrite P env reading attemptId crash reply s).2 =
      [.stopped (.denied "P1_RECIPIENT_UNBOUND")] := by
  obtain ⟨deviceId, key, payload, signature, hdevice, hkey, hpayload, hsignature, hverified⟩ := h.signed
  obtain ⟨⟨now, clock⟩, htrusted⟩ := Option.isSome_iff_exists.mp h.clock
  obtain ⟨rfl, -⟩ := ClockGuard.trustedNow_eq_some htrusted
  have hstopped : authorise P s.control.working now env =
      .error (.denied "P1_RECIPIENT_UNBOUND") := by
    simp [authorise, h.named, hdraft, h.decision, hdevice, hkey, hpayload, hsignature, hverified,
      hdigest, orStop, require, ok_bind, evaluate, sendContext, hnone]
  simp [executeWrite, htrusted, hstopped]

end OneCall

/-- **What was prepared can be sent** if it was prepared by `drafts.prepare`: from any state and over
any run after the call that created the draft, a ready approval of it is not denied exactly then. -/
theorem undenied_iff_prepared (P : Platform) (S : Stdlib) (s : Process) (call : Call) (t : ℤ)
    (d : Draft) (hcreated : call.creates P s.control.working = some (t, d)) (later : List Op)
    (env : Envelope) (reading : ℤ) (attemptId : String) (crash : Option Crash) (reply : ProviderReply)
    (hready : Ready P (Run.final (step P S) s (.call call :: later)) t d env reading) :
    Undenied (step P S (Run.final (step P S) s (.call call :: later))
      (.executeWrite env reading attemptId crash reply)).2 ↔ call.IsPrepare := by
  obtain ⟨hcommitted, hcolumns, hnonce⟩ := creates_eq_some (S := S) hcreated
  have hdraft :=
    (draft_persists (P := P) (S := S) (s := (step P S s (.call call)).1) hcommitted later).2
  obtain ⟨hprepare, hbound, body, hbody, hdigest⟩ | ⟨htemplate, hnone, hdigest⟩ := hcolumns
  · obtain ⟨permit, hauth⟩ := hready.authorised hdraft hbound hbody hdigest
    exact ⟨fun _ => hprepare, fun _ => hready.undenied hnonce hauth⟩
  · have hdenied : (step P S (Run.final (step P S) s (.call call :: later))
        (.executeWrite env reading attemptId crash reply)).2 =
          [.stopped (.denied "P1_RECIPIENT_UNBOUND")] := hready.denied hdraft hnone hdigest
    refine ⟨fun hundenied => ?_, fun hprepare => absurd hprepare htemplate⟩
    exact absurd (List.mem_singleton.mpr rfl) (hdenied ▸ hundenied "P1_RECIPIENT_UNBOUND")

section Sample

/-- An envelope with the device's signature and the nonce of the sample draft. -/
def sampleEnvelope : Envelope :=
  ⟨some "drf_1", some "APPROVE", some "dev_1", some sampleSignature, some sampleNonce.val⟩

/-- The device is enrolled and the conversation has a message. -/
def enrolled (P : Platform) : Process :=
  Run.final (step P sampleStdlib) start
    [.call (.advanceWindow "cnv_1" 1500), .call (.enroll "dev_1" "phone" sampleKey none none)]

/-- The rule on the sample draft. -/
theorem undenied_iff_prepared_sample :
    Undenied (step replayPlatform sampleStdlib (Run.final (step replayPlatform sampleStdlib)
      (enrolled replayPlatform) [.call (.prepare (sampleRequest "PN1" "text") "drf_1" sampleNonce)])
        (sampleSend sampleNonce "atm_1")).2 := by
  have hcreated : (Call.prepare (sampleRequest "PN1" "text") "drf_1" sampleNonce).creates
      replayPlatform (enrolled replayPlatform).control.working =
        some (1000, sampleDraft "PN1" "text") := by decide
  refine (undenied_iff_prepared replayPlatform sampleStdlib _ _ _ _ hcreated [] sampleEnvelope 2000
    "atm_1" none (.submitted (some "wamid.1")) ?_).mpr trivial
  refine ⟨by decide, ⟨901000, by decide, by decide⟩, by decide, by decide,
    by decide, by decide, ⟨"dev_1", sampleKey, samplePayload "PN1" "text",
      sampleSignature, by decide, by decide, by decide +kernel, by decide,
      by decide +kernel⟩, by decide, by decide⟩

def templateRequest : Templates.TemplateRequest := ⟨"cnv_1", "acc_1", "PN1", "tpl_1", [], 1000⟩

def sampleTemplate : Template := ⟨"tpl_1", "hello", "en", "APPROVED", 1, .unconstrained⟩

/-- The draft of the template; its digest does not depend on the payload signed. -/
def templateDraft : Draft :=
  Templates.templatedRow templateRequest "drf_1" sampleNonce
    ((Templates.paramsDigest (signedOnce []) "hello" "en" 1 []).getD [])

def templatePayload : Bytes :=
  (Canonical.encode (canonicalFields templateDraft "APPROVE" "dev_1")).getD []

/-- The device that approves the draft, and a catalogue with the template. -/
def templateProcess : Process :=
  (step (signedOnce templatePayload) sampleStdlib (enrolled (signedOnce templatePayload))
    (.call (.upsertFromSync [some sampleTemplate]))).1

/-- The draft of an approved template is created, its approval is ready, and it is denied. -/
theorem template_draft_denied :
    (Call.prepareTemplate templateRequest "drf_1" sampleNonce).creates (signedOnce templatePayload)
        templateProcess.control.working = some (1000, templateDraft) ∧
      Ready (signedOnce templatePayload) (Run.final (step (signedOnce templatePayload) sampleStdlib)
          templateProcess [.call (.prepareTemplate templateRequest "drf_1" sampleNonce)]) 1000
        templateDraft sampleEnvelope 2000 ∧
      (step (signedOnce templatePayload) sampleStdlib (Run.final (step (signedOnce templatePayload)
          sampleStdlib) templateProcess [.call (.prepareTemplate templateRequest "drf_1" sampleNonce)])
        (sampleSend sampleNonce "atm_1")).2 = [.stopped (.denied "P1_RECIPIENT_UNBOUND")] := by
  refine ⟨by decide, ⟨by decide, ⟨901000, by decide, by decide⟩, by decide,
    by decide, by decide, by decide, ⟨"dev_1", sampleKey, templatePayload,
      sampleSignature, by decide, by decide, by decide +kernel, by decide,
      by decide +kernel⟩, by decide, by decide⟩, by decide +kernel⟩

end Sample

end WhatsVault.Approval
