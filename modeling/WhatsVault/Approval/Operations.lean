import WhatsVault.Approval.Relay
import WhatsVault.Approval.Sender
import WhatsVault.Library.Run

/-!
# Runs of the approval path

An `Op` is one call on the sender's process, with every choice the caller, the provider and the
machine make in it.  `step` runs it; a run is a list of operations from the freshly migrated
database.

Two facts carry the results about runs.  Every operation but a send leaves `approval_nonces` alone,
only appends to `drafts` and only recovers attempts (`Conn.Holds` of anything `Untouched` respects
survives it), and what
a send does to the database and which events it emits is one case analysis (`executeWrite_cases`).
-/

namespace WhatsVault.Approval

open Transaction Sender

/-- A call on the control database that is not a send. -/
inductive Call
  | enroll (did name : String) (signingPub : Bytes) (agreementPub : Option Bytes)
      (nowMs : Option ℤ)
  | revoke (deviceId : String)
  | prepare (request : Drafts.PrepareRequest) (draftId : String) (nonce : Nonce)
  | upsertFromSync (rows : List (Option Template))
  | prepareTemplate (request : Templates.TemplateRequest) (draftId : String) (nonce : Nonce)
  | acceptEnvelope (envelope : Bytes) (approvalId : String)
  | advanceWindow (conversationId : String) (incomingProviderMs : ℤ)
  | recoverStartup (nowMs : ℤ)

inductive Op
  | call (call : Call)
  | executeWrite (env : Envelope) (reading : ℤ) (attemptId : String) (crash : Option Crash)
      (reply : ProviderReply)
  | restart

/-- The connection after a call that commits what it has written, and nothing when it wrote
nothing. -/
def settled {ε : Type} (r : Except ε Written) (c : Conn Control) : Conn Control :=
  match r with
  | .ok w => if w.fresh then .clean w.control else c
  | .error _ => c

/-- The connection after `upsert_from_sync`. -/
def synced (rows : List (Option Template)) (c : Conn Control) : Conn Control :=
  let r := Templates.upsertFromSync rows c.working
  if r.2 then .clean r.1 else ⟨c.durable, r.1⟩

def Call.run (P : Platform) (S : Stdlib) (c : Conn Control) : Call → Conn Control
  | enroll did name signingPub agreementPub nowMs =>
    c.write (Devices.enroll did name signingPub agreementPub nowMs)
  | revoke deviceId => .clean (Devices.revoke deviceId c.working)
  | prepare request draftId nonce => settled (Drafts.prepare P request draftId nonce c.working) c
  | upsertFromSync rows => synced rows c
  | prepareTemplate request draftId nonce =>
    settled (Templates.prepareTemplate P request draftId nonce c.working) c
  | acceptEnvelope envelope approvalId =>
    settled (Relay.acceptEnvelope S envelope approvalId c.working) c
  | advanceWindow conversationId incomingProviderMs =>
    c.write (Control.advanceWindow conversationId incomingProviderMs)
  | recoverStartup nowMs => c.write (Sender.recoverStartup nowMs)

def step (P : Platform) (S : Stdlib) (s : Process) : Op → Process × List Event
  | .call call => (⟨call.run P S s.control, s.clock⟩, [])
  | .executeWrite env reading attemptId crash reply =>
    executeWrite P env reading attemptId crash reply s
  | .restart => (s.restart, [])

/-- A process on the freshly migrated database. -/
def start : Process := ⟨.clean .empty, ⟨none⟩⟩

/-! ## What a call that does not send can do -/

/-- A draft as its two writers leave it. -/
def WellPrepared (P : Platform) (d : Draft) : Prop :=
  d.nonce.isSome ∧ d.expiresAtMs.isSome ∧
    (d.recipientWaId = none ∨
      ∃ body, d.bodyBytes = some body ∧ d.bodySha256 = some (P.sha256 body))

/-- What becomes of an attempt without a send: nothing, or its recovery. -/
def Recovered (a a' : SendAttempt) : Prop :=
  a' = a ∨ a.state = .submitting ∧ ∃ nowMs,
    a' = { a with state := .indeterminate, updatedAtMs := nowMs }

/-- The same consumed nonces, the same drafts with well prepared ones appended, and the same attempts
up to their recovery. -/
structure Untouched (P : Platform) (c c' : Control) : Prop where
  approvalNonces : c'.approvalNonces = c.approvalNonces
  drafts : ∃ rows, c'.drafts = c.drafts ++ rows ∧ ∀ d ∈ rows, WellPrepared P d
  sendAttempts : List.Forall₂ Recovered c.sendAttempts c'.sendAttempts

lemma recovered_refl (rows : List SendAttempt) : List.Forall₂ Recovered rows rows :=
  List.forall₂_same.mpr fun _ _ => .inl rfl

lemma untouched_of_eq {P : Platform} {c c' : Control} (hnonces : c'.approvalNonces = c.approvalNonces)
    (hdrafts : c'.drafts = c.drafts) (hattempts : c'.sendAttempts = c.sendAttempts) :
    Untouched P c c' :=
  ⟨hnonces, ⟨[], by simpa using hdrafts, by simp⟩, by rw [hattempts]; exact recovered_refl _⟩

lemma untouched_insertDraft {P : Platform} {row : Draft} {c c' : Control}
    (h : Drafts.insertDraft row c = some c') (hrow : WellPrepared P row) : Untouched P c c' := by
  obtain ⟨rfl, -⟩ := Drafts.insertDraft_eq_some h
  exact ⟨rfl, ⟨[row], rfl, by simpa using hrow⟩, recovered_refl _⟩

lemma untouched_recoverStartup {P : Platform} {nowMs : ℤ} {c c' : Control}
    (h : Sender.recoverStartup nowMs c = some c') : Untouched P c c' := by
  unfold Sender.recoverStartup at h
  split at h
  · cases h
    refine ⟨rfl, ⟨[], by simp, by simp⟩, List.forall₂_map_right_iff.mpr ?_⟩
    refine List.forall₂_same.mpr fun a _ => ?_
    by_cases hstate : a.state = .submitting
    · exact .inr ⟨hstate, nowMs, by simp [hstate]⟩
    · exact .inl (by simp [hstate])
  · cases h

lemma Untouched.draft {P : Platform} {c c' : Control} (h : Untouched P c c') {id : String}
    {d : Draft} (hd : c.draft id = some d) : c'.draft id = some d := by
  obtain ⟨rows, hrows, -⟩ := h.drafts
  unfold Control.draft Table.find at *
  rw [hrows, List.find?_append, hd]
  rfl

lemma wellPrepared_preparedRow (P : Platform) (r : Drafts.PrepareRequest) (draftId : String)
    (nonce : Nonce) (body : Bytes) (kind : DraftKind) :
    WellPrepared P (Drafts.preparedRow P r draftId nonce body kind) :=
  ⟨rfl, rfl, .inr ⟨body, rfl, rfl⟩⟩

lemma wellPrepared_templatedRow (P : Platform) (r : Templates.TemplateRequest) (draftId : String)
    (nonce : Nonce) (digest : Bytes) :
    WellPrepared P (Templates.templatedRow r draftId nonce digest) :=
  ⟨rfl, rfl, .inl rfl⟩

section NonSending

variable {P : Platform} {S : Stdlib} {I : Control → Prop}

lemma holds_settled {ε : Type} {r : Except ε Written} {c : Conn Control}
    (hI : ∀ c c', Untouched P c c' → I c → I c') (hc : c.Holds I)
    (hr : ∀ w, r = .ok w → w.fresh → Untouched P c.working w.control) :
    (settled r c).Holds I := by
  unfold settled
  cases r with
  | error e => exact hc
  | ok w =>
    by_cases hfresh : w.fresh
    · simpa [hfresh] using Conn.holds_clean (hI _ _ (hr w rfl hfresh) hc.2)
    · simpa [hfresh] using hc

lemma holds_synced {rows : List (Option Template)} {c : Conn Control}
    (hI : ∀ c c', Untouched P c c' → I c → I c') (hc : c.Holds I) :
    (synced rows c).Holds I := by
  obtain ⟨templates, htemplates⟩ := Templates.upsertFromSync_eq rows c.working
  have hworking : I (Templates.upsertFromSync rows c.working).1 :=
    hI _ _ (by rw [htemplates]; exact untouched_of_eq rfl rfl rfl) hc.2
  unfold synced
  dsimp only
  split
  · exact Conn.holds_clean hworking
  · exact ⟨hc.1, hworking⟩

/-- What depends only on the consumed nonces and survives new drafts is kept by every call that is
not a send. -/
theorem holds_call (hI : ∀ c c', Untouched P c c' → I c → I c') {c : Conn Control}
    (hc : c.Holds I) (call : Call) : (call.run P S c).Holds I := by
  cases call with
  | enroll did name signingPub agreementPub nowMs =>
    refine hc.write fun c' hc' => ?_
    obtain ⟨devices, rfl⟩ := Devices.enroll_eq_some hc'
    exact hI c.working _ (untouched_of_eq rfl rfl rfl) hc.2
  | revoke deviceId => exact Conn.holds_clean (hI c.working _ (untouched_of_eq rfl rfl rfl) hc.2)
  | prepare request draftId nonce =>
    refine holds_settled hI hc fun w hw hfresh => ?_
    rcases Drafts.prepare_eq_ok hw with ⟨hstale, -⟩ | ⟨text, kind, -, -, -, hins⟩
    · simp [hstale] at hfresh
    · exact untouched_insertDraft hins (wellPrepared_preparedRow ..)
  | upsertFromSync rows => exact holds_synced hI hc
  | prepareTemplate request draftId nonce =>
    refine holds_settled hI hc fun w hw _ => ?_
    obtain ⟨digest, -, hins⟩ := Templates.prepareTemplate_eq_ok hw
    exact untouched_insertDraft hins (wellPrepared_templatedRow ..)
  | acceptEnvelope envelope approvalId =>
    refine holds_settled hI hc fun w hw _ => ?_
    obtain ⟨approvals, happrovals⟩ := Relay.acceptEnvelope_eq_ok hw
    rw [happrovals]
    exact untouched_of_eq rfl rfl rfl
  | advanceWindow conversationId incomingProviderMs =>
    refine hc.write fun c' hc' => ?_
    rw [Control.advanceWindow_eq_some hc']
    exact hI c.working _ (untouched_of_eq rfl rfl rfl) hc.2
  | recoverStartup nowMs =>
    exact hc.write fun c' hc' => hI c.working _ (untouched_recoverStartup hc') hc.2

end NonSending

/-! ## What a send can do -/

section Sending

variable {P : Platform}

/-- What `authorise` has checked. -/
structure Authorised (P : Platform) (c : Control) (now : ℤ) (env : Envelope) (permit : Permit) :
    Prop where
  draftId : env.draftId = some permit.draft.id
  draft : c.draft permit.draft.id = some permit.draft
  decision : env.decision = some "APPROVE"
  deviceId : env.deviceId = some permit.deviceId
  signingPub : Devices.activeSigningKey c permit.deviceId = some permit.signingPub
  payload : Canonical.encode (canonicalFields permit.draft "APPROVE" permit.deviceId) =
    some permit.payload
  signature : env.signature = some permit.signature
  verified : verify P permit.payload permit.signature permit.signingPub = true
  body : permit.body = permit.draft.bodyBytes.getD []
  digest : ∀ digest, permit.draft.bodySha256 = some digest → digest = P.sha256 permit.body
  policy : evaluate (sendContext c permit.draft now) = []

lemma authorised {c : Control} {now : ℤ} {env : Envelope} {permit : Permit}
    (h : authorise P c now env = .ok permit) : Authorised P c now env permit := by
  simp only [authorise, Checks.bind_eq_ok, Checks.orStop_eq_ok, Checks.require_eq_ok,
    Checks.pure_eq_ok] at h
  obtain ⟨draftId, hdraftId, draft, hdraft, decision, hdecision, -, rfl, deviceId, hdeviceId,
    signingPub, hkey, payload, hpayload, signature, hsignature, -, hverified, -, hdigest, -,
    hpolicy, rfl⟩ := h
  have hid := (Table.mem_of_find_eq_some hdraft).2
  subst hid
  refine ⟨hdraftId, hdraft, hdecision, hdeviceId, hkey, hpayload, hsignature, hverified, rfl, ?_,
    hpolicy⟩
  intro digest hd
  rw [hd] at hdigest
  simpa using hdigest

/-- The envelope's signature verifies over the canonical bytes of an approval of `d`. -/
def SignsDraft (P : Platform) (c : Control) (env : Envelope) (d : Draft) : Prop :=
  ∃ deviceId key payload signature,
    env.deviceId = some deviceId ∧ Devices.activeSigningKey c deviceId = some key ∧
    Canonical.encode (canonicalFields d "APPROVE" deviceId) = some payload ∧
    env.signature = some signature ∧ verify P payload signature key = true

lemma Authorised.signsDraft {c : Control} {now : ℤ} {env : Envelope}
    {permit : Permit} (h : Authorised P c now env permit) : SignsDraft P c env permit.draft :=
  ⟨permit.deviceId, permit.signingPub, permit.payload, permit.signature, h.deviceId, h.signingPub,
    h.payload, h.signature, h.verified⟩

lemma consumeNonce_eq_ok {env : Envelope} {draftId : String} {now : ℤ} {c c' : Control}
    {nonce : Nonce} (h : consumeNonce env draftId now c = .ok (nonce, c')) :
    env.nonce = some nonce ∧ (∀ row ∈ c.approvalNonces, row.nonce ≠ nonce) ∧
      c' = { c with approvalNonces := c.approvalNonces ++ [⟨nonce, draftId, now⟩] } := by
  simp only [consumeNonce, Checks.bind_eq_ok, Checks.orStop_eq_ok, Checks.require_eq_ok] at h
  obtain ⟨bytes, hbytes, -, -, h⟩ := h
  split at h
  · simp only [Checks.bind_eq_ok, Checks.orStop_eq_ok, Checks.pure_eq_ok, Prod.mk.injEq] at h
    obtain ⟨rows, hrows, rfl, rfl⟩ := h
    obtain ⟨hfree, rfl⟩ := Table.insert_eq_some_iff.mp hrows
    exact ⟨hbytes, hfree, rfl⟩
  · cases h

/-- The part of the database that a send attempt's bookkeeping does not touch. -/
structure SameButAttempts (c c' : Control) : Prop where
  drafts : c'.drafts = c.drafts
  approvalNonces : c'.approvalNonces = c.approvalNonces

lemma openAttempt_same {attemptId draftId : String} {nonce : Nonce} {now : ℤ} {c c' : Control}
    (h : openAttempt P attemptId draftId nonce now c = some c') : SameButAttempts c c' := by
  unfold openAttempt at h
  dsimp only at h
  split at h
  · cases h
    exact ⟨rfl, rfl⟩
  · cases h

lemma settle_same (attemptId : String) (now : ℤ) (reply : ProviderReply) (c : Control) :
    SameButAttempts c (settle attemptId now reply c) := by
  cases reply <;> exact ⟨rfl, rfl⟩

/-- The drafts whose messages were handed to the provider, in order. -/
def sentDraft : Event → Option String
  | .sendText permit .. => some permit.draft.id
  | _ => none

def transmissions (log : List Event) : List String := log.filterMap sentDraft

@[simp] lemma transmissions_append (log log' : List Event) :
    transmissions (log ++ log') = transmissions log ++ transmissions log' :=
  List.filterMap_append

/-- `permit` transmitted at `now`. -/
def sendOf (permit : Permit) (now : ℤ) (body : String) : Event :=
  .sendText permit now permit.draft.phoneNumberId permit.draft.recipientWaId body

/-- Events that report how a call ended. -/
def Quiet (log : List Event) : Prop :=
  ∀ e ∈ log, (∃ stop, e = .stopped stop) ∨ ∃ attemptId reply, e = .answered attemptId reply

lemma quiet_nil : Quiet [] := by simp [Quiet]

lemma quiet_stopped (stop : Stop) : Quiet [.stopped stop] := by simp [Quiet]

lemma quiet_answered (attemptId : String) (reply : ProviderReply) :
    Quiet [.answered attemptId reply] := by simp [Quiet]

lemma Quiet.transmissions {log : List Event} (h : Quiet log) : transmissions log = [] := by
  refine List.filterMap_eq_nil_iff.mpr fun e he => ?_
  rcases h e he with ⟨stop, rfl⟩ | ⟨attemptId, reply, rfl⟩ <;> rfl

/-- The permitted message was handed to the provider, once, or nothing was. -/
def AtMostOnce (permit : Permit) (now : ℤ) (log : List Event) : Prop :=
  Quiet log ∨ ∃ body rest, decodeUtf8 permit.body = some body ∧
    log = sendOf permit now body :: rest ∧ Quiet rest

/-- After its commit a call leaves the committed state with the attempt's outcome recorded, and
hands the provider at most the permitted message. -/
lemma transmit_cases (permit : Permit) (attemptId : String) (now : ℤ) (crash : Option Crash)
    (reply : ProviderReply) (clock : ClockGuard) (c : Control) :
    ∃ c', SameButAttempts c c' ∧
      (transmit permit attemptId now crash reply clock c).1.control = .clean c' ∧
      AtMostOnce permit now (transmit permit attemptId now crash reply clock c).2 := by
  unfold transmit
  split
  · exact ⟨c, ⟨rfl, rfl⟩, rfl, .inl quiet_nil⟩
  split
  · exact ⟨c, ⟨rfl, rfl⟩, rfl, .inl (quiet_stopped _)⟩
  rename_i body hbody
  dsimp only
  split
  · exact ⟨c, ⟨rfl, rfl⟩, rfl, .inr ⟨body, [], hbody, rfl, quiet_nil⟩⟩
  · exact ⟨_, settle_same attemptId now reply c, rfl,
      .inr ⟨body, [.answered attemptId reply], hbody, rfl, quiet_answered _ _⟩⟩

/-- The event of a consumed nonce, with the fields the verified bytes encode. -/
def consumption (permit : Permit) (nonce : Nonce) : Event :=
  .nonceConsumed (canonicalFields permit.draft "APPROVE" permit.deviceId) nonce

/-- What `execute_write` makes of the connection, and the events it emits. -/
inductive Wrote (P : Platform) (env : Envelope) (now : ℤ) (before : Conn Control) :
    Conn Control → List Event → Prop
  | stopped (stop : Stop) : Wrote P env now before before [.stopped stop]
  /-- The insert of the attempt failed, or the process died before the commit. -/
  | uncommitted {permit : Permit} {nonce : Nonce} {c : Control} {after : Conn Control}
      {rest : List Event} (auth : Authorised P before.working now env permit)
      (consumed : consumeNonce env permit.draft.id now before.working = .ok (nonce, c))
      (durable : after.durable = before.durable)
      (working : after.working = before.durable ∨ after.working = c) (silent : Quiet rest) :
      Wrote P env now before after (consumption permit nonce :: rest)
  | committed {permit : Permit} {nonce : Nonce} {c c' : Control} {rest : List Event}
      (auth : Authorised P before.working now env permit)
      (consumed : consumeNonce env permit.draft.id now before.working = .ok (nonce, c))
      (same : SameButAttempts c c') (sent : AtMostOnce permit now rest) :
      Wrote P env now before (.clean c') (consumption permit nonce :: rest)

theorem executeWrite_cases (P : Platform) (env : Envelope) (reading : ℤ) (attemptId : String)
    (crash : Option Crash) (reply : ProviderReply) (s : Process) :
    Wrote P env reading s.control (executeWrite P env reading attemptId crash reply s).1.control
      (executeWrite P env reading attemptId crash reply s).2 := by
  unfold executeWrite
  split
  · exact .stopped _
  rename_i now clock hclock
  obtain ⟨rfl, -⟩ := ClockGuard.trustedNow_eq_some hclock
  split
  · exact .stopped _
  rename_i permit hpermit
  have hauth := authorised hpermit
  split
  · exact .stopped _
  rename_i nonce c hconsumed
  dsimp only
  split
  · exact .uncommitted hauth hconsumed rfl (.inr rfl) (quiet_stopped _)
  rename_i c' hopen
  have hsame := openAttempt_same hopen
  split
  · exact .uncommitted hauth hconsumed rfl (.inl rfl) quiet_nil
  · obtain ⟨c'', hsettled, hcontrol, hsent⟩ :=
      transmit_cases permit attemptId now crash reply clock c'
    rw [hcontrol]
    exact .committed hauth hconsumed
      ⟨hsettled.drafts.trans hsame.drafts,
        hsettled.approvalNonces.trans hsame.approvalNonces⟩ hsent

/-- A message handed to the provider was authorised in the state its call read. -/
lemma Wrote.sendText {env : Envelope} {now : ℤ} {before after : Conn Control} {log : List Event}
    (h : Wrote P env now before after log) {permit : Permit} {time : ℤ} {phoneNumberId : String}
    {recipientWaId : Option String} {body : String}
    (hsend : .sendText permit time phoneNumberId recipientWaId body ∈ log) :
    time = now ∧ Authorised P before.working now env permit ∧
      phoneNumberId = permit.draft.phoneNumberId ∧ recipientWaId = permit.draft.recipientWaId ∧
      decodeUtf8 permit.body = some body := by
  have hquiet : ∀ {rest}, Quiet rest →
      .sendText permit time phoneNumberId recipientWaId body ∉ rest := fun hrest hmem => by
    simpa using hrest _ hmem
  cases h with
  | stopped stop => simp at hsend
  | uncommitted auth consumed durable working silent =>
    rcases List.mem_cons.mp hsend with hhead | htail
    · simp [consumption] at hhead
    · exact absurd htail (hquiet silent)
  | committed auth consumed same sent =>
    rcases List.mem_cons.mp hsend with hhead | htail
    · simp [consumption] at hhead
    rcases sent with hsilent | ⟨text, rest, htext, rfl, hrest⟩
    · exact absurd htail (hquiet hsilent)
    rcases List.mem_cons.mp htail with hhead | htail
    · cases hhead
      exact ⟨rfl, auth, rfl, rfl, htext⟩
    · exact absurd htail (hquiet hrest)

end Sending

/-! ## A device that signed once

The runs on fixed inputs below and in the modules that follow share one device, one prepared draft
and a platform that accepts a single signature: the one the device made over its approval of that
draft. -/

section Sample

def sampleNonce : Nonce := ⟨List.replicate 32 7, rfl⟩

def sampleSignature : Bytes := List.replicate 64 1

def sampleKey : Bytes := [4]

/-- The platform on which `sampleKey` made `sampleSignature` over `payload` and nothing else. -/
def signedOnce (payload : Bytes) : Platform where
  sha256 b := 0 :: b
  ecdsaVerify m signature key := m = payload ∧ signature = sampleSignature ∧ key = sampleKey

/-- A library on which no envelope can be read; the sample runs read none. -/
def sampleStdlib : Stdlib :=
  ⟨fun _ => none, fun _ => [], fun _ => none, fun _ => "", id, id⟩

def sampleRequest (phoneNumberId kind : String) : Drafts.PrepareRequest where
  conversationId := "cnv_1"
  accountId := "acc_1"
  phoneNumberId := phoneNumberId
  recipientWaId := some "61999"
  text := .text "hi"
  kind := kind
  nowMs := 1000
  windowOpen := true

/-- The draft the requests above prepare; its digest does not depend on the payload signed. -/
def sampleDraft (phoneNumberId kind : String) : Draft :=
  Drafts.preparedRow (signedOnce []) (sampleRequest phoneNumberId kind) "drf_1" sampleNonce
    (utf8 "hi") ((DraftKind.ofName kind).getD .text)

def sampleFields (phoneNumberId kind : String) : Canonical.Fields :=
  canonicalFields (sampleDraft phoneNumberId kind) "APPROVE" "dev_1"

/-- The bytes the device signs to approve the draft. -/
def samplePayload (phoneNumberId kind : String) : Bytes :=
  (Canonical.encode (sampleFields phoneNumberId kind)).getD []

/-- The device's envelope, presented with a nonce of the caller's choice. -/
def sampleSend (nonce : Bytes) (attemptId : String) : Op :=
  .executeWrite ⟨some "drf_1", some "APPROVE", some "dev_1", some sampleSignature, some nonce⟩
    2000 attemptId none (.submitted (some "wamid.1"))

/-- The device is enrolled, the draft prepared, and its approval sent. -/
def sampleRun (phoneNumberId kind : String) : List Op :=
  [.call (.enroll "dev_1" "phone" sampleKey none none),
    .call (.prepare (sampleRequest phoneNumberId kind) "drf_1" sampleNonce),
    sampleSend sampleNonce "atm_1"]

end Sample

end WhatsVault.Approval
