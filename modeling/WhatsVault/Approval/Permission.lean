import WhatsVault.Approval.Replay

/-!
# Permission to transmit

`execute_write` consumes a nonce and opens an attempt in one transaction and calls the provider
after its commit.  A call therefore leaves the committed tables as they were and calls nobody, or
commits one row in each before it calls the provider (`Atomic`).  Over runs this pairs every consumed
nonce with one attempt (`Paired`), and a recovered database has no attempt whose outcome is guessed.

The one way a call can stop between its two INSERTs is that the second fails.  Then the nonce stays
in the open transaction of the connection, and a later commit would make it durable alone.  That
takes an attempt identifier drawn before or two draft-and-nonce pairs with one SHA-256 digest.
-/

namespace WhatsVault.Approval

open Transaction Sender

/-! ## One call -/

/-- The row of `send_attempts` opened under a consumed nonce. -/
def openedAttempt (P : Platform) (attemptId : String) (row : ApprovalNonce) : SendAttempt :=
  ⟨attemptId, row.consumedBy, idempotencyKey P row.consumedBy row.nonce, .submitting, none, none,
    row.consumedAtMs, row.consumedAtMs⟩

/-- The state a call commits before it calls the provider. -/
def permitted (P : Platform) (attemptId : String) (row : ApprovalNonce) (c : Control) : Control :=
  { c with
    approvalNonces := c.approvalNonces ++ [row]
    sendAttempts := c.sendAttempts ++ [openedAttempt P attemptId row] }

/-- Neither INSERT of the call violates a constraint. -/
structure Free (P : Platform) (attemptId : String) (row : ApprovalNonce) (c : Control) : Prop where
  nonce : ∀ r ∈ c.approvalNonces, r.nonce ≠ row.nonce
  attempt : ∀ a ∈ c.sendAttempts,
    a.id ≠ attemptId ∧ a.idempotencyKey ≠ idempotencyKey P row.consumedBy row.nonce

lemma openAttempt_eq_some {P : Platform} {attemptId : String} (row : ApprovalNonce)
    {c c' : Control}
    (hnonce : ∀ r ∈ c.approvalNonces, r.nonce ≠ row.nonce)
    (h : openAttempt P attemptId row.consumedBy row.nonce row.consumedAtMs
      { c with approvalNonces := c.approvalNonces ++ [row] } = some c') :
    Free P attemptId row c ∧ c' = permitted P attemptId row c := by
  unfold openAttempt at h
  dsimp only at h
  split at h
  · rename_i hfree
    cases h
    exact ⟨⟨hnonce, hfree⟩, rfl⟩
  · cases h

lemma openAttempt_eq_none {P : Platform} {attemptId : String} {row : ApprovalNonce} {c : Control}
    (h : openAttempt P attemptId row.consumedBy row.nonce row.consumedAtMs
      { c with approvalNonces := c.approvalNonces ++ [row] } = none) :
    ¬ Free P attemptId row c := by
  intro hfree
  unfold openAttempt at h
  dsimp only at h
  split at h
  · cases h
  · rename_i htaken
    exact htaken hfree.attempt

/-- The call that reaches its commit, under every crash and every answer. -/
def permittedCall (P : Platform) (permit : Permit) (row : ApprovalNonce) (attemptId : String)
    (now : ℤ) (clock : ClockGuard) (s : Process) (crash : Option Crash) (reply : ProviderReply) :
    Process × List Event :=
  if crash = some .beforeCommit then (s.restart, [consumption permit row.nonce])
  else
    let r := transmit permit attemptId now crash reply clock
      (permitted P attemptId row s.control.working)
    (r.1, consumption permit row.nonce :: r.2)

/-- A call stops before its first write, stops between its two, or reaches its commit.  Which of
these depends on neither the provider nor the crash. -/
theorem executeWrite_split (P : Platform) (env : Envelope) (reading : ℤ) (attemptId : String)
    (s : Process) :
    (∃ clock stop, ∀ crash reply,
      executeWrite P env reading attemptId crash reply s =
        (⟨s.control, clock⟩, [.stopped stop])) ∨
    (∃ permit row clock, ¬ Free P attemptId row s.control.working ∧
      (∀ r ∈ s.control.working.approvalNonces, r.nonce ≠ row.nonce) ∧ ∀ crash reply,
        executeWrite P env reading attemptId crash reply s =
          (⟨⟨s.control.durable, { s.control.working with
            approvalNonces := s.control.working.approvalNonces ++ [row] }⟩, clock⟩,
            [consumption permit row.nonce, .stopped .raised])) ∨
    ∃ permit row clock, row.consumedBy = permit.draft.id ∧
      Free P attemptId row s.control.working ∧ ∀ crash reply,
        executeWrite P env reading attemptId crash reply s =
          permittedCall P permit row attemptId reading clock s crash reply := by
  rcases htrusted : s.clock.trustedNow reading with _ | ⟨now, clock⟩
  · exact .inl ⟨s.clock, .refused "CLOCK_UNTRUSTED", fun crash reply => by
      simp [executeWrite, htrusted]⟩
  obtain ⟨rfl, -⟩ := ClockGuard.trustedNow_eq_some htrusted
  rcases hpermit : authorise P s.control.working now env with stop | permit
  · exact .inl ⟨clock, stop, fun crash reply => by simp [executeWrite, htrusted, hpermit]⟩
  rcases hconsumed : consumeNonce env permit.draft.id now s.control.working with
    stop | ⟨nonce, c⟩
  · exact .inl ⟨clock, stop, fun crash reply => by
      simp [executeWrite, htrusted, hpermit, hconsumed]⟩
  obtain ⟨-, hnonce, rfl⟩ := consumeNonce_eq_ok hconsumed
  rcases hopen : openAttempt P attemptId permit.draft.id nonce now { s.control.working with
    approvalNonces := s.control.working.approvalNonces ++ [⟨nonce, permit.draft.id, now⟩] } with
    _ | c'
  · refine .inr (.inl ⟨permit, ⟨nonce, permit.draft.id, now⟩, clock, ?_, hnonce, ?_⟩)
    · exact openAttempt_eq_none hopen
    · intro crash reply
      simp [executeWrite, htrusted, hpermit, hconsumed, hopen, consumption]
  · obtain ⟨hfree, rfl⟩ :=
      openAttempt_eq_some ⟨nonce, permit.draft.id, now⟩ hnonce hopen
    refine .inr (.inr ⟨permit, ⟨nonce, permit.draft.id, now⟩, clock, rfl, hfree, ?_⟩)
    intro crash reply
    simp [executeWrite, permittedCall, htrusted, hpermit, hconsumed, hopen, consumption]

/-- What is left of a call after its commit: nothing more than the committed state and at most the
one message, or the answer recorded. -/
lemma transmit_split (permit : Permit) (attemptId : String) (now : ℤ) (crash : Option Crash)
    (reply : ProviderReply) (clock : ClockGuard) (c : Control) :
    ((transmit permit attemptId now crash reply clock c).1.control = .clean c ∧
      AtMostOnce permit now (transmit permit attemptId now crash reply clock c).2) ∨
    ((transmit permit attemptId now crash reply clock c).1.control =
        .clean (settle attemptId now reply c) ∧
      ∃ body, (transmit permit attemptId now crash reply clock c).2 =
        [sendOf permit now body, .answered attemptId reply]) := by
  unfold transmit
  split
  · exact .inl ⟨rfl, .inl quiet_nil⟩
  split
  · exact .inl ⟨rfl, .inl (quiet_stopped _)⟩
  rename_i body hbody
  dsimp only
  split
  · exact .inl ⟨rfl, .inr ⟨body, [], hbody, rfl, quiet_nil⟩⟩
  · exact .inr ⟨rfl, body, rfl⟩

/-- The call commits one consumed nonce and one SUBMITTING attempt under it, and only then, at most
once, calls the provider.  `call` is the call under every crash and every answer. -/
structure Transmits (P : Platform) (attemptId : String) (now : ℤ) (c : Control)
    (row : ApprovalNonce) (call : Option Crash → ProviderReply → Process × List Event) : Prop where
  free : Free P attemptId row c
  beforeCommit : ∀ reply, (call (some .beforeCommit) reply).1.control = .clean c ∧
    transmissions (call (some .beforeCommit) reply).2 = []
  afterCommit : ∀ reply,
    (call (some .afterCommit) reply).1.control = .clean (permitted P attemptId row c) ∧
    transmissions (call (some .afterCommit) reply).2 = []
  afterSend : ∀ reply,
    (call (some .afterSend) reply).1.control = .clean (permitted P attemptId row c) ∧
    (transmissions (call (some .afterSend) reply).2 = [] ∨
      transmissions (call (some .afterSend) reply).2 = [row.consumedBy])
  alive : ∀ reply,
    ((call none reply).1.control = .clean (permitted P attemptId row c) ∧
      transmissions (call none reply).2 = []) ∨
    ((call none reply).1.control =
        .clean (settle attemptId now reply (permitted P attemptId row c)) ∧
      transmissions (call none reply).2 = [row.consumedBy])

/-- The call leaves what is committed alone and calls nobody, or has permission to transmit. -/
def Atomic (P : Platform) (attemptId : String) (now : ℤ) (c : Control)
    (call : Option Crash → ProviderReply → Process × List Event) : Prop :=
  (∀ crash reply, (call crash reply).1.control.durable = c ∧
    transmissions (call crash reply).2 = []) ∨
  ∃ row, Transmits P attemptId now c row call

lemma permittedCall_transmits {P : Platform} {permit : Permit} {row : ApprovalNonce}
    {attemptId : String} {now : ℤ} {clock clock' : ClockGuard} {c : Control}
    (hrow : row.consumedBy = permit.draft.id) (hfree : Free P attemptId row c) :
    Transmits P attemptId now c row
      (permittedCall P permit row attemptId now clock' ⟨.clean c, clock⟩) := by
  refine ⟨hfree, fun reply => ⟨rfl, rfl⟩, fun reply => ⟨rfl, rfl⟩, fun reply => ?_,
    fun reply => ?_⟩
  · simp only [permittedCall, transmit, reduceCtorEq, Option.some.injEq, if_false, if_true,
      Conn.clean_working]
    rcases hbody : decodeUtf8 permit.body with _ | body
    · exact ⟨rfl, .inl rfl⟩
    · refine ⟨rfl, .inr ?_⟩
      rw [hrow]
      rfl
  · simp only [permittedCall, transmit, reduceCtorEq, if_false, Conn.clean_working]
    rcases hbody : decodeUtf8 permit.body with _ | body
    · exact .inl ⟨rfl, rfl⟩
    · refine .inr ⟨rfl, ?_⟩
      rw [hrow]
      rfl

lemma executeWrite_atomic (P : Platform) (c : Control) (clock : ClockGuard) (env : Envelope)
    (reading : ℤ) (attemptId : String) :
    Atomic P attemptId reading c fun crash reply =>
      executeWrite P env reading attemptId crash reply ⟨.clean c, clock⟩ := by
  rcases executeWrite_split P env reading attemptId ⟨.clean c, clock⟩ with
    ⟨clock', stop, hcall⟩ | ⟨permit, row, clock', -, -, hcall⟩ |
    ⟨permit, row, clock', hrow, hfree, hcall⟩
  · left
    intro crash reply
    simp only [hcall]
    exact ⟨rfl, rfl⟩
  · left
    intro crash reply
    simp only [hcall]
    exact ⟨rfl, rfl⟩
  · right
    refine ⟨row, ?_⟩
    simp only [hcall]
    exact permittedCall_transmits hrow hfree

/-! ## The invariant -/

/-- Answers that say what became of the message. -/
def definite : ProviderReply → Bool
  | .connectFailed => true
  | .submitted _ => true
  | .rejected _ => true
  | .timeoutAfterSend => false
  | .raises => false

/-- The provider's call for the attempt ended in a definite answer. -/
def Answered (log : List Event) (attemptId : String) : Prop :=
  ∃ reply, definite reply = true ∧ .answered attemptId reply ∈ log

/-- The key an attempt was opened under. -/
def attemptKey (a : SendAttempt) : String × String := (a.draftId, a.idempotencyKey)

/-- The key of the attempt a consumed nonce opens. -/
def nonceKey (P : Platform) (row : ApprovalNonce) : String × String :=
  (row.consumedBy, idempotencyKey P row.consumedBy row.nonce)

/-- What both states of the connection satisfy: nonces and attempts are consumed and opened together
and in one order, and an attempt is FAILED only after a definite answer. -/
structure Paired (P : Platform) (log : List Event) (c : Control) : Prop where
  keys : c.sendAttempts.map attemptKey = c.approvalNonces.map (nonceKey P)
  nonces : Table.Unique ApprovalNonce.nonce c.approvalNonces
  attempts : Table.Unique SendAttempt.idempotencyKey c.sendAttempts
  failed : ∀ a ∈ c.sendAttempts, a.state = .failed → Answered log a.id

lemma Answered.append {log : List Event} {attemptId : String} (h : Answered log attemptId)
    (rest : List Event) : Answered (log ++ rest) attemptId := by
  obtain ⟨reply, hdefinite, hmem⟩ := h
  exact ⟨reply, hdefinite, List.mem_append_left _ hmem⟩

lemma Paired.append {P : Platform} {log : List Event} {c : Control} (h : Paired P log c)
    (rest : List Event) : Paired P (log ++ rest) c :=
  ⟨h.keys, h.nonces, h.attempts, fun a ha hstate => (h.failed a ha hstate).append rest⟩

lemma Recovered.attemptKey {a a' : SendAttempt} (h : Recovered a a') :
    attemptKey a' = attemptKey a := by
  rcases h with rfl | ⟨-, nowMs, rfl⟩
  · rfl
  · rfl

lemma Recovered.failed {a a' : SendAttempt} (h : Recovered a a') (hstate : a'.state = .failed) :
    a' = a := by
  rcases h with rfl | ⟨-, nowMs, rfl⟩
  · rfl
  · cases hstate

/-- Rows that correspond agree on whatever the correspondence keeps. -/
lemma map_eq_of_forall₂ {α β : Type} {R : α → α → Prop} {f : α → β} {l l' : List α}
    (h : List.Forall₂ R l l') (hf : ∀ a a', R a a' → f a' = f a) : l'.map f = l.map f := by
  induction h with
  | nil => rfl
  | cons hhead _ ih => simp [hf _ _ hhead, ih]

lemma exists_of_forall₂ {α : Type} {R : α → α → Prop} {l l' : List α} (h : List.Forall₂ R l l')
    {a' : α} (ha' : a' ∈ l') : ∃ a ∈ l, R a a' := by
  induction h with
  | nil => cases ha'
  | cons hhead _ ih =>
    rcases List.mem_cons.mp ha' with rfl | htail
    · exact ⟨_, List.mem_cons_self, hhead⟩
    · obtain ⟨a, ha, hR⟩ := ih htail
      exact ⟨a, List.mem_cons_of_mem _ ha, hR⟩

lemma Paired.untouched {P : Platform} {log : List Event} {c c' : Control} (h : Paired P log c)
    (hc : Untouched P c c') : Paired P log c' where
  keys := by
    rw [map_eq_of_forall₂ hc.sendAttempts fun _ _ => Recovered.attemptKey, hc.approvalNonces,
      h.keys]
  nonces := by
    rw [hc.approvalNonces]
    exact h.nonces
  attempts := by
    have hkeys := map_eq_of_forall₂ (f := SendAttempt.idempotencyKey) hc.sendAttempts
      fun a a' hR => (congrArg Prod.snd hR.attemptKey :)
    unfold Table.Unique
    rw [hkeys]
    exact h.attempts
  failed a' ha' hstate := by
    obtain ⟨a, ha, hR⟩ := exists_of_forall₂ hc.sendAttempts ha'
    obtain rfl := hR.failed hstate
    exact h.failed a' ha hstate

/-- Consuming a nonce and opening its attempt keeps the two tables paired. -/
lemma Paired.permitted {P : Platform} {log : List Event} {c : Control} {row : ApprovalNonce}
    {attemptId : String} (h : Paired P log c) (hfree : Free P attemptId row c) :
    Paired P log (permitted P attemptId row c) where
  keys := by
    simp only [Approval.permitted, List.map_append, h.keys]
    rfl
  nonces := h.nonces.append hfree.nonce
  attempts := h.attempts.append fun a ha => (hfree.attempt a ha).2
  failed a ha hstate := by
    rcases List.mem_append.mp ha with hold | hnew
    · exact h.failed a hold hstate
    · rw [List.mem_singleton.mp hnew] at hstate
      cases hstate

/-- Recording a state on the rows of an attempt keeps the keys. -/
lemma Paired.finish {P : Platform} {log : List Event} {c : Control} {attemptId : String}
    {state : AttemptState} {now : ℤ} {wamid errorCode : Option (Option String)}
    (h : Paired P log c) (hstate : state = .failed → Answered log attemptId) :
    Paired P log (finish attemptId state now wamid errorCode c) := by
  have hkey : ∀ {β : Type} (f : SendAttempt → β),
      (∀ a : SendAttempt, ∀ s w e u,
        f { a with state := s, wamid := w, errorCode := e, updatedAtMs := u } = f a) →
      (Sender.finish attemptId state now wamid errorCode c).sendAttempts.map f =
        c.sendAttempts.map f := by
    intro β f hf
    simp only [Sender.finish, List.map_map]
    refine List.map_congr_left fun a _ => ?_
    by_cases hid : a.id = attemptId
    · rw [Function.comp_apply, if_pos hid, hf]
    · rw [Function.comp_apply, if_neg hid]
  refine ⟨?_, h.nonces, ?_, ?_⟩
  · rw [hkey attemptKey fun _ _ _ _ _ => rfl]
    exact h.keys
  · unfold Table.Unique
    rw [hkey SendAttempt.idempotencyKey fun _ _ _ _ _ => rfl]
    exact h.attempts
  · intro a' ha' hfailed
    obtain ⟨a, ha, rfl⟩ := List.mem_map.mp ha'
    by_cases hid : a.id = attemptId
    · simp only [hid, if_true] at hfailed ⊢
      exact hstate hfailed
    · simp only [hid, if_false] at hfailed ⊢
      exact h.failed a ha hfailed

/-- So does recording the provider's answer. -/
lemma Paired.settle {P : Platform} {log : List Event} {c : Control} {attemptId : String} {now : ℤ}
    {reply : ProviderReply} (h : Paired P log c)
    (hreply : definite reply = true → .answered attemptId reply ∈ log) :
    Paired P log (settle attemptId now reply c) := by
  cases reply with
  | timeoutAfterSend => exact h.finish (by simp)
  | connectFailed => exact h.finish fun _ => ⟨_, rfl, hreply rfl⟩
  | submitted wamid => exact h.finish (by simp)
  | rejected errorCode => exact h.finish fun _ => ⟨_, rfl, hreply rfl⟩
  | raises => exact h

/-! ## The runs -/

/-- The attempt identifier the call draws is new. -/
def FreshAttempt (s : Process) : Op → Prop
  | .executeWrite _ _ attemptId _ _ => ∀ a ∈ s.control.working.sendAttempts, a.id ≠ attemptId
  | _ => True

instance : ∀ s op, Decidable (FreshAttempt s op)
  | s, .executeWrite _ _ attemptId _ _ =>
    inferInstanceAs (Decidable (∀ a ∈ s.control.working.sendAttempts, a.id ≠ attemptId))
  | _, .call _ => inferInstanceAs (Decidable True)
  | _, .restart => inferInstanceAs (Decidable True)

/-- Two draft-and-nonce pairs under one idempotency key share their nonce. -/
lemma idempotencyKey_nonce {P : Platform} (hsha : Function.Injective P.sha256)
    {draftId draftId' : String} {nonce nonce' : Nonce}
    (h : idempotencyKey P draftId nonce = idempotencyKey P draftId' nonce') : nonce = nonce' := by
  have hbytes : utf8 draftId ++ nonce.val = utf8 draftId' ++ nonce'.val :=
    Platform.hexdigest_injective hsha h
  have hlength : nonce.val.length = nonce'.val.length := by rw [nonce.property, nonce'.property]
  exact Subtype.ext (List.append_inj_right' hbytes hlength)

/-- With a nonce that is not consumed and an identifier that is new, the attempt can be opened. -/
lemma Paired.free {P : Platform} (hsha : Function.Injective P.sha256) {log : List Event}
    {c : Control} {row : ApprovalNonce} {attemptId : String} (h : Paired P log c)
    (hnonce : ∀ r ∈ c.approvalNonces, r.nonce ≠ row.nonce)
    (hid : ∀ a ∈ c.sendAttempts, a.id ≠ attemptId) : Free P attemptId row c := by
  refine ⟨hnonce, fun a ha => ⟨hid a ha, fun hkey => ?_⟩⟩
  have hmem : attemptKey a ∈ c.approvalNonces.map (nonceKey P) := by
    rw [← h.keys]
    exact List.mem_map_of_mem ha
  obtain ⟨r, hr, hrkey⟩ := List.mem_map.mp hmem
  have hsame : idempotencyKey P r.consumedBy r.nonce =
      idempotencyKey P row.consumedBy row.nonce := (congrArg Prod.snd hrkey).trans hkey
  exact hnonce r hr (idempotencyKey_nonce hsha hsame)

lemma paired_step {P : Platform} (hsha : Function.Injective P.sha256) {S : Stdlib}
    {log : List Event} {s : Process} {op : Op} (h : s.control.Holds (Paired P log))
    (hop : FreshAttempt s op) :
    (step P S s op).1.control.Holds (Paired P (log ++ (step P S s op).2)) := by
  cases op with
  | call call =>
    simp only [step, List.append_nil]
    exact holds_call (fun _ _ hc hpaired => hpaired.untouched hc) h call
  | executeWrite env reading attemptId crash reply =>
    simp only [step]
    rcases executeWrite_split P env reading attemptId s with
      ⟨clock, stop, hcall⟩ | ⟨permit, row, clock, htaken, hnonce, hcall⟩ |
      ⟨permit, row, clock, hrow, hfree, hcall⟩
    · rw [hcall]
      exact h.mono fun c hc => hc.append _
    · exact absurd (h.2.free hsha hnonce hop) htaken
    · rw [hcall]
      unfold permittedCall
      split
      · exact h.rollback.mono fun c hc => hc.append _
      have hopened : Paired P log (permitted P attemptId row s.control.working) :=
        h.2.permitted hfree
      dsimp only
      rcases transmit_split permit attemptId reading crash reply clock
        (permitted P attemptId row s.control.working) with
        ⟨hcontrol, -⟩ | ⟨hcontrol, body, hlog⟩
      · rw [hcontrol]
        exact Conn.holds_clean (hopened.append _)
      · rw [hcontrol, hlog]
        exact Conn.holds_clean ((hopened.append _).settle fun _ => by simp)
  | restart =>
    simp only [step, List.append_nil]
    exact h.rollback

lemma paired_start (P : Platform) : start.control.Holds (Paired P []) :=
  Conn.holds_clean ⟨rfl, List.nodup_nil, List.nodup_nil, by simp [Control.empty]⟩

/-- The attempt was opened under the consumed nonce. -/
def OpenedUnder (P : Platform) (row : ApprovalNonce) (a : SendAttempt) : Prop :=
  a.draftId = row.consumedBy ∧ a.idempotencyKey = idempotencyKey P row.consumedBy row.nonce

/-- Consumed nonces and attempts correspond one to one, by draft and nonce. -/
def InBijection (P : Platform) (c : Control) : Prop :=
  c.approvalNonces.length = c.sendAttempts.length ∧
  (∀ row ∈ c.approvalNonces, ∃! a, a ∈ c.sendAttempts ∧ OpenedUnder P row a) ∧
  ∀ a ∈ c.sendAttempts, ∃! row, row ∈ c.approvalNonces ∧ OpenedUnder P row a

lemma openedUnder_iff {P : Platform} {row : ApprovalNonce} {a : SendAttempt} :
    OpenedUnder P row a ↔ attemptKey a = nonceKey P row := by
  simp [OpenedUnder, attemptKey, nonceKey]

lemma Paired.inBijection {P : Platform} (hsha : Function.Injective P.sha256) {log : List Event}
    {c : Control} (h : Paired P log c) : InBijection P c := by
  refine ⟨?_, fun row hrow => ?_, fun a ha => ?_⟩
  · simpa using (congrArg List.length h.keys).symm
  · have hmem : nonceKey P row ∈ c.sendAttempts.map attemptKey := by
      rw [h.keys]
      exact List.mem_map_of_mem hrow
    obtain ⟨a, ha, hkey⟩ := List.mem_map.mp hmem
    refine ⟨a, ⟨ha, openedUnder_iff.mpr hkey⟩, fun a' ha' => ?_⟩
    exact h.attempts.eq_of_key_eq ha'.1 ha (ha'.2.2.trans (openedUnder_iff.mpr hkey).2.symm)
  · have hmem : attemptKey a ∈ c.approvalNonces.map (nonceKey P) := by
      rw [← h.keys]
      exact List.mem_map_of_mem ha
    obtain ⟨row, hrow, hkey⟩ := List.mem_map.mp hmem
    refine ⟨row, ⟨hrow, openedUnder_iff.mpr hkey.symm⟩, fun row' hrow' => ?_⟩
    have hnonce := idempotencyKey_nonce hsha
      (hrow'.2.2.symm.trans (openedUnder_iff.mpr hkey.symm).2)
    exact h.nonces.eq_of_key_eq hrow'.1 hrow hnonce

/-- What a start-up leaves of the attempts after a crash. -/
def recoveredAfterCrash (P : Platform) (S : Stdlib) (nowMs : ℤ) (s : Process) : Control :=
  (Run.final (step P S) s [.restart, .call (.recoverStartup nowMs)]).control.durable

lemma recoveredAfterCrash_submitting {P : Platform} {S : Stdlib} {nowMs : ℤ} {s : Process}
    (hnow : fitsInt64 nowMs = true) {a : SendAttempt}
    (ha : a ∈ (recoveredAfterCrash P S nowMs s).sendAttempts) : a.state ≠ .submitting := by
  simp only [recoveredAfterCrash, Run.final_cons, Run.final_nil, step, Call.run, Conn.write,
    Sender.recoverStartup, hnow, if_true, Option.elim_some, Conn.clean_durable] at ha
  obtain ⟨b, -, rfl⟩ := List.mem_map.mp ha
  by_cases hstate : b.state = .submitting
  · simp [hstate]
  · simp [hstate]

/-- **Permission to transmit is atomic.**  A call commits nothing and calls nobody, or commits one
consumed nonce with one SUBMITTING attempt before its one call of the provider.  In every run whose
attempt identifiers are new, consumed nonces and attempts correspond one to one, and after a crash
and a start-up no attempt is SUBMITTING, and one that is FAILED had a definite answer. -/
theorem permission_atomic (P : Platform) (S : Stdlib) (hsha : Function.Injective P.sha256) :
    (∀ c clock env reading attemptId, Atomic P attemptId reading c fun crash reply =>
      executeWrite P env reading attemptId crash reply ⟨.clean c, clock⟩) ∧
    ∀ ops, Run.Meets (step P S) FreshAttempt start ops →
      InBijection P (Run.final (step P S) start ops).control.durable ∧
      ∀ nowMs, fitsInt64 nowMs = true →
        ∀ a ∈ (recoveredAfterCrash P S nowMs (Run.final (step P S) start ops)).sendAttempts,
          a.state ≠ .submitting ∧
          (a.state = .failed → Answered (Run.events (step P S) start ops) a.id) := by
  refine ⟨executeWrite_atomic P, fun ops hfresh => ?_⟩
  have hpaired : ∀ ops, Run.Meets (step P S) FreshAttempt start ops →
      (Run.final (step P S) start ops).control.Holds
        (Paired P (Run.events (step P S) start ops)) := by
    intro ops hfresh
    exact Run.log_invariant_of_meets (J := fun log s => s.control.Holds (Paired P log))
      (fun log s op h hop => paired_step hsha h hop) (paired_start P) hfresh
  refine ⟨(hpaired ops hfresh).1.inBijection hsha, fun nowMs hnow a ha => ?_⟩
  have hrestart : Run.Meets (step P S) FreshAttempt start
      (ops ++ [.restart, .call (.recoverStartup nowMs)]) := by
    rw [Run.meets_append]
    exact ⟨hfresh, trivial, trivial, trivial⟩
  have hafter := hpaired _ hrestart
  rw [Run.final_append, Run.events_append] at hafter
  refine ⟨recoveredAfterCrash_submitting hnow ha, fun hstate => ?_⟩
  simpa [step] using hafter.1.failed a ha hstate

/-- A run that dies while the provider has the message. -/
def crashedRun : List Op :=
  .call (.advanceWindow "cnv_1" 1500) :: (sampleRun "PN1" "text").take 2 ++
    [.executeWrite ⟨some "drf_1", some "APPROVE", some "dev_1", some sampleSignature,
      some sampleNonce.val⟩ 2000 "atm_1" (some .afterSend) .timeoutAfterSend]

/-- The theorem on that run: the attempt is there with its nonce, and becomes INDETERMINATE. -/
theorem permission_atomic_crashed_run :
    (recoveredAfterCrash replayPlatform sampleStdlib 2500
      (Run.final (step replayPlatform sampleStdlib) start crashedRun)).sendAttempts.map
        (fun a => (a.id, a.state)) = [("atm_1", .indeterminate)] ∧
    InBijection replayPlatform
      (Run.final (step replayPlatform sampleStdlib) start crashedRun).control.durable :=
  ⟨by decide +kernel, ((permission_atomic replayPlatform sampleStdlib
    (fun _ _ h => List.tail_eq_of_cons_eq h)).2 crashedRun (by decide)).1⟩

end WhatsVault.Approval
