import WhatsVault.Approval.Replay
import WhatsVault.Library.WriteLock

/-!
# Senders, recovery and reconciliation on one attempt

`on_status_event` resolves an attempt that a status report names, and records a candidate for a
human where it names none.  Here its statements, those of `execute_write` and the UPDATE of
`recover_startup` interleave: the sender's process has connection `0` and any number of calls in
flight, a daemon that starts up has connection `1`, and every delivery a connection of its own.

Recovery and reconciliation update a row only in the state they expect.  `_finish` updates it in
whatever state it is, so an attempt that was resolved while its call was still waiting for the
provider is set back (`stays_submitted_iff`).
-/

namespace WhatsVault.Reconcile

open Sender WriteLock

/-- What `on_status_event` reads of a status event. -/
structure StatusEvent where
  wamid : Option String
  bizOpaqueCallbackData : Option String
  recipientId : Option String
  providerTsMs : Option ℤ
  status : Option String
  deriving DecidableEq

/-- A row of `reconciliation_candidates`, inserted as a POSSIBLE_MATCH. -/
structure ReconciliationCandidate where
  id : String
  wamid : Option String
  recipientId : Option String
  providerTsMs : Option ℤ
  status : Option String
  createdAtMs : ℤ
  deriving DecidableEq

/-- The control database with the table of candidates. -/
structure Store where
  control : Control
  candidates : List ReconciliationCandidate
  deriving DecidableEq

/-! ## The statements of `on_status_event` -/

/-- The attempt the callback data names: `callback and callback.startswith("wv1:")`. -/
def StatusEvent.attemptId (event : StatusEvent) : Option String :=
  event.bizOpaqueCallbackData.bind fun callback =>
    if "wv1:".toList <+: callback.toList then some (String.ofList (callback.toList.drop 4)) else none

/-- `UPDATE … SET state='SUBMITTED' … WHERE id=? AND state='INDETERMINATE'`. -/
def resolve (attemptId : String) (wamid : Option String) (nowMs : ℤ) (c : Control) : Control :=
  { c with sendAttempts := c.sendAttempts.map fun a =>
      if a.id = attemptId ∧ a.state = .indeterminate then
        { a with state := .submitted, wamid := wamid, updatedAtMs := nowMs }
      else a }

/-- The row count of that UPDATE. -/
def resolved (attemptId : String) (c : Control) : ℕ :=
  (c.sendAttempts.filter fun a => a.id = attemptId ∧ a.state = .indeterminate).length

/-- `SELECT id FROM send_attempts WHERE wamid=?`, for a wamid that is not empty. -/
def attemptOf (wamid : Option String) (c : Control) : Option String :=
  match wamid with
  | some w => if w = "" then none else (c.sendAttempts.find? fun a => a.wamid = some w).map (·.id)
  | none => none

/-- `UPDATE send_attempts SET updated_at_ms=? WHERE id=?`. -/
def touch (attemptId : String) (nowMs : ℤ) (c : Control) : Control :=
  { c with sendAttempts := c.sendAttempts.map fun a =>
      if a.id = attemptId then { a with updatedAtMs := nowMs } else a }

/-- The INSERT of a candidate. -/
def recordCandidate (event : StatusEvent) (nowMs : ℤ) (candidateId : String) (s : Store) :
    Option Store :=
  if event.providerTsMs.all fitsInt64 then
    let row := ⟨candidateId, event.wamid, event.recipientId, event.providerTsMs, event.status, nowMs⟩
    (Table.insert ReconciliationCandidate.id row s.candidates).map fun rows =>
      { s with candidates := rows }
  else none

/-! ## Interleavings -/

/-- A call of `execute_write` between its statements. -/
inductive Flight
  | idle
  /-- The attempt is committed as SUBMITTING and the provider not yet called. -/
  | committed (permit : Permit) (attemptId : String) (now : ℤ)
  /-- The provider's call is over and `_finish` has not run. -/
  | answered (attemptId : String) (now : ℤ) (reply : ProviderReply)
  deriving DecidableEq

/-- A call of `on_status_event` between its statements. -/
inductive Delivery
  | idle
  | unresolved (event : StatusEvent) (nowMs : ℤ) (candidateId : String)
  | matched (attemptId : String) (nowMs : ℤ)
  | unmatched (event : StatusEvent) (nowMs : ℤ) (candidateId : String)
  deriving DecidableEq

structure Sys where
  db : Db Store
  clock : ClockGuard
  flights : ℕ → Flight
  deliveries : ℕ → Delivery

/-- Nothing is in flight. -/
def Sys.start (s : Store) : Sys := ⟨.idle s, ⟨none⟩, fun _ => .idle, fun _ => .idle⟩

def Sys.setFlight (s : Sys) (i : ℕ) (f : Flight) : Sys :=
  { s with flights := fun k => if k = i then f else s.flights k }

def Sys.setDelivery (s : Sys) (j : ℕ) (d : Delivery) : Sys :=
  { s with deliveries := fun k => if k = j then d else s.deliveries k }

@[simp] lemma setFlight_self {s : Sys} {i : ℕ} {f : Flight} : (s.setFlight i f).flights i = f := by
  simp [Sys.setFlight]

/-- A statement on the store and its commit, on a connection. -/
def Sys.write (s : Sys) (connection : ℕ) (f : Store → Option Store) : Sys :=
  { s with db := s.db.write connection f }

/-- One on the tables of `Control`. -/
def Sys.writeControl (s : Sys) (connection : ℕ) (f : Control → Option Control) : Sys :=
  s.write connection fun t => (f t.control).map fun c => { t with control := c }

/-- A step of one of the parties, with what it receives from outside. -/
inductive Label
  /-- `execute_write` up to its commit. -/
  | submit (i : ℕ) (env : Envelope) (reading : ℤ) (attemptId : String)
  | sendText (i : ℕ) (reply : ProviderReply)
  | finish (i : ℕ)
  /-- The sender's process dies. -/
  | die
  | recoverStartup (nowMs : ℤ)
  /-- `on_status_event` up to the commit of its first UPDATE. -/
  | callback (j : ℕ) (event : StatusEvent) (nowMs : ℤ) (candidateId : String)
  | lookUp (j : ℕ)
  | record (j : ℕ)

/-- The connection of the sender's process. -/
def sender : ℕ := 0

/-- The connection of a daemon that starts up. -/
def starter : ℕ := 1

/-- The connection of a delivery. -/
def deliverer (j : ℕ) : ℕ := j + 2

/-- `execute_write` up to its commit.  Where the INSERT of the attempt raises, the nonce stays in
the open transaction of the connection. -/
def submit (P : Platform) (i : ℕ) (env : Envelope) (reading : ℤ) (attemptId : String) (s : Sys) :
    Sys :=
  match s.clock.trustedNow reading, s.db.base sender with
  | some (now, clock), some t =>
    match authorise P t.control now env with
    | .error _ => { s with clock := clock }
    | .ok permit =>
      match consumeNonce env permit.draft.id now t.control with
      | .error _ => { s with clock := clock }
      | .ok (nonce, c) =>
        match openAttempt P attemptId permit.draft.id nonce now c with
        | none => { s with clock := clock, db := s.db.hold sender { t with control := c } }
        | some c =>
          { s with clock := clock, db := .idle { t with control := c } }.setFlight i
            (.committed permit attemptId now)
  | _, _ => s

/-- The provider's call.  The call ends here where the body is not UTF-8 or the provider raises
something of another kind. -/
def sendText (i : ℕ) (permit : Permit) (attemptId : String) (now : ℤ) (reply : ProviderReply)
    (s : Sys) : Sys :=
  if decodeUtf8 permit.body = none ∨ reply = .raises then s.setFlight i .idle
  else s.setFlight i (.answered attemptId now reply)

/-- `on_status_event` up to the commit of its first UPDATE. -/
def callback (j : ℕ) (event : StatusEvent) (nowMs : ℤ) (candidateId : String) (s : Sys) : Sys :=
  if fitsInt64 nowMs then
    match event.attemptId with
    | none => s.setDelivery j (.unresolved event nowMs candidateId)
    | some attemptId =>
      match s.db.base (deliverer j) with
      | none => s
      | some t =>
        let after := resolve attemptId event.wamid nowMs t.control
        { s with db := .idle { t with control := after } }.setDelivery j
          (if resolved attemptId t.control = 1 then .idle
            else .unresolved event nowMs candidateId)
  else s

def step (P : Platform) (s : Sys) : Label → Sys × List Unit
  | .submit i env reading attemptId =>
    match s.flights i with
    | .idle => (submit P i env reading attemptId s, [])
    | _ => (s, [])
  | .sendText i reply =>
    match s.flights i with
    | .committed permit attemptId now => (sendText i permit attemptId now reply s, [])
    | _ => (s, [])
  | .finish i =>
    match s.flights i with
    | .answered attemptId now reply =>
      ((s.writeControl sender fun c => some (settle attemptId now reply c)).setFlight i .idle, [])
    | _ => (s, [])
  | .die => ({ s with db := s.db.rollback sender, clock := ⟨none⟩, flights := fun _ => .idle }, [])
  | .recoverStartup nowMs => (s.writeControl starter (Sender.recoverStartup nowMs), [])
  | .callback j event nowMs candidateId =>
    match s.deliveries j with
    | .idle => (callback j event nowMs candidateId s, [])
    | _ => (s, [])
  | .lookUp j =>
    match s.deliveries j with
    | .unresolved event nowMs candidateId =>
      (s.setDelivery j (match attemptOf event.wamid s.db.committed.control with
        | some attemptId => .matched attemptId nowMs
        | none => .unmatched event nowMs candidateId), [])
    | _ => (s, [])
  | .record j =>
    match s.deliveries j with
    | .matched attemptId nowMs =>
      ((s.writeControl (deliverer j) fun c => some (touch attemptId nowMs c)).setDelivery j .idle,
        [])
    | .unmatched event nowMs candidateId =>
      ((s.write (deliverer j) (recordCandidate event nowMs candidateId)).setDelivery j .idle, [])
    | _ => (s, [])

/-! ## The steps of one call

A call whose three steps nothing interrupts is a call of `executeWrite`. -/

section Uninterrupted

/-- The sender's process: its connection and its clock. -/
def Sys.process (s : Sys) : Process where
  control := ⟨s.db.committed.control,
    ((s.db.base sender).map Store.control).getD s.db.committed.control⟩
  clock := s.clock

variable (P : Platform) {s : Sys} {i : ℕ}

lemma process_of_base {t : Store} (hbase : s.db.base sender = some t) :
    s.process = ⟨⟨s.db.committed.control, t.control⟩, s.clock⟩ := by
  simp [Sys.process, hbase]

lemma process_of_idle {t : Store} (hdb : s.db = .idle t) :
    s.process = ⟨.clean t.control, s.clock⟩ := by
  have hbase : s.db.base sender = some t := by
    rw [hdb]
    exact Db.base_idle
  rw [process_of_base hbase, hdb]
  rfl

lemma step_finish_idle (h : s.flights i = .idle) : (step P s (.finish i)).1 = s := by
  simp [step, h]

/-- Where the first step commits nothing, the two that follow do nothing. -/
lemma final_of_stopped {s' : Sys} {label : Label} (reply : ProviderReply)
    (hs' : (step P s label).1 = s') (hidle : s'.flights i = .idle) :
    Run.final (step P) s [label, .sendText i reply, .finish i] = s' := by
  have hsend : (step P s' (.sendText i reply)).1 = s' := by simp [step, hidle]
  rw [Run.final_cons, hs', Run.final_cons, hsend, Run.final_cons, step_finish_idle P hidle,
    Run.final_nil]

/-- After the commit the provider's call and `_finish` are what is left of `transmit`. -/
lemma final_of_committed {s' : Sys} {label : Label} {permit : Permit} {attemptId : String} {now : ℤ}
    {t : Store} (reply : ProviderReply) (hs' : (step P s label).1 = s') (hdb : s'.db = .idle t)
    (hflight : s'.flights i = .committed permit attemptId now) :
    (Run.final (step P) s [label, .sendText i reply, .finish i]).process =
      (transmit permit attemptId now none reply s'.clock t.control).1 := by
  have hsend : (step P s' (.sendText i reply)).1 = sendText i permit attemptId now reply s' := by
    simp [step, hflight]
  rw [Run.final_cons, hs', Run.final_cons, hsend, Run.final_cons, Run.final_nil]
  by_cases hover : decodeUtf8 permit.body = none ∨ reply = .raises
  · have hstop : sendText i permit attemptId now reply s' = s'.setFlight i .idle := by
      simp [sendText, hover]
    have hidle : (s'.setFlight i .idle).process = ⟨.clean t.control, s'.clock⟩ :=
      process_of_idle hdb
    rw [hstop, step_finish_idle P setFlight_self, hidle]
    rcases hbody : decodeUtf8 permit.body with _ | body
    · simp [transmit, hbody]
    · have hraises : reply = .raises := by simpa [hbody] using hover
      simp [transmit, hbody, hraises, settle]
  · have hanswered : sendText i permit attemptId now reply s' =
        s'.setFlight i (.answered attemptId now reply) := by simp [sendText, hover]
    obtain ⟨body, hbody⟩ : ∃ body, decodeUtf8 permit.body = some body :=
      Option.ne_none_iff_exists'.mp fun h => hover (.inl h)
    let final := (step P (s'.setFlight i (.answered attemptId now reply)) (.finish i)).1
    have hwritten : final.db = .idle { t with control := settle attemptId now reply t.control } := by
      simp [final, step, Sys.setFlight, Sys.writeControl, Sys.write, Db.write, hdb]
    have hclock : final.clock = s'.clock := by
      simp [final, step, Sys.setFlight, Sys.writeControl, Sys.write]
    rw [hanswered, process_of_idle hwritten, hclock]
    simp [transmit, hbody]

/-- The three steps of a call, with nothing between them, are `execute_write`. -/
theorem final_executeWrite (env : Envelope) (reading : ℤ) (attemptId : String)
    (reply : ProviderReply) {t : Store} (hbase : s.db.base sender = some t)
    (hidle : s.flights i = .idle) :
    (Run.final (step P) s
      [.submit i env reading attemptId, .sendText i reply, .finish i]).process =
      (executeWrite P env reading attemptId none reply s.process).1 := by
  have hstep : (step P s (.submit i env reading attemptId)).1 =
      submit P i env reading attemptId s := by simp [step, hidle]
  have hprocess := process_of_base hbase
  have hstopped : ∀ clock, submit P i env reading attemptId s = { s with clock := clock } →
      (Run.final (step P) s
        [.submit i env reading attemptId, .sendText i reply, .finish i]).process =
        ⟨s.process.control, clock⟩ := by
    intro clock hsubmit
    rw [final_of_stopped P reply (hstep.trans hsubmit) hidle]
    rfl
  rw [hprocess] at hstopped ⊢
  rcases htrusted : s.clock.trustedNow reading with _ | ⟨now, clock⟩
  · rw [hstopped s.clock (by simp [submit, htrusted])]
    simp [executeWrite, htrusted]
  rcases hpermit : authorise P t.control now env with stop | permit
  · rw [hstopped clock (by simp [submit, htrusted, hbase, hpermit])]
    simp [executeWrite, htrusted, hpermit]
  rcases hconsumed : consumeNonce env permit.draft.id now t.control with stop | ⟨nonce, c⟩
  · rw [hstopped clock (by simp [submit, htrusted, hbase, hpermit, hconsumed])]
    simp [executeWrite, htrusted, hpermit, hconsumed]
  rcases hopen : openAttempt P attemptId permit.draft.id nonce now c with _ | c'
  · have hsubmit : submit P i env reading attemptId s =
        { s with clock := clock, db := s.db.hold sender { t with control := c } } := by
      simp [submit, htrusted, hbase, hpermit, hconsumed, hopen]
    rw [final_of_stopped P reply (hstep.trans hsubmit) hidle, process_of_base Db.base_hold]
    simp [executeWrite, htrusted, hpermit, hconsumed, hopen]
  · have hsubmit : submit P i env reading attemptId s =
        { s with clock := clock, db := .idle { t with control := c' } }.setFlight i
          (.committed permit attemptId now) := by
      simp [submit, htrusted, hbase, hpermit, hconsumed, hopen]
    rw [final_of_committed P reply (hstep.trans hsubmit) rfl setFlight_self]
    simp [executeWrite, htrusted, hpermit, hconsumed, hopen, Sys.setFlight]

end Uninterrupted

/-! ## What a step can do to the attempts -/

/-- The committed attempts. -/
def Sys.attempts (s : Sys) : List SendAttempt := s.db.committed.control.sendAttempts

/-- Every row that is SUBMITTED is so afterwards, under the same identifier and wamid. -/
def Keeps (before after : List SendAttempt) : Prop :=
  ∀ a ∈ before, a.state = .submitted →
    ∃ a' ∈ after, a'.id = a.id ∧ a'.state = .submitted ∧ a'.wamid = a.wamid

lemma keeps_refl (rows : List SendAttempt) : Keeps rows rows :=
  fun a ha hstate => ⟨a, ha, rfl, hstate, rfl⟩

lemma keeps_append (rows new : List SendAttempt) : Keeps rows (rows ++ new) :=
  fun a ha hstate => ⟨a, List.mem_append_left _ ha, rfl, hstate, rfl⟩

/-- An UPDATE that leaves the state and the wamid of SUBMITTED rows alone keeps them. -/
lemma keeps_map {rows : List SendAttempt} {f : SendAttempt → SendAttempt}
    (hf : ∀ a, a.state = .submitted →
      (f a).id = a.id ∧ (f a).state = .submitted ∧ (f a).wamid = a.wamid) :
    Keeps rows (rows.map f) :=
  fun a ha hstate => ⟨f a, List.mem_map_of_mem ha, hf a hstate⟩

lemma recoverStartup_keeps {nowMs : ℤ} {c c' : Control}
    (h : Sender.recoverStartup nowMs c = some c') : Keeps c.sendAttempts c'.sendAttempts := by
  unfold Sender.recoverStartup at h
  split at h
  · cases h
    apply keeps_map
    intro a hstate
    simp [hstate]
  · cases h

lemma resolve_keeps (attemptId : String) (wamid : Option String) (nowMs : ℤ) (c : Control) :
    Keeps c.sendAttempts (resolve attemptId wamid nowMs c).sendAttempts := by
  apply keeps_map
  intro a hstate
  simp [hstate]

lemma touch_keeps (attemptId : String) (nowMs : ℤ) (c : Control) :
    Keeps c.sendAttempts (touch attemptId nowMs c).sendAttempts := by
  apply keeps_map
  intro a hstate
  by_cases hid : a.id = attemptId
  · simp [hid, hstate]
  · simp [hid, hstate]

lemma recordCandidate_control {event : StatusEvent} {nowMs : ℤ} {candidateId : String}
    {t t' : Store} (h : recordCandidate event nowMs candidateId t = some t') :
    t'.control = t.control := by
  unfold recordCandidate at h
  split at h
  · obtain ⟨rows, -, rfl⟩ := Option.map_eq_some_iff.mp h
    rfl
  · cases h

lemma consumeNonce_sendAttempts {env : Envelope} {draftId : String} {now : ℤ} {c c' : Control}
    {nonce : Nonce} (h : consumeNonce env draftId now c = .ok (nonce, c')) :
    c'.sendAttempts = c.sendAttempts := by
  obtain ⟨-, -, rfl⟩ := Approval.consumeNonce_eq_ok h
  rfl

lemma openAttempt_keeps {P : Platform} {attemptId draftId : String} {nonce : Nonce} {now : ℤ}
    {c c' : Control} (h : openAttempt P attemptId draftId nonce now c = some c') :
    Keeps c.sendAttempts c'.sendAttempts := by
  unfold openAttempt at h
  dsimp only at h
  split at h
  · cases h
    exact keeps_append _ _
  · cases h

/-- Only the sender's process holds the write lock between two steps, and what it holds has the
committed attempts. -/
def OnlySender (s : Sys) : Prop :=
  ∀ j t, s.db.writer = some (j, t) → j = sender ∧ t.control.sendAttempts = s.attempts

lemma onlySender_idle {s : Sys} {t : Store} (h : s.db = .idle t) : OnlySender s := by
  intro j u hwriter
  rw [h] at hwriter
  cases hwriter

/-- Whatever connection writes next, it starts from the committed attempts. -/
lemma OnlySender.base {s : Sys} (h : OnlySender s) {j : ℕ} {t : Store}
    (hbase : s.db.base j = some t) : t.control.sendAttempts = s.attempts := by
  rcases Db.base_eq_some.mp hbase with ⟨-, rfl⟩ | hwriter
  · rfl
  · exact (h j t hwriter).2

/-- The sender's process can always write. -/
lemma OnlySender.sender_base {s : Sys} (h : OnlySender s) :
    ∃ t, s.db.base sender = some t ∧ t.control.sendAttempts = s.attempts := by
  rcases hwriter : s.db.writer with _ | ⟨j, t⟩
  · exact ⟨s.db.committed, Db.base_eq_some.mpr (.inl ⟨hwriter, rfl⟩), rfl⟩
  · obtain ⟨rfl, ht⟩ := h j t hwriter
    exact ⟨t, Db.base_eq_some.mpr (.inr hwriter), ht⟩

/-- The two states agree on the lock and on the committed attempts, up to `Keeps`. -/
structure Carries (s s' : Sys) : Prop where
  onlySender : OnlySender s'
  keeps : Keeps s.attempts s'.attempts

lemma carries_of_db_eq {s s' : Sys} (hs : OnlySender s) (hdb : s'.db = s.db) : Carries s s' := by
  have hattempts : s'.attempts = s.attempts := by rw [Sys.attempts, hdb, Sys.attempts]
  refine ⟨?_, ?_⟩
  · intro j t hwriter
    rw [hattempts]
    exact hs j t (hdb ▸ hwriter)
  · rw [hattempts]
    exact keeps_refl _

lemma carries_idle {s s' : Sys} {t : Store} (hdb : s'.db = .idle t)
    (hkeeps : Keeps s.attempts t.control.sendAttempts) : Carries s s' := by
  have hattempts : s'.attempts = t.control.sendAttempts := by rw [Sys.attempts, hdb, Db.idle]
  refine ⟨onlySender_idle hdb, ?_⟩
  rw [hattempts]
  exact hkeeps

lemma carries_write {s s' : Sys} (hs : OnlySender s) {j : ℕ} {f : Store → Option Store}
    (hdb : s'.db = s.db.write j f)
    (hf : ∀ t t', f t = some t' → Keeps t.control.sendAttempts t'.control.sendAttempts) :
    Carries s s' := by
  rcases Db.write_cases j f s.db with hsame | ⟨t, t', hbase, ht', hwritten⟩
  · exact carries_of_db_eq hs (hdb.trans hsame)
  · apply carries_idle (hdb.trans hwritten)
    rw [← hs.base hbase]
    exact hf t t' ht'

lemma carries_writeControl {s s' : Sys} (hs : OnlySender s) {j : ℕ} {f : Control → Option Control}
    (hdb : s'.db = (s.writeControl j f).db)
    (hf : ∀ c c', f c = some c' → Keeps c.sendAttempts c'.sendAttempts) : Carries s s' := by
  apply carries_write hs hdb
  intro t t' ht'
  obtain ⟨c, hc, rfl⟩ := Option.map_eq_some_iff.mp ht'
  exact hf t.control c hc

lemma submit_carries (P : Platform) (i : ℕ) (env : Envelope) (reading : ℤ) (attemptId : String)
    {s : Sys} (hs : OnlySender s) : Carries s (submit P i env reading attemptId s) := by
  unfold submit
  split
  · rename_i now clock t _ hbase
    have hsame := hs.base hbase
    split
    · exact carries_of_db_eq hs rfl
    split
    · exact carries_of_db_eq hs rfl
    rename_i nonce c hconsumed
    have hc := consumeNonce_sendAttempts hconsumed
    split
    · refine ⟨?_, keeps_refl _⟩
      intro j u hwriter
      cases hwriter
      exact ⟨rfl, hc.trans hsame⟩
    · rename_i c' hopen
      apply carries_idle rfl
      rw [← hsame, ← hc]
      exact openAttempt_keeps hopen
  · exact carries_of_db_eq hs rfl

lemma callback_carries (j : ℕ) (event : StatusEvent) (nowMs : ℤ) (candidateId : String) {s : Sys}
    (hs : OnlySender s) : Carries s (callback j event nowMs candidateId s) := by
  unfold callback
  split
  · split
    · exact carries_of_db_eq hs rfl
    split
    · exact carries_of_db_eq hs rfl
    · rename_i t hbase
      apply carries_idle rfl
      rw [← hs.base hbase]
      exact resolve_keeps _ _ _ _
  · exact carries_of_db_eq hs rfl

/-- Every step but `_finish` keeps the SUBMITTED rows. -/
lemma step_carries (P : Platform) {s : Sys} (hs : OnlySender s) {label : Label}
    (hlabel : ∀ i, label ≠ .finish i) : Carries s (step P s label).1 := by
  cases label with
  | submit i env reading attemptId =>
    simp only [step]
    split
    · exact submit_carries P i env reading attemptId hs
    · exact carries_of_db_eq hs rfl
  | sendText i reply =>
    simp only [step]
    split
    · refine carries_of_db_eq hs ?_
      unfold sendText
      split
      · rfl
      · rfl
    · exact carries_of_db_eq hs rfl
  | finish i => exact absurd rfl (hlabel i)
  | die =>
    refine ⟨?_, ?_⟩
    · intro j t hwriter
      obtain ⟨hheld, hj⟩ := Db.rollback_writer hwriter
      exact absurd (hs j t hheld).1 hj
    · simp only [step, Sys.attempts, Db.rollback_committed]
      exact keeps_refl _
  | recoverStartup nowMs =>
    exact carries_writeControl hs rfl fun c c' => recoverStartup_keeps
  | callback j event nowMs candidateId =>
    simp only [step]
    split
    · exact callback_carries j event nowMs candidateId hs
    · exact carries_of_db_eq hs rfl
  | lookUp j =>
    simp only [step]
    split
    · exact carries_of_db_eq hs rfl
    · exact carries_of_db_eq hs rfl
  | record j =>
    simp only [step]
    split
    · rename_i attemptId nowMs _
      refine carries_writeControl (f := fun c => some (touch attemptId nowMs c)) hs rfl
        fun c c' hc' => ?_
      cases hc'
      exact touch_keeps attemptId nowMs c
    · refine carries_write hs rfl fun t t' ht' => ?_
      rw [recordCandidate_control ht']
      exact keeps_refl _
    · exact carries_of_db_eq hs rfl

/-- `_finish` of an answered call, whatever state its attempt is in. -/
lemma step_finish (P : Platform) {s : Sys} (hs : OnlySender s) {i : ℕ} {attemptId : String}
    {now : ℤ} {reply : ProviderReply} (hflight : s.flights i = .answered attemptId now reply) :
    OnlySender (step P s (.finish i)).1 ∧ ∃ c : Control, c.sendAttempts = s.attempts ∧
      (step P s (.finish i)).1.attempts = (settle attemptId now reply c).sendAttempts := by
  obtain ⟨t, hbase, ht⟩ := hs.sender_base
  have hdb : (step P s (.finish i)).1.db =
      .idle { t with control := settle attemptId now reply t.control } := by
    simp [step, hflight, Sys.setFlight, Sys.writeControl, Sys.write, Db.write, hbase]
  refine ⟨onlySender_idle hdb, t.control, ht, ?_⟩
  rw [Sys.attempts, hdb, Db.idle]

lemma step_finish_of_not_answered (P : Platform) {s : Sys} {i : ℕ}
    (hflight : ∀ attemptId now reply, s.flights i ≠ .answered attemptId now reply) :
    (step P s (.finish i)).1 = s := by
  rcases hphase : s.flights i with _ | _ | ⟨attemptId, now, reply⟩
  · simp [step, hphase]
  · simp [step, hphase]
  · exact absurd hphase (hflight attemptId now reply)

lemma step_onlySender (P : Platform) (s : Sys) (label : Label) (hs : OnlySender s) :
    OnlySender (step P s label).1 := by
  by_cases hfinish : ∃ i, label = .finish i
  · obtain ⟨i, rfl⟩ := hfinish
    by_cases hanswered : ∃ attemptId now reply, s.flights i = .answered attemptId now reply
    · obtain ⟨attemptId, now, reply, hflight⟩ := hanswered
      exact (step_finish P hs hflight).1
    · rw [step_finish_of_not_answered P fun a n r h => hanswered ⟨a, n, r, h⟩]
      exact hs
  · exact (step_carries P hs fun i h => hfinish ⟨i, h⟩).onlySender

/-! ## The runs -/

/-- The attempt is SUBMITTED with this wamid. -/
def SubmittedAs (key : String × String) (s : Sys) : Prop :=
  ∃ a ∈ s.attempts, a.id = key.1 ∧ a.state = .submitted ∧ a.wamid = some key.2

/-- The attempt that `_finish` is about to update is not yet SUBMITTED with a wamid, unless the
provider answered with that very wamid. -/
def FinishesUnresolved (s : Sys) : Label → Prop
  | .finish i =>
    match s.flights i with
    | .answered attemptId _ reply =>
      ∀ a ∈ s.attempts, a.id = attemptId → a.state = .submitted → ∀ wamid, a.wamid = some wamid →
        reply = .submitted (some wamid)
    | _ => True
  | _ => True

/-- The rows of the attempt after `_finish`. -/
lemma finish_row {attemptId : String} {state : AttemptState} {now : ℤ}
    {wamid errorCode : Option (Option String)} {c : Control} {a : SendAttempt}
    (ha : a ∈ (finish attemptId state now wamid errorCode c).sendAttempts)
    (hid : a.id = attemptId) : a.state = state ∧ ∀ w, wamid = some w → a.wamid = w := by
  obtain ⟨b, -, rfl⟩ := List.mem_map.mp ha
  by_cases hb : b.id = attemptId
  · simp only [hb, if_true, true_and]
    rintro w rfl
    rfl
  · simp [hb] at hid

/-- After `_finish` its attempt is SUBMITTED only under the wamid the provider answered with. -/
lemma settle_submitted {attemptId : String} {now : ℤ} {reply : ProviderReply} {c : Control}
    {a : SendAttempt} (ha : a ∈ (settle attemptId now reply c).sendAttempts)
    (hid : a.id = attemptId) (hreply : reply ≠ .raises) (hstate : a.state = .submitted) :
    reply = .submitted a.wamid := by
  cases reply with
  | timeoutAfterSend =>
    have hrow := (finish_row ha hid).1
    rw [hstate] at hrow
    cases hrow
  | connectFailed =>
    have hrow := (finish_row ha hid).1
    rw [hstate] at hrow
    cases hrow
  | submitted wamid => rw [(finish_row ha hid).2 wamid rfl]
  | rejected errorCode =>
    have hrow := (finish_row ha hid).1
    rw [hstate] at hrow
    cases hrow
  | raises => exact absurd rfl hreply

/-- `_finish` keeps the rows of the other attempts, and its own where the answer repeats it. -/
lemma settle_keeps (now : ℤ) {attemptId : String} {reply : ProviderReply} {c : Control}
    {a : SendAttempt} (ha : a ∈ c.sendAttempts) (hstate : a.state = .submitted) {wamid : String}
    (hwamid : a.wamid = some wamid)
    (hsame : a.id = attemptId → reply = .submitted (some wamid)) :
    ∃ a' ∈ (settle attemptId now reply c).sendAttempts,
      a'.id = a.id ∧ a'.state = .submitted ∧ a'.wamid = some wamid := by
  have hfinish : ∀ state w e, (a.id = attemptId → state = .submitted ∧ w = some (some wamid)) →
      ∃ a' ∈ (finish attemptId state now w e c).sendAttempts,
        a'.id = a.id ∧ a'.state = .submitted ∧ a'.wamid = some wamid := by
    intro state w e hown
    refine ⟨_, List.mem_map_of_mem ha, ?_⟩
    by_cases hid : a.id = attemptId
    · obtain ⟨rfl, rfl⟩ := hown hid
      simp [hid]
    · simp [hid, hstate, hwamid]
  cases reply with
  | timeoutAfterSend => exact hfinish _ _ _ fun hid => by cases hsame hid
  | connectFailed => exact hfinish _ _ _ fun hid => by cases hsame hid
  | submitted w =>
    refine hfinish _ _ _ fun hid => ⟨rfl, ?_⟩
    cases hsame hid
    rfl
  | rejected errorCode => exact hfinish _ _ _ fun hid => by cases hsame hid
  | raises => exact ⟨a, ha, rfl, hstate, hwamid⟩

/-- A call waits to finish only after an answer that `_finish` records. -/
def Answers (flights : ℕ → Flight) : Prop :=
  ∀ i attemptId now reply, flights i = .answered attemptId now reply → reply ≠ .raises

lemma Answers.set {s : Sys} (h : Answers s.flights) (i : ℕ) {f : Flight}
    (hf : ∀ attemptId now reply, f = .answered attemptId now reply → reply ≠ .raises) :
    Answers (s.setFlight i f).flights := by
  intro k attemptId now reply hk
  by_cases hki : k = i
  · simp only [Sys.setFlight, hki, if_true] at hk
    exact hf attemptId now reply hk
  · simp only [Sys.setFlight, hki, if_false] at hk
    exact h k attemptId now reply hk

lemma submit_answers (P : Platform) (i : ℕ) (env : Envelope) (reading : ℤ) (attemptId : String)
    {s : Sys} (h : Answers s.flights) : Answers (submit P i env reading attemptId s).flights := by
  unfold submit
  split
  · split
    · exact h
    split
    · exact h
    split
    · exact h
    · exact Answers.set h i (by simp)
  · exact h

lemma sendText_answers (i : ℕ) (permit : Permit) (attemptId : String) (now : ℤ)
    (reply : ProviderReply) {s : Sys} (h : Answers s.flights) :
    Answers (sendText i permit attemptId now reply s).flights := by
  unfold sendText
  split
  · exact h.set i (by simp)
  · rename_i hsent
    refine h.set i fun a n r hr hraises => hsent (.inr ?_)
    cases hr
    exact hraises

lemma callback_flights (j : ℕ) (event : StatusEvent) (nowMs : ℤ) (candidateId : String) (s : Sys) :
    (callback j event nowMs candidateId s).flights = s.flights := by
  unfold callback
  split
  · split
    · rfl
    split
    · rfl
    · rfl
  · rfl

lemma step_answers (P : Platform) (s : Sys) (label : Label) (h : Answers s.flights) :
    Answers (step P s label).1.flights := by
  cases label with
  | submit i env reading attemptId =>
    simp only [step]
    split
    · exact submit_answers P i env reading attemptId h
    · exact h
  | sendText i reply =>
    simp only [step]
    split
    · exact sendText_answers i _ _ _ reply h
    · exact h
  | finish i =>
    simp only [step]
    split
    · exact Answers.set h i (by simp)
    · exact h
  | die =>
    intro i attemptId now reply hidle
    cases hidle
  | recoverStartup nowMs => exact h
  | callback j event nowMs candidateId =>
    simp only [step]
    split
    · rw [callback_flights]
      exact h
    · exact h
  | lookUp j =>
    simp only [step]
    split
    · exact h
    · exact h
  | record j =>
    simp only [step]
    split
    · exact h
    · exact h
    · exact h

/-- The invariant of the interleavings. -/
structure Sound (s : Sys) : Prop where
  onlySender : OnlySender s
  answers : Answers s.flights

lemma sound_start (t : Store) : Sound (.start t) :=
  ⟨onlySender_idle rfl, fun i attemptId now reply h => by cases h⟩

lemma step_sound (P : Platform) (s : Sys) (label : Label) (hs : Sound s) :
    Sound (step P s label).1 :=
  ⟨step_onlySender P s label hs.onlySender, step_answers P s label hs.answers⟩

/-- A step that finishes no resolved attempt keeps what is SUBMITTED. -/
lemma step_keeps_submitted (P : Platform) (s : Sys) (label : Label) (key : String × String)
    (hs : Sound s) (hC : FinishesUnresolved s label) (h : SubmittedAs key s) :
    SubmittedAs key (step P s label).1 := by
  obtain ⟨a, ha, hid, hstate, hwamid⟩ := h
  by_cases hfinish : ∃ i, label = .finish i
  · obtain ⟨i, rfl⟩ := hfinish
    by_cases hanswered : ∃ attemptId now reply, s.flights i = .answered attemptId now reply
    · obtain ⟨attemptId, now, reply, hflight⟩ := hanswered
      obtain ⟨-, c, hc, hafter⟩ := step_finish P hs.onlySender hflight
      simp only [FinishesUnresolved, hflight] at hC
      obtain ⟨a', ha', hid', hstate', hwamid'⟩ := settle_keeps now (hc ▸ ha) hstate hwamid
        fun hown => hC a ha hown hstate key.2 hwamid
      exact ⟨a', hafter ▸ ha', hid'.trans hid, hstate', hwamid'⟩
    · rw [step_finish_of_not_answered P fun a n r h => hanswered ⟨a, n, r, h⟩]
      exact ⟨a, ha, hid, hstate, hwamid⟩
  · have hcarries := step_carries P hs.onlySender fun i h => hfinish ⟨i, h⟩
    obtain ⟨a', ha', hid', hstate', hwamid'⟩ := hcarries.keeps a ha hstate
    exact ⟨a', ha', hid'.trans hid, hstate', hwamid'.trans hwamid⟩

/-- A step that finishes a resolved attempt with another answer loses the resolution. -/
lemma step_loses_submitted (P : Platform) (s : Sys) (label : Label) (hs : Sound s)
    (hC : ¬ FinishesUnresolved s label) :
    ∃ key, SubmittedAs key s ∧ ¬ SubmittedAs key (step P s label).1 := by
  cases label with
  | finish i =>
    rcases hflight : s.flights i with _ | _ | ⟨attemptId, now, reply⟩
    · simp [FinishesUnresolved, hflight] at hC
    · simp [FinishesUnresolved, hflight] at hC
    simp only [FinishesUnresolved, hflight, not_forall] at hC
    obtain ⟨a, ha, hid, hstate, wamid, hwamid, hreply⟩ := hC
    refine ⟨(attemptId, wamid), ⟨a, ha, hid, hstate, hwamid⟩, ?_⟩
    rintro ⟨a', ha', hid', hstate', hwamid'⟩
    obtain ⟨-, c, -, hafter⟩ := step_finish P hs.onlySender hflight
    rw [hafter] at ha'
    have hanswer := settle_submitted ha' hid' (hs.answers i attemptId now reply hflight) hstate'
    rw [hwamid'] at hanswer
    exact hreply hanswer
  | submit i env reading attemptId => exact absurd trivial hC
  | sendText i reply => exact absurd trivial hC
  | die => exact absurd trivial hC
  | recoverStartup nowMs => exact absurd trivial hC
  | callback j event nowMs candidateId => exact absurd trivial hC
  | lookUp j => exact absurd trivial hC
  | record j => exact absurd trivial hC

/-- Once an attempt is SUBMITTED with a wamid it is so in every later state of the run. -/
def StaysSubmitted (P : Platform) (t : Store) (labels : List Label) : Prop :=
  ∀ before later rest, labels = before ++ later ++ rest → ∀ key,
    SubmittedAs key (Run.final (step P) (.start t) before) →
    SubmittedAs key (Run.final (step P) (.start t) (before ++ later))

/-- **When attempts never move backwards.**  A SUBMITTED attempt keeps its state and its wamid along
a run exactly where no `_finish` of the run meets an attempt that is already SUBMITTED with a wamid
other than the one it is about to write. -/
theorem stays_submitted_iff (P : Platform) (t : Store) (labels : List Label) :
    StaysSubmitted P t labels ↔ Run.Meets (step P) FinishesUnresolved (.start t) labels :=
  Run.persists_iff_meets (I := Sound) (Q := SubmittedAs) (step_sound P)
    (fun s label key hs hC h => step_keeps_submitted P s label key hs hC h)
    (fun s label hs hC => step_loses_submitted P s label hs hC) (sound_start t) labels

section Sample

/-- A device is enrolled and a draft prepared while the conversation's window is open. -/
def preparedStore : Store where
  control := (Run.final (Approval.step Approval.replayPlatform Approval.sampleStdlib) Approval.start
    (.call (.advanceWindow "cnv_1" 1500) :: (Approval.sampleRun "PN1" "text").take 2)).control.durable
  candidates := []

/-- The device's approval of the draft. -/
def sampleEnvelope : Envelope :=
  ⟨some "drf_1", some "APPROVE", some "dev_1", some Approval.sampleSignature,
    some Approval.sampleNonce.val⟩

/-- The provider's report on the message of attempt `atm_1`. -/
def sampleEvent : StatusEvent :=
  ⟨some "wamid.9", some "wv1:atm_1", some "61999", some 2150, some "delivered"⟩

/-- While the provider's call is under way a daemon starts up and the provider's report arrives;
then the call times out and its `_finish` runs. -/
def overtakenRun : List Label :=
  [.submit 0 sampleEnvelope 2000 "atm_1", .recoverStartup 2100,
    .callback 0 sampleEvent 2200 "rcn_1", .sendText 0 .timeoutAfterSend, .finish 0]

/-- The report resolves the attempt and `_finish` sets it back. -/
theorem attempt_moves_backwards :
    SubmittedAs ("atm_1", "wamid.9")
      (Run.final (step Approval.replayPlatform) (.start preparedStore) (overtakenRun.take 4)) ∧
    (Run.final (step Approval.replayPlatform) (.start preparedStore) overtakenRun).attempts.map
      (fun a => (a.id, a.state, a.wamid)) = [("atm_1", .indeterminate, some "wamid.9")] ∧
    ¬ StaysSubmitted Approval.replayPlatform preparedStore overtakenRun := by
  have hbefore : SubmittedAs ("atm_1", "wamid.9")
      (Run.final (step Approval.replayPlatform) (.start preparedStore) (overtakenRun.take 4)) := by
    unfold SubmittedAs
    decide +kernel
  have hafter : ¬ SubmittedAs ("atm_1", "wamid.9")
      (Run.final (step Approval.replayPlatform) (.start preparedStore) overtakenRun) := by
    unfold SubmittedAs
    decide +kernel
  refine ⟨hbefore, by decide +kernel, fun hstays => hafter ?_⟩
  exact hstays (overtakenRun.take 4) (overtakenRun.drop 4) [] (by simp) _ hbefore

end Sample

end WhatsVault.Reconcile
