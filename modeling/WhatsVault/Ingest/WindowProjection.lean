import WhatsVault.Ingest.ExactlyOnce

/-!
# The window projection and its faults

The window of a conversation lives in `control.db`, the messages it is computed from in `vault.db`,
and an inbound message is committed to the one before it is projected into the other.  As long as
nothing goes wrong between the two commits, the stored projection is the maximum that
`rebuild_window_from_evidence` computes, in every state a run reaches (`Projected`).  A fault between
them is never made up for: the redelivered atom is found in the ledger, the projection is skipped
and the envelope acknowledged (`acked_without_window`).
-/

namespace WhatsVault.Ingest

open Transaction

/-! ## The projection recomputed -/

/-- The times of the window-eligible inbound messages of a conversation. -/
def inboundTimes (e : Evidence) (conversationId : String) : List ℤ :=
  (e.messages.filter fun m =>
    m.conversationId = conversationId ∧ m.direction = .inbound ∧ m.windowEligible).map
    Message.tsLowerMs

/-- `COALESCE(MAX(ts_lower_ms), 0)`. -/
def evidenceMs (e : Evidence) (conversationId : String) : ℤ :=
  (inboundTimes e conversationId).max?.getD 0

structure WindowReport where
  evidenceMs : ℤ
  storedMs : ℤ
  drift : Bool
  deriving DecidableEq

/-- `doctor.rebuild_window_from_evidence`; the CHECK of the table refuses a negative value. -/
def rebuildWindowFromEvidence (e : Evidence) (conversationId : String) (c : Control) :
    Option (Control × WindowReport) :=
  let evidence := evidenceMs e conversationId
  let stored := c.lastInboundMs conversationId
  let report := ⟨evidence, stored, stored ≠ evidence⟩
  if stored = evidence then some (c, report)
  else if h : 0 ≤ evidence then some (c.putWindow ⟨conversationId, evidence, h⟩, report)
  else none

lemma rebuildWindow_of_eq {e : Evidence} {conversationId : String} {c : Control}
    (h : c.lastInboundMs conversationId = evidenceMs e conversationId) :
    ∃ report, rebuildWindowFromEvidence e conversationId c = some (c, report) ∧
      report.drift = false := by
  refine ⟨_, if_pos h, ?_⟩
  simp [h]

lemma le_evidenceMs {e : Evidence} {m : Message} (hm : m ∈ e.messages)
    (hdirection : m.direction = .inbound) (heligible : m.windowEligible = true) :
    m.tsLowerMs ≤ evidenceMs e m.conversationId := by
  have hmem : m.tsLowerMs ∈ inboundTimes e m.conversationId := by
    refine List.mem_map.mpr ⟨m, List.mem_filter.mpr ⟨hm, ?_⟩, rfl⟩
    simp [hdirection, heligible]
  rcases hmax : (inboundTimes e m.conversationId).max? with _ | top
  · rw [List.max?_eq_none_iff.mp hmax] at hmem
    simp at hmem
  · rw [evidenceMs, hmax]
    exact (List.max?_eq_some_iff.mp hmax).2 _ hmem

section Append

variable {e e' : Evidence} {row : Message} (hmessages : e'.messages = e.messages ++ [row])

include hmessages in
lemma evidenceMs_append_inbound (hdirection : row.direction = .inbound)
    (heligible : row.windowEligible = true) (htime : 0 ≤ row.tsLowerMs) (conversationId : String) :
    evidenceMs e' conversationId =
      if row.conversationId = conversationId then max (evidenceMs e conversationId) row.tsLowerMs
      else evidenceMs e conversationId := by
  by_cases hc : row.conversationId = conversationId
  · have htimes : inboundTimes e' conversationId =
        inboundTimes e conversationId ++ [row.tsLowerMs] := by
      simp [inboundTimes, hmessages, List.filter_append, hc, hdirection, heligible]
    rw [if_pos hc, evidenceMs, evidenceMs, htimes]
    rcases inboundTimes e conversationId with _ | ⟨t, ts⟩
    · simp [htime]
    · rw [List.cons_append, List.max?_cons', List.max?_cons', List.foldl_append]
      rfl
  · rw [if_neg hc, evidenceMs, evidenceMs]
    simp [inboundTimes, hmessages, List.filter_append, hc]

include hmessages in
lemma evidenceMs_append_outbound (hdirection : row.direction = .outbound)
    (conversationId : String) : evidenceMs e' conversationId = evidenceMs e conversationId := by
  simp [evidenceMs, inboundTimes, hmessages, List.filter_append, hdirection]

end Append

/-! ## The condition on deliveries -/

/-- What the projection reads of an inbound message. -/
@[ext] structure Inbound where
  phoneNumberId : Option String
  chat : Option String
  timeMs : ℤ

def Rows.inbound (S : Stdlib) : Rows → Option Inbound
  | .message rows => do
    let phoneNumberId ← rows.phoneNumberId.bindText S
    let chat ← rows.waId.bindText S
    pure ⟨phoneNumberId, chat, rows.tsLowerMs⟩
  | _ => Option.none

/-- The family of an atom, and for a message what the projection reads of it. -/
def Decoded.summary (S : Stdlib) (x : Decoded) : Family × Option Inbound :=
  (x.family, x.rows.inbound S)

/-- The atom is what `sent` says of its key, and if it is an inbound message, it was not sent before
1970 and nothing goes wrong between the commit of its evidence and the commit of its projection. -/
structure Delivered (S : Stdlib) (sent : String → Family × Option Inbound) (faults : AtomFaults)
    (x : Decoded) : Prop where
  sent : sent x.key = x.summary S
  time : x.family = .messageInbound → ∀ s, x.rows.inbound S = some s → 0 ≤ s.timeMs
  window : x.family = .messageInbound → faults.window = none

/-- Every atom of a call is delivered so. -/
def CleanDelivery (P : Platform) (S : Stdlib) (C : Sealed.Primitives)
    (sent : String → Family × Option Inbound) : Op → Prop
  | .drain r => ∀ lease ∈ r.leases, ∀ plaintext header atoms,
      Sealed.openSealed P C r.keyLookup lease.body = .opened plaintext header →
      payloadAtoms S plaintext = some atoms →
      ∀ i atom x, atoms[i]? = some atom → decode P S atom = some x →
        Delivered S sent (lease.faults i) x
  | _ => True

/-! ## The invariant -/

/-- `m` is stored as the inbound message `s`. -/
structure HeardAs (e : Evidence) (s : Inbound) (m : Message) : Prop where
  account : ∃ phone, s.phoneNumberId = some phone ∧ ⟨m.accountId, phone⟩ ∈ e.accounts
  conversation : ∃ c ∈ e.conversations, c.id = m.conversationId ∧ c.accountId = m.accountId ∧
    c.waChatId = s.chat
  time : m.tsLowerMs = s.timeMs
  direction : m.direction = .inbound
  eligible : m.windowEligible = true

/-- The stored projection is the maximum over the evidence. -/
def Level (e : Evidence) (c : Control) : Prop :=
  ∀ conversationId, fitsInt64 (c.lastInboundMs conversationId) = true ∧
    c.lastInboundMs conversationId = evidenceMs e conversationId

structure Projected (P : Platform) (S : Stdlib) (sent : String → Family × Option Inbound)
    (log : List Event) (d : Daemon) : Prop where
  kept : Kept P S log d
  heard : ∀ key, Recorded d.vault.durable.evidence key → (sent key).1 = .messageInbound →
    ∃ s, (sent key).2 = some s ∧ ∃ m ∈ d.vault.durable.evidence.messages,
      HeardAs d.vault.durable.evidence s m
  level : d.control.Holds (Level d.vault.durable.evidence)

variable {P : Platform} {S : Stdlib} {sent : String → Family × Option Inbound}

lemma Level.congr {e e' : Evidence} {c : Control}
    (h : ∀ conversationId, evidenceMs e' conversationId = evidenceMs e conversationId)
    (hlevel : Level e c) : Level e' c := fun conversationId => by
  rw [h]
  exact hlevel conversationId

lemma messageRows_inbound {atom : Atom} {rows : MessageRows}
    (h : toRows S atom = some (.message rows)) :
    (classify atom = .messageInbound → rows.direction = .inbound ∧ rows.windowEligible = true) ∧
    (classify atom ≠ .messageInbound → rows.direction = .outbound) := by
  unfold toRows at h
  unfold classify
  rcases hkind : atom.kind <;> rw [hkind] at h
  · obtain ⟨rows', hrows, heq⟩ := Option.map_eq_some_iff.mp h
    cases heq
    simp only [messageRows, Option.bind_eq_bind, Option.pure_def, Option.bind_eq_some_iff,
      Option.some.injEq] at hrows
    obtain ⟨_, -, _, -, _, -, _, -, _, -, rfl⟩ := hrows
    cases atom.echo <;> simp
  · obtain ⟨_, -, heq⟩ := Option.map_eq_some_iff.mp h
    cases heq
  all_goals cases h

/-- A message row stored for a summarised atom is stored as that summary. -/
lemma heardAs_of_storedAs {e : Evidence} {rows : MessageRows} {m : Message}
    (h : StoredAs S e rows m) (hdirection : rows.direction = .inbound)
    (heligible : rows.windowEligible = true) :
    ∃ s, Rows.inbound S (.message rows) = some s ∧ s.timeMs = rows.tsLowerMs ∧ HeardAs e s m := by
  obtain ⟨phone, hphone, haccount⟩ := h.account
  obtain ⟨c, hc, hid, hcaccount, hchat⟩ := h.conversation
  refine ⟨⟨some phone, c.waChatId, rows.tsLowerMs⟩, ?_, rfl, ?_⟩
  · simp [Rows.inbound, hphone, hchat]
  · exact
      { account := ⟨phone, rfl, haccount⟩
        conversation := ⟨c, hc, hid, hcaccount, rfl⟩
        time := h.time
        direction := by rw [h.direction, hdirection]
        eligible := by rw [h.eligible, heligible] }

lemma HeardAs.mono {e e' : Evidence} {s : Inbound} {m : Message} (h : HeardAs e s m)
    (haccounts : e.accounts ⊆ e'.accounts) (hconversations : e.conversations ⊆ e'.conversations) :
    HeardAs e' s m := by
  obtain ⟨phone, hphone, haccount⟩ := h.account
  obtain ⟨c, hc, hchat⟩ := h.conversation
  exact { h with
    account := ⟨phone, hphone, haccounts haccount⟩
    conversation := ⟨c, hconversations hc, hchat⟩ }

/-- Storing an atom loses no account, conversation or message. -/
lemma Stores.grows {ids : AtomIds} {e e' : Evidence} {rows : Rows} {applied : Option Applied}
    (h : Stores S ids e e' rows applied) :
    e.accounts ⊆ e'.accounts ∧ e.conversations ⊆ e'.conversations ∧ e.messages ⊆ e'.messages := by
  cases h with
  | message happends =>
    refine ⟨happends.accounts, happends.conversations, ?_⟩
    rw [happends.messages]
    exact List.subset_append_left _ _
  | status _ hsame =>
    subst hsame
    exact ⟨fun _ h => h, fun _ h => h, fun _ h => h⟩
  | none hsame =>
    subst hsame
    exact ⟨fun _ h => h, fun _ h => h, fun _ h => h⟩

/-- An inbound message that was stored is in the table as what its atom says. -/
lemma Stores.heard {ids : AtomIds} {e e' : Evidence} {atom : Atom} {x : Decoded}
    {applied : Option Applied} (h : Stores S ids e e' x.rows applied)
    (hdecoded : decode P S atom = some x) (hfamily : x.family = .messageInbound) :
    ∃ s, x.rows.inbound S = some s ∧ ∃ m ∈ e'.messages, HeardAs e' s m := by
  obtain ⟨hkey, hrows, -⟩ := decode_eq_some hdecoded
  have hclass : classify atom = .messageInbound := by rw [← semanticKey_family hkey, hfamily]
  have hshape := shaped_of_decode hdecoded
  rw [hfamily] at hshape
  generalize x.rows = rows at h hshape hrows ⊢
  cases h with
  | @message rows row happends =>
    obtain ⟨hdirection, heligible⟩ := (messageRows_inbound hrows).1 hclass
    obtain ⟨s, hs, -, hheard⟩ := heardAs_of_storedAs happends.stored hdirection heligible
    exact ⟨s, hs, row, by simp [happends.messages], hheard⟩
  | status => exact absurd hshape.1 (by decide)
  | none => exact absurd hshape.1 (by decide)

/-- What the evidence and the projection of an inbound message do to the invariant. -/
lemma Level.advance {e e' : Evidence} {c : Control} (row : Message) (h : Level e c)
    (hmessages : e'.messages = e.messages ++ [row]) (hdirection : row.direction = .inbound)
    (heligible : row.windowEligible = true) (htime : 0 ≤ row.tsLowerMs)
    (hfits : fitsInt64 row.tsLowerMs = true) :
    ∃ c', c.advanceWindow row.conversationId row.tsLowerMs = some c' ∧ Level e' c' := by
  have hmax : fitsInt64 (max (c.lastInboundMs row.conversationId) row.tsLowerMs) = true := by
    rcases max_choice (c.lastInboundMs row.conversationId) row.tsLowerMs with hleft | hright
    · rw [hleft]
      exact (h row.conversationId).1
    · rwa [hright]
  have hadvance : c.advanceWindow row.conversationId row.tsLowerMs =
      some (c.putWindow (c.advancedRow row.conversationId row.tsLowerMs)) := if_pos hmax
  refine ⟨_, hadvance, fun conversationId => ?_⟩
  rw [Control.lastInboundMs_advanceWindow hadvance,
    evidenceMs_append_inbound hmessages hdirection heligible htime]
  by_cases hc : row.conversationId = conversationId
  · subst hc
    rw [if_pos rfl, if_pos rfl]
    refine ⟨hmax, ?_⟩
    rw [(h row.conversationId).2]
  · rw [if_neg hc, if_neg hc]
    exact h conversationId

section Steps

variable {N : Search.Normaliser} {C : Sealed.Primitives} {log : List Event} {d : Daemon}

/-- The projection after the commit of an atom, whatever its family. -/
lemma level_afterCommit {ids : AtomIds} {e e' : Evidence} {atom : Atom} {x : Decoded}
    {event : IngestEvent} {applied : Option Applied} {faults : AtomFaults}
    (hrecords : Records P S atom x event)
    (hstores : Stores S ids (withLedger e event) e' x.rows applied)
    (hdelivered : Delivered S sent faults x) (hlevel : d.control.Holds (Level e)) :
    (afterCommit N faults x.family applied d).1.control.Holds (Level e') := by
  obtain ⟨hkey, hrows, -⟩ := decode_eq_some hrecords.decoded
  have hfamily := semanticKey_family hkey
  have hshape := shaped_of_decode hrecords.decoded
  have htime := hdelivered.time
  generalize hrowsx : x.rows = rows at hstores hshape hrows htime
  cases hstores with
  | @message rows row happends =>
    obtain ⟨hinbound, houtbound⟩ := messageRows_inbound hrows
    by_cases hin : x.family = .messageInbound
    · obtain ⟨hdirection, heligible⟩ := hinbound (hfamily ▸ hin)
      obtain ⟨s, hs, hstime, hheard⟩ := heardAs_of_storedAs happends.stored hdirection heligible
      have hnonneg : 0 ≤ row.tsLowerMs := by
        rw [hheard.time]
        exact htime hin s hs
      obtain ⟨c', hadvance, hc'⟩ := hlevel.2.advance row happends.messages
        hheard.direction hheard.eligible hnonneg happends.fits
      rw [hin]
      exact control_afterCommit_inbound (hdelivered.window hin) hadvance hc'
    · have hdirection : row.direction = .outbound := by
        rw [happends.stored.direction]
        exact houtbound (hfamily ▸ hin)
      refine control_afterCommit_other hin (hlevel.mono fun c hc => hc.congr fun conversationId => ?_)
      exact evidenceMs_append_outbound happends.messages hdirection conversationId
  | status _ hsame =>
    subst hsame
    refine control_afterCommit_other ?_ (hlevel.mono fun c hc => hc.congr fun _ => rfl)
    intro hin
    rw [hin] at hshape
    exact absurd hshape.1 (by decide)
  | none hsame =>
    subst hsame
    refine control_afterCommit_other ?_ (hlevel.mono fun c hc => hc.congr fun _ => rfl)
    intro hin
    rw [hin] at hshape
    exact absurd hshape.1 (by decide)

/-- A step that leaves the committed evidence and the control database as they were, or rolls the
latter back. -/
lemma Projected.of_same {log' : List Event} {d' : Daemon} (h : Projected P S sent log d)
    (hkept : Kept P S log' d')
    (hevidence : d'.vault.durable.evidence = d.vault.durable.evidence)
    (hcontrol : d'.control.Holds (Level d.vault.durable.evidence)) : Projected P S sent log' d' where
  kept := hkept
  heard := by rw [hevidence]; exact h.heard
  level := by rw [hevidence]; exact hcontrol

theorem Projected.processAtom (h : Projected P S sent log d) (now : ℤ) (ids : AtomIds)
    {faults : AtomFaults} {atom : Atom}
    (hdelivered : ∀ x, decode P S atom = some x → Delivered S sent faults x) :
    Projected P S sent (log ++ (processAtom P S N now ids faults atom d).2.2)
      (processAtom P S N now ids faults atom d).1 := by
  have hkept := h.kept.processAtom (N := N) now ids faults atom
  have hcases := processAtom_cases P S N now ids faults atom d
  generalize Ingest.processAtom P S N now ids faults atom d = result at hcases hkept ⊢
  cases hcases with
  | undecodable => exact h.of_same hkept rfl h.level
  | failed control hended =>
    refine h.of_same hkept rfl ?_
    rcases hended with ⟨-, rfl⟩ | ⟨-, rfl⟩
    · exact h.level
    · exact h.level.rollback
  | @duplicate x hdecoded hrecorded => exact h.of_same hkept h.kept.settled h.level
  | @stored x event evidence applied hrecords hfresh hstores after hafter =>
    have hx := hdelivered x hrecords.decoded
    have hevidence : after.1.vault.durable.evidence = evidence := by
      rw [hafter]
      exact (holds_afterCommit (I := fun v => v.evidence = evidence) (fun _ _ hv => hv)
        (Conn.holds_clean rfl)).1
    rw [h.kept.settled] at hfresh hstores
    obtain ⟨hmirrored, hrecorded⟩ := h.kept.mirrored.stores hrecords hfresh hstores
    obtain ⟨haccounts, hconversations, hmessages⟩ := hstores.grows
    refine ⟨hkept, fun key hkey hfamily => ?_, ?_⟩
    · rw [hevidence] at hkey ⊢
      rcases (hrecorded key).mp hkey with hold | rfl
      · obtain ⟨s, hs, m, hm, hheard⟩ := h.heard key hold hfamily
        exact ⟨s, hs, m, hmessages hm, hheard.mono haccounts hconversations⟩
      · rw [hx.sent] at hfamily ⊢
        exact hstores.heard hrecords.decoded hfamily
    · rw [hevidence, hafter]
      exact level_afterCommit hrecords hstores hx h.level

theorem Projected.processPayload (h : Projected P S sent log d) (now : ℤ) (ids : ℕ → AtomIds)
    {faults : ℕ → AtomFaults} {plaintext : Bytes}
    (hdelivered : ∀ atoms, payloadAtoms S plaintext = some atoms → ∀ i atom x,
      atoms[i]? = some atom → decode P S atom = some x → Delivered S sent (faults i) x) :
    Projected P S sent (log ++ (processPayload P S N now ids faults plaintext d).2.2)
      (processPayload P S N now ids faults plaintext d).1 := by
  unfold Ingest.processPayload
  split
  · simpa using h
  · rename_i atoms hatoms
    refine processAtoms_invariant now ids faults atoms 0 (J := Projected P S sent)
      (fun log j atom d hatom hd => ?_) log h
    refine hd.processAtom now (ids (0 + j)) fun x hx => ?_
    rw [Nat.zero_add]
    exact hdelivered atoms hatoms j atom x hatom hx

/-- A write that touches the dead-letter queue or the breaker, with its commit. -/
lemma Projected.disposes {f : Vault → Option Vault} {disposition : Disposition}
    {log' rest : List Event} {result : Step Disposition} (h : Projected P S sent log d)
    (hkept : Kept P S log' result.1)
    (hf : ∀ v v', f v = some v' → v'.evidence = v.evidence)
    (hresult : Disposes f disposition rest d result) : Projected P S sent log' result.1 := by
  cases hresult with
  | written hwrote => exact h.of_same hkept ((hf _ _ hwrote).trans h.kept.settled) h.level
  | uncommitted => exact h.of_same hkept rfl h.level
  | refused => exact h.of_same hkept rfl h.level
  | crashed => exact h.of_same hkept rfl h.level.rollback

theorem Projected.handleLease (h : Projected P S sent log d) {r : Drain} {lease : Lease}
    (health : List ℕ)
    (hdelivered : ∀ plaintext header atoms,
      Sealed.openSealed P C r.keyLookup lease.body = .opened plaintext header →
      payloadAtoms S plaintext = some atoms → ∀ i atom x, atoms[i]? = some atom →
      decode P S atom = some x → Delivered S sent (lease.faults i) x) :
    Projected P S sent (log ++ (handleLease P S N C r lease health d).2.2)
      (handleLease P S N C r lease health d).1 := by
  have hkept := h.kept.handleLease (N := N) (C := C) r lease health
  have hcases := handleLease_cases P S N C r lease health d
  generalize Ingest.handleLease P S N C r lease health d = result at hcases hkept ⊢
  cases hcases with
  | raised => exact h.of_same hkept rfl h.level
  | unavailable => exact h.of_same hkept rfl h.level
  | quarantines hdisposes =>
    refine h.disposes hkept (fun v v' hv => ?_) hdisposes
    obtain ⟨row, -, rfl⟩ := quarantine_eq_some hv
    rfl
  | trips hdisposes =>
    refine h.disposes hkept (fun v v' hv => ?_) hdisposes
    obtain ⟨circuit, rfl⟩ := trip_eq_some hv
    rfl
  | @processed plaintext header after rest hopened hran =>
    have hpayload := h.processPayload (N := N) r.now lease.ids
      (hdelivered plaintext header · hopened)
    rwa [hran] at hpayload
  | @nacked plaintext header after rest hopened hran =>
    have hpayload := h.processPayload (N := N) r.now lease.ids
      (hdelivered plaintext header · hopened)
    rw [hran] at hpayload
    exact hpayload.of_same hkept rfl hpayload.level
  | @died plaintext header after rest hopened hran =>
    have hpayload := h.processPayload (N := N) r.now lease.ids
      (hdelivered plaintext header · hopened)
    rwa [hran] at hpayload

theorem Projected.step (h : Projected P S sent log d) {op : Op}
    (hop : CleanDelivery P S C sent op) :
    Projected P S sent (log ++ (step P S N C d op).2) (step P S N C d op).1 := by
  have hkept := h.kept.step (N := N) (C := C) op
  cases op with
  | drain r =>
    exact drainOnce_invariant (J := Projected P S sent)
      (fun log health lease hlease d hd => hd.handleLease health (hop lease hlease))
      (fun log d acks hd => hd.of_same (hd.kept.acks acks) rfl hd.level) log h
  | restart => exact h.of_same hkept rfl h.level.rollback
  | resetCircuit => exact h.of_same hkept rfl h.level

lemma Projected.start : Projected P S sent [] start where
  kept := .start
  heard := by simp [Recorded, Ingest.start, Vault.empty]
  level := Conn.holds_clean fun conversationId => ⟨rfl, rfl⟩

end Steps

/-! ## Acknowledged messages -/

/-- What the acknowledged payload of an envelope delivered. -/
def Summarised (P : Platform) (S : Stdlib) (sent : String → Family × Option Inbound)
    (plaintext : Bytes) : Prop :=
  ∀ atoms, payloadAtoms S plaintext = some atoms → ∀ atom ∈ atoms, ∀ x,
    decode P S atom = some x → sent x.key = x.summary S

variable {N : Search.Normaliser} {C : Sealed.Primitives}

lemma summarised_of_acked {d : Daemon} {op : Op} (hop : CleanDelivery P S C sent op)
    {leaseId : String} {envelope plaintext : Bytes}
    (h : .acked ⟨leaseId, envelope, some plaintext⟩ ∈ (step P S N C d op).2) :
    Summarised P S sent plaintext := by
  obtain ⟨r, rfl, lease, hlease, -, keys, before, hend, -⟩ := acked_of_step h
  have hcases := handleLease_cases P S N C r lease keys before
  generalize Ingest.handleLease P S N C r lease keys before = result at hcases hend
  have hdisposed : ∀ {f disposition log}, Disposes f disposition log before result →
      disposition = .ack (some plaintext) := by
    intro f disposition log hdisposes
    cases hdisposes with
    | written => exact Outcome.done.inj hend
    | uncommitted => cases hend
    | refused => cases hend
    | crashed => cases hend
  cases hcases with
  | @processed plaintext header after rest hopened hran =>
    cases hend
    intro atoms hatoms atom hatom x hx
    obtain ⟨i, hi⟩ := List.mem_iff_getElem?.mp hatom
    exact (hop lease hlease plaintext header atoms hopened hatoms i atom x hi hx).sent
  | quarantines hdisposes => cases hdisposed hdisposes
  | trips hdisposes => cases hdisposed hdisposes
  | raised => cases hend
  | unavailable => cases hend
  | nacked => cases hend
  | died => cases hend

/-- The message of an atom, with a stored window that covers it. -/
structure Covered (S : Stdlib) (e : Evidence) (c : Control) (atom : Atom) (rows : MessageRows)
    (m : Message) : Prop where
  described : toRows S atom = some (.message rows)
  stored : m ∈ e.messages
  account : ∃ phone, rows.phoneNumberId.bindText S = some (some phone) ∧
    ⟨m.accountId, phone⟩ ∈ e.accounts
  conversation : ∃ chat ∈ e.conversations, chat.id = m.conversationId ∧
    chat.accountId = m.accountId ∧ rows.waId.bindText S = some chat.waChatId
  window : rows.tsLowerMs ≤ c.lastInboundMs m.conversationId

lemma Rows.inbound_eq_some {rows : Rows} {s : Inbound} (h : rows.inbound S = some s) :
    ∃ message, rows = .message message ∧ message.phoneNumberId.bindText S = some s.phoneNumberId ∧
      message.waId.bindText S = some s.chat ∧ message.tsLowerMs = s.timeMs := by
  cases rows with
  | message rows =>
    simp only [Rows.inbound, Option.bind_eq_bind, Option.pure_def, Option.bind_eq_some_iff,
      Option.some.injEq] at h
    obtain ⟨phone, hphone, chat, hchat, rfl⟩ := h
    exact ⟨rows, rfl, hphone, hchat, rfl⟩
  | status => cases h
  | none => cases h

/-- A recorded inbound atom that is what `sent` says of its key is covered. -/
lemma Projected.covers {log : List Event} {d : Daemon} (h : Projected P S sent log d) {atom : Atom}
    {x : Decoded} (hx : decode P S atom = some x) (hclass : classify atom = .messageInbound)
    (hsent : sent x.key = x.summary S) (hrecorded : Recorded d.vault.durable.evidence x.key) :
    ∃ rows m, Covered S d.vault.durable.evidence d.control.durable atom rows m := by
  obtain ⟨hkey, hrows, -⟩ := decode_eq_some hx
  have hfamily : (sent x.key).1 = .messageInbound := by
    rw [hsent, ← hclass]
    exact semanticKey_family hkey
  obtain ⟨s, hs, m, hm, hheard⟩ := h.heard x.key hrecorded hfamily
  rw [hsent] at hs
  obtain ⟨rows, hmessage, hphone, hchat, htime⟩ := Rows.inbound_eq_some hs
  obtain ⟨phone, hphone', haccount⟩ := hheard.account
  obtain ⟨c, hc, hid, hcaccount, hcchat⟩ := hheard.conversation
  refine ⟨rows, m, ?_, hm, ⟨phone, by rw [hphone, hphone'], haccount⟩,
    ⟨c, hc, hid, hcaccount, by rw [hchat, hcchat]⟩, ?_⟩
  · rw [hrows, hmessage]
  · have hlevel := h.level.1 m.conversationId
    have hle := le_evidenceMs hm hheard.direction hheard.eligible
    rw [hlevel.2, htime, ← hheard.time]
    exact hle

/-- The 24-hour window survives every schedule of deliveries in which nothing goes wrong between an
inbound message's two commits: an acknowledged message is covered by the stored window of its
conversation, and the stored windows are what the doctor would compute. -/
theorem window_survives (P : Platform) (S : Stdlib) (N : Search.Normaliser) (C : Sealed.Primitives)
    (sent : String → Family × Option Inbound) (ops : List Op)
    (hclean : ∀ op ∈ ops, CleanDelivery P S C sent op) :
    (∀ leaseId envelope plaintext,
      .acked ⟨leaseId, envelope, some plaintext⟩ ∈ Run.events (step P S N C) start ops →
      ∀ atoms, payloadAtoms S plaintext = some atoms →
      ∀ atom ∈ atoms, classify atom = .messageInbound →
      ∃ rows m, Covered S (Run.final (step P S N C) start ops).vault.durable.evidence
        (Run.final (step P S N C) start ops).control.durable atom rows m) ∧
    ∀ conversationId, ∃ report,
      rebuildWindowFromEvidence (Run.final (step P S N C) start ops).vault.durable.evidence
        conversationId (Run.final (step P S N C) start ops).control.durable =
          some ((Run.final (step P S N C) start ops).control.durable, report) ∧
      report.drift = false := by
  have hmeets : Run.Meets (step P S N C) (fun _ op => CleanDelivery P S C sent op) start ops :=
    Run.meets_of_forall_mem hclean start
  have hrun := Run.log_invariant_of_meets (J := Projected P S sent)
    (fun log d op hd hop => hd.step hop) .start hmeets
  rw [List.nil_append] at hrun
  refine ⟨fun leaseId envelope plaintext hacked atoms hatoms atom hatom hclass => ?_,
    fun conversationId => rebuildWindow_of_eq (hrun.level.1 conversationId).2⟩
  have hsummarised : ∀ event ∈ Run.events (step P S N C) start ops, ∀ plaintext,
      event = .acked ⟨leaseId, envelope, some plaintext⟩ → Summarised P S sent plaintext := by
    refine Run.events_forall_of_meets (hmeets.mono fun d op hop event hevent plaintext heq => ?_)
    rw [heq] at hevent
    exact summarised_of_acked hop hevent
  obtain ⟨-, atoms', hatoms', hall⟩ := acked_events hacked
  obtain rfl : atoms' = atoms := Option.some.inj (hatoms'.symm.trans hatoms)
  obtain ⟨x, hx, hprocessed⟩ := hall atom hatom
  exact hrun.covers hx hclass (hsummarised _ hacked plaintext rfl atoms' hatoms atom hatom x hx)
    ((hrun.kept.processed x.key).mpr hprocessed)

/-! ## Two runs of one message -/

/-- The message of the sample, under whatever key. -/
def sampleSent : String → Family × Option Inbound := fun _ =>
  (.messageInbound, some ⟨some "PN1", some "61400", 1700000000000⟩)

lemma cleanDelivery_sample : CleanDelivery samplePlatform sampleStdlib samplePrimitives sampleSent
    (sampleDrain samplePlaintext {}) := by
  intro lease hlease plaintext header atoms hopened hatoms i atom x hatom hx
  obtain rfl := List.mem_singleton.mp hlease
  obtain ⟨_, hsample⟩ := Sealed.OpenResult.plaintext_eq_some.mp openSealed_sample
  obtain ⟨rfl, -⟩ := Sealed.OpenResult.opened.inj (hsample.symm.trans hopened)
  rw [payloadAtoms_sample] at hatoms
  obtain rfl := Option.some.inj hatoms
  obtain rfl : sampleAtom = atom := by
    rcases i with _ | i
    · exact Option.some.inj hatom
    · simp at hatom
  obtain ⟨hkey, hrows, -⟩ := decode_eq_some hx
  have hfamily := semanticKey_family hkey
  have hsummary : (toRows sampleStdlib sampleAtom).bind (Rows.inbound sampleStdlib) =
      some ⟨some "PN1", some "61400", 1700000000000⟩ := rfl
  rw [hrows, Option.bind_some] at hsummary
  refine ⟨?_, fun _ s hs => ?_, fun _ => rfl⟩
  · rw [Decoded.summary, hsummary, hfamily]
    rfl
  · rw [hsummary] at hs
    obtain rfl := Option.some.inj hs
    exact (by decide : (0 : ℤ) ≤ 1700000000000)

/-- The message delivered twice with no fault: acknowledged and covered. -/
theorem window_survives_redelivery :
    .acked ⟨"lse_1", sampleEnvelope samplePlaintext, some samplePlaintext⟩ ∈
      Run.events (step samplePlatform sampleStdlib sampleNormaliser samplePrimitives) start
        [sampleDrain samplePlaintext {}, sampleDrain samplePlaintext {}] ∧
    ∃ rows m, Covered sampleStdlib
      (Run.final (step samplePlatform sampleStdlib sampleNormaliser samplePrimitives) start
        [sampleDrain samplePlaintext {}, sampleDrain samplePlaintext {}]).vault.durable.evidence
      (Run.final (step samplePlatform sampleStdlib sampleNormaliser samplePrimitives) start
        [sampleDrain samplePlaintext {}, sampleDrain samplePlaintext {}]).control.durable
      sampleAtom rows m := by
  have hacked : .acked ⟨"lse_1", sampleEnvelope samplePlaintext, some samplePlaintext⟩ ∈
      Run.events (step samplePlatform sampleStdlib sampleNormaliser samplePrimitives) start
        [sampleDrain samplePlaintext {}, sampleDrain samplePlaintext {}] := by decide +kernel
  refine ⟨hacked, (window_survives samplePlatform sampleStdlib sampleNormaliser samplePrimitives
    sampleSent _ ?_).1 _ _ _ hacked _ payloadAtoms_sample _ (List.mem_singleton_self _) rfl⟩
  intro op hop
  simp only [List.mem_cons, List.not_mem_nil, or_false, or_self] at hop
  rw [hop]
  exact cleanDelivery_sample

/-- `advance_window` raises once; the redelivered message is found in the ledger. -/
def skippedRun : List Op :=
  [sampleDrain samplePlaintext { window := some .statement }, sampleDrain samplePlaintext {}]

/-- The message is acknowledged, no stored window covers it, and the doctor finds drift. -/
theorem acked_without_window :
    .acked ⟨"lse_1", sampleEnvelope samplePlaintext, some samplePlaintext⟩ ∈
      Run.events (step samplePlatform sampleStdlib sampleNormaliser samplePrimitives) start
        skippedRun ∧
    payloadAtoms sampleStdlib samplePlaintext = some [sampleAtom] ∧
    classify sampleAtom = .messageInbound ∧
    (∀ rows m, ¬ Covered sampleStdlib
      (Run.final (step samplePlatform sampleStdlib sampleNormaliser samplePrimitives) start
        skippedRun).vault.durable.evidence
      (Run.final (step samplePlatform sampleStdlib sampleNormaliser samplePrimitives) start
        skippedRun).control.durable sampleAtom rows m) ∧
    ((rebuildWindowFromEvidence
      (Run.final (step samplePlatform sampleStdlib sampleNormaliser samplePrimitives) start
        skippedRun).vault.durable.evidence "cnv_1"
      (Run.final (step samplePlatform sampleStdlib sampleNormaliser samplePrimitives) start
        skippedRun).control.durable).map fun r => r.2.drift) = some true := by
  refine ⟨by decide +kernel, payloadAtoms_sample, rfl, fun rows m h => ?_, by decide +kernel⟩
  have hwindows : (Run.final (step samplePlatform sampleStdlib sampleNormaliser samplePrimitives)
      start skippedRun).control.durable.conversationWindows = [] := by decide +kernel
  have htime : (toRows sampleStdlib sampleAtom).bind Rows.providerTs = some 1700000000000 := rfl
  rw [h.described] at htime
  have hle := h.window
  have hzero : Control.lastInboundMs (Run.final (step samplePlatform sampleStdlib sampleNormaliser
      samplePrimitives) start skippedRun).control.durable m.conversationId = 0 := by
    rw [Control.lastInboundMs, Control.window, hwindows]
    rfl
  rw [hzero, Option.some.inj htime] at hle
  exact absurd hle (by decide)

end WhatsVault.Ingest
