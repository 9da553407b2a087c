import WhatsVault.Ingest.Effects
import WhatsVault.Library.Run

/-!
# Exactly-once evidence

Whatever is delivered, in whatever order and however often, and whatever fails, the committed vault
holds one ledger row for each semantic key the consumer processed and, beside the ledger, one
message row for each message in it and one status row for each status (`Mirrored`).  An envelope is
acknowledged only once its atoms are in that ledger or the envelope itself is in the dead-letter
queue (`Secured`).

The step argument is one atom: its transaction appends the ledger row and its domain row together
or appends nothing, and everything after the commit leaves the evidence alone.
-/

namespace WhatsVault.Ingest

open Transaction

/-! ## What the evidence tables say of each other -/

/-- `m` is the message row of the ledger row `event`. -/
def StoresMessage (P : Platform) (S : Stdlib) (e : Evidence) (event : IngestEvent) (m : Message) :
    Prop :=
  ∃ atom x rows, Records P S atom x event ∧ x.rows = .message rows ∧ StoredAs S e rows m

/-- `status` is the status row of the ledger row `event`. -/
def StoresStatus (P : Platform) (S : Stdlib) (event : IngestEvent) (status : StatusEvent) : Prop :=
  ∃ atom x rows, Records P S atom x event ∧ x.rows = .status rows ∧ StatusAs S rows status

/-- The domain tables are the ledger, family by family and row by row. -/
structure Mirrored (P : Platform) (S : Stdlib) (e : Evidence) : Prop where
  keys : Table.Unique IngestEvent.semanticEventKey e.ingestEvents
  messages : List.Forall₂ (StoresMessage P S e)
    (e.ingestEvents.filter fun event => isMessage event.family) e.messages
  statuses : List.Forall₂ (StoresStatus P S)
    (e.ingestEvents.filter fun event => isStatus event.family) e.statusEvents
  keyed : Keyed e

variable {P : Platform} {S : Stdlib}

lemma StoresMessage.mono {e e' : Evidence} (haccounts : e.accounts ⊆ e'.accounts)
    (hconversations : e.conversations ⊆ e'.conversations) {event : IngestEvent} {m : Message}
    (h : StoresMessage P S e event m) : StoresMessage P S e' event m := by
  obtain ⟨atom, x, rows, hrecords, hrows, hstored⟩ := h
  exact ⟨atom, x, rows, hrecords, hrows, hstored.mono haccounts hconversations⟩

lemma Mirrored.empty : Mirrored P S Vault.empty.evidence :=
  ⟨Table.unique_nil _, .nil, .nil, .empty⟩

lemma recorded_withLedger {e : Evidence} {event : IngestEvent} {key : String} :
    Recorded (withLedger e event) key ↔ Recorded e key ∨ event.semanticEventKey = key := by
  simp only [Recorded, withLedger, List.mem_append, List.mem_singleton]
  grind

lemma forall₂_concat {α β : Type*} {R : α → β → Prop} {as : List α} {bs : List β} {a : α} {b : β}
    (h : List.Forall₂ R as bs) (hab : R a b) : List.Forall₂ R (as ++ [a]) (bs ++ [b]) :=
  List.rel_append h (.cons hab .nil)

lemma exists_left_of_forall₂ {α β : Type*} {R : α → β → Prop} {as : List α} {bs : List β}
    (h : List.Forall₂ R as bs) {b : β} (hb : b ∈ bs) : ∃ a ∈ as, R a b := by
  induction h with
  | nil => simp at hb
  | cons hab _ ih =>
    rcases List.mem_cons.mp hb with rfl | htail
    · exact ⟨_, List.mem_cons_self, hab⟩
    · obtain ⟨a, ha, hr⟩ := ih htail
      exact ⟨a, List.mem_cons_of_mem _ ha, hr⟩

/-- Storing an atom whose key is new keeps the tables in step. -/
theorem Mirrored.stores {ids : AtomIds} {e e' : Evidence} {atom : Atom} {x : Decoded}
    {event : IngestEvent} {applied : Option Applied} (h : Mirrored P S e)
    (hrecords : Records P S atom x event) (hfresh : ¬ Recorded e x.key)
    (hstores : Stores S ids (withLedger e event) e' x.rows applied) :
    Mirrored P S e' ∧ ∀ key, Recorded e' key ↔ Recorded e key ∨ x.key = key := by
  have hshape := shaped_of_decode hrecords.decoded
  rw [← hrecords.family] at hshape
  have hkeys : Table.Unique IngestEvent.semanticEventKey (withLedger e event).ingestEvents := by
    refine h.keys.append fun old hold heq => hfresh ⟨old, hold, ?_⟩
    rw [heq, hrecords.key]
  have hkeyed : Keyed (withLedger e event) := { h.keyed with }
  have hrecorded : ∀ key, Recorded (withLedger e event) key ↔ Recorded e key ∨ x.key = key := by
    intro key
    rw [recorded_withLedger, hrecords.key]
  have hmessages : ∀ e₁ : Evidence, e.accounts ⊆ e₁.accounts → e.conversations ⊆ e₁.conversations →
      List.Forall₂ (StoresMessage P S e₁)
        (e.ingestEvents.filter fun event => isMessage event.family) e.messages :=
    fun _ haccounts hconversations =>
      h.messages.imp fun _ _ hold => hold.mono haccounts hconversations
  generalize hrows : x.rows = rows at hstores hshape
  cases hstores with
  | @message rows row happends =>
    obtain ⟨hmessage, hstatus⟩ := hshape
    have hledger : e'.ingestEvents = e.ingestEvents ++ [event] := happends.ingestEvents
    refine ⟨⟨by rwa [happends.ingestEvents], ?_, ?_, happends.keyed hkeyed⟩, ?_⟩
    · rw [hledger, List.filter_append, happends.messages]
      have hold := hmessages e' happends.accounts happends.conversations
      simpa [hmessage, withLedger] using
        forall₂_concat hold ⟨atom, x, rows, hrecords, hrows, happends.stored⟩
    · rw [hledger, List.filter_append, happends.statusEvents]
      simpa [hstatus, withLedger] using h.statuses
    · intro key
      rw [← hrecorded key, Recorded, happends.ingestEvents]
      rfl
  | @status rows status hstored hsame =>
    obtain ⟨hmessage, hstatus⟩ := hshape
    subst hsame
    refine ⟨⟨hkeys, ?_, ?_, { hkeyed with }⟩, hrecorded⟩
    · have hold := hmessages { withLedger e event with
        statusEvents := (withLedger e event).statusEvents ++ [status] } (fun _ ha => ha)
        (fun _ hc => hc)
      simpa [withLedger, List.filter_append, hmessage] using hold
    · have hnew := forall₂_concat h.statuses ⟨atom, x, rows, hrecords, hrows, hstored⟩
      simpa [withLedger, List.filter_append, hstatus] using hnew
  | none hsame =>
    obtain ⟨hmessage, hstatus⟩ := hshape
    subst hsame
    refine ⟨⟨hkeys, ?_, ?_, hkeyed⟩, hrecorded⟩
    · have hold := hmessages (withLedger e event) (fun _ ha => ha) (fun _ hc => hc)
      simpa [withLedger, List.filter_append, hmessage] using hold
    · have hold := h.statuses
      simpa [withLedger, List.filter_append, hstatus] using hold

/-! ## The invariant of a run -/

/-- An atom with this key went through the loop, and its transaction was committed. -/
def Processed (log : List Event) (key : String) : Prop := .stored key ∈ log ∨ .deduped key ∈ log

lemma Processed.mono {log log' : List Event} (hlog : log ⊆ log') {key : String}
    (h : Processed log key) : Processed log' key :=
  h.imp (fun hstored => hlog hstored) fun hdeduped => hlog hdeduped

/-- What holds between two calls and between two atoms of one.  Statements on the search tables, the
dead-letter queue and the breaker may be pending in the open transaction, statements on the evidence
never are. -/
structure Kept (P : Platform) (S : Stdlib) (log : List Event) (d : Daemon) : Prop where
  settled : d.vault.working.evidence = d.vault.durable.evidence
  pending : d.vault.durable.ingestDlq ⊆ d.vault.working.ingestDlq
  mirrored : Mirrored P S d.vault.durable.evidence
  processed : ∀ key, Recorded d.vault.durable.evidence key ↔ Processed log key
  quarantined : ∀ envelope, .quarantined envelope ∈ log →
    ∃ row ∈ d.vault.durable.ingestDlq, row.envelope = envelope

lemma Kept.start : Kept P S [] start where
  settled := rfl
  pending := fun _ h => h
  mirrored := .empty
  processed := by simp [Recorded, Processed, Ingest.start, Vault.empty]
  quarantined := by simp

/-- A step that leaves the committed evidence as it was, loses no row of the dead-letter queue, and
emits nothing about atoms it did not find in the ledger. -/
lemma Kept.of_same {log rest : List Event} {d d' : Daemon} (h : Kept P S log d)
    (hdurable : d'.vault.durable.evidence = d.vault.durable.evidence)
    (hworking : d'.vault.working.evidence = d.vault.durable.evidence)
    (hdlq : d.vault.durable.ingestDlq ⊆ d'.vault.durable.ingestDlq)
    (hpending : d'.vault.durable.ingestDlq ⊆ d'.vault.working.ingestDlq)
    (hprocessed : ∀ key, Processed rest key → Recorded d.vault.durable.evidence key)
    (hquarantined : ∀ envelope, .quarantined envelope ∈ rest →
      ∃ row ∈ d'.vault.durable.ingestDlq, row.envelope = envelope) :
    Kept P S (log ++ rest) d' where
  settled := by rw [hworking, hdurable]
  pending := hpending
  mirrored := by rw [hdurable]; exact h.mirrored
  processed key := by
    have hold := h.processed key
    have hnew := hprocessed key
    rw [hdurable]
    simp only [Processed, List.mem_append] at hold hnew ⊢
    tauto
  quarantined envelope hmem := by
    rcases List.mem_append.mp hmem with hold | hnew
    · obtain ⟨row, hrow, heq⟩ := h.quarantined envelope hold
      exact ⟨row, hdlq hrow, heq⟩
    · exact hquarantined envelope hnew

lemma Kept.rollback {log : List Event} {d : Daemon} (h : Kept P S log d)
    (control : Conn Control) : Kept P S log ⟨d.vault.rollback, control⟩ := by
  have hsame : Kept P S (log ++ []) ⟨d.vault.rollback, control⟩ :=
    h.of_same rfl rfl (fun _ hrow => hrow) (fun _ hrow => hrow) (by simp [Processed]) (by simp)
  rwa [List.append_nil] at hsame

section Steps

variable {N : Search.Normaliser} {C : Sealed.Primitives} {log : List Event} {d : Daemon}

theorem Kept.processAtom (h : Kept P S log d) (now : ℤ) (ids : AtomIds) (faults : AtomFaults)
    (atom : Atom) :
    Kept P S (log ++ (processAtom P S N now ids faults atom d).2.2)
      (processAtom P S N now ids faults atom d).1 := by
  have hcases := processAtom_cases P S N now ids faults atom d
  generalize Ingest.processAtom P S N now ids faults atom d = result at hcases ⊢
  cases hcases with
  | undecodable => simpa using h
  | failed control => simpa using h.rollback control
  | @duplicate x hdecoded hrecorded =>
    rw [h.settled] at hrecorded
    refine h.of_same h.settled h.settled h.pending (fun _ hrow => hrow) ?_ (by simp)
    rintro key (hkey | hkey)
    · simp at hkey
    · simp only [List.mem_singleton, Event.deduped.injEq] at hkey
      rwa [hkey]
  | @stored x event evidence applied hrecords hfresh hstores after hafter =>
    rw [h.settled] at hfresh hstores
    obtain ⟨hmirrored, hrecorded⟩ := h.mirrored.stores hrecords hfresh hstores
    have hrest : after.1.vault.Holds fun v =>
        v.evidence = evidence ∧ v.ingestDlq = d.vault.working.ingestDlq := by
      rw [hafter]
      exact holds_afterCommit (fun _ _ hv => hv) (Conn.holds_clean ⟨rfl, rfl⟩)
    obtain ⟨⟨hdurable, hdlq⟩, hworking, hdlq'⟩ := hrest
    exact
      { settled := by rw [hworking, hdurable]
        pending := by rw [hdlq, hdlq']; exact fun _ hrow => hrow
        mirrored := by rwa [hdurable]
        processed := by
          intro key
          rw [hdurable, hrecorded, h.processed key]
          simp only [Processed, List.mem_append, List.mem_singleton, Event.stored.injEq,
            reduceCtorEq, or_false]
          tauto
        quarantined := by
          intro envelope hmem
          simp only [List.mem_append, List.mem_singleton, reduceCtorEq, or_false] at hmem
          obtain ⟨row, hrow, heq⟩ := h.quarantined envelope hmem
          exact ⟨row, by rw [hdlq]; exact h.pending hrow, heq⟩ }

theorem Kept.processPayload (h : Kept P S log d) (now : ℤ) (ids : ℕ → AtomIds)
    (faults : ℕ → AtomFaults) (plaintext : Bytes) :
    Kept P S (log ++ (processPayload P S N now ids faults plaintext d).2.2)
      (processPayload P S N now ids faults plaintext d).1 := by
  unfold Ingest.processPayload
  split
  · simpa using h
  · exact processAtoms_invariant now ids faults _ 0 (J := Kept P S)
      (fun log j atom d _ hd => hd.processAtom now (ids (0 + j)) (faults (0 + j)) atom) log h

/-- A write that touches the dead-letter queue or the breaker, with its commit. -/
lemma Kept.disposes {f : Vault → Option Vault} {disposition : Disposition} {rest : List Event}
    {result : Step Disposition} (h : Kept P S log d)
    (hf : ∀ v v', f v = some v' → v'.evidence = v.evidence ∧ v.ingestDlq ⊆ v'.ingestDlq ∧
      ∀ envelope, .quarantined envelope ∈ rest → ∃ row ∈ v'.ingestDlq, row.envelope = envelope)
    (hrest : ∀ key, ¬ Processed rest key) (hresult : Disposes f disposition rest d result) :
    Kept P S (log ++ result.2.2) result.1 := by
  cases hresult with
  | written hwrote =>
    obtain ⟨hevidence, hdlq, hquarantined⟩ := hf _ _ hwrote
    have heq := hevidence.trans h.settled
    exact h.of_same heq heq (fun _ hrow => hdlq (h.pending hrow)) (fun _ hrow => hrow)
      (fun key hkey => absurd hkey (hrest key)) hquarantined
  | uncommitted hwrote =>
    obtain ⟨hevidence, hdlq, -⟩ := hf _ _ hwrote
    exact h.of_same rfl (hevidence.trans h.settled) (fun _ hrow => hrow)
      (fun _ hrow => hdlq (h.pending hrow)) (by simp [Processed]) (by simp)
  | refused => simpa using h
  | crashed => simpa [Daemon.restart] using h.rollback d.control.rollback

theorem Kept.handleLease (h : Kept P S log d) (r : Drain) (lease : Lease) (health : List ℕ) :
    Kept P S (log ++ (handleLease P S N C r lease health d).2.2)
      (handleLease P S N C r lease health d).1 := by
  have hcases := handleLease_cases P S N C r lease health d
  generalize Ingest.handleLease P S N C r lease health d = result at hcases ⊢
  cases hcases with
  | raised => simpa using h
  | unavailable =>
    exact h.of_same rfl h.settled (fun _ hrow => hrow) h.pending (by simp [Processed]) (by simp)
  | quarantines hdisposes =>
    refine h.disposes (fun v v' hv => ?_) (by simp [Processed]) hdisposes
    obtain ⟨row, hrow, rfl⟩ := quarantine_eq_some hv
    refine ⟨rfl, List.subset_append_left _ _, fun envelope hmem => ⟨row, by simp, ?_⟩⟩
    obtain rfl : envelope = lease.body := by simpa using hmem
    exact hrow
  | trips hdisposes =>
    refine h.disposes (fun v v' hv => ?_) (by simp [Processed]) hdisposes
    obtain ⟨circuit, rfl⟩ := trip_eq_some hv
    exact ⟨rfl, fun _ hrow => hrow, by simp⟩
  | @processed plaintext header after rest hopened hran =>
    have hpayload := h.processPayload (N := N) r.now lease.ids lease.faults plaintext
    rwa [hran] at hpayload
  | @nacked plaintext header after rest hopened hran =>
    have hpayload := h.processPayload (N := N) r.now lease.ids lease.faults plaintext
    rw [hran] at hpayload
    have hend : Kept P S ((log ++ rest) ++ [.nacked lease.leaseId]) after :=
      hpayload.of_same rfl hpayload.settled (fun _ hrow => hrow) hpayload.pending
        (by simp [Processed]) (by simp)
    rwa [List.append_assoc] at hend
  | @died plaintext header after rest hopened hran =>
    have hpayload := h.processPayload (N := N) r.now lease.ids lease.faults plaintext
    rwa [hran] at hpayload

lemma Kept.acks (h : Kept P S log d) (acks : List Ack) :
    Kept P S (log ++ acks.map .acked) d :=
  h.of_same rfl h.settled (fun _ hrow => hrow) h.pending (by simp [Processed]) (by simp)

theorem Kept.step (h : Kept P S log d) (op : Op) :
    Kept P S (log ++ (step P S N C d op).2) (step P S N C d op).1 := by
  cases op with
  | drain r =>
    exact drainOnce_invariant (J := Kept P S)
      (fun log health lease _ d hd => hd.handleLease r lease health)
      (fun log d acks hd => hd.acks acks) log h
  | restart => simpa [Ingest.step, Daemon.restart] using h.rollback d.control.rollback
  | resetCircuit =>
    exact h.of_same rfl h.settled (fun _ hrow => hrow) h.pending (by simp [Ingest.step, Processed])
      (by simp [Ingest.step])

end Steps

/-! ## Acknowledgements -/

/-- What the acknowledgement of an envelope rests on: either every atom of the plaintext it was
opened to has a recorded key, or the envelope was quarantined. -/
def Rests (P : Platform) (S : Stdlib) (C : Sealed.Primitives) (recorded : String → Prop)
    (quarantined : Prop) (envelope : Bytes) : Option Bytes → Prop
  | some plaintext =>
    (∃ keyLookup header, Sealed.openSealed P C keyLookup envelope = .opened plaintext header) ∧
    ∃ atoms, payloadAtoms S plaintext = some atoms ∧
      ∀ atom ∈ atoms, ∃ x, decode P S atom = some x ∧ recorded x.key
  | none => quarantined

/-- A committed vault in which an acknowledged envelope is safe. -/
def Secured (P : Platform) (S : Stdlib) (C : Sealed.Primitives) (v : Vault) (ack : Ack) : Prop :=
  Rests P S C (Recorded v.evidence) (∃ row ∈ v.ingestDlq, row.envelope = ack.envelope)
    ack.envelope ack.payload

section Acks

variable {N : Search.Normaliser} {C : Sealed.Primitives}

lemma Rests.mono {recorded recorded' : String → Prop} {quarantined quarantined' : Prop}
    (hrecorded : ∀ key, recorded key → recorded' key) (hquarantined : quarantined → quarantined')
    {envelope : Bytes} {payload : Option Bytes}
    (h : Rests P S C recorded quarantined envelope payload) :
    Rests P S C recorded' quarantined' envelope payload := by
  cases payload with
  | none => exact hquarantined h
  | some plaintext =>
    obtain ⟨hopened, atoms, hatoms, hall⟩ := h
    refine ⟨hopened, atoms, hatoms, fun atom hatom => ?_⟩
    obtain ⟨x, hx, hkey⟩ := hall atom hatom
    exact ⟨x, hx, hrecorded x.key hkey⟩

/-- A turn of the loop that comes to its end leaves an event with the key of the atom. -/
lemma processAtom_done (now : ℤ) (ids : AtomIds) (faults : AtomFaults) (atom : Atom) (d : Daemon)
    (h : (processAtom P S N now ids faults atom d).2.1 = .done ()) :
    ∃ x, decode P S atom = some x ∧
      Processed (processAtom P S N now ids faults atom d).2.2 x.key := by
  have hcases := processAtom_cases P S N now ids faults atom d
  generalize Ingest.processAtom P S N now ids faults atom d = result at hcases h ⊢
  cases hcases with
  | undecodable => cases h
  | failed control hended => rcases hended with ⟨rfl, -⟩ | ⟨rfl, -⟩ <;> cases h
  | @duplicate x hdecoded => exact ⟨x, hdecoded, .inr (by simp)⟩
  | @stored x event evidence applied hrecords => exact ⟨x, hrecords.decoded, .inl (by simp)⟩

lemma processAtoms_done {now : ℤ} {ids : ℕ → AtomIds} {faults : ℕ → AtomFaults}
    (atoms : List Atom) (i : ℕ) (d : Daemon)
    (h : (processAtoms P S N now ids faults i atoms d).2.1 = .done ()) :
    ∀ atom ∈ atoms, ∃ x, decode P S atom = some x ∧
      Processed (processAtoms P S N now ids faults i atoms d).2.2 x.key := by
  induction atoms generalizing i d with
  | nil => simp
  | cons first atoms ih =>
    have hfirst := processAtom_done (P := P) (S := S) (N := N) now (ids i) (faults i) first d
    rcases hrun : processAtom P S N now (ids i) (faults i) first d with ⟨d₁, ⟨⟩ | _ | _, log₁⟩
    · rw [hrun] at hfirst
      simp only [processAtoms, hrun] at h ⊢
      intro atom hatom
      rcases List.mem_cons.mp hatom with rfl | htail
      · obtain ⟨x, hx, hkey⟩ := hfirst rfl
        exact ⟨x, hx, hkey.mono (List.subset_append_left _ _)⟩
      · obtain ⟨x, hx, hkey⟩ := ih (i + 1) d₁ h atom htail
        exact ⟨x, hx, hkey.mono (List.subset_append_right _ _)⟩
    · simp [processAtoms, hrun] at h
    · simp [processAtoms, hrun] at h

lemma handleLease_ack {r : Drain} {lease : Lease} {health : List ℕ} {d : Daemon}
    {payload : Option Bytes}
    (h : (handleLease P S N C r lease health d).2.1 = .done (.ack payload)) :
    Rests P S C (Processed (handleLease P S N C r lease health d).2.2)
      (.quarantined lease.body ∈ (handleLease P S N C r lease health d).2.2) lease.body payload := by
  have hcases := handleLease_cases P S N C r lease health d
  generalize Ingest.handleLease P S N C r lease health d = result at hcases h ⊢
  cases hcases with
  | raised => cases h
  | unavailable => cases h
  | quarantines hdisposes =>
    cases hdisposes with
    | written =>
      cases h
      exact List.mem_singleton_self _
    | uncommitted => cases h
    | refused => cases h
    | crashed => cases h
  | trips hdisposes => cases hdisposes <;> cases h
  | @processed plaintext header after rest hopened hran =>
    cases h
    refine ⟨⟨r.keyLookup, header, hopened⟩, ?_⟩
    unfold Ingest.processPayload at hran
    split at hran
    · cases hran
    · rename_i atoms hatoms
      have hend : (processAtoms P S N r.now lease.ids lease.faults 0 atoms d).2.1 = .done () := by
        rw [hran]
      have hdone := processAtoms_done atoms 0 d hend
      rw [hran] at hdone
      exact ⟨atoms, hatoms, hdone⟩
  | nacked => cases h
  | died => cases h

theorem acked_step {d : Daemon} (op : Op) {ack : Ack} (h : .acked ack ∈ (step P S N C d op).2) :
    Rests P S C (Processed (step P S N C d op).2)
      (.quarantined ack.envelope ∈ (step P S N C d op).2) ack.envelope ack.payload := by
  obtain ⟨r, -, lease, -, hbody, keys, before, hlease, hlog⟩ := acked_of_step h
  rw [← hbody]
  exact (handleLease_ack hlease).mono (fun key hkey => hkey.mono hlog) fun hq => hlog hq

/-- Every acknowledgement of a run rests on what the run emitted. -/
theorem acked_events {d : Daemon} {ops : List Op} {ack : Ack}
    (h : .acked ack ∈ Run.events (step P S N C) d ops) :
    Rests P S C (Processed (Run.events (step P S N C) d ops))
      (.quarantined ack.envelope ∈ Run.events (step P S N C) d ops) ack.envelope ack.payload := by
  induction ops generalizing d with
  | nil => simp at h
  | cons op ops ih =>
    rw [Run.events_cons] at h ⊢
    rcases List.mem_append.mp h with hhere | hlater
    · exact (acked_step _ hhere).mono (fun key hkey => hkey.mono (List.subset_append_left _ _))
        fun hq => List.mem_append_left _ hq
    · exact (ih hlater).mono (fun key hkey => hkey.mono (List.subset_append_right _ _))
        fun hq => List.mem_append_right _ hq

end Acks

/-! ## Exactly once -/

/-- The phone number of the account a message belongs to. -/
def phoneNumber (e : Evidence) (m : Message) : Option String :=
  (Table.find Account.id m.accountId e.accounts).map Account.phoneNumberId

/-- The evidence holds what was processed, once: a ledger row for each key, a message row for each
message in the ledger, a status row for each status in it, and no other message or status.  A
message that has a wamid is the only one with its phone number and wamid. -/
structure ExactlyOnce (P : Platform) (S : Stdlib) (log : List Event) (e : Evidence) : Prop where
  distinct : (e.ingestEvents.map IngestEvent.semanticEventKey).Nodup
  processed : ∀ key, key ∈ e.ingestEvents.map IngestEvent.semanticEventKey ↔ Processed log key
  messages : List.Forall₂ (StoresMessage P S e)
    (e.ingestEvents.filter fun event => isMessage event.family) e.messages
  statuses : List.Forall₂ (StoresStatus P S)
    (e.ingestEvents.filter fun event => isStatus event.family) e.statusEvents
  only : ∀ m ∈ e.messages, m.wamid ≠ none → (e.messages.filter fun other =>
    phoneNumber e other = phoneNumber e m ∧ other.wamid = m.wamid) = [m]

lemma Mirrored.account {e : Evidence} (h : Mirrored P S e) {m : Message} (hm : m ∈ e.messages) :
    ∃ phone, ⟨m.accountId, phone⟩ ∈ e.accounts ∧ phoneNumber e m = some phone := by
  obtain ⟨event, -, atom, x, rows, -, -, hstored⟩ := exists_left_of_forall₂ h.messages hm
  obtain ⟨phone, -, haccount⟩ := hstored.account
  refine ⟨phone, haccount, ?_⟩
  rw [phoneNumber, h.keyed.accountIds.find_eq_some_iff.mpr ⟨haccount, rfl⟩]
  rfl

/-- Under the constraints of the tables no two messages share a phone number and a wamid. -/
lemma Mirrored.only {e : Evidence} (h : Mirrored P S e) {m : Message} (hm : m ∈ e.messages)
    (hwamid : m.wamid ≠ none) : (e.messages.filter fun other =>
      phoneNumber e other = phoneNumber e m ∧ other.wamid = m.wamid) = [m] := by
  have hnodup : e.messages.Nodup := List.Nodup.of_map _ h.keyed.messageIds
  refine List.perm_singleton.mp ((List.perm_ext_iff_of_nodup (hnodup.filter _)
    (List.nodup_singleton m)).mpr fun other => ?_)
  simp only [List.mem_filter, decide_eq_true_eq, List.mem_singleton]
  constructor
  · rintro ⟨hother, hphone, heq⟩
    obtain ⟨phone, haccount, hm'⟩ := h.account hm
    obtain ⟨phone', haccount', hother'⟩ := h.account hother
    obtain rfl : phone' = phone := by
      rw [hm', hother'] at hphone
      exact Option.some.inj hphone
    have hsame := h.keyed.accountPhones.eq_of_key_eq haccount' haccount rfl
    have haccountId : other.accountId = m.accountId := congrArg Account.id hsame
    exact h.keyed.wamids other hother m hm (heq ▸ hwamid) haccountId heq
  · rintro rfl
    exact ⟨hm, rfl, rfl⟩

theorem Kept.exactlyOnce {log : List Event} {d : Daemon} (h : Kept P S log d) :
    ExactlyOnce P S log d.vault.durable.evidence where
  distinct := h.mirrored.keys
  processed key := by
    rw [← h.processed key, List.mem_map]
    rfl
  messages := h.mirrored.messages
  statuses := h.mirrored.statuses
  only _ hm := h.mirrored.only hm

lemma kept_of_run {N : Search.Normaliser} {C : Sealed.Primitives} (ops : List Op) :
    Kept P S (Run.events (step P S N C) start ops) (Run.final (step P S N C) start ops) := by
  have hmeets : Run.Meets (step P S N C) (fun _ _ => True) start ops :=
    Run.meets_of_forall (fun _ _ => trivial) start ops
  have hrun := Run.log_invariant_of_meets (J := Kept P S) (fun log d op hd _ => hd.step op) .start
    hmeets
  rwa [List.nil_append] at hrun

/-- Exactly-once evidence and the acknowledgement invariant, over every run of the consumer.  A
crash at any point ends a run, so the committed state at the end of every run is every committed
state. -/
theorem evidence_exactly_once (P : Platform) (S : Stdlib) (N : Search.Normaliser)
    (C : Sealed.Primitives) (ops : List Op) :
    ExactlyOnce P S (Run.events (step P S N C) start ops)
      (Run.final (step P S N C) start ops).vault.durable.evidence ∧
    ∀ ack, .acked ack ∈ Run.events (step P S N C) start ops →
      Secured P S C (Run.final (step P S N C) start ops).vault.durable ack := by
  have hkept : Kept P S (Run.events (step P S N C) start ops)
      (Run.final (step P S N C) start ops) := kept_of_run ops
  refine ⟨hkept.exactlyOnce, fun ack hacked => ?_⟩
  exact (acked_events hacked).mono (fun key hkey => (hkept.processed key).mpr hkey)
    (hkept.quarantined ack.envelope)

end WhatsVault.Ingest
