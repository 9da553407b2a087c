import Mathlib.Logic.Basic
import WhatsVault.Ingest.Disposition

/-!
# The ends of the leases of a batch

`drain_once` counts what becomes of the leases it took: each is acknowledged or handed back, until
one trips the breaker, which stays leased with those after it.  `Disposed` is that account.  The
loop knows three exceptions of `open_sealed`; the point of low order, whose exchange raises a
fourth, gets through it (`LowOrder`), and then nothing of the batch is acknowledged or reported.
-/

namespace WhatsVault.Ingest

open Transaction

/-! ## The counts -/

/-- The dict `drain_once` returns, but for `acked` and `circuit`. -/
structure Counts where
  leased : ℕ
  poison : ℕ
  transient : ℕ
  systemic : ℕ
  durable : ℕ
  deriving DecidableEq, Repr

/-- What `drain_once` returns; `refused` is its return before any lease is taken. -/
inductive Report
  | refused
  | drained (counts : Counts) (acked : ℕ) (circuitOpen : Bool)
  deriving DecidableEq, Repr

section Counting

variable (P : Platform) (S : Stdlib) (N : Search.Normaliser) (C : Sealed.Primitives)

/-- The increments of one turn of the loop that ended in a disposition. -/
def countLease (r : Drain) (lease : Lease) (health : List ℕ) (disposition : Disposition)
    (counts : Counts) : Counts :=
  match Sealed.openSealed P C r.keyLookup lease.body, disposition with
  | .raised, _ => counts
  | .keyUnavailable, _ => { counts with transient := counts.transient + 1 }
  | .badEnvelope, _ => { counts with poison := counts.poison + 1 }
  | .authFailed, _ =>
    if (Sealed.parseHeader P lease.body).elim 0 Sealed.Header.recipientKeyId ∈ health then
      { counts with poison := counts.poison + 1 }
    else { counts with systemic := counts.systemic + 1 }
  | .opened .., .ack _ => { counts with durable := counts.durable + 1 }
  | .opened .., _ => { counts with transient := counts.transient + 1 }

/-- The counts after the loop. -/
def countLoop (r : Drain) : List Lease → List ℕ → Daemon → Counts → Counts
  | [], _, _, counts => counts
  | lease :: leases, health, d, counts =>
    match handleLease P S N C r lease health d with
    | (_, .crashed, _) => counts
    | (_, .raised, _) => counts
    | (_, .done .halt, _) => countLease P C r lease health .halt counts
    | (d, .done disposition, _) =>
      countLoop r leases (healthAfter P C r lease health) d
        (countLease P C r lease health disposition counts)

/-- What `drain_once` returns, `none` where an exception leaves it. -/
def drainReport (r : Drain) (d : Daemon) : Option Report :=
  if d.vault.working.circuit ≠ .closed then some .refused
  else
    match drainLoop P S N C r r.leases r.keyHealth d with
    | (after, .done acks, _) =>
      let counts := countLoop P S N C r r.leases r.keyHealth d ⟨r.leases.length, 0, 0, 0, 0⟩
      some (.drained counts acks.length (decide (after.vault.working.circuit ≠ .closed)))
    | _ => none

end Counting

/-! ## The account -/

/-- What `queue.ack` was given. -/
def acksOf (log : List Event) : List Ack :=
  log.filterMap fun
    | .acked ack => some ack
    | _ => none

/-- The ids that `queue.nack` was given. -/
def nackedIds (log : List Event) : List String :=
  log.filterMap fun
    | .nacked leaseId => some leaseId
    | _ => none

lemma acksOf_append (log rest : List Event) : acksOf (log ++ rest) = acksOf log ++ acksOf rest :=
  List.filterMap_append ..

lemma nackedIds_append (log rest : List Event) :
    nackedIds (log ++ rest) = nackedIds log ++ nackedIds rest := List.filterMap_append ..

lemma acksOf_map (acks : List Ack) : acksOf (acks.map .acked) = acks := by
  simp [acksOf, List.filterMap_map]

lemma nackedIds_map (acks : List Ack) : nackedIds (acks.map .acked) = [] := by
  simp [nackedIds, List.filterMap_map]

lemma acksOf_eq_nil {log : List Event} (h : ∀ ack, .acked ack ∉ log) : acksOf log = [] := by
  rw [acksOf, List.filterMap_eq_nil_iff]
  intro event hevent
  cases event with
  | acked ack => exact absurd hevent (h ack)
  | stored | deduped | quarantined | nacked => rfl

lemma nackedIds_eq_nil {log : List Event} (h : ∀ id, .nacked id ∉ log) : nackedIds log = [] := by
  rw [nackedIds, List.filterMap_eq_nil_iff]
  intro event hevent
  cases event with
  | nacked id => exact absurd hevent (h id)
  | stored | deduped | quarantined | acked => rfl

/-- A lease whose tag fails under a key that is not known to be healthy. -/
def Trips (P : Platform) (C : Sealed.Primitives) (r : Drain) (lease : Lease) (health : List ℕ) :
    Prop :=
  Sealed.openSealed P C r.keyLookup lease.body = .authFailed ∧
    (Sealed.parseHeader P lease.body).elim 0 Sealed.Header.recipientKeyId ∉ health

/-- The key ids healthy after some leases. -/
def healthAfterAll (P : Platform) (C : Sealed.Primitives) (r : Drain) (leases : List Lease)
    (health : List ℕ) : List ℕ :=
  leases.foldl (fun health lease => healthAfter P C r lease health) health

/-- The account of a batch: `handled` are the leases that came to an end, `kept` those left
leased. -/
structure Disposed (P : Platform) (C : Sealed.Primitives) (r : Drain) (log : List Event)
    (counts : Counts) (acked : ℕ) (circuitOpen : Bool) (handled kept : List Lease) : Prop where
  batch : r.leases = handled ++ kept
  /-- Acknowledged or handed back are the handled leases, each as often as it was leased. -/
  ends : ((acksOf log).map Ack.leaseId ++ nackedIds log).Perm (handled.map Lease.leaseId)
  /-- What is left starts at the lease that tripped the breaker. -/
  tripped : ∀ lease ∈ kept.head?, Trips P C r lease (healthAfterAll P C r handled r.keyHealth)
  leased : counts.leased = r.leases.length
  acked : acked = (acksOf log).length
  durable : counts.durable = (acksOf log).countP fun ack => ack.payload.isSome
  poison : counts.poison = (acksOf log).countP fun ack => ack.payload.isNone
  transient : counts.transient = (nackedIds log).length
  systemic : counts.systemic = if kept = [] then 0 else 1
  circuit : circuitOpen = true ↔ kept ≠ []

/-- Where the leases have ids of their own, each ends in exactly one way. -/
theorem Disposed.exactly_one {P : Platform} {C : Sealed.Primitives} {r : Drain} {log : List Event}
    {counts : Counts} {acked : ℕ} {circuitOpen : Bool} {handled kept : List Lease}
    (h : Disposed P C r log counts acked circuitOpen handled kept)
    (hids : (r.leases.map Lease.leaseId).Nodup) :
    (∀ lease ∈ handled,
      Xor (lease.leaseId ∈ (acksOf log).map Ack.leaseId) (lease.leaseId ∈ nackedIds log)) ∧
    ∀ lease ∈ kept,
      lease.leaseId ∉ (acksOf log).map Ack.leaseId ∧ lease.leaseId ∉ nackedIds log := by
  rw [h.batch, List.map_append, List.nodup_append] at hids
  obtain ⟨hhandled, -, hdisjoint⟩ := hids
  have hnodup := h.ends.nodup_iff.mpr hhandled
  rw [List.nodup_append] at hnodup
  constructor
  · intro lease hlease
    have hmem := h.ends.mem_iff.mpr (List.mem_map_of_mem hlease)
    rcases List.mem_append.mp hmem with hacked | hnacked
    · exact .inl ⟨hacked, fun hnacked => hnodup.2.2 _ hacked _ hnacked rfl⟩
    · exact .inr ⟨hnacked, fun hacked => hnodup.2.2 _ hacked _ hnacked rfl⟩
  · intro lease hlease
    have hnot : lease.leaseId ∉ handled.map Lease.leaseId := fun hmem =>
      hdisjoint _ hmem _ (List.mem_map_of_mem hlease) rfl
    rw [← h.ends.mem_iff, List.mem_append, not_or] at hnot
    exact hnot

/-- The call returns, and its report is the account of what it did. -/
def DisposesOfAll (P : Platform) (S : Stdlib) (N : Search.Normaliser) (C : Sealed.Primitives)
    (r : Drain) (d : Daemon) : Prop :=
  ∃ counts acked circuitOpen handled kept,
    drainReport P S N C r d = some (.drained counts acked circuitOpen) ∧
      Disposed P C r (drainOnce P S N C r d).2 counts acked circuitOpen handled kept

/-! ## One turn of the loop -/

variable {P : Platform} {S : Stdlib} {N : Search.Normaliser} {C : Sealed.Primitives} {r : Drain}

/-- What all but the breaker and the dead-letter queue keep, a payload keeps. -/
lemma vault_processPayload {I : Vault → Prop}
    (hevidence : ∀ (v : Vault) e, I v → I { v with evidence := e })
    (hsearch : ∀ (v : Vault) s, I v → I { v with search := s }) (now : ℤ) (ids : ℕ → AtomIds)
    (faults : ℕ → AtomFaults) (plaintext : Bytes) {d : Daemon} (h : d.vault.Holds I) :
    (processPayload P S N now ids faults plaintext d).1.vault.Holds I := by
  unfold processPayload
  split
  · exact h
  · rename_i atoms _
    apply processAtoms_invariant now ids faults atoms 0 (J := fun _ d => d.vault.Holds I) _ [] h
    intro log j atom d₁ _ hd
    have hcases := processAtom_cases P S N now (ids (0 + j)) (faults (0 + j)) atom d₁
    generalize processAtom P S N now (ids (0 + j)) (faults (0 + j)) atom d₁ = result at hcases ⊢
    cases hcases with
    | undecodable => exact hd
    | failed => exact hd.rollback
    | duplicate => exact Conn.holds_clean hd.2
    | stored _ _ _ hafter =>
      rw [hafter]
      exact holds_afterCommit hsearch (Conn.holds_clean (hevidence _ _ hd.2))

/-- A payload hands no lease back. -/
lemma processPayload_nacked (id : String) (now : ℤ) (ids : ℕ → AtomIds) (faults : ℕ → AtomFaults)
    (plaintext : Bytes) (d : Daemon) :
    .nacked id ∉ (processPayload P S N now ids faults plaintext d).2.2 := by
  unfold processPayload
  split
  · simp
  · rename_i atoms _
    have hquiet := processAtoms_invariant (P := P) (S := S) (N := N) now ids faults atoms 0
      (J := fun log _ => .nacked id ∉ log) (d := d) ?_ [] (by simp)
    · simpa using hquiet
    · intro log j atom d₁ _ hlog
      have hcases := processAtom_cases P S N now (ids (0 + j)) (faults (0 + j)) atom d₁
      generalize processAtom P S N now (ids (0 + j)) (faults (0 + j)) atom d₁ = result at hcases ⊢
      cases hcases <;> simpa using hlog

def Closed (v : Vault) : Prop := v.circuit = .closed

/-- The three ways a lease is disposed of while the breaker is closed, with what is counted. -/
inductive Turn (P : Platform) (C : Sealed.Primitives) (r : Drain) (lease : Lease) (health : List ℕ)
    (counts : Counts) : Step Disposition → Prop
  | acks {after : Daemon} {payload : Option Bytes} {log : List Event}
      (passes : PassesOn P C r lease health)
      (quiet : nackedIds log = []) (closed : after.vault.Holds Closed)
      (counted : countLease P C r lease health (.ack payload) counts =
        if payload.isSome then { counts with durable := counts.durable + 1 }
        else { counts with poison := counts.poison + 1 }) :
      Turn P C r lease health counts (after, .done (.ack payload), log)
  | nacks {after : Daemon} {log : List Event} (passes : PassesOn P C r lease health)
      (named : nackedIds log = [lease.leaseId]) (closed : after.vault.Holds Closed)
      (counted : countLease P C r lease health .nack counts =
        { counts with transient := counts.transient + 1 }) :
      Turn P C r lease health counts (after, .done .nack, log)
  | halts {after : Daemon} (trips : Trips P C r lease health)
      (opened : after.vault.working.circuit ≠ .closed)
      (counted : countLease P C r lease health .halt counts =
        { counts with systemic := counts.systemic + 1 }) :
      Turn P C r lease health counts (after, .done .halt, [])

/-- A quarantine and its commit, when the storage does not fail. -/
lemma disposeAfter_quarantine {envelope : Bytes} {failureClass failureCode : String}
    {disposition : Disposition} {log : List Event} {d : Daemon} (hnow : fitsInt64 r.now = true) :
    ∃ row, disposeAfter none (quarantine P envelope failureClass failureCode r.now)
        disposition log d =
      (⟨.clean { d.vault.working with ingestDlq := d.vault.working.ingestDlq ++ [row] }, d.control⟩,
        .done disposition, log) :=
  ⟨dlqRow P envelope failureClass failureCode r.now, by
    simp [disposeAfter, attempt, quarantine, hnow]⟩

/-- Tripping the breaker, when the storage does not fail. -/
lemma disposeAfter_trip {keyId : ℕ} {disposition : Disposition} {log : List Event} {d : Daemon}
    (hnow : fitsInt64 r.now = true) :
    ∃ reason, disposeAfter none (trip keyId r.now) disposition log d =
      (⟨.clean { d.vault.working with circuit := .tripped r.now reason }, d.control⟩,
        .done disposition, log) :=
  ⟨"systemic decrypt failure key=" ++ toString keyId, by simp [disposeAfter, attempt, trip, hnow]⟩

lemma handleLease_turn {lease : Lease} (health : List ℕ) {d : Daemon} (counts : Counts)
    (hfaultless : Faultless lease) (hnow : fitsInt64 r.now = true) (hclosed : d.vault.Holds Closed)
    (hraised : Sealed.openSealed P C r.keyLookup lease.body ≠ .raised) :
    Turn P C r lease health counts (handleLease P S N C r lease health d) := by
  unfold handleLease
  rcases hopen : Sealed.openSealed P C r.keyLookup lease.body with
    ⟨plaintext, header⟩ | _ | _ | _ | _
  · have hcrashed :
        (processPayload P S N r.now lease.ids lease.faults plaintext d).2.1 ≠ .crashed := by
      unfold processPayload
      split
      · simp
      · exact processAtoms_ne_crashed hfaultless.atoms
    have hkept := vault_processPayload (P := P) (S := S) (N := N) (I := Closed)
      (fun _ _ hv => hv) (fun _ _ hv => hv) r.now lease.ids lease.faults plaintext hclosed
    have hquiet := nackedIds_eq_nil fun id => processPayload_nacked (P := P) (S := S) (N := N) id
      r.now lease.ids lease.faults plaintext d
    have hpasses : PassesOn P C r lease health := ⟨hraised, by simp [hopen]⟩
    dsimp only
    rcases hrun : processPayload P S N r.now lease.ids lease.faults plaintext d with
      ⟨after, ⟨⟩ | _ | _, log⟩ <;> rw [hrun] at hcrashed hkept hquiet
    · exact .acks hpasses hquiet hkept (by simp [countLease, hopen])
    · refine .nacks hpasses ?_ hkept (by simp [countLease, hopen])
      rw [nackedIds_append, hquiet]
      rfl
    · exact absurd rfl hcrashed
  · exact .nacks ⟨hraised, by simp [hopen]⟩ rfl hclosed (by simp [countLease, hopen])
  · dsimp only
    rw [hfaultless.dlq]
    obtain ⟨row, hwrites⟩ := disposeAfter_quarantine (P := P) (d := d) hnow
    rw [hwrites]
    exact .acks ⟨hraised, by simp [hopen]⟩ rfl (Conn.holds_clean hclosed.2)
      (by simp [countLease, hopen])
  · dsimp only
    rw [hfaultless.dlq]
    split
    · rename_i hhealthy
      obtain ⟨row, hwrites⟩ := disposeAfter_quarantine (P := P) (d := d) hnow
      rw [hwrites]
      exact .acks ⟨hraised, fun _ => hhealthy⟩ rfl (Conn.holds_clean hclosed.2)
        (by simp [countLease, hopen, hhealthy])
    · rename_i hunhealthy
      obtain ⟨reason, hwrites⟩ := disposeAfter_trip (d := d) hnow
      rw [hwrites]
      exact .halts ⟨hopen, hunhealthy⟩ (by simp) (by simp [countLease, hopen, hunhealthy])
  · exact absurd hopen hraised

/-! ## The loop -/

/-- What the loop has done with a list of leases when it comes to its end. -/
structure Ended (P : Platform) (S : Stdlib) (N : Search.Normaliser) (C : Sealed.Primitives)
    (r : Drain) (leases : List Lease) (health : List ℕ) (d : Daemon) (counts : Counts)
    (acks : List Ack) (handled kept : List Lease) : Prop where
  done : (drainLoop P S N C r leases health d).2.1 = .done acks
  batch : leases = handled ++ kept
  ends : (acks.map Ack.leaseId ++ nackedIds (drainLoop P S N C r leases health d).2.2).Perm
    (handled.map Lease.leaseId)
  tripped : ∀ lease ∈ kept.head?, Trips P C r lease (healthAfterAll P C r handled health)
  counts : countLoop P S N C r leases health d counts =
    { leased := counts.leased
      poison := counts.poison + acks.countP fun ack => ack.payload.isNone
      transient := counts.transient +
        (nackedIds (drainLoop P S N C r leases health d).2.2).length
      systemic := counts.systemic + if kept = [] then 0 else 1
      durable := counts.durable + acks.countP fun ack => ack.payload.isSome }
  circuit : (drainLoop P S N C r leases health d).1.vault.working.circuit ≠ .closed ↔ kept ≠ []

/-- While opening an envelope raises only what the loop knows, the loop comes to its end, and
accounts for every lease. -/
theorem drainLoop_ended (hnow : fitsInt64 r.now = true) {leases : List Lease}
    (hfaultless : ∀ l ∈ leases, Faultless l) {health : List ℕ} {d : Daemon} (counts : Counts)
    (hclosed : d.vault.Holds Closed)
    (hopens : ∀ before lease after, leases = before ++ lease :: after →
      PassAll P C r before health → Sealed.openSealed P C r.keyLookup lease.body ≠ .raised) :
    ∃ acks handled kept, Ended P S N C r leases health d counts acks handled kept := by
  induction leases generalizing health d counts with
  | nil =>
    refine ⟨[], [], [], rfl, rfl, .refl _, by simp, by simp [countLoop, drainLoop, nackedIds], ?_⟩
    simp [drainLoop, show d.vault.working.circuit = .closed from hclosed.2]
  | cons lease leases ih =>
    have hturn := handleLease_turn (S := S) (N := N) health counts
      (hfaultless lease List.mem_cons_self) hnow hclosed (hopens [] lease leases rfl trivial)
    generalize hrun : handleLease P S N C r lease health d = result at hturn
    have hrest (hpasses : PassesOn P C r lease health) : ∀ before l after,
        leases = before ++ l :: after →
        PassAll P C r before (healthAfter P C r lease health) →
        Sealed.openSealed P C r.keyLookup l.body ≠ .raised := by
      intro before l after hsplit hbefore
      exact hopens (lease :: before) l after (by rw [hsplit, List.cons_append]) ⟨hpasses, hbefore⟩
    cases hturn with
    | @acks after payload log hpasses hquiet hclosed' hcounted =>
      obtain ⟨acks, handled, kept, hended⟩ := ih
        (fun l hl => hfaultless l (List.mem_cons_of_mem _ hl))
        (countLease P C r lease health (.ack payload) counts) hclosed' (hrest hpasses)
      have hloop : drainLoop P S N C r (lease :: leases) health d = _ :=
        drainLoop_cons_of_done hrun (by simp)
      refine ⟨⟨lease.leaseId, lease.body, payload⟩ :: acks, lease :: handled, kept,
        ?_, ?_, ?_, ?_, ?_, ?_⟩
      · rw [hloop]
        simp [hended.done, Outcome.map, toAck]
      · rw [hended.batch, List.cons_append]
      · rw [hloop]
        simpa [nackedIds_append, hquiet] using hended.ends
      · exact hended.tripped
      · simp only [countLoop, hrun]
        rw [hended.counts, hcounted, hloop]
        cases payload <;> simp [nackedIds_append, hquiet] <;> omega
      · rw [hloop]
        exact hended.circuit
    | @nacks after log hpasses hnamed hclosed' hcounted =>
      obtain ⟨acks, handled, kept, hended⟩ := ih
        (fun l hl => hfaultless l (List.mem_cons_of_mem _ hl))
        (countLease P C r lease health .nack counts) hclosed' (hrest hpasses)
      have hloop : drainLoop P S N C r (lease :: leases) health d = _ :=
        drainLoop_cons_of_done hrun (by simp)
      refine ⟨acks, lease :: handled, kept, ?_, ?_, ?_, ?_, ?_, ?_⟩
      · rw [hloop]
        simp [hended.done, Outcome.map, toAck]
      · rw [hended.batch, List.cons_append]
      · rw [hloop]
        simp only [nackedIds_append, hnamed, List.map_cons, List.singleton_append]
        exact List.perm_middle.trans (hended.ends.cons _)
      · exact hended.tripped
      · simp only [countLoop, hrun]
        rw [hended.counts, hcounted, hloop]
        simp [nackedIds_append, hnamed]
        omega
      · rw [hloop]
        exact hended.circuit
    | @halts after htrips hopen hcounted =>
      have hloop : drainLoop P S N C r (lease :: leases) health d = (after, .done [], []) := by
        simp [drainLoop, hrun]
      refine ⟨[], [], lease :: leases, ?_, rfl, ?_, ?_, ?_, ?_⟩
      · rw [hloop]
      · rw [hloop]
        simp [nackedIds]
      · intro l hl
        obtain rfl : lease = l := by simpa using hl
        exact htrips
      · simp [countLoop, hrun, hcounted, hloop, nackedIds]
      · rw [hloop]
        simpa using hopen

/-! ## The point of low order -/

/-- The envelope names a key at hand, and the exchange with the point it carries raises. -/
def LowOrder (P : Platform) (C : Sealed.Primitives) (r : Drain) (lease : Lease) : Prop :=
  ∃ header priv, Sealed.parseHeader P lease.body = some header ∧
    r.keyLookup header.recipientKeyId = some priv ∧
    C.exchange priv (Sealed.slice lease.body Sealed.hdrLen Sealed.ephEnd) = none

lemma openSealed_eq_raised {lease : Lease} :
    Sealed.openSealed P C r.keyLookup lease.body = .raised ↔ LowOrder P C r lease := by
  unfold Sealed.openSealed LowOrder
  rcases hheader : Sealed.parseHeader P lease.body with _ | header
  · simp
  · rcases hpriv : r.keyLookup header.recipientKeyId with _ | priv
    · simp [hpriv]
    · rcases hshared : C.exchange priv (Sealed.slice lease.body Sealed.hdrLen Sealed.ephEnd) with
        _ | shared
      · simp [hpriv, hshared]
      · dsimp only
        rcases hplain : C.decrypt (C.derive shared)
          (Sealed.slice lease.body Sealed.ephEnd Sealed.nonceEnd) (Sealed.ciphertext lease.body)
          (lease.body.take Sealed.hdrLen) with _ | plaintext
        · simp [hpriv, hshared, hplain]
        · simp [hpriv, hshared, hplain]

/-- A low order point that is reached leaves the batch without a report. -/
lemma drainReport_eq_none (hnow : fitsInt64 r.now = true) {d : Daemon}
    (hclosed : d.vault.working.circuit = .closed) {before after : List Lease} {lease : Lease}
    (hfaultless : ∀ l ∈ before, Faultless l) (hbatch : r.leases = before ++ lease :: after)
    (hpass : PassAll P C r before r.keyHealth) (hlow : LowOrder P C r lease) :
    drainReport P S N C r d = none := by
  obtain ⟨keys, acks, log, -, happend⟩ := drainLoop_append (S := S) (N := N) (d := d)
    (lease :: after) hfaultless hnow hpass
  have hraises : (drainLoop P S N C r r.leases r.keyHealth d).2.1 = .raised := by
    rw [hbatch, happend]
    simp [drainLoop, handleLease, openSealed_eq_raised.mpr hlow, Outcome.map]
  unfold drainReport
  rw [if_neg (not_not.mpr hclosed)]
  split
  · rename_i hrun
    rw [hrun] at hraises
    cases hraises
  · rfl

/-! ## The whole call -/

section DrainOnce

variable {d : Daemon} {acks : List Ack}

lemma drainOnce_vault (hclosed : d.vault.working.circuit = .closed) :
    (drainOnce P S N C r d).1 = (drainLoop P S N C r r.leases r.keyHealth d).1 := by
  rw [drainOnce, if_neg (not_not.mpr hclosed)]
  rcases drainLoop P S N C r r.leases r.keyHealth d with ⟨after, ⟨⟩ | _ | _, log⟩ <;> rfl

lemma drainOnce_done (hclosed : d.vault.working.circuit = .closed)
    (hdone : (drainLoop P S N C r r.leases r.keyHealth d).2.1 = .done acks) :
    (drainOnce P S N C r d).2 =
      (drainLoop P S N C r r.leases r.keyHealth d).2.2 ++ acks.map .acked := by
  rcases hrun : drainLoop P S N C r r.leases r.keyHealth d with ⟨after, o, log⟩
  rw [hrun] at hdone
  obtain rfl : o = .done acks := hdone
  simp [drainOnce, hclosed, hrun]

lemma acksOf_drainOnce (hclosed : d.vault.working.circuit = .closed)
    (hdone : (drainLoop P S N C r r.leases r.keyHealth d).2.1 = .done acks) :
    acksOf (drainOnce P S N C r d).2 = acks := by
  have hquiet := acksOf_eq_nil fun ack => drainLoop_acked (P := P) (S := S) (N := N) (C := C) ack
    r r.leases r.keyHealth d
  rw [drainOnce_done hclosed hdone, acksOf_append, hquiet, acksOf_map, List.nil_append]

lemma nackedIds_drainOnce (hclosed : d.vault.working.circuit = .closed)
    (hdone : (drainLoop P S N C r r.leases r.keyHealth d).2.1 = .done acks) :
    nackedIds (drainOnce P S N C r d).2 =
      nackedIds (drainLoop P S N C r r.leases r.keyHealth d).2.2 := by
  rw [drainOnce_done hclosed hdone, nackedIds_append, nackedIds_map, List.append_nil]

end DrainOnce

/-- `open_sealed` raises an exception the loop does not know exactly on a point of low order, and
`drain_once` disposes of every lease of a batch exactly where it reaches none: the storage does not
fail, and the breaker is closed. -/
theorem disposesOfAll_iff (P : Platform) (S : Stdlib) (N : Search.Normaliser)
    (C : Sealed.Primitives) (r : Drain) (d : Daemon) (hnow : fitsInt64 r.now = true)
    (hfaultless : ∀ l ∈ r.leases, Faultless l) (hclosed : d.vault.Holds Closed) :
    (∀ lease, Sealed.openSealed P C r.keyLookup lease.body = .raised ↔ LowOrder P C r lease) ∧
    (DisposesOfAll P S N C r d ↔
      ∀ before lease after, r.leases = before ++ lease :: after →
        PassAll P C r before r.keyHealth → ¬ LowOrder P C r lease) := by
  refine ⟨fun _ => openSealed_eq_raised, ?_, fun hopens => ?_⟩
  · rintro ⟨counts, acked, circuitOpen, handled, kept, hreport, -⟩
    intro before lease after hbatch hpass hlow
    have hnone := drainReport_eq_none (S := S) (N := N) hnow hclosed.2
      (fun l hl => hfaultless l (by simp [hbatch, hl])) hbatch hpass hlow
    rw [hreport] at hnone
    cases hnone
  · obtain ⟨acks, handled, kept, hended⟩ := drainLoop_ended (S := S) (N := N) hnow hfaultless
      ⟨r.leases.length, 0, 0, 0, 0⟩ hclosed fun before lease after hbatch hpass hraised =>
        hopens before lease after hbatch hpass (openSealed_eq_raised.mp hraised)
    have hopen : ¬ d.vault.working.circuit ≠ .closed := not_not.mpr hclosed.2
    have hacks : acksOf (drainOnce P S N C r d).2 = acks := acksOf_drainOnce hclosed.2 hended.done
    have hnacks := nackedIds_drainOnce hclosed.2 hended.done
    have hdone := hended.done
    have hcounts := hended.counts
    rw [← hnacks] at hcounts
    have hends := hended.ends
    rw [← hacks, ← hnacks] at hends
    refine ⟨countLoop P S N C r r.leases r.keyHealth d ⟨r.leases.length, 0, 0, 0, 0⟩, acks.length,
      decide ((drainOnce P S N C r d).1.vault.working.circuit ≠ .closed), handled, kept, ?_, ?_⟩
    · rcases hrun : drainLoop P S N C r r.leases r.keyHealth d with ⟨after, o, log⟩
      rw [hrun] at hdone
      obtain rfl : o = .done acks := hdone
      simp [drainReport, if_neg hopen, drainOnce_vault hclosed.2, hrun]
    · rw [hcounts]
      refine ⟨hended.batch, hends, hended.tripped, rfl, ?_, ?_, ?_, ?_, ?_, ?_⟩
      · rw [hacks]
      · rw [hacks]
        exact Nat.zero_add _
      · rw [hacks]
        exact Nat.zero_add _
      · exact Nat.zero_add _
      · exact Nat.zero_add _
      · rw [decide_eq_true_iff, drainOnce_vault hclosed.2]
        exact hended.circuit

/-- The sample payload is disposed of. -/
theorem disposesOfAll_sample :
    DisposesOfAll samplePlatform sampleStdlib sampleNormaliser samplePrimitives
      (sampleCall samplePlaintext {}) start := by
  have hrule := disposesOfAll_iff samplePlatform sampleStdlib sampleNormaliser samplePrimitives
    (sampleCall samplePlaintext {}) start (by decide)
    (fun l hl => by
      obtain rfl := List.mem_singleton.mp hl
      exact ⟨fun _ => rfl, rfl⟩) ⟨rfl, rfl⟩
  apply hrule.2.mpr
  rintro before lease after - - ⟨header, priv, -, -, hnone⟩
  cases hnone

/-- Primitives that refuse the point zero, which has low order. -/
def zeroRefusing : Sealed.Primitives where
  exchange _ pub := if pub.all (· = 0) then none else some []
  derive _ := []
  decrypt _ _ ct _ := some (ct.take (ct.length - 16))

/-- A batch of a malformed envelope and one whose ephemeral key is the point zero. -/
def lowOrderCall : Drain where
  leases :=
    [⟨"lse_1", [], sampleIds, fun _ => {}, none⟩,
      ⟨"lse_2", sampleEnvelope samplePlaintext, sampleIds, fun _ => {}, none⟩]
  keyLookup keyId := if keyId = 1 then some (List.replicate 32 7) else none
  keyHealth := []
  now := 1700000001000

/-- The exception leaves the call: the first envelope is quarantined, yet it stays leased with the
second. -/
theorem lowOrder_strands_batch :
    Sealed.openSealed samplePlatform zeroRefusing lowOrderCall.keyLookup
      (sampleEnvelope samplePlaintext) = .raised ∧
    drainReport samplePlatform sampleStdlib sampleNormaliser zeroRefusing lowOrderCall start =
      none ∧
    (drainOnce samplePlatform sampleStdlib sampleNormaliser zeroRefusing lowOrderCall start).2 =
      [.quarantined []] ∧
    ¬ DisposesOfAll samplePlatform sampleStdlib sampleNormaliser zeroRefusing lowOrderCall
      start := by
  have hnone : drainReport samplePlatform sampleStdlib sampleNormaliser zeroRefusing lowOrderCall
      start = none := by decide +kernel
  refine ⟨by decide +kernel, hnone, by decide +kernel, ?_⟩
  rintro ⟨_, _, _, _, _, hreport, -⟩
  rw [hnone] at hreport
  cases hreport

end WhatsVault.Ingest
