import WhatsVault.Ingest.LeaseEnds

/-!
# Failed tags and the health of their key

A tag that fails under a key known to be healthy condemns the envelope, any other one the key.  What
`drain_once` knows of a key when it meets a failed tag is the set it was given and the envelopes it
opened before, so the same batch isolates its bad envelopes in one order and trips the breaker in
another (`isolates_iff`).  Where no order trips it the order does not matter (`drainOnce_perm`).
-/

namespace WhatsVault.Ingest

open Transaction

variable {P : Platform} {S : Stdlib} {N : Search.Normaliser} {C : Sealed.Primitives} {r : Drain}

/-- The same call on other leases. -/
def Drain.reorder (r : Drain) (leases : List Lease) : Drain := { r with leases := leases }

/-! ## The rows a batch puts in quarantine -/

/-- The key id an envelope names. -/
def keyOf (P : Platform) (lease : Lease) : ℕ :=
  (Sealed.parseHeader P lease.body).elim 0 Sealed.Header.recipientKeyId

def Fails (P : Platform) (C : Sealed.Primitives) (r : Drain) (lease : Lease) : Prop :=
  Sealed.openSealed P C r.keyLookup lease.body = .authFailed

instance (lease : Lease) : Decidable (Fails P C r lease) :=
  inferInstanceAs (Decidable (_ = _))

/-- The row of an envelope whose tag failed under a healthy key. -/
def isolatedRow (P : Platform) (r : Drain) (lease : Lease) : DlqRow :=
  dlqRow P lease.body "AEAD_AUTH_FAILED_ISOLATED" "aead" r.now

/-- The row of a lease that passes on, if it is quarantined. -/
def quarantineRow (P : Platform) (C : Sealed.Primitives) (r : Drain) (lease : Lease) :
    Option DlqRow :=
  match Sealed.openSealed P C r.keyLookup lease.body with
  | .badEnvelope => some (dlqRow P lease.body "POISON_MALFORMED" "bad_envelope" r.now)
  | .authFailed => some (isolatedRow P r lease)
  | _ => none

/-- The breaker is closed, and these rows are in quarantine. -/
def Quiet (rows : List DlqRow) (v : Vault) : Prop := v.circuit = .closed ∧ v.ingestDlq = rows

lemma handleLease_quiet {lease : Lease} {health : List ℕ} {d : Daemon} {rows : List DlqRow}
    (hfaultless : Faultless lease) (hnow : fitsInt64 r.now = true)
    (hpasses : PassesOn P C r lease health) (h : d.vault.Holds (Quiet rows)) :
    (handleLease P S N C r lease health d).1.vault.Holds
      (Quiet (rows ++ (quarantineRow P C r lease).toList)) := by
  unfold handleLease quarantineRow
  rcases hopen : Sealed.openSealed P C r.keyLookup lease.body with
    ⟨plaintext, header⟩ | _ | _ | _ | _
  · have hkept := vault_processPayload (P := P) (S := S) (N := N) (I := Quiet rows)
      (fun _ _ hv => hv) (fun _ _ hv => hv) r.now lease.ids lease.faults plaintext h
    rw [Option.toList_none, List.append_nil]
    dsimp only
    rcases hrun : processPayload P S N r.now lease.ids lease.faults plaintext d with
      ⟨after, ⟨⟩ | _ | _, log⟩ <;> rw [hrun] at hkept <;> exact hkept
  · rw [Option.toList_none, List.append_nil]
    exact h
  · simp [hfaultless.dlq, disposeAfter, attempt, quarantine, hnow]
    exact Conn.holds_clean ⟨h.2.1, congrArg (· ++ [_]) h.2.2⟩
  · simp [hfaultless.dlq, disposeAfter, attempt, quarantine, hnow, hpasses.2 hopen]
    exact Conn.holds_clean ⟨h.2.1, congrArg (· ++ [_]) h.2.2⟩
  · exact absurd hopen hpasses.1

/-! ## When every failed tag is isolated -/

/-- The rows of isolated envelopes. -/
def isolated (rows : List DlqRow) : List DlqRow :=
  rows.filter fun row => row.failureClass = "AEAD_AUTH_FAILED_ISOLATED"

/-- Every lease of a list whose tag fails is quarantined as isolated, once and in order, and the
breaker is closed. -/
def Isolates (P : Platform) (C : Sealed.Primitives) (r : Drain) (leases : List Lease)
    (rows : List DlqRow) (v : Vault) : Prop :=
  v.circuit = .closed ∧ isolated v.ingestDlq =
    isolated rows ++ (leases.filter fun lease => Fails P C r lease).map (isolatedRow P r)

/-- An envelope opens under a key. -/
def OpensUnder (P : Platform) (C : Sealed.Primitives) (r : Drain) (lease : Lease) (k : ℕ) : Prop :=
  ∃ plaintext header, Sealed.openSealed P C r.keyLookup lease.body = .opened plaintext header ∧
    header.recipientKeyId = k

/-- An envelope before this one opened under its key, or the key was known to be healthy; and no
envelope before it ended the loop. -/
def Known (P : Platform) (C : Sealed.Primitives) (r : Drain) (health : List ℕ)
    (before : List Lease) (lease : Lease) : Prop :=
  (∀ l ∈ before, ¬ LowOrder P C r l) ∧
    (keyOf P lease ∈ health ∨ ∃ l ∈ before, OpensUnder P C r l (keyOf P lease))

lemma parseHeader_of_opened {keyLookup : ℕ → Option Bytes} {envelope plaintext : Bytes}
    {header : Sealed.Header}
    (h : Sealed.openSealed P C keyLookup envelope = .opened plaintext header) :
    Sealed.parseHeader P envelope = some header := by
  unfold Sealed.openSealed at h
  repeat' split at h
  all_goals cases h
  assumption

lemma mem_healthAfter {lease : Lease} {health : List ℕ} {k : ℕ} :
    k ∈ healthAfter P C r lease health ↔ k ∈ health ∨ OpensUnder P C r lease k := by
  unfold healthAfter OpensUnder
  rcases hopen : Sealed.openSealed P C r.keyLookup lease.body with
    ⟨plaintext, header⟩ | _ | _ | _ | _
  · rw [List.mem_cons, or_comm, eq_comm]
    simp
  all_goals simp

lemma known_cons {health : List ℕ} {first lease : Lease} {before : List Lease} :
    Known P C r health (first :: before) lease ↔
      ¬ LowOrder P C r first ∧ Known P C r (healthAfter P C r first health) before lease := by
  unfold Known
  simp only [mem_healthAfter, List.forall_mem_cons, List.exists_mem_cons_iff, and_assoc, or_assoc]

lemma isolated_quarantineRow {lease : Lease} :
    isolated (quarantineRow P C r lease).toList =
      ([lease].filter fun lease => Fails P C r lease).map (isolatedRow P r) := by
  unfold quarantineRow isolated Fails
  rcases hopen : Sealed.openSealed P C r.keyLookup lease.body with
    ⟨plaintext, header⟩ | _ | _ | _ | _ <;> simp [hopen, dlqRow, isolatedRow]

/-- The loop isolates every failed tag exactly where each is met under a key then known to be
healthy. -/
theorem drainLoop_isolates_iff (hnow : fitsInt64 r.now = true) {leases : List Lease}
    (hfaultless : ∀ l ∈ leases, Faultless l) {health : List ℕ} {d : Daemon} {rows : List DlqRow}
    (h : d.vault.Holds (Quiet rows)) :
    (drainLoop P S N C r leases health d).1.vault.Holds (Isolates P C r leases rows) ↔
      ∀ before lease after, leases = before ++ lease :: after → Fails P C r lease →
        Known P C r health before lease := by
  induction leases generalizing health d rows with
  | nil =>
    simp only [drainLoop, List.nil_eq, List.append_eq_nil_iff, reduceCtorEq, and_false,
      false_implies, implies_true, iff_true]
    refine Conn.Holds.mono (fun v hv => ⟨hv.1, ?_⟩) h
    rw [hv.2]
    simp
  | cons lease leases ih =>
    -- the splits of the batch are the one at its head and those of its tail
    have hsplits : (∀ before l after, lease :: leases = before ++ l :: after → Fails P C r l →
          Known P C r health before l) ↔
        (Fails P C r lease → Known P C r health [] lease) ∧
        ∀ before l after, leases = before ++ l :: after → Fails P C r l →
          ¬ LowOrder P C r lease ∧ Known P C r (healthAfter P C r lease health) before l := by
      constructor
      · intro hall
        refine ⟨hall [] lease leases rfl, fun before l after hsplit hfails => ?_⟩
        exact known_cons.mp (hall (lease :: before) l after (by rw [hsplit]; rfl) hfails)
      · rintro ⟨hhead, htail⟩ before l after hsplit hfails
        rcases before with _ | ⟨first, before⟩
        · obtain ⟨rfl, rfl⟩ := List.cons.inj hsplit
          exact hhead hfails
        · obtain ⟨rfl, hrest⟩ := List.cons.inj hsplit
          exact known_cons.mpr (htail before l after hrest hfails)
    rw [hsplits]
    by_cases hlow : LowOrder P C r lease
    · -- the loop ends here, and nothing is quarantined any more
      have hraised := openSealed_eq_raised.mpr hlow
      have hloop : (drainLoop P S N C r (lease :: leases) health d).1 = d := by
        simp [drainLoop, handleLease, hraised]
      have hpasses : ¬ Fails P C r lease := by simp [Fails, hraised]
      rw [hloop]
      constructor
      · rintro ⟨-, -, hrows⟩
        rw [h.2.2, List.filter_cons_of_neg (by simpa using hpasses), List.self_eq_append_right,
          List.map_eq_nil_iff, List.filter_eq_nil_iff] at hrows
        refine ⟨fun hfails => absurd hfails hpasses, fun before l after hsplit hfails => ?_⟩
        exact absurd (decide_eq_true hfails) (hrows l (by simp [hsplit]))
      · rintro ⟨-, htail⟩
        have hnone : leases.filter (fun lease => Fails P C r lease) = [] := by
          rw [List.filter_eq_nil_iff]
          intro l hl hfails
          obtain ⟨before, after, hsplit⟩ := List.append_of_mem hl
          exact (htail before l after hsplit (of_decide_eq_true hfails)).1 hlow
        refine Conn.Holds.mono (fun v hv => ⟨hv.1, ?_⟩) h
        rw [hv.2, List.filter_cons_of_neg (by simpa using hpasses), hnone, List.map_nil,
          List.append_nil]
    · have hopens : Sealed.openSealed P C r.keyLookup lease.body ≠ .raised := by
        rwa [Ne, openSealed_eq_raised]
      by_cases htrips : Trips P C r lease health
      · -- the breaker trips
        have hturn := handleLease_turn (S := S) (N := N) health ⟨0, 0, 0, 0, 0⟩
          (hfaultless lease List.mem_cons_self) hnow (h.mono fun _ hv => hv.1) hopens
        generalize hrun : handleLease P S N C r lease health d = result at hturn
        have hunknown (hpasses : PassesOn P C r lease health) : False :=
          htrips.2 (hpasses.2 htrips.1)
        cases hturn with
        | acks hpasses => exact (hunknown hpasses).elim
        | nacks hpasses => exact (hunknown hpasses).elim
        | @halts after _ hopen =>
          have hloop : (drainLoop P S N C r (lease :: leases) health d).1 = after := by
            simp [drainLoop, hrun]
          rw [hloop]
          constructor
          · rintro ⟨-, hclosed, -⟩
            exact absurd hclosed hopen
          · rintro ⟨hhead, -⟩
            have hknown := (hhead htrips.1).2
            simp only [List.not_mem_nil, false_and, exists_false, or_false] at hknown
            exact absurd hknown htrips.2
      · have hpasses : PassesOn P C r lease health :=
          ⟨hopens, fun hfails => not_not.mp fun hunknown => htrips ⟨hfails, hunknown⟩⟩
        have hquiet := handleLease_quiet (S := S) (N := N) (hfaultless lease List.mem_cons_self)
          hnow hpasses h
        obtain ⟨disposition, hdone, hgoes⟩ := handleLease_done (S := S) (N := N) health d
          (hfaultless lease List.mem_cons_self) hnow hopens
        rcases hrun : handleLease P S N C r lease health d with ⟨after, o, log⟩
        rw [hrun] at hdone hquiet
        obtain rfl : o = .done disposition := hdone
        have hrest : (drainLoop P S N C r leases (healthAfter P C r lease health)
            after).1.vault.Holds
              (Isolates P C r leases (rows ++ (quarantineRow P C r lease).toList)) ↔ _ :=
          ih (fun l hl => hfaultless l (List.mem_cons_of_mem _ hl)) hquiet
        have hhead : Fails P C r lease → Known P C r health [] lease := fun hfails =>
          ⟨by simp, .inl (hpasses.2 hfails)⟩
        rw [drainLoop_cons_of_done hrun (hgoes hpasses)]
        simp only [hlow, not_false_eq_true, true_and]
        rw [← hrest, and_iff_right hhead]
        have hsame (v : Vault) : Isolates P C r (lease :: leases) rows v ↔
            Isolates P C r leases (rows ++ (quarantineRow P C r lease).toList) v := by
          have hrows : isolated (rows ++ (quarantineRow P C r lease).toList) = isolated rows ++
              ([lease].filter fun lease => Fails P C r lease).map (isolatedRow P r) := by
            rw [← isolated_quarantineRow]
            exact List.filter_append ..
          unfold Isolates
          rw [hrows, List.append_assoc, ← List.map_append, ← List.filter_append,
            List.singleton_append]
        exact and_congr (hsame _) (hsame _)

/-! ## Batches whose payloads can be stored -/

/-- Ids that are drawn only once, over a whole batch, and are not in a vault yet. -/
structure FreshBatch (e : Evidence) (leases : List Lease) : Prop where
  fresh : ∀ l ∈ leases, Fresh e l.ids 0
  apart : leases.Pairwise fun l l' => ∀ j k, Apart (l.ids j) (l'.ids k)

/-- The atoms of a lease whose envelope opens. -/
def leaseAtoms (P : Platform) (S : Stdlib) (C : Sealed.Primitives) (r : Drain) (lease : Lease) :
    List Atom :=
  match Sealed.openSealed P C r.keyLookup lease.body with
  | .opened plaintext _ => (payloadAtoms S plaintext).getD []
  | _ => []

/-- The pair of a phone number and a wamid an atom takes up, with its key. -/
def Takes (P : Platform) (S : Stdlib) (atom : Atom) (key : String) (p : String × String) : Prop :=
  ∃ x, decode P S atom = some x ∧ x.key = key ∧ columns S x.rows = some (some p)

/-- The tables can take the values of these atoms, and who takes up a pair already there has its key
in the ledger. -/
structure WellFormed (P : Platform) (S : Stdlib) (e : Evidence) (atoms : List Atom) : Prop where
  fits : ∀ atom ∈ atoms, ∃ x, decode P S atom = some x ∧ ledgerable S atom x = true ∧
    (columns S x.rows).isSome = true
  recorded : ∀ atom ∈ atoms, ∀ key p, Takes P S atom key p → p ∈ takenPairs e → key ∈ ledgerKeys e
  agree : ∀ atom ∈ atoms, ∀ other ∈ atoms, ∀ key key' p, Takes P S atom key p →
    Takes P S other key' p → key = key'

section Storing

variable {e : Evidence} {d : Daemon} {all : List Atom}

lemma WellFormed.storable (h : WellFormed P S e all) {atom : Atom} (hatom : atom ∈ all) :
    ∃ x, decode P S atom = some x ∧ StorableAtom S e atom x := by
  obtain ⟨x, hx, hledgerable, hcolumns⟩ := h.fits atom hatom
  obtain ⟨pair, hpair⟩ := Option.isSome_iff_exists.mp hcolumns
  refine ⟨x, hx, hledgerable, ?_⟩
  by_cases htaken : ∃ p, pair = some p ∧ p ∈ takenPairs e
  · obtain ⟨p, rfl, hp⟩ := htaken
    exact .inl (h.recorded atom hatom x.key p ⟨x, hx, rfl, hpair⟩ hp)
  · exact .inr ⟨pair, hpair, fun p hp hmem => htaken ⟨p, hp, hmem⟩⟩

/-- Storing one of the atoms keeps the others well formed. -/
lemma WellFormed.advanced (h : WellFormed P S e all) {atom : Atom} (hatom : atom ∈ all)
    {x : Decoded} (hx : decode P S atom = some x) {e' : Evidence} (hadvanced : Advanced S x e e') :
    WellFormed P S e' all := by
  cases hadvanced with
  | known _ hsame =>
    rw [hsame]
    exact h
  | stored _ pair hcolumns _ hkeys htaken =>
    refine { h with recorded := fun other hother key p htakes hp => ?_ }
    rw [hkeys]
    rcases (htaken p).mp hp with rfl | hold
    · exact .inl (h.agree other hother atom hatom key x.key p htakes ⟨x, hx, rfl, hcolumns⟩)
    · exact .inr (h.recorded other hother key p htakes hold)

/-- An atom adds no rows but those with the ids drawn for it. -/
lemma drawn_of_processAtom {now : ℤ} {ids : AtomIds} {faults : AtomFaults} {atom : Atom}
    {e' : Evidence} (h : d.vault.Holds fun v => v.evidence = e)
    (h' : (processAtom P S N now ids faults atom d).1.vault.Holds fun v => v.evidence = e') :
    e' = e ∨ Drawn ids e e' := by
  have hcases := processAtom_cases P S N now ids faults atom d
  generalize processAtom P S N now ids faults atom d = result at hcases h'
  cases hcases with
  | undecodable => exact .inl (h'.1.symm.trans h.1)
  | failed => exact .inl (h'.1.symm.trans h.1)
  | duplicate => exact .inl (h'.1.symm.trans h.2)
  | @stored x event evidence applied hrecords hfresh hstores after hafter =>
    right
    have hevidence : after.1.vault.Holds fun v => v.evidence = evidence := by
      rw [hafter]
      exact holds_afterCommit (fun _ _ hv => hv) (Conn.holds_clean rfl)
    obtain rfl : evidence = e' := hevidence.1.symm.trans h'.1
    rw [h.2] at hstores
    exact { hstores.drawn with }

/-- Well formed atoms are all stored, or found in the ledger. -/
lemma processAtoms_wellFormed {now : ℤ} {ids : ℕ → AtomIds} {faults : ℕ → AtomFaults}
    (hfaults : ∀ j, faults j = {}) (hnow : fitsInt64 now = true) {atoms : List Atom}
    (hatoms : ∀ atom ∈ atoms, atom ∈ all) {i : ℕ} (h : Ready P S e d) (hfresh : Fresh e ids i)
    (hwell : WellFormed P S e all) :
    (processAtoms P S N now ids faults i atoms d).2.1 = .done () ∧
    ∃ e', Ready P S e' (processAtoms P S N now ids faults i atoms d).1 ∧ WellFormed P S e' all ∧
      ∀ ids', (∀ j k, Apart (ids j) (ids' k)) → Fresh e ids' 0 → Fresh e' ids' 0 := by
  induction atoms generalizing i d e with
  | nil => exact ⟨rfl, e, h, hwell, fun _ _ hother => hother⟩
  | cons atom atoms ih =>
    have hatom := hatoms atom List.mem_cons_self
    obtain ⟨x, hx, hstorable⟩ := hwell.storable hatom
    obtain ⟨hdone, e₁, hready, hfresh₁, hadvanced⟩ :=
      processAtom_stored (N := N) h hfresh hnow hx hstorable
    have hdrawn := drawn_of_processAtom h.evidence hready.evidence
    rcases hrun : processAtom P S N now (ids i) {} atom d with ⟨d₁, o, log₁⟩
    rw [hrun] at hdone hready
    obtain rfl : o = .done () := hdone
    obtain ⟨hdone', e₂, hready₂, hwell₂, hothers⟩ := ih
      (fun a ha => hatoms a (List.mem_cons_of_mem _ ha)) hready hfresh₁
      (hwell.advanced hatom hx hadvanced)
    have hloop : processAtoms P S N now ids faults i (atom :: atoms) d =
        (let rest := processAtoms P S N now ids faults (i + 1) atoms d₁
        (rest.1, rest.2.1, log₁ ++ rest.2.2)) := by
      simp [processAtoms, hfaults, hrun]
    rw [hloop]
    refine ⟨hdone', e₂, hready₂, hwell₂, fun ids' hapart hother => ?_⟩
    apply hothers ids' hapart
    rcases hdrawn with rfl | hdrawn
    · exact hother
    · exact hother.of_drawn (fun k _ => hapart i k) hdrawn

end Storing

/-! ## The same batch in another order -/

/-- What a lease of a batch of well formed payloads adds to `to_ack`. -/
def ackOf (P : Platform) (S : Stdlib) (C : Sealed.Primitives) (r : Drain) (lease : Lease) :
    Option Ack :=
  match Sealed.openSealed P C r.keyLookup lease.body with
  | .badEnvelope => some ⟨lease.leaseId, lease.body, none⟩
  | .authFailed => some ⟨lease.leaseId, lease.body, none⟩
  | .opened plaintext _ =>
    (payloadAtoms S plaintext).map fun _ => ⟨lease.leaseId, lease.body, some plaintext⟩
  | _ => none

section Order

variable {e : Evidence} {d : Daemon} {all : List Atom}

lemma Ready.quarantined (h : Ready P S e d) (rows : List DlqRow) :
    Ready P S e ⟨.clean { d.vault.working with ingestDlq := rows }, d.control⟩ where
  evidence := Conn.holds_clean h.evidence.2
  mirrored := h.mirrored
  fits := h.fits

/-- A lease that passes on is disposed of by its envelope and payload alone. -/
lemma handleLease_wellFormed {lease : Lease} {health : List ℕ} (hfaultless : Faultless lease)
    (hnow : fitsInt64 r.now = true) (hpasses : PassesOn P C r lease health) (h : Ready P S e d)
    (hfresh : Fresh e lease.ids 0) (hwell : WellFormed P S e all)
    (hatoms : ∀ atom ∈ leaseAtoms P S C r lease, atom ∈ all) :
    ∃ disposition, (handleLease P S N C r lease health d).2.1 = .done disposition ∧
      disposition ≠ .halt ∧ toAck lease disposition = (ackOf P S C r lease).toList ∧
      ∃ e', Ready P S e' (handleLease P S N C r lease health d).1 ∧ WellFormed P S e' all ∧
        ∀ ids', (∀ j k, Apart (lease.ids j) (ids' k)) → Fresh e ids' 0 → Fresh e' ids' 0 := by
  unfold handleLease ackOf
  unfold leaseAtoms at hatoms
  rcases hopen : Sealed.openSealed P C r.keyLookup lease.body with
    ⟨plaintext, header⟩ | _ | _ | _ | _
  · rw [hopen] at hatoms
    dsimp only at hatoms ⊢
    rcases hpayload : payloadAtoms S plaintext with _ | atoms
    · have hrun : processPayload P S N r.now lease.ids lease.faults plaintext d =
          (d, .raised, []) := by simp [processPayload, hpayload]
      rw [hrun]
      exact ⟨.nack, rfl, by simp, rfl, e, h, hwell, fun _ _ hother => hother⟩
    · rw [hpayload, Option.getD_some] at hatoms
      obtain ⟨hdone, e', hready, hwell', hothers⟩ := processAtoms_wellFormed (N := N) (i := 0)
        hfaultless.atoms hnow hatoms h hfresh hwell
      have hrun : processPayload P S N r.now lease.ids lease.faults plaintext d =
          processAtoms P S N r.now lease.ids lease.faults 0 atoms d := by
        simp [processPayload, hpayload]
      rw [hrun]
      rcases hloop : processAtoms P S N r.now lease.ids lease.faults 0 atoms d with ⟨after, o, log⟩
      rw [hloop] at hdone hready
      obtain rfl : o = .done () := hdone
      exact ⟨.ack (some plaintext), rfl, by simp, rfl, e', hready, hwell', hothers⟩
  · exact ⟨.nack, rfl, by simp, rfl, e, h, hwell, fun _ _ hother => hother⟩
  · dsimp only
    rw [hfaultless.dlq]
    obtain ⟨row, hwrites⟩ := disposeAfter_quarantine (P := P) (d := d) hnow
    rw [hwrites]
    exact ⟨.ack none, rfl, by simp, rfl, e, h.quarantined _, hwell, fun _ _ hother => hother⟩
  · dsimp only
    rw [hfaultless.dlq, if_pos (hpasses.2 hopen)]
    obtain ⟨row, hwrites⟩ := disposeAfter_quarantine (P := P) (d := d) hnow
    rw [hwrites]
    exact ⟨.ack none, rfl, by simp, rfl, e, h.quarantined _, hwell, fun _ _ hother => hother⟩
  · exact absurd hopen hpasses.1

/-- Leases that pass on are acknowledged by their envelopes and payloads alone. -/
theorem drainLoop_wellFormed (hnow : fitsInt64 r.now = true) {leases : List Lease}
    (hfaultless : ∀ l ∈ leases, Faultless l) {health : List ℕ} (hpass : PassAll P C r leases health)
    (h : Ready P S e d) (hfresh : FreshBatch e leases) (hwell : WellFormed P S e all)
    (hatoms : ∀ atom ∈ leases.flatMap (leaseAtoms P S C r), atom ∈ all) :
    (drainLoop P S N C r leases health d).2.1 = .done (leases.filterMap (ackOf P S C r)) := by
  induction leases generalizing health d e with
  | nil => rfl
  | cons lease leases ih =>
    obtain ⟨disposition, hdone, hgoes, hack, e', hready, hwell', hothers⟩ :=
      handleLease_wellFormed (N := N) (hfaultless lease List.mem_cons_self) hnow hpass.1 h
        (hfresh.fresh lease List.mem_cons_self) hwell
        fun atom hatom => hatoms atom (by simp [hatom])
    rcases hrun : handleLease P S N C r lease health d with ⟨after, o, log⟩
    rw [hrun] at hdone hready
    obtain rfl : o = .done disposition := hdone
    have hapart := List.pairwise_cons.mp hfresh.apart
    have hfresh' : FreshBatch e' leases :=
      ⟨fun l hl => hothers l.ids (hapart.1 l hl) (hfresh.fresh l (List.mem_cons_of_mem _ hl)),
        hapart.2⟩
    have hrest := ih (fun l hl => hfaultless l (List.mem_cons_of_mem _ hl)) hpass.2 hready hfresh'
      hwell' fun atom hatom => hatoms atom (by
        rw [List.flatMap_cons]
        exact List.mem_append_right _ hatom)
    rw [drainLoop_cons_of_done hrun hgoes]
    simp only [hrest, Outcome.map, hack]
    rcases hackOf : ackOf P S C r lease with _ | ack
    · simp [List.filterMap_cons_none hackOf]
    · simp [List.filterMap_cons_some hackOf]

/-- The rows that leases which pass on put in quarantine. -/
lemma drainLoop_quiet (hnow : fitsInt64 r.now = true) {leases : List Lease}
    (hfaultless : ∀ l ∈ leases, Faultless l) {health : List ℕ} (hpass : PassAll P C r leases health)
    {rows : List DlqRow} (h : d.vault.Holds (Quiet rows)) :
    (drainLoop P S N C r leases health d).1.vault.Holds
      (Quiet (rows ++ leases.filterMap (quarantineRow P C r))) := by
  induction leases generalizing health d rows with
  | nil => simpa [drainLoop] using h
  | cons lease leases ih =>
    have hquiet := handleLease_quiet (S := S) (N := N) (hfaultless lease List.mem_cons_self)
      hnow hpass.1 h
    obtain ⟨disposition, hdone, hgoes⟩ := handleLease_done (S := S) (N := N) health d
      (hfaultless lease List.mem_cons_self) hnow hpass.1.1
    rcases hrun : handleLease P S N C r lease health d with ⟨after, o, log⟩
    rw [hrun] at hdone hquiet
    obtain rfl : o = .done disposition := hdone
    have hrest := ih (fun l hl => hfaultless l (List.mem_cons_of_mem _ hl)) hpass.2 hquiet
    rw [drainLoop_cons_of_done hrun (hgoes hpass.1)]
    rcases hrow : quarantineRow P C r lease with _ | row
    · simpa [hrow] using hrest
    · simpa [hrow, List.append_assoc] using hrest

/-- Known keys and no point of low order: every lease passes on. -/
lemma passAll_of_known {leases : List Lease} {health : List ℕ}
    (hlow : ∀ l ∈ leases, ¬ LowOrder P C r l)
    (hknown : ∀ before lease after, leases = before ++ lease :: after → Fails P C r lease →
      Known P C r health before lease) : PassAll P C r leases health := by
  induction leases generalizing health with
  | nil => trivial
  | cons lease leases ih =>
    refine ⟨⟨?_, fun hfails => ?_⟩, ih (fun l hl => hlow l (List.mem_cons_of_mem _ hl)) ?_⟩
    · rw [Ne, openSealed_eq_raised]
      exact hlow lease List.mem_cons_self
    · have hhead := (hknown [] lease leases rfl hfails).2
      simpa [keyOf] using hhead
    · intro before l after hsplit hfails
      exact (known_cons.mp (hknown (lease :: before) l after (by rw [hsplit]; rfl) hfails)).2

end Order

/-! ## The health of keys and the order of a batch -/

/-- Every failed tag of a batch is met under a key known to be healthy by then. -/
def Settled (P : Platform) (C : Sealed.Primitives) (r : Drain) (leases : List Lease) : Prop :=
  ∀ before lease after, leases = before ++ lease :: after → Fails P C r lease →
    Known P C r r.keyHealth before lease

/-- Where the keys of the failed tags were healthy at the start, every order is settled. -/
lemma settled_of_healthy {leases : List Lease} (hlow : ∀ l ∈ leases, ¬ LowOrder P C r l)
    (hhealth : ∀ l ∈ leases, Fails P C r l → keyOf P l ∈ r.keyHealth) : Settled P C r leases := by
  intro before lease after hsplit hfails
  refine ⟨fun l hl => hlow l ?_, .inl (hhealth lease ?_ hfails)⟩
  · simp [hsplit, hl]
  · simp [hsplit]

lemma FreshBatch.perm {e : Evidence} {leases leases' : List Lease} (h : FreshBatch e leases)
    (hperm : leases.Perm leases') : FreshBatch e leases' :=
  ⟨fun l hl => h.fresh l (hperm.mem_iff.mpr hl),
    h.apart.perm hperm fun hapart j k => (hapart k j).symm⟩

/-- In every state a run reaches, a batch isolates every failed tag and leaves the breaker closed
exactly where each is met under a key known to be healthy by then.  Two orders of a batch of which
both are so, and which carries no point of low order, quarantine the same envelopes; and they
acknowledge the same leases where the tables can take the values of the payloads. -/
theorem isolates_iff (P : Platform) (S : Stdlib) (N : Search.Normaliser) (C : Sealed.Primitives)
    (ops : List Op) (r : Drain) (rows : List DlqRow) (hnow : fitsInt64 r.now = true)
    (hfaultless : ∀ l ∈ r.leases, Faultless l)
    (hquiet : (Run.final (step P S N C) start ops).vault.Holds (Quiet rows)) :
    ((drainOnce P S N C r (Run.final (step P S N C) start ops)).1.vault.Holds
        (Isolates P C r r.leases rows) ↔ Settled P C r r.leases) ∧
    ∀ leases, leases.Perm r.leases → (∀ l ∈ r.leases, ¬ LowOrder P C r l) →
      Settled P C r r.leases → Settled P C r leases →
      (∃ rows', rows'.Perm (rows ++ r.leases.filterMap (quarantineRow P C r)) ∧
        (drainOnce P S N C (r.reorder leases)
          (Run.final (step P S N C) start ops)).1.vault.Holds (Quiet rows')) ∧
      (FreshBatch (Run.final (step P S N C) start ops).vault.durable.evidence r.leases →
        WellFormed P S (Run.final (step P S N C) start ops).vault.durable.evidence
          (r.leases.flatMap (leaseAtoms P S C r)) →
        (acksOf (drainOnce P S N C (r.reorder leases)
          (Run.final (step P S N C) start ops)).2).Perm
            (acksOf (drainOnce P S N C r (Run.final (step P S N C) start ops)).2)) := by
  have hready := ready_of_run (P := P) (S := S) (N := N) (C := C) ops r []
  rw [show (drainLoop P S N C r [] r.keyHealth (Run.final (step P S N C) start ops)).1 =
    Run.final (step P S N C) start ops from rfl] at hready
  have hclosed : (Run.final (step P S N C) start ops).vault.working.circuit = .closed := hquiet.2.1
  generalize Run.final (step P S N C) start ops = d at hquiet hready hclosed ⊢
  refine ⟨?_, fun leases hperm hlow hsettled hsettled' => ⟨?_, fun hfresh hwell => ?_⟩⟩
  · rw [drainOnce_vault hclosed]
    exact drainLoop_isolates_iff hnow hfaultless hquiet
  · have hrows := drainLoop_quiet (S := S) (N := N) (r := r.reorder leases) hnow
      (fun l hl => hfaultless l (hperm.mem_iff.mp hl))
      (passAll_of_known (fun l hl => hlow l (hperm.mem_iff.mp hl)) hsettled') hquiet
    refine ⟨rows ++ leases.filterMap (quarantineRow P C r), ?_, ?_⟩
    · exact (hperm.filterMap _).append_left rows
    · rw [drainOnce_vault hclosed]
      exact hrows
  · have hacks := drainLoop_wellFormed (N := N) (r := r) hnow hfaultless
      (passAll_of_known hlow hsettled) hready hfresh hwell fun _ hatom => hatom
    have hacks' := drainLoop_wellFormed (N := N) (r := r.reorder leases) hnow
      (fun l hl => hfaultless l (hperm.mem_iff.mp hl))
      (passAll_of_known (fun l hl => hlow l (hperm.mem_iff.mp hl)) hsettled') hready
      (hfresh.perm hperm.symm) hwell fun _ hatom => (hperm.flatMap_right _).mem_iff.mp hatom
    rw [acksOf_drainOnce hclosed hacks, acksOf_drainOnce hclosed hacks']
    exact hperm.filterMap _

/-! ## A batch in two orders -/

/-- Primitives whose tag fails on a ciphertext that starts with a zero. -/
def tagged : Sealed.Primitives where
  exchange _ _ := some []
  derive _ := []
  decrypt _ _ ct _ := if ct.head? = some 0 then none else some (ct.take (ct.length - 16))

/-- An envelope for key 1 whose tag fails. -/
def failing : Lease := ⟨"lse_1", sampleEnvelope [0], sampleIds, fun _ => {}, none⟩

/-- An envelope for key 1 that opens. -/
def opening : Lease := ⟨"lse_2", sampleEnvelope samplePlaintext, sampleIds, fun _ => {}, none⟩

def orderCall (keyHealth : List ℕ) (leases : List Lease) : Drain where
  leases := leases
  keyLookup keyId := if keyId = 1 then some (List.replicate 32 7) else none
  keyHealth := keyHealth
  now := 1700000001000

/-- For each key the batch names, an envelope of the batch opens under it. -/
def EachOpens (P : Platform) (C : Sealed.Primitives) (r : Drain) : Prop :=
  ∀ l ∈ r.leases, ∀ header, Sealed.parseHeader P l.body = some header →
    ∃ l' ∈ r.leases, OpensUnder P C r l' header.recipientKeyId

lemma not_lowOrder_tagged {r : Drain} (lease : Lease) :
    ¬ LowOrder samplePlatform tagged r lease := by
  rintro ⟨header, priv, -, -, hnone⟩
  cases hnone

/-- Where key 1 is healthy from the start, both orders quarantine the failing envelope. -/
theorem isolates_iff_sample :
    (drainOnce samplePlatform sampleStdlib sampleNormaliser tagged
      (orderCall [1] [failing, opening]) start).1.vault.Holds
        (Isolates samplePlatform tagged (orderCall [1] [failing, opening]) [failing, opening] []) ∧
    ∃ rows, rows.Perm [isolatedRow samplePlatform (orderCall [1] [failing, opening]) failing] ∧
      (drainOnce samplePlatform sampleStdlib sampleNormaliser tagged
        ((orderCall [1] [failing, opening]).reorder [opening, failing]) start).1.vault.Holds
          (Quiet rows) := by
  have hrule := isolates_iff samplePlatform sampleStdlib sampleNormaliser tagged []
    (orderCall [1] [failing, opening]) [] (by decide)
    (fun l hl => by
      have hcases : l = failing ∨ l = opening := by simpa [orderCall] using hl
      rcases hcases with rfl | rfl
      · exact ⟨fun _ => rfl, rfl⟩
      · exact ⟨fun _ => rfl, rfl⟩) ⟨⟨rfl, rfl⟩, rfl, rfl⟩
  have hsettled (leases : List Lease) (hleases : ∀ l ∈ leases, l ∈ [failing, opening]) :
      Settled samplePlatform tagged (orderCall [1] [failing, opening]) leases := by
    refine settled_of_healthy (fun l _ => not_lowOrder_tagged l) fun l hl hfails => ?_
    have hcases : l = failing ∨ l = opening := by simpa using hleases l hl
    rcases hcases with rfl | rfl
    · decide
    · exact absurd hfails (by decide +kernel)
  have hleases : (orderCall [1] [failing, opening]).leases = [failing, opening] := rfl
  rw [hleases, Run.final_nil] at hrule
  refine ⟨hrule.1.mpr (hsettled _ fun _ hl => hl), ?_⟩
  obtain ⟨⟨rows, hperm, hquiet⟩, -⟩ := hrule.2 [opening, failing] (.swap _ _ _)
    (fun l _ => not_lowOrder_tagged l) (hsettled _ fun _ hl => hl)
    (hsettled _ fun l hl => by simpa [or_comm] using hl)
  have hrows : [failing, opening].filterMap
      (quarantineRow samplePlatform tagged (orderCall [1] [failing, opening])) =
        [isolatedRow samplePlatform (orderCall [1] [failing, opening]) failing] := by
    decide +kernel
  refine ⟨rows, ?_, hquiet⟩
  rwa [List.nil_append, hrows] at hperm

/-- An envelope of the batch opens under its one key, and yet the batch isolates its failing
envelope in one order and trips the breaker in the other, where it acknowledges nothing. -/
theorem order_decides :
    EachOpens samplePlatform tagged (orderCall [] [failing, opening]) ∧
    ¬ (drainOnce samplePlatform sampleStdlib sampleNormaliser tagged
      (orderCall [] [failing, opening]) start).1.vault.Holds
        (Isolates samplePlatform tagged (orderCall [] [failing, opening]) [failing, opening] []) ∧
    (drainOnce samplePlatform sampleStdlib sampleNormaliser tagged
      (orderCall [] [failing, opening]) start).1.vault.durable.circuit ≠ .closed ∧
    acksOf (drainOnce samplePlatform sampleStdlib sampleNormaliser tagged
      (orderCall [] [failing, opening]) start).2 = [] ∧
    (drainOnce samplePlatform sampleStdlib sampleNormaliser tagged
      (orderCall [] [opening, failing]) start).1.vault.durable.circuit = .closed ∧
    (acksOf (drainOnce samplePlatform sampleStdlib sampleNormaliser tagged
      (orderCall [] [opening, failing]) start).2).map Ack.leaseId = ["lse_2", "lse_1"] := by
  have htripped : (drainOnce samplePlatform sampleStdlib sampleNormaliser tagged
      (orderCall [] [failing, opening]) start).1.vault.durable.circuit ≠ .closed := by
    decide
  refine ⟨?_, fun hisolates => htripped hisolates.1.1, htripped, by decide,
    by decide +kernel, by decide +kernel⟩
  have hopens : (Sealed.openSealed samplePlatform tagged (orderCall [] []).keyLookup
      opening.body).plaintext = some samplePlaintext := by decide +kernel
  obtain ⟨header, hopened⟩ := Sealed.OpenResult.plaintext_eq_some.mp hopens
  have hkeys : ∀ l ∈ [failing, opening], keyOf samplePlatform l = 1 := by decide +kernel
  intro l hl header' hheader
  refine ⟨opening, by simp [orderCall], samplePlaintext, header, hopened, ?_⟩
  have hkey := hkeys l hl
  have hkey' := hkeys opening (by simp)
  rw [keyOf, hheader] at hkey
  rw [keyOf, parseHeader_of_opened hopened] at hkey'
  exact hkey'.trans hkey.symm

end WhatsVault.Ingest
