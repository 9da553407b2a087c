import WhatsVault.Approval.Reconcile

/-!
# One wamid an attempt

A SUBMITTED attempt should have a wamid, and one of its own.  `_finish` writes the wamid of the
provider's answer and `on_status_event` that of the report, each as it comes: missing, or one that
another attempt has.  `Correlated` holds along a run exactly where what these two write is a wamid
that no other attempt has (`correlated_iff`).  Which attempt a report changes is never in doubt: it is
the one its callback data names, or none.
-/

namespace WhatsVault.Reconcile

open Sender WriteLock

/-! ## What a step does to the attempts -/

/-- The row `on_status_event` resolves. -/
def resolveRow (attemptId : String) (wamid : Option String) (nowMs : ℤ) (a : SendAttempt) :
    SendAttempt :=
  if a.id = attemptId ∧ a.state = .indeterminate then
    { a with state := .submitted, wamid := wamid, updatedAtMs := nowMs }
  else a

/-- The row of an attempt the provider has submitted. -/
def submitRow (attemptId : String) (wamid : Option String) (now : ℤ) (a : SendAttempt) : SendAttempt :=
  if a.id = attemptId then { a with state := .submitted, updatedAtMs := now, wamid := wamid } else a

/-- An UPDATE that writes no wamid and submits nothing. -/
structure Plain (f : SendAttempt → SendAttempt) : Prop where
  id : ∀ a, (f a).id = a.id
  wamid : ∀ a, (f a).wamid = a.wamid
  state : ∀ a, (f a).state = .submitted → a.state = .submitted

/-- A delivery's first step finds the database free and has a time that can be stored. -/
def Delivers (s : Sys) (j : ℕ) (nowMs : ℤ) : Prop :=
  s.deliveries j = .idle ∧ fitsInt64 nowMs = true ∧ s.db.base (deliverer j) ≠ none

/-- The attempts after a step: as they were, with a new one, updated without a wamid, or with a wamid
written by `_finish` or by a report. -/
inductive Effect (s : Sys) : Label → List SendAttempt → Prop
  | same {label : Label} : Effect s label s.attempts
  | opened {i : ℕ} {env : Envelope} {reading : ℤ} {row : SendAttempt}
      (free : ∀ a ∈ s.attempts, a.id ≠ row.id) (state : row.state = .submitting)
      (wamid : row.wamid = none) : Effect s (.submit i env reading row.id) (s.attempts ++ [row])
  | plain {label : Label} {f : SendAttempt → SendAttempt} (hf : Plain f)
      (hlabel : ∀ j event nowMs candidateId, label ≠ .callback j event nowMs candidateId) :
      Effect s label (s.attempts.map f)
  | submitted {i : ℕ} {attemptId : String} {now : ℤ} {wamid : Option String}
      (flight : s.flights i = .answered attemptId now (.submitted wamid)) :
      Effect s (.finish i) (s.attempts.map (submitRow attemptId wamid now))
  | resolved {j : ℕ} {event : StatusEvent} {nowMs : ℤ} {candidateId attemptId : String}
      (delivers : Delivers s j nowMs) (named : event.attemptId = some attemptId) :
      Effect s (.callback j event nowMs candidateId)
        (s.attempts.map (resolveRow attemptId event.wamid nowMs))

lemma openAttempt_appends {P : Platform} {attemptId draftId : String} {nonce : Nonce} {now : ℤ}
    {c c' : Control} (h : openAttempt P attemptId draftId nonce now c = some c') :
    ∃ row : SendAttempt, row.id = attemptId ∧ row.state = .submitting ∧ row.wamid = none ∧
      (∀ a ∈ c.sendAttempts, a.id ≠ attemptId) ∧ c'.sendAttempts = c.sendAttempts ++ [row] := by
  unfold openAttempt at h
  dsimp only at h
  split at h
  · rename_i hfree
    obtain rfl := Option.some.inj h
    exact ⟨_, rfl, rfl, rfl, fun a ha => (hfree a ha).1, rfl⟩
  · cases h

lemma attempts_of_db_eq {s s' : Sys} (hdb : s'.db = s.db) : s'.attempts = s.attempts := by
  rw [Sys.attempts, hdb, Sys.attempts]

/-- A statement on the attempts, and its commit. -/
lemma attempts_writeControl {s s' : Sys} (hs : OnlySender s) {j : ℕ} {f : Control → Option Control}
    (hdb : s'.db = (s.writeControl j f).db) : s'.attempts = s.attempts ∨
      ∃ c c', f c = some c' ∧ c.sendAttempts = s.attempts ∧ s'.attempts = c'.sendAttempts := by
  obtain hsame | ⟨t, t', hbase, ht', hwritten⟩ := Db.write_cases j (fun t : Store =>
    (f t.control).map fun c => { t with control := c }) s.db
  · exact .inl (attempts_of_db_eq (hdb.trans hsame))
  · right
    obtain ⟨c', hc', rfl⟩ := Option.map_eq_some_iff.mp ht'
    refine ⟨t.control, c', hc', hs.base hbase, ?_⟩
    rw [Sys.attempts, hdb]
    exact congrArg (fun db : Db Store => db.committed.control.sendAttempts) hwritten

lemma Plain.ite {g : SendAttempt → SendAttempt} (hg : Plain g) (p : SendAttempt → Prop)
    [DecidablePred p] : Plain fun a => if p a then g a else a := by
  refine ⟨fun a => ?_, fun a => ?_, fun a => ?_⟩
  · split
    · exact hg.id a
    · rfl
  · split
    · exact hg.wamid a
    · rfl
  · split
    · exact hg.state a
    · exact fun h => h

lemma plain_recover (nowMs : ℤ) : Plain fun a : SendAttempt =>
    if a.state = .submitting then { a with state := .indeterminate, updatedAtMs := nowMs } else a :=
  Plain.ite (g := fun a => { a with state := .indeterminate, updatedAtMs := nowMs })
    ⟨fun _ => rfl, fun _ => rfl, fun _ h => by simp at h⟩ _

lemma plain_touch (attemptId : String) (nowMs : ℤ) : Plain fun a : SendAttempt =>
    if a.id = attemptId then { a with updatedAtMs := nowMs } else a :=
  Plain.ite (g := fun a => { a with updatedAtMs := nowMs }) ⟨fun _ => rfl, fun _ => rfl, fun _ h => h⟩ _

lemma plain_finish (attemptId : String) {state : AttemptState} (hstate : state ≠ .submitted) (now : ℤ)
    (errorCode : Option (Option String)) : Plain fun a : SendAttempt =>
      if a.id = attemptId then
        { a with
          state := state
          updatedAtMs := now
          wamid := (none : Option (Option String)).getD a.wamid
          errorCode := errorCode.getD a.errorCode }
      else a :=
  Plain.ite
    (g := fun a => { a with
      state := state
      updatedAtMs := now
      wamid := (none : Option (Option String)).getD a.wamid
      errorCode := errorCode.getD a.errorCode })
    ⟨fun _ => rfl, fun _ => rfl, fun _ h => absurd h hstate⟩ _

/-- What recording an answer does: the submitted row, or a plain update. -/
lemma settle_effect (attemptId : String) (now : ℤ) (reply : ProviderReply) (c : Control) :
    (∃ wamid, reply = .submitted wamid ∧ (settle attemptId now reply c).sendAttempts =
      c.sendAttempts.map (submitRow attemptId wamid now)) ∨
    ∃ f, Plain f ∧ (settle attemptId now reply c).sendAttempts = c.sendAttempts.map f := by
  cases reply with
  | timeoutAfterSend => exact .inr ⟨_, plain_finish attemptId (by simp) now none, rfl⟩
  | connectFailed =>
    exact .inr ⟨_, plain_finish attemptId (by simp) now (some (some "connect_fail")), rfl⟩
  | submitted wamid => exact .inl ⟨wamid, rfl, rfl⟩
  | rejected errorCode =>
    exact .inr ⟨_, plain_finish attemptId (by simp) now (some errorCode), rfl⟩
  | raises => exact .inr ⟨id, ⟨fun _ => rfl, fun _ => rfl, fun _ h => h⟩, by simp [settle]⟩

lemma submit_effect (P : Platform) (i : ℕ) (env : Envelope) (reading : ℤ) (attemptId : String)
    {s : Sys} (hs : OnlySender s) :
    Effect s (.submit i env reading attemptId) (submit P i env reading attemptId s).attempts := by
  unfold submit
  split
  · rename_i now clock t _ hbase
    split
    · exact .same
    split
    · exact .same
    rename_i permit _ _ nonce c hconsumed
    have hc : c.sendAttempts = s.attempts := (consumeNonce_sendAttempts hconsumed).trans (hs.base hbase)
    split
    · exact .same
    · rename_i c' hopen
      obtain ⟨row, rfl, hstate, hwamid, hfree, hrows⟩ := openAttempt_appends hopen
      have hafter : (Sys.setFlight { s with clock := clock, db := .idle { t with control := c' } } i
          (.committed permit row.id now)).attempts = s.attempts ++ [row] := hrows.trans (by rw [hc])
      rw [hafter]
      exact .opened (hc ▸ hfree) hstate hwamid
  · exact .same

lemma sendText_attempts (i : ℕ) (permit : Permit) (attemptId : String) (now : ℤ)
    (reply : ProviderReply) (s : Sys) :
    (sendText i permit attemptId now reply s).attempts = s.attempts := by
  unfold sendText
  split <;> rfl

lemma callback_effect (j : ℕ) (event : StatusEvent) (nowMs : ℤ) (candidateId : String) {s : Sys}
    (hs : OnlySender s) (hidle : s.deliveries j = .idle) :
    Effect s (.callback j event nowMs candidateId)
      (callback j event nowMs candidateId s).attempts := by
  unfold callback
  split
  · rename_i htime
    split
    · exact .same
    rename_i attemptId hnamed
    split
    · exact .same
    · rename_i t hbase
      have hafter : (resolve attemptId event.wamid nowMs t.control).sendAttempts =
          s.attempts.map (resolveRow attemptId event.wamid nowMs) := by
        rw [← hs.base hbase]
        rfl
      change Effect s _ (resolve attemptId event.wamid nowMs t.control).sendAttempts
      rw [hafter]
      exact .resolved ⟨hidle, htime, by simp [hbase]⟩ hnamed
  · exact .same

/-- The last step of a delivery touches the attempt it has matched, or no attempt. -/
lemma step_record (P : Platform) {s : Sys} (hs : OnlySender s) (j : ℕ) :
    (step P s (.record j)).1.attempts = s.attempts ∨
      ∃ attemptId nowMs, s.deliveries j = .matched attemptId nowMs ∧
        (step P s (.record j)).1.attempts = s.attempts.map fun a =>
          if a.id = attemptId then { a with updatedAtMs := nowMs } else a := by
  simp only [step]
  split
  · rename_i attemptId nowMs hmatched
    let f := fun c : Control => some (touch attemptId nowMs c)
    let after := (s.writeControl (deliverer j) f).setDelivery j .idle
    have hdb : after.db = (s.writeControl (deliverer j) f).db := rfl
    obtain hsame | ⟨c, c', hran, hc, hafter⟩ := attempts_writeControl hs hdb
    · exact .inl hsame
    · obtain rfl := Option.some.inj hran
      exact .inr ⟨attemptId, nowMs, hmatched, hafter.trans (congrArg (List.map _) hc)⟩
  · rename_i event nowMs candidateId _
    left
    obtain hdb | ⟨t, t', hbase, ht', hdb⟩ :=
      Db.write_cases (deliverer j) (recordCandidate event nowMs candidateId) s.db
    · exact attempts_of_db_eq hdb
    · rw [← hs.base hbase, ← recordCandidate_control ht']
      exact congrArg (fun db : Db Store => db.committed.control.sendAttempts) hdb
  · exact .inl rfl

/-- What a step can do to the attempts. -/
theorem step_effect (P : Platform) {s : Sys} (hs : OnlySender s) (label : Label) :
    Effect s label (step P s label).1.attempts := by
  cases label with
  | submit i env reading attemptId =>
    simp only [step]
    split
    · exact submit_effect P i env reading attemptId hs
    · exact .same
  | sendText i reply =>
    simp only [step]
    split
    · rw [sendText_attempts]
      exact .same
    · exact .same
  | finish i =>
    by_cases hanswered : ∃ attemptId now reply, s.flights i = .answered attemptId now reply
    · obtain ⟨attemptId, now, reply, hflight⟩ := hanswered
      obtain ⟨-, c, hc, hafter⟩ := step_finish P hs hflight
      rw [hafter]
      obtain ⟨wamid, rfl, hrows⟩ | ⟨f, hf, hrows⟩ := settle_effect attemptId now reply c
      · rw [hrows, hc]
        exact .submitted hflight
      · rw [hrows, hc]
        exact .plain hf (by simp)
    · rw [step_finish_of_not_answered P fun a n r h => hanswered ⟨a, n, r, h⟩]
      exact .same
  | die =>
    have hsame : (step P s .die).1.attempts = s.attempts := by
      simp only [step, Sys.attempts, Db.rollback_committed]
    exact hsame ▸ .same
  | recoverStartup nowMs =>
    have hdb : (step P s (.recoverStartup nowMs)).1.db =
        (s.writeControl starter (Sender.recoverStartup nowMs)).db := rfl
    obtain hsame | ⟨c, c', hran, hc, hafter⟩ := attempts_writeControl hs hdb
    · exact hsame ▸ .same
    · unfold Sender.recoverStartup at hran
      split at hran
      · obtain rfl := Option.some.inj hran
        rw [hafter]
        exact hc ▸ .plain (plain_recover nowMs) (by simp)
      · cases hran
  | callback j event nowMs candidateId =>
    simp only [step]
    split
    · exact callback_effect j event nowMs candidateId hs ‹_›
    · exact .same
  | lookUp j =>
    simp only [step]
    split <;> exact .same
  | record j =>
    obtain hsame | ⟨attemptId, nowMs, -, hrows⟩ := step_record P hs j
    · exact hsame ▸ .same
    · exact hrows ▸ .plain (plain_touch attemptId nowMs) (by simp)

/-! ## The correlation -/

/-- Every SUBMITTED attempt has a wamid, and no two attempts have the same one. -/
structure Correlated (rows : List SendAttempt) : Prop where
  durable : ∀ a ∈ rows, a.state = .submitted → a.wamid ≠ none
  unshared : ∀ a ∈ rows, ∀ b ∈ rows, a.wamid = b.wamid → a.wamid ≠ none → a.id = b.id

/-- There is a wamid, and no other attempt has it. -/
def Own (rows : List SendAttempt) (attemptId : String) (wamid : Option String) : Prop :=
  ∃ w, wamid = some w ∧ ∀ a ∈ rows, a.wamid = some w → a.id = attemptId

/-- What `_finish` is about to write for a submitted message, and what a report writes to the attempt
it resolves, is a wamid of the attempt's own. -/
def WritesOwn (s : Sys) : Label → Prop
  | .finish i =>
    ∀ attemptId now wamid, s.flights i = .answered attemptId now (.submitted wamid) →
      Own s.attempts attemptId wamid
  | .callback j event nowMs _ =>
    Delivers s j nowMs → ∀ attemptId, event.attemptId = some attemptId →
      (∃ a ∈ s.attempts, a.id = attemptId ∧ a.state = .indeterminate) →
        Own s.attempts attemptId event.wamid
  | _ => True

variable {rows : List SendAttempt}

lemma Correlated.plain (h : Correlated rows) {f : SendAttempt → SendAttempt} (hf : Plain f) :
    Correlated (rows.map f) := by
  refine ⟨List.forall_mem_map.mpr fun a ha hstate => ?_,
    List.forall_mem_map.mpr fun a ha => List.forall_mem_map.mpr fun b hb hsame hsome => ?_⟩
  · rw [hf.wamid]
    exact h.durable a ha (hf.state a hstate)
  · rw [hf.wamid] at hsame hsome
    rw [hf.wamid] at hsame
    rw [hf.id, hf.id]
    exact h.unshared a ha b hb hsame hsome

/-- An UPDATE that leaves a row alone or gives the attempt a wamid of its own. -/
lemma Correlated.own (h : Correlated rows) {f : SendAttempt → SendAttempt} {attemptId : String}
    {w : String} (hw : ∀ a ∈ rows, a.wamid = some w → a.id = attemptId)
    (hf : ∀ a, f a = a ∨ a.id = attemptId ∧ (f a).id = attemptId ∧ (f a).wamid = some w) :
    Correlated (rows.map f) := by
  refine ⟨List.forall_mem_map.mpr fun a ha hstate => ?_,
    List.forall_mem_map.mpr fun a ha => List.forall_mem_map.mpr fun b hb hsame hsome => ?_⟩
  · obtain hleft | ⟨-, -, hwamid⟩ := hf a
    · rw [hleft] at hstate ⊢
      exact h.durable a ha hstate
    · simp [hwamid]
  · obtain hlefta | ⟨-, hida, hwamida⟩ := hf a
    · rw [hlefta] at hsame hsome ⊢
      obtain hleftb | ⟨-, hidb, hwamidb⟩ := hf b
      · rw [hleftb] at hsame ⊢
        exact h.unshared a ha b hb hsame hsome
      · rw [hidb]
        exact hw a ha (hsame.trans hwamidb)
    · rw [hida]
      obtain hleftb | ⟨-, hidb, -⟩ := hf b
      · rw [hleftb] at hsame ⊢
        exact (hw b hb (hsame.symm.trans hwamida)).symm
      · exact hidb.symm

lemma submitRow_cases (attemptId w : String) (now : ℤ) (a : SendAttempt) :
    submitRow attemptId (some w) now a = a ∨ a.id = attemptId ∧
      (submitRow attemptId (some w) now a).id = attemptId ∧
        (submitRow attemptId (some w) now a).wamid = some w := by
  unfold submitRow
  split
  · rename_i hid
    exact .inr ⟨hid, hid, rfl⟩
  · exact .inl rfl

lemma resolveRow_cases (attemptId w : String) (nowMs : ℤ) (a : SendAttempt) :
    resolveRow attemptId (some w) nowMs a = a ∨ a.id = attemptId ∧
      (resolveRow attemptId (some w) nowMs a).id = attemptId ∧
        (resolveRow attemptId (some w) nowMs a).wamid = some w := by
  unfold resolveRow
  split
  · rename_i hrow
    exact .inr ⟨hrow.1, hrow.1, rfl⟩
  · exact .inl rfl

/-- A step that writes only own wamids keeps the correlation. -/
lemma Effect.correlated {s : Sys} {label : Label} {after : List SendAttempt}
    (heffect : Effect s label after) (h : Correlated s.attempts) (hC : WritesOwn s label) :
    Correlated after := by
  cases heffect with
  | same => exact h
  | @opened i env reading row free state wamid =>
    refine ⟨fun a ha hsubmitted => ?_, fun a ha b hb hsame hsome => ?_⟩
    · rw [List.mem_append, List.mem_singleton] at ha
      obtain hold | rfl := ha
      · exact h.durable a hold hsubmitted
      · rw [state] at hsubmitted
        cases hsubmitted
    · rw [List.mem_append, List.mem_singleton] at ha hb
      obtain holda | rfl := ha
      · obtain holdb | rfl := hb
        · exact h.unshared a holda b holdb hsame hsome
        · exact absurd (hsame.trans wamid) hsome
      · exact absurd wamid hsome
  | plain hf hlabel => exact h.plain hf
  | submitted flight =>
    obtain ⟨w, rfl, hw⟩ := hC _ _ _ flight
    exact h.own hw (submitRow_cases _ w _)
  | @resolved j event nowMs candidateId attemptId delivers named =>
    by_cases hrow : ∃ a ∈ s.attempts, a.id = attemptId ∧ a.state = .indeterminate
    · obtain ⟨w, hwamid, hw⟩ := hC delivers attemptId named hrow
      rw [hwamid]
      exact h.own hw (resolveRow_cases _ w _)
    · have hsame : s.attempts.map (resolveRow attemptId event.wamid nowMs) = s.attempts := by
        refine (List.map_congr_left fun a ha => ?_).trans (List.map_id _)
        exact if_neg fun hmatch => hrow ⟨a, ha, hmatch⟩
      rw [hsame]
      exact h

/-- The row an UPDATE gives a wamid that is missing, or that another attempt has, ends the
correlation. -/
lemma not_correlated_of_not_own {f : SendAttempt → SendAttempt} {attemptId : String}
    {wamid : Option String} {a : SendAttempt} (ha : a ∈ rows) (hid : (f a).id = attemptId)
    (hstate : (f a).state = .submitted) (hwamid : (f a).wamid = wamid)
    (hothers : ∀ b, b.id ≠ attemptId → f b = b) (hown : ¬ Own rows attemptId wamid) :
    ¬ Correlated (rows.map f) := by
  intro h
  rcases hsome : wamid with _ | w
  · exact h.durable (f a) (List.mem_map_of_mem ha) hstate (hwamid.trans hsome)
  · refine hown ⟨w, hsome, fun b hb hbw => ?_⟩
    by_contra hne
    have hb' : b ∈ rows.map f := by
      rw [← hothers b hne]
      exact List.mem_map_of_mem hb
    have hshared : (f a).wamid = b.wamid := (hwamid.trans hsome).trans hbw.symm
    have heq := h.unshared (f a) (List.mem_map_of_mem ha) b hb' hshared (by simp [hwamid, hsome])
    exact hne (heq.symm.trans hid)

/-! ## The attempts in flight -/

/-- The attempt a call is about. -/
def Flight.attempt : Flight → Option String
  | .idle => none
  | .committed _ attemptId _ => some attemptId
  | .answered attemptId _ _ => some attemptId

/-- The attempts of the calls in flight are there. -/
def InFlight (s : Sys) : Prop :=
  ∀ i id, (s.flights i).attempt = some id → ∃ a ∈ s.attempts, a.id = id

/-- A step leaves the identifiers as they are, or adds a new one. -/
lemma Effect.ids {s : Sys} {label : Label} {after : List SendAttempt} (h : Effect s label after) :
    after.map SendAttempt.id = s.attempts.map SendAttempt.id ∨
      ∃ row, after = s.attempts ++ [row] ∧ ∀ a ∈ s.attempts, a.id ≠ row.id := by
  cases h with
  | same => exact .inl rfl
  | opened free state wamid => exact .inr ⟨_, rfl, free⟩
  | plain hf hlabel =>
    left
    rw [List.map_map]
    exact List.map_congr_left fun a _ => hf.id a
  | submitted flight =>
    left
    rw [List.map_map]
    refine List.map_congr_left fun a _ => ?_
    simp only [Function.comp_apply, submitRow]
    split <;> rfl
  | resolved delivers named =>
    left
    rw [List.map_map]
    refine List.map_congr_left fun a _ => ?_
    simp only [Function.comp_apply, resolveRow]
    split <;> rfl

lemma Effect.unique {s : Sys} {label : Label} {after : List SendAttempt} (h : Effect s label after)
    (hids : Table.Unique SendAttempt.id s.attempts) : Table.Unique SendAttempt.id after := by
  obtain hsame | ⟨row, rfl, hfree⟩ := h.ids
  · unfold Table.Unique at *
    rwa [hsame]
  · exact hids.append hfree

lemma Effect.keeps_id {s : Sys} {label : Label} {after : List SendAttempt} (h : Effect s label after)
    {a : SendAttempt} (ha : a ∈ s.attempts) : ∃ a' ∈ after, a'.id = a.id := by
  obtain hsame | ⟨row, rfl, -⟩ := h.ids
  · have hmem : a.id ∈ after.map SendAttempt.id := hsame ▸ List.mem_map_of_mem ha
    exact List.mem_map.mp hmem
  · exact ⟨a, List.mem_append_left _ ha, rfl⟩

lemma setFlight_attempt {s : Sys} {i k : ℕ} {f : Flight} {id : String}
    (h : ((s.setFlight i f).flights k).attempt = some id) :
    (s.flights k).attempt = some id ∨ f.attempt = some id := by
  by_cases hk : k = i
  · rw [hk, setFlight_self] at h
    exact .inr h
  · left
    simpa [Sys.setFlight, hk] using h

lemma submit_flights (P : Platform) (i : ℕ) (env : Envelope) (reading : ℤ) (attemptId : String)
    (s : Sys) (k : ℕ) (id : String) :
    ((submit P i env reading attemptId s).flights k).attempt = some id →
      (s.flights k).attempt = some id ∨
        ∃ a ∈ (submit P i env reading attemptId s).attempts, a.id = id := by
  unfold submit
  split
  · split
    · exact .inl
    split
    · exact .inl
    split
    · exact .inl
    · rename_i c' hopen
      intro h
      obtain hold | hnew := setFlight_attempt h
      · exact .inl hold
      · right
        obtain rfl := Option.some.inj hnew
        obtain ⟨row, hid, -, -, -, hrows⟩ := openAttempt_appends hopen
        refine ⟨row, ?_, hid⟩
        change row ∈ c'.sendAttempts
        rw [hrows]
        exact List.mem_append_right _ List.mem_cons_self
  · exact .inl

/-- The attempt of a call in flight was in flight before, or was just opened. -/
lemma step_flights (P : Platform) {s : Sys} (label : Label) {k : ℕ} {id : String}
    (h : ((step P s label).1.flights k).attempt = some id) :
    (s.flights k).attempt = some id ∨ ∃ a ∈ (step P s label).1.attempts, a.id = id := by
  cases label with
  | submit i env reading attemptId =>
    simp only [step] at h ⊢
    split at h
    · exact submit_flights P i env reading attemptId s k id h
    · exact .inl h
  | sendText i reply =>
    simp only [step] at h
    split at h
    · rename_i permit attemptId now hflight
      left
      unfold sendText at h
      split at h
      · obtain hold | hnew := setFlight_attempt h
        · exact hold
        · cases hnew
      · by_cases hk : k = i
        · rw [hk, setFlight_self] at h
          rw [hk, hflight]
          exact h
        · simpa [Sys.setFlight, hk] using h
    · exact .inl h
  | finish i =>
    simp only [step] at h
    split at h
    · obtain hold | hnew := setFlight_attempt h
      · exact .inl hold
      · cases hnew
    · exact .inl h
  | die => cases h
  | recoverStartup nowMs => exact .inl h
  | callback j event nowMs candidateId =>
    simp only [step] at h
    split at h
    · rw [callback_flights] at h
      exact .inl h
    · exact .inl h
  | lookUp j =>
    simp only [step] at h
    split at h <;> exact .inl h
  | record j =>
    simp only [step] at h
    split at h <;> exact .inl h

lemma step_inFlight (P : Platform) {s : Sys} (hs : OnlySender s) (label : Label) (h : InFlight s) :
    InFlight (step P s label).1 := by
  intro k id hk
  obtain hold | hnew := step_flights P label hk
  · obtain ⟨a, ha, rfl⟩ := h k id hold
    exact (step_effect P hs label).keeps_id ha
  · exact hnew

/-! ## The reports -/

/-- The report has no wamid. -/
def StatusEvent.NoWamid (event : StatusEvent) : Prop := event.wamid.getD "" = ""

/-- The delivery is over, or of a report without a wamid that has matched nothing. -/
def Delivery.Anonymous : Delivery → Prop
  | .idle => True
  | .unresolved event .. => event.NoWamid
  | .matched .. => False
  | .unmatched event .. => event.NoWamid

/-- The step is one of the delivery's, of a report that is identified by its recipient and its time
alone. -/
def Unidentified (s : Sys) (j : ℕ) : Label → Prop
  | .callback k event _ _ =>
    k = j ∧ event.attemptId = none ∧ event.NoWamid ∧ (s.deliveries j).Anonymous
  | .lookUp k => k = j ∧ (s.deliveries j).Anonymous
  | .record k => k = j ∧ (s.deliveries j).Anonymous
  | _ => False

/-- What a report changes: its first step the attempt that its callback data names, its later steps no
state and no wamid, and one that is identified by recipient and time alone no attempt. -/
structure Attributed (P : Platform) (s : Sys) (label : Label) : Prop where
  named : ∀ j event nowMs candidateId, label = .callback j event nowMs candidateId →
    ∀ a ∈ s.attempts, event.attemptId ≠ some a.id → a ∈ (step P s label).1.attempts
  later : ∀ j, label = .lookUp j ∨ label = .record j →
    (step P s label).1.attempts.map (fun a => (a.id, a.state, a.wamid)) =
      s.attempts.map fun a => (a.id, a.state, a.wamid)
  unidentified : ∀ j, Unidentified s j label →
    (step P s label).1.attempts = s.attempts ∧ ((step P s label).1.deliveries j).Anonymous

lemma step_lookUp_attempts (P : Platform) (s : Sys) (j : ℕ) :
    (step P s (.lookUp j)).1.attempts = s.attempts := by
  simp only [step]
  split <;> rfl

lemma attemptOf_noWamid {event : StatusEvent} (h : event.NoWamid) (c : Control) :
    attemptOf event.wamid c = none := by
  unfold attemptOf
  split
  · rename_i w hw
    have hempty : w = "" := by simpa [StatusEvent.NoWamid, hw] using h
    rw [if_pos hempty]
  · rfl

lemma setDelivery_self {s : Sys} {j : ℕ} {d : Delivery} : (s.setDelivery j d).deliveries j = d := by
  simp [Sys.setDelivery]

lemma step_unidentified (P : Platform) {s : Sys} (hs : OnlySender s) (j : ℕ) {label : Label}
    (h : Unidentified s j label) : (step P s label).1.attempts = s.attempts ∧
      ((step P s label).1.deliveries j).Anonymous := by
  cases label with
  | callback k event nowMs candidateId =>
    obtain ⟨rfl, hnone, hwamid, hanonymous⟩ := h
    simp only [step]
    split
    · unfold callback
      rw [hnone]
      split
      · refine ⟨rfl, ?_⟩
        rw [setDelivery_self]
        exact hwamid
      · exact ⟨rfl, hanonymous⟩
    · exact ⟨rfl, hanonymous⟩
  | lookUp k =>
    obtain ⟨rfl, hanonymous⟩ := h
    refine ⟨step_lookUp_attempts P s k, ?_⟩
    simp only [step]
    split
    · rename_i event nowMs candidateId hphase
      rw [hphase] at hanonymous
      rw [setDelivery_self, attemptOf_noWamid hanonymous]
      exact hanonymous
    · exact hanonymous
  | record k =>
    obtain ⟨rfl, hanonymous⟩ := h
    constructor
    · obtain hsame | ⟨attemptId, nowMs, hmatched, -⟩ := step_record P hs k
      · exact hsame
      · rw [hmatched] at hanonymous
        exact absurd hanonymous id
    · simp only [step]
      split
      · rw [setDelivery_self]
        trivial
      · rw [setDelivery_self]
        trivial
      · exact hanonymous
  | submit i env reading attemptId => exact absurd h id
  | sendText i reply => exact absurd h id
  | finish i => exact absurd h id
  | die => exact absurd h id
  | recoverStartup nowMs => exact absurd h id

/-- A report is never attributed to an attempt it does not name. -/
theorem step_attributed (P : Platform) {s : Sys} (hs : OnlySender s) (label : Label) :
    Attributed P s label := by
  refine ⟨fun j event nowMs candidateId hlabel a ha hother => ?_, fun j hlabel => ?_,
    fun j h => step_unidentified P hs j h⟩
  · subst hlabel
    have heffect := step_effect P hs (.callback j event nowMs candidateId)
    generalize (step P s (.callback j event nowMs candidateId)).1.attempts = after at heffect ⊢
    cases heffect with
    | same => exact ha
    | plain hf hlabel => exact absurd rfl (hlabel j event nowMs candidateId)
    | @resolved _ _ _ _ attemptId delivers named =>
      have hleft : resolveRow attemptId event.wamid nowMs a = a :=
        if_neg fun hmatch => hother (named.trans (congrArg some hmatch.1.symm))
      exact hleft ▸ List.mem_map_of_mem ha
  · obtain rfl | rfl := hlabel
    · rw [step_lookUp_attempts]
    · obtain hsame | ⟨attemptId, nowMs, -, hrows⟩ := step_record P hs j
      · rw [hsame]
      · rw [hrows, List.map_map]
        refine List.map_congr_left fun a _ => ?_
        simp only [Function.comp_apply]
        split <;> rfl

/-! ## The runs -/

/-- The invariant of the runs. -/
structure Consistent (s : Sys) : Prop where
  sound : Sound s
  ids : Table.Unique SendAttempt.id s.attempts
  inFlight : InFlight s
  correlated : Correlated s.attempts

lemma step_consistent (P : Platform) (s : Sys) (label : Label) (hs : Consistent s)
    (hC : WritesOwn s label) : Consistent (step P s label).1 := by
  have heffect := step_effect P hs.sound.onlySender label
  exact ⟨step_sound P s label hs.sound, heffect.unique hs.ids,
    step_inFlight P hs.sound.onlySender label hs.inFlight, heffect.correlated hs.correlated hC⟩

/-- A report that names an INDETERMINATE attempt is written to it. -/
lemma step_callback_resolves (P : Platform) {s : Sys} (hs : OnlySender s) {j : ℕ}
    {event : StatusEvent} {nowMs : ℤ} {candidateId attemptId : String} (hdelivers : Delivers s j nowMs)
    (hnamed : event.attemptId = some attemptId) :
    (step P s (.callback j event nowMs candidateId)).1.attempts =
      s.attempts.map (resolveRow attemptId event.wamid nowMs) := by
  obtain ⟨hidle, htime, hfree⟩ := hdelivers
  obtain ⟨t, hbase⟩ := Option.ne_none_iff_exists'.mp hfree
  have hstep : (step P s (.callback j event nowMs candidateId)).1.attempts =
      (resolve attemptId event.wamid nowMs t.control).sendAttempts := by
    simp [step, hidle, callback, htime, hnamed, hbase, Sys.attempts, Sys.setDelivery, Db.idle]
  rw [hstep, ← hs.base hbase]
  rfl

lemma step_not_correlated (P : Platform) (s : Sys) (label : Label) (hs : Consistent s)
    (hC : ¬ WritesOwn s label) : ¬ Correlated (step P s label).1.attempts := by
  cases label with
  | finish i =>
    simp only [WritesOwn, not_forall] at hC
    obtain ⟨attemptId, now, wamid, hflight, hown⟩ := hC
    obtain ⟨-, c, hc, hafter⟩ := step_finish P hs.sound.onlySender hflight
    obtain ⟨a, ha, hid⟩ := hs.inFlight i attemptId (by rw [hflight]; rfl)
    have hrows : (settle attemptId now (.submitted wamid) c).sendAttempts =
        s.attempts.map (submitRow attemptId wamid now) := congrArg (List.map _) hc
    rw [hafter, hrows]
    refine not_correlated_of_not_own ha ?_ ?_ ?_ (fun b hb => if_neg hb) hown
    · simp [submitRow, hid]
    · simp [submitRow, hid]
    · simp [submitRow, hid]
  | callback j event nowMs candidateId =>
    simp only [WritesOwn, not_forall] at hC
    obtain ⟨hdelivers, attemptId, hnamed, ⟨a, ha, hid, hstate⟩, hown⟩ := hC
    rw [step_callback_resolves P hs.sound.onlySender hdelivers hnamed]
    refine not_correlated_of_not_own ha ?_ ?_ ?_ (fun b hb => if_neg fun h => hb h.1) hown
    · simp [resolveRow, hid, hstate]
    · simp [resolveRow, hid, hstate]
    · simp [resolveRow, hid, hstate]
  | submit i env reading attemptId => exact absurd trivial hC
  | sendText i reply => exact absurd trivial hC
  | die => exact absurd trivial hC
  | recoverStartup nowMs => exact absurd trivial hC
  | lookUp j => exact absurd trivial hC
  | record j => exact absurd trivial hC

/-- In every state of the run the attempts are correlated, and at every step reports change only what
they name. -/
structure Submits (P : Platform) (t : Store) (labels : List Label) : Prop where
  correlated : ∀ n, Correlated (Run.final (step P) (.start t) (labels.take n)).attempts
  attributed : Run.Meets (step P) (Attributed P) (.start t) labels

/-- **Correlation.**  From a database whose attempts have identifiers and wamids of their own, a run
keeps SUBMITTED attempts correlated with the provider's messages exactly where every answer and every
report it records on an attempt has a wamid that no other attempt has. -/
theorem submits_iff (P : Platform) (t : Store)
    (hids : Table.Unique SendAttempt.id t.control.sendAttempts)
    (hstart : Correlated t.control.sendAttempts) (labels : List Label) :
    Submits P t labels ↔ Run.Meets (step P) WritesOwn (.start t) labels := by
  have hidle : InFlight (.start t) := by
    intro i id h
    cases h
  have hconsistent : Consistent (.start t) := ⟨sound_start t, hids, hidle, hstart⟩
  have hiff := Run.always_iff_meets (C := WritesOwn) (D := fun _ _ => True)
    (I := Consistent) (J := fun s => Correlated s.attempts)
    (fun s label hs _ hC => step_consistent P s label hs hC)
    (fun s label hs _ hC => step_not_correlated P s label hs hC) (fun s hs => hs.correlated)
    hconsistent (Run.meets_of_forall (fun _ _ => trivial) (Sys.start t) labels)
  have hattributed : Run.Meets (step P) (Attributed P) (.start t) labels :=
    Run.meets_of_invariant (C := fun _ _ => True) (I := Sound)
      (fun s label hs _ => step_sound P s label hs)
      (fun s label hs _ => step_attributed P hs.onlySender label) (sound_start t)
      (Run.meets_of_forall (fun _ _ => trivial) (Sys.start t) labels)
  exact ⟨fun h => hiff.mp h.correlated, fun h => ⟨hiff.mpr h, hattributed⟩⟩

section Sample

/-- A call of `execute_write`, and what the provider answers. -/
def answeredRun (reply : ProviderReply) : List Label :=
  [.submit 0 sampleEnvelope 2000 "atm_1", .sendText 0 reply, .finish 0]

/-- The state in which `_finish` records the answer. -/
def answeredSys : Sys :=
  (step Approval.replayPlatform (step Approval.replayPlatform (.start preparedStore)
    (.submit 0 sampleEnvelope 2000 "atm_1")).1 (.sendText 0 (.submitted (some "wamid.1")))).1

lemma writesOwn_finish {s : Sys} {i : ℕ} {attemptId : String} {now : ℤ} {wamid : Option String}
    (hflight : s.flights i = .answered attemptId now (.submitted wamid))
    (hown : Own s.attempts attemptId wamid) : WritesOwn s (.finish i) := by
  intro attemptId' now' wamid' hflight'
  obtain ⟨rfl, rfl, hreply⟩ := Flight.answered.inj (hflight.symm.trans hflight')
  obtain rfl := ProviderReply.submitted.inj hreply
  exact hown

/-- The rule on a call that the provider answers with a wamid. -/
theorem submits_iff_answered : Submits Approval.replayPlatform preparedStore
    (answeredRun (.submitted (some "wamid.1"))) := by
  have hids : Table.Unique SendAttempt.id preparedStore.control.sendAttempts := by
    unfold Table.Unique
    decide
  have hstart : Correlated preparedStore.control.sendAttempts := by
    have hnone : preparedStore.control.sendAttempts = [] := by decide
    rw [hnone]
    exact ⟨by simp, by simp⟩
  have hfinish : WritesOwn answeredSys (.finish 0) := by
    have hflight : answeredSys.flights 0 = .answered "atm_1" 2000 (.submitted (some "wamid.1")) := by
      decide +kernel
    refine writesOwn_finish hflight ⟨"wamid.1", rfl, fun a ha hwamid => ?_⟩
    have hrows : answeredSys.attempts.all (fun a => a.wamid = none) = true := by decide +kernel
    have hnone := List.all_eq_true.mp hrows a ha
    rw [decide_eq_true_eq, hwamid] at hnone
    cases hnone
  exact (submits_iff Approval.replayPlatform preparedStore hids hstart _).mpr
    ⟨trivial, trivial, hfinish, trivial⟩

/-- The call times out, and a report names its attempt without a wamid. -/
def silentRun : List Label :=
  answeredRun .timeoutAfterSend ++ [.callback 0 { sampleEvent with wamid := none } 2200 "rcn_1"]

/-- The attempt is SUBMITTED with a NULL wamid. -/
theorem submitted_without_wamid :
    (Run.final (step Approval.replayPlatform) (.start preparedStore) silentRun).attempts.map
      (fun a => (a.id, a.state, a.wamid)) = [("atm_1", .submitted, none)] ∧
    ¬ Submits Approval.replayPlatform preparedStore silentRun := by
  have hafter : (Run.final (step Approval.replayPlatform) (.start preparedStore)
      (silentRun.take 4)).attempts.any (fun a => a.state = .submitted ∧ a.wamid = none) = true := by
    decide +kernel
  refine ⟨by decide +kernel, fun hsubmits => ?_⟩
  obtain ⟨a, ha, hrow⟩ := List.any_eq_true.mp hafter
  rw [decide_eq_true_eq] at hrow
  exact (hsubmits.correlated 4).durable a ha hrow.1 hrow.2

end Sample

end WhatsVault.Reconcile
