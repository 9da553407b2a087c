import WhatsVault.Ingest.WindowProjection
import WhatsVault.Library.MaxRegister

/-!
# The doctor and the live path on one window

`rebuild_window_from_evidence` reads the evidence of a conversation in the vault, then the stored
window in the control database, and writes the former over the latter where they differ.
`drain_once` commits a message to the vault, reads the stored window, and writes back the maximum of
the two.  Here the two interleave between any of these reads and commits, each on connections of its
own; a write stands together with its commit.

For one conversation this is the register of `MaxRegister`, with the live path as its raiser and the
doctor as its repairer.  A message that is committed and projected between the doctor's read of the
evidence and its write is overwritten, and one whose projection read the window before that write
overwrites the repair.
-/

namespace WhatsVault.Ingest.Repair

open Transaction

/-- `drain_once` in the middle of an atom. -/
inductive Phase
  | idle
  /-- The evidence of an inbound message is committed. -/
  | committed (applied : Applied)
  /-- `advance_window` has read the window and computed the row to write. -/
  | windowRead (applied : Applied) (row : ConversationWindow)
  | windowWritten (applied : Applied)

/-- `rebuild_window_from_evidence` between its statements. -/
inductive Doctor
  | ready
  | evidenceRead (evidenceMs : ℤ)
  | storedRead (evidenceMs storedMs : ℤ)
  | finished (report : WindowReport)
  | raised
  deriving DecidableEq

/-- The committed states of the two databases, and where the two callers are. -/
structure Sys where
  vault : Vault
  control : Control
  phase : Phase
  doctor : Doctor

/-- Neither has begun. -/
def Sys.start (v : Vault) (c : Control) : Sys := ⟨v, c, .idle, .ready⟩

inductive Label
  /-- The transaction of one atom on the vault. -/
  | commitAtom (now : ℤ) (ids : AtomIds) (atom : Atom)
  | readWindow
  | upsertWindow
  | index
  | readEvidence
  | readStored
  | repair

section Step

variable (P : Platform) (S : Stdlib) (N : Search.Normaliser) (conversationId : String)

/-- The transaction of an atom; where it raises nothing is stored. -/
def commitAtom (now : ℤ) (ids : AtomIds) (atom : Atom) (s : Sys) : Sys :=
  match decode P S atom with
  | none => s
  | some x =>
    match ingestBody P S ids now atom x s.vault with
    | some (v, .stored applied) =>
      match x.family, applied with
      | .messageInbound, some applied => { s with vault := v, phase := .committed applied }
      | _, _ => { s with vault := v }
    | _ => s

/-- The doctor's write; the CHECK of the table refuses a negative value. -/
def repair (evidenceMs storedMs : ℤ) (s : Sys) : Sys :=
  let report : WindowReport := ⟨evidenceMs, storedMs, storedMs ≠ evidenceMs⟩
  if storedMs = evidenceMs then { s with doctor := .finished report }
  else if h : 0 ≤ evidenceMs then
    { s with
      control := s.control.putWindow ⟨conversationId, evidenceMs, h⟩
      doctor := .finished report }
  else { s with doctor := .raised }

def step (s : Sys) : Label → Sys × List Unit
  | .commitAtom now ids atom =>
    match s.phase with
    | .idle => (commitAtom P S now ids atom s, [])
    | _ => (s, [])
  | .readWindow =>
    match s.phase with
    | .committed applied =>
      let row := s.control.advancedRow applied.conversationId applied.providerMs
      ({ s with phase := .windowRead applied row }, [])
    | _ => (s, [])
  | .upsertWindow =>
    match s.phase with
    | .windowRead applied row =>
      ({ s with control := s.control.putWindow row, phase := .windowWritten applied }, [])
    | _ => (s, [])
  | .index =>
    match s.phase with
    | .windowWritten applied =>
      let v := (indexMessage N none applied.messageId applied.text (.clean s.vault)).1.durable
      ({ s with vault := v, phase := .idle }, [])
    | _ => (s, [])
  | .readEvidence =>
    match s.doctor with
    | .ready =>
      ({ s with doctor := .evidenceRead (evidenceMs s.vault.evidence conversationId) }, [])
    | _ => (s, [])
  | .readStored =>
    match s.doctor with
    | .evidenceRead evidenceMs =>
      ({ s with doctor := .storedRead evidenceMs (s.control.lastInboundMs conversationId) }, [])
    | _ => (s, [])
  | .repair =>
    match s.doctor with
    | .storedRead evidenceMs storedMs => (repair conversationId evidenceMs storedMs s, [])
    | _ => (s, [])

end Step

/-! ## Uninterrupted calls -/

section Uninterrupted

variable {P : Platform} {S : Stdlib} {N : Search.Normaliser} {conversationId : String} {s : Sys}

/-- The doctor's three steps with nothing between them are `rebuild_window_from_evidence`. -/
theorem final_rebuildWindow (hready : s.doctor = .ready) :
    let s' := Run.final (step P S N conversationId) s [.readEvidence, .readStored, .repair]
    match rebuildWindowFromEvidence s.vault.evidence conversationId s.control with
    | some (c, report) => s'.control = c ∧ s'.doctor = .finished report
    | none => s'.control = s.control ∧ s'.doctor = .raised := by
  by_cases hsame : s.control.lastInboundMs conversationId =
      evidenceMs s.vault.evidence conversationId
  · simp [step, hready, repair, rebuildWindowFromEvidence, hsame]
  · by_cases hsign : 0 ≤ evidenceMs s.vault.evidence conversationId
    · simp [step, hready, repair, rebuildWindowFromEvidence, hsame, hsign]
    · simp [step, hready, repair, rebuildWindowFromEvidence, hsame, hsign]

/-- With no fault `index_message` commits, or raises before its first statement. -/
lemma indexMessage_clean (messageId : String) (text : Json) (v : Vault) :
    ∃ v' outcome, indexMessage N none messageId text (.clean v) = (.clean v', outcome) ∧
      outcome ≠ .crashed := by
  rcases htext : indexText text with _ | t
  · exact ⟨v, .raised, by simp [indexMessage, htext], by simp⟩
  · exact ⟨_, .done (), by simp [indexMessage, htext]; rfl, by simp⟩

lemma final_idle (h : s.phase = .idle) :
    Run.final (step P S N conversationId) s [.readWindow, .upsertWindow, .index] = s := by
  simp [step, h]

/-- What is stored of a message fits an integer column, and with it the window it advances. -/
lemma advanceWindow_of_stored {now : ℤ} {ids : AtomIds} {atom : Atom} {x : Decoded} {v v' : Vault}
    {applied : Applied} {c : Control}
    (h : ingestBody P S ids now atom x v = some (v', .stored (some applied)))
    (hfits : ∀ id, fitsInt64 (c.lastInboundMs id) = true) :
    c.advanceWindow applied.conversationId applied.providerMs =
      some (c.putWindow (c.advancedRow applied.conversationId applied.providerMs)) := by
  have hfit : fitsInt64 applied.providerMs = true := by
    rcases ingestBody_eq_some h with ⟨-, -, hduplicate⟩ | ⟨event, e, stored, -, -, happly, -, heq⟩
    · cases hduplicate
    · cases heq
      obtain ⟨rows, hrows⟩ : ∃ rows, x.rows = rows := ⟨_, rfl⟩
      rw [hrows] at happly
      have hstores := applyRows_eq_some happly
      cases hstores with
      | message happends => exact happends.fits
  refine if_pos ?_
  simp only [Control.advancedRow]
  rcases max_choice (c.lastInboundMs applied.conversationId) applied.providerMs with hleft | hright
  · rw [hleft]
    exact hfits _
  · rw [hright]
    exact hfit

/-- So is a turn of the loop of `_process_payload` in which nothing goes wrong. -/
theorem final_processAtom (now : ℤ) (ids : AtomIds) (atom : Atom) (hidle : s.phase = .idle)
    (hfits : ∀ id, fitsInt64 (s.control.lastInboundMs id) = true) :
    let s' := Run.final (step P S N conversationId) s
      [.commitAtom now ids atom, .readWindow, .upsertWindow, .index]
    (processAtom P S N now ids {} atom ⟨.clean s.vault, .clean s.control⟩).1 =
      ⟨.clean s'.vault, .clean s'.control⟩ := by
  have hcommit : (step P S N conversationId s (.commitAtom now ids atom)).1 =
      commitAtom P S now ids atom s := by simp [step, hidle]
  have hrest : ∀ s₁, commitAtom P S now ids atom s = s₁ → s₁.phase = .idle →
      Run.final (step P S N conversationId) s
        [.commitAtom now ids atom, .readWindow, .upsertWindow, .index] = s₁ := by
    intro s₁ hs₁ hphase
    rw [Run.final_cons, hcommit, hs₁, final_idle hphase]
  intro s'
  rcases hdecode : decode P S atom with _ | x
  · have hs' : s' = s := hrest s (by simp [commitAtom, hdecode]) hidle
    simp [processAtom, hdecode, hs']
  rcases hbody : ingestBody P S ids now atom x s.vault with _ | ⟨v, _ | applied⟩
  · have hs' : s' = s := hrest s (by simp [commitAtom, hdecode, hbody]) hidle
    simp [processAtom, hdecode, transact, hbody, hs', Conn.rollback, Conn.clean]
  · have hs' : s' = s := hrest s (by simp [commitAtom, hdecode, hbody]) hidle
    obtain ⟨-, rfl, -⟩ | ⟨_, _, _, -, -, -, -, hstored⟩ := ingestBody_eq_some hbody
    · simp [processAtom, hdecode, transact, hbody, hs']
    · cases hstored
  by_cases hinbound : x.family = .messageInbound ∧ applied.isSome
  · obtain ⟨hfamily, hsome⟩ := hinbound
    obtain ⟨applied, rfl⟩ := Option.isSome_iff_exists.mp hsome
    have hs₁ : commitAtom P S now ids atom s = { s with vault := v, phase := .committed applied } := by
      simp [commitAtom, hdecode, hbody, hfamily]
    have hs' : s' = { s with
        vault := (indexMessage N none applied.messageId applied.text (.clean v)).1.durable
        control := s.control.putWindow
          (s.control.advancedRow applied.conversationId applied.providerMs)
        phase := .idle } := by
      simp only [s', Run.final_cons, hcommit, hs₁]
      simp [step]
    have hadvance := advanceWindow_of_stored hbody hfits
    obtain ⟨v', outcome, hindex, halive⟩ := indexMessage_clean (N := N) applied.messageId
      applied.text v
    rw [hs', hindex]
    cases outcome with
    | done => simp [processAtom, hdecode, transact, hbody, afterCommit, hfamily, project, attempt,
        hadvance, hindex, runHook]
    | raised => simp [processAtom, hdecode, transact, hbody, afterCommit, hfamily, project, attempt,
        hadvance, hindex, runHook]
    | crashed => exact absurd rfl halive
  · have hs₁ : commitAtom P S now ids atom s = { s with vault := v } := by
      rcases hfamily : x.family <;> rcases applied with _ | applied <;>
        simp_all [commitAtom]
    have hs' : s' = { s with vault := v } := hrest _ hs₁ hidle
    rw [hs']
    rcases hfamily : x.family <;> rcases applied with _ | applied <;>
      simp_all [processAtom, transact, afterCommit, runHook]

end Uninterrupted

/-! ## The window as a register -/

/-- The live path, as far as one conversation is concerned. -/
def raiser (conversationId : String) : Phase → MaxRegister.Raiser ℤ
  | .idle => .idle
  | .committed applied =>
    if applied.conversationId = conversationId then .pending applied.providerMs else .idle
  | .windowRead _ row =>
    if row.conversationId = conversationId then .computed row.lastInboundMs else .idle
  | .windowWritten _ => .idle

def repairer : Doctor → MaxRegister.Repairer ℤ
  | .ready => .ready
  | .evidenceRead evidenceMs => .evidenceRead evidenceMs
  | .storedRead evidenceMs storedMs => .storedRead evidenceMs storedMs
  | .finished _ => .finished
  | .raised => .failed

def view (conversationId : String) (s : Sys) : MaxRegister.Reg ℤ where
  evidence := evidenceMs s.vault.evidence conversationId
  stored := s.control.lastInboundMs conversationId
  raiser := raiser conversationId s.phase
  repairer := repairer s.doctor

/-- What the window will hold when the message in flight is projected, if it holds `base` now. -/
def windowAfter (conversationId : String) (base : ℤ) : Phase → ℤ
  | .committed applied =>
    if applied.conversationId = conversationId then max base applied.providerMs else base
  | .windowRead _ row => if row.conversationId = conversationId then row.lastInboundMs else base
  | _ => base

lemma settledFrom_raiser (conversationId : String) (base : ℤ) (phase : Phase) :
    MaxRegister.settledFrom base (raiser conversationId phase) =
      windowAfter conversationId base phase := by
  cases phase with
  | idle => rfl
  | committed applied =>
    by_cases hc : applied.conversationId = conversationId
    · simp [raiser, windowAfter, MaxRegister.settledFrom, hc]
    · simp [raiser, windowAfter, MaxRegister.settledFrom, hc]
  | windowRead applied row =>
    by_cases hc : row.conversationId = conversationId
    · simp [raiser, windowAfter, MaxRegister.settledFrom, hc]
    · simp [raiser, windowAfter, MaxRegister.settledFrom, hc]
  | windowWritten applied => rfl

/-- A doctor about to write a value accounts for all the evidence there is, by what it read and what
the live path has under way. -/
def Accounts (conversationId : String) (s : Sys) : Doctor → Prop
  | .storedRead evidence stored => stored ≠ evidence → 0 ≤ evidence →
    windowAfter conversationId evidence s.phase = evidenceMs s.vault.evidence conversationId
  | _ => True

instance (conversationId : String) (s : Sys) : ∀ d, Decidable (Accounts conversationId s d)
  | .storedRead evidence stored => inferInstanceAs (Decidable (stored ≠ evidence → 0 ≤ evidence →
    windowAfter conversationId evidence s.phase = evidenceMs s.vault.evidence conversationId))
  | .ready => inferInstanceAs (Decidable True)
  | .evidenceRead _ => inferInstanceAs (Decidable True)
  | .finished _ => inferInstanceAs (Decidable True)
  | .raised => inferInstanceAs (Decidable True)

/-- The doctor's write accounts for the evidence, and no inbound message is dated before 1970. -/
def Covers (P : Platform) (S : Stdlib) (conversationId : String) (s : Sys) : Label → Prop
  | .commitAtom _ _ atom => ∀ x, decode P S atom = some x → x.family = .messageInbound →
    ∀ i, x.rows.inbound S = some i → 0 ≤ i.timeMs
  | .repair => Accounts conversationId s s.doctor
  | _ => True

section Simulation

variable {P : Platform} {S : Stdlib} {N : Search.Normaliser} {conversationId : String}

/-- What the transaction of an atom does to the evidence of a conversation. -/
lemma evidenceMs_of_stored (conversationId : String) {now : ℤ} {ids : AtomIds} {atom : Atom}
    {x : Decoded} {v v' : Vault} {applied : Option Applied} (hdecode : decode P S atom = some x)
    (hbody : ingestBody P S ids now atom x v = some (v', .stored applied))
    (htime : x.family = .messageInbound → ∀ i, x.rows.inbound S = some i → 0 ≤ i.timeMs) :
    (x.family ≠ .messageInbound ∧
      evidenceMs v'.evidence conversationId = evidenceMs v.evidence conversationId) ∨
    x.family = .messageInbound ∧ ∃ a, applied = some a ∧
      evidenceMs v'.evidence conversationId =
        if a.conversationId = conversationId then
          max (evidenceMs v.evidence conversationId) a.providerMs
        else evidenceMs v.evidence conversationId := by
  obtain ⟨hkey, hrows, -⟩ := decode_eq_some hdecode
  have hfamily := semanticKey_family hkey
  have hshape := shaped_of_decode hdecode
  rcases ingestBody_eq_some hbody with ⟨-, -, hduplicate⟩ | ⟨event, e, stored, -, -, happly, rfl, heq⟩
  · cases hduplicate
  cases heq
  have hstores := applyRows_eq_some happly
  generalize x.rows = rows at hstores hshape hrows htime
  cases hstores with
  | @message rows row happends =>
    obtain ⟨hinbound, houtbound⟩ := messageRows_inbound hrows
    by_cases hin : x.family = .messageInbound
    · obtain ⟨hdirection, heligible⟩ := hinbound (hfamily ▸ hin)
      obtain ⟨i, hi, hitime, hheard⟩ := heardAs_of_storedAs happends.stored hdirection heligible
      have hnonneg : 0 ≤ row.tsLowerMs := by
        rw [hheard.time]
        exact htime hin i hi
      exact .inr ⟨hin, _, rfl, evidenceMs_append_inbound happends.messages hheard.direction
        hheard.eligible hnonneg conversationId⟩
    · have hdirection : row.direction = .outbound := by
        rw [happends.stored.direction]
        exact houtbound (hfamily ▸ hin)
      exact .inl ⟨hin, evidenceMs_append_outbound happends.messages hdirection conversationId⟩
  | status _ hsame =>
    subst hsame
    refine .inl ⟨fun hin => ?_, rfl⟩
    rw [hin] at hshape
    exact absurd hshape.1 (by decide)
  | none hsame =>
    subst hsame
    refine .inl ⟨fun hin => ?_, rfl⟩
    rw [hin] at hshape
    exact absurd hshape.1 (by decide)

/-- The transaction of an atom observes the time of an inbound message of the conversation. -/
lemma view_commitAtom {s : Sys} (hidle : s.phase = .idle) (now : ℤ) (ids : AtomIds) (atom : Atom)
    (htime : Covers P S conversationId s (.commitAtom now ids atom)) :
    view conversationId (commitAtom P S now ids atom s) = view conversationId s ∨
      ∃ t, view conversationId (commitAtom P S now ids atom s) =
        (MaxRegister.step (view conversationId s) (.observe t)).1 := by
  unfold commitAtom
  split
  · exact .inl rfl
  rename_i x hdecode
  split
  · rename_i v applied hbody
    obtain ⟨hfamily, hevidence⟩ | ⟨hfamily, a, rfl, hevidence⟩ :=
      evidenceMs_of_stored conversationId hdecode hbody (htime x hdecode)
    · split
      · exact absurd ‹_› hfamily
      · left
        simp [view, hevidence]
    · rw [hfamily]
      by_cases hc : a.conversationId = conversationId
      · right
        refine ⟨a.providerMs, ?_⟩
        simp [view, hevidence, hc, raiser, MaxRegister.step, hidle]
      · left
        simp [view, hevidence, hc, raiser, hidle]
  · exact .inl rfl

lemma lastInboundMs_putWindow (c : Control) (row : ConversationWindow) :
    (c.putWindow row).lastInboundMs conversationId =
      if row.conversationId = conversationId then row.lastInboundMs
      else c.lastInboundMs conversationId := by
  by_cases hc : row.conversationId = conversationId
  · simp [Control.lastInboundMs, Control.window_putWindow, hc]
  · simp [Control.lastInboundMs, Control.window_putWindow, hc]

lemma view_readWindow (conversationId : String) {s : Sys} {applied : Applied}
    (hphase : s.phase = .committed applied) :
    ∃ move, MaxRegister.Covered (view conversationId s) move ∧
      view conversationId (step P S N conversationId s .readWindow).1 =
        (MaxRegister.step (view conversationId s) move).1 := by
  by_cases hc : applied.conversationId = conversationId
  · refine ⟨.read, trivial, ?_⟩
    simp [step, hphase, view, raiser, Control.advancedRow, MaxRegister.step, hc]
  · refine ⟨.skip, trivial, ?_⟩
    simp [step, hphase, view, raiser, Control.advancedRow, MaxRegister.step, hc]

lemma view_upsertWindow (conversationId : String) {s : Sys} {applied : Applied}
    {row : ConversationWindow} (hphase : s.phase = .windowRead applied row) :
    ∃ move, MaxRegister.Covered (view conversationId s) move ∧
      view conversationId (step P S N conversationId s .upsertWindow).1 =
        (MaxRegister.step (view conversationId s) move).1 := by
  by_cases hc : row.conversationId = conversationId
  · refine ⟨.write, trivial, ?_⟩
    simp [step, hphase, view, raiser, lastInboundMs_putWindow, MaxRegister.step, hc]
  · refine ⟨.skip, trivial, ?_⟩
    simp [step, hphase, view, raiser, lastInboundMs_putWindow, MaxRegister.step, hc]

lemma view_index {s : Sys} {applied : Applied} (hphase : s.phase = .windowWritten applied) :
    view conversationId (step P S N conversationId s .index).1 = view conversationId s := by
  have hevidence : (indexMessage N none applied.messageId applied.text
      (.clean s.vault)).1.durable.evidence = s.vault.evidence :=
    (holds_indexMessage (I := fun v => v.evidence = s.vault.evidence) (fun _ _ h => h) none
      applied.messageId applied.text (Conn.holds_clean rfl)).1
  simp [step, hphase, view, raiser, hevidence]

lemma view_repair {s : Sys} {evidence stored : ℤ} (hdoctor : s.doctor = .storedRead evidence stored)
    (hcovers : Covers P S conversationId s .repair) :
    ∃ move, MaxRegister.Covered (view conversationId s) move ∧
      view conversationId (repair conversationId evidence stored s) =
        (MaxRegister.step (view conversationId s) move).1 := by
  simp only [Covers, Accounts, hdoctor] at hcovers
  by_cases hsame : stored = evidence
  · refine ⟨.repair, ?_, ?_⟩
    · simp [MaxRegister.Covered, view, hdoctor, repairer, hsame]
    · simp [repair, hsame, view, hdoctor, repairer, MaxRegister.step]
  by_cases hsign : 0 ≤ evidence
  · refine ⟨.repair, ?_, ?_⟩
    · simpa [MaxRegister.Covered, view, hdoctor, repairer, hsame, settledFrom_raiser]
        using hcovers hsame hsign
    · simp [repair, hsame, hsign, view, hdoctor, repairer, MaxRegister.step,
        lastInboundMs_putWindow]
  · refine ⟨.fail, trivial, ?_⟩
    simp [repair, hsame, hsign, view, hdoctor, repairer, MaxRegister.step]

/-- Every step is a move of the register, and a step that covers is a covered move. -/
theorem view_step {s : Sys} {label : Label} (hcovers : Covers P S conversationId s label) :
    ∃ move, view conversationId (step P S N conversationId s label).1 =
      (MaxRegister.step (view conversationId s) move).1 ∧
      MaxRegister.Covered (view conversationId s) move := by
  have hskip : ∀ {s' : Sys}, view conversationId s' = view conversationId s →
      ∃ move, view conversationId s' = (MaxRegister.step (view conversationId s) move).1 ∧
        MaxRegister.Covered (view conversationId s) move :=
    fun h => ⟨.skip, h, trivial⟩
  cases label with
  | commitAtom now ids atom =>
    simp only [step]
    split
    · rename_i hidle
      rcases view_commitAtom hidle now ids atom hcovers with hsame | ⟨t, hobserved⟩
      · exact hskip hsame
      · exact ⟨.observe t, hobserved, trivial⟩
    · exact hskip rfl
  | readWindow =>
    rcases hphase : s.phase with _ | applied | ⟨applied, row⟩ | applied
    · exact hskip (by simp [step, hphase])
    · obtain ⟨move, hmove, hview⟩ := view_readWindow (P := P) (S := S) (N := N)
        conversationId hphase
      exact ⟨move, hview, hmove⟩
    · exact hskip (by simp [step, hphase])
    · exact hskip (by simp [step, hphase])
  | upsertWindow =>
    rcases hphase : s.phase with _ | applied | ⟨applied, row⟩ | applied
    · exact hskip (by simp [step, hphase])
    · exact hskip (by simp [step, hphase])
    · obtain ⟨move, hmove, hview⟩ := view_upsertWindow (P := P) (S := S) (N := N)
        conversationId hphase
      exact ⟨move, hview, hmove⟩
    · exact hskip (by simp [step, hphase])
  | index =>
    rcases hphase : s.phase with _ | applied | ⟨applied, row⟩ | applied
    · exact hskip (by simp [step, hphase])
    · exact hskip (by simp [step, hphase])
    · exact hskip (by simp [step, hphase])
    · exact hskip (view_index hphase)
  | readEvidence =>
    refine ⟨.readEvidence, ?_, trivial⟩
    rcases hdoctor : s.doctor <;> simp [step, hdoctor, view, repairer, MaxRegister.step]
  | readStored =>
    refine ⟨.readStored, ?_, trivial⟩
    rcases hdoctor : s.doctor <;> simp [step, hdoctor, view, repairer, MaxRegister.step]
  | repair =>
    simp only [step]
    split
    · rename_i evidence stored hdoctor
      obtain ⟨move, hmove, hview⟩ := view_repair hdoctor hcovers
      exact ⟨move, hview, hmove⟩
    · exact hskip rfl

/-! ## The runs -/

/-- **When the doctor and the live path agree.**  In a run in which the doctor's write is covered,
once the doctor has finished and no message is in flight the stored window is the maximum over the
evidence. -/
theorem window_is_evidence (P : Platform) (S : Stdlib) (N : Search.Normaliser)
    (conversationId : String) (v : Vault) (c : Control) (labels : List Label)
    (hcovers : Run.Meets (step P S N conversationId) (Covers P S conversationId) (.start v c) labels)
    {report : WindowReport}
    (hdoctor :
      (Run.final (step P S N conversationId) (.start v c) labels).doctor = .finished report)
    (hphase : (Run.final (step P S N conversationId) (.start v c) labels).phase = .idle) :
    (Run.final (step P S N conversationId) (.start v c) labels).control.lastInboundMs
        conversationId =
      evidenceMs (Run.final (step P S N conversationId) (.start v c) labels).vault.evidence
        conversationId := by
  have hstep : ∀ s label, Covers P S conversationId s label →
      ∃ move, view conversationId (step P S N conversationId s label).1 =
        (MaxRegister.step (view conversationId s) move).1 ∧
        MaxRegister.Covered (view conversationId s) move := fun s label h => view_step h
  obtain ⟨moves, hview, hmoves⟩ := Run.simulates (view conversationId) hstep hcovers
  have hstart : view conversationId (.start v c) =
      .start (evidenceMs v.evidence conversationId) (c.lastInboundMs conversationId) := rfl
  have hfinished : (Run.final MaxRegister.step (view conversationId (.start v c)) moves).repairer =
      .finished := by
    rw [← hview]
    simp [view, hdoctor, repairer]
  rw [hstart] at hview hmoves hfinished
  have hsettled := MaxRegister.settled_of_meets _ _ hmoves hfinished
  rw [← hview] at hsettled
  simpa [view, MaxRegister.Reg.settled, hphase, raiser, MaxRegister.settledFrom] using hsettled

/-- A write of the doctor that does not account for the evidence leaves the window, with the message
in flight projected, on another value. -/
theorem window_ne_evidence_of_repair {s : Sys} (hrepair : ¬ Accounts conversationId s s.doctor) :
    let s' := (step P S N conversationId s .repair).1
    windowAfter conversationId (s'.control.lastInboundMs conversationId) s'.phase ≠
      evidenceMs s'.vault.evidence conversationId := by
  rcases hdoctor : s.doctor with _ | _ | ⟨evidence, stored⟩ | _ | _
  · simp [hdoctor, Accounts] at hrepair
  · simp [hdoctor, Accounts] at hrepair
  · simp only [hdoctor, Accounts, Classical.not_imp] at hrepair
    obtain ⟨hne, hsign, hwindow⟩ := hrepair
    simpa [step, hdoctor, repair, hne, hsign, lastInboundMs_putWindow] using hwindow
  · simp [hdoctor, Accounts] at hrepair
  · simp [hdoctor, Accounts] at hrepair

end Simulation

section Sample

/-- The message of the sample is dated after 1970. -/
lemma covers_sampleAtom (s : Sys) (now : ℤ) (ids : AtomIds) :
    Covers samplePlatform sampleStdlib "cnv_1" s (.commitAtom now ids sampleAtom) := by
  intro x hx _ i hi
  obtain ⟨-, hrows, -⟩ := decode_eq_some hx
  have hsummary : (toRows sampleStdlib sampleAtom).bind (Rows.inbound sampleStdlib) =
      some ⟨some "PN1", some "61400", 1700000000000⟩ := rfl
  rw [hrows, Option.bind_some, hi] at hsummary
  obtain rfl := Option.some.inj hsummary
  exact (by decide : (0 : ℤ) ≤ 1700000000000)

/-- A window that says the year 3000. -/
def forgedControl : Control := Control.empty.putWindow ⟨"cnv_1", 32503680000000, by decide⟩

/-- The doctor repairs the window between a message's commit and its projection. -/
def repairingRun : List Label :=
  [.commitAtom 1700000001000 (sampleIds 0) sampleAtom, .readEvidence, .readStored, .repair,
    .readWindow, .upsertWindow, .index]

/-- The theorem on that run. -/
theorem window_is_evidence_repairing_run :
    (Run.final (step samplePlatform sampleStdlib sampleNormaliser "cnv_1")
      (.start .empty forgedControl) repairingRun).control.lastInboundMs "cnv_1" =
        1700000000000 ∧
    (Run.final (step samplePlatform sampleStdlib sampleNormaliser "cnv_1")
      (.start .empty forgedControl) repairingRun).control.lastInboundMs "cnv_1" =
    evidenceMs (Run.final (step samplePlatform sampleStdlib sampleNormaliser "cnv_1")
      (.start .empty forgedControl) repairingRun).vault.evidence "cnv_1" := by
  have hdoctor : (Run.final (step samplePlatform sampleStdlib sampleNormaliser "cnv_1")
      (.start .empty forgedControl) repairingRun).doctor =
        .finished ⟨1700000000000, 32503680000000, true⟩ := by decide
  refine ⟨by decide, window_is_evidence samplePlatform sampleStdlib sampleNormaliser
    "cnv_1" .empty forgedControl repairingRun ?_ hdoctor rfl⟩
  refine ⟨covers_sampleAtom _ _ _, trivial, trivial, ?_, trivial, trivial, trivial, trivial⟩
  unfold Covers
  decide

/-- The doctor reads the evidence, a message is committed and projected, and the doctor goes on. -/
def overtakenRun : List Label :=
  [.readEvidence, .commitAtom 1700000001000 (sampleIds 0) sampleAtom, .readWindow, .upsertWindow,
    .index, .readStored, .repair]

/-- The window is set back to what it was before the message. -/
theorem advance_lost :
    let s := Run.final (step samplePlatform sampleStdlib sampleNormaliser "cnv_1")
      (.start .empty .empty) overtakenRun
    s.doctor = .finished ⟨0, 1700000000000, true⟩ ∧ s.phase = .idle ∧
      s.control.lastInboundMs "cnv_1" = 0 ∧
      evidenceMs s.vault.evidence "cnv_1" = 1700000000000 :=
  ⟨by decide, rfl, by decide, by decide⟩

end Sample

end WhatsVault.Ingest.Repair
