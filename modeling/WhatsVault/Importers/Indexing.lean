import WhatsVault.Importers.Effects
import WhatsVault.Importers.Union
import WhatsVault.Ingest.Effects
import WhatsVault.Search.Coherence

/-!
# The index and the evidence

Nothing ties `search_documents` to `messages` but the code that writes both: an import stages the
messages it adds in its own transaction, an ingest indexes what it has stored, and an undo deletes
messages and does not look at the index.

A run keeps the index a mirror of the evidence as long as no undo deletes a message that has a
document and no message is indexed that does not exist (`Keeps`), and loses it at the first step where
one of these happens.
-/

namespace WhatsVault.Importers.Indexing

open Transaction
open Ingest (AtomFaults AtomIds Daemon ingestBody processAtom)
open Search (Coherent Indexed)

/-! ## Runs -/

inductive Call
  | importBatch (verdict : Verdict) (args : ImportArgs) (ids : ImportIds)
  | undoBatch (verdict : Verdict) (batchId : String) (nowMs : ℤ)
  /-- One turn of the loop of `_process_payload`. -/
  | ingest (now : ℤ) (ids : AtomIds) (faults : AtomFaults) (atom : Ingest.Atom)
  | indexMessage (messageId : String) (text : Json)
  | reindexStale
  | rebuildAll

variable (I : Importer) (S : Stdlib)

def step (d : Daemon) : Call → Daemon × List Unit
  | .importBatch verdict args ids => (⟨(importBatch I verdict args ids d.vault).1, d.control⟩, [])
  | .undoBatch verdict batchId nowMs => (⟨(undoBatch verdict batchId nowMs d.vault).1, d.control⟩, [])
  | .ingest now ids faults atom =>
    ((processAtom I.platform S I.normaliser now ids faults atom d).1, [])
  | .indexMessage messageId text =>
    (⟨(Ingest.indexMessage I.normaliser none messageId text d.vault).1, d.control⟩, [])
  | .reindexStale => (⟨.clean (Search.reindexStale I.normaliser d.vault.working), d.control⟩, [])
  | .rebuildAll => (⟨.clean (Search.rebuildAll I.normaliser d.vault.working), d.control⟩, [])

/-- The message a transaction has stored. -/
def storedBy : Conn Vault × Outcome Ingest.Ingested → Option (Conn Vault × Ingest.Applied)
  | (vault, .done (.stored (some applied))) => some (vault, applied)
  | _ => none

/-- The ingest indexes the message it stores, if it stores one: the message is inbound, the window is
advanced and `index_message` returns. -/
def IndexesAtom (d : Daemon) (now : ℤ) (ids : AtomIds) (faults : AtomFaults) (atom : Ingest.Atom) :
    Prop :=
  ∀ x ∈ Ingest.decode I.platform S atom,
    ∀ r ∈ storedBy (transact faults.evidence (ingestBody I.platform S ids now atom x) d.vault),
      x.family = .messageInbound ∧
        (attempt faults.window
          (Control.advanceWindow r.2.conversationId r.2.providerMs) d.control).2 = .done () ∧
        (Ingest.indexMessage I.normaliser faults.index r.2.messageId r.2.text r.1).2 = .done ()

instance (d : Daemon) (now : ℤ) (ids : AtomIds) (faults : AtomFaults) (atom : Ingest.Atom) :
    Decidable (IndexesAtom I S d now ids faults atom) :=
  inferInstanceAs (Decidable (∀ x ∈ Ingest.decode I.platform S atom,
    ∀ r ∈ storedBy (transact faults.evidence (ingestBody I.platform S ids now atom x) d.vault),
      x.family = .messageInbound ∧
        (attempt faults.window
          (Control.advanceWindow r.2.conversationId r.2.providerMs) d.control).2 = .done () ∧
        (Ingest.indexMessage I.normaliser faults.index r.2.messageId r.2.text r.1).2 = .done ()))

/-- A successfully indexed ingest, or another call. -/
def Successful (d : Daemon) : Call → Prop
  | .ingest now ids faults atom => IndexesAtom I S d now ids faults atom
  | _ => True

instance decidableSuccessful (d : Daemon) : ∀ call, Decidable (Successful I S d call)
  | .ingest now ids faults atom => inferInstanceAs (Decidable (IndexesAtom I S d now ids faults atom))
  | .importBatch .. => .isTrue trivial
  | .undoBatch .. => .isTrue trivial
  | .indexMessage .. => .isTrue trivial
  | .reindexStale => .isTrue trivial
  | .rebuildAll => .isTrue trivial

def HasMessage (v : Vault) (messageId : String) : Prop :=
  ∃ m ∈ v.evidence.messages, m.id = messageId

instance (v : Vault) (messageId : String) : Decidable (HasMessage v messageId) :=
  inferInstanceAs (Decidable (∃ m ∈ v.evidence.messages, m.id = messageId))

/-- No document and no full-text entry is of a message that does not exist, and every message with a
text has a document. -/
structure Mirrors (v : Vault) : Prop where
  documents : ∀ d ∈ v.search.documents, HasMessage v d.messageId
  lexical : ∀ e ∈ v.search.ftsLexical, ∃ d ∈ v.search.documents, d.rowid = e.1 ∧
    HasMessage v d.messageId
  compact : ∀ e ∈ v.search.ftsCompact, ∃ d ∈ v.search.documents, d.rowid = e.1 ∧
    HasMessage v d.messageId
  texts : ∀ m ∈ v.evidence.messages, m.textOriginal ≠ none → Indexed v.search m.id

/-- A message of the batch alone, which the provider did not send. -/
def Sole (batchId : String) (v : Vault) (m : Message) : Prop :=
  (∃ o ∈ v.imports.observations, o.batchId = batchId ∧ o.messageId = m.id) ∧
    (∀ o ∈ unobserved batchId v, o.messageId ≠ m.id) ∧ m.wamid = none

instance (batchId : String) (v : Vault) (m : Message) : Decidable (Sole batchId v m) :=
  inferInstanceAs (Decidable
    ((∃ o ∈ v.imports.observations, o.batchId = batchId ∧ o.messageId = m.id) ∧
      (∀ o ∈ unobserved batchId v, o.messageId ≠ m.id) ∧ m.wamid = none))

/-- The DELETE on the participants of the batch goes through. -/
def Undoable (batchId : String) (v : Vault) : Prop :=
  ∀ p ∈ v.imports.participants, p.importBatchId = batchId →
    ∀ o ∈ unobserved batchId v, o.senderImportParticipantId ≠ p.id

instance (batchId : String) (v : Vault) : Decidable (Undoable batchId v) :=
  inferInstanceAs (Decidable (∀ p ∈ v.imports.participants, p.importBatchId = batchId →
    ∀ o ∈ unobserved batchId v, o.senderImportParticipantId ≠ p.id))

/-- An undo that goes through deletes no message that has a document, and what is indexed exists. -/
def Keeps (d : Daemon) : Call → Prop
  | .undoBatch verdict batchId _ =>
    verdict = .ok → Undoable batchId d.vault.working →
      ∀ m ∈ d.vault.working.evidence.messages, Sole batchId d.vault.working m →
        ¬ Indexed d.vault.working.search m.id
  | .indexMessage messageId text =>
    (Ingest.indexText text).isSome → HasMessage d.vault.working messageId
  | _ => True

instance decidableKeeps (d : Daemon) : ∀ call, Decidable (Keeps d call)
  | .undoBatch verdict batchId _ =>
    inferInstanceAs (Decidable (verdict = .ok → Undoable batchId d.vault.working →
      ∀ m ∈ d.vault.working.evidence.messages, Sole batchId d.vault.working m →
        ¬ Indexed d.vault.working.search m.id))
  | .indexMessage messageId text =>
    inferInstanceAs (Decidable
      ((Ingest.indexText text).isSome → HasMessage d.vault.working messageId))
  | .importBatch .. => .isTrue trivial
  | .ingest .. => .isTrue trivial
  | .reindexStale => .isTrue trivial
  | .rebuildAll => .isTrue trivial

/-- Every message of the export is stored: each copy of a bucket under its own number. -/
def AlreadyStored (args : ImportArgs) (msgs : List Sent) (v : Vault) : Prop :=
  ∀ done r, done ++ [r] <+: msgs → ∃ b fp, bucketOf I args r = some b ∧
    importFingerprint I.platform b ((done.filterMap (bucketOf I args)).count b) = some fp ∧
    ∃ m ∈ v.evidence.messages, m.importFingerprint = some fp

/-! ## The invariant -/

/-- A vault in which the index mirrors the evidence, and the constraints that keep it so. -/
structure Synced (v : Vault) : Prop where
  messageIds : Table.Unique Message.id v.evidence.messages
  coherent : Coherent v.search
  documents : ∀ id, Indexed v.search id → HasMessage v id
  texts : ∀ m ∈ v.evidence.messages, m.textOriginal ≠ none → Indexed v.search m.id

variable {I S} {v v' : Vault} {N : Search.Normaliser}

lemma Synced.mirrors (h : Synced v) : Mirrors v where
  documents := fun d hd => h.documents d.messageId ⟨d, hd, rfl⟩
  lexical := by
    intro e he
    obtain ⟨d, hd, rfl⟩ := h.coherent.lexical.exists_row he
    exact ⟨d, hd, rfl, h.documents d.messageId ⟨d, hd, rfl⟩⟩
  compact := by
    intro e he
    obtain ⟨d, hd, rfl⟩ := h.coherent.compact.exists_row he
    exact ⟨d, hd, rfl, h.documents d.messageId ⟨d, hd, rfl⟩⟩
  texts := h.texts

lemma Mirrors.hasMessage (h : Mirrors v) {id : String} (hindexed : Indexed v.search id) :
    HasMessage v id := by
  obtain ⟨d, hd, rfl⟩ := hindexed
  exact h.documents d hd

/-- Only the messages and the index matter. -/
lemma Synced.congr (h : Synced v) (hmessages : v'.evidence.messages = v.evidence.messages)
    (hsearch : v'.search = v.search) : Synced v' where
  messageIds := hmessages ▸ h.messageIds
  coherent := hsearch ▸ h.coherent
  documents := by
    unfold HasMessage
    rw [hmessages, hsearch]
    exact h.documents
  texts := by
    rw [hmessages, hsearch]
    exact h.texts

/-- One more message, and its document. -/
theorem Synced.add (h : Synced v) {row : Message} {text : String}
    (hfree : ∀ m ∈ v.evidence.messages, m.id ≠ row.id)
    (hmessages : v'.evidence.messages = v.evidence.messages ++ [row])
    (hsearch : v'.search = Search.stageMessage N row.id text v.search) : Synced v' := by
  have hindexed (id : String) : Indexed v'.search id ↔ Indexed v.search id ∨ id = row.id := by
    rw [hsearch]
    exact Search.indexed_stageMessage N text h.coherent id
  refine
    { messageIds := hmessages ▸ h.messageIds.append hfree
      coherent := hsearch ▸ h.coherent.stageMessage N text
      documents := fun id hid => ?_
      texts := fun m hm htext => ?_ }
  · unfold HasMessage
    rw [hmessages]
    rcases (hindexed id).mp hid with hold | rfl
    · obtain ⟨m, hm, hid⟩ := h.documents id hold
      exact ⟨m, List.mem_append_left _ hm, hid⟩
    · exact ⟨row, List.mem_append_right _ (List.mem_singleton_self _), rfl⟩
  · rw [hindexed]
    rw [hmessages] at hm
    rcases List.mem_append.mp hm with hold | hnew
    · exact .inl (h.texts m hold htext)
    · exact .inr (by rw [List.mem_singleton.mp hnew])

/-- A message that exists is indexed, perhaps again. -/
theorem Synced.stage (h : Synced v) {messageId : String} (text : String)
    (hmessage : HasMessage v messageId) : Synced (Search.stageIn N messageId text v) where
  messageIds := h.messageIds
  coherent := h.coherent.stageMessage N text
  documents := by
    intro id hid
    rcases (Search.indexed_stageMessage N text h.coherent id).mp hid with hold | rfl
    · exact h.documents id hold
    · exact hmessage
  texts := fun m hm htext =>
    (Search.indexed_stageMessage N text h.coherent m.id).mpr (.inl (h.texts m hm htext))

theorem Synced.reindexStale (h : Synced v) : Synced (Search.reindexStale N v) := by
  have hstaged := Search.staged_reindexStale N h.coherent
  have hindexed (id : String) : Indexed (Search.reindexStale N v).search id ↔ Indexed v.search id := by
    rw [hstaged.indexed]
    simp
  rw [hstaged.frame]
  exact
    { messageIds := h.messageIds
      coherent := hstaged.coherent
      documents := fun id hid => h.documents id ((hindexed id).mp hid)
      texts := fun m hm htext => (hindexed m.id).mpr (h.texts m hm htext) }

theorem Synced.rebuildAll (h : Synced v) : Synced (Search.rebuildAll N v) := by
  obtain ⟨hframe, hcoherent, hindexed⟩ := Search.rebuildAll_spec N v
  rw [hframe]
  refine
    { messageIds := h.messageIds
      coherent := hcoherent
      documents := fun id hid => ?_
      texts := fun m hm htext => (hindexed m.id).mpr ⟨m, hm, rfl, htext⟩ }
  obtain ⟨m, hm, hid, -⟩ := (hindexed id).mp hid
  exact ⟨m, hm, hid⟩

/-! ## Imports and undos -/

section Batches

variable {args : ImportArgs} {ids : ImportIds}

lemma Synced.resolves (h : Synced v) {r : Sent} {b : Bucket} {fp messageId : String}
    (hres : Resolves I args ids r b fp v messageId v') : Synced v' := by
  cases hres with
  | found m hm hfp => exact h
  | added n hid hfp => exact h.add hid rfl rfl

lemma Synced.observes (h : Synced v) {participantIds : List (String × String)} {r : Sent}
    {s s' : Stage} (hv : s.vault = v) (hturn : Observes I args ids participantIds r s s') :
    Synced s'.vault := by
  obtain ⟨b, fp, messageId, w, participantId, -, -, hres, -, -, hvault⟩ := hturn.turn
  rw [hv] at hres
  rw [hvault]
  exact (h.resolves hres).congr rfl rfl

/-- An import indexes what it adds. -/
theorem Synced.imported (h : Synced v) {records : List (Record × ℕ)}
    (himport : Imported I args ids records v v') : Synced v' := by
  obtain ⟨participantIds, participants, s, -, hloop, hsource⟩ := himport.turns
  have hopened : Synced (opened args ids records participants v) := h.congr rfl rfl
  have hlast := Loop.invariant (I := fun s : Stage => Synced s.vault)
    (fun s r s' hs hturn => hs.observes rfl (importMessage_eq_some hturn)) hopened hloop
  rw [addSource_eq_some hsource]
  exact hlast.congr rfl rfl

/-- An undo that deletes no indexed message keeps the index in step. -/
theorem Synced.undone (h : Synced v) {batchId : String} {nowMs : ℤ}
    (hundo : Undone batchId nowMs v v')
    (hkeeps : ∀ m ∈ v.evidence.messages, Sole batchId v m → ¬ Indexed v.search m.id) : Synced v' := by
  obtain ⟨messages, hevidence, hsub⟩ := hundo.evidence
  have hmessages : v'.evidence.messages = messages := by rw [hevidence]
  refine
    { messageIds := h.messageIds.sublist (hmessages ▸ hsub.map _)
      coherent := hundo.search ▸ h.coherent
      documents := fun id hid => ?_
      texts := fun m hm htext => ?_ }
  · rw [hundo.search] at hid
    obtain ⟨m, hm, rfl⟩ := h.documents id hid
    exact ⟨m, (hundo.mem_undone m).mpr ⟨hm, fun hsole => hkeeps m hm hsole hid⟩, rfl⟩
  · rw [hundo.search]
    exact h.texts m ((hundo.mem_undone m).mp hm).1 htext

/-- The document of a message it deletes is left behind. -/
theorem Synced.not_mirrors_undone (h : Synced v) {batchId : String} {nowMs : ℤ}
    (hundo : Undone batchId nowMs v v') {m : Message} (hm : m ∈ v.evidence.messages)
    (hsole : Sole batchId v m) (hindexed : Indexed v.search m.id) : ¬ Mirrors v' := by
  intro hmirrors
  have hindexed' : Indexed v'.search m.id := hundo.search.symm ▸ hindexed
  obtain ⟨m', hm', hid⟩ := hmirrors.hasMessage hindexed'
  obtain ⟨hmem, hkept⟩ := (hundo.mem_undone m').mp hm'
  obtain rfl : m' = m := h.messageIds.eq_of_key_eq hmem hm hid
  exact hkept hsole

end Batches

/-! ## Ingests -/

lemma indexMessage_eq_done {fault : Option Ingest.IndexFault} {messageId : String} {text : Json}
    {c : Conn Vault} (h : (Ingest.indexMessage N fault messageId text c).2 = .done ()) :
    ∃ t, Ingest.indexText text = some t ∧ (Ingest.indexMessage N fault messageId text c).1 =
      .clean (Search.stageIn N messageId t c.working) := by
  unfold Ingest.indexMessage at h ⊢
  rcases htext : Ingest.indexText text with _ | t
  · rw [htext] at h
    rcases fault with _ | _ | _ | _
    · cases h
    · cases h
    · cases h
    · cases h
  · rw [htext] at h
    rcases fault with _ | _ | _ | _
    · exact ⟨t, rfl, rfl⟩
    · cases h
    · cases h
    · cases h

lemma clean_runHook {hook : Verdict} {d : Daemon} (h : d.vault = .clean v) :
    (Ingest.runHook hook d).1.vault = .clean v := by
  cases hook with
  | ok => exact h
  | raise => exact h
  | crash =>
    show d.vault.rollback = _
    rw [h]
    rfl

lemma clean_project {faults : AtomFaults} {applied : Ingest.Applied} {d : Daemon}
    (h : d.vault = .clean v)
    (hwindow : (attempt faults.window
      (Control.advanceWindow applied.conversationId applied.providerMs) d.control).2 = .done ())
    (hindex : (Ingest.indexMessage N faults.index applied.messageId applied.text d.vault).2 =
      .done ()) :
    ∃ t, (Ingest.project N faults applied d).1.vault =
      .clean (Search.stageIn N applied.messageId t v) := by
  obtain ⟨t, -, hstaged⟩ := indexMessage_eq_done hindex
  rw [h, Conn.clean_working] at hstaged
  refine ⟨t, ?_⟩
  unfold Ingest.project
  rcases hrun : attempt faults.window
    (Control.advanceWindow applied.conversationId applied.providerMs) d.control with ⟨control, outcome⟩
  rw [hrun] at hwindow
  obtain rfl : outcome = .done () := hwindow
  rw [h] at hindex ⊢
  rcases hpair : Ingest.indexMessage N faults.index applied.messageId applied.text (.clean v) with
    ⟨vault, outcome⟩
  rw [hpair] at hindex hstaged
  obtain rfl : outcome = .done () := hindex
  exact clean_runHook hstaged

/-- An ingest that indexes what it stores. -/
theorem Synced.ingested {d : Daemon} (hv : d.vault = .clean v) (h : Synced v) {now : ℤ}
    {ids : AtomIds} {faults : AtomFaults} {atom : Ingest.Atom}
    (hindexes : IndexesAtom I S d now ids faults atom) :
    ∃ v', (processAtom I.platform S I.normaliser now ids faults atom d).1.vault = .clean v' ∧
      Synced v' := by
  unfold processAtom
  rcases hx : Ingest.decode I.platform S atom with _ | x
  · exact ⟨v, hv, h⟩
  replace hindexes := hindexes x hx
  dsimp only
  rcases transact_cases faults.evidence (ingestBody I.platform S ids now atom x) d.vault with
    ⟨w, ingested, -, hbody, hrun⟩ | ⟨hvault, houtcome⟩
  · rw [hrun] at hindexes ⊢
    rw [hv, Conn.clean_working] at hbody
    rcases Ingest.ingestBody_eq_some hbody with ⟨-, rfl, rfl⟩ |
      ⟨event, evidence, applied, -, -, happly, rfl, rfl⟩
    · exact ⟨w, rfl, h⟩
    · have hstores := Ingest.applyRows_eq_some happly
      rcases applied with _ | applied
      · have hother : Ingest.afterCommit I.normaliser faults x.family none =
            Ingest.runHook faults.hook := by
          unfold Ingest.afterCommit
          cases x.family <;> rfl
        have hkept : evidence.messages = v.evidence.messages := hstores.messages_of_none
        dsimp only
        rw [hother]
        exact ⟨_, clean_runHook rfl, h.congr hkept rfl⟩
      · obtain ⟨hfamily, hwindow, hindex⟩ := hindexes _ rfl
        obtain ⟨row, hadded, hid⟩ := hstores.messages_of_some
        have hmessages : evidence.messages = v.evidence.messages ++ [row] := hadded
        have hfresh := Ingest.applyRows_fresh happly
        rw [← hid] at hfresh
        have hfree : ∀ m ∈ v.evidence.messages, m.id ≠ row.id := hfresh
        obtain ⟨t, hproject⟩ := clean_project (d := ⟨.clean { v with evidence := evidence }, d.control⟩)
          rfl hwindow hindex
        have hsynced : Synced (Search.stageIn I.normaliser applied.messageId t
            { v with evidence := evidence }) := by
          rw [← hid]
          exact h.add hfree hmessages rfl
        have hafter : Ingest.afterCommit I.normaliser faults .messageInbound (some applied) =
            Ingest.project I.normaliser faults applied := rfl
        dsimp only
        rw [hfamily, hafter]
        exact ⟨_, hproject, hsynced⟩
  · rcases hrun : transact faults.evidence (ingestBody I.platform S ids now atom x) d.vault with
      ⟨vault, outcome⟩
    rw [hrun, hv] at hvault
    rw [hrun] at houtcome
    obtain rfl : vault = .clean v := hvault
    rcases houtcome with hraised | hcrashed
    · obtain rfl : outcome = .raised := hraised
      exact ⟨v, rfl, h⟩
    · obtain rfl : outcome = .crashed := hcrashed
      exact ⟨v, rfl, h⟩

/-! ## Steps -/

/-- A process without an open transaction whose index mirrors the evidence. -/
def InSync (d : Daemon) : Prop := ∃ v, d.vault = .clean v ∧ Synced v

lemma step_keeps {d : Daemon} (h : InSync d) {call : Call} (hsuccessful : Successful I S d call)
    (hkeeps : Keeps d call) : InSync (step I S d call).1 := by
  obtain ⟨v, hv, hsynced⟩ := h
  cases call with
  | importBatch verdict args ids =>
    rcases importBatch_cases I verdict args ids d.vault with
      ⟨records, w, summary, -, hbody, hrun⟩ | ⟨stop, -, hrun | hrun⟩
    · rw [hv, Conn.clean_working] at hbody
      exact ⟨w, congrArg Prod.fst hrun, hsynced.imported (importBody_eq_some hbody)⟩
    · exact ⟨v, hrun.trans hv, hsynced⟩
    · exact ⟨v, hrun.trans (by rw [hv]; rfl), hsynced⟩
  | undoBatch verdict batchId nowMs =>
    rcases undoBatch_cases verdict batchId nowMs d.vault with
      ⟨w, summary, hverdict, hbody, hrun⟩ | ⟨stop, -, hrun⟩
    · unfold Keeps at hkeeps
      rw [hv, Conn.clean_working] at hbody hkeeps
      have hundo := undoBody_eq_some hsynced.messageIds hbody
      exact ⟨w, congrArg Prod.fst hrun, hsynced.undone hundo (hkeeps hverdict hundo.held)⟩
    · exact ⟨v, hrun.trans (by rw [hv]; rfl), hsynced⟩
  | ingest now ids faults atom => exact hsynced.ingested hv hsuccessful
  | indexMessage messageId text =>
    unfold Keeps at hkeeps
    rw [hv, Conn.clean_working] at hkeeps
    simp only [step, hv]
    rcases htext : Ingest.indexText text with _ | t
    · refine ⟨v, ?_, hsynced⟩
      simp [Ingest.indexMessage, htext]
    · refine ⟨Search.stageIn I.normaliser messageId t v, ?_, hsynced.stage t (hkeeps (by simp [htext]))⟩
      simp only [Ingest.indexMessage, htext]
      rfl
  | reindexStale =>
    simp only [step, hv]
    exact ⟨_, rfl, hsynced.reindexStale⟩
  | rebuildAll =>
    simp only [step, hv]
    exact ⟨_, rfl, hsynced.rebuildAll⟩

/-- A step that does not meet the condition leaves a document behind. -/
lemma step_loses {d : Daemon} (h : InSync d) {call : Call} (hkeeps : ¬ Keeps d call) :
    ¬ Mirrors (step I S d call).1.vault.durable := by
  obtain ⟨v, hv, hsynced⟩ := h
  cases call with
  | undoBatch verdict batchId nowMs =>
    unfold Keeps at hkeeps
    rw [hv, Conn.clean_working] at hkeeps
    push Not at hkeeps
    obtain ⟨rfl, hundoable, m, hm, hsole, hindexed⟩ := hkeeps
    have hsome : (undoBody batchId nowMs v).isSome := undoBody_isSome hsynced.messageIds hundoable
    obtain ⟨⟨w, summary⟩, hbody⟩ := Option.isSome_iff_exists.mp hsome
    have hbody' : undoBody batchId nowMs d.vault.working = some (w, summary) := by
      rw [hv]
      exact hbody
    have hundo := undoBody_eq_some hsynced.messageIds hbody
    simp only [step, undoBatch, transact_ok_of_some hbody']
    exact hsynced.not_mirrors_undone hundo hm hsole hindexed
  | indexMessage messageId text =>
    unfold Keeps at hkeeps
    rw [hv, Conn.clean_working] at hkeeps
    push Not at hkeeps
    obtain ⟨hsome, hmissing⟩ := hkeeps
    obtain ⟨t, htext⟩ := Option.isSome_iff_exists.mp hsome
    intro hmirrors
    have hstaged : (step I S d (.indexMessage messageId text)).1.vault.durable =
        Search.stageIn I.normaliser messageId t v := by
      simp only [step, hv, Ingest.indexMessage, htext]
      rfl
    rw [hstaged] at hmirrors
    have hindexed : Indexed (Search.stageIn I.normaliser messageId t v).search messageId :=
      (Search.indexed_stageMessage I.normaliser t hsynced.coherent messageId).mpr (.inr rfl)
    exact hmissing (hmirrors.hasMessage hindexed)
  | importBatch verdict args ids => exact absurd trivial hkeeps
  | ingest now ids faults atom => exact absurd trivial hkeeps
  | reindexStale => exact absurd trivial hkeeps
  | rebuildAll => exact absurd trivial hkeeps

/-! ## Import and undo -/

section Restoring

variable {args : ImportArgs} {ids : ImportIds}

lemma alreadyStored_nil (v : Vault) : AlreadyStored I args [] v := by
  intro done r hinitial
  simp at hinitial

/-- One more message of the export. -/
lemma alreadyStored_concat {done : List Sent} {r : Sent} :
    AlreadyStored I args (done ++ [r]) v ↔ AlreadyStored I args done v ∧
      ∃ b fp, bucketOf I args r = some b ∧
        importFingerprint I.platform b ((done.filterMap (bucketOf I args)).count b) = some fp ∧
        ∃ m ∈ v.evidence.messages, m.importFingerprint = some fp := by
  constructor
  · intro h
    exact ⟨fun done' r' hinitial => h done' r' (hinitial.trans (List.prefix_append _ _)),
      h done r List.prefix_rfl⟩
  · rintro ⟨hdone, hlast⟩ done' r' hinitial
    rcases List.prefix_concat_iff.mp hinitial with heq | hshort
    · obtain ⟨rfl, hr⟩ := List.append_inj' heq rfl
      obtain rfl := List.singleton_injective hr
      exact hlast
    · exact hdone done' r' hshort

/-- In the middle of an import: nothing has been added and all was stored, or there are more
documents than before. -/
structure Progress (I : Importer) (args : ImportArgs) (v : Vault) (done : List Sent) (s : Stage) :
    Prop where
  synced : Synced s.vault
  occ : ∀ b, s.occ b = (done.filterMap (bucketOf I args)).count b
  added : (AlreadyStored I args done v ∧ s.vault.evidence.messages = v.evidence.messages ∧
      s.vault.search = v.search) ∨
    (¬ AlreadyStored I args done v ∧
      v.search.documents.length < s.vault.search.documents.length)

/-- A message that is added gets a document of its own. -/
lemma Synced.length_withMessage (h : Synced v) {row : Message} (body : String)
    (hfree : ∀ m ∈ v.evidence.messages, m.id ≠ row.id) :
    (withMessage I row body v).search.documents.length = v.search.documents.length + 1 := by
  have hnone : Search.document row.id v.search = none := by
    refine Table.find_eq_none_iff.mpr fun d hd hid => ?_
    obtain ⟨m, hm, hmid⟩ := h.documents row.id ⟨d, hd, hid⟩
    exact hfree m hm hmid
  unfold withMessage Search.stageIn
  rw [Search.stageMessage_of_none _ _ hnone]
  simp [Search.addDocument]

lemma Progress.turn {done : List Sent} {s s' : Stage} {r : Sent}
    {participantIds : List (String × String)} (h : Progress I args v done s)
    (hturn : Observes I args ids participantIds r s s') : Progress I args v (done ++ [r]) s' := by
  have hsynced := h.synced.observes rfl hturn
  obtain ⟨b, fp, messageId, w, participantId, hb, hfp, hres, -, hocc, hvault⟩ := hturn.turn
  rw [h.occ b] at hfp
  have hmessages : s'.vault.evidence.messages = w.evidence.messages := by
    rw [hvault]
    rfl
  have hsearch : s'.vault.search = w.search := by
    rw [hvault]
    rfl
  refine ⟨hsynced, fun c => ?_, ?_⟩
  · rw [hocc, List.filterMap_append, List.count_append, Function.update_apply, h.occ b]
    simp only [List.filterMap_cons, hb, List.filterMap_nil]
    split
    · rename_i hc
      rw [hc, List.count_singleton_self]
    · rename_i hc
      rw [h.occ c, List.count_singleton, if_neg (by simpa using Ne.symm hc), Nat.add_zero]
  · rw [hmessages, hsearch, alreadyStored_concat]
    generalize hv : s.vault = u at hres
    cases hres with
    | found m hm hmfp =>
      subst hv
      rcases h.added with ⟨hstored, hsame, hsame'⟩ | ⟨hnew, hlt⟩
      · exact .inl ⟨⟨hstored, b, fp, hb, hfp, m, hsame ▸ hm, hmfp⟩, hsame, hsame'⟩
      · exact .inr ⟨fun hall => hnew hall.1, hlt⟩
    | added n hid hnone =>
      subst hv
      have hlength : (withMessage I (evidenceRow args (ids.message n) r b fp) r.body
          s.vault).search.documents.length = s.vault.search.documents.length + 1 :=
        h.synced.length_withMessage r.body hid
      rcases h.added with ⟨hstored, hsame, hsame'⟩ | ⟨hnew, hlt⟩
      · refine .inr ⟨?_, by rw [hlength, hsame']; exact Nat.lt_succ_self _⟩
        rintro ⟨-, b', fp', hb', hfp', m, hm, hmfp⟩
        obtain rfl : b = b' := Option.some.inj (hb.symm.trans hb')
        obtain rfl : fp = fp' := Option.some.inj (hfp.symm.trans hfp')
        exact hnone m (hsame ▸ hm) hmfp
      · refine .inr ⟨fun hall => hnew hall.1, ?_⟩
        rw [hlength]
        exact Nat.lt_succ_of_lt hlt

/-- An import leaves the index as it is exactly where it adds no message. -/
theorem Synced.search_imported_iff (h : Synced v) {records : List (Record × ℕ)}
    (himport : Imported I args ids records v v') :
    v'.search = v.search ↔ AlreadyStored I args (messagesOf records) v := by
  obtain ⟨participantIds, participants, s, -, hloop, hsource⟩ := himport.turns
  have hopened : Progress I args v []
      ⟨opened args ids records participants v, fun _ => 0, 0, 0⟩ :=
    ⟨h.congr rfl rfl, by simp, .inl ⟨alreadyStored_nil v, rfl, rfl⟩⟩
  have hlast := Loop.progress (J := Progress I args v)
    (fun done s r s' hJ hturn => hJ.turn (importMessage_eq_some hturn)) hopened hloop
  rw [List.nil_append] at hlast
  rw [addSource_eq_some hsource]
  change s.vault.search = v.search ↔ _
  rcases hlast.added with ⟨hstored, -, hsame⟩ | ⟨hnew, hlt⟩
  · exact iff_of_true hsame hstored
  · refine iff_of_false (fun hsame => ?_) hnew
    rw [hsame] at hlt
    exact lt_irrefl _ hlt

end Restoring

def undoneExport : String := "1/4/26 1:02 M: h"

/-- An export of one message is imported and the import undone. -/
def undoneRun : List Call :=
  [.importBatch .ok (sampleArgs undoneExport) (sampleImportIds "a"), .undoBatch .ok "bat_a" 5]

lemma synced_of_empty (hmessages : v.evidence.messages = []) (hsearch : v.search = ⟨[], [], []⟩) :
    Synced v where
  messageIds := by
    rw [hmessages]
    exact Table.unique_nil _
  coherent := hsearch ▸ Coherent.empty
  documents := by
    intro id hid
    rw [hsearch] at hid
    exact absurd hid (Search.not_indexed_empty id)
  texts := by simp [hmessages]

/-- A message comes in; an export is imported twice and one of the two imports undone; the index is
brought up to date and rebuilt. -/
def keptRun : List Call :=
  [.ingest 1700000001000 (Ingest.sampleIds 0) {} Ingest.sampleAtom,
    .importBatch .ok (sampleArgs undoneExport) (sampleImportIds "a"),
    .importBatch .ok (sampleArgs undoneExport) (sampleImportIds "b"),
    .undoBatch .ok "bat_b" 5, .indexMessage "msg_1" (.str (.text "hello")), .reindexStale,
    .rebuildAll]

/-- The export of `undoneRun`. -/
def undoneRecords : List (Record × ℕ) :=
  (gate sampleImporter (sampleArgs undoneExport)).toOption.getD []

end WhatsVault.Importers.Indexing
