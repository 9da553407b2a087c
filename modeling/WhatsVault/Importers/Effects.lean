import WhatsVault.Importers.Export
import WhatsVault.Ingest.Effects
import WhatsVault.Library.Checks

/-!
# What the importer can do to the vault

One inversion lemma for each function of the importer.  A turn of the loop over the messages adds one
observation, of a message that was there (`found`) or of one it adds (`added`), and an undo drops the
observations of its batch and the messages only they held (`mem_undone`).
-/

namespace WhatsVault.Importers

open Transaction

variable {I : Importer} {args : ImportArgs} {ids : ImportIds}

/-! ## Import -/

/-- The vault with one more message, indexed. -/
def withMessage (I : Importer) (row : Message) (body : String) (v : Vault) : Vault :=
  Search.stageIn I.normaliser row.id body
    { v with evidence := { v.evidence with messages := v.evidence.messages ++ [row] } }

@[simp] lemma withMessage_messages (row : Message) (body : String) (v : Vault) :
    (withMessage I row body v).evidence.messages = v.evidence.messages ++ [row] := rfl

@[simp] lemma withMessage_imports (row : Message) (body : String) (v : Vault) :
    (withMessage I row body v).imports = v.imports := rfl

@[simp] lemma withObservations_evidence (rows : List Observation) (v : Vault) :
    (withObservations rows v).evidence = v.evidence := rfl

@[simp] lemma withObservations_search (rows : List Observation) (v : Vault) :
    (withObservations rows v).search = v.search := rfl

@[simp] lemma withObservations_participants (rows : List Observation) (v : Vault) :
    (withObservations rows v).imports.participants = v.imports.participants := rfl

@[simp] lemma withObservations_batches (rows : List Observation) (v : Vault) :
    (withObservations rows v).imports.batches = v.imports.batches := rfl

/-- Where the message of a fingerprint comes from: it was stored, or it is added. -/
inductive Resolves (I : Importer) (args : ImportArgs) (ids : ImportIds) (r : Sent) (b : Bucket)
    (fp : String) (v : Vault) : String → Vault → Prop
  | found (m : Message) (hm : m ∈ v.evidence.messages) (hfp : m.importFingerprint = some fp) :
    Resolves I args ids r b fp v m.id v
  | added (n : ℕ) (hid : ∀ m ∈ v.evidence.messages, m.id ≠ ids.message n)
    (hfp : ∀ m ∈ v.evidence.messages, m.importFingerprint ≠ some fp) :
    Resolves I args ids r b fp v (ids.message n)
      (withMessage I (evidenceRow args (ids.message n) r b fp) r.body v)

lemma resolveMessage_eq_some {r : Sent} {b : Bucket} {fp messageId : String} {s s' : Stage}
    (h : resolveMessage I args ids r b fp s = some (messageId, s')) :
    Resolves I args ids r b fp s.vault messageId s'.vault ∧ s'.occ = s.occ := by
  unfold resolveMessage at h
  split at h
  · rename_i m hfind
    obtain ⟨hm, hfp⟩ := Table.mem_of_find_eq_some hfind
    obtain ⟨rfl, rfl⟩ := Prod.mk.inj (Option.some.inj h)
    exact ⟨.found m hm hfp, rfl⟩
  · rename_i hfind
    obtain ⟨vault, hadd, hs'⟩ := Option.bind_eq_some_iff.mp h
    obtain ⟨rfl, rfl⟩ := Prod.mk.inj (Option.some.inj hs')
    unfold addMessage at hadd
    rw [Option.ite_none_right_eq_some] at hadd
    obtain ⟨-, hadd⟩ := hadd
    obtain ⟨evidence, hinsert, hvault⟩ := Option.bind_eq_some_iff.mp hadd
    unfold Ingest.insertMessage at hinsert
    rw [Option.ite_none_right_eq_some] at hinsert
    obtain ⟨hfree, hevidence⟩ := hinsert
    obtain rfl := Option.some.inj hevidence
    obtain rfl := Option.some.inj hvault
    exact ⟨.added _ (fun m hm => (hfree m hm).1) (Table.find_eq_none_iff.mp hfind), rfl⟩

/-- What one turn of the loop over the messages does. -/
structure Observes (I : Importer) (args : ImportArgs) (ids : ImportIds)
    (participantIds : List (String × String)) (r : Sent) (s s' : Stage) : Prop where
  turn : ∃ b fp messageId v participantId, bucketOf I args r = some b ∧
    importFingerprint I.platform b (s.occ b) = some fp ∧
    Resolves I args ids r b fp s.vault messageId v ∧
    participantIds.lookup r.sender = some participantId ∧
    s'.occ = Function.update s.occ b (s.occ b + 1) ∧
    s'.vault = withObservations (v.imports.observations ++ [⟨ids.batch, messageId, participantId,
      r.sourceOrdinal, r.sourceStartOffset, r.sourceEndOffset, b.contentFp⟩]) v

theorem importMessage_eq_some {participantIds : List (String × String)} {r : Sent} {s s' : Stage}
    (h : importMessage I args ids participantIds s r = some s') :
    Observes I args ids participantIds r s s' := by
  obtain ⟨b, hb, h⟩ := Option.bind_eq_some_iff.mp h
  obtain ⟨fp, hfp, h⟩ := Option.bind_eq_some_iff.mp h
  obtain ⟨⟨messageId, s₁⟩, hresolve, h⟩ := Option.bind_eq_some_iff.mp h
  obtain ⟨participantId, hlookup, h⟩ := Option.bind_eq_some_iff.mp h
  obtain ⟨observations, hinsert, h⟩ := Option.bind_eq_some_iff.mp h
  obtain ⟨hresolves, hocc⟩ := resolveMessage_eq_some hresolve
  unfold insertObservation at hinsert
  rw [Option.ite_none_right_eq_some] at hinsert
  obtain ⟨-, hobservations⟩ := hinsert
  obtain rfl := Option.some.inj hobservations
  obtain rfl := Option.some.inj h
  exact ⟨b, fp, messageId, s₁.vault, participantId, hb, hfp, hresolves, hlookup, hocc, rfl⟩

/-- The ids of the senders name participants of the table. -/
def Named (participantIds : List (String × String)) (rows : List ImportParticipant) : Prop :=
  ∀ sender id, (sender, id) ∈ participantIds → ∃ p ∈ rows, p.id = id ∧ p.rawDisplayName = sender

lemma addParticipants_eq_some {rows rows' : List ImportParticipant}
    {participantIds : List (String × String)} {msgs : List Sent}
    (h : msgs.foldlM (addParticipant ids) ([], rows) = some (participantIds, rows'))
    (hunique : Table.Unique ImportParticipant.id rows) :
    Table.Unique ImportParticipant.id rows' ∧ rows ⊆ rows' ∧ Named participantIds rows' := by
  refine Loop.invariant (f := addParticipant ids)
    (I := fun s => Table.Unique ImportParticipant.id s.2 ∧ rows ⊆ s.2 ∧ Named s.1 s.2)
    (fun s r s' hs hturn => ?_) ⟨hunique, List.Subset.refl _, by simp [Named]⟩ h
  obtain ⟨hkeyed, hsubset, hnamed⟩ := hs
  unfold addParticipant at hturn
  split at hturn
  · obtain rfl := Option.some.inj hturn
    exact ⟨hkeyed, hsubset, hnamed⟩
  · obtain ⟨table, hinsert, hs'⟩ := Option.bind_eq_some_iff.mp hturn
    obtain rfl := Option.some.inj hs'
    refine ⟨hkeyed.insert hinsert, ?_, ?_⟩
    · obtain ⟨-, rfl⟩ := Table.insert_eq_some_iff.mp hinsert
      exact fun p hp => List.mem_append_left _ (hsubset hp)
    · obtain ⟨-, rfl⟩ := Table.insert_eq_some_iff.mp hinsert
      intro sender id hmem
      rcases List.mem_append.mp hmem with hold | hnew
      · obtain ⟨p, hp, hid⟩ := hnamed sender id hold
        exact ⟨p, List.mem_append_left _ hp, hid⟩
      · obtain ⟨rfl, rfl⟩ := Prod.mk.inj (List.mem_singleton.mp hnew)
        exact ⟨_, List.mem_append_right _ (List.mem_singleton_self _), rfl, rfl⟩

/-- The vault in which the loop over the messages starts. -/
def opened (args : ImportArgs) (ids : ImportIds) (records : List (Record × ℕ))
    (participants : List ImportParticipant) (v : Vault) : Vault :=
  { v with imports := { v.imports with
      batches := v.imports.batches ++ [batchRow args ids.batch records]
      participants := participants } }

/-- What the transaction of `import_batch` does. -/
structure Imported (I : Importer) (args : ImportArgs) (ids : ImportIds)
    (records : List (Record × ℕ)) (v v' : Vault) : Prop where
  batch : ∀ row ∈ v.imports.batches, row.id ≠ ids.batch
  turns : ∃ participantIds participants s,
    (messagesOf records).foldlM (addParticipant ids) ([], v.imports.participants) =
      some (participantIds, participants) ∧
    (messagesOf records).foldlM (importMessage I args ids participantIds)
      ⟨opened args ids records participants v, fun _ => 0, 0, 0⟩ = some s ∧
    addSource ⟨args.conversationId, args.accountId, ids.batch⟩ s.vault = some v'

theorem importBody_eq_some {records : List (Record × ℕ)} {v v' : Vault} {summary : Summary}
    (h : importBody I args ids records v = some (v', summary)) :
    Imported I args ids records v v' := by
  obtain ⟨batches, hbatches, h⟩ := Option.bind_eq_some_iff.mp h
  obtain ⟨⟨participantIds, participants⟩, hparticipants, h⟩ := Option.bind_eq_some_iff.mp h
  obtain ⟨s, hs, h⟩ := Option.bind_eq_some_iff.mp h
  obtain ⟨v₁, hsource, h⟩ := Option.bind_eq_some_iff.mp h
  obtain ⟨rfl, -⟩ := Prod.mk.inj (Option.some.inj h)
  unfold insertBatch at hbatches
  rw [Option.ite_none_right_eq_some] at hbatches
  obtain ⟨hfree, rfl⟩ := Table.insert_eq_some_iff.mp hbatches.2
  exact ⟨hfree, participantIds, participants, s, hparticipants, hs, hsource⟩

lemma addSource_eq_some {row : ConversationSource} {v v' : Vault} (h : addSource row v = some v') :
    v' = { v with imports := { v.imports with sources := v.imports.sources ++ [row] } } := by
  unfold addSource at h
  rw [Option.ite_none_right_eq_some] at h
  exact (Option.some.inj h.2).symm

/-! ## Undo -/

lemma dropOrphan_cases (s : Vault × ℕ) (messageId : String) :
    Orphaned s.1 messageId ∧ (dropOrphan s messageId).1 = deleteMessage messageId s.1 ∨
      ¬ Orphaned s.1 messageId ∧ (dropOrphan s messageId).1 = s.1 := by
  unfold dropOrphan
  split
  · rename_i horphaned
    exact .inl ⟨horphaned, rfl⟩
  · rename_i hheld
    exact .inr ⟨hheld, rfl⟩

/-- A message the loop over the messages of a batch deletes. -/
def Drops (v : Vault) (messageIds : List String) (m : Message) : Prop :=
  m.id ∈ messageIds ∧ (∀ o ∈ v.imports.observations, o.messageId ≠ m.id) ∧ m.wamid = none

lemma foldl_dropOrphan {v : Vault} (hunique : Table.Unique Message.id v.evidence.messages) (n : ℕ)
    (messageIds : List String) :
    ∃ messages, (messageIds.foldl dropOrphan (v, n)).1 =
        { v with evidence := { v.evidence with messages := messages } } ∧
      messages.Sublist v.evidence.messages ∧
      ∀ m, m ∈ messages ↔ m ∈ v.evidence.messages ∧ ¬ Drops v messageIds m := by
  induction messageIds generalizing v n with
  | nil => exact ⟨v.evidence.messages, rfl, List.Sublist.refl _, by simp [Drops]⟩
  | cons messageId messageIds ih =>
    rw [List.foldl_cons]
    have hsnd := Prod.mk.eta (p := dropOrphan (v, n) messageId)
    rw [← hsnd]
    rcases dropOrphan_cases (v, n) messageId with ⟨⟨hfree, m, hm, hwamid⟩, hdrop⟩ | ⟨hheld, hkeep⟩
    · rw [hdrop]
      obtain ⟨hmem, rfl⟩ := (Table.Unique.find_eq_some_iff hunique).mp hm
      have hunique' : Table.Unique Message.id (deleteMessage m.id v).evidence.messages :=
        List.Nodup.sublist (List.filter_sublist.map _) hunique
      obtain ⟨messages, heq, hsub, hiff⟩ := ih hunique' (dropOrphan (v, n) m.id).2
      refine ⟨messages, heq, hsub.trans List.filter_sublist, fun m' => ?_⟩
      rw [hiff m']
      have hdeleted : m' ∈ (deleteMessage m.id v).evidence.messages ↔
          m' ∈ v.evidence.messages ∧ m'.id ≠ m.id := by
        simp [deleteMessage]
      rw [hdeleted]
      by_cases hid : m'.id = m.id
      · have hsame (hm' : m' ∈ v.evidence.messages) : m' = m := hunique.eq_of_key_eq hm' hmem hid
        constructor
        · rintro ⟨⟨-, hne⟩, -⟩
          exact absurd hid hne
        · rintro ⟨hm', hdrops⟩
          rw [hsame hm'] at hdrops
          exact absurd ⟨List.mem_cons_self, hfree, hwamid⟩ hdrops
      · simp [Drops, hid, deleteMessage]
    · rw [hkeep]
      obtain ⟨messages, heq, hsub, hiff⟩ := ih hunique (dropOrphan (v, n) messageId).2
      refine ⟨messages, heq, hsub, fun m' => ?_⟩
      rw [hiff m']
      refine and_congr_right fun hm' => not_congr ?_
      constructor
      · rintro ⟨hid, hrest⟩
        exact ⟨List.mem_cons_of_mem _ hid, hrest⟩
      · rintro ⟨hid, hfree, hwamid⟩
        rcases List.mem_cons.mp hid with rfl | hid
        · exact absurd ⟨hfree, m', (Table.Unique.find_eq_some_iff hunique).mpr ⟨hm', rfl⟩, hwamid⟩
            hheld
        · exact ⟨hid, hfree, hwamid⟩

/-- The loop deletes messages and nothing else. -/
theorem dropOrphans_spec {v : Vault} (hunique : Table.Unique Message.id v.evidence.messages)
    (messageIds : List String) :
    ∃ messages, (dropOrphans messageIds v).1 =
        { v with evidence := { v.evidence with messages := messages } } ∧
      messages.Sublist v.evidence.messages ∧
      ∀ m, m ∈ messages ↔ m ∈ v.evidence.messages ∧ ¬ Drops v messageIds m :=
  foldl_dropOrphan hunique 0 messageIds

/-- What the transaction of `undo_batch` does. -/
structure Undone (batchId : String) (nowMs : ℤ) (v v' : Vault) : Prop where
  frame : v' = { v with evidence := v'.evidence, imports := v'.imports }
  evidence : ∃ messages, v'.evidence = { v.evidence with messages := messages } ∧
    messages.Sublist v.evidence.messages
  mem_undone : ∀ m, m ∈ v'.evidence.messages ↔ m ∈ v.evidence.messages ∧
    ¬ ((∃ o ∈ v.imports.observations, o.batchId = batchId ∧ o.messageId = m.id) ∧
      (∀ o ∈ unobserved batchId v, o.messageId ≠ m.id) ∧ m.wamid = none)
  observations : v'.imports.observations = unobserved batchId v
  participants : v'.imports.participants =
    v.imports.participants.filter fun p => p.importBatchId ≠ batchId
  held : ∀ p ∈ v.imports.participants, p.importBatchId = batchId →
    ∀ o ∈ unobserved batchId v, o.senderImportParticipantId ≠ p.id
  batches : v'.imports.batches = v.imports.batches.map fun row =>
    if row.id = batchId then { row with undoneAtMs := some nowMs } else row

/-- The index is not touched. -/
lemma Undone.search {batchId : String} {nowMs : ℤ} {v v' : Vault} (h : Undone batchId nowMs v v') :
    v'.search = v.search := by
  rw [h.frame]

theorem undoBody_eq_some {batchId : String} {nowMs : ℤ} {v v' : Vault} {summary : UndoSummary}
    (hunique : Table.Unique Message.id v.evidence.messages)
    (h : undoBody batchId nowMs v = some (v', summary)) : Undone batchId nowMs v v' := by
  obtain ⟨messages, heq, hsub, hiff⟩ := dropOrphans_spec
    (v := withObservations (unobserved batchId v) v) hunique (observedBy batchId v)
  obtain ⟨dropped, hdropped⟩ : ∃ dropped,
      dropOrphans (observedBy batchId v) (withObservations (unobserved batchId v) v) = dropped :=
    ⟨_, rfl⟩
  simp only [undoBody, hdropped] at h
  rw [hdropped] at heq
  obtain ⟨imports, himports, h⟩ := Option.bind_eq_some_iff.mp h
  obtain ⟨rfl, -⟩ := Prod.mk.inj (Option.some.inj h)
  unfold deleteParticipants at himports
  rw [Option.ite_none_right_eq_some] at himports
  obtain ⟨hheld, himports⟩ := himports
  obtain rfl := Option.some.inj himports
  have hevidence := congrArg Vault.evidence heq
  have himports := congrArg Vault.imports heq
  have hobserved {m : Message} : m.id ∈ observedBy batchId v ↔
      ∃ o ∈ v.imports.observations, o.batchId = batchId ∧ o.messageId = m.id := by
    simp [observedBy, and_assoc]
  refine
    { frame := ?_
      evidence := ⟨messages, hevidence, hsub⟩
      mem_undone := fun m => ?_
      observations := congrArg Imports.observations himports
      participants := ?_
      held := ?_
      batches := ?_ }
  · rw [heq]
    rfl
  · rw [← hobserved]
    change m ∈ dropped.1.evidence.messages ↔ _
    rw [hevidence]
    exact hiff m
  · change dropped.1.imports.participants.filter _ = _
    rw [himports]
    rfl
  · rw [himports] at hheld
    exact hheld
  · change dropped.1.imports.batches.map _ = _
    rw [himports]
    rfl

/-- Nothing but the participants of a batch can stop its undo. -/
lemma undoBody_isSome {batchId : String} {nowMs : ℤ} {v : Vault}
    (hunique : Table.Unique Message.id v.evidence.messages)
    (hheld : ∀ p ∈ v.imports.participants, p.importBatchId = batchId →
      ∀ o ∈ unobserved batchId v, o.senderImportParticipantId ≠ p.id) :
    (undoBody batchId nowMs v).isSome := by
  obtain ⟨messages, heq, -⟩ := dropOrphans_spec
    (v := withObservations (unobserved batchId v) v) hunique (observedBy batchId v)
  have himports := congrArg Vault.imports heq
  unfold undoBody deleteParticipants
  dsimp only
  rw [himports]
  change (Option.bind (if ∀ p ∈ v.imports.participants, p.importBatchId = batchId →
    ∀ o ∈ unobserved batchId v, o.senderImportParticipantId ≠ p.id then _ else none) _).isSome
  rw [if_pos hheld]
  rfl

/-! ## Calls -/

lemma gate_eq_ok {records : List (Record × ℕ)} (h : gate I args = .ok records) :
    parseTranscript I.unicode (I.zone args.tzName) args.dateFormat args.text = some records := by
  unfold gate at h
  obtain ⟨-, -, h⟩ := Checks.bind_eq_ok.mp h
  obtain ⟨-, -, h⟩ := Checks.bind_eq_ok.mp h
  obtain ⟨-, -, h⟩ := Checks.bind_eq_ok.mp h
  obtain ⟨-, -, h⟩ := Checks.bind_eq_ok.mp h
  obtain ⟨parsed, hparsed, h⟩ := Checks.bind_eq_ok.mp h
  rw [Checks.orStop_eq_ok] at hparsed
  split at h
  · cases h
  · rw [hparsed, Checks.pure_eq_ok.mp h]

/-- A call of `import_batch` commits its whole transaction or leaves the committed state alone. -/
theorem importBatch_cases (I : Importer) (verdict : Verdict) (args : ImportArgs) (ids : ImportIds)
    (c : Conn Vault) :
    (∃ records v summary, gate I args = .ok records ∧
      importBody I args ids records c.working = some (v, summary) ∧
      importBatch I verdict args ids c = (.clean v, .ok summary)) ∨
    ∃ stop, (importBatch I verdict args ids c).2 = .error stop ∧
      ((importBatch I verdict args ids c).1 = c ∨
        (importBatch I verdict args ids c).1 = c.rollback) := by
  unfold importBatch
  rcases hgate : gate I args with stop | records
  · exact .inr ⟨stop, rfl, .inl rfl⟩
  · rcases transact_cases verdict (importBody I args ids records) c with
      ⟨v, summary, -, hbody, hrun⟩ | ⟨hrolled, hraised | hcrashed⟩
    · exact .inl ⟨records, v, summary, rfl, hbody, by simp only [hrun, ending]⟩
    · exact .inr ⟨.raised, by simp only [hraised, ending], .inr hrolled⟩
    · exact .inr ⟨.crashed, by simp only [hcrashed, ending], .inr hrolled⟩

/-- A call that returns leaves no transaction open. -/
lemma importBatch_returned {verdict : Verdict} {c : Conn Vault} {summary : Summary}
    (h : (importBatch I verdict args ids c).2 = .ok summary) :
    importBatch I verdict args ids c =
      (.clean (importBatch I verdict args ids c).1.durable, .ok summary) := by
  obtain ⟨records, v, summary', -, -, hrun⟩ | ⟨stop, hstop, -⟩ :=
    importBatch_cases I verdict args ids c
  · rw [hrun] at h ⊢
    rw [← h]
    rfl
  · rw [hstop] at h
    cases h

/-- A refused or failing call leaves a connection without an open transaction as it was. -/
theorem importBatch_stopped {verdict : Verdict} {c : Conn Vault} (hclean : c.rollback = c)
    {stop : Stop} (h : (importBatch I verdict args ids c).2 = .error stop) :
    (importBatch I verdict args ids c).1 = c := by
  rcases importBatch_cases I verdict args ids c with
    ⟨records, v, summary, -, -, hrun⟩ | ⟨-, -, hsame | hsame⟩
  · rw [hrun] at h
    cases h
  · exact hsame
  · exact hsame.trans hclean

theorem undoBatch_cases (verdict : Verdict) (batchId : String) (nowMs : ℤ) (c : Conn Vault) :
    (∃ v summary, verdict = .ok ∧ undoBody batchId nowMs c.working = some (v, summary) ∧
      undoBatch verdict batchId nowMs c = (.clean v, .ok summary)) ∨
    ∃ stop, (undoBatch verdict batchId nowMs c).2 = .error stop ∧
      (undoBatch verdict batchId nowMs c).1 = c.rollback := by
  unfold undoBatch
  rcases transact_cases verdict (undoBody batchId nowMs) c with
    ⟨v, summary, hverdict, hbody, hrun⟩ | ⟨hrolled, hraised | hcrashed⟩
  · exact .inl ⟨v, summary, hverdict, hbody, by simp only [hrun, ending]⟩
  · exact .inr ⟨.raised, by simp only [hraised, ending], hrolled⟩
  · exact .inr ⟨.crashed, by simp only [hcrashed, ending], hrolled⟩

lemma undoBatch_returned {verdict : Verdict} {batchId : String} {nowMs : ℤ} {c : Conn Vault}
    {summary : UndoSummary} (h : (undoBatch verdict batchId nowMs c).2 = .ok summary) :
    undoBatch verdict batchId nowMs c =
      (.clean (undoBatch verdict batchId nowMs c).1.durable, .ok summary) := by
  obtain ⟨v, summary', -, -, hrun⟩ | ⟨stop, hstop, -⟩ := undoBatch_cases verdict batchId nowMs c
  · rw [hrun] at h ⊢
    rw [← h]
    rfl
  · rw [hstop] at h
    cases h

theorem undoBatch_stopped {verdict : Verdict} {batchId : String} {nowMs : ℤ} {c : Conn Vault}
    (hclean : c.rollback = c) {stop : Stop}
    (h : (undoBatch verdict batchId nowMs c).2 = .error stop) :
    (undoBatch verdict batchId nowMs c).1 = c := by
  rcases undoBatch_cases verdict batchId nowMs c with ⟨v, summary, -, -, hrun⟩ | ⟨-, -, hsame⟩
  · rw [hrun] at h
    cases h
  · exact hsame.trans hclean

end WhatsVault.Importers
