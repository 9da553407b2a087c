import WhatsVault.Ingest.Effects
import WhatsVault.Library.Run
import WhatsVault.Search.Coherence

/-!
# Indexing that fails

The index rows of a stored message are written after its commit, by statements of their own that end
in a commit of their own, and an exception in them is swallowed without a rollback.  What they have
written by then stays in the open transaction, and the next commit publishes it: the next atom's, a
duplicate's, a quarantine's.

Where no indexing fails between its first statement and its last, every committed state has for each
message all of its index rows or none (`Whole`), `search_missing` counts those that have none, and
indexing a message again gives it its rows.
-/

namespace WhatsVault.Ingest

open Transaction
open Search (Coherent Indexed)

/-! ## The rows of a message -/

/-- A message has its document, and each full-text index has the text of that document and no
other text under its row id. -/
def Present (s : SearchTables) (messageId : String) : Prop :=
  ∃ d ∈ s.documents, d.messageId = messageId ∧
    (s.ftsLexical.filter fun e => e.1 = d.rowid).map Prod.snd = [d.textSearch] ∧
    (s.ftsCompact.filter fun e => e.1 = d.rowid).map Prod.snd = [d.textCompact]

instance (s : SearchTables) (messageId : String) : Decidable (Present s messageId) :=
  inferInstanceAs (Decidable (∃ d ∈ s.documents, _))

/-- A message has no document, and there is no full-text entry but those of documents. -/
def Absent (s : SearchTables) (messageId : String) : Prop :=
  ¬ Indexed s messageId ∧ (∀ e ∈ s.ftsLexical, ∃ d ∈ s.documents, d.rowid = e.1) ∧
    ∀ e ∈ s.ftsCompact, ∃ d ∈ s.documents, d.rowid = e.1

/-- `search_missing` of `check_search`. -/
def searchMissing (v : Vault) : ℕ :=
  v.evidence.messages.countP fun m => m.textOriginal ≠ none ∧ ¬ Indexed v.search m.id

/-- Each message has all of its index rows or none.  One without them that has a text is reported,
and indexing repairs it. -/
structure Whole (v : Vault) : Prop where
  whole : ∀ m ∈ v.evidence.messages, Present v.search m.id ∨ Absent v.search m.id
  reported : ∀ m ∈ v.evidence.messages, m.textOriginal ≠ none → Absent v.search m.id →
    0 < searchMissing v
  repaired : ∀ (N : Search.Normaliser) (messageId text : String),
    Present (Search.stageMessage N messageId text v.search) messageId

lemma present_of_coherent {s : SearchTables} (h : Coherent s) {messageId : String}
    (hindexed : Indexed s messageId) : Present s messageId := by
  obtain ⟨d, hd, hid⟩ := hindexed
  exact ⟨d, hd, hid, h.lexical.filter_key h.rowids hd, h.compact.filter_key h.rowids hd⟩

lemma absent_of_coherent {s : SearchTables} (h : Coherent s) {messageId : String}
    (hindexed : ¬ Indexed s messageId) : Absent s messageId := by
  refine ⟨hindexed, fun e he => ?_, fun e he => ?_⟩
  · obtain ⟨d, hd, rfl⟩ := h.lexical.exists_row he
    exact ⟨d, hd, rfl⟩
  · obtain ⟨d, hd, rfl⟩ := h.compact.exists_row he
    exact ⟨d, hd, rfl⟩

lemma whole_of_coherent {v : Vault} (h : Coherent v.search) : Whole v where
  whole m _ := by
    by_cases hindexed : Indexed v.search m.id
    · exact .inl (present_of_coherent h hindexed)
    · exact .inr (absent_of_coherent h hindexed)
  reported m hm htext habsent := List.countP_pos_iff.mpr ⟨m, hm, by simp [htext, habsent.1]⟩
  repaired N messageId text := by
    have hindexed : Search.Indexed (Search.stageMessage N messageId text v.search) messageId ↔ _ :=
      Search.indexed_stageMessage N text h messageId
    exact present_of_coherent (h.stageMessage N text) (hindexed.mpr (.inr rfl))

/-! ## One call of `index_message` -/

/-- The statements that index a new message. -/
def newStatements : ℕ := 3

/-- The failure is before the first statement, behind the last, or the end of the process. -/
def IndexFault.Clean : IndexFault → Prop
  | .statements n => n = 0 ∨ newStatements ≤ n
  | .commit => True
  | .crash => True

instance : ∀ fault, Decidable (IndexFault.Clean fault)
  | .statements n => inferInstanceAs (Decidable (n = 0 ∨ newStatements ≤ n))
  | .commit => .isTrue trivial
  | .crash => .isTrue trivial

/-- The documents are of messages, and the index is coherent. -/
structure Tracked (v : Vault) : Prop where
  keyed : Keyed v.evidence
  coherent : Coherent v.search
  documents : ∀ d ∈ v.search.documents, ∃ m ∈ v.evidence.messages, m.id = d.messageId

lemma tracked_empty : Tracked .empty where
  keyed := Keyed.empty
  coherent := Coherent.empty
  documents := by
    intro d hd
    cases hd

variable {P : Platform} {S : Stdlib} {N : Search.Normaliser} {C : Sealed.Primitives} {v : Vault}

/-- A vault whose evidence has grown. -/
lemma Tracked.withEvidence (h : Tracked v) {e : Evidence} (hkeyed : Keyed e)
    (hmessages : v.evidence.messages ⊆ e.messages) : Tracked { v with evidence := e } where
  keyed := hkeyed
  coherent := h.coherent
  documents d hd := by
    obtain ⟨m, hm, hid⟩ := h.documents d hd
    exact ⟨m, hmessages hm, hid⟩

/-- A message that is indexed. -/
lemma Tracked.staged (h : Tracked v) {messageId : String}
    (hmessage : ∃ m ∈ v.evidence.messages, m.id = messageId) (text : String) :
    Tracked (withSearch (Search.stageMessage N messageId text) v) where
  keyed := h.keyed
  coherent := h.coherent.stageMessage N text
  documents d hd := by
    have hindexed : Search.Indexed (Search.stageMessage N messageId text v.search) d.messageId ↔ _ :=
      Search.indexed_stageMessage N text h.coherent d.messageId
    rcases hindexed.mp ⟨d, hd, rfl⟩ with ⟨d', hd', hid⟩ | hid
    · rw [← hid]
      exact h.documents d' hd'
    · rw [hid]
      exact hmessage

/-- A failure that is clean leaves all of a new message's rows or none. -/
lemma stagePartially_of_clean {s : SearchTables} {messageId : String}
    (hnew : Search.document messageId s = none) (text : String) {n : ℕ}
    (hclean : (IndexFault.statements n).Clean) :
    Search.stagePartially N n messageId text s = s ∨
      Search.stagePartially N n messageId text s = Search.stageMessage N messageId text s := by
  rcases hclean with rfl | hall
  · exact .inl rfl
  · right
    unfold Search.stagePartially Search.stageMessage
    rw [List.take_of_length_le]
    unfold Search.stageStatements
    rw [hnew]
    exact hall

lemma tracked_indexMessage {fault : Option IndexFault} (hclean : ∀ f ∈ fault, f.Clean)
    {messageId : String} (text : Json) {c : Conn Vault} (h : c.Holds Tracked)
    (hmessage : ∃ m ∈ c.working.evidence.messages, m.id = messageId)
    (hnew : ¬ Indexed c.working.search messageId) :
    (indexMessage N fault messageId text c).1.Holds Tracked := by
  have hnone : Search.document messageId c.working.search = none := by
    apply Table.find_eq_none_iff.mpr
    intro d hd hid
    exact hnew ⟨d, hd, hid⟩
  unfold indexMessage
  split
  · exact h.rollback
  · exact h
  · rename_i n text _
    apply h.exec
    intro hv
    rcases stagePartially_of_clean (N := N) hnone text (hclean _ rfl) with hsame | hall
    · rw [withSearch, hsame]
      exact hv
    · rw [withSearch, hall]
      exact hv.staged hmessage text
  · apply h.exec
    intro hv
    exact hv.staged hmessage _
  · exact Conn.holds_clean (h.2.staged hmessage _)

/-- No full-text entry has the row id that a new document gets. -/
lemma filter_nextRowid {s : SearchTables} {entries : List (ℕ × String)}
    {text : SearchDocument → String}
    (h : Mirror.Mirrors (fun d => (d.rowid, text d)) s.documents entries) :
    entries.filter (fun e => e.1 = Search.nextRowid s) = [] := by
  rw [List.filter_eq_nil_iff]
  intro e he hsame
  obtain ⟨d, hd, rfl⟩ := h.exists_row he
  have hlt := Search.rowid_lt_nextRowid hd
  have heq : d.rowid = Search.nextRowid s := of_decide_eq_true hsame
  omega

/-- A failure that is not clean leaves a document without its full-text entries for the next commit to
publish. -/
theorem unclean_failure_is_published {messageId text : String} {n : ℕ} (h : Coherent v.search)
    (hmessage : ∃ m ∈ v.evidence.messages, m.id = messageId)
    (hnew : ¬ Indexed v.search messageId) (hunclean : ¬ (IndexFault.statements n).Clean) :
    ¬ Whole (withSearch (Search.stagePartially N n messageId text) v) := by
  have hnone : Search.document messageId v.search = none := by
    apply Table.find_eq_none_iff.mpr
    intro d hd hid
    exact hnew ⟨d, hd, hid⟩
  have hdocuments : (Search.stagePartially N n messageId text v.search).documents =
        v.search.documents ++ [Search.documentRow N (Search.nextRowid v.search) messageId text] ∧
      (Search.stagePartially N n messageId text v.search).ftsCompact = v.search.ftsCompact := by
    have hn : n = 1 ∨ n = 2 := by
      simp only [IndexFault.Clean, newStatements, not_or, not_le] at hunclean
      omega
    unfold Search.stagePartially Search.stageStatements
    rw [hnone]
    rcases hn with rfl | rfl
    · exact ⟨rfl, rfl⟩
    · exact ⟨rfl, rfl⟩
  obtain ⟨m, hm, rfl⟩ := hmessage
  intro hwhole
  rcases hwhole.whole m hm with hpresent | habsent
  · obtain ⟨d, hd, hid, -, hcompact⟩ := hpresent
    have hd' : d ∈ (Search.stagePartially N n m.id text v.search).documents := hd
    rw [hdocuments.1] at hd'
    rcases List.mem_append.mp hd' with hold | hlast
    · exact hnew ⟨d, hold, hid⟩
    · rw [List.mem_singleton.mp hlast] at hcompact
      have hentry : ((Search.stagePartially N n m.id text v.search).ftsCompact.filter
          fun e => e.1 = Search.nextRowid v.search).map Prod.snd = [N.toCompact text] := hcompact
      rw [hdocuments.2, filter_nextRowid h.compact] at hentry
      cases hentry
  · apply habsent.1
    refine ⟨Search.documentRow N (Search.nextRowid v.search) m.id text, ?_, rfl⟩
    show _ ∈ (Search.stagePartially N n m.id text v.search).documents
    rw [hdocuments.1]
    exact List.mem_append_right _ (List.mem_singleton_self _)

/-! ## Runs -/

/-- No indexing of the call fails between its statements. -/
def IndexesCleanly : Op → Prop
  | .drain r => ∀ lease ∈ r.leases, ∀ i, ∀ fault ∈ (lease.faults i).index, fault.Clean
  | _ => True

lemma tracked_afterCommit {faults : AtomFaults} (hclean : ∀ f ∈ faults.index, f.Clean)
    {family : Family} {applied : Option Applied} {d : Daemon} (h : d.vault.Holds Tracked)
    (hnew : ∀ a ∈ applied, (∃ m ∈ d.vault.working.evidence.messages, m.id = a.messageId) ∧
      ¬ Indexed d.vault.working.search a.messageId) :
    (afterCommit N faults family applied d).1.vault.Holds Tracked := by
  unfold afterCommit
  split
  · rename_i a
    obtain ⟨hmessage, hfree⟩ := hnew a rfl
    have hindex := tracked_indexMessage (N := N) hclean a.text h hmessage hfree
    unfold project
    split
    · exact h.rollback
    · exact h
    · split <;> rename_i vault _ heq <;> rw [heq] at hindex
      · exact hindex
      · exact holds_runHook hindex
  · exact holds_runHook h

lemma tracked_processAtom {now : ℤ} {ids : AtomIds} {faults : AtomFaults} {atom : Atom} {d : Daemon}
    (hclean : ∀ f ∈ faults.index, f.Clean) (h : d.vault.Holds Tracked) :
    (processAtom P S N now ids faults atom d).1.vault.Holds Tracked := by
  have hcases := processAtom_cases P S N now ids faults atom d
  generalize processAtom P S N now ids faults atom d = result at hcases ⊢
  cases hcases with
  | undecodable => exact h
  | failed => exact h.rollback
  | duplicate => exact Conn.holds_clean h.2
  | @stored x event evidence applied _ _ hstores _ hafter =>
    rw [hafter]
    have hledger : Keyed (withLedger d.vault.working.evidence event) := { h.2.keyed with }
    have hkeyed := hstores.keyed hledger
    obtain ⟨added, hadded⟩ := hstores.messages_append
    have hgrown : d.vault.working.evidence.messages ⊆ evidence.messages := by
      rw [hadded]
      exact List.subset_append_left _ _
    have hstored : (⟨.clean { d.vault.working with evidence := evidence }, d.control⟩ :
        Daemon).vault.Holds Tracked := Conn.holds_clean (h.2.withEvidence hkeyed hgrown)
    apply tracked_afterCommit hclean hstored
    intro a ha
    obtain rfl := Option.mem_def.mp ha
    obtain ⟨row, hrow, hid⟩ := hstores.messages_of_some
    have hmessages : evidence.messages = d.vault.working.evidence.messages ++ [row] := hrow
    refine ⟨⟨row, ?_, hid⟩, ?_⟩
    · rw [Conn.clean_working, hmessages]
      exact List.mem_append_right _ (List.mem_singleton_self row)
    · -- a document would be of a message that was there before, whose id the new one has
      intro hindexed
      obtain ⟨doc, hdoc, hdocId⟩ := hindexed
      obtain ⟨m, hm, hmId⟩ := h.2.documents doc hdoc
      have hunique : Table.Unique Message.id evidence.messages := hkeyed.messageIds
      unfold Table.Unique at hunique
      rw [hmessages, List.map_append, List.nodup_append] at hunique
      refine hunique.2.2 m.id (List.mem_map_of_mem hm) row.id (by simp) ?_
      rw [hmId, hdocId, hid]

lemma tracked_handleLease {r : Drain} {lease : Lease} {health : List ℕ} {d : Daemon}
    (hclean : ∀ i, ∀ f ∈ (lease.faults i).index, f.Clean) (h : d.vault.Holds Tracked) :
    (handleLease P S N C r lease health d).1.vault.Holds Tracked := by
  have hcases := handleLease_cases P S N C r lease health d
  generalize handleLease P S N C r lease health d = result at hcases ⊢
  have hpayload : ∀ {plaintext after outcome log},
      processPayload P S N r.now lease.ids lease.faults plaintext d = (after, outcome, log) →
      after.vault.Holds Tracked := by
    intro plaintext after outcome log hran
    unfold processPayload at hran
    split at hran
    · cases hran
      exact h
    · rename_i atoms _
      have hloop := processAtoms_invariant (P := P) (S := S) (N := N) r.now lease.ids lease.faults
        atoms 0 (J := fun _ d => d.vault.Holds Tracked)
        (fun _ j _ _ _ hd => tracked_processAtom (hclean (0 + j)) hd) [] h
      rwa [hran] at hloop
  have hdisposes : ∀ {f disposition log}, (∀ v v', f v = some v' → Tracked v → Tracked v') →
      Disposes f disposition log d result → result.1.vault.Holds Tracked := by
    intro f disposition log hf hd
    cases hd with
    | written hwrote => exact Conn.holds_clean (hf _ _ hwrote h.2)
    | uncommitted hwrote => exact ⟨h.1, hf _ _ hwrote h.2⟩
    | refused => exact h
    | crashed => exact h.rollback
  cases hcases with
  | raised => exact h
  | unavailable => exact h
  | quarantines hd =>
    refine hdisposes (fun v v' hwrote hv => ?_) hd
    obtain ⟨row, -, rfl⟩ := quarantine_eq_some hwrote
    exact ⟨hv.keyed, hv.coherent, hv.documents⟩
  | trips hd =>
    refine hdisposes (fun v v' hwrote hv => ?_) hd
    obtain ⟨circuit, rfl⟩ := trip_eq_some hwrote
    exact ⟨hv.keyed, hv.coherent, hv.documents⟩
  | processed _ hran => exact hpayload hran
  | nacked _ hran => exact hpayload hran
  | died _ hran => exact hpayload hran

lemma tracked_step (d : Daemon) (op : Op) (h : d.vault.Holds Tracked) (hclean : IndexesCleanly op) :
    (step P S N C d op).1.vault.Holds Tracked := by
  cases op with
  | drain r =>
    exact drainOnce_invariant (P := P) (S := S) (N := N) (C := C)
      (J := fun _ d => d.vault.Holds Tracked)
      (fun _ _ lease hlease _ hd => tracked_handleLease (hclean lease hlease) hd)
      (fun _ _ _ hd => hd) [] h
  | restart => exact h.rollback
  | resetCircuit =>
    exact ⟨⟨h.1.keyed, h.1.coherent, h.1.documents⟩, ⟨h.2.keyed, h.2.coherent, h.2.documents⟩⟩

/-- **Clean failures of the indexing leave no trace.**  In a run in which no indexing fails between
its statements, a committed state has all of a message's index rows or none. -/
theorem failed_indexing_leaves_no_trace {ops : List Op}
    (h : Run.Meets (step P S N C) (fun _ op => IndexesCleanly op) start ops) :
    Whole (Run.final (step P S N C) start ops).vault.durable := by
  have htracked : (Run.final (step P S N C) start ops).vault.Holds Tracked :=
    Run.invariant_of_meets (I := fun d : Daemon => d.vault.Holds Tracked)
      (fun d op hd hop => tracked_step d op hd hop) (Conn.holds_clean tracked_empty) h
  exact whole_of_coherent htracked.1.coherent

theorem failed_indexing_leaves_no_trace_sample :
    Whole (Run.final (step samplePlatform sampleStdlib sampleNormaliser samplePrimitives) start
      [sampleDrain samplePlaintext { index := some (.statements 0) }]).vault.durable := by
  apply failed_indexing_leaves_no_trace
  refine ⟨?_, trivial⟩
  intro lease hlease i fault hfault
  rw [List.mem_singleton.mp hlease] at hfault
  obtain rfl := Option.some.inj hfault
  exact .inl rfl

/-- A message whose indexing fails behind its first statement, and an envelope that is quarantined. -/
def sampleTorn : Drain :=
  { sampleCall samplePlaintext { index := some (.statements 1) } with
    leases := [sampleLease samplePlaintext { index := some (.statements 1) },
      ⟨"lse_2", [], sampleIds, fun _ => {}, none⟩] }

def sampleTornVault : Vault :=
  (Run.final (step samplePlatform sampleStdlib sampleNormaliser samplePrimitives) start
    [.drain sampleTorn]).vault.durable

/-- The quarantine commits the document of the message, which no full-text index has, and nothing
reports it. -/
theorem quarantine_publishes_torn_index :
    sampleTornVault.evidence.messages.map Message.textOriginal = [some "hello"] ∧
      sampleTornVault.search.documents.length = 1 ∧ sampleTornVault.search.ftsLexical = [] ∧
      sampleTornVault.search.ftsCompact = [] ∧ searchMissing sampleTornVault = 0 ∧
      ¬ Whole sampleTornVault := by
  have htorn : ∃ m ∈ sampleTornVault.evidence.messages, Indexed sampleTornVault.search m.id ∧
      ¬ Present sampleTornVault.search m.id := by
    decide +kernel
  refine ⟨by decide +kernel, by decide +kernel, by decide +kernel, by decide +kernel,
    by decide +kernel, fun hwhole => ?_⟩
  obtain ⟨m, hm, hindexed, habsent⟩ := htorn
  rcases hwhole.whole m hm with hpresent | hnone
  · exact habsent hpresent
  · exact hnone.1 hindexed

end WhatsVault.Ingest
