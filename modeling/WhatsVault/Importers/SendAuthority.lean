import WhatsVault.Approval.Operations
import WhatsVault.Importers.Effects
import WhatsVault.Importers.Union
import WhatsVault.Ingest.Blindness
import WhatsVault.Ingest.WindowProjection

/-!
# Imports confer no authority to send

A service consumes the queue and sends, on one vault connection and one control connection.  Beside
it run the commands, each in a process of its own: imports and undos on the vault, and the doctor,
which reads the vault and repairs a window.

A run and what is left of it without its imports and undos are related in every state: the control
databases and clocks are the same, and the vaults are the same but for the rows of imports and the
index (`Related`).  An import adds rows that are not window-eligible and attaches its observations to
such rows alone, since a row of the provider has no fingerprint (`Alike.resolves`); so an undo deletes
such rows alone (`Alike.undone`).  Consumer, sender and doctor read none of them.
-/

namespace WhatsVault.Importers.Authority

open Transaction
open Ingest (Alike Matched Separated provided unimported)

/-! ## The system -/

/-- The consumer's process, which is the sender's as well, with its clock guard. -/
structure Sys where
  daemon : Ingest.Daemon
  clock : ClockGuard

/-- A restart of the process is one of `ingest` and one of `control`. -/
inductive Label
  | ingest (op : Ingest.Op)
  | control (op : Approval.Op)
  | rebuildWindow (conversationId : String) (fault : Option Fault)
  | importBatch (verdict : Verdict) (args : ImportArgs) (ids : ImportIds)
  | undoBatch (verdict : Verdict) (batchId : String) (nowMs : ℤ)

/-- What is seen of a run; of an import and an undo, nothing. -/
inductive Event
  | ingest (event : Ingest.Event)
  | control (event : Sender.Event)
  /-- What the doctor reports, `none` where it raises. -/
  | rebuilt (report : Option Ingest.WindowReport)
  deriving DecidableEq

def Label.imports : Label → Bool
  | .importBatch .. => true
  | .undoBatch .. => true
  | _ => false

/-- The doctor's command: it writes where the window has drifted. -/
def rebuildWindow (fault : Option Fault) (e : Evidence) (conversationId : String)
    (c : Conn Control) : Conn Control × Option Ingest.WindowReport :=
  match Ingest.rebuildWindowFromEvidence e conversationId c.durable with
  | none => (c, none)
  | some (control, report) =>
    let write (c : Conn Control) : Conn Control × Option Ingest.WindowReport :=
      match attempt fault (fun _ => some control) c with
      | (c, .done ()) => (c, some report)
      | (c, _) => (c, none)
    if report.drift then elsewhere none write c else (c, some report)

variable (I : Importer) (S : Stdlib) (C : Sealed.Primitives)

def step (s : Sys) : Label → Sys × List Event
  | .ingest op =>
    let r := Ingest.step I.platform S I.normaliser C s.daemon op
    (⟨r.1, s.clock⟩, r.2.map .ingest)
  | .control op =>
    let r := Approval.step I.platform S ⟨s.daemon.control, s.clock⟩ op
    (⟨⟨s.daemon.vault, r.1.control⟩, r.1.clock⟩, r.2.map .control)
  | .rebuildWindow conversationId fault =>
    let r := rebuildWindow fault s.daemon.vault.durable.evidence conversationId s.daemon.control
    (⟨⟨s.daemon.vault, r.1⟩, s.clock⟩, [.rebuilt r.2])
  | .importBatch verdict args ids =>
    let r := elsewhere (.error .raised) (importBatch I verdict args ids) s.daemon.vault
    (⟨⟨r.1, s.daemon.control⟩, s.clock⟩, [])
  | .undoBatch verdict batchId nowMs =>
    let r := elsewhere (.error .raised) (undoBatch verdict batchId nowMs) s.daemon.vault
    (⟨⟨r.1, s.daemon.control⟩, s.clock⟩, [])

/-- The run without its imports and undos. -/
def withoutImports (labels : List Label) : List Label := labels.filter fun l => ! l.imports

/-! ## Ids -/

/-- The ids that the imports of a run draw for messages. -/
def drawn (labels : List Label) : Set String :=
  {id | ∃ verdict args ids n, .importBatch verdict args ids ∈ labels ∧ ids.message n = id}

/-- No id that an import draws is the id of another message: of one that is stored, or of one the
consumer draws an id for. -/
structure Fresh (s : Sys) (labels : List Label) : Prop where
  stored : s.daemon.vault.Holds fun v => ∀ m ∈ v.evidence.messages, m.id ∉ drawn labels
  drained : ∀ op, .ingest op ∈ labels → op.Unreserved (drawn labels)

/-! ## What imports and undos change -/

variable {I S C} {args : ImportArgs} {ids : ImportIds} {reserved : Set String} {v v' w : Vault}

lemma alike_withImports (h : Alike reserved v w) {imports : Imports}
    (hobserved : ∀ o ∈ imports.observations, o.messageId ∈ reserved) :
    Alike reserved { v with imports := imports } w :=
  ⟨h.left, h.right, hobserved, h.same⟩

lemma alike_withMessage (h : Alike reserved v w) {row : Message} (body : String)
    (hfree : ∀ m ∈ v.evidence.messages, m.id ≠ row.id) (hid : row.id ∈ reserved)
    (horigin : row.origin = .manualExport) (hwamid : row.wamid = none)
    (heligible : row.windowEligible = false) : Alike reserved (withMessage I row body v) w := by
  refine
    { left :=
        { ids := h.left.ids.append hfree
          imported := fun m hm himported => ?_
          provider := fun m hm hprovider => ?_ }
      right := h.right
      observed := h.observed
      same := ?_ }
  · rcases List.mem_append.mp hm with hold | hnew
    · exact h.left.imported m hold himported
    · rw [List.mem_singleton.mp hnew]
      exact ⟨hid, hwamid, heligible⟩
  · rcases List.mem_append.mp hm with hold | hnew
    · exact h.left.provider m hold hprovider
    · rw [List.mem_singleton.mp hnew] at hprovider
      exact absurd horigin hprovider
  · rw [← h.same]
    simp [unimported, provided, withMessage, Search.stageIn, List.filter_append, horigin]

/-- The message of a fingerprint, found or added, is a row of an import. -/
lemma alike_resolves (h : Alike reserved v w) (hids : ∀ n, ids.message n ∈ reserved) {r : Sent}
    {b : Bucket} {fp messageId : String} (hres : Resolves I args ids r b fp v messageId v') :
    Alike reserved v' w ∧ messageId ∈ reserved := by
  cases hres with
  | found m hm hfp =>
    by_cases himported : m.origin = .manualExport
    · exact ⟨h, (h.left.imported m hm himported).1⟩
    · rw [(h.left.provider m hm himported).2] at hfp
      cases hfp
  | added n hid hnone => exact ⟨alike_withMessage h r.body hid (hids n) rfl rfl rfl, hids n⟩

lemma alike_observes (hids : ∀ n, ids.message n ∈ reserved) {participantIds : List (String × String)}
    {r : Sent} {s s' : Stage} (h : Alike reserved s.vault w)
    (hturn : Observes I args ids participantIds r s s') : Alike reserved s'.vault w := by
  obtain ⟨b, fp, messageId, v, participantId, -, -, hres, -, -, hvault⟩ := hturn.turn
  obtain ⟨hresolved, hreserved⟩ := alike_resolves h hids hres
  rw [hvault]
  refine alike_withImports hresolved fun o ho => ?_
  rcases List.mem_append.mp ho with hold | hnew
  · exact hresolved.observed o hold
  · rw [List.mem_singleton.mp hnew]
    exact hreserved

/-- An import changes rows of imports and the index. -/
theorem alike_imported (h : Alike reserved v w) (hids : ∀ n, ids.message n ∈ reserved)
    {records : List (Record × ℕ)} (himport : Imported I args ids records v v') :
    Alike reserved v' w := by
  obtain ⟨participantIds, participants, s, -, hloop, hsource⟩ := himport.turns
  have hopened : Alike reserved (opened args ids records participants v) w :=
    alike_withImports h h.observed
  have hlast := Loop.invariant (I := fun s : Stage => Alike reserved s.vault w)
    (fun s r s' hs hturn => alike_observes hids hs (importMessage_eq_some hturn)) hopened hloop
  rw [addSource_eq_some hsource]
  exact alike_withImports hlast hlast.observed

/-- An undo deletes rows of imports: whatever its batch observes is one. -/
theorem alike_undone (h : Alike reserved v w) {batchId : String} {nowMs : ℤ}
    (hundo : Undone batchId nowMs v v') : Alike reserved v' w := by
  obtain ⟨messages, hevidence, hsub⟩ := hundo.evidence
  have hmessages : v'.evidence.messages = messages := by rw [hevidence]
  have hleft : Separated reserved v'.evidence :=
    { ids := h.left.ids.sublist (hmessages ▸ hsub.map _)
      imported := fun m hm => h.left.imported m (hsub.subset (hmessages ▸ hm))
      provider := fun m hm => h.left.provider m (hsub.subset (hmessages ▸ hm)) }
  have hkept : v'.evidence.messages.filter (fun m => m.origin ≠ .manualExport) =
      v.evidence.messages.filter fun m => m.origin ≠ .manualExport := by
    refine ((hmessages ▸ hsub).filter _).eq_of_length_le ?_
    refine (List.subperm_of_subset (h.left.ids.of_map.filter _) fun m hm => ?_).length_le
    obtain ⟨hmem, horigin⟩ := List.mem_filter.mp hm
    refine List.mem_filter.mpr ⟨(hundo.mem_undone m).mpr ⟨hmem, ?_⟩, horigin⟩
    rintro ⟨⟨o, ho, -, hid⟩, -⟩
    exact (h.left.provider m hmem (by simpa using horigin)).1 (hid ▸ h.observed o ho)
  refine ⟨hleft, h.right, fun o ho => ?_, ?_⟩
  · rw [hundo.observations] at ho
    exact h.observed o (List.mem_of_mem_filter ho)
  · have hprovided : provided v'.evidence = provided v.evidence := by
      unfold provided
      rw [hkept, hevidence]
    rw [← h.same]
    unfold unimported
    rw [hprovided, hundo.frame]

/-! ## Steps -/

/-- A run and the run without imports, in the middle. -/
structure Related (reserved : Set String) (s s' : Sys) : Prop where
  daemon : Matched reserved s.daemon s'.daemon
  clock : s.clock = s'.clock

/-- The ids a label draws. -/
def Label.Draws (reserved : Set String) : Label → Prop
  | .ingest op => op.Unreserved reserved
  | .importBatch _ _ ids => ∀ n, ids.message n ∈ reserved
  | _ => True

/-- The rows of imports are not window-eligible. -/
lemma inboundTimes_provided {e : Evidence} (h : Separated reserved e) (conversationId : String) :
    Ingest.inboundTimes (provided e) conversationId = Ingest.inboundTimes e conversationId := by
  unfold Ingest.inboundTimes provided
  rw [List.filter_filter]
  refine congrArg (List.map Message.tsLowerMs) (List.filter_congr fun m hm => ?_)
  by_cases himported : m.origin = .manualExport
  · simp [himported, (h.imported m hm himported).2.2]
  · simp [himported]

lemma evidenceMs_alike (h : Alike reserved v w) (conversationId : String) :
    Ingest.evidenceMs v.evidence conversationId = Ingest.evidenceMs w.evidence conversationId := by
  have hsame : provided v.evidence = provided w.evidence := congrArg Vault.evidence h.same
  unfold Ingest.evidenceMs
  rw [← inboundTimes_provided h.left, ← inboundTimes_provided h.right, hsame]

lemma rebuildWindow_alike (h : Alike reserved v w) (fault : Option Fault) (conversationId : String)
    (c : Conn Control) : rebuildWindow fault v.evidence conversationId c =
      rebuildWindow fault w.evidence conversationId c := by
  unfold rebuildWindow Ingest.rebuildWindowFromEvidence
  rw [evidenceMs_alike h]

section Steps

variable {s s' : Sys}

lemma step_kept (h : Related reserved s s') {label : Label} (hdraws : label.Draws reserved)
    (hkept : label.imports = false) :
    Related reserved (step I S C s label).1 (step I S C s' label).1 ∧
      (step I S C s label).2 = (step I S C s' label).2 := by
  cases label with
  | ingest op =>
    obtain ⟨hdaemon, hevents⟩ := Ingest.step_alike I.platform S I.normaliser C h.daemon hdraws
    exact ⟨⟨hdaemon, h.clock⟩, congrArg (List.map Event.ingest) hevents⟩
  | control op =>
    simp only [step, ← h.daemon.control, ← h.clock]
    exact ⟨⟨⟨h.daemon.vault, rfl⟩, rfl⟩, trivial⟩
  | rebuildWindow conversationId fault =>
    simp only [step, ← h.daemon.control, rebuildWindow_alike h.daemon.vault.1]
    exact ⟨⟨⟨h.daemon.vault, rfl⟩, h.clock⟩, trivial⟩
  | importBatch verdict args ids => cases hkept
  | undoBatch verdict batchId nowMs => cases hkept

lemma step_dropped (h : Related reserved s s') {label : Label} (hdraws : label.Draws reserved)
    (hdropped : label.imports = true) :
    Related reserved (step I S C s label).1 s' ∧ (step I S C s label).2 = [] := by
  cases label with
  | ingest op => cases hdropped
  | control op => cases hdropped
  | rebuildWindow conversationId fault => cases hdropped
  | importBatch verdict args ids =>
    refine ⟨⟨⟨h.daemon.vault.elsewhere_left _ fun t ht hclean => ?_, h.daemon.control⟩, h.clock⟩, rfl⟩
    rcases importBatch_cases I verdict args ids s.daemon.vault with
      ⟨records, v, summary, -, hbody, hrun⟩ | ⟨stop, -, hrun | hrun⟩
    · rw [hrun]
      exact alike_imported ht hdraws (importBody_eq_some hbody)
    · rw [hrun, ← hclean]
      exact ht
    · rw [hrun, Conn.rollback_durable, ← hclean]
      exact ht
  | undoBatch verdict batchId nowMs =>
    refine ⟨⟨⟨h.daemon.vault.elsewhere_left _ fun t ht hclean => ?_, h.daemon.control⟩, h.clock⟩, rfl⟩
    rcases undoBatch_cases verdict batchId nowMs s.daemon.vault with
      ⟨v, summary, -, hbody, hrun⟩ | ⟨stop, -, hrun⟩
    · rw [hrun]
      exact alike_undone ht (undoBody_eq_some ht.left.ids hbody)
    · rw [hrun, Conn.rollback_durable, ← hclean]
      exact ht

end Steps

/-! ## Runs -/

lemma Fresh.draws {s : Sys} {labels : List Label} (h : Fresh s labels) :
    ∀ label ∈ labels, label.Draws (drawn labels) := by
  intro label hlabel
  cases label with
  | ingest op => exact h.drained op hlabel
  | importBatch verdict args ids => exact fun n => ⟨verdict, args, ids, n, hlabel, rfl⟩
  | control op => trivial
  | rebuildWindow conversationId fault => trivial
  | undoBatch verdict batchId nowMs => trivial

lemma alike_pristine (hv : Pristine v) (hfresh : ∀ m ∈ v.evidence.messages, m.id ∉ reserved) :
    Alike reserved v v := by
  have hseparated : Separated reserved v.evidence :=
    { ids := hv.ids
      imported := fun m hm himported => absurd himported (hv.provider m hm).1
      provider := fun m hm _ => ⟨hfresh m hm, (hv.provider m hm).2⟩ }
  refine ⟨hseparated, hseparated, ?_, rfl⟩
  rw [hv.imports]
  simp

/-- Without its imports and undos a run ends with the same control database, windows and all, and the
same happens in it: the same sends, refusals, reports and acknowledgements in the same order. -/
theorem imports_confer_no_authority (I : Importer) (S : Stdlib) (C : Sealed.Primitives) (s : Sys)
    (hpristine : s.daemon.vault.Holds Pristine) (labels : List Label) (hfresh : Fresh s labels) :
    (Run.final (step I S C) s labels).daemon.control =
        (Run.final (step I S C) s (withoutImports labels)).daemon.control ∧
      (Run.final (step I S C) s labels).clock =
        (Run.final (step I S C) s (withoutImports labels)).clock ∧
      Run.events (step I S C) s labels = Run.events (step I S C) s (withoutImports labels) := by
  have hvault : s.daemon.vault.Rel (Alike (drawn labels)) s.daemon.vault :=
    ⟨alike_pristine hpristine.1 hfresh.stored.1, alike_pristine hpristine.2 hfresh.stored.2⟩
  have hstart : Related (drawn labels) s s := ⟨⟨hvault, rfl⟩, rfl⟩
  have hrun : Related (drawn labels) (Run.final (step I S C) s labels)
      (Run.final (step I S C) s (withoutImports labels)) ∧
      Run.events (step I S C) s labels = Run.events (step I S C) s (withoutImports labels) := by
    refine Run.unwinding (R := Related (drawn labels)) (fun s s' label h hdraws hkept => ?_)
      (fun s s' label h hdraws hdropped => ?_) hstart hfresh.draws
    · exact step_kept h hdraws (by simpa using hkept)
    · exact step_dropped h hdraws (by simpa using hdropped)
  exact ⟨hrun.1.daemon.control, hrun.1.clock, hrun.2⟩

/-! ## A sample run -/

/-- The importer on the platform of the sample send. -/
def sendingImporter : Importer :=
  { sampleImporter with
    platform := Approval.signedOnce (Approval.samplePayload "PN1" "text") }

/-- A message comes in, an export of its conversation is imported, the doctor looks, an approved
draft is sent, and the import is undone. -/
def sampleLabels : List Label :=
  [.ingest (Ingest.sampleDrain Ingest.samplePlaintext {}),
    .importBatch .ok (sampleArgs "1/4/26 1:02 M: h") (sampleImportIds "a"),
    .rebuildWindow "cnv_1" none] ++
  (Approval.sampleRun "PN1" "text").map .control ++ [.undoBatch .ok "bat_a" 5]

def sampleSys : Sys := ⟨⟨.clean .empty, .clean .empty⟩, ⟨none⟩⟩

lemma drawn_sampleLabels {id : String} (h : id ∈ drawn sampleLabels) :
    ∃ n, (sampleImportIds "a").message n = id := by
  obtain ⟨verdict, args, ids, n, hlabel, hid⟩ := h
  simp only [sampleLabels, Approval.sampleRun, Approval.sampleSend, List.map_cons, List.map_nil,
    List.cons_append, List.nil_append, List.mem_cons, List.not_mem_nil, or_false, reduceCtorEq,
    false_or, Label.importBatch.injEq] at hlabel
  obtain ⟨-, -, rfl⟩ := hlabel
  exact ⟨n, hid⟩

lemma fresh_sampleLabels : Fresh sampleSys sampleLabels where
  stored := Conn.holds_clean (by simp [Vault.empty])
  drained := by
    intro op hop
    simp only [sampleLabels, Approval.sampleRun, List.map_cons, List.map_nil, List.cons_append,
      List.nil_append, List.mem_cons, List.not_mem_nil, or_false, reduceCtorEq,
      Label.ingest.injEq] at hop
    subst hop
    intro lease hlease i hdrawn
    obtain rfl := List.mem_singleton.mp hlease
    obtain ⟨n, hid⟩ := drawn_sampleLabels hdrawn
    have hchars := congrArg String.toList hid
    simp [sampleImportIds, Ingest.sampleLease, Ingest.sampleIds, List.replicate_succ] at hchars


/-- The import adds a message, the draft is sent, and without the import it is sent as well. -/
theorem imports_confer_no_authority_sample_run :
    let run := Run.final (step sendingImporter Ingest.sampleStdlib Ingest.samplePrimitives) sampleSys
    let events := Run.events (step sendingImporter Ingest.sampleStdlib Ingest.samplePrimitives)
      sampleSys
    (run (sampleLabels.take 1)).daemon.vault.durable.evidence.messages.length = 1 ∧
      (run (sampleLabels.take 2)).daemon.vault.durable.evidence.messages.length = 2 ∧
      .control (.answered "atm_1" (.submitted (some "wamid.1"))) ∈ events sampleLabels ∧
      (run sampleLabels).daemon.control = (run (withoutImports sampleLabels)).daemon.control ∧
      events sampleLabels = events (withoutImports sampleLabels) := by
  intro run events
  have hpristine : Pristine .empty := ⟨Table.unique_nil _, by simp [Vault.empty], rfl⟩
  have hrun := imports_confer_no_authority sendingImporter Ingest.sampleStdlib
    Ingest.samplePrimitives sampleSys (Conn.holds_clean hpristine) sampleLabels fresh_sampleLabels
  obtain ⟨hone, htwo, hsent⟩ :
      (run (sampleLabels.take 1)).daemon.vault.durable.evidence.messages.length = 1 ∧
      (run (sampleLabels.take 2)).daemon.vault.durable.evidence.messages.length = 2 ∧
      .control (.answered "atm_1" (.submitted (some "wamid.1"))) ∈ events sampleLabels := by
    decide +kernel
  exact ⟨hone, htwo, hsent, hrun.1, hrun.2.2⟩

end WhatsVault.Importers.Authority
