import Mathlib.Data.List.Induction
import WhatsVault.Approval.Sender
import WhatsVault.Library.Run

/-!
# The freeze of a draft

The trigger `trg_draft_freeze` aborts a statement whose SET list names one of its columns where it
would update a row that is not in state DRAFT.  Its list and that of `canonical.encode` are written
in two places: `id`, `created_at_ms` and `conversation_id` are on the second alone, and `state` is on
neither, so that a row may be set back to DRAFT and lose its protection.  What is signed stays as it
was exactly where no statement uses one of these ways (`frozen_iff`).

An UPDATE is its SET list and the values it has for each row that its WHERE clause selects, whatever
expressions these came from; it has the default conflict clause.
-/

namespace WhatsVault.Freeze

/-! ## Rows -/

/-- A value as SQLite stores it. -/
inductive Value
  | null
  | integer (n : ℤ)
  | real (bits : UInt64)
  | text (s : String)
  | blob (b : Bytes)
  deriving DecidableEq

/-- The columns of the migrated table `drafts`. -/
inductive Column
  | id
  | conversationId
  | accountId
  | phoneNumberId
  | recipientId
  | recipientWaId
  | recipientDisplaySnapshot
  | bodyBytes
  | bodySha256
  | kind
  | templateId
  | templateParamsSha256
  | attachmentsDigest
  | replyToWamid
  | nonce
  | createdAtMs
  | expiresAtMs
  | createdBy
  | state
  | targetMessageWamid
  deriving DecidableEq

abbrev Row := Column → Value

/-- `x IN (...)` for a list of texts. -/
def oneOf (names : List String) : Value → Bool
  | .text s => s ∈ names
  | _ => false

/-- `x IS NULL OR length(x) = 32`.  The length of a text ends at its first NUL character, and no number
is written with 32 characters. -/
def nullOr32 : Value → Bool
  | .null => true
  | .text s => (s.toList.takeWhile (· ≠ '\x00')).length = 32
  | .blob b => b.length = 32
  | .integer _ | .real _ => false

def draftState : Value := .text "DRAFT"

def states : List String :=
  ["DRAFT", "PENDING_APPROVAL", "APPROVAL_RECEIVED", "SENDING", "SUBMITTING", "SUBMITTED", "EXPIRED",
    "REJECTED", "CANCELLED", "FAILED", "INDETERMINATE", "ABANDONED_INDETERMINATE"]

/-- The NOT NULL and CHECK constraints of a row. -/
def Row.ok (r : Row) : Bool :=
  r .conversationId ≠ .null ∧ r .accountId ≠ .null ∧ r .phoneNumberId ≠ .null ∧
    oneOf ["text", "template", "mark_read"] (r .kind) ∧ oneOf states (r .state) ∧
    (r .createdBy = .null ∨ oneOf ["mcp", "scheduler"] (r .createdBy)) ∧
    nullOr32 (r .bodySha256) ∧ nullOr32 (r .templateParamsSha256) ∧
    nullOr32 (r .attachmentsDigest) ∧ nullOr32 (r .nonce)

/-- A column without a value twice; NULL is no value. -/
def distinct (c : Column) (rows : List Row) : Bool :=
  ((rows.map fun r => r c).filter (· ≠ .null)).Nodup

/-- The table, and the drafts that rows of `approvals` and `send_attempts` refer to. -/
structure Drafts where
  rows : List Row
  references : List Value

/-- All constraints of the table. -/
def Drafts.ok (d : Drafts) : Bool :=
  d.rows.all Row.ok ∧ distinct .id d.rows ∧ distinct .nonce d.rows ∧
    ∀ id ∈ d.references, ∃ r ∈ d.rows, r .id = id

/-! ## Statements -/

/-- `UPDATE drafts SET columns = ...`: the values for a row it selects, `none` for the others. -/
structure Update where
  columns : List Column
  rows : ℕ → Option Row

/-- The columns of `BEFORE UPDATE OF` in `trg_draft_freeze`. -/
def triggerColumns : List Column :=
  [.bodyBytes, .bodySha256, .recipientWaId, .recipientId, .accountId, .phoneNumberId, .nonce,
    .expiresAtMs, .kind, .templateId, .templateParamsSha256, .attachmentsDigest, .replyToWamid,
    .targetMessageWamid]

/-- The row as the statement leaves it. -/
def Update.write (u : Update) (i : ℕ) (r : Row) : Row := fun c =>
  match u.rows i with
  | some values => if c ∈ u.columns then values c else r c
  | none => r c

/-- Whether `trg_draft_freeze` raises for the row. -/
def Update.aborts (u : Update) (i : ℕ) (r : Row) : Bool :=
  (u.rows i).isSome ∧ (∃ c ∈ u.columns, c ∈ triggerColumns) ∧ r .state ≠ draftState

/-- The table after the statement, `none` where it is aborted.  The constraints are those of the
finished table; SQLite, which checks UNIQUE row by row, lets no more through. -/
def update (u : Update) (d : Drafts) : Option Drafts :=
  let after : Drafts := { d with rows := d.rows.mapIdx u.write }
  if (d.rows.mapIdx u.aborts).any id then none
  else if after.ok then some after
  else none

/-- A statement that is aborted changes nothing; the event says whether it was let through. -/
def step (d : Drafts) (u : Update) : Drafts × List Bool :=
  ((update u d).getD d, [(update u d).isSome])

variable {d d' : Drafts} {u : Update} {i : ℕ} {row : Row}

/-- What a statement that is let through does. -/
lemma update_eq_some (h : update u d = some d') :
    (∀ i row, d.rows[i]? = some row → u.aborts i row = false) ∧
      d' = { d with rows := d.rows.mapIdx u.write } := by
  simp only [update] at h
  split at h
  · cases h
  · rename_i hsilent
    split at h
    · refine ⟨fun i row hrow => ?_, (Option.some.inj h).symm⟩
      rw [Bool.eq_false_iff]
      intro haborts
      refine hsilent (List.any_eq_true.mpr ⟨true, ?_, rfl⟩)
      exact List.mem_of_getElem? (i := i) (by rw [List.getElem?_mapIdx, hrow, Option.map_some, haborts])
    · cases h

lemma step_of_none (h : update u d = none) : (step d u).1 = d := by
  rw [step, h]
  rfl

lemma step_of_some (h : update u d = some d') : (step d u).1 = d' := by
  rw [step, h]
  rfl

lemma getElem?_of_update (h : update u d = some d') (hrow : d.rows[i]? = some row) :
    d'.rows[i]? = some (u.write i row) := by
  obtain ⟨-, rfl⟩ := update_eq_some h
  rw [List.getElem?_mapIdx, hrow]
  rfl

/-- A statement that is let through keeps the trigger's columns of a row outside DRAFT. -/
lemma write_of_trigger (h : update u d = some d') (hrow : d.rows[i]? = some row)
    (hstate : row .state ≠ draftState) {c : Column} (hc : c ∈ triggerColumns) :
    u.write i row c = row c := by
  have hsilent := (update_eq_some h).1 i row hrow
  simp only [Update.write]
  split
  · rename_i values hvalues
    have hnot : c ∉ u.columns := by
      intro hset
      rw [Update.aborts, hvalues, decide_eq_false_iff_not] at hsilent
      exact hsilent ⟨rfl, ⟨c, hset, hc⟩, hstate⟩
    rw [if_neg hnot]
  · rfl

/-! ## The signed columns -/

/-- The columns `_canonical_fields` reads, with the body and the conversation. -/
def signedColumns : List Column :=
  [.id, .accountId, .phoneNumberId, .recipientWaId, .bodySha256, .kind, .templateId,
    .templateParamsSha256, .replyToWamid, .targetMessageWamid, .attachmentsDigest, .nonce, .createdAtMs,
    .expiresAtMs, .bodyBytes, .conversationId]

/-- The signed columns that the trigger does not list. -/
def openColumns : List Column := [.id, .createdAtMs, .conversationId]

lemma mem_signedColumns {c : Column} (h : c ∈ signedColumns) :
    c ∈ triggerColumns ∨ c ∈ openColumns := by
  cases c <;> simp_all [signedColumns, triggerColumns, openColumns]

lemma openColumns_subset : openColumns ⊆ signedColumns := by
  simp [openColumns, signedColumns]

def nullable {α : Type} (f : α → Value) : Option α → Value
  | some a => f a
  | none => .null

/-- The row of a draft, with what a draft does not have taken from `others`. -/
def rowOf (others : Row) (draft : Draft) : Row
  | .id => .text draft.id
  | .conversationId => .text draft.conversationId
  | .accountId => .text draft.accountId
  | .phoneNumberId => .text draft.phoneNumberId
  | .recipientWaId => nullable .text draft.recipientWaId
  | .bodyBytes => nullable .blob draft.bodyBytes
  | .bodySha256 => nullable .blob draft.bodySha256
  | .kind => .text draft.kind.name
  | .templateId => nullable .text draft.templateId
  | .templateParamsSha256 => nullable .blob draft.templateParamsSha256
  | .attachmentsDigest => nullable .blob draft.attachmentsDigest
  | .replyToWamid => nullable .text draft.replyToWamid
  | .targetMessageWamid => nullable .text draft.targetMessageWamid
  | .nonce => nullable .blob (draft.nonce.map Subtype.val)
  | .createdAtMs => nullable .integer draft.createdAtMs
  | .expiresAtMs => nullable .integer draft.expiresAtMs
  | c => others c

lemma nullable_injective {α : Type} {f : α → Value} (hf : ∀ a b, f a = f b → a = b)
    (hne : ∀ a, f a ≠ .null) : ∀ {x y : Option α}, nullable f x = nullable f y → x = y
  | none, none, _ => rfl
  | some _, some _, h => congrArg some (hf _ _ h)
  | none, some b, h => absurd h.symm (hne b)
  | some a, none, h => absurd h (hne a)

/-- Rows with the same signed columns are signed as the same bytes. -/
theorem canonicalFields_congr {others others' : Row} {draft draft' : Draft}
    (h : ∀ c ∈ signedColumns, rowOf others draft c = rowOf others' draft' c)
    (decision deviceId : String) :
    Sender.canonicalFields draft decision deviceId =
      Sender.canonicalFields draft' decision deviceId := by
  have htext {x y : Option String} (heq : nullable Value.text x = nullable Value.text y) : x = y :=
    nullable_injective (by simp) (by simp) heq
  have hblob {x y : Option Bytes} (heq : nullable Value.blob x = nullable Value.blob y) : x = y :=
    nullable_injective (by simp) (by simp) heq
  have hinteger {x y : Option ℤ} (heq : nullable Value.integer x = nullable Value.integer y) : x = y :=
    nullable_injective (by simp) (by simp) heq
  simp only [signedColumns, List.forall_mem_cons, rowOf, Value.text.injEq] at h
  obtain ⟨hid, haccount, hphone, hrecipient, hbody, hkind, htemplate, hparams, hreply, htarget,
    hattachments, hnonce, hcreated, hexpires, -⟩ := h
  simp only [Sender.canonicalFields, hid, haccount, hphone, htext hrecipient, hblob hbody, hkind,
    htext htemplate, hblob hparams, htext hreply, htext htarget, hblob hattachments, hblob hnonce,
    hinteger hcreated, hinteger hexpires]

/-! ## Runs -/

/-- The drafts after the statements. -/
abbrev after (d : Drafts) (us : List Update) : Drafts := Run.final step d us

/-- What was signed is what will be sent: a row outside DRAFT keeps its signed columns in all later
states. -/
def Frozen (d : Drafts) (us : List Update) : Prop :=
  ∀ pre mid post : List Update, us = pre ++ mid ++ post →
    ∀ (i : ℕ) (row : Row), (after d pre).rows[i]? = some row → row .state ≠ draftState →
      ∃ row' : Row, (after d (pre ++ mid)).rows[i]? = some row' ∧
        ∀ c ∈ signedColumns, row' c = row c

/-- The row was outside DRAFT at some time. -/
def HasLeft (d : Drafts) (us : List Update) (i : ℕ) : Prop :=
  ∃ (n : ℕ) (row : Row), (after d (us.take n)).rows[i]? = some row ∧ row .state ≠ draftState

/-- The statement gives none of the columns another value. -/
def Update.Spares (u : Update) (cs : List Column) (i : ℕ) (row : Row) : Prop :=
  ∀ c ∈ cs, u.write i row c = row c

/-- No statement that is let through rewrites an open column of a row outside DRAFT, or a signed column
of a row that was set back to DRAFT. -/
def Careful (d : Drafts) (us : List Update) : Prop :=
  ∀ pre u post, us = pre ++ u :: post → (update u (after d pre)).isSome →
    ∀ (i : ℕ) (row : Row), (after d pre).rows[i]? = some row →
      (row .state ≠ draftState → u.Spares openColumns i row) ∧
      (row .state = draftState → HasLeft d pre i → u.Spares signedColumns i row)

lemma after_snoc (d : Drafts) (us : List Update) (u : Update) :
    after d (us ++ [u]) = (step (after d us) u).1 := by
  rw [after, Run.final_append]
  rfl

lemma spares_signedColumns (h : update u d = some d') (hrow : d.rows[i]? = some row)
    (hstate : row .state ≠ draftState) (hopen : u.Spares openColumns i row) :
    u.Spares signedColumns i row := by
  intro c hc
  obtain htrigger | hrest := mem_signedColumns hc
  · exact write_of_trigger h hrow hstate htrigger
  · exact hopen c hrest

lemma frozen_of_careful {us : List Update} (hcareful : Careful d us) : Frozen d us := by
  intro pre mid post hus i row hrow hstate
  -- on the statements after the row left DRAFT, the last one first
  induction mid using List.reverseRecOn generalizing post with
  | nil => exact ⟨row, by rwa [List.append_nil], fun _ _ => rfl⟩
  | append_singleton mid u ih =>
    have hsplit : us = (pre ++ mid) ++ u :: post := by simp [hus]
    obtain ⟨row', hrow', hsame⟩ := ih (u :: post) (by simp [hus])
    rw [← List.append_assoc, after_snoc]
    rcases hran : update u (after d (pre ++ mid)) with _ | d'
    · rw [step_of_none hran]
      exact ⟨row', hrow', hsame⟩
    · have hstep := hcareful (pre ++ mid) u post hsplit (by rw [hran]; rfl) i row' hrow'
      have hspares : u.Spares signedColumns i row' := by
        by_cases hdraft : row' .state = draftState
        · refine hstep.2 hdraft ⟨pre.length, row, ?_, hstate⟩
          rwa [List.take_left]
        · exact spares_signedColumns hran hrow' hdraft (hstep.1 hdraft)
      rw [step_of_some hran]
      exact ⟨u.write i row', getElem?_of_update hran hrow',
        fun c hc => (hspares c hc).trans (hsame c hc)⟩

lemma careful_of_frozen {us : List Update} (hfrozen : Frozen d us) : Careful d us := by
  intro pre u post hus hran i row hrow
  obtain ⟨d', hran⟩ := Option.isSome_iff_exists.mp hran
  have hwritten : (after d (pre ++ [u])).rows[i]? = some (u.write i row) := by
    rw [after_snoc, step_of_some hran]
    exact getElem?_of_update hran hrow
  constructor
  · intro hstate c hc
    obtain ⟨row', hrow', hsame⟩ := hfrozen pre [u] post (by simp [hus]) i row hrow hstate
    obtain rfl := Option.some.inj (hwritten.symm.trans hrow')
    exact hsame c (openColumns_subset hc)
  · rintro - ⟨n, old, hold, hstate⟩ c hc
    -- before and after the statement the row has the columns it had when it left DRAFT
    have hpre : pre.take n ++ pre.drop n = pre := List.take_append_drop n pre
    obtain ⟨row', hrow', hsame⟩ := hfrozen (pre.take n) (pre.drop n) (u :: post)
      (by rw [hpre, hus]) i old hold hstate
    obtain ⟨row'', hrow'', hsame'⟩ := hfrozen (pre.take n) (pre.drop n ++ [u]) post
      (by rw [← List.append_assoc, hpre, hus]; simp) i old hold hstate
    rw [hpre, hrow] at hrow'
    rw [← List.append_assoc, hpre, hwritten] at hrow''
    obtain rfl := Option.some.inj hrow'
    obtain rfl := Option.some.inj hrow''
    exact (hsame' c hc).trans (hsame c hc).symm

section Sample

/-- A draft that waits for its approval. -/
def sampleRow : Row
  | .id => .text "drf_1"
  | .conversationId => .text "cnv_1"
  | .accountId => .text "acc_1"
  | .phoneNumberId => .text "PN1"
  | .kind => .text "text"
  | .createdAtMs => .integer 1000
  | .expiresAtMs => .integer 901000
  | .state => .text "PENDING_APPROVAL"
  | _ => .null

/-- `UPDATE drafts SET created_at_ms = 5`. -/
def backdate : Update := ⟨[.createdAtMs], fun _ => some fun _ => .integer 5⟩

end Sample

end WhatsVault.Freeze
