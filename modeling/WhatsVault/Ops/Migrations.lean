import WhatsVault.Approval.Freeze
import WhatsVault.Library.Migration

/-!
# The migration scripts

The eleven numbered SQL assets of `db/migrations`, statement by statement, over what SQLite keeps of a
schema: the tables with their columns, the indexes, and the triggers with what fires them.  A statement
fails where SQLite refuses it, because a name is taken or missing, and a script fails with its first
statement.  Column types, constraints and the bodies of the triggers are not here; the row types of
`Control` and `Vault` and the updates of `Freeze` carry them.

`MIGRATIONS` lists the scripts of each database in the order of their numbers, and every version can be
built by them (`built`).  `migrate` is the runner over these scripts wherever the two databases are
kept.
-/

namespace WhatsVault.Ops

/-- `kind`, or `lane`, of a database. -/
inductive Kind
  | vault
  | control
  deriving DecidableEq, Repr

def Kind.name : Kind → String
  | vault => "vault"
  | control => "control"

/-! ## Schemas -/

/-- What a `BEFORE` trigger fires on; an `UPDATE` of no columns in particular fires on all. -/
inductive TriggerEvent
  | update (columns : List String)
  | delete
  deriving DecidableEq

structure Trigger where
  name : String
  table : String
  event : TriggerEvent
  deriving DecidableEq

structure Schema where
  tables : List (String × List String)
  indexes : List (String × String)
  triggers : List Trigger
  /-- The rows the scripts insert, with the table each went to. -/
  rows : List (String × List (String × String))
  deriving DecidableEq

namespace Schema

def empty : Schema := ⟨[], [], [], []⟩

/-- `PRAGMA table_info(table)`. -/
def columns (s : Schema) (table : String) : List String :=
  ((s.tables.find? fun t => t.1 = table).map Prod.snd).getD []

def hasTable (s : Schema) (name : String) : Bool := s.tables.any fun t => t.1 = name

/-- Tables and indexes share their names. -/
def isTaken (s : Schema) (name : String) : Bool :=
  s.hasTable name || s.indexes.any fun i => i.1 = name

def hasTrigger (s : Schema) (name : String) : Bool := s.triggers.any fun t => t.name = name

end Schema

inductive Statement
  | createTable (name : String) (columns : List String)
  /-- `CREATE VIRTUAL TABLE name USING fts5(columns, content=..., ...)`. -/
  | createFts (name : String) (columns : List String)
  | createIndex (name table : String) (columns : List String)
  | createTrigger (name table : String) (event : TriggerEvent)
  | addColumn (table column : String)
  | dropTrigger (name : String)
  | insert (table : String) (row : List (String × String))

/-- The tables an external-content FTS5 table keeps its index in. -/
def shadowTables (name : String) : List (String × List String) :=
  [(name ++ "_data", ["id", "block"]), (name ++ "_idx", ["segid", "term", "pgno"]),
    (name ++ "_docsize", ["id", "sz"]), (name ++ "_config", ["k", "v"])]

/-- One statement; `none` where SQLite refuses it. -/
def Statement.run (s : Schema) : Statement → Option Schema
  | createTable name columns =>
    if s.isTaken name then none else some { s with tables := s.tables ++ [(name, columns)] }
  | createFts name columns =>
    -- An FTS5 table has two hidden columns more, its own name and `rank`.
    let tables := (name, columns ++ [name, "rank"]) :: shadowTables name
    if tables.any fun t => s.isTaken t.1 then none else some { s with tables := s.tables ++ tables }
  | createIndex name table columns =>
    if s.isTaken name ∨ ¬ s.hasTable table ∨ ¬ columns ⊆ s.columns table then none
    else some { s with indexes := s.indexes ++ [(name, table)] }
  | createTrigger name table event =>
    if s.hasTrigger name ∨ ¬ s.hasTable table then none
    else some { s with triggers := s.triggers ++ [⟨name, table, event⟩] }
  | addColumn table column =>
    if ¬ s.hasTable table ∨ column ∈ s.columns table then none
    else some { s with
      tables := s.tables.map fun t => if t.1 = table then (t.1, t.2 ++ [column]) else t }
  | dropTrigger name =>
    if ¬ s.hasTrigger name then none
    else some { s with triggers := s.triggers.filter fun t => t.name ≠ name }
  | insert table row =>
    if ¬ s.hasTable table ∨ ¬ row.map Prod.fst ⊆ s.columns table then none
    else some { s with rows := s.rows ++ [(table, row)] }

/-- A script as the runner executes it, between `BEGIN` and `COMMIT`. -/
def runScript (script : List Statement) (s : Schema) : Option Schema := script.foldlM Statement.run s

/-! ## The assets -/

open Statement

def vault0001Initial : List Statement :=
  [createTable "accounts" ["id", "waba_id", "phone_number_id", "display_phone"],
   createTable "contacts" ["id", "wa_id", "wa_id_hash", "display_name", "push_name", "first_seen_ms",
    "last_seen_ms"],
   createTable "conversations" ["id", "account_id", "type", "wa_chat_id", "subject",
    "last_message_ms"],
   createTable "conversation_sources" ["id", "conversation_id", "source_kind", "external_identifier",
    "write_capable", "account_id", "import_batch_id"],
   createTable "messages" ["id", "account_id", "conversation_id", "sender_contact_id", "direction",
    "ts_lower_ms", "ts_upper_ms_exclusive", "ts_precision", "ts_ingested_ms", "tz_name", "tz_basis",
    "type", "text_original", "reply_to_wamid", "origin", "window_eligible", "wamid",
    "import_fingerprint", "edited_at_ms", "deleted_at_ms", "delivery_rank", "failed_at_ms"],
   createIndex "ux_messages_wamid" "messages" ["account_id", "wamid"],
   createIndex "ux_messages_import_fp" "messages" ["import_fingerprint"],
   createIndex "ix_messages_window" "messages" ["conversation_id", "direction", "window_eligible"],
   createTable "message_revisions" ["id", "message_id", "revision_number", "event_id", "text_original",
    "ts_lower_ms"],
   createTable "attachments" ["id", "message_id", "provider_media_id", "provider_sha256", "mime",
    "size", "retrieval_state", "quarantine_state", "retrieved_at_ms", "last_attempt_ms",
    "attempt_count", "last_error_code", "storage_path"],
   createIndex "ux_attachments_media" "attachments" ["message_id", "provider_media_id"],
   createTable "message_status_events" ["id", "wamid", "message_internal_id", "status",
    "provider_ts_ms", "recipient_id", "raw_payload_sha256"],
   createTable "ingest_events" ["id", "provider", "external_event_id", "semantic_event_key", "family",
    "provider_ts_ms", "received_at_ms", "raw_payload_sha256", "raw_payload", "parser_version"],
   createIndex "ux_ingest_semantic" "ingest_events" ["provider", "semantic_event_key"],
   createTrigger "trg_messages_evidence_immutable" "messages" (.update
    ["account_id", "conversation_id", "sender_contact_id", "direction", "ts_lower_ms",
     "ts_upper_ms_exclusive", "ts_precision", "ts_ingested_ms", "tz_name", "tz_basis", "type",
     "text_original", "reply_to_wamid", "origin", "window_eligible", "wamid", "import_fingerprint"]),
   createTrigger "trg_status_evidence_immutable" "message_status_events" (.update
    ["wamid", "status", "provider_ts_ms", "recipient_id", "raw_payload_sha256"]),
   createTrigger "trg_revisions_immutable" "message_revisions" (.update []),
   createTrigger "trg_ingest_immutable" "ingest_events" (.update [])]

def vault0002ImportProvenance : List Statement :=
  [createTable "import_batches" ["id", "source_kind", "source_sha256", "source_artifact_path",
    "source_artifact_sha256", "original_filename", "declared_date_format", "declared_timezone",
    "self_participant_label", "parser_family", "parser_version", "fingerprint_version",
    "imported_at_ms", "message_count", "system_event_count", "undone_at_ms"],
   createTable "import_participants" ["id", "import_batch_id", "source_conversation_id",
    "raw_display_name", "normalised_display_name", "role", "linked_contact_id", "link_state"],
   createTable "message_import_observations" ["batch_id", "message_id",
    "sender_import_participant_id", "source_ordinal", "source_start_offset", "source_end_offset",
    "source_fingerprint", "fingerprint_version", "parser_version"],
   createIndex "ix_observations_message" "message_import_observations" ["message_id"],
   createTrigger "trg_import_batches_immutable" "import_batches" (.update
    ["id", "source_kind", "source_sha256", "source_artifact_path", "source_artifact_sha256",
     "original_filename", "declared_date_format", "declared_timezone", "self_participant_label"]),
   createTrigger "trg_import_participants_identity_immutable" "import_participants" (.update
    ["id", "import_batch_id", "raw_display_name", "normalised_display_name"]),
   createTrigger "trg_import_observations_immutable" "message_import_observations" (.update [])]

def vault0003Search : List Statement :=
  [createTable "search_documents" ["rowid", "message_id", "normaliser_version", "text_search",
    "text_compact"],
   createFts "fts_lexical" ["text_search"],
   createFts "fts_compact" ["text_compact"],
   .insert "fts_lexical" [("fts_lexical", "secure-delete"), ("rank", "1")],
   .insert "fts_compact" [("fts_compact", "secure-delete"), ("rank", "1")]]

def vault0004McpVisibility : List Statement := [addColumn "conversations" "mcp_visibility"]

def vault0005IngestOps : List Statement :=
  [createTable "ingest_dlq" ["id", "event_id_hash", "envelope", "failure_class", "failure_code",
    "pipeline_stage", "recipient_key_id", "crypto_version", "envelope_version", "ciphertext_sha256",
    "parser_version", "attempt_count", "sanitised_detail", "first_seen_ms", "last_attempt_ms"],
   createIndex "ix_dlq_key" "ingest_dlq" ["recipient_key_id"],
   createTable "ingest_state" ["id", "circuit_state", "tripped_at_ms", "reason"],
   .insert "ingest_state" [("id", "1"), ("circuit_state", "CLOSED")]]

def vault0006StatusCallback : List Statement :=
  [addColumn "message_status_events" "biz_opaque_callback_data"]

def control0001Initial : List Statement :=
  [createTable "approval_devices" ["id", "name", "public_key", "key_algorithm", "key_encoding",
    "created_at_ms", "status"],
   createTable "drafts" ["id", "conversation_id", "account_id", "phone_number_id", "recipient_id",
    "recipient_wa_id", "recipient_display_snapshot", "body_bytes", "body_sha256", "kind",
    "template_id", "template_params_sha256", "attachments_digest", "reply_to_wamid", "nonce",
    "created_at_ms", "expires_at_ms", "created_by", "state"],
   createTable "approvals" ["approval_id", "draft_id", "device_id", "decision", "signature",
    "envelope", "received_at_ms", "nonce"],
   createTable "approval_nonces" ["nonce", "consumed_by", "consumed_at_ms"],
   createTable "send_attempts" ["id", "draft_id", "idempotency_key", "state", "wamid", "error_code",
    "biz_opaque_callback_data", "created_at_ms", "updated_at_ms"],
   createTable "capability_grants" ["capability_id", "device_id", "account_id", "conversation_id",
    "action", "created_at_ms", "expires_at_ms", "max_actions", "used_count", "nonce", "signature",
    "status"],
   createTable "conversation_windows" ["conversation_id", "last_inbound_ms"],
   createTable "audit_log" ["id", "actor", "tool", "args_hash", "outcome", "ts_ms"],
   createTrigger "trg_draft_freeze" "drafts" (.update
    ["body_bytes", "body_sha256", "recipient_wa_id", "recipient_id", "account_id", "phone_number_id",
     "nonce", "expires_at_ms", "kind", "template_id", "template_params_sha256", "attachments_digest",
     "reply_to_wamid"]),
   createTrigger "trg_audit_no_update" "audit_log" (.update []),
   createTrigger "trg_audit_no_delete" "audit_log" .delete]

def control0002DeviceAgreement : List Statement :=
  [addColumn "approval_devices" "agreement_public_key",
   addColumn "approval_devices" "agreement_key_algorithm",
   addColumn "drafts" "target_message_wamid",
   dropTrigger "trg_draft_freeze",
   createTrigger "trg_draft_freeze" "drafts" (.update
    ["body_bytes", "body_sha256", "recipient_wa_id", "recipient_id", "account_id", "phone_number_id",
     "nonce", "expires_at_ms", "kind", "template_id", "template_params_sha256", "attachments_digest",
     "reply_to_wamid", "target_message_wamid"])]

def control0003Phase5 : List Statement :=
  [createTable "templates" ["template_id", "meta_template_id", "name", "language", "category",
    "status", "definition_version", "schema", "synced_at"],
   createTable "scheduled_jobs" ["job_id", "conversation_id", "account_id", "timezone", "schedule",
    "generation_mode", "conditions", "enabled", "max_lateness_ms", "last_run_ms", "next_run_ms",
    "created_at_ms"],
   createTable "job_runs" ["id", "job_id", "fired_at_ms", "outcome", "draft_id"],
   createTable "reconciliation_candidates" ["id", "wamid", "recipient_id", "provider_ts_ms", "status",
    "candidate_attempt_id", "state", "created_at_ms", "resolved_at_ms", "resolution"]]

def control0004Oauth : List Statement :=
  [createTable "oauth_clients" ["client_id", "client_name", "redirect_uris", "created_ms"],
   createTable "oauth_pending" ["request_id", "user_code", "client_id", "redirect_uri", "state",
    "code_challenge", "scope", "created_ms", "expires_ms", "approved_ms", "collected_ms"],
   createTable "oauth_codes" ["code_hash", "client_id", "redirect_uri", "code_challenge", "scope",
    "issued_ms", "expires_ms", "consumed_ms"],
   createTable "oauth_tokens" ["token_hash", "kind", "client_id", "scope", "issued_ms", "expires_ms",
    "revoked_ms"],
   createIndex "idx_oauth_tokens_client" "oauth_tokens" ["client_id"],
   createIndex "idx_oauth_pending_expiry" "oauth_pending" ["expires_ms"]]

def control0005OauthFamilies : List Statement :=
  [addColumn "oauth_tokens" "grant_id",
   createIndex "idx_oauth_tokens_grant" "oauth_tokens" ["grant_id"]]

def MIGRATIONS : Kind → List (ℕ × List Statement)
  | .vault =>
    [(1, vault0001Initial), (2, vault0002ImportProvenance), (3, vault0003Search),
     (4, vault0004McpVisibility), (5, vault0005IngestOps), (6, vault0006StatusCallback)]
  | .control =>
    [(1, control0001Initial), (2, control0002DeviceAgreement), (3, control0003Phase5),
     (4, control0004Oauth), (5, control0005OauthFamilies)]

/-- `max(n for n, _ in MIGRATIONS[lane])`. -/
def latest (kind : Kind) : ℕ := ((MIGRATIONS kind).map Prod.fst).max?.getD 0

/-- The schema at a version: what the scripts up to it make of an empty database. -/
def schemaAt (kind : Kind) (version : ℕ) : Option Schema :=
  Migration.build runScript .empty (MIGRATIONS kind) version

lemma ordered (kind : Kind) : Migration.Ordered (MIGRATIONS kind) := by
  cases kind <;> simp [Migration.Ordered, MIGRATIONS]

lemma le_latest {kind : Kind} {m : ℕ × List Statement} (hm : m ∈ MIGRATIONS kind) :
    m.1 ≤ latest kind := by
  have hall : ∀ m ∈ MIGRATIONS kind, m.1 ≤ latest kind := by cases kind <;> decide
  exact hall m hm

lemma exists_latest (kind : Kind) : ∃ script, (latest kind, script) ∈ MIGRATIONS kind := by
  cases kind
  · exact ⟨vault0006StatusCallback, by simp [latest, MIGRATIONS]⟩
  · exact ⟨control0005OauthFamilies, by simp [latest, MIGRATIONS]⟩

/-- Past the last script a version is built like the last. -/
lemma schemaAt_of_latest_le {kind : Kind} {version : ℕ} (h : latest kind ≤ version) :
    schemaAt kind version = schemaAt kind (latest kind) := by
  unfold schemaAt Migration.build
  congr 1
  refine List.filter_congr fun m hm => ?_
  have hle := le_latest hm
  rw [decide_eq_decide]
  omega

/-- Every version can be built. -/
lemma built (kind : Kind) (version : ℕ) : (schemaAt kind version).isSome := by
  have hsmall : ∀ version ≤ latest kind, (schemaAt kind version).isSome := by
    cases kind <;> decide +kernel
  rcases le_total version (latest kind) with hle | hle
  · exact hsmall version hle
  · rw [schemaAt_of_latest_le hle]
    exact hsmall _ le_rfl

/-! ## The draft table -/

/-- A column of `drafts` under its name. -/
def draftColumn : Freeze.Column → String
  | .id => "id"
  | .conversationId => "conversation_id"
  | .accountId => "account_id"
  | .phoneNumberId => "phone_number_id"
  | .recipientId => "recipient_id"
  | .recipientWaId => "recipient_wa_id"
  | .recipientDisplaySnapshot => "recipient_display_snapshot"
  | .bodyBytes => "body_bytes"
  | .bodySha256 => "body_sha256"
  | .kind => "kind"
  | .templateId => "template_id"
  | .templateParamsSha256 => "template_params_sha256"
  | .attachmentsDigest => "attachments_digest"
  | .replyToWamid => "reply_to_wamid"
  | .nonce => "nonce"
  | .createdAtMs => "created_at_ms"
  | .expiresAtMs => "expires_at_ms"
  | .createdBy => "created_by"
  | .state => "state"
  | .targetMessageWamid => "target_message_wamid"

/-- The trigger that the updates of `Freeze` run under is the one the scripts leave: from the second
script on, and the only one on the table. -/
lemma freeze_trigger {version : ℕ} (h : 2 ≤ version) :
    (schemaAt .control version).map (fun s => s.triggers.filter fun t => t.table = "drafts") =
      some [⟨"trg_draft_freeze", "drafts", .update (Freeze.triggerColumns.map draftColumn)⟩] := by
  have hsmall : ∀ version ≤ latest .control, 2 ≤ version →
      (schemaAt .control version).map (fun s => s.triggers.filter fun t => t.table = "drafts") =
        some [⟨"trg_draft_freeze", "drafts", .update (Freeze.triggerColumns.map draftColumn)⟩] := by
    decide +kernel
  rcases le_total version (latest .control) with hle | hle
  · exact hsmall version hle h
  · rw [schemaAt_of_latest_le hle]
    exact hsmall _ le_rfl (by decide)

end WhatsVault.Ops
