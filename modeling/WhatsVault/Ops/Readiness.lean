import WhatsVault.Ops.FirstRun

/-!
# Readiness

What the doctor says of a machine, and what a daemon and a verb do when they start on it.

`check_mcp` looks at four parts of the schemas, at the two versions and at two keys.  On a machine whose
schemas are those of their versions it is satisfied exactly if both databases are current and both
keys are there (`checkMcp_iff`), and a finished `init` satisfies it.  A daemon that starts on a ready
machine never raises: it has both connections, or it says that a key is missing
(`openDatabases_of_run`).
-/

namespace WhatsVault.Ops

open Program

/-! ## `doctor.check_mcp` -/

structure Finding where
  check : String
  ok : Bool
  detail : String
  deriving DecidableEq

/-- `str` of a list of plain texts. -/
def listText (names : List String) : String :=
  "[" ++ ", ".intercalate (names.map fun name => "'" ++ name ++ "'") ++ "]"

/-- `type(exc).__name__`. -/
def Failure.typeName : Failure → String
  | keyExists _ => "KeyExists"
  | keyMissing _ => "KeyMissing"
  | wrongLength .. | notHex => "ValueError"
  | backend _ => "KeyStoreError"
  | cannotOpen | script => "OperationalError"
  | notADatabase => "DatabaseError"

/-- The triggers without which `audit_log` is not append-only, sorted. -/
def auditTriggers : List String := ["trg_audit_no_delete", "trg_audit_no_update"]

/-- The findings about the two schemas; `localOnly` conversations are fenced. -/
def schemaFindings (vault control : Schema) (localOnly : ℕ) : List Finding :=
  let cols := vault.columns "conversations"
  let missing := auditTriggers.filter fun name =>
    ¬ control.triggers.any fun t => t.name = name ∧ t.table = "audit_log"
  [⟨"mcp_visibility_column", "mcp_visibility" ∈ cols,
      "vault.conversations.mcp_visibility (LOCAL_ONLY fence)"⟩,
    ⟨"audit_log_present", control.hasTable "audit_log", "control.audit_log"⟩,
    ⟨"audit_log_append_only", missing = [], "missing=" ++ listText missing⟩] ++
  if "mcp_visibility" ∈ cols then
    [⟨"mcp_local_only_conversations", true, toString localOnly ++ " conversation(s) fenced from MCP"⟩]
  else []

/-- The loop over the lanes, which stops at the first that is behind. -/
def versionFinding (m : Machine) : Finding :=
  match kinds.find? fun kind => userVersion kind m < latest kind with
  | some kind =>
    ⟨"schema_current", false, kind.name ++ ".db is at schema " ++ toString (userVersion kind m) ++
      ", shipped is " ++ toString (latest kind) ++ "; run `whatsvault init` to migrate"⟩
  | none => ⟨"schema_current", true, "vault and control current"⟩

def keyFinding (m : Machine) (check name : String) : Finding :=
  match require m name 32 with
  | .ok _ => ⟨check, true, name⟩
  | .error e => ⟨check, false, name ++ ": " ++ e.typeName ++ " (run `whatsvault mcp-provision`)"⟩

/-- `check_mcp`, with a keystore. -/
def checkMcp (m : Machine) (localOnly : ℕ) : List Finding :=
  schemaFindings (schemaOf .vault m) (schemaOf .control m) localOnly ++
    [versionFinding m, keyFinding m "mcp_token_provisioned" tokenKeyName,
      keyFinding m "mcp_audit_key_provisioned" auditKeyName]

variable {m : Machine}

lemma keyFinding_ok (check name : String) : (keyFinding m check name).ok = hasKey m name := by
  unfold keyFinding hasKey
  cases require m name 32 <;> rfl

lemma versionFinding_ok :
    (versionFinding m).ok = true ↔ ∀ kind, latest kind ≤ userVersion kind m := by
  have hall : (∀ kind, latest kind ≤ userVersion kind m) ↔
      ∀ kind ∈ kinds, ¬ userVersion kind m < latest kind := by
    constructor
    · exact fun h kind _ => not_lt.mpr (h kind)
    · exact fun h kind => not_lt.mp (h kind (by cases kind <;> simp [kinds]))
  rw [hall]
  unfold versionFinding
  cases hfind : kinds.find? fun kind => decide (userVersion kind m < latest kind) with
  | none => simpa using List.find?_eq_none.mp hfind
  | some kind =>
    simp only [Bool.false_eq_true, false_iff]
    intro hno
    exact hno kind (List.mem_of_find?_eq_some hfind) (by simpa using List.find?_some hfind)

/-- From the shipped versions on, the schemas have what the doctor looks for. -/
lemma schemaFindings_ok {vault control : Schema} {v c : ℕ} (hv : schemaAt .vault v = some vault)
    (hc : schemaAt .control c = some control) (hlatest : latest .vault ≤ v ∧ latest .control ≤ c)
    (localOnly : ℕ) : ∀ finding ∈ schemaFindings vault control localOnly, finding.ok = true := by
  rw [schemaAt_of_latest_le hlatest.1] at hv
  rw [schemaAt_of_latest_le hlatest.2] at hc
  have hcolumn : (schemaAt .vault (latest .vault)).all fun s =>
      "mcp_visibility" ∈ s.columns "conversations" := by decide +kernel
  have haudit : (schemaAt .control (latest .control)).all fun s =>
      s.hasTable "audit_log" ∧ (auditTriggers.filter fun name =>
        ¬ s.triggers.any fun t => t.name = name ∧ t.table = "audit_log") = [] := by decide +kernel
  rw [hv] at hcolumn
  rw [hc] at haudit
  simp only [Option.all_some, decide_eq_true_eq] at hcolumn haudit
  intro finding hfinding
  unfold schemaFindings at hfinding
  simp only [if_pos hcolumn, List.cons_append, List.nil_append, List.mem_cons, List.not_mem_nil,
    or_false] at hfinding
  rcases hfinding with rfl | rfl | rfl | rfl
  · exact decide_eq_true hcolumn
  · exact haudit.1
  · exact decide_eq_true haudit.2
  · rfl

/-- The doctor is satisfied exactly if both databases are current and both service keys are usable. -/
theorem checkMcp_iff (h : ∀ kind, InStep kind m) (localOnly : ℕ) :
    (∀ finding ∈ checkMcp m localOnly, finding.ok = true) ↔
      (∀ kind, latest kind ≤ userVersion kind m) ∧ ∀ name ∈ serviceKeys, hasKey m name = true := by
  have hkeys : (∀ name ∈ serviceKeys, hasKey m name = true) ↔
      hasKey m tokenKeyName = true ∧ hasKey m auditKeyName = true := by simp [serviceKeys]
  rw [hkeys, ← versionFinding_ok, ← keyFinding_ok "mcp_token_provisioned",
    ← keyFinding_ok "mcp_audit_key_provisioned"]
  constructor
  · intro hall
    refine ⟨hall _ ?_, hall _ ?_, hall _ ?_⟩ <;> simp [checkMcp]
  · rintro ⟨hversion, htoken, haudit⟩ finding hfinding
    have hlatest := versionFinding_ok.mp hversion
    rcases List.mem_append.mp hfinding with hschema | hrest
    · exact schemaFindings_ok (h .vault) (h .control) ⟨hlatest .vault, hlatest .control⟩ localOnly
        finding hschema
    · simp only [List.mem_cons, List.not_mem_nil, or_false] at hrest
      rcases hrest with rfl | rfl | rfl
      · exact hversion
      · exact htoken
      · exact haudit

lemma Ready.hasKey_iff (h : Ready m) {name : String} (hname : name ∈ keyNames) :
    hasKey m name = true ↔ m.passwords name ≠ none := by
  rw [Ops.hasKey_iff]
  constructor
  · rintro ⟨key, hkey⟩
    exact Option.isSome_iff_ne_none.mp (passwords_of_require hkey)
  · exact h.entry name hname

/-- In every state of every run the doctor says what is missing, and a finished `init` is all that it
asks for. -/
theorem doctor_of_run (backend : String) {es : List Event}
    (hes : Run.Meets step Careful (Machine.fresh backend) es) (draw : Draws) (localOnly : ℕ) :
    let m := Run.final step (Machine.fresh backend) es
    ((∀ finding ∈ checkMcp m localOnly, finding.ok = true) ↔
      (∀ kind, latest kind ≤ userVersion kind m) ∧ ∀ name ∈ serviceKeys, m.passwords name ≠ none) ∧
    ∀ finding ∈ checkMcp (initialised draw m) localOnly, finding.ok = true := by
  intro m
  have hready : Ready m := ready_of_run backend hes
  have hservice {name : String} (hname : name ∈ serviceKeys) : name ∈ keyNames := by
    simp [keyNames, hname]
  have hafter := hready.initialised draw
  constructor
  · rw [checkMcp_iff hready.inStep]
    refine and_congr_right fun _ => forall₂_congr fun name hname => ?_
    exact hready.hasKey_iff (hservice hname)
  · refine (checkMcp_iff hafter.inStep localOnly).mpr ⟨fun kind => ?_, fun name hname => ?_⟩
    · rw [userVersion_initialised]
      exact le_max_right _ _
    · exact (hafter.hasKey_iff (hservice hname)).mpr (passwords_initialised draw m (hservice hname))

theorem doctor_of_sampleRun :
    let m := Run.final step (Machine.fresh "keyring.backends.macOS") sampleRun
    ((∀ finding ∈ checkMcp m 0, finding.ok = true) ↔
      (∀ kind, latest kind ≤ userVersion kind m) ∧ ∀ name ∈ serviceKeys, m.passwords name ≠ none) ∧
    ∀ finding ∈ checkMcp (initialised default m) 0, finding.ok = true :=
  doctor_of_run _ (careful_sampleRun _) default 0

/-! ## Starting -/

lemma Ready.openExisting_returns (h : Ready m) {kind : Kind}
    (hsome : m.passwords (keyName kind) ≠ none) :
    ∃ key, require m (keyName kind) 32 = .ok key ∧
      Returns (openExisting kind) m key (connect kind m) := by
  obtain ⟨key, hkey⟩ := h.entry (keyName kind) (mem_keyNames_keyName kind) hsome
  refine ⟨key, hkey, Ops.openExisting_returns hkey (h.home kind hsome) fun f hf => ?_⟩
  obtain ⟨key', hkey', hopens⟩ := h.opens kind f hf
  rw [hkey] at hkey'
  cases hkey'
  exact hopens

lemma openExisting_raises {kind : Kind} (h : m.passwords (keyName kind) = none) :
    Raises (openExisting kind) m (.keyMissing (keyName kind)) := by
  have hread : Raises (look fun m => require m (keyName kind) 32) m
      (.keyMissing (keyName kind)) := by simp [Raises, look, require, h]
  exact hread.bind

lemma Ready.connect (h : Ready m) {kind : Kind} (hsome : m.passwords (keyName kind) ≠ none) :
    Ready (connect kind m) := by
  cases hdb : m.db kind with
  | none =>
    obtain ⟨key, hkey⟩ := h.entry (keyName kind) (mem_keyNames_keyName kind) hsome
    have hmove : Move default m (Ops.connect kind m) := .connect kind key hdb (h.home kind hsome) hkey
    exact hmove.ready h
  | some f => rwa [connect_of_some hdb]

lemma passwords_connect (kind : Kind) : (connect kind m).passwords = m.passwords := by
  cases hdb : m.db kind with
  | none => simp [connect_of_none hdb]
  | some f => rw [connect_of_some hdb]

/-- Opening the two databases of a ready machine either succeeds or stops at the first entry that is
missing. -/
lemma Ready.openBoth (h : Ready m) :
    (∃ kind, m.passwords (keyName kind) = none ∧ Raises openBoth m (.keyMissing (keyName kind))) ∨
      ∃ vault control, require m (keyName .vault) 32 = .ok vault ∧
        require m (keyName .control) 32 = .ok control ∧
        Returns openBoth m (vault, control) (Ops.connect .control (Ops.connect .vault m)) := by
  by_cases hvault : m.passwords (keyName .vault) = none
  · exact .inl ⟨.vault, hvault, (openExisting_raises hvault).bind⟩
  obtain ⟨vault, hkey, hopen⟩ := h.openExisting_returns hvault
  have hsame := congrFun (passwords_connect (m := m) .vault) (keyName .control)
  by_cases hcontrol : m.passwords (keyName .control) = none
  · exact .inl ⟨.control, hcontrol, hopen.raises (openExisting_raises (hsame.trans hcontrol)).bind⟩
  rw [← hsame] at hcontrol
  obtain ⟨control, hkey', hopen'⟩ := (h.connect hvault).openExisting_returns hcontrol
  rw [require_congr hsame] at hkey'
  exact .inr ⟨vault, control, hkey, hkey', hopen.bind (hopen'.bind Returns.pure)⟩

end WhatsVault.Ops
