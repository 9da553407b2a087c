import WhatsVault.Approval.Relay
import WhatsVault.Ops.Migrations
import WhatsVault.Library.Run

/-!
# The first run, and what opens the databases

The Keychain, the two database files and the directories they stand in, with every program that makes
one of them or opens one: `crypto/keystore`, `db/connection`, the migration runner, `init` and
`mcp-provision`, and the opening that every other verb and every daemon begins with.  A program is
observed at each of its steps, since it can be killed at any of them.

A file has no key before its first page is written: SQLite makes an empty file when it connects, and
any key opens that.  The SQL that verbs and daemons run afterwards writes rows only and is not here.
-/

namespace WhatsVault.Ops

open Program Relay

/-! ## The machine -/

/-- A database file; one without a page has neither a version nor a schema. -/
@[ext]
structure DbFile where
  /-- The key its pages are written under. -/
  key : Option Bytes
  /-- `PRAGMA user_version`. -/
  version : ℕ
  schema : Schema
  mode : ℕ
  blank : key = none → version = 0 ∧ schema = .empty

def DbFile.empty (mode : ℕ) : DbFile := ⟨none, 0, .empty, mode, fun _ => ⟨rfl, rfl⟩⟩

/-- The file with pages under `key`. -/
def DbFile.written (key : Bytes) (version : ℕ) (schema : Schema) (mode : ℕ) : DbFile :=
  ⟨some key, version, schema, mode, by intro h; cases h⟩

/-- What `PRAGMA key` and the first read find. -/
def DbFile.opens (f : DbFile) (key : Bytes) : Bool := f.key = none ∨ f.key = some key

@[ext]
structure Machine where
  /-- The module of the keyring backend. -/
  backend : String
  /-- The entries of the service `whatsvault`. -/
  passwords : String → Option String
  /-- The directories there are, with their modes; the home directory is `""`. -/
  dirs : String → Option ℕ
  db : Kind → Option DbFile

namespace Machine

/-- A machine that has never run the program. -/
def fresh (backend : String) : Machine := ⟨backend, fun _ => none, fun _ => none, fun _ => none⟩

def setPassword (name value : String) (m : Machine) : Machine :=
  { m with passwords := Function.update m.passwords name (some value) }

def setDir (name : String) (mode : ℕ) (m : Machine) : Machine :=
  { m with dirs := Function.update m.dirs name (some mode) }

def setDb (kind : Kind) (file : Option DbFile) (m : Machine) : Machine :=
  { m with db := Function.update m.db kind file }

section

variable (m : Machine) (name value : String) (mode : ℕ) (kind : Kind) (file : Option DbFile)

@[simp] lemma passwords_setPassword :
    (m.setPassword name value).passwords name = some value := Function.update_self ..

lemma passwords_setPassword_of_ne {name name' : String} (h : name' ≠ name) :
    (m.setPassword name value).passwords name' = m.passwords name' := Function.update_of_ne h ..

@[simp] lemma db_setPassword : (m.setPassword name value).db = m.db := rfl

@[simp] lemma dirs_setPassword : (m.setPassword name value).dirs = m.dirs := rfl

@[simp] lemma passwords_setDir : (m.setDir name mode).passwords = m.passwords := rfl

@[simp] lemma dirs_setDir : (m.setDir name mode).dirs name = some mode := Function.update_self ..

lemma dirs_setDir_of_ne {name name' : String} (h : name' ≠ name) :
    (m.setDir name mode).dirs name' = m.dirs name' := Function.update_of_ne h ..

@[simp] lemma db_setDir : (m.setDir name mode).db = m.db := rfl

@[simp] lemma db_setDb : (m.setDb kind file).db kind = file := Function.update_self ..

lemma db_setDb_of_ne {kind kind' : Kind} (h : kind' ≠ kind) :
    (m.setDb kind file).db kind' = m.db kind' := Function.update_of_ne h ..

@[simp] lemma passwords_setDb : (m.setDb kind file).passwords = m.passwords := rfl

@[simp] lemma dirs_setDb : (m.setDb kind file).dirs = m.dirs := rfl

end

end Machine

/-- What is raised. -/
inductive Failure
  | keyExists (name : String)
  | keyMissing (name : String)
  /-- `ValueError` of `require`. -/
  | wrongLength (name : String) (length expected : ℕ)
  /-- `ValueError` of `bytes.fromhex`. -/
  | notHex
  /-- `KeyStoreError` of `KeyringKeyStore()`. -/
  | backend (name : String)
  /-- `unable to open database file`. -/
  | cannotOpen
  /-- `file is not a database`. -/
  | notADatabase
  /-- What SQLite raises in a script. -/
  | script
  deriving DecidableEq

/-- `isinstance(exc, KeyStoreError)`. -/
def Failure.isKeyStoreError : Failure → Bool
  | keyExists _ | keyMissing _ | backend _ => true
  | _ => false

/-- `str(exc)`. -/
def Failure.text : Failure → String
  | keyExists name | keyMissing name => name
  | wrongLength name length expected =>
    "key '" ++ name ++ "' has length " ++ toString length ++ ", expected " ++ toString expected
  | notHex => "non-hexadecimal number found in fromhex() arg"
  | backend name => "expected macOS Keychain backend, got '" ++ name ++ "'"
  | cannotOpen => "unable to open database file"
  | notADatabase => "file is not a database"
  | script => "SQL logic error"

/-- What `os.urandom` returns for the key of a name. -/
structure Draws where
  bytes : String → ℕ → Bytes
  length_bytes : ∀ name n, (bytes name n).length = n

instance : Inhabited Draws := ⟨⟨fun _ n => List.replicate n 0, by simp⟩⟩

/-! ## `crypto/keystore` -/

/-- `KeyringKeyStore.require`. -/
def require (m : Machine) (name : String) (nbytes : ℕ) : Except Failure Bytes :=
  match m.passwords name with
  | none => .error (.keyMissing name)
  | some v =>
    match fromHexChars v.toList with
    | none => .error .notHex
    | some key =>
      if key.length = nbytes then .ok key else .error (.wrongLength name key.length nbytes)

/-- `KeyringKeyStore.provision`. -/
def provision (draw : Draws) (name : String) (nbytes : ℕ) : Program Machine Failure Bytes := do
  let m ← now
  refuseIf (m.passwords name).isSome (.keyExists name)
  change (Machine.setPassword name (hex (draw.bytes name nbytes)))
  pure (draw.bytes name nbytes)

/-! ## `db/connection` -/

/-- `DB_KEY_NAMES`. -/
def keyName : Kind → String
  | .vault => "whatsvault.vault.key.v1"
  | .control => "whatsvault.control.key.v1"

/-- What connecting leaves: the file as it is, or an empty one, made under the umask `077`. -/
def connect (kind : Kind) (m : Machine) : Machine :=
  match m.db kind with
  | some _ => m
  | none => m.setDb kind (some (.empty 0o600))

lemma connect_of_some {kind : Kind} {m : Machine} {f : DbFile} (h : m.db kind = some f) :
    connect kind m = m := by simp [connect, h]

lemma connect_of_none {kind : Kind} {m : Machine} (h : m.db kind = none) :
    connect kind m = m.setDb kind (some (.empty 0o600)) := by simp [connect, h]

def openDb (kind : Kind) (key : Bytes) : Program Machine Failure PUnit := do
  let m ← now
  refuseIf (m.db kind = none ∧ m.dirs "" = none) .cannotOpen
  change (connect kind)
  look fun m =>
    if (m.db kind).all (·.opens key) then .ok ⟨⟩ else .error .notADatabase

/-- The connection is the key that the file was opened with. -/
def provisionDb (draw : Draws) (kind : Kind) : Program Machine Failure Bytes := do
  let key ← provision draw (keyName kind) 32
  openDb kind key
  pure key

def openExisting (kind : Kind) : Program Machine Failure Bytes := do
  let key ← look fun m => require m (keyName kind) 32
  openDb kind key
  pure key

/-! ## `db/migrations` -/

def userVersion (kind : Kind) (m : Machine) : ℕ := ((m.db kind).map DbFile.version).getD 0

def schemaOf (kind : Kind) (m : Machine) : Schema := ((m.db kind).map DbFile.schema).getD .empty

/-- A database as a connection with a key reads and writes it. -/
def store (kind : Kind) (key : Bytes) : Versioned Machine Schema where
  version := userVersion kind
  contents := schemaOf kind
  write version schema m :=
    m.setDb kind (some (.written key version schema (((m.db kind).map DbFile.mode).getD 0o600)))
  version_write version schema m := by simp [userVersion, DbFile.written]
  contents_write version schema m := by simp [schemaOf, DbFile.written]

def migrate (kind : Kind) (key : Bytes) : Program Machine Failure ℕ := do
  Migration.migrate (store kind key) runScript (fun _ => .script) (MIGRATIONS kind)
  let m ← now
  pure (userVersion kind m)

/-! ## `ops/bootstrap` -/

def tokenKeyName : String := "whatsvault.mcp.token.v1"

def auditKeyName : String := "whatsvault.mcp.audit.v1"

/-- `_SERVICE_KEYS`. -/
def serviceKeys : List String := [tokenKeyName, auditKeyName]

/-- The pairs both loops of `bootstrap` go through. -/
def kinds : List Kind := [.vault, .control]

/-- `_has_key`. -/
def hasKey (m : Machine) (name : String) : Bool := (require m name 32).toBool

/-- `_stranded`. -/
def stranded (m : Machine) : List Kind :=
  kinds.filter fun kind => (m.db kind).isSome ∧ ¬ hasKey m (keyName kind)

inductive DatabaseState
  | created
  | migrated
  | current
  deriving DecidableEq

/-- `_ensure_database`. -/
def ensureDatabase (draw : Draws) (kind : Kind) :
    Program Machine Failure (DatabaseState × Option String) := do
  let m ← now
  if (m.db kind).isSome then
    let key ← openExisting kind
    let opened ← now
    let after ← migrate kind key
    pure (if after ≠ userVersion kind opened then .migrated else .current, none)
  else if hasKey m (keyName kind) then
    let key ← openExisting kind
    let _ ← migrate kind key
    pure (.created, none)
  else
    let key ← provisionDb draw kind
    let _ ← migrate kind key
    pure (.created, some (keyName kind))

/-- `Paths.all_dirs`, below the home directory. -/
def allDirs : List String := ["", "blobs", "run", "logs"]

/-- `os.makedirs(path, exist_ok=True)`, under the umask `077`. -/
def makeDir (name : String) (m : Machine) : Machine :=
  if m.dirs name = none then m.setDir name 0o700 else m

/-- `fsperms.ensure_dir`. -/
def ensureDir (name : String) : Program Machine Failure PUnit := do
  change (makeDir name)
  change (Machine.setDir name 0o700)

/-- `fsperms.ensure_secret_file` of a file that is there. -/
def chmodDb (kind : Kind) (m : Machine) : Machine :=
  m.setDb kind ((m.db kind).map fun f => { f with mode := 0o600 })

/-- What a finished `init` reports. -/
structure Report where
  created : List Kind
  alreadyPresent : List Kind
  migrated : List Kind
  keysProvisioned : List String
  /-- The token, where `--reveal` asks for it. -/
  token : Option String
  deriving DecidableEq

def Report.empty : Report := ⟨[], [], [], [], none⟩

/-- A database in its buckets, and the key minted for it among the keys. -/
def Report.add (r : Report) (kind : Kind) (outcome : DatabaseState × Option String) : Report :=
  let r := { r with keysProvisioned := r.keysProvisioned ++ outcome.2.toList }
  match outcome.1 with
  | .created => { r with created := r.created ++ [kind] }
  | .migrated =>
    { r with migrated := r.migrated ++ [kind], alreadyPresent := r.alreadyPresent ++ [kind] }
  | .current => { r with alreadyPresent := r.alreadyPresent ++ [kind] }

def endpoint : String := "http://127.0.0.1:8765/mcp"

/-- The `error` of a stranded database. -/
def strandedError (kinds : List Kind) : String :=
  let names := ", ".intercalate (kinds.map Kind.name)
  names ++ " database exists but its key is missing from the keystore. " ++
    "Minting a new key would leave the existing data permanently " ++
    "unreadable, so nothing was changed. Restore the Keychain entry, or " ++
    "move the " ++ names ++ " database aside and re-run to start fresh."

inductive InitResult
  | stranded (kinds : List Kind) (error : String)
  | done (report : Report)
  deriving DecidableEq

def ensureDatabases (draw : Draws) : Program Machine Failure Report :=
  kinds.foldlM (fun r kind => do
    let outcome ← ensureDatabase draw kind
    pure (r.add kind outcome)) .empty

def ensureServiceKeys (draw : Draws) (r : Report) : Program Machine Failure Report :=
  serviceKeys.foldlM (fun r name => do
    let m ← now
    if hasKey m name then pure r
    else
      let _ ← provision draw name 32
      pure { r with keysProvisioned := r.keysProvisioned ++ [name] }) r

/-- `report["token"] = ks.require(TOKEN_KEY_NAME, 32).hex()`, where `--reveal` asks for it. -/
def revealToken (reveal : Bool) : Program Machine Failure (Option String) :=
  if reveal then look fun m => (require m tokenKeyName 32).map fun key => some (hex key)
  else pure none

/-- `init_vault`. -/
def initVault (draw : Draws) (reveal : Bool) : Program Machine Failure InitResult := do
  let m ← now
  if stranded m ≠ [] then pure (.stranded (stranded m) (strandedError (stranded m)))
  else
    let _ ← allDirs.foldlM (fun _ name => ensureDir name) ⟨⟩
    let r ← ensureDatabases draw
    let r ← ensureServiceKeys draw r
    let _ ← kinds.foldlM (fun _ kind => change (chmodDb kind)) ⟨⟩
    let token ← revealToken reveal
    pure (.done { r with token := token })

/-! ## The verbs and the daemons -/

/-- What `mcp-provision` returns. -/
inductive ProvisionResult
  | failed (name : String) (failure : Failure)
  | done (provisioned alreadyPresent : List String) (token : Option String)
  deriving DecidableEq

/-- The loop of `cmd_mcp_provision`, which returns from inside. -/
def provisionKeys (draw : Draws) : List String → List String → List String →
    Program Machine Failure (Except (String × Failure) (List String × List String))
  | [], provisioned, already => pure (.ok (provisioned, already))
  | name :: names, provisioned, already => do
    let m ← now
    match require m name 32 with
    | .ok _ => provisionKeys draw names provisioned (already ++ [name])
    | .error (.keyMissing _) =>
      let _ ← provision draw name 32
      provisionKeys draw names (provisioned ++ [name]) already
    | .error e => pure (.error (name, e))

def mcpProvision (draw : Draws) (reveal : Bool) : Program Machine Failure ProvisionResult := do
  let result ← provisionKeys draw serviceKeys [] []
  match result with
  | .error (name, e) => pure (.failed name e)
  | .ok (provisioned, already) =>
    let token ← revealToken reveal
    pure (.done provisioned already token)

def acceptsBackend (backend : String) : Bool :=
  contains backend "macOS" || contains backend.toLower "keychain"

/-- `KeyringKeyStore()`. -/
def keyringKeyStore : Program Machine Failure PUnit :=
  look fun m => if acceptsBackend m.backend then .ok ⟨⟩ else .error (.backend m.backend)

/-- Both databases, in the order in which `open_ctx` and `open_databases` open them. -/
def openBoth : Program Machine Failure (Bytes × Bytes) := do
  let vault ← openExisting .vault
  let control ← openExisting .control
  pure (vault, control)

/-- What `main` does about `open_ctx`: it dispatches, prints an error and returns 2, or lets the
exception through. -/
inductive Entry
  | dispatched (vault control : Bytes)
  | refused (error : String)
  | escaped (failure : Failure)
  deriving DecidableEq

def Entry.ofResult : Except Failure (Bytes × Bytes) → Entry
  | .ok (vault, control) => .dispatched vault control
  | .error (.keyMissing name) =>
    .refused ("no vault yet (" ++ name ++ "); run `whatsvault init` first")
  | .error e =>
    if e.isKeyStoreError then .refused ("cannot reach the Keychain: " ++ e.text) else .escaped e

/-- `blocked_on` of `open_databases`, or the two connections. -/
inductive Daemon
  | started (vault control : Bytes)
  | keysNotProvisioned
  | keystoreUnavailable
  | databasesAbsent
  | escaped (failure : Failure)
  deriving DecidableEq

/-- `open_databases`: no exception of the two libraries is a `FileNotFoundError`. -/
def Daemon.ofResult : Except Failure (Bytes × Bytes) → Daemon
  | .ok (vault, control) => .started vault control
  | .error (.keyMissing _) => .keysNotProvisioned
  | .error e => if e.isKeyStoreError then .keystoreUnavailable else .escaped e

def openDatabases : Program Machine Failure (Bytes × Bytes) := do
  keyringKeyStore
  openBoth

/-! ## Runs -/

inductive Command
  | init (reveal : Bool)
  | mcpProvision (reveal : Bool)
  /-- Every other verb, and every daemon. -/
  | other

/-- A command as the steps it takes. -/
def Command.run (draw : Draws) : Command → Program Machine Failure PUnit
  | .init reveal => do
    keyringKeyStore
    let _ ← initVault draw reveal
    pure ⟨⟩
  | .mcpProvision reveal => do
    keyringKeyStore
    let _ ← Ops.mcpProvision draw reveal
    pure ⟨⟩
  | .other => do
    let _ ← openDatabases
    pure ⟨⟩

inductive Event
  /-- A command, killed after some of its steps if it does not come to its end. -/
  | command (c : Command) (draw : Draws) (cut : Option ℕ)
  /-- The operator writes or deletes a Keychain entry. -/
  | setPassword (name : String) (value : Option String)
  /-- The operator moves a database aside. -/
  | moveAside (kind : Kind)

def step (m : Machine) : Event → Machine × List Empty
  | .command c draw none => (after m ((c.run draw) m).2, [])
  | .command c draw (some n) => ((c.run draw).cutAt n m, [])
  | .setPassword name value => ({ m with passwords := Function.update m.passwords name value }, [])
  | .moveAside kind => (m.setDb kind none, [])

end WhatsVault.Ops
