import WhatsVault.Library.Durable
import WhatsVault.Mcp.Audit
import WhatsVault.Mcp.Collection
import WhatsVault.Mcp.Concurrency

/-!
# Grants, statement by statement

Four operations of the authorization server leave a row in the audit log: an approval, the issue of a pair
of tokens, a refresh token used twice and the off switch.  Here the operations are programs on a connection,
and a process may be killed after any of their statements.

`Moves` is what an act comes to: the whole of an operation together with its row, or nothing.  Two
operations commit before they are through, so an authorization request may come to its collection only, and
a family may be revoked without the row that says so.  The programs do no more than that
(`moves_of_step`).
-/

namespace WhatsVault.GrantAudit

open OAuth Checks Transaction Program Durable
open Mcp.Audit (AuditRow Interpreter Writable argsHmac dumpError)

/-- The rows of the authorization server and the audit log. -/
structure Store where
  tables : Tables
  log : List AuditRow

def Store.empty : Store := ⟨.empty, []⟩

/-! ## The operations -/

section Programs

variable (P : Platform) (S : Stdlib) (I : Interpreter) (auditKey : Bytes)

/-- `_audit` with the id it draws. -/
def audit (id tool outcome : String) (args : Json) (now : ℤ) : Program (Conn Store) Refusal PUnit := do
  let argsHash ← select fun _ => orStop (argsHmac I auditKey args).toOption .raised
  statement fun st => { st with log := st.log ++ [⟨id, "oauth", tool, argsHash, outcome, now⟩] }
  commit

def approveArgs (requestId clientId : String) : Json :=
  .obj [(.text "request_id", .str (.text requestId)), (.text "client_id", .str (.text clientId))]

def issuedArgs (clientId grantId : String) : Json :=
  .obj [(.text "client_id", .str (.text clientId)), (.text "grant_id", .str (.text grantId)),
    (.text "scope", .str (.text readOnlyScope))]

def reuseArgs (grantId : Option String) (tokensRevoked : ℕ) : Json :=
  .obj [(.text "grant_id", grantId.elim .null fun grantId => .str (.text grantId)),
    (.text "tokens_revoked", .int tokensRevoked)]

def revokeAllArgs (tokensRevoked : ℕ) : Json := .obj [(.text "tokens_revoked", .int tokensRevoked)]

/-- A statement on the tables of the authorization server. -/
def update (f : Tables → Tables) : Program (Conn Store) Refusal PUnit :=
  statement fun st => { st with tables := f st.tables }

/-- A SELECT from them. -/
def find {α : Type} (f : Tables → Except Refusal α) : Program (Conn Store) Refusal α :=
  select fun st => f st.tables

/-- `register_client`. -/
def registerClient (name : PyStr) (redirectUris : List PyStr) (clientId : String) (now : ℤ) :
    Program (Conn Store) Refusal PUnit := do
  let registered ← find (OAuth.registerClient name redirectUris clientId now)
  update fun _ => registered
  commit

/-- `collect_expired`. -/
def collectExpired (now : ℤ) : Program (Conn Store) Refusal PUnit := do
  update fun s => { s with pending := s.pending.filter fun p => now < p.expiresMs }
  update fun s => { s with codes := s.codes.filter fun c => now < c.expiresMs }
  update fun s => { s with tokens := s.tokens.filter fun t => now < t.expiresMs }
  commit

/-- `begin_authorization`. -/
def beginAuthorization (r : AuthorizationRequest) (requestId userCode : String) (now : ℤ) :
    Program (Conn Store) Refusal PUnit := do
  collectExpired now
  let inserted ← find (insertPending S r requestId userCode now)
  update fun _ => inserted
  commit

/-- The row `approve` finds. -/
def findApprovable (userCode : PyStr) (now : ℤ) (s : Tables) : Except Refusal Pending := do
  let code ← orStop (S.upper (S.strip userCode)).encode .raised
  let row ← orStop (Table.find Pending.userCode code s.pending)
    (.oauth "invalid_request" "no such pending authorization")
  require (row.approvedMs = none) (.oauth "invalid_request" "already approved")
  require (now ≤ row.expiresMs) (.oauth "expired_token" "authorization request expired")
  pure row

/-- `approve`. -/
def approve (userCode : PyStr) (id : String) (now : ℤ) : Program (Conn Store) Refusal PUnit := do
  let row ← find (findApprovable S userCode now)
  update (setPending row.requestId fun p => { p with approvedMs := some now })
  audit I auditKey id "oauth.approve" "ok" (approveArgs row.requestId row.clientId) now
  commit

/-- `poll`.  Its INSERT and its UPDATE are one statement here, since no row of the log goes with them. -/
def poll (requestId : PyStr) (secret : String) (now : ℤ) : Program (Conn Store) Refusal PUnit := do
  let polled ← find (OAuth.poll P requestId secret now)
  update fun _ => polled.2
  commit

def insertToken (row : Token) : Program (Conn Store) Refusal PUnit := do
  let tokens ← find fun s => orStop (Table.insert Token.tokenHash row s.tokens) .raised
  update fun s => { s with tokens := tokens }

/-- `_issue`. -/
def issue (clientId grantId access refreshToken id : String) (now : ℤ) :
    Program (Conn Store) Refusal PUnit := do
  insertToken (accessRow P clientId now grantId access)
  insertToken (refreshRow P clientId now grantId refreshToken)
  audit I auditKey id "oauth.token_issued" "ok" (issuedArgs clientId grantId) now
  commit

/-- The row `exchange_code` finds. -/
def findCode (r : ExchangeRequest) (now : ℤ) (s : Tables) : Except Refusal Code := do
  let codeHash ← orStop (hash P r.code) .raised
  let row ← orStop (Table.find Code.codeHash codeHash s.codes)
    (.oauth "invalid_grant" "unknown authorization code")
  Concurrent.checkCode P r now row
  pure row

/-- The rows that the UPDATE of `exchange_code` is for. -/
def unused (codeHash : String) (s : Tables) : ℕ :=
  (s.codes.filter fun c => c.codeHash = codeHash ∧ c.consumedMs = none).length

/-- `exchange_code`. -/
def exchangeCode (r : ExchangeRequest) (grantId access refreshToken id : String) (now : ℤ) :
    Program (Conn Store) Refusal PUnit := do
  let row ← find (findCode P r now)
  let rowcount ← find fun s => pure (unused row.codeHash s)
  update (consumeCode row.codeHash now)
  refuseIf (rowcount ≠ 1) (.oauth "invalid_grant" "authorization code already used")
  issue P I auditKey row.clientId grantId access refreshToken id now

/-- The row `refresh` finds. -/
def findToken (refreshToken : PyStr) (s : Tables) : Except Refusal Token := do
  let tokenHash ← orStop (hash P refreshToken) .raised
  orStop (s.tokens.find? fun t => t.tokenHash = tokenHash ∧ t.kind = .refresh)
    (.oauth "invalid_grant" "refresh token is not valid")

/-- The checks of `refresh` on a token that is not revoked. -/
def checkRotation (clientId : PyStr) (now : ℤ) (row : Token) : Except Refusal Unit := do
  require (now ≤ row.expiresMs) (.oauth "invalid_grant" "refresh token is not valid")
  let sameClient ← orStop (compareDigest clientId (.text row.clientId)) .raised
  require sameClient (.oauth "invalid_grant" "refresh token was not issued to this client")

/-- The tokens of a grant that an UPDATE revokes. -/
def revocable (grantId : Option String) (s : Tables) : ℕ :=
  (s.tokens.filter fun t => grantId ≠ none ∧ t.grantId = grantId ∧ t.revokedMs = none).length

/-- `refresh`. -/
def refresh (refreshToken clientId : PyStr) (freshGrant access newRefresh id : String) (now : ℤ) :
    Program (Conn Store) Refusal PUnit := do
  let row ← find (findToken P refreshToken)
  if row.revokedMs ≠ none then
    let killed ← find fun s => pure (revocable row.grantId s)
    update (revokeFamily row.grantId now)
    commit
    audit I auditKey id "oauth.refresh_reuse_detected" "revoked" (reuseArgs row.grantId killed) now
    raise (.oauth "invalid_grant" "refresh token is not valid")
  else
    find fun _ => checkRotation clientId now row
    update (revokeFamily row.grantId now)
    issue P I auditKey row.clientId (row.grantId.getD freshGrant) access newRefresh id now

/-- `revoke_all`. -/
def revokeAll (id : String) (now : ℤ) : Program (Conn Store) Refusal PUnit := do
  let rowcount ← find fun s => pure (s.tokens.filter fun t => t.revokedMs = none).length
  update (OAuth.revokeAll now)
  audit I auditKey id "oauth.revoke_all" "ok" (revokeAllArgs rowcount) now
  commit

/-- The program of an operation. -/
def program (id : String) : Op → Program (Conn Store) Refusal PUnit
  | .registerClient name redirectUris clientId now => registerClient name redirectUris clientId now
  | .beginAuthorization r requestId userCode now => beginAuthorization S r requestId userCode now
  | .approve userCode now => approve S I auditKey userCode id now
  | .poll requestId secret now => poll P requestId secret now
  | .exchangeCode r grantId access refreshToken now =>
    exchangeCode P I auditKey r grantId access refreshToken id now
  | .refresh refreshToken clientId freshGrant access newRefresh now =>
    refresh P I auditKey refreshToken clientId freshGrant access newRefresh id now
  | .collectExpired now => collectExpired now
  | .revokeAll now => revokeAll I auditKey id now

end Programs

/-! ## Runs -/

/-- An operation with the id drawn for its row, run to its end or killed after so many statements. -/
structure Act where
  op : Op
  id : String
  killed : Option ℕ

variable (P : Platform) (S : Stdlib) (I : Interpreter) (auditKey : Bytes)

/-- A killed process leaves what is committed. -/
def step (c : Conn Store) (a : Act) : Conn Store × List Empty :=
  match a.killed with
  | none => (after c (program P S I auditKey a.id a.op c).2, [])
  | some n => (.clean (cutAt (program P S I auditKey a.id a.op) n c).durable, [])

/-! ## What an act comes to -/

def auditRow (id tool outcome : String) (args : Json) (now : ℤ) : AuditRow :=
  ⟨id, "oauth", tool, hex (I.hmacSha256 auditKey (I.dumps args)), outcome, now⟩

/-- The row of a pair of tokens. -/
def issuedRow (id clientId grantId : String) (now : ℤ) : AuditRow :=
  auditRow I auditKey id "oauth.token_issued" "ok" (issuedArgs clientId grantId) now

/-- What an operation leaves in the log. -/
def entry (id : String) (s : Tables) : Op → List AuditRow
  | .approve userCode now =>
    match findApprovable S userCode now s with
    | .ok row =>
      [auditRow I auditKey id "oauth.approve" "ok" (approveArgs row.requestId row.clientId) now]
    | .error _ => []
  | .exchangeCode r grantId _ _ now =>
    match findCode P r now s with
    | .ok row => [issuedRow I auditKey id row.clientId grantId now]
    | .error _ => []
  | .refresh refreshToken clientId freshGrant _ _ now =>
    match findToken P refreshToken s with
    | .ok row =>
      if row.revokedMs ≠ none then
        [auditRow I auditKey id "oauth.refresh_reuse_detected" "revoked"
          (reuseArgs row.grantId (revocable row.grantId s)) now]
      else
        match checkRotation clientId now row with
        | .ok () => [issuedRow I auditKey id row.clientId (row.grantId.getD freshGrant) now]
        | .error _ => []
    | .error _ => []
  | .revokeAll now =>
    [auditRow I auditKey id "oauth.revoke_all" "ok"
      (revokeAllArgs (s.tokens.filter fun t => t.revokedMs = none).length) now]
  | _ => []

/-- The store after the whole of an operation. -/
def done (id : String) (op : Op) (st : Store) : Store where
  tables := (OAuth.step P S st.tables op).1
  log := st.log ++ entry P S I auditKey id st.tables op

/-- What is committed of an operation that is killed before it is through: nothing, or what two of the
operations commit on their way. -/
inductive Cut (st : Store) : Op → Store → Prop
  | nothing {op : Op} : Cut st op st
  | collected {r : AuthorizationRequest} {requestId userCode : String} {now : ℤ} :
      Cut st (.beginAuthorization r requestId userCode now) ⟨OAuth.collectExpired now st.tables, st.log⟩
  | unrecorded {refreshToken clientId : PyStr} {freshGrant access newRefresh : String} {now : ℤ}
      {row : Token} : findToken P refreshToken st.tables = .ok row → row.revokedMs ≠ none →
      Cut st (.refresh refreshToken clientId freshGrant access newRefresh now)
        ⟨revokeFamily row.grantId now st.tables, st.log⟩

/-- An act does the whole of its operation, or is killed. -/
def Moves (st : Store) (a : Act) (st' : Store) : Prop :=
  st' = done P S I auditKey a.id a.op st ∨ a.killed ≠ none ∧ Cut P st a.op st'

/-! ## The programs, state by state -/

variable {P S I auditKey}

lemma argsHmac_eq {args : Json} (h : Writable I args) :
    argsHmac I auditKey args = .ok (hex (I.hmacSha256 auditKey (I.dumps args))) := by
  unfold argsHmac
  rw [h.1]
  exact if_pos h.2

variable {st : Store}

lemma dumpRoom_eq : ∃ room, I.dumpRoom = room + 1 :=
  ⟨I.dumpRoom - 1, by have := I.dumpRoom_pos; omega⟩

lemma writes_approveArgs (requestId clientId : String) : Writable I (approveArgs requestId clientId) := by
  obtain ⟨room, hroom⟩ := dumpRoom_eq (I := I)
  refine ⟨?_, rfl⟩
  rw [hroom]
  rfl

lemma writes_issuedArgs (clientId grantId : String) : Writable I (issuedArgs clientId grantId) := by
  obtain ⟨room, hroom⟩ := dumpRoom_eq (I := I)
  refine ⟨?_, rfl⟩
  rw [hroom]
  rfl

lemma writes_revokeAllArgs {n : ℕ} (hn : n < 10 ^ I.maxStrDigits) : Writable I (revokeAllArgs n) := by
  obtain ⟨room, hroom⟩ := dumpRoom_eq (I := I)
  have hprints : I.prints n = true := decide_eq_true (by simpa using hn)
  refine ⟨?_, rfl⟩
  rw [hroom]
  simp [revokeAllArgs, dumpError, Mcp.Audit.fieldsError, hprints]

lemma writes_reuseArgs {n : ℕ} (hn : n < 10 ^ I.maxStrDigits) (grantId : Option String) :
    Writable I (reuseArgs grantId n) := by
  obtain ⟨room, hroom⟩ := dumpRoom_eq (I := I)
  have hprints : I.prints n = true := decide_eq_true (by simpa using hn)
  cases grantId with
  | none =>
    refine ⟨?_, rfl⟩
    rw [hroom]
    simp [reuseArgs, dumpError, Mcp.Audit.fieldsError, hprints]
  | some grantId =>
    refine ⟨?_, rfl⟩
    rw [hroom]
    simp [reuseArgs, dumpError, Mcp.Audit.fieldsError, hprints]

section Rules

variable {D : Store → Prop} {c : Conn Store} {st' : Store} {β : Type}

lemma leaves_find {α : Type} {f : Tables → Except Refusal α} {q : α → Program (Conn Store) Refusal β}
    {a : α} (h : f c.working.tables = .ok a) (hq : Leaves D (q a) c st') :
    Leaves D (find f >>= q) c st' := .select_bind h hq

lemma leaves_refused {α : Type} {f : Tables → Except Refusal α}
    {q : α → Program (Conn Store) Refusal β} {e : Refusal} (h : f st.tables = .error e) :
    Leaves D (find f >>= q) (.clean st) st := .select_refused h

lemma leaves_update {f : Tables → Tables} {q : PUnit → Program (Conn Store) Refusal β}
    (hD : D c.durable) (hq : Leaves D (q ⟨⟩) ⟨c.durable, f c.working.tables, c.working.log⟩ st') :
    Leaves D (update f >>= q) c st' := .statement_bind hD hq

/-- A row in the log, committed with whatever is open. -/
lemma leaves_audit {id tool outcome : String} {args : Json} {now : ℤ}
    {q : PUnit → Program (Conn Store) Refusal β} (hargs : Writable I args) (hD : D c.durable)
    (hD' : D ⟨c.working.tables, c.working.log ++ [auditRow I auditKey id tool outcome args now]⟩)
    (hq : Leaves D (q ⟨⟩)
      (.clean ⟨c.working.tables, c.working.log ++ [auditRow I auditKey id tool outcome args now]⟩) st') :
    Leaves D (audit I auditKey id tool outcome args now >>= q) c st' := by
  have hrun : audit I auditKey id tool outcome args now c = (.ok ⟨⟩,
      [⟨c.durable, c.working.tables, c.working.log ++ [auditRow I auditKey id tool outcome args now]⟩,
        .clean ⟨c.working.tables, c.working.log ++ [auditRow I auditKey id tool outcome args now]⟩]) := by
    unfold audit
    rw [argsHmac_eq hargs]
    rfl
  refine .bind (a := ⟨⟩) ?_ ?_ hq
  · unfold Returns
    rw [hrun]
    exact ⟨rfl, rfl⟩
  · rw [hrun]
    intro t ht
    simp only [List.mem_cons, List.not_mem_nil, or_false] at ht
    obtain rfl | rfl := ht
    · exact hD
    · exact hD'

lemma leaves_insertToken {row : Token} {tokens : List Token} {q : PUnit → Program (Conn Store) Refusal β}
    (h : Table.insert Token.tokenHash row c.working.tables.tokens = some tokens) (hD : D c.durable)
    (hq : Leaves D (q ⟨⟩) ⟨c.durable, { c.working.tables with tokens := tokens }, c.working.log⟩ st') :
    Leaves D (insertToken row >>= q) c st' := by
  have hrun : insertToken row c =
      (.ok ⟨⟩, [⟨c.durable, { c.working.tables with tokens := tokens }, c.working.log⟩]) := by
    simp [insertToken, find, update, Durable.select, statement, look, change, bind, h, orStop, after,
      Conn.exec]
  refine .bind (a := ⟨⟩) ?_ ?_ hq
  · unfold Returns
    rw [hrun]
    exact ⟨rfl, rfl⟩
  · rw [hrun]
    intro t ht
    rw [List.mem_singleton.mp ht]
    exact hD

/-- `_issue` of a fresh pair, over whatever is open. -/
lemma leaves_issue {clientId grantId access refreshToken id : String} {now : ℤ}
    (hfresh : FreshPair P c.working.tables access refreshToken)
    (hdistinct : P.hexdigest (utf8 access) ≠ P.hexdigest (utf8 refreshToken)) (hD : D c.durable)
    (hst' : st' = ⟨{ c.working.tables with tokens := c.working.tables.tokens ++
        [accessRow P clientId now grantId access, refreshRow P clientId now grantId refreshToken] },
      c.working.log ++ [issuedRow I auditKey id clientId grantId now]⟩) (hD' : D st') :
    Leaves D (issue P I auditKey clientId grantId access refreshToken id now) c st' := by
  have haccess : Table.insert Token.tokenHash (accessRow P clientId now grantId access)
      c.working.tables.tokens =
      some (c.working.tables.tokens ++ [accessRow P clientId now grantId access]) :=
    Table.insert_eq_some_iff.mpr ⟨fun u hu => (hfresh u hu).1, rfl⟩
  have hrefresh : Table.insert Token.tokenHash (refreshRow P clientId now grantId refreshToken)
      (c.working.tables.tokens ++ [accessRow P clientId now grantId access]) =
      some (c.working.tables.tokens ++ [accessRow P clientId now grantId access,
        refreshRow P clientId now grantId refreshToken]) := by
    refine Table.insert_eq_some_iff.mpr ⟨fun u hu => ?_, by simp⟩
    obtain hu | hu := List.mem_append.mp hu
    · exact (hfresh u hu).2
    · rw [List.mem_singleton.mp hu]
      exact hdistinct
  subst hst'
  unfold issue
  refine leaves_insertToken haccess hD (leaves_insertToken hrefresh hD ?_)
  exact leaves_audit (writes_issuedArgs clientId grantId) hD hD' (.commit hD')

/-! ## Each operation -/

lemma leaves_registerClient (name : PyStr) (uris : List PyStr) (clientId id : String) (now : ℤ)
    (hst : D st) (hdone : D (done P S I auditKey id (.registerClient name uris clientId now) st)) :
    Leaves D (registerClient name uris clientId now) (.clean st)
      (done P S I auditKey id (.registerClient name uris clientId now) st) := by
  unfold registerClient
  cases h : OAuth.registerClient name uris clientId now st.tables with
  | error e =>
    have hsame : done P S I auditKey id (.registerClient name uris clientId now) st = st := by
      simp [done, OAuth.step, h, entry]
    rw [hsame]
    exact leaves_refused h
  | ok s' =>
    have hdone' : done P S I auditKey id (.registerClient name uris clientId now) st = ⟨s', st.log⟩ := by
      simp [done, OAuth.step, h, entry]
    rw [hdone'] at hdone ⊢
    exact leaves_find h (leaves_update hst (.commit hdone))

lemma leaves_collectExpired (now : ℤ) (hst : D st)
    (hcollected : D ⟨OAuth.collectExpired now st.tables, st.log⟩) :
    Leaves D (collectExpired now) (.clean st) ⟨OAuth.collectExpired now st.tables, st.log⟩ := by
  unfold collectExpired
  exact leaves_update hst (leaves_update hst (leaves_update hst (.commit hcollected)))

lemma leaves_beginAuthorization (r : AuthorizationRequest) (requestId userCode id : String) (now : ℤ)
    (hst : D st) (hcollected : D ⟨OAuth.collectExpired now st.tables, st.log⟩)
    (hdone : D (done P S I auditKey id (.beginAuthorization r requestId userCode now) st)) :
    Leaves D (beginAuthorization S r requestId userCode now) (.clean st)
      (done P S I auditKey id (.beginAuthorization r requestId userCode now) st) := by
  unfold beginAuthorization
  refine .andThen (a := ⟨⟩) (leaves_collectExpired now hst hcollected) rfl ?_
  cases h : insertPending S r requestId userCode now (OAuth.collectExpired now st.tables) with
  | error e =>
    have hsame : done P S I auditKey id (.beginAuthorization r requestId userCode now) st =
        ⟨OAuth.collectExpired now st.tables, st.log⟩ := by
      simp [done, OAuth.step, OAuth.beginAuthorization, h, entry]
    rw [hsame]
    exact leaves_refused h
  | ok s' =>
    have hdone' : done P S I auditKey id (.beginAuthorization r requestId userCode now) st =
        ⟨s', st.log⟩ := by
      simp [done, OAuth.step, OAuth.beginAuthorization, h, entry]
    rw [hdone'] at hdone ⊢
    exact leaves_find h (leaves_update hcollected (.commit hdone))

lemma approve_eq (userCode : PyStr) (now : ℤ) (s : Tables) :
    OAuth.approve S userCode now s = (findApprovable S userCode now s).map fun row =>
      (row.requestId, setPending row.requestId (fun p => { p with approvedMs := some now }) s) := by
  unfold OAuth.approve findApprovable
  cases (S.upper (S.strip userCode)).encode with
  | none => rfl
  | some code =>
    simp only [orStop, Option.elim_some, ok_bind]
    cases Table.find Pending.userCode code s.pending with
    | none => rfl
    | some row =>
      simp only [Option.elim_some, ok_bind]
      by_cases happroved : row.approvedMs = none
      · by_cases hexpires : now ≤ row.expiresMs
        · rw [require, if_pos happroved, require, if_pos hexpires]
          rfl
        · rw [require, if_pos happroved, require, if_neg hexpires]
          rfl
      · rw [require, if_neg happroved]
        rfl

lemma leaves_approve (userCode : PyStr) (id : String) (now : ℤ) (hst : D st)
    (hdone : D (done P S I auditKey id (.approve userCode now) st)) :
    Leaves D (approve S I auditKey userCode id now) (.clean st)
      (done P S I auditKey id (.approve userCode now) st) := by
  unfold approve
  cases h : findApprovable S userCode now st.tables with
  | error e =>
    have hsame : done P S I auditKey id (.approve userCode now) st = st := by
      simp [done, OAuth.step, approve_eq, h, entry, Except.map]
    rw [hsame]
    exact leaves_refused h
  | ok row =>
    have hdone' : done P S I auditKey id (.approve userCode now) st =
        ⟨setPending row.requestId (fun p => { p with approvedMs := some now }) st.tables,
          st.log ++ [auditRow I auditKey id "oauth.approve" "ok"
            (approveArgs row.requestId row.clientId) now]⟩ := by
      simp [done, OAuth.step, approve_eq, h, entry, Except.map]
    rw [hdone'] at hdone ⊢
    refine leaves_find h (leaves_update hst ?_)
    exact leaves_audit (writes_approveArgs _ _) hst hdone (.commit hdone)

lemma leaves_poll (requestId : PyStr) (secret id : String) (now : ℤ) (hst : D st)
    (hdone : D (done P S I auditKey id (.poll requestId secret now) st)) :
    Leaves D (poll P requestId secret now) (.clean st)
      (done P S I auditKey id (.poll requestId secret now) st) := by
  unfold poll
  cases h : OAuth.poll P requestId secret now st.tables with
  | error e =>
    have hsame : done P S I auditKey id (.poll requestId secret now) st = st := by
      simp [done, OAuth.step, h, entry]
    rw [hsame]
    exact leaves_refused h
  | ok polled =>
    have hdone' : done P S I auditKey id (.poll requestId secret now) st = ⟨polled.2, st.log⟩ := by
      obtain ⟨handed, s'⟩ := polled
      cases handed with
      | none => simp [done, OAuth.step, h, entry]
      | some handed => simp [done, OAuth.step, h, entry]
    rw [hdone'] at hdone ⊢
    exact leaves_find h (leaves_update hst (.commit hdone))

/-- A pair is new and its tokens are two. -/
def NewPair (P : Platform) (s : Tables) (access refreshToken : String) : Prop :=
  FreshPair P s access refreshToken ∧ P.hexdigest (utf8 access) ≠ P.hexdigest (utf8 refreshToken)

/-- The tables after an exchange. -/
def exchanged (P : Platform) (r : ExchangeRequest) (grantId access refreshToken : String) (now : ℤ)
    (s : Tables) : Tables :=
  match findCode P r now s with
  | .ok row => { consumeCode row.codeHash now s with tokens := s.tokens ++
      [accessRow P row.clientId now grantId access, refreshRow P row.clientId now grantId refreshToken] }
  | .error _ => s

lemma step_exchangeCode {r : ExchangeRequest} {grantId access refreshToken : String} {now : ℤ}
    {s : Tables} (hready : NewPair P s access refreshToken) :
    (OAuth.step P S s (.exchangeCode r grantId access refreshToken now)).1 =
      exchanged P r grantId access refreshToken now s := by
  simp only [OAuth.step, exchanged, findCode]
  cases hhash : hash P r.code with
  | none => simp [OAuth.exchangeCode, hhash, orStop, bind, Except.bind]
  | some codeHash =>
    cases hrow : Table.find Code.codeHash codeHash s.codes with
    | none => simp [OAuth.exchangeCode, hhash, hrow, orStop, bind, Except.bind]
    | some row =>
      rw [Concurrent.exchangeCode_eq hhash hrow]
      simp only [orStop, Option.elim_some, ok_bind, hrow]
      cases Concurrent.checkCode P r now row with
      | error e => rfl
      | ok _ =>
        have hissue : OAuth.issue P row.clientId now grantId access refreshToken
            (consumeCode row.codeHash now s) = _ := issue_eq hready.1
        rw [if_neg hready.2] at hissue
        simp only [ok_bind, hissue]
        rfl

lemma found_unused {r : ExchangeRequest} {now : ℤ} {s : Tables} {row : Code}
    (h : findCode P r now s = .ok row) : row ∈ s.codes ∧ row.consumedMs = none := by
  simp only [findCode, Concurrent.checkCode, bind_eq_ok, orStop_eq_ok, require_eq_ok, pure_eq_ok] at h
  obtain ⟨codeHash, -, found, hfound, _, ⟨-, hconsumed, -⟩, rfl⟩ := h
  exact ⟨(Table.mem_of_find_eq_some hfound).1, hconsumed⟩

lemma leaves_exchangeCode (r : ExchangeRequest) (grantId access refreshToken id : String) (now : ℤ)
    (hkeyed : Concurrent.Keyed st.tables) (hready : NewPair P st.tables access refreshToken) (hst : D st)
    (hdone : D (done P S I auditKey id (.exchangeCode r grantId access refreshToken now) st)) :
    Leaves D (exchangeCode P I auditKey r grantId access refreshToken id now) (.clean st)
      (done P S I auditKey id (.exchangeCode r grantId access refreshToken now) st) := by
  unfold exchangeCode
  cases h : findCode P r now st.tables with
  | error e =>
    have hsame : done P S I auditKey id (.exchangeCode r grantId access refreshToken now) st = st := by
      simp [done, step_exchangeCode hready, exchanged, h, entry]
    rw [hsame]
    exact leaves_refused h
  | ok row =>
    have hdone' : done P S I auditKey id (.exchangeCode r grantId access refreshToken now) st =
        ⟨{ consumeCode row.codeHash now st.tables with tokens := st.tables.tokens ++
            [accessRow P row.clientId now grantId access,
              refreshRow P row.clientId now grantId refreshToken] },
          st.log ++ [issuedRow I auditKey id row.clientId grantId now]⟩ := by
      simp [done, step_exchangeCode hready, exchanged, h, entry]
    obtain ⟨hrow, hconsumed⟩ := found_unused h
    have hrowcount : unused row.codeHash st.tables = 1 :=
      Concurrent.length_unused hkeyed hrow hconsumed
    refine leaves_find h (leaves_find (a := 1) (congrArg Except.ok hrowcount) (leaves_update hst ?_))
    refine .bind (a := ⟨⟩) ⟨rfl, rfl⟩ (fun t ht => by cases ht) ?_
    exact leaves_issue hready.1 hready.2 hst hdone' hdone

/-- The tables after a refresh. -/
def refreshed (P : Platform) (refreshToken clientId : PyStr) (freshGrant access newRefresh : String)
    (now : ℤ) (s : Tables) : Tables :=
  match findToken P refreshToken s with
  | .ok row =>
    if row.revokedMs ≠ none then revokeFamily row.grantId now s
    else
      match checkRotation clientId now row with
      | .ok () => { revokeFamily row.grantId now s with
          tokens := (revokeFamily row.grantId now s).tokens ++
            [accessRow P row.clientId now (row.grantId.getD freshGrant) access,
              refreshRow P row.clientId now (row.grantId.getD freshGrant) newRefresh] }
      | .error _ => s
  | .error _ => s

lemma step_refresh_eq {refreshToken clientId : PyStr} {freshGrant access newRefresh : String} {now : ℤ}
    {s : Tables} (hready : NewPair P s access newRefresh) :
    (OAuth.step P S s (.refresh refreshToken clientId freshGrant access newRefresh now)).1 =
      refreshed P refreshToken clientId freshGrant access newRefresh now s := by
  rw [step_refresh]
  unfold OAuth.refresh refreshed findToken
  cases hash P refreshToken with
  | none => rfl
  | some tokenHash =>
    simp only [orStop, Option.elim_some, ok_bind]
    cases s.tokens.find? fun t => t.tokenHash = tokenHash ∧ t.kind = .refresh with
    | none => rfl
    | some row =>
      simp only [Option.elim_some]
      by_cases hrevoked : row.revokedMs = none
      · rw [if_neg (not_not.mpr hrevoked), if_neg (not_not.mpr hrevoked)]
        unfold checkRotation
        by_cases hexpired : row.expiresMs < now
        · rw [if_pos hexpired, require, if_neg (not_le.mpr hexpired)]
          rfl
        rw [if_neg hexpired, require, if_pos (not_lt.mp hexpired)]
        cases compareDigest clientId (.text row.clientId) with
        | none => rfl
        | some same =>
          cases same with
          | false => rfl
          | true =>
            have hissue : OAuth.issue P row.clientId now (row.grantId.getD freshGrant) access newRefresh
                (revokeFamily row.grantId now s) = _ := issue_eq hready.1.revokeFamily
            rw [if_neg hready.2] at hissue
            simp only [hissue]
            rfl
      · rw [if_pos hrevoked, if_pos hrevoked]

lemma leaves_refresh (refreshToken clientId : PyStr) (freshGrant access newRefresh id : String) (now : ℤ)
    (hready : NewPair P st.tables access newRefresh) (hsize : st.tables.tokens.length < 10 ^ I.maxStrDigits)
    (hcut : ∀ t, Cut P st (.refresh refreshToken clientId freshGrant access newRefresh now) t → D t)
    (hdone : D (done P S I auditKey id (.refresh refreshToken clientId freshGrant access newRefresh now) st)) :
    Leaves D (refresh P I auditKey refreshToken clientId freshGrant access newRefresh id now) (.clean st)
      (done P S I auditKey id (.refresh refreshToken clientId freshGrant access newRefresh now) st) := by
  have hst : D st := hcut st .nothing
  unfold refresh
  cases h : findToken P refreshToken st.tables with
  | error e =>
    have hsame : done P S I auditKey id
        (.refresh refreshToken clientId freshGrant access newRefresh now) st = st := by
      simp [done, step_refresh_eq hready, refreshed, h, entry]
    rw [hsame]
    exact leaves_refused h
  | ok row =>
    refine leaves_find h ?_
    by_cases hrevoked : row.revokedMs = none
    · rw [if_neg (not_not.mpr hrevoked)]
      cases hcheck : checkRotation clientId now row with
      | error e =>
        have hsame : done P S I auditKey id
            (.refresh refreshToken clientId freshGrant access newRefresh now) st = st := by
          simp [done, step_refresh_eq hready, refreshed, h, entry, hrevoked, hcheck]
        rw [hsame]
        exact leaves_refused rfl
      | ok _ =>
        have hdone' : done P S I auditKey id
            (.refresh refreshToken clientId freshGrant access newRefresh now) st =
            ⟨{ revokeFamily row.grantId now st.tables with
                tokens := (revokeFamily row.grantId now st.tables).tokens ++
                  [accessRow P row.clientId now (row.grantId.getD freshGrant) access,
                    refreshRow P row.clientId now (row.grantId.getD freshGrant) newRefresh] },
              st.log ++ [issuedRow I auditKey id row.clientId (row.grantId.getD freshGrant) now]⟩ := by
          simp [done, step_refresh_eq hready, refreshed, h, entry, hrevoked, hcheck]
        refine leaves_find rfl (leaves_update hst ?_)
        exact leaves_issue hready.1.revokeFamily hready.2 hst hdone' hdone
    · rw [if_pos hrevoked]
      have hdone' : done P S I auditKey id
          (.refresh refreshToken clientId freshGrant access newRefresh now) st =
          ⟨revokeFamily row.grantId now st.tables,
            st.log ++ [auditRow I auditKey id "oauth.refresh_reuse_detected" "revoked"
              (reuseArgs row.grantId (revocable row.grantId st.tables)) now]⟩ := by
        simp [done, step_refresh_eq hready, refreshed, h, entry, hrevoked]
      have hcount : revocable row.grantId st.tables < 10 ^ I.maxStrDigits :=
        (List.length_filter_le _ _).trans_lt hsize
      have hmid := hcut _ (.unrecorded h hrevoked)
      rw [hdone'] at hdone ⊢
      refine leaves_find rfl (leaves_update hst (.commit_bind hmid ?_))
      exact leaves_audit (writes_reuseArgs hcount _) hmid hdone .raise

lemma leaves_revokeAll (id : String) (now : ℤ) (hsize : st.tables.tokens.length < 10 ^ I.maxStrDigits)
    (hst : D st) (hdone : D (done P S I auditKey id (.revokeAll now) st)) :
    Leaves D (revokeAll I auditKey id now) (.clean st) (done P S I auditKey id (.revokeAll now) st) := by
  have hcount : (st.tables.tokens.filter fun t => t.revokedMs = none).length < 10 ^ I.maxStrDigits :=
    (List.length_filter_le _ _).trans_lt hsize
  unfold revokeAll
  refine leaves_find rfl (leaves_update hst ?_)
  exact leaves_audit (writes_revokeAllArgs hcount) hst hdone (.commit hdone)

end Rules

/-- The hashes of the pair an operation draws. -/
def minted (P : Platform) : Op → List String
  | .exchangeCode _ _ access refreshToken _ => [P.hexdigest (utf8 access), P.hexdigest (utf8 refreshToken)]
  | .refresh _ _ _ access newRefresh _ => [P.hexdigest (utf8 access), P.hexdigest (utf8 newRefresh)]
  | _ => []

/-- What a store is at the beginning of an act. -/
structure Ready (P : Platform) (I : Interpreter) (st : Store) (op : Op) : Prop where
  keyed : Concurrent.Keyed st.tables
  unique : Table.Unique Pending.requestId st.tables.pending
  distinct : (minted P op).Nodup
  fresh : ∀ t ∈ st.tables.tokens, t.tokenHash ∉ minted P op
  size : st.tables.tokens.length < 10 ^ I.maxStrDigits

lemma Ready.newPair {op : Op} (h : Ready P I st op) {access refreshToken : String}
    (hminted : minted P op = [P.hexdigest (utf8 access), P.hexdigest (utf8 refreshToken)]) :
    NewPair P st.tables access refreshToken := by
  have hdistinct := h.distinct
  have hfresh := h.fresh
  rw [hminted] at hdistinct hfresh
  refine ⟨fun t ht => ?_, by simpa using hdistinct⟩
  simpa using hfresh t ht

lemma leaves_program (S : Stdlib) (auditKey : Bytes) {op : Op} (hready : Ready P I st op) (id : String) :
    Leaves (fun t => t = done P S I auditKey id op st ∨ Cut P st op t) (program P S I auditKey id op)
      (.clean st) (done P S I auditKey id op st) := by
  cases op with
  | registerClient name uris clientId now =>
    exact leaves_registerClient name uris clientId id now (.inr .nothing) (.inl rfl)
  | beginAuthorization r requestId userCode now =>
    exact leaves_beginAuthorization r requestId userCode id now (.inr .nothing) (.inr .collected) (.inl rfl)
  | approve userCode now => exact leaves_approve userCode id now (.inr .nothing) (.inl rfl)
  | poll requestId secret now => exact leaves_poll requestId secret id now (.inr .nothing) (.inl rfl)
  | exchangeCode r grantId access refreshToken now =>
    exact leaves_exchangeCode r grantId access refreshToken id now hready.keyed
      (hready.newPair rfl) (.inr .nothing) (.inl rfl)
  | refresh refreshToken clientId freshGrant access newRefresh now =>
    exact leaves_refresh refreshToken clientId freshGrant access newRefresh id now (hready.newPair rfl)
      hready.size (fun t ht => .inr ht) (.inl rfl)
  | collectExpired now =>
    have hdone : done P S I auditKey id (.collectExpired now) st =
        ⟨OAuth.collectExpired now st.tables, st.log⟩ := by
      simp [done, OAuth.step, entry]
    rw [hdone]
    exact leaves_collectExpired now (.inr .nothing) (.inl rfl)
  | revokeAll now => exact leaves_revokeAll id now hready.size (.inr .nothing) (.inl rfl)

lemma moves_of_step (S : Stdlib) (auditKey : Bytes) {a : Act} (hready : Ready P I st a.op) :
    ∃ st', (step P S I auditKey (.clean st) a).1 = .clean st' ∧ Moves P S I auditKey st a st' := by
  have h := leaves_program S auditKey hready a.id
  unfold step
  cases hkilled : a.killed with
  | none => exact ⟨_, h.1, .inl rfl⟩
  | some n =>
    refine ⟨_, rfl, (h.killed (.inr .nothing) n).imp id fun hcut => ⟨by simp [hkilled], hcut⟩⟩

end WhatsVault.GrantAudit
