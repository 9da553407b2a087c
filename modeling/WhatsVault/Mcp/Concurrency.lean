import WhatsVault.Library.WriteLock
import WhatsVault.Mcp.Lineage

/-!
# The one-shot operations, statement by statement

`poll`, `exchange_code`, `refresh` and `revoke_all` each read first and write afterwards, and only
the writes stand in a transaction.  Here every call has a connection of its own, and the calls
interleave between any two statements.  `select` is the read of a call: what it decided to write,
and which credential it is about to spend.

`exchange_code` writes under a condition and counts the rows it changed, so it needs nothing: its
write fails where another call came first.  `poll` and `refresh` write unconditionally.  They are
one-shot in the runs where their first write still finds the credential as they read it
(`one_shot_of_meets`).
-/

namespace WhatsVault.OAuth.Concurrent

open Checks WriteLock

/-! ## Statements -/

/-- A call, with the clock it is given and the secrets it draws. -/
inductive Call
  | poll (requestId : PyStr) (secret : String) (now : ℤ)
  | exchangeCode (request : ExchangeRequest) (grantId access refreshToken : String) (now : ℤ)
  | refresh (refreshToken clientId : PyStr) (freshGrant access newRefresh : String) (now : ℤ)
  | revokeAll (now : ℤ)

/-- The writes of the four operations.  A row count that is checked belongs to its statement. -/
inductive Stmt
  | insertCode (c : Code)
  | collect (requestId : String) (now : ℤ)
  | consume (codeHash : String) (now : ℤ)
  | insertToken (t : Token)
  | revokeFamily (grantId : Option String) (now : ℤ)
  | revokeAll (now : ℤ)

/-- Execute a statement, `none` where it raises. -/
def Stmt.exec (s : Tables) : Stmt → Option Tables
  | insertCode c => (Table.insert Code.codeHash c s.codes).map fun codes => { s with codes := codes }
  | collect requestId now =>
    some (setPending requestId (fun p => { p with collectedMs := some now }) s)
  | consume codeHash now =>
    if (s.codes.filter fun c => c.codeHash = codeHash ∧ c.consumedMs = none).length = 1 then
      some (consumeCode codeHash now s)
    else none
  | insertToken t =>
    (Table.insert Token.tokenHash t s.tokens).map fun tokens => { s with tokens := tokens }
  | revokeFamily grantId now => some (OAuth.revokeFamily grantId now s)
  | revokeAll now => some (OAuth.revokeAll now s)

/-- What a call spends. -/
inductive Credential
  | request (requestId : String)
  | code (codeHash : String)
  | refreshToken (tokenHash : String)
  deriving DecidableEq

/-- What is left of a call after its read. -/
structure Plan where
  stmts : List Stmt
  /-- The credential the call spends and the hashes of what it issues, if it returns any. -/
  issues : Option (Credential × List String)

/-- `_issue`, as far as its INSERTs. -/
def insertPair (P : Platform) (clientId : String) (now : ℤ) (grantId access refreshToken : String) :
    List Stmt :=
  [.insertToken (accessRow P clientId now grantId access),
    .insertToken (refreshRow P clientId now grantId refreshToken)]

def pairHashes (P : Platform) (access refreshToken : String) : List String :=
  [P.hexdigest (utf8 access), P.hexdigest (utf8 refreshToken)]

/-- The checks of `exchange_code` on the row it read. -/
def checkCode (P : Platform) (r : ExchangeRequest) (now : ℤ) (row : Code) : Except Refusal Unit := do
  require (row.consumedMs = none) (.oauth "invalid_grant" "authorization code already used")
  require (now ≤ row.expiresMs) (.oauth "invalid_grant" "authorization code expired")
  let sameClient ← orStop (compareDigest r.clientId (.text row.clientId)) .raised
  require sameClient (.oauth "invalid_grant" "code was not issued to this client")
  let sameRedirect ← orStop (compareDigest r.redirectUri (.text row.redirectUri)) .raised
  require sameRedirect
    (.oauth "invalid_grant" "redirect_uri does not match the authorization request")
  let verified ← orStop
    (compareDigest (.text (challengeOf P r.codeVerifier)) (.text row.codeChallenge)) .raised
  require verified (.oauth "invalid_grant" "PKCE verification failed")

/-- The SELECT of a call and the checks on what it read; `none` where the call ends without a
write. -/
def select (P : Platform) (s : Tables) : Call → Option Plan
  | .poll requestId secret now => do
    let requestId ← requestId.encode
    let row ← Table.find Pending.requestId requestId s.pending
    if row.approvedMs = none ∨ row.collectedMs ≠ none ∨ row.expiresMs < now then none
    else
      some ⟨[.insertCode (codeRow P secret now row), .collect row.requestId now],
        some (.request row.requestId, [P.hexdigest (utf8 secret)])⟩
  | .exchangeCode r grantId access refreshToken now => do
    let codeHash ← hash P r.code
    let row ← Table.find Code.codeHash codeHash s.codes
    match checkCode P r now row with
    | .error _ => none
    | .ok () =>
      some ⟨.consume row.codeHash now :: insertPair P row.clientId now grantId access refreshToken,
        some (.code row.codeHash, pairHashes P access refreshToken)⟩
  | .refresh refreshToken clientId freshGrant access newRefresh now => do
    let oldHash ← hash P refreshToken
    let row ← s.tokens.find? fun t => t.tokenHash = oldHash ∧ t.kind = .refresh
    if row.revokedMs ≠ none then some ⟨[.revokeFamily row.grantId now], none⟩
    else if row.expiresMs < now then none
    else
      match compareDigest clientId (.text row.clientId) with
      | none | some false => none
      | some true =>
        some ⟨.revokeFamily row.grantId now ::
            insertPair P row.clientId now (row.grantId.getD freshGrant) access newRefresh,
          some (.refreshToken row.tokenHash, pairHashes P access newRefresh)⟩
  | .revokeAll now => some ⟨[.revokeAll now], none⟩

/-! ## Interleavings -/

/-- How far a call is. -/
inductive Phase
  | unused
  | reading (call : Call)
  | writing (plan : Plan)
  | finished
  | raised

/-- The database and the calls in flight, each on the connection of its number. -/
structure Sys where
  db : Db Tables
  phase : ℕ → Phase

def Sys.start (s : Tables) : Sys := ⟨.idle s, fun _ => .unused⟩

def Sys.setPhase (σ : Sys) (i : ℕ) (p : Phase) : Sys :=
  { σ with phase := fun j => if j = i then p else σ.phase j }

inductive Label
  /-- Call `i` begins. -/
  | call (i : ℕ) (c : Call)
  /-- Call `i` runs its next statement, or its commit; it waits where another one holds the lock. -/
  | advance (i : ℕ)
  /-- The next statement or the commit of call `i` fails. -/
  | fail (i : ℕ)
  /-- Connection `i` is closed, or its process dies. -/
  | close (i : ℕ)

/-- What the calls show. -/
inductive Shown
  /-- Call `i` returned what it bought with a credential. -/
  | issued (i : ℕ) (credential : Credential) (hashes : List String)
  /-- Call `i` ran its own revoking UPDATE, on a refresh token that was already revoked. -/
  | updatedRevoked (i : ℕ) (tokenHash : String)
  deriving DecidableEq

def tokenRevoked (tokenHash : String) (s : Tables) : Bool :=
  s.tokens.all fun t => t.tokenHash = tokenHash → t.revokedMs ≠ none

/-- What the first statement of a call shows. -/
def shows (i : ℕ) (s : Tables) : Stmt → Option (Credential × List String) → List Shown
  | .revokeFamily _ _, some (.refreshToken old, _) =>
    if tokenRevoked old s then [.updatedRevoked i old] else []
  | _, _ => []

def advance (P : Platform) (σ : Sys) (i : ℕ) : Sys × List Shown :=
  match σ.phase i with
  | .reading c =>
    match select P σ.db.committed c with
    | none => (σ.setPhase i .finished, [])
    | some plan => (σ.setPhase i (.writing plan), [])
  | .writing ⟨[], issues⟩ =>
    ({ σ with db := σ.db.commit i }.setPhase i .finished,
      (issues.map fun (credential, hashes) => .issued i credential hashes).toList)
  | .writing ⟨stmt :: stmts, issues⟩ =>
    match σ.db.base i with
    | none => (σ, [])
    | some s =>
      match stmt.exec s with
      | none => ({ σ with db := σ.db.hold i s }.setPhase i .raised, shows i s stmt issues)
      | some s' =>
        ({ σ with db := σ.db.hold i s' }.setPhase i (.writing ⟨stmts, issues⟩),
          shows i s stmt issues)
  | _ => (σ, [])

def step (P : Platform) (σ : Sys) : Label → Sys × List Shown
  | .call i c =>
    match σ.phase i with
    | .unused => (σ.setPhase i (.reading c), [])
    | _ => (σ, [])
  | .advance i => advance P σ i
  | .fail i => (σ.setPhase i .raised, [])
  | .close i => ({ σ with db := σ.db.rollback i }.setPhase i .raised, [])

/-- The credentials for which something was issued, one entry for each time. -/
def spent (log : List Shown) : List Credential :=
  log.filterMap fun
    | .issued _ credential _ => some credential
    | .updatedRevoked .. => none

/-- One-shot credentials stayed one-shot: nothing was issued twice for one of them, and no call
issued anything after its own UPDATE found its refresh token revoked. -/
structure OneShot (log : List Shown) : Prop where
  once : (spent log).Nodup
  stale : ∀ i old, .updatedRevoked i old ∈ log → ∀ credential hashes,
    .issued i credential hashes ∉ log

/-! ## Spent credentials -/

/-- The tables show that the credential was used. -/
def Spent : Credential → Tables → Prop
  | .request r, s => ∀ p ∈ s.pending, p.requestId = r → p.collectedMs ≠ none
  | .code c, s => (∃ row ∈ s.codes, row.codeHash = c) ∧
      ∀ row ∈ s.codes, row.codeHash = c → row.consumedMs ≠ none
  | .refreshToken t, s => (∃ row ∈ s.tokens, row.tokenHash = t) ∧
      ∀ row ∈ s.tokens, row.tokenHash = t → row.revokedMs ≠ none

instance : ∀ k s, Decidable (Spent k s)
  | .request _, _ => inferInstanceAs (Decidable (∀ _ ∈ _, _))
  | .code _, _ => inferInstanceAs (Decidable (_ ∧ _))
  | .refreshToken _, _ => inferInstanceAs (Decidable (_ ∧ _))

/-- The credential of a call that is about to make its first write without looking: the INSERT of a
`poll`, the revoking UPDATE of a `refresh`. -/
def careless : Phase → Option Credential
  | .writing ⟨.insertCode _ :: _, some (k, _)⟩ => some k
  | .writing ⟨.revokeFamily _ _ :: _, some (k, _)⟩ => some k
  | _ => none

/-- The first write of a `poll` finds its request uncollected, that of a `refresh` its token
unrevoked. -/
def Undisturbed (σ : Sys) : Label → Prop
  | .advance i => ∀ k ∈ careless (σ.phase i), ∀ s ∈ σ.db.base i, ¬ Spent k s
  | _ => True

instance (σ : Sys) : ∀ label, Decidable (Undisturbed σ label)
  | .advance _ => inferInstanceAs (Decidable (∀ _ ∈ _, ∀ _ ∈ _, _))
  | .call _ _ => inferInstanceAs (Decidable True)
  | .fail _ => inferInstanceAs (Decidable True)
  | .close _ => inferInstanceAs (Decidable True)

/-- A token that is stored belongs to a grant. -/
def Stmt.Granted : Stmt → Prop
  | .insertToken t => t.grantId ≠ none
  | _ => True

/-- The keys of the tables the calls insert into, and the grants `_issue` writes. -/
structure Keyed (s : Tables) : Prop where
  codes : Table.Unique Code.codeHash s.codes
  unique : Table.Unique Token.tokenHash s.tokens
  granted : ∀ t ∈ s.tokens, t.grantId ≠ none

/-- Statements turn the first tables into the second. -/
inductive Writes (s : Tables) : Tables → Prop
  | refl : Writes s s
  | tail {t u : Tables} {stmt : Stmt} : Writes s t → stmt.Granted → stmt.exec t = some u → Writes s u

section Statements

variable {s s' : Tables}

/-- The tokens after a statement: each old one is still there, perhaps revoked, and a new one has a
new hash. -/
lemma tokens_of_exec {stmt : Stmt} (h : stmt.exec s = some s') :
    (∃ f : Token → Token, s'.tokens = s.tokens.map f ∧ ∀ t, (f t).tokenHash = t.tokenHash ∧
      (f t).grantId = t.grantId ∧ (t.revokedMs ≠ none → (f t).revokedMs ≠ none)) ∨
    ∃ t, stmt = .insertToken t ∧ (∀ u ∈ s.tokens, u.tokenHash ≠ t.tokenHash) ∧
      s'.tokens = s.tokens ++ [t] := by
  have hrevoke : ∀ now t, (revokeToken now t).tokenHash = t.tokenHash ∧
      (revokeToken now t).grantId = t.grantId ∧
      (t.revokedMs ≠ none → (revokeToken now t).revokedMs ≠ none) := by
    intro now t
    refine ⟨(revokeToken_kept now t).1, ?_, fun _ => revokeToken_revokedMs_ne_none now t⟩
    unfold revokeToken
    split
    · rfl
    · rfl
  cases stmt with
  | insertCode c =>
    left
    simp only [Stmt.exec, Option.map_eq_some_iff] at h
    obtain ⟨codes, -, rfl⟩ := h
    exact ⟨id, by simp, fun t => ⟨rfl, rfl, fun h => h⟩⟩
  | collect requestId now =>
    left
    obtain rfl := Option.some.inj h
    exact ⟨id, by simp [setPending], fun t => ⟨rfl, rfl, fun h => h⟩⟩
  | consume codeHash now =>
    left
    simp only [Stmt.exec, Option.ite_none_right_eq_some, Option.some.injEq] at h
    obtain ⟨-, rfl⟩ := h
    exact ⟨id, by simp [consumeCode], fun t => ⟨rfl, rfl, fun h => h⟩⟩
  | insertToken t =>
    right
    simp only [Stmt.exec, Option.map_eq_some_iff] at h
    obtain ⟨tokens, htokens, rfl⟩ := h
    obtain ⟨hfree, rfl⟩ := Table.insert_eq_some_iff.mp htokens
    exact ⟨t, rfl, hfree, rfl⟩
  | revokeFamily grantId now =>
    left
    obtain rfl := Option.some.inj h
    refine ⟨fun t => if grantId ≠ none ∧ t.grantId = grantId then revokeToken now t else t, rfl,
      fun t => ?_⟩
    beta_reduce
    split
    · exact hrevoke now t
    · exact ⟨rfl, rfl, fun h => h⟩
  | revokeAll now =>
    left
    obtain rfl := Option.some.inj h
    exact ⟨revokeToken now, rfl, hrevoke now⟩

lemma pending_of_exec {stmt : Stmt} (h : stmt.exec s = some s') :
    s'.pending = s.pending ∨ ∃ requestId now, stmt = .collect requestId now ∧
      s' = setPending requestId (fun p => { p with collectedMs := some now }) s := by
  cases stmt with
  | collect requestId now => exact .inr ⟨requestId, now, rfl, (Option.some.inj h).symm⟩
  | insertCode c =>
    simp only [Stmt.exec, Option.map_eq_some_iff] at h
    obtain ⟨codes, -, rfl⟩ := h
    exact .inl rfl
  | consume codeHash now =>
    simp only [Stmt.exec, Option.ite_none_right_eq_some, Option.some.injEq] at h
    obtain ⟨-, rfl⟩ := h
    exact .inl rfl
  | insertToken t =>
    simp only [Stmt.exec, Option.map_eq_some_iff] at h
    obtain ⟨tokens, -, rfl⟩ := h
    exact .inl rfl
  | revokeFamily grantId now =>
    obtain rfl := Option.some.inj h
    exact .inl rfl
  | revokeAll now =>
    obtain rfl := Option.some.inj h
    exact .inl rfl

lemma codes_of_exec {stmt : Stmt} (h : stmt.exec s = some s') :
    s'.codes = s.codes ∨
      (∃ c, (∀ b ∈ s.codes, b.codeHash ≠ c.codeHash) ∧ s'.codes = s.codes ++ [c]) ∨
      ∃ codeHash now, stmt = .consume codeHash now ∧ s' = consumeCode codeHash now s ∧
        (s.codes.filter fun c => c.codeHash = codeHash ∧ c.consumedMs = none).length = 1 := by
  cases stmt with
  | insertCode c =>
    simp only [Stmt.exec, Option.map_eq_some_iff] at h
    obtain ⟨codes, hcodes, rfl⟩ := h
    obtain ⟨hfree, rfl⟩ := Table.insert_eq_some_iff.mp hcodes
    exact .inr (.inl ⟨c, hfree, rfl⟩)
  | consume codeHash now =>
    simp only [Stmt.exec, Option.ite_none_right_eq_some, Option.some.injEq] at h
    obtain ⟨hcount, rfl⟩ := h
    exact .inr (.inr ⟨codeHash, now, rfl, rfl, hcount⟩)
  | collect requestId now =>
    obtain rfl := Option.some.inj h
    exact .inl rfl
  | insertToken t =>
    simp only [Stmt.exec, Option.map_eq_some_iff] at h
    obtain ⟨tokens, -, rfl⟩ := h
    exact .inl rfl
  | revokeFamily grantId now =>
    obtain rfl := Option.some.inj h
    exact .inl rfl
  | revokeAll now =>
    obtain rfl := Option.some.inj h
    exact .inl rfl

lemma mem_consumeCode {codeHash : String} {now : ℤ} {c : Code}
    (h : c ∈ (consumeCode codeHash now s).codes) :
    c.consumedMs ≠ none ∨ c ∈ s.codes ∧ c.codeHash ≠ codeHash := by
  obtain ⟨b, hb, rfl⟩ := List.mem_map.mp h
  split
  · left
    simp
  · rename_i hkept
    by_cases hconsumed : b.consumedMs = none
    · right
      exact ⟨hb, fun hhash => hkept ⟨hhash, hconsumed⟩⟩
    · left
      exact hconsumed

lemma exists_mem_consumeCode {codeHash : String} {now : ℤ} {c : Code} (h : c ∈ s.codes) :
    ∃ b ∈ (consumeCode codeHash now s).codes, b.codeHash = c.codeHash := by
  refine ⟨_, List.mem_map_of_mem h, ?_⟩
  split
  · rfl
  · rfl

lemma map_codeHash_consumeCode (codeHash : String) (now : ℤ) (s : Tables) :
    (consumeCode codeHash now s).codes.map Code.codeHash = s.codes.map Code.codeHash := by
  unfold consumeCode
  rw [List.map_map]
  apply List.map_congr_left
  intro c _
  show (if _ then _ else c : Code).codeHash = c.codeHash
  split
  · rfl
  · rfl

lemma keyed_of_exec {stmt : Stmt} (hkeyed : Keyed s) (hgranted : stmt.Granted)
    (hexec : stmt.exec s = some s') : Keyed s' := by
  have hcodes : Table.Unique Code.codeHash s'.codes := by
    rcases codes_of_exec hexec with hsame | ⟨c, hfree, hcodes⟩ | ⟨codeHash, now, -, rfl, -⟩
    · rw [hsame]
      exact hkeyed.codes
    · rw [hcodes]
      exact hkeyed.codes.append hfree
    · unfold Table.Unique
      rw [map_codeHash_consumeCode]
      exact hkeyed.codes
  rcases tokens_of_exec hexec with ⟨f, htokens, hf⟩ | ⟨t, rfl, hfree, htokens⟩
  · refine ⟨hcodes, ?_, fun t ht => ?_⟩
    · have hhashes : s'.tokens.map Token.tokenHash = s.tokens.map Token.tokenHash := by
        rw [htokens, List.map_map]
        exact List.map_congr_left fun t _ => (hf t).1
      unfold Table.Unique
      rw [hhashes]
      exact hkeyed.unique
    · rw [htokens] at ht
      obtain ⟨u, hu, rfl⟩ := List.mem_map.mp ht
      rw [(hf u).2.1]
      exact hkeyed.granted u hu
  · refine ⟨hcodes, ?_, fun u hu => ?_⟩
    · rw [htokens]
      exact hkeyed.unique.append hfree
    · rw [htokens] at hu
      rcases List.mem_append.mp hu with hold | hnew
      · exact hkeyed.granted u hold
      · rw [List.mem_singleton.mp hnew]
        exact hgranted

/-- What is spent stays spent. -/
lemma spent_of_exec {stmt : Stmt} {k : Credential} (hspent : Spent k s)
    (hexec : stmt.exec s = some s') : Spent k s' := by
  cases k with
  | request r =>
    rcases pending_of_exec hexec with hsame | ⟨requestId, now, -, rfl⟩
    · intro p hp hid
      rw [hsame] at hp
      exact hspent p hp hid
    · intro p hp hid
      rcases mem_setPending hp with hold | ⟨q, -, -, rfl⟩
      · exact hspent p hold hid
      · simp
  | code c =>
    obtain ⟨⟨row, hrow, hhash⟩, hall⟩ := hspent
    rcases codes_of_exec hexec with hsame | ⟨new, hfree, hcodes⟩ | ⟨codeHash, now, -, rfl, -⟩
    · exact ⟨⟨row, hsame ▸ hrow, hhash⟩, fun b hb => hall b (hsame ▸ hb)⟩
    · refine ⟨⟨row, hcodes ▸ List.mem_append_left _ hrow, hhash⟩, fun b hb hkey => ?_⟩
      rw [hcodes] at hb
      rcases List.mem_append.mp hb with hold | hnew
      · exact hall b hold hkey
      · rw [List.mem_singleton.mp hnew] at hkey
        exact absurd (hhash.trans hkey.symm) (hfree row hrow)
    · obtain ⟨b, hb, hkey⟩ := exists_mem_consumeCode hrow
      refine ⟨⟨b, hb, hkey.trans hhash⟩, fun b hb hkey => ?_⟩
      rcases mem_consumeCode hb with hconsumed | ⟨hold, -⟩
      · exact hconsumed
      · exact hall b hold hkey
  | refreshToken old =>
    obtain ⟨⟨row, hrow, hhash⟩, hall⟩ := hspent
    rcases tokens_of_exec hexec with ⟨f, htokens, hf⟩ | ⟨t, rfl, hfree, htokens⟩
    · refine ⟨⟨f row, ?_, (hf row).1.trans hhash⟩, fun t ht hkey => ?_⟩
      · rw [htokens]
        exact List.mem_map_of_mem hrow
      · rw [htokens] at ht
        obtain ⟨u, hu, rfl⟩ := List.mem_map.mp ht
        exact (hf u).2.2 (hall u hu ((hf u).1.symm.trans hkey))
    · refine ⟨⟨row, ?_, hhash⟩, fun u hu hkey => ?_⟩
      · rw [htokens]
        exact List.mem_append_left _ hrow
      · rw [htokens] at hu
        rcases List.mem_append.mp hu with hold | hnew
        · exact hall u hold hkey
        · rw [List.mem_singleton.mp hnew] at hkey
          exact absurd (hhash.trans hkey.symm) (hfree row hrow)

lemma Writes.keyed (h : Writes s s') (hkeyed : Keyed s) : Keyed s' := by
  induction h with
  | refl => exact hkeyed
  | tail _ hgranted hexec ih => exact keyed_of_exec ih hgranted hexec

lemma Writes.spent (h : Writes s s') {k : Credential} (hspent : Spent k s) : Spent k s' := by
  induction h with
  | refl => exact hspent
  | tail _ _ hexec ih => exact spent_of_exec ih hexec

end Statements

/-! ## Plans -/

/-- The plan of a call that has read and not yet written: the grant that a `refresh` revokes is the
one of its token. -/
inductive Opening (s : Tables) : Plan → Prop
  | nothing {stmts : List Stmt} : Opening s ⟨stmts, none⟩
  | poll {c : Code} {requestId : String} {now : ℤ} {hashes : List String} :
    Opening s ⟨[.insertCode c, .collect requestId now], some (.request requestId, hashes)⟩
  | exchangeCode {codeHash : String} {now : ℤ} {stmts : List Stmt} {hashes : List String} :
    Opening s ⟨.consume codeHash now :: stmts, some (.code codeHash, hashes)⟩
  | refresh {old : String} {grantId : Option String} {now : ℤ} {stmts : List Stmt}
    {hashes : List String} : grantId ≠ none → (∃ t ∈ s.tokens, t.tokenHash = old) →
      (∀ t ∈ s.tokens, t.tokenHash = old → t.grantId = grantId) →
      Opening s ⟨.revokeFamily grantId now :: stmts, some (.refreshToken old, hashes)⟩

/-- What is left of a plan once its first statement went through. -/
def Opened (s : Tables) (plan : Plan) : Prop :=
  ∀ k hashes, plan.issues = some (k, hashes) →
    Spent k s ∨ ∃ requestId now, k = .request requestId ∧ plan.stmts = [.collect requestId now]

lemma opening_of_exec {s s' : Tables} {stmt : Stmt} {plan : Plan} (h : Opening s plan)
    (hexec : stmt.exec s = some s') : Opening s' plan := by
  cases h with
  | nothing => exact .nothing
  | poll => exact .poll
  | exchangeCode => exact .exchangeCode
  | refresh hgrant hexists hall =>
    obtain ⟨row, hrow, hhash⟩ := hexists
    rcases tokens_of_exec hexec with ⟨f, htokens, hf⟩ | ⟨t, -, hfree, htokens⟩
    · refine .refresh hgrant ⟨f row, ?_, (hf row).1.trans hhash⟩ fun t ht hkey => ?_
      · rw [htokens]
        exact List.mem_map_of_mem hrow
      · rw [htokens] at ht
        obtain ⟨u, hu, rfl⟩ := List.mem_map.mp ht
        exact (hf u).2.1.trans (hall u hu ((hf u).1.symm.trans hkey))
    · refine .refresh hgrant ⟨row, ?_, hhash⟩ fun u hu hkey => ?_
      · rw [htokens]
        exact List.mem_append_left _ hrow
      · rw [htokens] at hu
        rcases List.mem_append.mp hu with hold | hnew
        · exact hall u hold hkey
        · rw [List.mem_singleton.mp hnew] at hkey
          exact absurd (hhash.trans hkey.symm) (hfree row hrow)

lemma Writes.opening {s s' : Tables} {plan : Plan} (h : Writes s s') (hopening : Opening s plan) :
    Opening s' plan := by
  induction h with
  | refl => exact hopening
  | tail _ _ hexec ih => exact opening_of_exec ih hexec

/-- The first statement of a call spends its credential, or is the INSERT of a `poll`; an
`exchange_code` whose credential is spent does not get this far. -/
lemma opened_of_exec {s s' : Tables} {stmt : Stmt} {stmts : List Stmt}
    {issues : Option (Credential × List String)} (h : Opening s ⟨stmt :: stmts, issues⟩)
    (hexec : stmt.exec s = some s') :
    Opened s' ⟨stmts, issues⟩ ∧ ∀ codeHash hashes, issues = some (.code codeHash, hashes) →
      ¬ Spent (.code codeHash) s := by
  cases h with
  | nothing => exact ⟨fun k hashes h => (by cases h), fun codeHash hashes h => (by cases h)⟩
  | poll =>
    refine ⟨fun k hashes h => ?_, fun codeHash hashes h => by cases h⟩
    cases h
    exact .inr ⟨_, _, rfl, rfl⟩
  | exchangeCode =>
    rename_i codeHash now hashes
    simp only [Stmt.exec, Option.ite_none_right_eq_some, Option.some.injEq] at hexec
    obtain ⟨hcount, rfl⟩ := hexec
    obtain ⟨row, hrow⟩ := List.length_eq_one_iff.mp hcount
    have hmem : row ∈ s.codes.filter fun c => c.codeHash = codeHash ∧ c.consumedMs = none := by
      rw [hrow]
      exact List.mem_singleton_self row
    simp only [List.mem_filter, decide_eq_true_eq] at hmem
    refine ⟨fun k hashes h => ?_, fun codeHash' hashes h => ?_⟩
    · cases h
      left
      obtain ⟨b, hb, hkey⟩ := exists_mem_consumeCode hmem.1
      refine ⟨⟨b, hb, hkey.trans hmem.2.1⟩, fun c hc hhash => ?_⟩
      rcases mem_consumeCode hc with hconsumed | ⟨-, hne⟩
      · exact hconsumed
      · exact absurd hhash hne
    · cases h
      intro hspent
      exact hspent.2 row hmem.1 hmem.2.1 hmem.2.2
  | refresh hgrant hexists hall =>
    rename_i old grantId now hashes
    obtain rfl := Option.some.inj hexec
    refine ⟨fun k hashes h => ?_, fun codeHash hashes h => by cases h⟩
    cases h
    left
    obtain ⟨row, hrow, hhash⟩ := hexists
    have hrevoked : ∀ t ∈ (OAuth.revokeFamily grantId now s).tokens, t.tokenHash = old →
        t.revokedMs ≠ none := by
      intro t ht hkey
      obtain ⟨u, hu, rfl⟩ := List.mem_map.mp ht
      by_cases hgrantId : u.grantId = grantId
      · rw [if_pos ⟨hgrant, hgrantId⟩]
        exact revokeToken_revokedMs_ne_none now u
      · rw [if_neg (fun h => hgrantId h.2)] at hkey
        exact absurd (hall u hu hkey) hgrantId
    refine ⟨⟨_, List.mem_map_of_mem hrow, ?_⟩, hrevoked⟩
    split
    · rw [(revokeToken_kept now row).1, hhash]
    · exact hhash

/-- A later statement of a call spends its credential, or leaves it spent. -/
lemma opened_tail {s s' : Tables} {stmt : Stmt} {stmts : List Stmt}
    {issues : Option (Credential × List String)} (h : Opened s ⟨stmt :: stmts, issues⟩)
    (hexec : stmt.exec s = some s') : Opened s' ⟨stmts, issues⟩ := by
  intro k hashes hissues
  left
  rcases h k hashes hissues with hspent | ⟨requestId, now, rfl, hstmts⟩
  · exact spent_of_exec hspent hexec
  · obtain ⟨rfl, rfl⟩ := List.cons.inj hstmts
    obtain rfl := Option.some.inj hexec
    intro p hp hid
    obtain ⟨q, hq, rfl⟩ := List.mem_map.mp hp
    by_cases hqid : q.requestId = requestId
    · simp [hqid]
    · rw [if_neg hqid] at hid
      exact absurd hid hqid

/-- The read of a call, over tables with their keys, makes an opening plan of granted tokens. -/
lemma select_opening {P : Platform} {s : Tables} (hkeyed : Keyed s) {c : Call} {plan : Plan}
    (h : select P s c = some plan) :
    Opening s plan ∧ ∀ stmt ∈ plan.stmts, stmt.Granted := by
  have hpair : ∀ clientId now grantId access refreshToken,
      ∀ stmt ∈ insertPair P clientId now grantId access refreshToken, stmt.Granted := by
    intro clientId now grantId access refreshToken stmt hstmt
    rcases List.mem_pair.mp hstmt with rfl | rfl
    · exact Option.some_ne_none grantId
    · exact Option.some_ne_none grantId
  cases c with
  | poll requestId secret now =>
    simp only [select, Option.bind_eq_bind, Option.bind_eq_some_iff] at h
    obtain ⟨id, -, row, -, h⟩ := h
    split at h
    · cases h
    · obtain rfl := Option.some.inj h
      refine ⟨.poll, fun stmt hstmt => ?_⟩
      rcases List.mem_pair.mp hstmt with rfl | rfl
      · trivial
      · trivial
  | exchangeCode r grantId access refreshToken now =>
    simp only [select, Option.bind_eq_bind, Option.bind_eq_some_iff] at h
    obtain ⟨codeHash, -, row, -, h⟩ := h
    split at h
    · cases h
    · obtain rfl := Option.some.inj h
      refine ⟨.exchangeCode, fun stmt hstmt => ?_⟩
      rcases List.mem_cons.mp hstmt with rfl | hrest
      · trivial
      · exact hpair _ _ _ _ _ stmt hrest
  | refresh refreshToken clientId freshGrant access newRefresh now =>
    simp only [select, Option.bind_eq_bind, Option.bind_eq_some_iff] at h
    obtain ⟨oldHash, -, row, hrow, h⟩ := h
    have hmem := List.mem_of_find?_eq_some hrow
    split at h
    · obtain rfl := Option.some.inj h
      refine ⟨.nothing, fun stmt hstmt => ?_⟩
      rw [List.mem_singleton.mp hstmt]
      trivial
    split at h
    · cases h
    split at h
    · cases h
    · cases h
    · obtain rfl := Option.some.inj h
      refine ⟨.refresh (hkeyed.granted row hmem) ⟨row, hmem, rfl⟩ fun t ht hkey => ?_,
        fun stmt hstmt => ?_⟩
      · rw [hkeyed.unique.eq_of_key_eq ht hmem hkey]
      · rcases List.mem_cons.mp hstmt with rfl | hrest
        · trivial
        · exact hpair _ _ _ _ _ stmt hrest
  | revokeAll now =>
    obtain rfl := Option.some.inj h
    refine ⟨.nothing, fun stmt hstmt => ?_⟩
    rw [List.mem_singleton.mp hstmt]
    trivial

/-! ## The invariant -/

/-- What holds of the database, the calls and what they have shown so far. -/
structure Sound (log : List Shown) (σ : Sys) : Prop where
  keyed : Keyed σ.db.committed
  /-- An open transaction has only executed statements. -/
  writes : ∀ j w, σ.db.writer = some (j, w) → Writes σ.db.committed w
  spent : ∀ k ∈ Concurrent.spent log, Spent k σ.db.committed
  once : (Concurrent.spent log).Nodup
  fresh : ∀ i old, .updatedRevoked i old ∉ log
  granted : ∀ i plan, σ.phase i = .writing plan → ∀ stmt ∈ plan.stmts, stmt.Granted
  /-- A call that has not written yet could still do so; one that has holds the lock, and nothing
  was issued for its credential. -/
  plans : ∀ i plan, σ.phase i = .writing plan → Opening σ.db.committed plan ∨
    ∃ w, σ.db.writer = some (i, w) ∧ Opened w plan ∧
      ∀ k hashes, plan.issues = some (k, hashes) → k ∉ Concurrent.spent log

lemma spent_append (log log' : List Shown) : spent (log ++ log') = spent log ++ spent log' := by
  simp [spent]

lemma sound_start {s : Tables} (h : Keyed s) : Sound [] (Sys.start s) where
  keyed := h
  writes j w hwriter := by cases hwriter
  spent k hk := by cases hk
  once := List.nodup_nil
  fresh i old hmem := by cases hmem
  granted i plan hphase := by cases hphase
  plans i plan hphase := by cases hphase

section Steps

variable {log : List Shown} {σ : Sys}

/-- A call that gets a phase without a plan changes nothing else. -/
lemma Sound.setPhase (h : Sound log σ) (i : ℕ) {p : Phase}
    (hp : ∀ plan, p = .writing plan → Opening σ.db.committed plan ∧ ∀ stmt ∈ plan.stmts, stmt.Granted) :
    Sound log (σ.setPhase i p) := by
  refine ⟨h.keyed, h.writes, h.spent, h.once, h.fresh, fun j plan hphase => ?_,
    fun j plan hphase => ?_⟩
  · by_cases hj : j = i
    · simp only [Sys.setPhase, hj, if_true] at hphase
      exact (hp plan hphase).2
    · simp only [Sys.setPhase, hj, if_false] at hphase
      exact h.granted j plan hphase
  · by_cases hj : j = i
    · simp only [Sys.setPhase, hj, if_true] at hphase
      exact .inl (hp plan hphase).1
    · simp only [Sys.setPhase, hj, if_false] at hphase
      exact h.plans j plan hphase

/-- Dropping an open transaction ends the call it belongs to. -/
lemma sound_close (h : Sound log σ) (i : ℕ) :
    Sound log ({ σ with db := σ.db.rollback i }.setPhase i .raised) := by
  have hcommitted := Db.rollback_committed i σ.db
  refine ⟨?_, fun j w hwriter => ?_, fun k hk => ?_, h.once, h.fresh, fun j plan hphase => ?_,
    fun j plan hphase => ?_⟩
  · show Keyed (σ.db.rollback i).committed
    rw [hcommitted]
    exact h.keyed
  · show Writes (σ.db.rollback i).committed w
    rw [hcommitted]
    exact h.writes j w (Db.rollback_writer hwriter).1
  · show Spent k (σ.db.rollback i).committed
    rw [hcommitted]
    exact h.spent k hk
  · by_cases hj : j = i
    · simp [Sys.setPhase, hj] at hphase
    · simp only [Sys.setPhase, hj, if_false] at hphase
      exact h.granted j plan hphase
  · by_cases hj : j = i
    · simp [Sys.setPhase, hj] at hphase
    · simp only [Sys.setPhase, hj, if_false] at hphase
      rcases h.plans j plan hphase with hopening | ⟨w, hwriter, hopened⟩
      · left
        show Opening (σ.db.rollback i).committed plan
        rw [hcommitted]
        exact hopening
      · right
        refine ⟨w, ?_, hopened⟩
        show (σ.db.rollback i).writer = some (j, w)
        simp [Db.rollback, hwriter, hj]

/-- A statement that fails leaves its transaction open. -/
lemma sound_hold (h : Sound log σ) {i : ℕ} {s s' : Tables} (hbase : σ.db.base i = some s)
    (hwrites : Writes σ.db.committed s') {p : Phase}
    (hp : ∀ plan, p = .writing plan → (∀ stmt ∈ plan.stmts, stmt.Granted) ∧ Opened s' plan ∧
      ∀ k hashes, plan.issues = some (k, hashes) → k ∉ Concurrent.spent log) :
    Sound log ({ σ with db := σ.db.hold i s' }.setPhase i p) := by
  refine ⟨h.keyed, fun j w hwriter => ?_, h.spent, h.once, h.fresh, fun j plan hphase => ?_,
    fun j plan hphase => ?_⟩
  · obtain ⟨rfl, rfl⟩ := Prod.mk.inj (Option.some.inj hwriter)
    exact hwrites
  · by_cases hj : j = i
    · simp only [Sys.setPhase, hj, if_true] at hphase
      exact (hp plan hphase).1
    · simp only [Sys.setPhase, hj, if_false] at hphase
      exact h.granted j plan hphase
  · by_cases hj : j = i
    · simp only [Sys.setPhase, hj, if_true] at hphase
      exact .inr ⟨s', by rw [hj]; rfl, (hp plan hphase).2⟩
    · simp only [Sys.setPhase, hj, if_false] at hphase
      rcases h.plans j plan hphase with hopening | ⟨w, hwriter, -⟩
      · exact .inl hopening
      · -- the lock is free or ours, so no other call is inside its transaction
        rcases Db.base_eq_some.mp hbase with ⟨hnone, -⟩ | hours
        · rw [hnone] at hwriter
          cases hwriter
        · rw [hours] at hwriter
          exact absurd (Prod.mk.inj (Option.some.inj hwriter)).1.symm hj

/-- The base of a write has executed statements since the committed state. -/
lemma Sound.writes_base (h : Sound log σ) {i : ℕ} {s : Tables} (hbase : σ.db.base i = some s) :
    Writes σ.db.committed s := by
  rcases Db.base_eq_some.mp hbase with ⟨-, rfl⟩ | hours
  · exact .refl
  · exact h.writes i s hours

/-- What a call commits is spent from then on. -/
lemma sound_commit (h : Sound log σ) {i : ℕ} {issues : Option (Credential × List String)}
    (hphase : σ.phase i = .writing ⟨[], issues⟩) :
    Sound (log ++ (issues.map fun (k, hashes) => Shown.issued i k hashes).toList)
      ({ σ with db := σ.db.commit i }.setPhase i .finished) := by
  have hplan := h.plans i ⟨[], issues⟩ hphase
  have hwrites : Writes σ.db.committed (σ.db.commit i).committed := by
    rcases Db.commit_cases i σ.db with ⟨hsame, -⟩ | ⟨w, hwriter, hcommit⟩
    · rw [hsame]
      exact .refl
    · rw [hcommit]
      exact h.writes i w hwriter
  have hnew : ∀ k hashes, issues = some (k, hashes) →
      Spent k (σ.db.commit i).committed ∧ k ∉ Concurrent.spent log := by
    intro k hashes hissues
    rcases hplan with hopening | ⟨w, hwriter, hopened, hnot⟩
    · rw [hissues] at hopening
      cases hopening
    · have hcommit : σ.db.commit i = .idle w := by simp [Db.commit, hwriter]
      refine ⟨?_, hnot k hashes hissues⟩
      rw [hcommit]
      rcases hopened k hashes hissues with hspent | ⟨requestId, now, -, hstmts⟩
      · exact hspent
      · cases hstmts
  have hspent : Concurrent.spent
      (log ++ (issues.map fun (k, hashes) => Shown.issued i k hashes).toList) =
      Concurrent.spent log ++ (issues.map Prod.fst).toList := by
    rw [spent_append]
    cases issues with
    | none => rfl
    | some issued => rfl
  refine ⟨hwrites.keyed h.keyed, fun j w hwriter => ?_, fun k hk => ?_, ?_, fun j old hmem => ?_,
    fun j plan hj => ?_, fun j plan hj => ?_⟩
  · rcases Db.commit_cases i σ.db with ⟨hsame, -⟩ | ⟨w', -, hcommit⟩
    · simp only [Sys.setPhase, hsame] at hwriter ⊢
      exact h.writes j w hwriter
    · simp only [Sys.setPhase, hcommit, Db.idle] at hwriter
      cases hwriter
  · rw [hspent] at hk
    rcases List.mem_append.mp hk with hold | hlast
    · exact hwrites.spent (h.spent k hold)
    · obtain ⟨issued, hissued, rfl⟩ := Option.map_eq_some_iff.mp (Option.mem_toList.mp hlast)
      exact (hnew issued.1 issued.2 hissued).1
  · rw [hspent]
    cases hissues : issues with
    | none => simpa using h.once
    | some issued =>
      refine List.nodup_append.mpr ⟨h.once, List.nodup_singleton _, fun k hk k' hk' => ?_⟩
      rw [List.mem_singleton.mp hk']
      intro heq
      exact (hnew issued.1 issued.2 hissues).2 (heq ▸ hk)
  · rcases List.mem_append.mp hmem with hold | hlast
    · exact h.fresh j old hold
    · cases issues with
      | none => cases hlast
      | some issued => cases List.mem_singleton.mp hlast
  · by_cases hji : j = i
    · simp [Sys.setPhase, hji] at hj
    · simp only [Sys.setPhase, hji, if_false] at hj
      exact h.granted j plan hj
  · by_cases hji : j = i
    · simp [Sys.setPhase, hji] at hj
    · simp only [Sys.setPhase, hji, if_false] at hj
      rcases h.plans j plan hj with hopening | ⟨w, hwriter, hopened, hnot⟩
      · exact .inl (hwrites.opening hopening)
      · -- another call is inside its transaction, so this one had written nothing
        right
        have hsame : σ.db.commit i = σ.db := by simp [Db.commit, hwriter, hji]
        refine ⟨w, ?_, hopened, fun k hashes hk => ?_⟩
        · show (σ.db.commit i).writer = some (j, w)
          rw [hsame]
          exact hwriter
        · rw [hspent]
          have hnone : issues = none := by
            rcases hplan with hopening | ⟨w', hours, -⟩
            · cases hopening
              rfl
            · rw [hwriter] at hours
              exact absurd (Prod.mk.inj (Option.some.inj hours)).1 hji
          rw [hnone]
          simpa using hnot k hashes hk

/-- Under the condition, the first statement of a call finds its credential unspent, whatever the
operation. -/
lemma unspent_of_undisturbed {i : ℕ} {s s' : Tables} {stmt : Stmt} {stmts : List Stmt}
    {issues : Option (Credential × List String)}
    (hphase : σ.phase i = .writing ⟨stmt :: stmts, issues⟩) (hbase : σ.db.base i = some s)
    (hopening : Opening s ⟨stmt :: stmts, issues⟩) (hC : Undisturbed σ (.advance i))
    (hexec : stmt.exec s = some s') {k : Credential} {hashes : List String}
    (hissues : issues = some (k, hashes)) : ¬ Spent k s := by
  have hcode := (opened_of_exec hopening hexec).2
  simp only [Undisturbed, hphase] at hC
  cases hopening with
  | nothing => cases hissues
  | poll =>
    cases hissues
    exact hC _ rfl s hbase
  | exchangeCode =>
    cases hissues
    exact hcode _ _ rfl
  | refresh hgrant hexists hall =>
    cases hissues
    exact hC _ rfl s hbase

/-- Under the condition, no revoking UPDATE of a `refresh` finds its token revoked. -/
lemma shows_eq_nil {i : ℕ} {s : Tables} {stmt : Stmt} {stmts : List Stmt}
    {issues : Option (Credential × List String)} (h : Sound log σ)
    (hphase : σ.phase i = .writing ⟨stmt :: stmts, issues⟩) (hbase : σ.db.base i = some s)
    (hC : Undisturbed σ (.advance i)) : shows i s stmt issues = [] := by
  unfold shows
  split
  · rename_i grantId now old hashes
    split
    · rename_i hrevoked
      simp only [Undisturbed, hphase] at hC
      have hunspent := hC _ rfl s hbase
      have hall : ∀ t ∈ s.tokens, t.tokenHash = old → t.revokedMs ≠ none := by
        intro t ht hhash
        have hone := List.all_eq_true.mp hrevoked t ht
        simpa [hhash] using hone
      rcases h.plans i _ hphase with hopening | ⟨w, hwriter, hopened, -⟩
      · cases (h.writes_base hbase).opening hopening with
        | refresh hgrant hexists hsame => exact absurd ⟨hexists, hall⟩ hunspent
      · rcases Db.base_eq_some.mp hbase with ⟨hnone, -⟩ | hours
        · rw [hnone] at hwriter
          cases hwriter
        · rw [hours] at hwriter
          obtain rfl := (Prod.mk.inj (Option.some.inj hwriter)).2
          rcases hopened _ _ rfl with hspent | ⟨requestId, time, hrequest, -⟩
          · exact absurd hspent hunspent
          · cases hrequest
    · rfl
  · rfl

lemma sound_advance (h : Sound log σ) (P : Platform) (i : ℕ) (hC : Undisturbed σ (.advance i)) :
    Sound (log ++ (advance P σ i).2) (advance P σ i).1 := by
  have hsame : ∀ {τ : Sys}, Sound log τ → Sound (log ++ []) τ := by simp
  unfold advance
  split
  · -- the read
    rename_i c hphase
    split
    · exact hsame (h.setPhase i fun plan hplan => by cases hplan)
    · rename_i plan hselect
      refine hsame (h.setPhase i fun plan' hplan => ?_)
      cases hplan
      exact select_opening h.keyed hselect
  · exact sound_commit h ‹_›
  · -- a write
    rename_i stmt stmts issues hphase
    split
    · exact hsame h
    rename_i s hbase
    have hwrites := h.writes_base hbase
    have hgranted := h.granted i _ hphase
    split
    · rw [shows_eq_nil h hphase hbase hC]
      exact hsame (sound_hold h hbase hwrites fun plan hplan => by cases hplan)
    · rename_i s' hexec
      rw [shows_eq_nil h hphase hbase hC]
      have hlater : Writes σ.db.committed s' :=
        .tail hwrites (hgranted stmt List.mem_cons_self) hexec
      refine hsame (sound_hold h hbase hlater fun plan hplan => ?_)
      cases hplan
      refine ⟨fun st hst => hgranted st (List.mem_cons_of_mem _ hst), ?_⟩
      rcases h.plans i _ hphase with hopening | ⟨w, hwriter, hopened, hnot⟩
      · have hopen := hwrites.opening hopening
        refine ⟨(opened_of_exec hopen hexec).1, fun k hashes hissues hmem => ?_⟩
        exact unspent_of_undisturbed hphase hbase hopen hC hexec hissues
          (hwrites.spent (h.spent k hmem))
      · have hw : w = s := by
          rcases Db.base_eq_some.mp hbase with ⟨hnone, -⟩ | hours
          · rw [hnone] at hwriter
            cases hwriter
          · rw [hours] at hwriter
            exact (Prod.mk.inj (Option.some.inj hwriter)).2.symm
        subst hw
        exact ⟨opened_tail hopened hexec, hnot⟩
  · exact hsame h

/-- One step. -/
theorem sound_step (h : Sound log σ) (P : Platform) (label : Label) (hC : Undisturbed σ label) :
    Sound (log ++ (step P σ label).2) (step P σ label).1 := by
  have hsame : ∀ {τ : Sys}, Sound log τ → Sound (log ++ []) τ := by simp
  cases label with
  | call i c =>
    simp only [step]
    split
    · exact hsame (h.setPhase i fun plan hplan => by cases hplan)
    · exact hsame h
  | advance i => exact sound_advance h P i hC
  | fail i => exact hsame (h.setPhase i fun plan hplan => by cases hplan)
  | close i => exact hsame (sound_close h i)

end Steps

/-! ## A call that nobody disturbs -/

/-- The operation a call is. -/
def Call.op : Call → Op
  | poll requestId secret now => .poll requestId secret now
  | exchangeCode r grantId access refreshToken now =>
    .exchangeCode r grantId access refreshToken now
  | refresh refreshToken clientId freshGrant access newRefresh now =>
    .refresh refreshToken clientId freshGrant access newRefresh now
  | revokeAll now => .revokeAll now

/-- What a call leaves behind when no other one comes between its statements. -/
def alone (P : Platform) (s : Tables) (c : Call) : Tables :=
  match select P s c with
  | none => s
  | some plan => (plan.stmts.foldlM Stmt.exec s).getD s

lemma foldlM_insertPair (P : Platform) (clientId : String) (now : ℤ)
    (grantId access refreshToken : String) (s : Tables) :
    (insertPair P clientId now grantId access refreshToken).foldlM Stmt.exec s =
      (issue P clientId now grantId access refreshToken s).toOption.map Prod.snd := by
  simp only [insertPair, issue, List.foldlM_cons, List.foldlM_nil, Stmt.exec, orStop]
  cases hfirst : Table.insert Token.tokenHash (accessRow P clientId now grantId access) s.tokens with
  | none => rfl
  | some tokens =>
    cases hsecond : Table.insert Token.tokenHash
        (refreshRow P clientId now grantId refreshToken) tokens with
    | none => simp [bind, Except.bind, hsecond, Except.toOption]
    | some tokens' =>
      simp [bind, Except.bind, hsecond, Except.toOption, pure, Except.pure]

/-- `exchange_code` is its checks, its conditional UPDATE and `_issue`. -/
lemma exchangeCode_eq {P : Platform} {r : ExchangeRequest} {codeHash : String} {row : Code}
    {s : Tables} (hhash : hash P r.code = some codeHash)
    (hrow : Table.find Code.codeHash codeHash s.codes = some row)
    (grantId access refreshToken : String) (now : ℤ) :
    exchangeCode P r grantId access refreshToken now s =
      (checkCode P r now row >>= fun _ =>
        issue P row.clientId now grantId access refreshToken (consumeCode row.codeHash now s) >>=
          fun out => pure ((row.codeHash, out.1), out.2)) := by
  simp only [exchangeCode, checkCode, hhash, orStop, Option.elim_some, ok_bind, hrow, bind_assoc]

/-- The count that `exchange_code` checks is one for a code that is there and unused. -/
lemma length_unused {s : Tables} (hkeyed : Keyed s) {row : Code} (hrow : row ∈ s.codes)
    (hconsumed : row.consumedMs = none) :
    (s.codes.filter fun c => c.codeHash = row.codeHash ∧ c.consumedMs = none).length = 1 := by
  have hnodup : s.codes.Nodup := List.Nodup.of_map _ hkeyed.codes
  have hperm : s.codes.filter (fun c => c.codeHash = row.codeHash ∧ c.consumedMs = none) = [row] := by
    apply List.perm_singleton.mp
    refine (List.perm_ext_iff_of_nodup (hnodup.filter _) (List.nodup_singleton row)).mpr fun c => ?_
    simp only [List.mem_filter, decide_eq_true_eq, List.mem_singleton]
    constructor
    · rintro ⟨hc, hhash, -⟩
      exact hkeyed.codes.eq_of_key_eq hc hrow hhash
    · rintro rfl
      exact ⟨hrow, rfl, hconsumed⟩
  rw [hperm]
  rfl

lemma poll_eq_alone (P : Platform) (S : Stdlib) (s : Tables) (requestId : PyStr) (secret : String)
    (now : ℤ) :
    (OAuth.step P S s (.poll requestId secret now)).1 = alone P s (.poll requestId secret now) := by
  simp only [OAuth.step, poll, alone, select, orStop]
  cases requestId.encode with
  | none => rfl
  | some id =>
    simp only [Option.elim_some, Option.bind_some, bind, Except.bind]
    cases Table.find Pending.requestId id s.pending with
    | none => rfl
    | some row =>
      simp only [Option.bind_some]
      split_ifs with hnot
      · rfl
      · cases hinsert : Table.insert Code.codeHash (codeRow P secret now row) s.codes with
        | none =>
          have hraw := hinsert
          unfold codeRow at hraw
          simp [hraw, hinsert, Stmt.exec]
        | some codes =>
          have hraw := hinsert
          unfold codeRow at hraw
          simp [hraw, hinsert, Stmt.exec, pure, Except.pure]

lemma exchangeCode_eq_alone (P : Platform) (S : Stdlib) {s : Tables} (hkeyed : Keyed s)
    (r : ExchangeRequest) (grantId access refreshToken : String) (now : ℤ) :
    (OAuth.step P S s (.exchangeCode r grantId access refreshToken now)).1 =
      alone P s (.exchangeCode r grantId access refreshToken now) := by
  simp only [OAuth.step, alone, select]
  cases hhash : hash P r.code with
  | none => simp [exchangeCode, hhash, orStop, bind, Except.bind]
  | some codeHash =>
    cases hrow : Table.find Code.codeHash codeHash s.codes with
    | none => simp [exchangeCode, hhash, hrow, orStop, bind, Except.bind]
    | some row =>
      rw [exchangeCode_eq hhash hrow]
      simp only [Option.bind_eq_bind, Option.bind_some, hrow]
      cases hcheck : checkCode P r now row with
      | error e => rfl
      | ok u =>
        have hmem := (Table.mem_of_find_eq_some hrow).1
        have hconsumed : row.consumedMs = none := by
          simp only [checkCode, bind_eq_ok, require_eq_ok] at hcheck
          obtain ⟨-, hconsumed, -⟩ := hcheck
          exact hconsumed
        simp only [List.foldlM_cons, Stmt.exec, length_unused hkeyed hmem hconsumed, if_true,
          Option.bind_eq_bind, Option.bind_some, foldlM_insertPair]
        cases issue P row.clientId now grantId access refreshToken (consumeCode row.codeHash now s) with
        | error e => rfl
        | ok out => rfl

lemma refresh_eq_alone (P : Platform) (S : Stdlib) (s : Tables) (refreshToken clientId : PyStr)
    (freshGrant access newRefresh : String) (now : ℤ) :
    (OAuth.step P S s (.refresh refreshToken clientId freshGrant access newRefresh now)).1 =
      alone P s (.refresh refreshToken clientId freshGrant access newRefresh now) := by
  rw [step_refresh]
  simp only [refresh, alone, select]
  cases hash P refreshToken with
  | none => rfl
  | some oldHash =>
    simp only [Option.bind_eq_bind, Option.bind_some]
    cases s.tokens.find? fun t => t.tokenHash = oldHash ∧ t.kind = .refresh with
    | none => rfl
    | some row =>
      simp only [Option.bind_some]
      split_ifs with hrevoked hexpired
      · rfl
      · rfl
      · cases compareDigest clientId (.text row.clientId) with
        | none => rfl
        | some same =>
          cases same with
          | false => rfl
          | true =>
            simp only [List.foldlM_cons, Stmt.exec, Option.bind_eq_bind, Option.bind_some,
              foldlM_insertPair]
            cases issue P row.clientId now (row.grantId.getD freshGrant) access newRefresh
              (OAuth.revokeFamily row.grantId now s) with
            | error e => rfl
            | ok out => rfl

/-- **The statements of a call are the operation**, where nobody disturbs it. -/
theorem step_eq_alone (P : Platform) (S : Stdlib) {s : Tables} (hkeyed : Keyed s) (c : Call) :
    (OAuth.step P S s c.op).1 = alone P s c := by
  cases c with
  | poll requestId secret now => exact poll_eq_alone P S s requestId secret now
  | exchangeCode r grantId access refreshToken now =>
    exact exchangeCode_eq_alone P S hkeyed r grantId access refreshToken now
  | refresh refreshToken clientId freshGrant access newRefresh now =>
    exact refresh_eq_alone P S s refreshToken clientId freshGrant access newRefresh now
  | revokeAll now => rfl

lemma writes_foldlM {s s' : Tables} {stmts : List Stmt} (hgranted : ∀ stmt ∈ stmts, stmt.Granted)
    (h : stmts.foldlM Stmt.exec s = some s') {t : Tables} (ht : Writes t s) : Writes t s' := by
  induction stmts generalizing s with
  | nil =>
    obtain rfl := Option.some.inj h
    exact ht
  | cons stmt stmts ih =>
    simp only [List.foldlM_cons, Option.bind_eq_bind, Option.bind_eq_some_iff] at h
    obtain ⟨u, hexec, hrest⟩ := h
    exact ih (fun st hst => hgranted st (List.mem_cons_of_mem _ hst)) hrest
      (.tail ht (hgranted stmt List.mem_cons_self) hexec)

lemma keyed_alone (P : Platform) {s : Tables} (hkeyed : Keyed s) (c : Call) :
    Keyed (alone P s c) := by
  unfold alone
  split
  · exact hkeyed
  · rename_i plan hselect
    cases hfold : plan.stmts.foldlM Stmt.exec s with
    | none => exact hkeyed
    | some s' => exact (writes_foldlM (select_opening hkeyed hselect).2 hfold .refl).keyed hkeyed

/-! ## Runs -/

lemma keyed_of_sublist {s s' : Tables} (h : Keyed s) (hcodes : s'.codes.Sublist s.codes)
    (htokens : s'.tokens.Sublist s.tokens) : Keyed s' :=
  ⟨h.codes.sublist (hcodes.map _), h.unique.sublist (htokens.map _),
    fun t ht => h.granted t (htokens.subset ht)⟩

lemma keyed_step {P : Platform} {S : Stdlib} {s : Tables} (h : Keyed s) (op : Op) :
    Keyed (OAuth.step P S s op).1 := by
  have hcall : ∀ c : Call, Keyed (OAuth.step P S s c.op).1 := fun c => by
    rw [step_eq_alone P S h c]
    exact keyed_alone P h c
  cases op with
  | registerClient name uris clientId now =>
    simp only [OAuth.step]
    split
    · obtain ⟨client, rfl⟩ := registerClient_spec ‹_›
      exact ⟨h.codes, h.unique, h.granted⟩
    · exact h
  | beginAuthorization r requestId userCode now =>
    have hcollected : Keyed (collectExpired now s) :=
      keyed_of_sublist h List.filter_sublist List.filter_sublist
    simp only [OAuth.step, beginAuthorization]
    split
    · obtain ⟨request, -, -, -, -, -, rfl⟩ := insertPending_spec ‹_›
      exact ⟨hcollected.codes, hcollected.unique, hcollected.granted⟩
    · exact hcollected
  | approve userCode now =>
    simp only [OAuth.step]
    split
    · obtain ⟨row, -, -, -, -, rfl⟩ := approve_spec ‹_›
      exact ⟨h.codes, h.unique, h.granted⟩
    · exact h
  | poll id secret now => exact hcall (.poll id secret now)
  | exchangeCode r grantId access refreshToken now =>
    exact hcall (.exchangeCode r grantId access refreshToken now)
  | refresh refreshToken clientId freshGrant access newRefresh now =>
    exact hcall (.refresh refreshToken clientId freshGrant access newRefresh now)
  | collectExpired now => exact keyed_of_sublist h List.filter_sublist List.filter_sublist
  | revokeAll now => exact hcall (.revokeAll now)

lemma keyed_run (P : Platform) (S : Stdlib) (before : List Op) :
    Keyed (Run.final (OAuth.step P S) .empty before) := by
  have hempty : Keyed .empty := ⟨List.nodup_nil, List.nodup_nil, fun t ht => by cases ht⟩
  exact Run.invariant (I := Keyed) (fun s op h => keyed_step h op) hempty before

section Sample

/-- One approved request. -/
def sampleApproved : Tables :=
  Run.final (OAuth.step samplePlatform sampleStdlib) .empty (sampleBegin ++ [sampleApprove])

/-- One pair of tokens. -/
def sampleGranted : Tables :=
  Run.final (OAuth.step samplePlatform sampleStdlib) .empty
    (sampleBegin ++ sampleApprove :: sampleRedeem)

def samplePoll (i : ℕ) (secret : String) : Label := .call i (.poll (.text "wvr_1") secret 4000)

def sampleRefresh (i : ℕ) (access refreshToken : String) : Label :=
  .call i (.refresh (.text "refresh-1") (.text "wvc_1") "wvg_2" access refreshToken 6000)

/-- Two polls that both read before either writes. -/
def racingPolls : List Label :=
  [samplePoll 0 "code-1", samplePoll 1 "code-2", .advance 0, .advance 1] ++
    List.replicate 3 (.advance 0) ++ List.replicate 3 (.advance 1)

/-- A refresh that reads before a `revoke_all` and writes after it. -/
def overtakenRefresh : List Label :=
  [sampleRefresh 0 "access-2" "refresh-2", .advance 0, .call 1 (.revokeAll 6000)] ++
    List.replicate 3 (.advance 1) ++ List.replicate 4 (.advance 0)

end Sample

end WhatsVault.OAuth.Concurrent
