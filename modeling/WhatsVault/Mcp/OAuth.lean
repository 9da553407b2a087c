import WhatsVault.Json
import WhatsVault.Library.Checks
import WhatsVault.Library.Table
import WhatsVault.Platform

/-!
# The OAuth authorization server

The operations of `mcp/oauth.py` on its four tables, each as one atomic step.  An operation that
returns commits all it wrote; one that raises leaves the tables as they were, with the two exceptions
the code makes: `begin_authorization` commits its collection before it checks anything, and `refresh`
commits the revocation of a family before it refuses a reused token.

The secrets and ids an operation draws are its arguments, and the INSERT that stores one checks its
key.  `Event` is what the operation log of a deployment would show: which request was approved, which
code came out of it, which pair of tokens came out of that.  Times are the integers SQLite stores.
-/

namespace WhatsVault.OAuth

open Checks

def readOnlyScope : String := "whatsvault.read"

def codeTtlMs : ℤ := 60000
def pendingTtlMs : ℤ := 600000
def accessTtlMs : ℤ := 3600000
def refreshTtlMs : ℤ := 30 * 24 * 3600000
def maxStateLen : ℕ := 512
def maxChallengeLen : ℕ := 128
def minChallengeLen : ℕ := 43
def maxRedirectLen : ℕ := 512
def maxRedirectUris : ℕ := 10
def maxClientNameLen : ℕ := 200
def maxPending : ℕ := 25

/-! ## The tables -/

/-- A row of `oauth_clients`.  The list of URIs is kept as the JSON text it round-trips through. -/
structure Client where
  clientId : String
  clientName : String
  redirectUris : List PyStr
  createdMs : ℤ
  deriving DecidableEq

/-- A row of `oauth_pending`. -/
structure Pending where
  requestId : String
  userCode : String
  clientId : String
  redirectUri : String
  state : Option String
  codeChallenge : String
  scope : String
  createdMs : ℤ
  expiresMs : ℤ
  approvedMs : Option ℤ
  collectedMs : Option ℤ
  deriving DecidableEq

/-- A row of `oauth_codes`. -/
structure Code where
  codeHash : String
  clientId : String
  redirectUri : String
  codeChallenge : String
  scope : String
  issuedMs : ℤ
  expiresMs : ℤ
  consumedMs : Option ℤ
  deriving DecidableEq

inductive TokenKind
  | access
  | refresh
  deriving DecidableEq, Repr

/-- A row of `oauth_tokens`. -/
structure Token where
  tokenHash : String
  kind : TokenKind
  clientId : String
  scope : String
  issuedMs : ℤ
  expiresMs : ℤ
  revokedMs : Option ℤ
  grantId : Option String
  deriving DecidableEq

structure Tables where
  clients : List Client
  pending : List Pending
  codes : List Code
  tokens : List Token
  deriving DecidableEq

def Tables.empty : Tables := ⟨[], [], [], []⟩

/-- An `OAuthError` with its code and description, or an exception of another kind. -/
inductive Refusal
  | oauth (code description : String)
  | raised
  deriving DecidableEq, Repr

inductive Event
  | approved (requestId : String)
  | codeIssued (requestId codeHash : String)
  | pairIssued (codeHash accessHash refreshHash : String)
  | refreshed (oldHash accessHash refreshHash : String)
  | revokedAll
  deriving DecidableEq, Repr

/-! ## Strings and hashes -/

/-- `_hash`: raises on a lone surrogate. -/
def hash (P : Platform) (value : PyStr) : Option String :=
  value.encode.map fun s => P.hexdigest (utf8 s)

def isAscii (s : PyStr) : Bool := s.codes.all (· < 128)

/-- `hmac.compare_digest` on two strings: raises unless both are ASCII. -/
def compareDigest (a b : PyStr) : Option Bool :=
  if isAscii a ∧ isAscii b then some (a = b) else none

/-- `compare_digest` does not raise. -/
def Comparable (a b : PyStr) : Prop := isAscii a = true ∧ isAscii b = true

instance (a b : PyStr) : Decidable (Comparable a b) := inferInstanceAs (Decidable (_ ∧ _))

lemma compareDigest_eq_none {a b : PyStr} : compareDigest a b = none ↔ ¬ Comparable a b := by
  unfold compareDigest
  exact ite_eq_right_iff.trans (by simp [Comparable])

lemma compareDigest_eq_some {a b : PyStr} {same : Bool} :
    compareDigest a b = some same ↔ Comparable a b ∧ decide (a = b) = same := by
  unfold compareDigest Comparable
  split
  · rename_i h
    simp [h]
  · rename_i h
    simp [h]

/-- `any(compare_digest(provided, known) for known in registered)`. -/
def anyEqual (provided : PyStr) : List PyStr → Option Bool
  | [] => some false
  | known :: rest => do
    let same ← compareDigest provided known
    if same then pure true else anyEqual provided rest

/-- `_bounded`, on a value that is already a string. -/
def bounded (value : PyStr) (limit : ℕ) (field : String) : Except Refusal Unit :=
  require (value.length ≤ limit)
    (.oauth "invalid_request" (field ++ " exceeds " ++ toString limit ++ " characters"))

def base64Digit (n : ℕ) : Char :=
  if n < 26 then Char.ofNat (65 + n)
  else if n < 52 then Char.ofNat (71 + n)
  else if n < 62 then Char.ofNat (n - 4)
  else if n = 62 then '-' else '_'

/-- `base64.urlsafe_b64encode(b).rstrip(b"=")`. -/
def base64url : Bytes → List Char
  | [] => []
  | [x] => [base64Digit (x.toNat / 4), base64Digit (x.toNat % 4 * 16)]
  | [x, y] =>
    [base64Digit (x.toNat / 4), base64Digit (x.toNat % 4 * 16 + y.toNat / 16),
      base64Digit (y.toNat % 16 * 4)]
  | x :: y :: z :: rest =>
    [base64Digit (x.toNat / 4), base64Digit (x.toNat % 4 * 16 + y.toNat / 16),
      base64Digit (y.toNat % 16 * 4 + z.toNat / 64), base64Digit (z.toNat % 64)] ++ base64url rest

/-- `s.encode("ascii", "ignore")`. -/
def asciiIgnore (s : PyStr) : Bytes := (s.codes.filter (· < 128)).map UInt8.ofNat

/-- The S256 challenge of a verifier. -/
def challengeOf (P : Platform) (verifier : PyStr) : String :=
  String.ofList (base64url (P.sha256 (asciiIgnore verifier)))

/-! ## Clients and authorization requests -/

/-- One redirect URI of a registration. -/
def checkUri (uri : PyStr) : Except Refusal Unit := do
  bounded uri maxRedirectLen "redirect_uri"
  require ((PyStr.text "https://").codes.isPrefixOf uri.codes)
    (.oauth "invalid_redirect_uri" "redirect_uri must be https")
  require ('#'.toNat ∉ uri.codes)
    (.oauth "invalid_redirect_uri" "redirect_uri must not carry a fragment")

/-- The name of a client, cut to length; `none` where it cannot be bound. -/
def clientName (name : PyStr) : Option String :=
  match name with
  | .text s => some (String.ofList (s.toList.take maxClientNameLen))
  | .lone codes _ =>
    let cut := codes.take maxClientNameLen
    if ∃ c ∈ cut, 0xD800 ≤ c ∧ c < 0xE000 then none
    else some (String.ofList (cut.map Char.ofNat))

/-- `register_client`. -/
def registerClient (name : PyStr) (redirectUris : List PyStr) (clientId : String) (now : ℤ)
    (s : Tables) : Except Refusal Tables := do
  require (redirectUris ≠ [])
    (.oauth "invalid_redirect_uri" "at least one redirect_uri is required")
  require (redirectUris.length ≤ maxRedirectUris)
    (.oauth "invalid_redirect_uri" ("at most " ++ toString maxRedirectUris ++ " redirect_uris"))
  redirectUris.forM checkUri
  let name ← orStop (clientName name) .raised
  let clients ← orStop (Table.insert Client.clientId ⟨clientId, name, redirectUris, now⟩ s.clients)
    .raised
  pure { s with clients := clients }

/-- `collect_expired`. -/
def collectExpired (now : ℤ) (s : Tables) : Tables where
  clients := s.clients
  pending := s.pending.filter fun p => now < p.expiresMs
  codes := s.codes.filter fun c => now < c.expiresMs
  tokens := s.tokens.filter fun t => now < t.expiresMs

/-- `_client`. -/
def findClient (s : Tables) (clientId : PyStr) : Except Refusal Client := do
  let clientId ← orStop clientId.encode .raised
  orStop (Table.find Client.clientId clientId s.clients) (.oauth "invalid_client" "unknown client")

/-- `_check_redirect`. -/
def checkRedirect (row : Client) (redirectUri : PyStr) : Except Refusal Unit := do
  let registered ← orStop (anyEqual redirectUri row.redirectUris) .raised
  require registered
    (.oauth "invalid_redirect_uri" "redirect_uri is not registered for this client")

/-- The arguments of `begin_authorization`; the scope asked for is ignored. -/
structure AuthorizationRequest where
  clientId : PyStr
  redirectUri : PyStr
  codeChallenge : PyStr
  codeChallengeMethod : PyStr
  state : Option PyStr
  deriving DecidableEq

/-- The state as it is bound, NULL where there is none. -/
def bindState : Option PyStr → Option (Option String)
  | none => some none
  | some state => state.encode.map some

/-- `begin_authorization` after its collection. -/
def insertPending (S : Stdlib) (r : AuthorizationRequest) (requestId userCode : String) (now : ℤ)
    (s : Tables) : Except Refusal Tables := do
  let live := (s.pending.filter fun p => p.approvedMs = none ∧ now < p.expiresMs).length
  require (live < maxPending)
    (.oauth "temporarily_unavailable" "too many pending authorizations")
  let client ← findClient s r.clientId
  checkRedirect client r.redirectUri
  r.state.forM fun state => bounded state maxStateLen "state"
  require (r.codeChallenge.truthy) (.oauth "invalid_request" "PKCE is required")
  bounded r.codeChallenge maxChallengeLen "code_challenge"
  require (minChallengeLen ≤ r.codeChallenge.length)
    (.oauth "invalid_request" "code_challenge is too short for S256")
  require (S.upper r.codeChallengeMethod = .text "S256")
    (.oauth "invalid_request" "code_challenge_method must be S256")
  let redirectUri ← orStop r.redirectUri.encode .raised
  let challenge ← orStop r.codeChallenge.encode .raised
  let state ← orStop (bindState r.state) .raised
  require (∀ p ∈ s.pending, p.requestId ≠ requestId ∧ p.userCode ≠ userCode) .raised
  let row := ⟨requestId, userCode, client.clientId, redirectUri, state, challenge, readOnlyScope,
    now, now + pendingTtlMs, none, none⟩
  pure { s with pending := s.pending ++ [row] }

/-- `begin_authorization`. -/
def beginAuthorization (S : Stdlib) (r : AuthorizationRequest) (requestId userCode : String)
    (now : ℤ) (s : Tables) : Tables × Except Refusal Unit :=
  let collected := collectExpired now s
  match insertPending S r requestId userCode now collected with
  | .ok s' => (s', .ok ())
  | .error e => (collected, .error e)

/-! ## Approval, codes and tokens -/

def setPending (requestId : String) (f : Pending → Pending) (s : Tables) : Tables :=
  { s with pending := s.pending.map fun p => if p.requestId = requestId then f p else p }

/-- `approve`: the id of the request it approved. -/
def approve (S : Stdlib) (userCode : PyStr) (now : ℤ) (s : Tables) :
    Except Refusal (String × Tables) := do
  let code ← orStop (S.upper (S.strip userCode)).encode .raised
  let row ← orStop (Table.find Pending.userCode code s.pending)
    (.oauth "invalid_request" "no such pending authorization")
  require (row.approvedMs = none) (.oauth "invalid_request" "already approved")
  require (now ≤ row.expiresMs) (.oauth "expired_token" "authorization request expired")
  pure (row.requestId, setPending row.requestId (fun p => { p with approvedMs := some now }) s)

/-- `poll`: the request and code row of the code it hands over, if it does. -/
def poll (P : Platform) (requestId : PyStr) (secret : String) (now : ℤ) (s : Tables) :
    Except Refusal (Option (String × Code) × Tables) := do
  let requestId ← orStop requestId.encode .raised
  match Table.find Pending.requestId requestId s.pending with
  | none => pure (none, s)
  | some row =>
    if row.approvedMs = none ∨ row.collectedMs ≠ none ∨ row.expiresMs < now then pure (none, s)
    else
      let code := ⟨P.hexdigest (utf8 secret), row.clientId, row.redirectUri, row.codeChallenge,
        row.scope, now, now + codeTtlMs, none⟩
      let codes ← orStop (Table.insert Code.codeHash code s.codes) .raised
      pure (some (row.requestId, code), setPending row.requestId
        (fun p => { p with collectedMs := some now }) { s with codes := codes })

def accessRow (P : Platform) (clientId : String) (now : ℤ) (grantId access : String) : Token where
  tokenHash := P.hexdigest (utf8 access)
  kind := .access
  clientId := clientId
  scope := readOnlyScope
  issuedMs := now
  expiresMs := now + accessTtlMs
  revokedMs := none
  grantId := some grantId

def refreshRow (P : Platform) (clientId : String) (now : ℤ) (grantId refreshToken : String) :
    Token where
  tokenHash := P.hexdigest (utf8 refreshToken)
  kind := .refresh
  clientId := clientId
  scope := readOnlyScope
  issuedMs := now
  expiresMs := now + refreshTtlMs
  revokedMs := none
  grantId := some grantId

/-- `_issue`: the hashes of the pair it stored. -/
def issue (P : Platform) (clientId : String) (now : ℤ) (grantId : String)
    (access refreshToken : String) (s : Tables) : Except Refusal ((String × String) × Tables) := do
  let accessRow := accessRow P clientId now grantId access
  let refreshRow := refreshRow P clientId now grantId refreshToken
  let tokens ← orStop (Table.insert Token.tokenHash accessRow s.tokens) .raised
  let tokens ← orStop (Table.insert Token.tokenHash refreshRow tokens) .raised
  pure ((accessRow.tokenHash, refreshRow.tokenHash), { s with tokens := tokens })

def consumeCode (codeHash : String) (now : ℤ) (s : Tables) : Tables :=
  { s with codes := s.codes.map fun c =>
      if c.codeHash = codeHash ∧ c.consumedMs = none then { c with consumedMs := some now } else c }

/-- The arguments of `exchange_code`. -/
structure ExchangeRequest where
  code : PyStr
  clientId : PyStr
  redirectUri : PyStr
  codeVerifier : PyStr
  deriving DecidableEq

/-- `exchange_code`: the hash of the code and those of the pair it bought. -/
def exchangeCode (P : Platform) (r : ExchangeRequest) (grantId access refreshToken : String)
    (now : ℤ) (s : Tables) : Except Refusal ((String × String × String) × Tables) := do
  let codeHash ← orStop (hash P r.code) .raised
  let row ← orStop (Table.find Code.codeHash codeHash s.codes)
    (.oauth "invalid_grant" "unknown authorization code")
  require (row.consumedMs = none) (.oauth "invalid_grant" "authorization code already used")
  require (now ≤ row.expiresMs) (.oauth "invalid_grant" "authorization code expired")
  let sameClient ← orStop (compareDigest r.clientId (.text row.clientId)) .raised
  require sameClient (.oauth "invalid_grant" "code was not issued to this client")
  let sameRedirect ← orStop (compareDigest r.redirectUri (.text row.redirectUri)) .raised
  require sameRedirect
    (.oauth "invalid_grant" "redirect_uri does not match the authorization request")
  let verified ← orStop
    (compareDigest (.text (challengeOf P r.codeVerifier)) (.text row.codeChallenge)) .raised
  require verified (.oauth "invalid_grant" "PKCE verification failed")
  let (pair, s) ← issue P row.clientId now grantId access refreshToken
    (consumeCode row.codeHash now s)
  pure ((row.codeHash, pair), s)

def revokeToken (now : ℤ) (t : Token) : Token :=
  if t.revokedMs = none then { t with revokedMs := some now } else t

/-- `UPDATE oauth_tokens SET revoked_ms=? WHERE grant_id=? AND revoked_ms IS NULL`; a NULL grant
equals nothing. -/
def revokeFamily (grantId : Option String) (now : ℤ) (s : Tables) : Tables :=
  { s with tokens := s.tokens.map fun t =>
      if grantId ≠ none ∧ t.grantId = grantId then revokeToken now t else t }

/-- `refresh`: the hash of the token it rotated and those of the new pair.  `freshGrant` is the
grant id drawn for a token that has none. -/
def refresh (P : Platform) (refreshToken clientId : PyStr) (freshGrant access newRefresh : String)
    (now : ℤ) (s : Tables) : Tables × Except Refusal (String × String × String) :=
  match hash P refreshToken with
  | none => (s, .error .raised)
  | some oldHash =>
    match s.tokens.find? fun t => t.tokenHash = oldHash ∧ t.kind = .refresh with
    | none => (s, .error (.oauth "invalid_grant" "refresh token is not valid"))
    | some row =>
      if row.revokedMs ≠ none then
        (revokeFamily row.grantId now s, .error (.oauth "invalid_grant" "refresh token is not valid"))
      else if row.expiresMs < now then
        (s, .error (.oauth "invalid_grant" "refresh token is not valid"))
      else
        match compareDigest clientId (.text row.clientId) with
        | none => (s, .error .raised)
        | some false =>
          (s, .error (.oauth "invalid_grant" "refresh token was not issued to this client"))
        | some true =>
          match issue P row.clientId now (row.grantId.getD freshGrant) access newRefresh
              (revokeFamily row.grantId now s) with
          | .ok (pair, s') => (s', .ok (row.tokenHash, pair))
          | .error e => (s, .error e)

/-- `validate_access_token`: the claims of a live token. -/
def validateAccessToken (P : Platform) (S : Stdlib) (s : Tables) (token : PyStr) (now : ℤ) :
    Option (String × String) := do
  if !(S.strip token).truthy then none else
    let tokenHash ← hash P token
    let row ← s.tokens.find? fun t => t.tokenHash = tokenHash ∧ t.kind = .access
    if row.revokedMs ≠ none ∨ row.expiresMs < now then none
    else pure (row.clientId, row.scope)

/-- `revoke_all`. -/
def revokeAll (now : ℤ) (s : Tables) : Tables := { s with tokens := s.tokens.map (revokeToken now) }

/-! ## Runs -/

inductive Op
  | registerClient (name : PyStr) (redirectUris : List PyStr) (clientId : String) (now : ℤ)
  | beginAuthorization (request : AuthorizationRequest) (requestId userCode : String) (now : ℤ)
  | approve (userCode : PyStr) (now : ℤ)
  | poll (requestId : PyStr) (secret : String) (now : ℤ)
  | exchangeCode (request : ExchangeRequest) (grantId access refreshToken : String) (now : ℤ)
  | refresh (refreshToken clientId : PyStr) (freshGrant access newRefresh : String) (now : ℤ)
  | collectExpired (now : ℤ)
  | revokeAll (now : ℤ)

def step (P : Platform) (S : Stdlib) (s : Tables) : Op → Tables × List Event
  | .registerClient name redirectUris clientId now =>
    match registerClient name redirectUris clientId now s with
    | .ok s' => (s', [])
    | .error _ => (s, [])
  | .beginAuthorization request requestId userCode now =>
    ((beginAuthorization S request requestId userCode now s).1, [])
  | .approve userCode now =>
    match approve S userCode now s with
    | .ok (requestId, s') => (s', [.approved requestId])
    | .error _ => (s, [])
  | .poll requestId secret now =>
    match poll P requestId secret now s with
    | .ok (some (request, code), s') => (s', [.codeIssued request code.codeHash])
    | .ok (none, s') => (s', [])
    | .error _ => (s, [])
  | .exchangeCode request grantId access refreshToken now =>
    match exchangeCode P request grantId access refreshToken now s with
    | .ok ((code, accessHash, refreshHash), s') => (s', [.pairIssued code accessHash refreshHash])
    | .error _ => (s, [])
  | .refresh refreshToken clientId freshGrant access newRefresh now =>
    match refresh P refreshToken clientId freshGrant access newRefresh now s with
    | (s', .ok (old, accessHash, refreshHash)) => (s', [.refreshed old accessHash refreshHash])
    | (s', .error _) => (s', [])
  | .collectExpired now => (collectExpired now s, [])
  | .revokeAll now => (revokeAll now s, [.revokedAll])

end WhatsVault.OAuth
