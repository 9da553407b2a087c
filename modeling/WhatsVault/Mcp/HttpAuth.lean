import WhatsVault.Mcp.OAuth

/-!
# The transport in front of the tools

`bearerAuth` is the middleware every request passes, `publicRouter` the router a public deployment
puts before it, and `buildOauthApp` puts the two together.  Both match the prefixes of the
authorization server on the raw path and on the decoded one, so an inconsistent scope is caught by
whichever of the two shows the prefix, and what neither shows still has to carry one bearer header
with a live credential (`forwarded_authenticated`).
-/

namespace WhatsVault.Http

open OAuth

/-! ## Requests and answers -/

/-- An ASGI scope: `raw_path` and `path` come from the server separately and need not agree. -/
structure Scope where
  type : String
  rawPath : Option Bytes
  path : Option PyStr
  headers : List (Bytes × Bytes)
  deriving DecidableEq

structure Response where
  status : ℕ
  headers : List (Bytes × Bytes)
  body : Bytes
  deriving DecidableEq

/-- What becomes of a request: the MCP application handles it, the authorization server does, it is
answered on the spot, or the call raises. -/
inductive Answer
  | forwarded
  | authorizationServer
  | response (r : Response)
  | raised
  deriving DecidableEq

/-! ## Text -/

/-- `b.decode("latin-1")`. -/
def latin1 (b : Bytes) : List Char := b.map fun x => Char.ofNat x.toNat

/-- `s.lower()` on a character of latin-1 text. -/
def lowerLatin1 (c : Char) : Char :=
  if (65 ≤ c.toNat ∧ c.toNat ≤ 90) ∨ (0xC0 ≤ c.toNat ∧ c.toNat ≤ 0xDE ∧ c.toNat ≠ 0xD7) then
    Char.ofNat (c.toNat + 32)
  else c

/-- `b.lower()` on a byte. -/
def lowerByte (x : UInt8) : UInt8 := if 65 ≤ x ∧ x ≤ 90 then x + 32 else x

def prefixes : List PyStr := [.text "/oauth/", .text "/.well-known/"]

/-- `path.startswith(prefixes)`, on the code points of a path. -/
def owns (path : List ℕ) : Bool := prefixes.any fun p => p.codes.isPrefixOf path

/-! ## The path -/

/-- `str(scope.get("path", ""))`. -/
def Scope.pathText (scope : Scope) : PyStr := scope.path.getD (.text "")

/-- `scope.get("raw_path") or str(scope.get("path", "")).encode()`, `none` where it raises. -/
def Scope.raw (scope : Scope) : Option Bytes :=
  match scope.rawPath with
  | some (x :: rest) => some (x :: rest)
  | _ => scope.pathText.encode.map utf8

/-- `raw.decode("latin-1").split("?", 1)[0]`. -/
def pathOf (raw : Bytes) : List Char := (latin1 raw).takeWhile (· ≠ '?')

/-- The test both routers make, on either representation of the path. -/
def Scope.owned (scope : Scope) (raw : Bytes) : Bool :=
  owns ((pathOf raw).map Char.toNat) || owns scope.pathText.codes

/-! ## The middleware -/

/-- `BearerAuthMiddleware`: the constructor refuses an empty token. -/
structure Middleware where
  token : PyStr
  /-- A control connection was passed. -/
  control : Bool
  resourceMetadataUrl : Option PyStr
  token_truthy : token.truthy
  deriving DecidableEq

/-- `auth.require_token`, `none` where `compare_digest` raises. -/
def requireToken (provided expected : PyStr) : Option Bool :=
  if !provided.truthy || !expected.truthy then some false else compareDigest provided expected

inductive Credential
  | static
  | oauth
  deriving DecidableEq

/-- The values of the Authorization headers. -/
def authorizations (headers : List (Bytes × Bytes)) : List Bytes :=
  (headers.filter fun h => h.1.map lowerByte = utf8 "authorization").map Prod.snd

/-- `value.decode("latin-1").partition(" ")`, without the separator. -/
def partition (value : Bytes) : List Char × List Char :=
  ((latin1 value).takeWhile (· ≠ ' '), ((latin1 value).dropWhile (· ≠ ' ')).tail)

/-- The token of an Authorization header of scheme bearer. -/
def bearerToken (S : Stdlib) (value : Bytes) : Option PyStr :=
  if (partition value).1.map lowerLatin1 = "bearer".toList then
    some (S.strip (.text (String.ofList (partition value).2)))
  else none

/-- `_presented` once there is one header: `none` where it raises. -/
def presentedToken (P : Platform) (S : Stdlib) (m : Middleware) (tables : Tables) (now : ℤ)
    (presented : PyStr) : Option (Option Credential) := do
  let same ← requireToken presented m.token
  if same then pure (some .static)
  else if m.control ∧ validateAccessToken P S tables presented now ≠ none then pure (some .oauth)
  else pure none

/-- `_presented`, `none` where it raises. -/
def presented (P : Platform) (S : Stdlib) (m : Middleware) (tables : Tables) (now : ℤ)
    (scope : Scope) : Option (Option Credential) :=
  match authorizations scope.headers with
  | [value] =>
    match bearerToken S value with
    | none => some none
    | some token => presentedToken P S m tables now token
  | _ => some none

/-- `_challenge`, `none` where it raises. -/
def challenge (m : Middleware) : Option Bytes :=
  let realm := utf8 "Bearer realm=\"whatsvault-mcp\""
  match m.resourceMetadataUrl with
  | none => some realm
  | some url =>
    if url.truthy then
      if url.codes.all (· < 256) then
        some (realm ++ utf8 ", resource_metadata=\"" ++
          (url.codes.filter (· ≠ '"'.toNat)).map UInt8.ofNat ++ utf8 "\"")
      else none
    else some realm

def jsonHeaders (body : Bytes) : List (Bytes × Bytes) :=
  [(utf8 "content-type", utf8 "application/json"),
    (utf8 "content-length", utf8 (toString body.length))]

/-- `_reject`. -/
def reject (m : Middleware) : Answer :=
  let body := utf8 "\x7b\"error\":\"unauthorized\"\x7d"
  match challenge m with
  | none => .raised
  | some value => .response ⟨401, (utf8 "www-authenticate", value) :: jsonHeaders body, body⟩

/-- `_not_found`. -/
def notFound : Answer :=
  let body := utf8 "\x7b\"error\":\"not_found\"\x7d"
  .response ⟨404, jsonHeaders body, body⟩

/-- `BearerAuthMiddleware.__call__`. -/
def bearerAuth (P : Platform) (S : Stdlib) (m : Middleware) (tables : Tables) (now : ℤ)
    (scope : Scope) : Answer :=
  if scope.type = "lifespan" then .forwarded
  else if scope.type ≠ "http" then .raised
  else
    match scope.raw with
    | none => .raised
    | some raw =>
      if scope.owned raw then notFound
      else
        match presented P S m tables now scope with
        | none => .raised
        | some none => reject m
        | some (some _) => .forwarded

/-- `PublicRouter.__call__` over a guarded application. -/
def publicRouter (guarded : Scope → Answer) (scope : Scope) : Answer :=
  if scope.type = "lifespan" then guarded scope
  else if scope.type ≠ "http" then .raised
  else
    match scope.raw with
    | none => .raised
    | some raw => if scope.owned raw then .authorizationServer else guarded scope

/-! ## Deployments -/

/-- The application `build_oauth_app` returns. -/
inductive App
  | loopback (m : Middleware)
  | publicApp (m : Middleware)
  deriving DecidableEq

def App.middleware : App → Middleware
  | loopback m => m
  | publicApp m => m

/-- `str(public_url).rstrip("/")`. -/
def baseUrl (publicUrl : String) : String :=
  String.ofList (publicUrl.toList.reverse.dropWhile (· = '/')).reverse

/-- `build_oauth_app`, `none` where it raises. -/
def buildOauthApp (token : PyStr) (publicUrl : Option String) : Option App :=
  if h : token.truthy then
    match publicUrl with
    | none | some "" => some (.loopback ⟨token, false, none, h⟩)
    | some url =>
      if "https://".toList.isPrefixOf (baseUrl url).toList then
        some (.publicApp ⟨token, true,
          some (.text (baseUrl url ++ "/.well-known/oauth-protected-resource")), h⟩)
      else none
  else none

/-- What the deployed application does with a scope. -/
def App.handle (P : Platform) (S : Stdlib) (app : App) (tables : Tables) (now : ℤ) (scope : Scope) :
    Answer :=
  match app with
  | loopback m => bearerAuth P S m tables now scope
  | publicApp m => publicRouter (bearerAuth P S m tables now) scope

/-! ## What reaches the application -/

/-- A path under one of the prefixes, as a list of bytes or of code points. -/
def Owned (path : List ℕ) : Prop := ∃ p ∈ prefixes, p.codes <+: path

lemma owns_eq_true {path : List ℕ} : owns path = true ↔ Owned path := by
  simp [owns, Owned]

lemma prefix_takeWhile {α : Type*} {p : α → Bool} {a l : List α} (h : a <+: l)
    (ha : ∀ x ∈ a, p x = true) : a <+: l.takeWhile p := by
  obtain ⟨rest, rfl⟩ := h
  rw [List.takeWhile_append_of_pos ha]
  exact List.prefix_append a _

lemma toNat_latin1 (b : Bytes) : (latin1 b).map Char.toNat = b.map UInt8.toNat := by
  unfold latin1
  rw [List.map_map]
  apply List.map_congr_left
  intro x _
  have hx := x.toNat_lt
  have hvalid : x.toNat.isValidChar := Or.inl (by omega)
  show (Char.ofNat x.toNat).toNat = x.toNat
  rw [Char.ofNat, dif_pos hvalid]
  rfl

/-- A prefix of the raw path ends before any query string. -/
lemma owned_pathOf {raw : Bytes} (h : Owned (raw.map UInt8.toNat)) :
    Owned ((pathOf raw).map Char.toNat) := by
  obtain ⟨p, hp, hprefix⟩ := h
  refine ⟨p, hp, ?_⟩
  have hmap : (pathOf raw).map Char.toNat =
      (raw.map UInt8.toNat).takeWhile (· ≠ '?'.toNat) := by
    rw [← toNat_latin1, List.takeWhile_map]
    unfold pathOf
    congr 2
    funext c
    have hchar : c = '?' ↔ c.toNat = '?'.toNat := Char.toNat_inj.symm
    simpa using hchar
  rw [hmap]
  refine prefix_takeWhile hprefix fun x hx => ?_
  have hnone : ∀ p ∈ prefixes, ∀ x ∈ p.codes, decide (x ≠ '?'.toNat) = true := by decide
  exact hnone p hp x hx

/-- The bytes of the path an ASGI server passed on as it received them. -/
def Scope.rawBytes (scope : Scope) : List ℕ := (scope.rawPath.getD []).map UInt8.toNat

lemma not_owned_of_raw {scope : Scope} {raw : Bytes} (hraw : scope.raw = some raw)
    (h : scope.owned raw = false) : ¬ Owned scope.rawBytes ∧ ¬ Owned scope.pathText.codes := by
  simp only [Scope.owned, Bool.or_eq_false_iff] at h
  obtain ⟨hfirst, hsecond⟩ := h
  refine ⟨fun howned => ?_, fun howned => ?_⟩
  · have hsome : scope.rawBytes = raw.map UInt8.toNat := by
      unfold Scope.raw at hraw
      split at hraw
      · rename_i x rest heq
        rw [Scope.rawBytes, heq, ← Option.some.inj hraw]
        rfl
      · rename_i hnot
        -- an absent or empty raw path is under no prefix
        have hempty : scope.rawPath.getD [] = [] := by
          cases hpath : scope.rawPath with
          | none => rfl
          | some b =>
            cases b with
            | nil => rfl
            | cons x rest => exact absurd hpath (hnot x rest)
        obtain ⟨p, hp, hprefix⟩ := howned
        rw [Scope.rawBytes, hempty, List.map_nil, List.prefix_nil] at hprefix
        have hne : ∀ p ∈ prefixes, p.codes ≠ [] := by decide
        exact absurd hprefix (hne p hp)
    rw [hsome] at howned
    rw [owns_eq_true.mpr (owned_pathOf howned)] at hfirst
    cases hfirst
  · rw [owns_eq_true.mpr howned] at hsecond
    cases hsecond

/-- The token is an access token of the table, neither expired nor revoked. -/
def Live (P : Platform) (tables : Tables) (now : ℤ) (token : PyStr) : Prop :=
  ∃ row ∈ tables.tokens, hash P token = some row.tokenHash ∧ row.kind = .access ∧
    row.revokedMs = none ∧ now ≤ row.expiresMs

lemma live_of_validateAccessToken {P : Platform} {S : Stdlib} {tables : Tables} {token : PyStr}
    {now : ℤ} (h : validateAccessToken P S tables token now ≠ none) : Live P tables now token := by
  obtain ⟨claims, hclaims⟩ := Option.ne_none_iff_exists'.mp h
  unfold validateAccessToken at hclaims
  split at hclaims
  · cases hclaims
  simp only [Option.bind_eq_bind, Option.bind_eq_some_iff] at hclaims
  obtain ⟨tokenHash, hhash, row, hrow, hclaims⟩ := hclaims
  have hkey := List.find?_some hrow
  simp only [decide_eq_true_eq] at hkey
  split at hclaims
  · cases hclaims
  · rename_i hlive
    push Not at hlive
    exact ⟨row, List.mem_of_find?_eq_some hrow, hkey.1 ▸ hhash, hkey.2, hlive⟩

/-- What `_presented` accepts. -/
lemma presented_eq_some {P : Platform} {S : Stdlib} {m : Middleware} {tables : Tables} {now : ℤ}
    {scope : Scope} {credential : Credential}
    (h : presented P S m tables now scope = some (some credential)) :
    ∃ value token, authorizations scope.headers = [value] ∧ bearerToken S value = some token ∧
      (token = m.token ∨ m.control ∧ Live P tables now token) := by
  unfold presented at h
  split at h
  swap
  · cases h
  rename_i value hvalue
  split at h
  · cases h
  rename_i token htoken
  refine ⟨value, token, hvalue, htoken, ?_⟩
  simp only [presentedToken, Option.bind_eq_bind, Option.bind_eq_some_iff] at h
  obtain ⟨same, hsame, h⟩ := h
  cases same with
  | true =>
    left
    unfold requireToken at hsame
    split at hsame
    · cases hsame
    · exact of_decide_eq_true (compareDigest_eq_some.mp hsame).2
  | false =>
    right
    rw [if_neg Bool.false_ne_true] at h
    split at h
    · rename_i hoauth
      exact ⟨hoauth.1, live_of_validateAccessToken hoauth.2⟩
    · cases h

lemma bearerAuth_forwarded {P : Platform} {S : Stdlib} {m : Middleware} {tables : Tables} {now : ℤ}
    {scope : Scope} (hhttp : scope.type = "http")
    (h : bearerAuth P S m tables now scope = .forwarded) :
    (¬ Owned scope.rawBytes ∧ ¬ Owned scope.pathText.codes) ∧
      ∃ value token, authorizations scope.headers = [value] ∧ bearerToken S value = some token ∧
        (token = m.token ∨ m.control ∧ Live P tables now token) := by
  unfold bearerAuth at h
  rw [if_neg (by rw [hhttp]; decide), if_neg (not_not.mpr hhttp)] at h
  split at h
  · cases h
  rename_i raw hraw
  split at h
  · cases h
  rename_i howned
  refine ⟨not_owned_of_raw hraw (Bool.eq_false_iff.mpr howned), ?_⟩
  split at h
  · cases h
  · rw [reject] at h
    split at h <;> cases h
  · exact presented_eq_some ‹_›

/-- **Only an authenticated request reaches a tool.** -/
theorem forwarded_authenticated (P : Platform) (S : Stdlib) (token : PyStr)
    (publicUrl : Option String) (app : App) (tables : Tables) (now : ℤ) (scope : Scope)
    (happ : buildOauthApp token publicUrl = some app) (hhttp : scope.type = "http")
    (h : app.handle P S tables now scope = .forwarded) :
    ¬ Owned scope.rawBytes ∧ ¬ Owned scope.pathText.codes ∧
      ∃ value provided, authorizations scope.headers = [value] ∧
        bearerToken S value = some provided ∧
        (provided = token ∨ publicUrl.getD "" ≠ "" ∧ Live P tables now provided) := by
  have hm : app.middleware.token = token ∧
      (app.middleware.control = true → publicUrl.getD "" ≠ "") := by
    unfold buildOauthApp at happ
    split at happ
    swap
    · cases happ
    split at happ
    · cases happ
      exact ⟨rfl, fun hcontrol => by cases hcontrol⟩
    · cases happ
      exact ⟨rfl, fun hcontrol => by cases hcontrol⟩
    · rename_i url hurl
      split at happ
      · cases happ
        exact ⟨rfl, fun _ hempty => hurl (by rw [← hempty]; rfl)⟩
      · cases happ
  have hguarded : bearerAuth P S app.middleware tables now scope = .forwarded := by
    cases app with
    | loopback m => exact h
    | publicApp m =>
      simp only [App.handle, publicRouter] at h
      rw [if_neg (by rw [hhttp]; decide), if_neg (not_not.mpr hhttp)] at h
      split at h
      · cases h
      · split at h
        · cases h
        · exact h
  obtain ⟨⟨hraw, hpath⟩, value, provided, hvalue, hprovided, hcredential⟩ :=
    bearerAuth_forwarded hhttp hguarded
  refine ⟨hraw, hpath, value, provided, hvalue, hprovided, ?_⟩
  rcases hcredential with hstatic | ⟨hcontrol, hlive⟩
  · exact .inl (hstatic.trans hm.1)
  · exact .inr ⟨hm.2 hcontrol, hlive⟩

/-! ## One request with each credential -/

section Sample

def sampleTables : Tables :=
  { Tables.empty with tokens := [accessRow ⟨id, fun _ _ _ => false⟩ "wvc_1" 1000 "wvg_1" "opened"] }

def httpStdlib : Stdlib := ⟨fun _ => none, fun _ => [], fun _ => none, fun _ => "", id, id⟩

def sampleScope (value : String) : Scope where
  type := "http"
  rawPath := some (utf8 "/mcp?x=/oauth/")
  path := some (.text "/mcp")
  headers := [(utf8 "host", utf8 "localhost"), (utf8 "Authorization", utf8 value)]

def sampleApp : App :=
  .publicApp ⟨.text "local", true, some (.text "https://v/.well-known/oauth-protected-resource"),
    by decide⟩

/-- An access token on a public deployment. -/
theorem forwarded_authenticated_sample :
    ¬ Owned (sampleScope "Bearer opened").rawBytes ∧
      ¬ Owned (sampleScope "Bearer opened").pathText.codes ∧
      ∃ value provided, authorizations (sampleScope "Bearer opened").headers = [value] ∧
        bearerToken httpStdlib value = some provided ∧
        (provided = .text "local" ∨ (some "https://v").getD "" ≠ "" ∧
          Live ⟨id, fun _ _ _ => false⟩ sampleTables 2000 provided) :=
  forwarded_authenticated ⟨id, fun _ _ _ => false⟩ httpStdlib (.text "local") (some "https://v")
    sampleApp sampleTables 2000 (sampleScope "Bearer opened") (by decide) rfl
    (by decide)

end Sample

end WhatsVault.Http
