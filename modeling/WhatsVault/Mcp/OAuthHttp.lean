import WhatsVault.Mcp.HttpAuth

/-!
# The endpoints of the authorization server

`OAuthApp` answers the paths of the authorization server: its metadata, the registration of a client,
the consent page, the poll behind it and the token endpoint.  A handler maps an `OAuthError` to a
response and lets every other exception out; here it is a step on the tables with the response it
sends, `none` where an exception escapes.
-/

namespace WhatsVault.Http

open OAuth

/-- How `json.loads` fails. -/
inductive LoadError
  | valueError
  | recursionError
  deriving DecidableEq, Repr

/-- The library functions the handlers call. -/
structure Web where
  /-- `urllib.parse.parse_qsl(b.decode("latin-1"))`; bytes that are no UTF-8 are replaced. -/
  parseQsl : Bytes → List (String × String)
  /-- `json.loads`. -/
  loads : Bytes → Except LoadError Json
  /-- `str(x)`, `none` where the value is nested too deeply. -/
  str : Json → Option PyStr
  /-- `json.dumps(x).encode()`, `none` where the value is nested too deeply. -/
  dumps : Json → Option Bytes
  /-- `unicodedata.category(c) == "Cf"`. -/
  isFormat : Char → Bool

/-- An HTTP request: its scope, and the bodies of the messages that follow. -/
structure Request extends Scope where
  method : PyStr
  queryString : Bytes
  chunks : List Bytes
  deriving DecidableEq

/-- The ids and secrets drawn while a request is handled. -/
structure Draws where
  clientId : String
  requestId : String
  userCode : String
  secret : String
  grantId : String
  access : String
  refreshToken : String
  deriving DecidableEq

/-! ## Responses -/

def noStore : List (Bytes × Bytes) :=
  [(utf8 "cache-control", utf8 "no-store"), (utf8 "pragma", utf8 "no-cache")]

def securityHeaders : List (Bytes × Bytes) :=
  [(utf8 "content-security-policy",
      utf8 ("default-src 'self'; script-src 'unsafe-inline'; style-src 'unsafe-inline'; " ++
        "img-src 'none'; connect-src 'self'; base-uri 'none'; form-action 'none'; " ++
        "frame-ancestors 'none'")),
    (utf8 "referrer-policy", utf8 "no-referrer"),
    (utf8 "x-content-type-options", utf8 "nosniff"),
    (utf8 "x-frame-options", utf8 "DENY")]

/-- `_respond`. -/
def respond (status : ℕ) (contentType : String) (body : Bytes) : Response where
  status := status
  headers := (utf8 "content-type", utf8 contentType) :: noStore ++ securityHeaders ++
    [(utf8 "content-length", utf8 (toString body.length))]
  body := body

/-- `_json`. -/
def jsonResponse (W : Web) (status : ℕ) (payload : Json) : Option Response :=
  (W.dumps payload).map (respond status "application/json")

def text (s : String) : Json := .str (.text s)

def object (fields : List (String × Json)) : Json :=
  .obj (fields.map fun field => (.text field.1, field.2))

/-- `_error`. -/
def errorResponse (W : Web) (status : ℕ) (code description : String) : Option Response :=
  jsonResponse W status (object [("error", text code), ("error_description", text description)])

/-- An `OAuthError` is a 400, any other exception escapes. -/
def refused (W : Web) : Refusal → Option Response
  | .oauth code description => errorResponse W 400 code description
  | .raised => none

/-! ## Requests -/

/-- `_read_body`: what comes after 64 KiB is not read. -/
def readBody (read : Bytes) : List Bytes → Bytes
  | [] => read
  | chunk :: chunks =>
    if 64 * 1024 < (read ++ chunk).length then read ++ chunk else readBody (read ++ chunk) chunks

/-- `dict(pairs).get(key)`: the last pair of a key counts. -/
def formGet (pairs : List (String × String)) (key : String) : Option String :=
  pairs.reverse.lookup key

/-- `str(pairs.get(key) or "")`. -/
def formText (pairs : List (String × String)) (key : String) : PyStr :=
  .text ((formGet pairs key).getD "")

/-! ## Metadata -/

/-- `_as_metadata`. -/
def asMetadata (base : String) : Json :=
  object [("issuer", text base), ("authorization_endpoint", text (base ++ "/oauth/authorize")),
    ("token_endpoint", text (base ++ "/oauth/token")),
    ("registration_endpoint", text (base ++ "/oauth/register")),
    ("response_types_supported", .arr [text "code"]),
    ("grant_types_supported", .arr [text "authorization_code", text "refresh_token"]),
    ("code_challenge_methods_supported", .arr [text "S256"]),
    ("token_endpoint_auth_methods_supported", .arr [text "none"]),
    ("scopes_supported", .arr [text readOnlyScope])]

/-- `_pr_metadata`. -/
def prMetadata (base : String) : Json :=
  object [("resource", text (base ++ "/mcp")), ("authorization_servers", .arr [text base]),
    ("scopes_supported", .arr [text readOnlyScope]),
    ("bearer_methods_supported", .arr [text "header"])]

/-! ## Registration -/

/-- The answer to a registration. -/
def registered (clientId : String) (clientName : Json) (uris : List PyStr) : Json :=
  object [("client_id", text clientId), ("client_name", clientName),
    ("redirect_uris", .arr (uris.map .str)), ("token_endpoint_auth_method", text "none"),
    ("grant_types", .arr [text "authorization_code", text "refresh_token"]),
    ("response_types", .arr [text "code"])]

/-- `str(client_name or "")`. -/
def nameText (W : Web) (clientName : Json) : Option PyStr :=
  if clientName.truthy then W.str clientName else some (.text "")

/-- `register_client` on the values of a payload.  The name becomes a string only after the URIs
are checked. -/
def registerPayload (W : Web) (clientName : Json) (redirectUris : List Json) (clientId : String)
    (now : ℤ) (s : Tables) : Except Refusal (List PyStr × Tables) := do
  let uris ← Checks.orStop (redirectUris.mapM W.str) .raised
  match nameText W clientName with
  | some name => (registerClient name uris clientId now s).map fun s' => (uris, s')
  | none => do
    let _ ← registerClient (.text "") uris clientId now s
    .error .raised

/-- `_post_register`. -/
def postRegister (W : Web) (draws : Draws) (now : ℤ) (body : Bytes) (s : Tables) :
    Tables × Option Response :=
  match W.loads body with
  | .error .valueError => (s, errorResponse W 400 "invalid_client_metadata" "body must be JSON")
  | .error .recursionError => (s, none)
  | .ok (.obj fields) =>
    match fields.lookup (.text "redirect_uris") with
    | some (.arr redirectUris) =>
      let clientName := (fields.lookup (.text "client_name")).getD .null
      match registerPayload W clientName redirectUris draws.clientId now s with
      | .ok (uris, s') => (s', jsonResponse W 201 (registered draws.clientId clientName uris))
      | .error e => (s, refused W e)
    | _ => (s, errorResponse W 400 "invalid_redirect_uri" "redirect_uris must be a list")
  | .ok _ => (s, errorResponse W 400 "invalid_client_metadata" "body must be a JSON object")

/-! ## Authorization -/

/-- `html.escape(s, quote=True)`. -/
def htmlEscape (s : String) : String :=
  String.join (s.toList.map fun c =>
    match c with
    | '&' => "&amp;"
    | '<' => "&lt;"
    | '>' => "&gt;"
    | '"' => "&quot;"
    | '\'' => "&#x27;"
    | c => String.singleton c)

/-- `_safe_name`. -/
def safeName (W : Web) (name : String) : String :=
  let name := if name = "" then "An application" else name
  let escaped := htmlEscape (String.ofList (name.toList.filter fun c => !W.isFormat c))
  if escaped = "" then "An application" else escaped

/-- `_consent_page`. -/
def consentPage (W : Web) (clientName requestId userCode : String) : String :=
  "\n".intercalate [
    "<!doctype html>",
    "<meta charset=\"utf-8\">" ++
      "<meta name=\"viewport\" content=\"width=device-width,initial-scale=1\">",
    "<title>WhatsVault — approve access</title>",
    "<style>",
    " body\x7bfont:16px/1.6 -apple-system,system-ui,sans-serif;max-width:34rem;",
    "       margin:4rem auto;padding:0 1.25rem;color:#111\x7d",
    " code\x7bbackground:#f4f4f5;padding:.15em .4em;border-radius:4px\x7d",
    " .code\x7bfont:700 2rem/1.2 ui-monospace,Menlo,monospace;letter-spacing:.12em;",
    "        background:#f4f4f5;padding:1rem;border-radius:8px;text-align:center;" ++
      "margin:1.5rem 0\x7d",
    " .muted\x7bcolor:#666;font-size:.9rem\x7d",
    " @media(prefers-color-scheme:dark)\x7bbody\x7bbackground:#111;color:#eee\x7d" ++
      "code,.code\x7bbackground:#1e1e21\x7d\x7d",
    "</style>",
    "<h1>Approve access</h1>",
    "<p><strong>" ++ safeName W clientName ++
      "</strong> is asking to <strong>read</strong> your WhatsVault",
    "archive. It cannot send messages, and it will never see a full phone number.</p>",
    "<div class=\"code\" data-request-id=\"" ++ requestId ++ "\">" ++ userCode ++ "</div>",
    "<p>This page will not ask you for a password. To approve, run this in a terminal",
    "on the machine holding the vault:</p>",
    "<p><code>whatsvault oauth-approve --code " ++ userCode ++ "</code></p>",
    "<p class=\"muted\">The request expires in 10 minutes. If you did not start this,",
    "close this page and do nothing — nothing is granted until you approve it.</p>",
    "<p id=\"s\" class=\"muted\">Waiting for approval…</p>",
    "<script>",
    " const id = document.querySelector('[data-request-id]').dataset.requestId;",
    " setInterval(async () => \x7b",
    "   const r = await fetch('/oauth/poll?request_id=' + encodeURIComponent(id));",
    "   const j = await r.json();",
    "   if (j.ready) \x7b document.getElementById('s').textContent = 'Approved — returning…';",
    "                   location.href = j.redirect; \x7d",
    " \x7d, 2000);",
    "</script>",
    ""]

/-- The arguments of `begin_authorization` in a query. -/
def authorizationRequest (query : List (String × String)) : AuthorizationRequest where
  clientId := formText query "client_id"
  redirectUri := formText query "redirect_uri"
  codeChallenge := formText query "code_challenge"
  codeChallengeMethod := formText query "code_challenge_method"
  state := (formGet query "state").map .text

/-- The name of a client as `begin_authorization` returns it. -/
def nameOf (s : Tables) (clientId : PyStr) : String :=
  ((findClient s clientId).toOption.map Client.clientName).getD ""

/-- `_get_authorize`. -/
def getAuthorize (S : Stdlib) (W : Web) (draws : Draws) (now : ℤ) (query : List (String × String))
    (s : Tables) : Tables × Option Response :=
  if formGet query "response_type" ≠ some "code" then
    (s, errorResponse W 400 "unsupported_response_type" "")
  else
    let r := authorizationRequest query
    match beginAuthorization S r draws.requestId draws.userCode now s with
    | (s', .ok ()) => (s', some (respond 200 "text/html; charset=utf-8"
        (utf8 (consentPage W (nameOf s r.clientId) draws.requestId draws.userCode))))
    | (s', .error e) => (s', refused W e)

/-! ## The poll -/

/-- `urllib.parse.quote_plus(s)`. -/
def quotePlus (s : String) : String :=
  String.join ((utf8 s).map fun x =>
    let c := Char.ofNat x.toNat
    if c = ' ' then "+"
    else if c.isAlphanum ∨ c ∈ ['_', '.', '-', '~'] then String.singleton c
    else "%" ++ (hex [x]).toUpper)

/-- `urllib.parse.urlencode(params)`. -/
def urlencode (params : List (String × String)) : String :=
  "&".intercalate (params.map fun p => quotePlus p.1 ++ "=" ++ quotePlus p.2)

/-- The redirect a code is handed over with. -/
def redirectWith (redirectUri secret : String) (state : Option String) : String :=
  redirectUri ++ (if '?' ∈ redirectUri.toList then "&" else "?") ++
    urlencode (("code", secret) :: (state.map fun state => ("state", state)).toList)

/-- The state of a request. -/
def stateOf (s : Tables) (requestId : String) : Option String :=
  (Table.find Pending.requestId requestId s.pending).bind Pending.state

/-- `_get_poll`. -/
def getPoll (P : Platform) (W : Web) (draws : Draws) (now : ℤ) (query : List (String × String))
    (s : Tables) : Tables × Option Response :=
  match poll P (formText query "request_id") draws.secret now s with
  | .ok (none, s') => (s', jsonResponse W 200 (object [("ready", .bool false)]))
  | .ok (some (requestId, code), s') =>
    (s', jsonResponse W 200 (object [("ready", .bool true),
      ("redirect", text (redirectWith code.redirectUri draws.secret (stateOf s requestId)))]))
  | .error e => (s, match e with | .oauth _ _ => none | .raised => none)

/-! ## Tokens -/

/-- The answer that carries a pair of tokens. -/
def granted (draws : Draws) : Json :=
  object [("access_token", text draws.access), ("refresh_token", text draws.refreshToken),
    ("token_type", text "Bearer"), ("expires_in", .int (accessTtlMs / 1000)),
    ("scope", text readOnlyScope)]

/-- The arguments of `exchange_code` in a form. -/
def exchangeRequest (form : List (String × String)) : ExchangeRequest where
  code := formText form "code"
  clientId := formText form "client_id"
  redirectUri := formText form "redirect_uri"
  codeVerifier := formText form "code_verifier"

/-- `_post_token`. -/
def postToken (P : Platform) (W : Web) (draws : Draws) (now : ℤ) (body : Bytes) (s : Tables) :
    Tables × Option Response :=
  let form := W.parseQsl body
  if formGet form "grant_type" = some "authorization_code" then
    match exchangeCode P (exchangeRequest form) draws.grantId draws.access draws.refreshToken now s with
    | .ok (_, s') => (s', jsonResponse W 200 (granted draws))
    | .error e => (s, refused W e)
  else if formGet form "grant_type" = some "refresh_token" then
    match refresh P (formText form "refresh_token") (formText form "client_id") draws.grantId
      draws.access draws.refreshToken now s with
    | (s', .ok _) => (s', jsonResponse W 200 (granted draws))
    | (s', .error e) => (s', refused W e)
  else (s, errorResponse W 400 "unsupported_grant_type" "")

/-! ## Dispatch -/

inductive Route
  | asMetadata
  | prMetadata
  | register
  | authorize
  | poll
  | token
  deriving DecidableEq, Repr

/-- The routes of `OAuthApp`. -/
def routes : List ((String × String) × Route) :=
  [(("GET", "/.well-known/oauth-authorization-server"), .asMetadata),
    (("GET", "/.well-known/oauth-protected-resource"), .prMetadata),
    (("GET", "/.well-known/oauth-protected-resource/mcp"), .prMetadata),
    (("POST", "/oauth/register"), .register),
    (("GET", "/oauth/authorize"), .authorize),
    (("GET", "/oauth/poll"), .poll),
    (("POST", "/oauth/token"), .token)]

/-- The route of a request, by its method and the path in its raw bytes. -/
def routeOf (S : Stdlib) (method : PyStr) (raw : Bytes) : Option Route :=
  (routes.find? fun r =>
    S.upper method = .text r.1.1 ∧ (pathOf raw) = r.1.2.toList).map Prod.snd

/-- The method is another on a path that is served, or the path is not. -/
def missStatus (raw : Bytes) : ℕ :=
  if routes.any fun r => pathOf raw = r.1.2.toList then 405 else 404

/-- `OAuthApp.__call__`. -/
def oauthApp (P : Platform) (S : Stdlib) (W : Web) (base : String) (draws : Draws) (now : ℤ)
    (r : Request) (s : Tables) : Tables × Option Response :=
  match r.toScope.raw with
  | none => (s, none)
  | some raw =>
    let query := W.parseQsl r.queryString
    match routeOf S r.method raw with
    | none => (s, errorResponse W (missStatus raw) "not_found" "")
    | some .asMetadata => (s, jsonResponse W 200 (asMetadata base))
    | some .prMetadata => (s, jsonResponse W 200 (prMetadata base))
    | some .register => postRegister W draws now (readBody [] r.chunks) s
    | some .authorize => getAuthorize S W draws now query s
    | some .poll => getPoll P W draws now query s
    | some .token => postToken P W draws now (readBody [] r.chunks) s

end WhatsVault.Http
