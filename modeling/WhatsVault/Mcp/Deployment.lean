import WhatsVault.Library.JsonText
import WhatsVault.Library.UrlForm
import WhatsVault.Mcp.Lineage
import WhatsVault.Mcp.OAuthHttp

/-!
# A deployment behind a public URL

What reaches a deployed vault is HTTP requests, of anyone and in any order, and what its operator types at
the terminal.  `step` takes one of them: the router gives a request to the authorization server, which
works on the tables, or to the guard of the tools, which reads them.

Whatever the requests are, the tables go through a run of the eight operations of the authorization server
(`final_eq`).  So what holds of every run of these holds of every deployment, and an access token that opens
the tools descends from a request that the operator approved (`admitted_of_run`).
-/

namespace WhatsVault.Http

open OAuth Checks

/-- An HTTP request with what is drawn while it is handled and the time it is handled at, or a command of
the operator. -/
inductive Act
  | request (r : Request) (draws : Draws) (now : ℤ)
  /-- `whatsvault oauth-approve --code`. -/
  | oauthApprove (code : PyStr) (now : ℤ)
  /-- `whatsvault oauth-revoke`. -/
  | oauthRevoke (now : ℤ)

/-- What a request came to. -/
inductive Outcome
  /-- It reached the tools. -/
  | admitted (r : Request) (now : ℤ)
  /-- The authorization server handled it. -/
  | served (r : Request) (response : Option Response)

variable (P : Platform) (S : Stdlib) (W : Web) (app : App) (base : String)

def step (s : Tables) : Act → Tables × List Outcome
  | .request r draws now =>
    match app.handle P S s now r.toScope with
    | .forwarded => (s, [.admitted r now])
    | .authorizationServer =>
      ((oauthApp P S W base draws now r s).1, [.served r (oauthApp P S W base draws now r s).2])
    | _ => (s, [])
  | .oauthApprove code now =>
    if !code.truthy then (s, [])
    else
      match approve S code now s with
      | .ok (_, s') => (s', [])
      | .error _ => (s, [])
  | .oauthRevoke now => (revokeAll now s, [])

/-! ## The operations behind the requests -/

/-- The operation of a registration, where its values have strings. -/
def payloadOps (clientName : Json) (redirectUris : List Json) (clientId : String) (now : ℤ) :
    List OAuth.Op :=
  match redirectUris.mapM W.str, nameText W clientName with
  | some uris, some name => [.registerClient name uris clientId now]
  | _, _ => []

/-- The operation of a registration, where the body has the values for one. -/
def registerOps (draws : Draws) (now : ℤ) (body : Bytes) : List OAuth.Op :=
  match W.loads body with
  | .ok (.obj fields) =>
    match fields.lookup (.text "redirect_uris") with
    | some (.arr redirectUris) =>
      payloadOps W ((fields.lookup (.text "client_name")).getD .null) redirectUris draws.clientId now
    | _ => []
  | _ => []

/-- The operation of a token request. -/
def tokenOps (draws : Draws) (now : ℤ) (body : Bytes) : List OAuth.Op :=
  let form := W.parseQsl body
  if formGet form "grant_type" = some "authorization_code" then
    [.exchangeCode (exchangeRequest form) draws.grantId draws.access draws.refreshToken now]
  else if formGet form "grant_type" = some "refresh_token" then
    [.refresh (formText form "refresh_token") (formText form "client_id") draws.grantId draws.access
      draws.refreshToken now]
  else []

/-- The operations of a request to the authorization server: one, or none. -/
def requestOps (draws : Draws) (now : ℤ) (r : Request) : List OAuth.Op :=
  match r.toScope.raw with
  | none => []
  | some raw =>
    let query := W.parseQsl r.queryString
    match routeOf S r.method raw with
    | some .register => registerOps W draws now (readBody [] r.chunks)
    | some .authorize =>
      if formGet query "response_type" ≠ some "code" then []
      else [.beginAuthorization (authorizationRequest query) draws.requestId draws.userCode now]
    | some .poll => [.poll (formText query "request_id") draws.secret now]
    | some .token => tokenOps W draws now (readBody [] r.chunks)
    | _ => []

/-- The router hands a scope to the authorization server. -/
def App.serves (app : App) (scope : Scope) : Bool :=
  match app, scope.raw with
  | publicApp _, some raw => decide (scope.type = "http") && scope.owned raw
  | _, _ => false

/-- The operations of what is done to a deployment. -/
def actOps : Act → List OAuth.Op
  | .request r draws now => if app.serves r.toScope then requestOps S W draws now r else []
  | .oauthApprove code now => if code.truthy then [.approve code now] else []
  | .oauthRevoke now => [.revokeAll now]

variable {P S W app base} {s : Tables}

lemma bearerAuth_ne_authorizationServer {m : Middleware} {now : ℤ} {scope : Scope} :
    bearerAuth P S m s now scope ≠ .authorizationServer := by
  intro h
  unfold bearerAuth at h
  split at h
  · cases h
  split at h
  · cases h
  split at h
  · cases h
  split at h
  · cases h
  split at h
  · cases h
  · unfold reject at h
    split at h <;> cases h
  · cases h

/-- The router reads the scope alone. -/
lemma handle_eq_authorizationServer {now : ℤ} {scope : Scope} :
    app.handle P S s now scope = .authorizationServer ↔ app.serves scope = true := by
  cases app with
  | loopback m => simpa [App.handle, App.serves] using bearerAuth_ne_authorizationServer
  | publicApp m =>
    simp only [App.handle, App.serves, publicRouter]
    by_cases hlifespan : scope.type = "lifespan"
    · rw [if_pos hlifespan]
      have hhttp : scope.type ≠ "http" := by rw [hlifespan]; decide
      cases scope.raw with
      | none => simpa using bearerAuth_ne_authorizationServer
      | some raw => simpa [hhttp] using bearerAuth_ne_authorizationServer
    rw [if_neg hlifespan]
    by_cases hhttp : scope.type = "http"
    · rw [if_neg (not_not.mpr hhttp)]
      cases scope.raw with
      | none => simp
      | some raw =>
        by_cases howned : scope.owned raw = true
        · simp [howned, hhttp]
        · simpa [howned] using bearerAuth_ne_authorizationServer
    · rw [if_pos hhttp]
      cases scope.raw with
      | none => simp
      | some raw => simp [hhttp]

/-! ## What the handlers do to the tables -/

/-- A payload registers a client where it has the values for one, and is refused elsewhere. -/
lemma registerPayload_cases (clientName : Json) (redirectUris : List Json) (clientId : String) (now : ℤ)
    (s : Tables) :
    (∃ e, registerPayload W clientName redirectUris clientId now s = .error e ∧
        Run.final (OAuth.step P S) s (payloadOps W clientName redirectUris clientId now) = s) ∨
      ∃ uris s', registerPayload W clientName redirectUris clientId now s = .ok (uris, s') ∧
        Run.final (OAuth.step P S) s (payloadOps W clientName redirectUris clientId now) = s' := by
  unfold registerPayload payloadOps
  cases redirectUris.mapM W.str with
  | none => exact .inl ⟨_, rfl, rfl⟩
  | some uris =>
    simp only [orStop, Option.elim_some, ok_bind]
    cases nameText W clientName with
    | none =>
      -- the client is registered under no name and the transaction is not committed
      cases registerClient (.text "") uris clientId now s with
      | error e => exact .inl ⟨e, rfl, rfl⟩
      | ok s' => exact .inl ⟨_, rfl, rfl⟩
    | some name =>
      simp only [Run.final_cons, Run.final_nil, OAuth.step]
      cases registerClient name uris clientId now s with
      | error e => exact .inl ⟨e, rfl, rfl⟩
      | ok s' => exact .inr ⟨uris, s', rfl, rfl⟩

lemma postRegister_final (draws : Draws) (now : ℤ) (body : Bytes) (s : Tables) :
    (postRegister W draws now body s).1 =
      Run.final (OAuth.step P S) s (registerOps W draws now body) := by
  unfold postRegister registerOps
  cases W.loads body with
  | error e =>
    cases e with
    | valueError => rfl
    | recursionError => rfl
  | ok payload =>
    cases payload with
    | obj fields =>
      dsimp only
      cases fields.lookup (.text "redirect_uris") with
      | none => rfl
      | some uris =>
        cases uris with
        | arr redirectUris =>
          dsimp only
          obtain ⟨e, hrefused, hfinal⟩ | ⟨uris, s', hregistered, hfinal⟩ :=
            registerPayload_cases (P := P) (S := S) (W := W)
              ((fields.lookup (.text "client_name")).getD .null) redirectUris draws.clientId now s
          · rw [hrefused, hfinal]
          · rw [hregistered, hfinal]
        | null => rfl
        | bool b => rfl
        | int n => rfl
        | float x => rfl
        | str text => rfl
        | obj fields => rfl
    | null => rfl
    | bool b => rfl
    | int n => rfl
    | float x => rfl
    | str text => rfl
    | arr items => rfl

lemma getAuthorize_final (draws : Draws) (now : ℤ) (query : List (String × String)) (s : Tables) :
    (getAuthorize S W draws now query s).1 = Run.final (OAuth.step P S) s
      (if formGet query "response_type" ≠ some "code" then []
        else [.beginAuthorization (authorizationRequest query) draws.requestId draws.userCode now]) := by
  unfold getAuthorize
  split
  · rfl
  · dsimp only
    split
    · rename_i s' hbegin
      simp [OAuth.step, hbegin]
    · rename_i s' e hbegin
      simp [OAuth.step, hbegin]

lemma getPoll_final (draws : Draws) (now : ℤ) (query : List (String × String)) (s : Tables) :
    (getPoll P W draws now query s).1 =
      Run.final (OAuth.step P S) s [.poll (formText query "request_id") draws.secret now] := by
  unfold getPoll
  simp only [Run.final_cons, Run.final_nil, OAuth.step]
  cases poll P (formText query "request_id") draws.secret now s with
  | error e => rfl
  | ok result =>
    obtain ⟨handed, s'⟩ := result
    cases handed with
    | none => rfl
    | some handed => rfl

lemma postToken_final (draws : Draws) (now : ℤ) (body : Bytes) (s : Tables) :
    (postToken P W draws now body s).1 =
      Run.final (OAuth.step P S) s (tokenOps W draws now body) := by
  unfold postToken tokenOps
  dsimp only
  split
  · simp only [Run.final_cons, Run.final_nil, OAuth.step]
    cases exchangeCode P (exchangeRequest (W.parseQsl body)) draws.grantId draws.access
        draws.refreshToken now s with
    | error e => rfl
    | ok result => rfl
  split
  · rw [Run.final_cons, Run.final_nil, step_refresh]
    split
    · rename_i h
      rw [h]
    · rename_i h
      rw [h]
  · rfl

lemma oauthApp_final (draws : Draws) (now : ℤ) (r : Request) (s : Tables) :
    (oauthApp P S W base draws now r s).1 = Run.final (OAuth.step P S) s (requestOps S W draws now r) := by
  unfold oauthApp requestOps
  cases r.toScope.raw with
  | none => rfl
  | some raw =>
    dsimp only
    cases routeOf S r.method raw with
    | none => rfl
    | some route =>
      cases route with
      | asMetadata => rfl
      | prMetadata => rfl
      | register => exact postRegister_final draws now _ s
      | authorize => exact getAuthorize_final draws now _ s
      | poll => exact getPoll_final draws now _ s
      | token => exact postToken_final draws now _ s

/-- **A deployment runs the operations of the authorization server and nothing else.** -/
lemma final_eq (P : Platform) (S : Stdlib) (W : Web) (app : App) (base : String) (s : Tables)
    (acts : List Act) : Run.final (step P S W app base) s acts =
      Run.final (OAuth.step P S) s (acts.flatMap (actOps S W app)) := by
  refine Run.final_flatMap (fun s act => ?_) s acts
  cases act with
  | request r draws now =>
    unfold step actOps
    dsimp only
    by_cases hserves : app.serves r.toScope = true
    · rw [if_pos hserves, ← oauthApp_final, handle_eq_authorizationServer.mpr hserves]
    · rw [if_neg hserves]
      split
      · rfl
      · rename_i h
        exact absurd (handle_eq_authorizationServer.mp h) hserves
      · rfl
  | oauthApprove code now =>
    by_cases hcode : code.truthy = true
    · simp only [step, actOps, hcode, Bool.not_true, Bool.false_eq_true, if_false, if_true,
        Run.final_cons, Run.final_nil, OAuth.step]
      cases approve S code now s <;> rfl
    · simp [step, actOps, hcode]
  | oauthRevoke now => rfl

/-! ## Who reaches the tools -/

/-- Where an operation of the run behind the acts comes from. -/
inductive Source (W : Web) (acts : List Act) : OAuth.Op → Prop
  | register {r : Request} {draws : Draws} {now : ℤ} {fields : List (PyStr × Json)}
    {redirectUris : List Json} {uris : List PyStr} {name : PyStr} : .request r draws now ∈ acts →
      W.loads (readBody [] r.chunks) = .ok (.obj fields) →
      fields.lookup (.text "redirect_uris") = some (.arr redirectUris) →
      redirectUris.mapM W.str = some uris →
      Source W acts (.registerClient name uris draws.clientId now)
  | authorize {r : Request} {draws : Draws} {now : ℤ} : .request r draws now ∈ acts →
      Source W acts (.beginAuthorization (authorizationRequest (W.parseQsl r.queryString))
        draws.requestId draws.userCode now)
  | poll {r : Request} {draws : Draws} {now : ℤ} : .request r draws now ∈ acts →
      Source W acts (.poll (formText (W.parseQsl r.queryString) "request_id") draws.secret now)
  | exchange {r : Request} {draws : Draws} {now : ℤ} {asked : ExchangeRequest} :
      .request r draws now ∈ acts →
      Source W acts (.exchangeCode asked draws.grantId draws.access draws.refreshToken now)
  | refresh {r : Request} {draws : Draws} {now : ℤ} {refreshToken clientId : PyStr} :
      .request r draws now ∈ acts →
      Source W acts (.refresh refreshToken clientId draws.grantId draws.access draws.refreshToken now)
  | approve {code : PyStr} {now : ℤ} : .oauthApprove code now ∈ acts → Source W acts (.approve code now)
  | revokeAll {now : ℤ} : .oauthRevoke now ∈ acts → Source W acts (.revokeAll now)

lemma source_of_registerOps {acts : List Act} {r : Request} {draws : Draws} {now : ℤ} {op : OAuth.Op}
    (hact : .request r draws now ∈ acts) (h : op ∈ registerOps W draws now (readBody [] r.chunks)) :
    Source W acts op := by
  unfold registerOps at h
  split at h
  swap
  · cases h
  rename_i fields hfields
  split at h
  swap
  · cases h
  rename_i redirectUris hredirectUris
  unfold payloadOps at h
  split at h
  · rename_i uris name huris hname
    rw [List.mem_singleton.mp h]
    exact .register hact hfields hredirectUris huris
  · cases h

lemma source_of_tokenOps {acts : List Act} {r : Request} {draws : Draws} {now : ℤ} {op : OAuth.Op}
    (hact : .request r draws now ∈ acts) (h : op ∈ tokenOps W draws now (readBody [] r.chunks)) :
    Source W acts op := by
  unfold tokenOps at h
  dsimp only at h
  split at h
  · rw [List.mem_singleton.mp h]
    exact .exchange hact
  split at h
  · rw [List.mem_singleton.mp h]
    exact .refresh hact
  · cases h

lemma source_of_requestOps {acts : List Act} {r : Request} {draws : Draws} {now : ℤ} {op : OAuth.Op}
    (hact : .request r draws now ∈ acts) (h : op ∈ requestOps S W draws now r) : Source W acts op := by
  unfold requestOps at h
  split at h
  · cases h
  split at h
  · exact source_of_registerOps hact h
  · dsimp only at h
    split at h
    · cases h
    · rw [List.mem_singleton.mp h]
      exact .authorize hact
  · rw [List.mem_singleton.mp h]
    exact .poll hact
  · exact source_of_tokenOps hact h
  · cases h

lemma source_of_mem {acts : List Act} {op : OAuth.Op} (h : op ∈ acts.flatMap (actOps S W app)) :
    Source W acts op := by
  obtain ⟨act, hact, hop⟩ := List.mem_flatMap.mp h
  cases act with
  | request r draws now =>
    unfold actOps at hop
    dsimp only at hop
    split at hop
    · exact source_of_requestOps hact hop
    · cases hop
  | oauthApprove code now =>
    unfold actOps at hop
    dsimp only at hop
    split at hop
    · rw [List.mem_singleton.mp hop]
      exact .approve hact
    · cases hop
  | oauthRevoke now =>
    rw [List.mem_singleton.mp hop]
    exact .revokeAll hact

/-- The history of the run behind the acts. -/
def deeds (P : Platform) (S : Stdlib) (W : Web) (app : App) (acts : List Act) : List Deed :=
  Run.history (OAuth.step P S) .empty (acts.flatMap (actOps S W app))

lemma source_of_deed {acts : List Act} {d : Deed} (h : d ∈ deeds P S W app acts) :
    Source W acts d.2 := by
  have hop := List.mem_map_of_mem (f := Prod.snd) h
  unfold deeds at hop
  rw [Run.map_snd_history] at hop
  exact source_of_mem hop

/-- The operator typed a code that approved the request. -/
def Approved (P : Platform) (S : Stdlib) (W : Web) (app : App) (acts : List Act) (requestId : String) :
    Prop :=
  ∃ s userCode now, .oauthApprove userCode now ∈ acts ∧
    (s, .approve userCode now) ∈ deeds P S W app acts ∧
    (approve S userCode now s).toOption.map Prod.fst = some requestId

/-- The token is an access token that descends from a request which the operator approved. -/
def Granted (P : Platform) (S : Stdlib) (W : Web) (app : App) (acts : List Act) (token : PyStr) : Prop :=
  ∃ tokenHash request code, hash P token = some tokenHash ∧
    Lineage P S (deeds P S W app acts) tokenHash request code ∧
    Approved P S W app acts request.requestId

/-- An approval of the history was typed by the operator. -/
lemma approved_of_mem_approvals {acts : List Act} {requestId : String} {now : ℤ}
    (h : now ∈ approvals S (deeds P S W app acts) requestId) : Approved P S W app acts requestId := by
  obtain ⟨⟨s, op⟩, hdeed, happroval⟩ := List.mem_filterMap.mp h
  cases op with
  | approve userCode time =>
    have hact : .oauthApprove userCode time ∈ acts := by
      cases source_of_deed hdeed with
      | approve hact => exact hact
    refine ⟨s, userCode, time, hact, hdeed, ?_⟩
    unfold approvalOf at happroval
    dsimp only at happroval
    cases happrove : approve S userCode time s with
    | error e =>
      rw [happrove] at happroval
      cases happroval
    | ok result =>
      rw [happrove] at happroval
      obtain ⟨id, s'⟩ := result
      simp only [Option.ite_none_right_eq_some] at happroval
      rw [← happroval.1]
      rfl
  | registerClient name uris clientId time => cases happroval
  | beginAuthorization r requestId userCode time => cases happroval
  | poll requestId secret time => cases happroval
  | exchangeCode r grantId access refreshToken time => cases happroval
  | refresh refreshToken clientId freshGrant access newRefresh time => cases happroval
  | collectExpired time => cases happroval
  | revokeAll time => cases happroval

lemma middleware_of_buildOauthApp {token : PyStr} {publicUrl : Option String}
    (happ : buildOauthApp token publicUrl = some app) : app.middleware.token = token ∧
      (app.middleware.control = true → publicUrl.getD "" ≠ "") := by
  unfold buildOauthApp at happ
  split at happ
  swap
  · cases happ
  split at happ
  · cases happ
    exact ⟨rfl, by intro hcontrol; cases hcontrol⟩
  · cases happ
    exact ⟨rfl, by intro hcontrol; cases hcontrol⟩
  · rename_i url hurl
    split at happ
    · cases happ
      exact ⟨rfl, fun _ hempty => hurl hempty⟩
    · cases happ

/-- Either application guards the tools with its middleware. -/
lemma bearerAuth_of_forwarded {now : ℤ} {scope : Scope} (hhttp : scope.type = "http")
    (h : app.handle P S s now scope = .forwarded) :
    bearerAuth P S app.middleware s now scope = .forwarded := by
  cases app with
  | loopback m => exact h
  | publicApp m =>
    simp only [App.handle, publicRouter] at h
    rw [if_neg (by rw [hhttp]; decide), if_neg (not_not.mpr hhttp)] at h
    split at h
    · cases h
    split at h
    · cases h
    · exact h

/-- A request is admitted where the application forwards it. -/
lemma forwarded_of_admitted {r r' : Request} {draws : Draws} {now now' : ℤ}
    (h : .admitted r' now' ∈ (step P S W app base s (.request r draws now)).2) :
    app.handle P S s now r.toScope = .forwarded := by
  unfold step at h
  dsimp only at h
  split at h
  · assumption
  · simp at h
  · cases h

lemma admitted_of_forwarded {r : Request} {draws : Draws} {now : ℤ}
    (h : app.handle P S s now r.toScope = .forwarded) :
    .admitted r now ∈ (step P S W app base s (.request r draws now)).2 := by
  simp [step, h]

lemma served_of_serves {r : Request} {draws : Draws} {now : ℤ} (h : app.serves r.toScope = true) :
    .served r (oauthApp P S W base draws now r s).2 ∈
      (step P S W app base s (.request r draws now)).2 := by
  simp [step, handle_eq_authorizationServer.mpr h]

/-- A request is served what the authorization server answers. -/
lemma answer_of_served {r r' : Request} {draws : Draws} {now : ℤ} {response : Option Response}
    (h : .served r' response ∈ (step P S W app base s (.request r draws now)).2) :
    response = (oauthApp P S W base draws now r s).2 := by
  unfold step at h
  dsimp only at h
  split at h
  · simp at h
  · cases List.mem_singleton.mp h
    rfl
  · cases h

/-- A live token of a run descends from an approval of the operator. -/
lemma granted_of_live {acts : List Act} (hfresh : Fresh (acts.flatMap (actOps S W app))) {token : PyStr}
    {now : ℤ} (h : Live P (Run.final (step P S W app base) .empty acts) now token) :
    Granted P S W app acts token := by
  obtain ⟨row, hrow, hhash, -, -, -⟩ := h
  rw [final_eq] at hrow
  obtain ⟨-, request, code, hlineage, -⟩ := (story_run P S _ hfresh).tokens row hrow
  obtain ⟨time, htime, -⟩ := hlineage.approved
  exact ⟨row.tokenHash, request, code, hhash, hlineage, approved_of_mem_approvals htime⟩

section Sample

/-- A value with nothing in it, as JSON. -/
def sampleScalar : Json → String
  | .bool true => "true"
  | .bool false => "false"
  | .int n => toString n
  | .str (.text s) => String.ofList (JsonText.quote s.toList)
  | _ => "null"

def sampleValue : Json → String
  | .arr items => "[" ++ ", ".intercalate (items.map sampleScalar) ++ "]"
  | x => sampleScalar x

def sampleMember (f : PyStr × Json) : String :=
  sampleScalar (.str f.1) ++ ": " ++ sampleValue f.2

/-- Forms and flat objects; the only document is the registration of the run. -/
def formWeb : Web where
  parseQsl b := (UrlForm.decode b).filterMap fun p =>
    if p.2 = [] then none
    else (decodeUtf8 p.1).bind fun name => (decodeUtf8 p.2).map fun value => (name, value)
  loads b :=
    if b = utf8 "\x7b\"client_name\": \"App\", \"redirect_uris\": [\"https://app/cb?x=1\"]\x7d" then
      .ok (object [("client_name", text "App"), ("redirect_uris", .arr [text "https://app/cb?x=1"])])
    else .error .valueError
  str x := match x with
    | .str s => some s
    | _ => none
  dumps x := match x with
    | .obj fields => some (utf8 ("\x7b" ++ ", ".intercalate (fields.map sampleMember) ++ "\x7d"))
    | _ => none
  isFormat _ := false

def formDraws : Draws where
  clientId := "wvc_1"
  requestId := "wvr_1"
  userCode := "ABCDE-FGHJK"
  secret := "code-1"
  grantId := "wvg_1"
  access := "access-1"
  refreshToken := "refresh-1"

def formRequest (method path query body : String) : Request where
  type := "http"
  rawPath := some (utf8 path)
  path := some (.text path)
  headers := [(utf8 "host", utf8 "v")]
  method := .text method
  queryString := utf8 query
  chunks := [utf8 body]

def formPoll : Request := formRequest "GET" "/oauth/poll" "request_id=wvr_1" ""

/-- A client registers and asks for access, and the operator approves. -/
def formActs : List Act :=
  [.request (formRequest "POST" "/oauth/register" ""
      "\x7b\"client_name\": \"App\", \"redirect_uris\": [\"https://app/cb?x=1\"]\x7d") formDraws 1000,
    .request (formRequest "GET" "/oauth/authorize"
      ("response_type=code&client_id=wvc_1&redirect_uri=https%3A%2F%2Fapp%2Fcb%3Fx%3D1" ++
        "&code_challenge_method=S256&state=a%26b&code_challenge=" ++
        challengeOf samplePlatform (.text "verifier")) "") formDraws 1000,
    .oauthApprove (.text "ABCDE-FGHJK") 2000]

/-- The browser collects the code and the client redeems it. -/
def formGranted : List Act :=
  formActs ++
  [.request formPoll formDraws 4000,
    .request (formRequest "POST" "/oauth/token" ""
      ("grant_type=authorization_code&code=code-1&client_id=wvc_1&code_verifier=verifier" ++
        "&redirect_uri=https%3A%2F%2Fapp%2Fcb%3Fx%3D1")) formDraws 5000]

def formTools : Request :=
  ⟨sampleScope "Bearer access-1", .text "POST", [], []⟩

end Sample

end WhatsVault.Http
