import WhatsVault.Mcp.Collection
import WhatsVault.Mcp.OAuthHttp

/-!
# What escapes the public surface

Everything a stranger sends reaches `OAuthApp` or `BearerAuthMiddleware`, and only an `OAuthError` is
turned into a response.  `compare_digest` raises another exception on text that is not ASCII, and the
text of a bearer header, a client id, a redirect URI or a code challenge is whatever was sent; a JSON
document may be nested deeper than the parser goes, and a client name may hold a lone surrogate.
`AppEscapes` and `GateEscapes` list these requests, and every other one is answered
(`answered_iff`).
-/

namespace WhatsVault.Http

open OAuth Checks

/-! ## Comparisons -/

/-- A registered URI is compared with the one provided, and one of the two is not ASCII. -/
def Clashes (provided : PyStr) (registered : List PyStr) : Prop :=
  ∃ before known after, registered = before ++ known :: after ∧ provided ∉ before ∧
    ¬ Comparable provided known

lemma anyEqual_eq_none {provided : PyStr} {registered : List PyStr} :
    anyEqual provided registered = none ↔ Clashes provided registered := by
  induction registered with
  | nil => simp [anyEqual, Clashes]
  | cons known rest ih =>
    have hcons : Clashes provided (known :: rest) ↔
        ¬ Comparable provided known ∨ provided ≠ known ∧ Clashes provided rest := by
      constructor
      · rintro ⟨before, known', after, heq, hnot, hclash⟩
        cases before with
        | nil =>
          obtain ⟨rfl, rfl⟩ := List.cons.inj heq
          exact .inl hclash
        | cons first before =>
          obtain ⟨rfl, rfl⟩ := List.cons.inj heq
          rw [List.mem_cons, not_or] at hnot
          exact .inr ⟨hnot.1, before, known', after, rfl, hnot.2, hclash⟩
      · rintro (hclash | ⟨hne, before, known', after, rfl, hnot, hclash⟩)
        · exact ⟨[], known, rest, rfl, by simp, hclash⟩
        · exact ⟨known :: before, known', after, rfl, by simp [hne, hnot], hclash⟩
    rw [hcons]
    unfold anyEqual
    cases hcompare : compareDigest provided known with
    | none => simp [compareDigest_eq_none.mp hcompare]
    | some same =>
      obtain ⟨hcomparable, rfl⟩ := compareDigest_eq_some.mp hcompare
      by_cases heq : provided = known
      · subst heq
        simp [hcomparable]
      · simp [heq, hcomparable, ih]

/-! ## What the operations raise -/

/-- The ids and secrets drawn for a request are not stored. -/
structure Fresh (P : Platform) (draws : Draws) (s : Tables) : Prop where
  clientId : ∀ c ∈ s.clients, c.clientId ≠ draws.clientId
  request : ∀ p ∈ s.pending, p.requestId ≠ draws.requestId ∧ p.userCode ≠ draws.userCode
  secret : ∀ c ∈ s.codes, c.codeHash ≠ P.hexdigest (utf8 draws.secret)
  pair : FreshPair P s draws.access draws.refreshToken
  distinct : P.hexdigest (utf8 draws.access) ≠ P.hexdigest (utf8 draws.refreshToken)

/-- The URIs of a registration pass its checks. -/
def Acceptable (uris : List PyStr) : Prop :=
  uris ≠ [] ∧ uris.length ≤ maxRedirectUris ∧ ∀ uri ∈ uris, checkUri uri = .ok ()

section Operations

variable {P : Platform} {S : Stdlib} {s : Tables} {now : ℤ}

lemma bounded_ne_raised {value : PyStr} {limit : ℕ} {field : String} :
    bounded value limit field ≠ .error .raised := require_ne_error (by simp)

lemma checkUri_ne_raised (uri : PyStr) : checkUri uri ≠ .error .raised := by
  refine bind_ne_error bounded_ne_raised fun _ => ?_
  exact bind_ne_error (require_ne_error (by simp)) fun _ => require_ne_error (by simp)

/-- A registration raises where its URIs pass and its name cannot be bound. -/
lemma registerClient_eq_raised {name : PyStr} {uris : List PyStr} {clientId : String}
    (hfresh : ∀ c ∈ s.clients, c.clientId ≠ clientId) :
    registerClient name uris clientId now s = .error .raised ↔
      Acceptable uris ∧ clientName name = none := by
  have hinsert (name : String) :
      Table.insert Client.clientId ⟨clientId, name, uris, now⟩ s.clients =
        some (s.clients ++ [⟨clientId, name, uris, now⟩]) :=
    Table.insert_eq_some_iff.mpr ⟨hfresh, rfl⟩
  unfold registerClient Acceptable
  rw [require_bind_eq_error (by simp), require_bind_eq_error (by simp),
    bind_eq_error_of_ne (forM_ne_error checkUri_ne_raised), and_assoc, and_assoc]
  refine and_congr_right fun _ => and_congr_right fun _ => ?_
  simp only [forM_eq_ok, exists_and_left, exists_const]
  refine and_congr_right fun _ => ?_
  rw [bind_eq_error_of_rest, orStop_eq_error]
  intro name
  rw [hinsert]
  intro h
  cases h

lemma exists_registerClient_eq_ok {name : PyStr} {uris : List PyStr} {clientId : String}
    (hfresh : ∀ c ∈ s.clients, c.clientId ≠ clientId) :
    (∃ s', registerClient name uris clientId now s = .ok s') ↔
      Acceptable uris ∧ clientName name ≠ none := by
  unfold registerClient Acceptable
  simp only [bind_eq_ok, require_eq_ok, forM_eq_ok, orStop_eq_ok, Table.insert_eq_some_iff,
    pure_eq_ok]
  constructor
  · rintro ⟨s', -, hne, -, hlength, -, huris, name, hname, -⟩
    exact ⟨⟨hne, hlength, huris⟩, by simp [hname]⟩
  · rintro ⟨⟨hne, hlength, huris⟩, hname⟩
    obtain ⟨name, hname⟩ := Option.ne_none_iff_exists'.mp hname
    exact ⟨_, (), hne, (), hlength, (), huris, name, hname, _, ⟨hfresh, rfl⟩, rfl⟩

/-- The requests that wait for approval, and count against the cap. -/
def livePending (now : ℤ) (s : Tables) : ℕ :=
  ((collectExpired now s).pending.filter fun p => p.approvedMs = none ∧ now < p.expiresMs).length

lemma checkRedirect_eq_raised {client : Client} {uri : PyStr} :
    checkRedirect client uri = .error .raised ↔ Clashes uri client.redirectUris := by
  unfold checkRedirect
  rw [bind_eq_error_of_rest fun _ => require_ne_error (by simp), orStop_eq_error, anyEqual_eq_none]

/-- An authorization raises where there is room for it, its client is known, and its redirect URI
cannot be compared with those of the client. -/
lemma beginAuthorization_eq_raised {query : List (String × String)} {requestId userCode : String}
    (hfresh : ∀ p ∈ s.pending, p.requestId ≠ requestId ∧ p.userCode ≠ userCode) :
    (beginAuthorization S (authorizationRequest query) requestId userCode now s).2 =
        .error .raised ↔
      livePending now s < maxPending ∧ ∃ client,
        Table.find Client.clientId ((formGet query "client_id").getD "") s.clients = some client ∧
        Clashes (formText query "redirect_uri") client.redirectUris := by
  have hfree : ∀ p ∈ (collectExpired now s).pending,
      p.requestId ≠ requestId ∧ p.userCode ≠ userCode :=
    fun p hp => hfresh p (List.mem_of_mem_filter hp)
  have hclient : findClient (collectExpired now s) (authorizationRequest query).clientId =
      orStop (Table.find Client.clientId ((formGet query "client_id").getD "") s.clients)
        (.oauth "invalid_client" "unknown client") := rfl
  have hstate : ((authorizationRequest query).state.forM
      fun state => bounded state maxStateLen "state") ≠ .error .raised := by
    cases (authorizationRequest query).state with
    | none => simp [Option.forM, pure, Except.pure]
    | some state => exact bounded_ne_raised
  have hbind : ∃ state, bindState (authorizationRequest query).state = some state := by
    unfold authorizationRequest
    cases formGet query "state" with
    | none => exact ⟨none, rfl⟩
    | some state => exact ⟨some state, rfl⟩
  have hinsert : (beginAuthorization S (authorizationRequest query) requestId userCode now s).2 =
        .error .raised ↔
      insertPending S (authorizationRequest query) requestId userCode now (collectExpired now s) =
        .error .raised := by
    unfold beginAuthorization
    dsimp only
    split
    · rename_i s' hok
      simp [hok]
    · rename_i e herror
      simp [herror]
  rw [hinsert]
  unfold insertPending
  rw [require_bind_eq_error (by simp), hclient, orStop_bind_eq_error (by simp)]
  refine and_congr_right fun _ => exists_congr fun client => and_congr_right fun _ => ?_
  rw [bind_eq_error_of_rest]
  · exact checkRedirect_eq_raised
  -- what follows the redirect URI refuses or stores: a query is text, and the draws are fresh
  · intro _
    refine bind_ne_error hstate fun _ => ?_
    refine bind_ne_error (require_ne_error (by simp)) fun _ => ?_
    refine bind_ne_error bounded_ne_raised fun _ => ?_
    refine bind_ne_error (require_ne_error (by simp)) fun _ => ?_
    refine bind_ne_error (require_ne_error (by simp)) fun _ => ?_
    obtain ⟨state, hstate⟩ := hbind
    rw [hstate, require, if_pos hfree]
    intro h
    cases h

/-- The digits of a challenge are ASCII. -/
lemma base64Digit_lt (n : ℕ) : (base64Digit n).toNat < 128 := by
  by_cases hn : n < 64
  · have hall : ∀ m < 64, (base64Digit m).toNat < 128 := by decide
    exact hall n hn
  · have hlast : base64Digit n = '_' := by
      unfold base64Digit
      rw [if_neg (by omega), if_neg (by omega), if_neg (by omega), if_neg (by omega)]
    rw [hlast]
    decide

lemma base64url_lt (b : Bytes) : ∀ c ∈ base64url b, c.toNat < 128 := by
  induction b using base64url.induct with
  | case1 => simp [base64url]
  | case2 x => simp [base64url, base64Digit_lt]
  | case3 x y => simp [base64url, base64Digit_lt]
  | case4 x y z rest ih =>
    intro c hc
    unfold base64url at hc
    rcases List.mem_append.mp hc with hc | hc
    · simp only [List.mem_cons, List.not_mem_nil, or_false] at hc
      rcases hc with rfl | rfl | rfl | rfl <;> exact base64Digit_lt _
    · exact ih c hc

lemma isAscii_challengeOf (verifier : PyStr) :
    isAscii (.text (challengeOf P verifier)) = true := by
  simp only [isAscii, PyStr.codes, challengeOf, String.toList_ofList, List.all_map,
    List.all_eq_true, Function.comp_apply, decide_eq_true_eq]
  exact fun c hc => base64url_lt _ c hc

/-- A comparison that has to succeed. -/
lemma compared_eq_raised {a b : PyStr} {e : Refusal} {β : Type} {rest : Unit → Except Refusal β}
    (he : e ≠ .raised) :
    (do
      let same ← orStop (compareDigest a b) Refusal.raised
      let checked ← require same e
      rest checked) = .error .raised ↔
      ¬ Comparable a b ∨ a = b ∧ rest () = .error .raised := by
  rw [bind_eq_error, orStop_eq_error, compareDigest_eq_none]
  simp only [orStop_eq_ok, compareDigest_eq_some, require_bind_eq_error he]
  constructor
  · rintro (hclash | ⟨same, ⟨-, rfl⟩, heq, hrest⟩)
    · exact .inl hclash
    · exact .inr ⟨of_decide_eq_true heq, hrest⟩
  · rintro (hclash | ⟨heq, hrest⟩)
    · exact .inl hclash
    · by_cases hcomparable : Comparable a b
      · exact .inr ⟨true, ⟨hcomparable, decide_eq_true heq⟩, rfl, hrest⟩
      · exact .inl hcomparable

/-- The text compared in an exchange, or the challenge of the code, is not ASCII. -/
def ExchangeClashes (row : Code) (r : ExchangeRequest) : Prop :=
  ¬ Comparable r.clientId (.text row.clientId) ∨
    r.clientId = .text row.clientId ∧
      (¬ Comparable r.redirectUri (.text row.redirectUri) ∨
        r.redirectUri = .text row.redirectUri ∧ isAscii (.text row.codeChallenge) = false)

lemma redeem_eq_raised {r : ExchangeRequest} {row : Code} {grantId access refreshToken : String}
    (hfresh : FreshPair P s access refreshToken)
    (hdistinct : P.hexdigest (utf8 access) ≠ P.hexdigest (utf8 refreshToken)) :
    redeem P row r grantId access refreshToken now s = .error .raised ↔
      row.consumedMs = none ∧ now ≤ row.expiresMs ∧ ExchangeClashes row r := by
  have hissue : (do
      let issued ← issue P row.clientId now grantId access refreshToken
        (consumeCode row.codeHash now s)
      pure ((row.codeHash, issued.1), issued.2)) ≠ Except.error Refusal.raised := by
    have hconsumed : FreshPair P (consumeCode row.codeHash now s) access refreshToken := hfresh
    rw [issue_eq hconsumed, if_neg hdistinct]
    intro h
    cases h
  have hchallenge : ¬ Comparable (.text (challengeOf P r.codeVerifier)) (.text row.codeChallenge) ↔
      isAscii (.text row.codeChallenge) = false := by
    simp [Comparable, isAscii_challengeOf]
  unfold redeem ExchangeClashes
  rw [require_bind_eq_error (by simp), require_bind_eq_error (by simp),
    compared_eq_raised (by simp), compared_eq_raised (by simp), compared_eq_raised (by simp),
    hchallenge]
  simp only [hissue, and_false, or_false]

/-- A rotation raises where it compares a client id that is not ASCII. -/
lemma rotate_eq_raised {row : Token} {clientId : PyStr} {freshGrant access newRefresh : String}
    (hfresh : FreshPair P s access newRefresh)
    (hdistinct : P.hexdigest (utf8 access) ≠ P.hexdigest (utf8 newRefresh)) :
    (rotate P row clientId freshGrant access newRefresh now s).2 = .error .raised ↔
      row.revokedMs = none ∧ now ≤ row.expiresMs ∧ ¬ Comparable clientId (.text row.clientId) := by
  unfold rotate
  split
  · rename_i hrevoked
    simp [hrevoked]
  rename_i hlive
  rw [not_not] at hlive
  split
  · rename_i hexpired
    simp [hlive, not_le.mpr hexpired]
  rename_i hvalid
  rw [not_lt] at hvalid
  split
  · rename_i hnone
    simp [hlive, hvalid, compareDigest_eq_none.mp hnone]
  · rename_i hsome
    simp [(compareDigest_eq_some.mp hsome).1]
  · rename_i hsome
    rw [issue_eq hfresh.revokeFamily, if_neg hdistinct]
    simp [(compareDigest_eq_some.mp hsome).1]

end Operations

/-! ## Answers -/

/-- A 2xx or a 4xx. -/
def Proper (status : ℕ) : Prop := (200 ≤ status ∧ status < 300) ∨ (400 ≤ status ∧ status < 500)

instance (status : ℕ) : Decidable (Proper status) := inferInstanceAs (Decidable (_ ∨ _))

/-- One complete response was sent. -/
def Answered (x : Option Response) : Prop := ∃ resp, x = some resp ∧ Proper resp.status

/-- The inner application was called, or one complete response was sent. -/
def Handled (x : Answer) : Prop := x = .forwarded ∨ ∃ resp, x = .response resp ∧ Proper resp.status

/-- A value with nothing nested in it. -/
def Scalar : Json → Prop
  | .null | .bool _ | .str _ => True
  | .int n => fitsInt64 n = true
  | .float _ | .arr _ | .obj _ => False

/-- A scalar or a list of scalars. -/
def Plain (x : Json) : Prop := Scalar x ∨ ∃ items, x = .arr items ∧ ∀ item ∈ items, Scalar item

/-- `json.dumps` raises on no dictionary of plain values. -/
def Web.Writes (W : Web) : Prop :=
  ∀ fields, (∀ field ∈ fields, Plain field.2) → W.dumps (object fields) ≠ none

lemma plain_text (s : String) : Plain (text s) := .inl trivial

section Handlers

variable {P : Platform} {S : Stdlib} {W : Web} {draws : Draws} {s : Tables} {now : ℤ}

lemma not_answered_none : ¬ Answered none := by
  rintro ⟨resp, hnone, -⟩
  cases hnone

lemma answered_jsonResponse {status : ℕ} {payload : Json} (hstatus : Proper status) :
    Answered (jsonResponse W status payload) ↔ W.dumps payload ≠ none := by
  unfold jsonResponse
  cases W.dumps payload with
  | none => exact iff_of_false not_answered_none (by simp)
  | some body => exact iff_of_true ⟨_, rfl, hstatus⟩ (by simp)

lemma answered_errorResponse (hwrites : W.Writes) {status : ℕ} {code description : String}
    (hstatus : Proper status) :
    Answered (errorResponse W status code description) := by
  refine (answered_jsonResponse hstatus).mpr (hwrites _ ?_)
  simp [plain_text]

/-- An `OAuthError` is answered, another exception is not. -/
lemma answered_refused (hwrites : W.Writes) {e : Refusal} :
    Answered (refused W e) ↔ e ≠ .raised := by
  cases e with
  | oauth code description =>
    exact iff_of_true (answered_errorResponse hwrites (by decide)) (by simp)
  | raised => exact iff_of_false not_answered_none (by simp)

/-! ## Registration -/

/-- A registration with a body nested too deeply, a URI or a name that no string is made of, a name
that cannot be stored, or an answer that cannot be written. -/
def RegisterEscapes (W : Web) (clientId : String) (body : Bytes) : Prop :=
  W.loads body = .error .recursionError ∨
  ∃ fields redirectUris, W.loads body = .ok (.obj fields) ∧
    fields.lookup (.text "redirect_uris") = some (.arr redirectUris) ∧
    (redirectUris.mapM W.str = none ∨
      ∃ uris, redirectUris.mapM W.str = some uris ∧ Acceptable uris ∧
        ((nameText W ((fields.lookup (.text "client_name")).getD .null)).bind clientName = none ∨
          W.dumps (registered clientId ((fields.lookup (.text "client_name")).getD .null) uris) =
            none))

/-- The answer to a registration is written unless its name nests. -/
lemma registered_written (hwrites : W.Writes) {name : Json} (hplain : Plain name)
    (clientId : String) (uris : List PyStr) : W.dumps (registered clientId name uris) ≠ none := by
  refine hwrites _ ?_
  have hlist {items : List Json} (h : ∀ item ∈ items, Scalar item) : Plain (.arr items) :=
    .inr ⟨items, rfl, h⟩
  have huris : Plain (.arr (uris.map .str)) := hlist (by simp [Scalar])
  have hgrants : Plain (.arr [text "authorization_code", text "refresh_token"]) :=
    hlist (by simp [Scalar, text])
  have hcode : Plain (.arr [text "code"]) := hlist (by simp [Scalar, text])
  simp [hplain, huris, hgrants, hcode, plain_text]

lemma registerPayload_eq_raised {name : Json} {redirectUris : List Json} {clientId : String}
    (hfresh : ∀ c ∈ s.clients, c.clientId ≠ clientId) :
    registerPayload W name redirectUris clientId now s = .error .raised ↔
      redirectUris.mapM W.str = none ∨
        ∃ uris, redirectUris.mapM W.str = some uris ∧ Acceptable uris ∧
          (nameText W name).bind clientName = none := by
  unfold registerPayload
  rw [bind_eq_error, orStop_eq_error]
  simp only [orStop_eq_ok]
  refine or_congr_right (exists_congr fun uris => and_congr_right fun _ => ?_)
  cases nameText W name with
  | some name =>
    rw [Option.bind_some, ← registerClient_eq_raised hfresh]
    exact map_eq_error
  | none =>
    -- the URIs are checked before the name turns out not to be writable
    have hempty : clientName (.text "") ≠ none := nofun
    have hnamed : ¬ registerClient (.text "") uris clientId now s = .error .raised :=
      fun hraised => hempty (registerClient_eq_raised hfresh |>.mp hraised).2
    rw [bind_eq_error_of_ne hnamed]
    simp [exists_registerClient_eq_ok hfresh, hempty]

lemma exists_registerPayload_eq_ok {name : Json} {redirectUris : List Json} {clientId : String}
    (hfresh : ∀ c ∈ s.clients, c.clientId ≠ clientId) {uris : List PyStr} :
    (∃ s', registerPayload W name redirectUris clientId now s = .ok (uris, s')) ↔
      redirectUris.mapM W.str = some uris ∧ Acceptable uris ∧
        (nameText W name).bind clientName ≠ none := by
  unfold registerPayload
  simp only [bind_eq_ok, orStop_eq_ok]
  cases nameText W name with
  | some name =>
    rw [Option.bind_some, ← exists_registerClient_eq_ok hfresh]
    simp only [map_eq_ok, Prod.mk.injEq]
    constructor
    · rintro ⟨s', _, huris, s'', hs'', rfl, rfl⟩
      exact ⟨huris, s'', hs''⟩
    · rintro ⟨huris, s', hs'⟩
      exact ⟨s', uris, huris, s', hs', rfl, rfl⟩
  | none => simp [bind_eq_ok]

/-- What a registration raises on, and the answer that cannot be written. -/
lemma registerEscapes_iff {clientId : String} (hfresh : ∀ c ∈ s.clients, c.clientId ≠ clientId)
    {body : Bytes} {fields : List (PyStr × Json)} {redirectUris : List Json} {name : Json}
    (hloads : W.loads body = .ok (.obj fields))
    (hlookup : fields.lookup (.text "redirect_uris") = some (.arr redirectUris))
    (hname : (fields.lookup (.text "client_name")).getD .null = name) :
    RegisterEscapes W clientId body ↔
      registerPayload W name redirectUris clientId now s = .error .raised ∨
        ∃ uris, (∃ s', registerPayload W name redirectUris clientId now s = .ok (uris, s')) ∧
          W.dumps (registered clientId name uris) = none := by
  subst hname
  rw [registerPayload_eq_raised hfresh]
  simp only [exists_registerPayload_eq_ok hfresh]
  have hsame : RegisterEscapes W clientId body ↔
      redirectUris.mapM W.str = none ∨
        ∃ uris, redirectUris.mapM W.str = some uris ∧ Acceptable uris ∧
          ((nameText W ((fields.lookup (.text "client_name")).getD .null)).bind clientName = none ∨
            W.dumps (registered clientId ((fields.lookup (.text "client_name")).getD .null) uris) =
              none) := by
    unfold RegisterEscapes
    constructor
    · rintro (hdeep | ⟨fields', redirectUris', hloads', hlookup', h⟩)
      · rw [hloads] at hdeep
        cases hdeep
      · obtain rfl : fields = fields' := by simpa [hloads] using hloads'
        obtain rfl : redirectUris = redirectUris' := by simpa [hlookup] using hlookup'
        exact h
    · intro h
      exact .inr ⟨fields, redirectUris, hloads, hlookup, h⟩
  rw [hsame, or_assoc]
  refine or_congr_right ?_
  rw [← exists_or]
  refine exists_congr fun uris => ?_
  by_cases hbind :
      (nameText W ((fields.lookup (.text "client_name")).getD .null)).bind clientName = none
  · simp [hbind]
  · simp [hbind, and_assoc]

lemma postRegister_answered (hwrites : W.Writes)
    (hfresh : ∀ c ∈ s.clients, c.clientId ≠ draws.clientId) (body : Bytes) :
    Answered (postRegister W draws now body s).2 ↔ ¬ RegisterEscapes W draws.clientId body := by
  have herror (code description : String) : Answered (errorResponse W 400 code description) :=
    answered_errorResponse hwrites (by decide)
  unfold postRegister
  split
  · rename_i hloads
    exact iff_of_true (herror _ _) (by simp [RegisterEscapes, hloads])
  · rename_i hloads
    exact iff_of_false not_answered_none (by simp [RegisterEscapes, hloads])
  · rename_i fields hloads
    split
    · rename_i redirectUris hlookup
      generalize hname : (fields.lookup (.text "client_name")).getD .null = name
      have hescapes : RegisterEscapes W draws.clientId body ↔
          registerPayload W name redirectUris draws.clientId now s = .error .raised ∨ _ :=
        registerEscapes_iff hfresh hloads hlookup hname
      dsimp only
      split
      · rename_i uris s' hok
        rw [hescapes, answered_jsonResponse (by decide), hok]
        simp
      · rename_i e herr
        rw [hescapes, answered_refused hwrites, herr]
        simp
    · rename_i hnot
      refine iff_of_true (herror _ _) ?_
      rintro (hdeep | ⟨fields', redirectUris, hloads', hlookup, -⟩)
      · rw [hloads] at hdeep
        cases hdeep
      · obtain rfl : fields = fields' := by simpa [hloads] using hloads'
        exact hnot _ hlookup
  · rename_i hnot hloads
    refine iff_of_true (herror _ _) ?_
    rintro (hdeep | ⟨fields, redirectUris, hloads', -⟩)
    · rw [hloads] at hdeep
      cases hdeep
    · rw [hloads] at hloads'
      exact hnot _ (Except.ok.inj hloads')

/-! ## Authorization, poll and tokens -/

/-- An authorization request for a known client, with room for it, whose redirect URI cannot be
compared. -/
def AuthorizeEscapes (now : ℤ) (query : List (String × String)) (s : Tables) : Prop :=
  formGet query "response_type" = some "code" ∧ livePending now s < maxPending ∧ ∃ client,
    Table.find Client.clientId ((formGet query "client_id").getD "") s.clients = some client ∧
    Clashes (formText query "redirect_uri") client.redirectUris

lemma getAuthorize_answered (hwrites : W.Writes)
    (hfresh : ∀ p ∈ s.pending, p.requestId ≠ draws.requestId ∧ p.userCode ≠ draws.userCode)
    (query : List (String × String)) :
    Answered (getAuthorize S W draws now query s).2 ↔ ¬ AuthorizeEscapes now query s := by
  have hraised :
      (beginAuthorization S (authorizationRequest query) draws.requestId draws.userCode now s).2 =
          .error .raised ↔ _ :=
    beginAuthorization_eq_raised hfresh
  unfold getAuthorize AuthorizeEscapes
  rw [← hraised]
  by_cases hcode : formGet query "response_type" = some "code"
  · rw [if_neg (not_not.mpr hcode)]
    dsimp only
    split
    · rename_i s' hok
      exact iff_of_true ⟨_, rfl, (by decide : Proper 200)⟩ (by simp [hok])
    · rename_i s' e herror
      simp [answered_refused hwrites, herror, hcode]
  · rw [if_pos hcode]
    exact iff_of_true (answered_errorResponse hwrites (by decide)) fun h => hcode h.1

lemma getPoll_answered (hwrites : W.Writes)
    (hfresh : ∀ c ∈ s.codes, c.codeHash ≠ P.hexdigest (utf8 draws.secret))
    (query : List (String × String)) : Answered (getPoll P W draws now query s).2 := by
  have hpoll : ∀ e, poll P (formText query "request_id") draws.secret now s ≠ .error e := by
    intro e
    rw [poll_eq _ hfresh]
    split
    · exact nofun
    · split <;> exact nofun
  unfold getPoll
  split
  · exact (answered_jsonResponse (by decide)).mpr (hwrites _ (by simp [Plain, Scalar]))
  · exact (answered_jsonResponse (by decide)).mpr (hwrites _ (by simp [Plain, Scalar, text]))
  · rename_i e herror
    exact absurd herror (hpoll e)

/-- A form for a good code or refresh token, with text in it, or a challenge behind it, that cannot
be compared. -/
def TokenEscapes (P : Platform) (now : ℤ) (form : List (String × String)) (s : Tables) : Prop :=
  (formGet form "grant_type" = some "authorization_code" ∧
    ∃ row, storedCode P s (formText form "code") = some row ∧ row.consumedMs = none ∧
      now ≤ row.expiresMs ∧ ExchangeClashes row (exchangeRequest form)) ∨
  (formGet form "grant_type" = some "refresh_token" ∧
    ∃ row, presentedRow P s (formText form "refresh_token") = some row ∧ row.revokedMs = none ∧
      now ≤ row.expiresMs ∧ ¬ Comparable (formText form "client_id") (.text row.clientId))

lemma exchangeCode_eq_raised (hfresh : Fresh P draws s) (form : List (String × String)) :
    exchangeCode P (exchangeRequest form) draws.grantId draws.access draws.refreshToken now s =
        .error .raised ↔
      ∃ row, storedCode P s (formText form "code") = some row ∧ row.consumedMs = none ∧
        now ≤ row.expiresMs ∧ ExchangeClashes row (exchangeRequest form) := by
  rw [exchangeCode_eq]
  show _ ↔ ∃ row, storedCode P s (exchangeRequest form).code = some row ∧ _
  cases hrow : storedCode P s (exchangeRequest form).code with
  | none =>
    have hhash : hash P (exchangeRequest form).code ≠ none := nofun
    simp [hhash]
  | some row => simp [redeem_eq_raised hfresh.pair hfresh.distinct]

lemma refresh_eq_raised (hfresh : Fresh P draws s) (form : List (String × String)) :
    (refresh P (formText form "refresh_token") (formText form "client_id") draws.grantId
        draws.access draws.refreshToken now s).2 = .error .raised ↔
      ∃ row, presentedRow P s (formText form "refresh_token") = some row ∧ row.revokedMs = none ∧
        now ≤ row.expiresMs ∧ ¬ Comparable (formText form "client_id") (.text row.clientId) := by
  rw [refresh_eq]
  cases hrow : presentedRow P s (formText form "refresh_token") with
  | none =>
    have hhash : hash P (formText form "refresh_token") ≠ none := nofun
    simp [hhash]
  | some row => simp [rotate_eq_raised hfresh.pair hfresh.distinct]

lemma postToken_answered (hwrites : W.Writes) (hfresh : Fresh P draws s) (body : Bytes) :
    Answered (postToken P W draws now body s).2 ↔ ¬ TokenEscapes P now (W.parseQsl body) s := by
  have hgranted : Answered (jsonResponse W 200 (granted draws)) :=
    (answered_jsonResponse (by decide)).mpr
      (hwrites _ (by simp [Plain, Scalar, text, accessTtlMs, fitsInt64]))
  unfold postToken TokenEscapes
  dsimp only
  rw [← exchangeCode_eq_raised hfresh, ← refresh_eq_raised hfresh]
  by_cases hcode : formGet (W.parseQsl body) "grant_type" = some "authorization_code"
  · rw [if_pos hcode]
    split
    · rename_i s' hok
      exact iff_of_true hgranted (by simp [hok, hcode])
    · rename_i e herror
      simp [answered_refused hwrites, herror, hcode]
  rw [if_neg hcode]
  by_cases hrefresh : formGet (W.parseQsl body) "grant_type" = some "refresh_token"
  · rw [if_pos hrefresh]
    split
    · rename_i s' hok
      exact iff_of_true hgranted (by simp [hok, hcode])
    · rename_i s' e herror
      simp [answered_refused hwrites, herror, hrefresh]
  · rw [if_neg hrefresh]
    exact iff_of_true (answered_errorResponse hwrites (by decide)) (by simp [hcode, hrefresh])

/-! ## Dispatch -/

/-- The request has that route. -/
def Reaches (S : Stdlib) (r : Request) (route : Route) : Prop :=
  ∃ raw, r.toScope.raw = some raw ∧ routeOf S r.method raw = some route

/-- The requests `OAuthApp` raises on. -/
inductive AppEscapes (P : Platform) (S : Stdlib) (W : Web) (draws : Draws) (now : ℤ) (r : Request)
    (s : Tables) : Prop
  | path (hraw : r.toScope.raw = none)
  | register (hroute : Reaches S r .register)
      (h : RegisterEscapes W draws.clientId (readBody [] r.chunks))
  | authorize (hroute : Reaches S r .authorize)
      (h : AuthorizeEscapes now (W.parseQsl r.queryString) s)
  | token (hroute : Reaches S r .token)
      (h : TokenEscapes P now (W.parseQsl (readBody [] r.chunks)) s)

lemma Reaches.route_eq {r : Request} {raw : Bytes} {route : Route} (hraw : r.toScope.raw = some raw)
    (h : Reaches S r route) : routeOf S r.method raw = some route := by
  obtain ⟨raw', hraw', hroute⟩ := h
  rwa [Option.some.inj (hraw.symm.trans hraw')]

/-- On one route, the requests that raise are those of its handler. -/
lemma appEscapes_iff {r : Request} {raw : Bytes} (hraw : r.toScope.raw = some raw) :
    AppEscapes P S W draws now r s ↔
      match routeOf S r.method raw with
      | some .register => RegisterEscapes W draws.clientId (readBody [] r.chunks)
      | some .authorize => AuthorizeEscapes now (W.parseQsl r.queryString) s
      | some .token => TokenEscapes P now (W.parseQsl (readBody [] r.chunks)) s
      | _ => False := by
  constructor
  · intro h
    cases h with
    | path hnone =>
      rw [hraw] at hnone
      cases hnone
    | register hroute h | authorize hroute h | token hroute h =>
      rw [hroute.route_eq hraw]
      exact h
  · intro h
    split at h
    · exact .register ⟨raw, hraw, ‹_›⟩ h
    · exact .authorize ⟨raw, hraw, ‹_›⟩ h
    · exact .token ⟨raw, hraw, ‹_›⟩ h
    · exact h.elim

lemma proper_missStatus (raw : Bytes) : Proper (missStatus raw) := by
  unfold missStatus
  split <;> decide

lemma oauthApp_answered (hwrites : W.Writes) (hfresh : Fresh P draws s) (base : String)
    (r : Request) :
    Answered (oauthApp P S W base draws now r s).2 ↔ ¬ AppEscapes P S W draws now r s := by
  unfold oauthApp
  split
  · rename_i hnone
    exact iff_of_false not_answered_none (not_not.mpr (.path hnone))
  rename_i raw hraw
  rw [appEscapes_iff hraw]
  dsimp only
  cases hroute : routeOf S r.method raw with
  | none =>
    exact iff_of_true (answered_errorResponse hwrites (proper_missStatus raw)) not_false
  | some route =>
    cases route with
    | asMetadata =>
      refine iff_of_true ((answered_jsonResponse (by decide)).mpr (hwrites _ ?_)) not_false
      simp [Plain, Scalar, text]
    | prMetadata =>
      refine iff_of_true ((answered_jsonResponse (by decide)).mpr (hwrites _ ?_)) not_false
      simp [Plain, Scalar, text]
    | register => exact postRegister_answered hwrites hfresh.clientId _
    | authorize => exact getAuthorize_answered hwrites hfresh.request _
    | poll => exact iff_of_true (getPoll_answered hwrites hfresh.secret _) not_false
    | token => exact postToken_answered hwrites hfresh _

end Handlers

/-! ## The gate -/

/-- The requests `BearerAuthMiddleware` raises on: those of a path that is no text, those with a
bearer token that cannot be compared with its own, and those it rejects where the challenge it would
send has no latin-1 form. -/
inductive GateEscapes (P : Platform) (S : Stdlib) (m : Middleware) (tables : Tables) (now : ℤ)
    (scope : Scope) : Prop
  | path (hraw : scope.raw = none)
  | bearer (raw value : Bytes) (token : PyStr) (hraw : scope.raw = some raw)
      (howned : scope.owned raw = false) (hvalue : authorizations scope.headers = [value])
      (htoken : bearerToken S value = some token) (htruthy : token.truthy = true)
      (hclash : ¬ Comparable token m.token)
  | challenge (raw : Bytes) (hraw : scope.raw = some raw) (howned : scope.owned raw = false)
      (hrejected : presented P S m tables now scope = some none) (hchallenge : challenge m = none)

section Gate

variable {P : Platform} {S : Stdlib} {m : Middleware} {tables : Tables} {now : ℤ} {scope : Scope}

lemma presentedToken_eq_none {token : PyStr} :
    presentedToken P S m tables now token = none ↔
      token.truthy = true ∧ ¬ Comparable token m.token := by
  have hrequire : requireToken token m.token = none ↔
      token.truthy = true ∧ ¬ Comparable token m.token := by
    unfold requireToken
    rw [m.token_truthy]
    cases token.truthy with
    | false => simp
    | true => simpa using compareDigest_eq_none
  rw [← hrequire]
  unfold presentedToken
  cases requireToken token m.token with
  | none => simp
  | some same =>
    simp only [Option.bind_eq_bind, Option.bind_some]
    split
    · simp
    · split <;> simp

lemma presented_eq_none :
    presented P S m tables now scope = none ↔
      ∃ value token, authorizations scope.headers = [value] ∧ bearerToken S value = some token ∧
        token.truthy = true ∧ ¬ Comparable token m.token := by
  unfold presented
  split
  · rename_i value hvalue
    rw [hvalue]
    cases htoken : bearerToken S value with
    | none => simp [htoken]
    | some token => simp [htoken, presentedToken_eq_none]
  · rename_i hnot
    refine iff_of_false nofun ?_
    rintro ⟨value, token, hvalue, -⟩
    exact hnot value hvalue

lemma gateEscapes_iff {raw : Bytes} (hraw : scope.raw = some raw) :
    GateEscapes P S m tables now scope ↔
      scope.owned raw = false ∧ (presented P S m tables now scope = none ∨
        presented P S m tables now scope = some none ∧ challenge m = none) := by
  have hsame {raw' : Bytes} (hraw' : scope.raw = some raw') : raw' = raw :=
    Option.some.inj (hraw'.symm.trans hraw)
  constructor
  · intro h
    cases h with
    | path hnone =>
      rw [hraw] at hnone
      cases hnone
    | bearer raw' value token hraw' howned hvalue htoken htruthy hclash =>
      obtain rfl := hsame hraw'
      exact ⟨howned, .inl (presented_eq_none.mpr ⟨value, token, hvalue, htoken, htruthy, hclash⟩)⟩
    | challenge raw' hraw' howned hrejected hchallenge =>
      obtain rfl := hsame hraw'
      exact ⟨howned, .inr ⟨hrejected, hchallenge⟩⟩
  · rintro ⟨howned, hnone | ⟨hrejected, hchallenge⟩⟩
    · obtain ⟨value, token, hvalue, htoken, htruthy, hclash⟩ := presented_eq_none.mp hnone
      exact .bearer raw value token hraw howned hvalue htoken htruthy hclash
    · exact .challenge raw hraw howned hrejected hchallenge

lemma bearerAuth_handled (hhttp : scope.type = "http") :
    Handled (bearerAuth P S m tables now scope) ↔ ¬ GateEscapes P S m tables now scope := by
  have hraised : ¬ Handled .raised := by
    rintro (h | ⟨resp, h, -⟩) <;> cases h
  unfold bearerAuth
  rw [if_neg (by rw [hhttp]; decide), if_neg (not_not.mpr hhttp)]
  split
  · rename_i hnone
    exact iff_of_false hraised (not_not.mpr (.path hnone))
  rename_i raw hraw
  rw [gateEscapes_iff hraw]
  split
  · rename_i howned
    exact iff_of_true (.inr ⟨_, rfl, (by decide : Proper 404)⟩) (by simp [howned])
  rename_i howned
  rw [Bool.not_eq_true] at howned
  split
  · rename_i hnone
    exact iff_of_false hraised (by simp [howned, hnone])
  · rename_i hrejected
    unfold reject
    cases hchallenge : challenge m with
    | none => exact iff_of_false hraised (by simp [howned, hrejected])
    | some value =>
      exact iff_of_true (.inr ⟨_, rfl, (by decide : Proper 401)⟩) (by simp [hrejected])
  · rename_i haccepted
    exact iff_of_true (.inl rfl) (by simp [haccepted])

end Gate

/-- **A request is answered unless it is one of those listed**, by the authorization server and by
the middleware. -/
theorem answered_iff (P : Platform) (S : Stdlib) (W : Web) (base : String) (draws : Draws) (now : ℤ)
    (r : Request) (s : Tables) (m : Middleware) (hwrites : W.Writes) (hfresh : Fresh P draws s)
    (hhttp : r.type = "http") :
    (Answered (oauthApp P S W base draws now r s).2 ↔ ¬ AppEscapes P S W draws now r s) ∧
      (Handled (bearerAuth P S m s now r.toScope) ↔ ¬ GateEscapes P S m s now r.toScope) :=
  ⟨oauthApp_answered hwrites hfresh base r, bearerAuth_handled hhttp⟩

/-! ## An accented letter -/

section Accents

def accentsPlatform : Platform := ⟨id, fun _ _ _ => false⟩

def accentsWeb : Web where
  parseQsl b :=
    if b = utf8 "response_type=code&client_id=wvc_1&redirect_uri=%C3%A9" then
      [("response_type", "code"), ("client_id", "wvc_1"), ("redirect_uri", "é")]
    else []
  loads _ := .error .valueError
  str _ := none
  dumps _ := some (utf8 "\x7b\"error\": \"not_found\", \"error_description\": \"\"\x7d")
  isFormat _ := false

def accentsDraws : Draws where
  clientId := "wvc_2"
  requestId := "wvr_2"
  userCode := "BCDF-GHJK"
  secret := "secret"
  grantId := "wvg_2"
  access := "access"
  refreshToken := "refresh"

def accentsTables : Tables :=
  { Tables.empty with clients := [⟨"wvc_1", "App", [.text "https://app/cb"], 0⟩] }

/-- An authorization request whose redirect URI is one accented letter. -/
def accentsRequest : Request where
  type := "http"
  rawPath := some (utf8 "/oauth/authorize")
  path := some (.text "/oauth/authorize")
  headers := []
  method := .text "GET"
  queryString := utf8 "response_type=code&client_id=wvc_1&redirect_uri=%C3%A9"
  chunks := []

lemma accentsWeb_writes : accentsWeb.Writes := fun _ _ => nofun

lemma accents_fresh : Fresh accentsPlatform accentsDraws accentsTables where
  clientId := by decide
  request := by decide
  secret := by decide
  pair := nofun
  distinct := by decide

theorem answered_iff_accents :
    (Answered (oauthApp accentsPlatform httpStdlib accentsWeb "https://v" accentsDraws 1000
        accentsRequest accentsTables).2 ↔
      ¬ AppEscapes accentsPlatform httpStdlib accentsWeb accentsDraws 1000 accentsRequest
        accentsTables) ∧
    (Handled (bearerAuth accentsPlatform httpStdlib sampleApp.middleware accentsTables 1000
        accentsRequest.toScope) ↔
      ¬ GateEscapes accentsPlatform httpStdlib sampleApp.middleware accentsTables 1000
        accentsRequest.toScope) :=
  answered_iff accentsPlatform httpStdlib accentsWeb "https://v" accentsDraws 1000 accentsRequest
    accentsTables sampleApp.middleware accentsWeb_writes accents_fresh rfl

/-- Neither an accented redirect URI nor an accented bearer token is refused. -/
theorem accents_unanswered :
    ¬ Answered (oauthApp accentsPlatform httpStdlib accentsWeb "https://v" accentsDraws 1000
        accentsRequest accentsTables).2 ∧
      ¬ Handled (bearerAuth accentsPlatform httpStdlib sampleApp.middleware accentsTables 1000
        (sampleScope "Bearer é")) := by
  have happ : (oauthApp accentsPlatform httpStdlib accentsWeb "https://v" accentsDraws 1000
      accentsRequest accentsTables).2 = none := by decide
  have hgate : bearerAuth accentsPlatform httpStdlib sampleApp.middleware accentsTables 1000
      (sampleScope "Bearer é") = .raised := by decide
  rw [happ, hgate]
  refine ⟨not_answered_none, ?_⟩
  rintro (h | ⟨resp, h, -⟩) <;> cases h

end Accents

end WhatsVault.Http
