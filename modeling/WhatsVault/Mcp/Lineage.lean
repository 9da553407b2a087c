import Mathlib.Data.List.Induction
import Mathlib.Data.List.Pairwise
import WhatsVault.Mcp.OffSwitch

/-!
# The lineage of a token

What an operation did is read off its deed, the tables it found together with its label: which
client it registered, which request it recorded, which code it delivered, which pair of tokens it
minted and out of what.  `Lineage` strings these together, from the registration of a client to a
token, and every token in the tables has exactly one (`tokens_have_lineage`).

The existence half is an invariant of the tables and the history.  The uniqueness half is about
the history alone: two deeds that mint one hash drew one secret, so they are one deed.
-/

namespace WhatsVault.OAuth

open Checks

/-- An operation and the tables it found. -/
abbrev Deed := Tables × Op

/-! ## What a deed did -/

inductive Registers : Deed → Client → Prop
  | mk {s s' : Tables} {name : PyStr} {uris : List PyStr} {clientId : String} {now : ℤ}
    {client : Client} : registerClient name uris clientId now s = .ok s' →
      s'.clients = s.clients ++ [client] →
      Registers (s, .registerClient name uris clientId now) client

inductive Begins (S : Stdlib) : Deed → Pending → Prop
  | mk {s s' : Tables} {r : AuthorizationRequest} {requestId userCode : String} {now : ℤ}
    {request : Pending} :
      insertPending S r requestId userCode now (collectExpired now s) = .ok s' →
      s'.pending = (collectExpired now s).pending ++ [request] →
      Begins S (s, .beginAuthorization r requestId userCode now) request

/-- When the deed approved that request, if it did. -/
def approvalOf (S : Stdlib) (requestId : String) : Deed → Option ℤ
  | (s, .approve userCode now) =>
    match approve S userCode now s with
    | .ok (id, _) => if id = requestId then some now else none
    | .error _ => none
  | _ => none

/-- The times of the successful approvals of a request. -/
def approvals (S : Stdlib) (history : List Deed) (requestId : String) : List ℤ :=
  history.filterMap (approvalOf S requestId)

inductive Delivers (P : Platform) : Deed → String → Code → Prop
  | mk {s s' : Tables} {id : PyStr} {secret : String} {now : ℤ} {requestId : String} {code : Code} :
      poll P id secret now s = .ok (some (requestId, code), s') →
      Delivers P (s, .poll id secret now) requestId code

inductive Redeems (P : Platform) : Deed → String → String → String → Prop
  | mk {s s' : Tables} {r : ExchangeRequest} {grantId access refreshToken : String} {now : ℤ}
    {codeHash accessHash refreshHash : String} :
      exchangeCode P r grantId access refreshToken now s =
        .ok ((codeHash, accessHash, refreshHash), s') →
      Redeems P (s, .exchangeCode r grantId access refreshToken now) codeHash accessHash refreshHash

inductive Rotates (P : Platform) : Deed → String → String → String → Prop
  | mk {s s' : Tables} {refreshToken clientId : PyStr} {freshGrant access newRefresh : String}
    {now : ℤ} {oldHash accessHash refreshHash : String} :
      refresh P refreshToken clientId freshGrant access newRefresh now s =
        (s', .ok (oldHash, accessHash, refreshHash)) →
      Rotates P (s, .refresh refreshToken clientId freshGrant access newRefresh now)
        oldHash accessHash refreshHash

/-- `StemsFrom P history code token`: the token was minted from the code, directly or by
rotation. -/
inductive StemsFrom (P : Platform) (history : List Deed) (code : String) : String → Prop
  | redeemed {d : Deed} {access refresh token : String} : d ∈ history →
      Redeems P d code access refresh → token = access ∨ token = refresh →
      StemsFrom P history code token
  | rotated {d : Deed} {old access refresh token : String} : StemsFrom P history code old →
      d ∈ history → Rotates P d old access refresh → token = access ∨ token = refresh →
      StemsFrom P history code token

/-- The request was recorded, for a client registered with its redirect URI. -/
structure Recorded (S : Stdlib) (history : List Deed) (request : Pending) : Prop where
  registered : ∃ d ∈ history, ∃ client, Registers d client ∧ client.clientId = request.clientId ∧
    .text request.redirectUri ∈ client.redirectUris
  begun : ∃ d ∈ history, Begins S d request

/-- The code was delivered for the request, after its approval. -/
structure Issued (P : Platform) (S : Stdlib) (history : List Deed) (request : Pending)
    (code : Code) : Prop extends Recorded S history request where
  /-- The approval was made no later than the expiry of the request. -/
  approved : ∃ now ∈ approvals S history request.requestId, now ≤ request.expiresMs
  delivered : ∃ d ∈ history, Delivers P d request.requestId code
  clientId : code.clientId = request.clientId
  redirectUri : code.redirectUri = request.redirectUri
  codeChallenge : code.codeChallenge = request.codeChallenge

/-- The code was redeemed in time by a caller with the verifier of its challenge. -/
def Redeemed (P : Platform) (history : List Deed) (code : Code) : Prop :=
  ∃ s r grantId access refreshToken now accessHash refreshHash,
    (s, .exchangeCode r grantId access refreshToken now) ∈ history ∧
    Redeems P (s, .exchangeCode r grantId access refreshToken now) code.codeHash
      accessHash refreshHash ∧
    now ≤ code.issuedMs + codeTtlMs ∧ challengeOf P r.codeVerifier = code.codeChallenge

/-- The way from the registration of a client, over a request and its code, to a token. -/
structure Lineage (P : Platform) (S : Stdlib) (history : List Deed) (tokenHash : String)
    (request : Pending) (code : Code) : Prop extends Issued P S history request code where
  redeemed : Redeemed P history code
  stems : StemsFrom P history code.codeHash tokenHash

/-! ## Histories grow -/

section Growth

variable {P : Platform} {S : Stdlib} {history history' : List Deed} (h : history ⊆ history')
include h

lemma StemsFrom.mono {code token : String} (hstems : StemsFrom P history code token) :
    StemsFrom P history' code token := by
  induction hstems with
  | redeemed hd hredeems htoken => exact .redeemed (h hd) hredeems htoken
  | rotated _ hd hrotates htoken ih => exact .rotated ih (h hd) hrotates htoken

lemma Recorded.mono {request : Pending} (hrecorded : Recorded S history request) :
    Recorded S history' request := by
  obtain ⟨⟨d, hd, hregisters⟩, ⟨d', hd', hbegins⟩⟩ := hrecorded
  exact ⟨⟨d, h hd, hregisters⟩, ⟨d', h hd', hbegins⟩⟩

lemma approvals_subset (requestId : String) :
    approvals S history requestId ⊆ approvals S history' requestId := by
  intro now hnow
  obtain ⟨d, hd, happroval⟩ := List.mem_filterMap.mp hnow
  exact List.mem_filterMap.mpr ⟨d, h hd, happroval⟩

lemma Issued.mono {request : Pending} {code : Code} (hissued : Issued P S history request code) :
    Issued P S history' request code := by
  obtain ⟨now, hnow, hle⟩ := hissued.approved
  obtain ⟨d, hd, hdelivers⟩ := hissued.delivered
  exact ⟨hissued.toRecorded.mono h, ⟨now, approvals_subset h _ hnow, hle⟩, ⟨d, h hd, hdelivers⟩,
    hissued.clientId, hissued.redirectUri, hissued.codeChallenge⟩

lemma Lineage.mono {tokenHash : String} {request : Pending} {code : Code}
    (hlineage : Lineage P S history tokenHash request code) :
    Lineage P S history' tokenHash request code := by
  obtain ⟨s, r, grantId, access, refreshToken, now, accessHash, refreshHash, hd, hredeems⟩ :=
    hlineage.redeemed
  exact ⟨hlineage.toIssued.mono h,
    ⟨s, r, grantId, access, refreshToken, now, accessHash, refreshHash, h hd, hredeems⟩,
    hlineage.stems.mono h⟩

end Growth

/-! ## What each operation writes -/

section Writes

variable {s s' : Tables}

lemma registerClient_spec {name : PyStr} {uris : List PyStr} {clientId : String} {now : ℤ}
    (h : registerClient name uris clientId now s = .ok s') :
    ∃ client, s' = { s with clients := s.clients ++ [client] } := by
  simp only [registerClient, bind_eq_ok, orStop_eq_ok, require_eq_ok, pure_eq_ok] at h
  obtain ⟨-, -, -, -, -, -, name, -, clients, hclients, rfl⟩ := h
  obtain ⟨-, rfl⟩ := Table.insert_eq_some_iff.mp hclients
  exact ⟨_, rfl⟩

lemma compareDigest_eq_true {a b : PyStr} (h : compareDigest a b = some true) : a = b :=
  of_decide_eq_true (compareDigest_eq_some.mp h).2

lemma mem_of_anyEqual {provided : PyStr} {known : List PyStr}
    (h : anyEqual provided known = some true) : provided ∈ known := by
  induction known with
  | nil => simp [anyEqual] at h
  | cons first rest ih =>
    simp only [anyEqual, Option.bind_eq_bind, Option.bind_eq_some_iff] at h
    obtain ⟨same, hsame, h⟩ := h
    cases same with
    | true => rw [compareDigest_eq_true hsame]; exact List.mem_cons_self
    | false =>
      rw [if_neg Bool.false_ne_true] at h
      exact List.mem_cons_of_mem _ (ih h)

lemma eq_text_of_encode {v : PyStr} {t : String} (h : v.encode = some t) : v = .text t := by
  cases v with
  | text u => rw [← Option.some.inj h]
  | lone codes surrogate => cases h

lemma insertPending_spec {S : Stdlib} {r : AuthorizationRequest} {requestId userCode : String}
    {now : ℤ} (h : insertPending S r requestId userCode now s = .ok s') :
    ∃ request : Pending, request.requestId = requestId ∧ request.approvedMs = none ∧
      request.collectedMs = none ∧ (∀ p ∈ s.pending, p.requestId ≠ requestId) ∧
      (∃ client ∈ s.clients, client.clientId = request.clientId ∧
        .text request.redirectUri ∈ client.redirectUris) ∧
      s' = { s with pending := s.pending ++ [request] } := by
  simp only [insertPending, bind_eq_ok, orStop_eq_ok, require_eq_ok, pure_eq_ok] at h
  obtain ⟨-, -, client, hclient, _, hredirect, -, -, -, -, -, -, -, -, -, -, redirectUri, huri,
    challenge, -, state, -, -, hfree, rfl⟩ := h
  refine ⟨_, rfl, rfl, rfl, fun p hp => (hfree p hp).1, ⟨client, ?_, rfl, ?_⟩, rfl⟩
  · simp only [findClient, bind_eq_ok, orStop_eq_ok] at hclient
    obtain ⟨id, -, hfind⟩ := hclient
    exact (Table.mem_of_find_eq_some hfind).1
  · simp only [checkRedirect, bind_eq_ok, orStop_eq_ok, require_eq_ok] at hredirect
    obtain ⟨registered, hregistered, rfl⟩ := hredirect
    rw [← eq_text_of_encode huri]
    exact mem_of_anyEqual hregistered

lemma approve_spec {S : Stdlib} {userCode : PyStr} {now : ℤ} {requestId : String}
    (h : approve S userCode now s = .ok (requestId, s')) :
    ∃ row ∈ s.pending, row.requestId = requestId ∧ row.approvedMs = none ∧ now ≤ row.expiresMs ∧
      s' = setPending requestId (fun p => { p with approvedMs := some now }) s := by
  simp only [approve, bind_eq_ok, orStop_eq_ok, require_eq_ok, pure_eq_ok, Prod.mk.injEq] at h
  obtain ⟨code, -, row, hrow, -, happroved, -, hexpires, rfl, rfl⟩ := h
  exact ⟨row, (Table.mem_of_find_eq_some hrow).1, rfl, happroved, hexpires, rfl⟩

/-- The code row `poll` stores for a request. -/
def codeRow (P : Platform) (secret : String) (now : ℤ) (row : Pending) : Code where
  codeHash := P.hexdigest (utf8 secret)
  clientId := row.clientId
  redirectUri := row.redirectUri
  codeChallenge := row.codeChallenge
  scope := row.scope
  issuedMs := now
  expiresMs := now + codeTtlMs
  consumedMs := none

lemma poll_spec {P : Platform} {id : PyStr} {secret : String} {now : ℤ} {requestId : String}
    {code : Code} (h : poll P id secret now s = .ok (some (requestId, code), s')) :
    ∃ row ∈ s.pending, row.requestId = requestId ∧ row.approvedMs ≠ none ∧
      code = codeRow P secret now row ∧ s' = setPending requestId
        (fun p => { p with collectedMs := some now }) { s with codes := s.codes ++ [code] } := by
  simp only [poll, bind_eq_ok, orStop_eq_ok] at h
  obtain ⟨key, -, h⟩ := h
  split at h
  · cases pure_eq_ok.mp h
  rename_i row hrow
  split at h
  · cases pure_eq_ok.mp h
  rename_i hready
  push Not at hready
  simp only [bind_eq_ok, orStop_eq_ok, pure_eq_ok, Prod.mk.injEq, Option.some.injEq] at h
  obtain ⟨codes, hcodes, ⟨rfl, rfl⟩, rfl⟩ := h
  obtain ⟨-, rfl⟩ := Table.insert_eq_some_iff.mp hcodes
  exact ⟨row, (Table.mem_of_find_eq_some hrow).1, rfl, hready.1, rfl, rfl⟩

lemma issue_spec {P : Platform} {clientId grantId access refreshToken : String} {now : ℤ}
    {pair : String × String} (h : issue P clientId now grantId access refreshToken s = .ok (pair, s')) :
    pair = (P.hexdigest (utf8 access), P.hexdigest (utf8 refreshToken)) ∧
      s' = { s with tokens := s.tokens ++
        [accessRow P clientId now grantId access,
          refreshRow P clientId now grantId refreshToken] } := by
  simp only [issue, bind_eq_ok, orStop_eq_ok, pure_eq_ok, Prod.mk.injEq] at h
  obtain ⟨tokens, htokens, tokens', htokens', rfl, rfl⟩ := h
  obtain ⟨-, rfl⟩ := Table.insert_eq_some_iff.mp htokens
  obtain ⟨-, rfl⟩ := Table.insert_eq_some_iff.mp htokens'
  exact ⟨rfl, by simp⟩

lemma exchangeCode_spec {P : Platform} {r : ExchangeRequest}
    {grantId access refreshToken code accessHash refreshHash : String} {now : ℤ}
    (h : exchangeCode P r grantId access refreshToken now s =
      .ok ((code, accessHash, refreshHash), s')) :
    ∃ row ∈ s.codes, row.codeHash = code ∧ now ≤ row.expiresMs ∧
      challengeOf P r.codeVerifier = row.codeChallenge ∧
      issue P row.clientId now grantId access refreshToken (consumeCode row.codeHash now s) =
        .ok ((accessHash, refreshHash), s') := by
  simp only [exchangeCode, bind_eq_ok, orStop_eq_ok, require_eq_ok, pure_eq_ok] at h
  obtain ⟨codeHash, -, row, hrow, -, -, -, hexpires, -, -, -, -, -, -, -, -, verified, hverified, -,
    hverify, ⟨pair, s₁⟩, hissue, heq⟩ := h
  simp only [Prod.mk.injEq] at heq
  obtain ⟨⟨rfl, rfl⟩, rfl⟩ := heq
  rw [hverify] at hverified
  have hchallenge := PyStr.text.inj (compareDigest_eq_true hverified)
  exact ⟨row, (Table.mem_of_find_eq_some hrow).1, rfl, hexpires, hchallenge, hissue⟩

end Writes

/-! ## The tables and their history -/

/-- A pending row as it was inserted. -/
def Pending.asked (p : Pending) : Pending := { p with approvedMs := none, collectedMs := none }

/-- A code row as it was inserted. -/
def Code.unused (c : Code) : Code := { c with consumedMs := none }

/-- Every row of the tables has its deed in the history. -/
structure Traced (P : Platform) (S : Stdlib) (history : List Deed) (s : Tables) : Prop where
  clients : ∀ c ∈ s.clients, ∃ d ∈ history, Registers d c
  pending : ∀ p ∈ s.pending, Recorded S history p.asked
  approved : ∀ p ∈ s.pending, p.approvedMs ≠ none →
    ∃ now ∈ approvals S history p.requestId, now ≤ p.expiresMs
  unapproved : ∀ p ∈ s.pending, p.approvedMs = none → approvals S history p.requestId = []
  codes : ∀ c ∈ s.codes, c.expiresMs = c.issuedMs + codeTtlMs ∧
    ∃ request, Issued P S history request c.unused
  tokens : ∀ t ∈ s.tokens, t.scope = readOnlyScope ∧ ∃ request code,
    Lineage P S history t.tokenHash request code ∧ t.clientId = request.clientId

/-- The rows of the second tables are rows of the first, up to what the operations write over. -/
structure Kept (s s' : Tables) : Prop where
  clients : s'.clients ⊆ s.clients
  pending : ∀ p ∈ s'.pending, ∃ q ∈ s.pending, p.asked = q.asked ∧ p.approvedMs = q.approvedMs
  codes : ∀ c ∈ s'.codes, ∃ b ∈ s.codes, c.unused = b.unused
  tokens : ∀ t ∈ s'.tokens, ∃ u ∈ s.tokens, t.tokenHash = u.tokenHash ∧ t.scope = u.scope ∧
    t.clientId = u.clientId

lemma Kept.refl (s : Tables) : Kept s s :=
  ⟨fun _ h => h, fun p hp => ⟨p, hp, rfl, rfl⟩, fun c hc => ⟨c, hc, rfl⟩,
    fun t ht => ⟨t, ht, rfl, rfl, rfl⟩⟩

lemma kept_collectExpired (now : ℤ) (s : Tables) : Kept s (collectExpired now s) :=
  ⟨fun _ h => h, fun p hp => ⟨p, List.mem_of_mem_filter hp, rfl, rfl⟩,
    fun c hc => ⟨c, List.mem_of_mem_filter hc, rfl⟩,
    fun t ht => ⟨t, List.mem_of_mem_filter ht, rfl, rfl, rfl⟩⟩

lemma kept_collect (requestId : String) (now : ℤ) (s : Tables) :
    Kept s (setPending requestId (fun p => { p with collectedMs := some now }) s) := by
  refine ⟨fun _ h => h, fun p hp => ?_, fun c hc => ⟨c, hc, rfl⟩,
    fun t ht => ⟨t, ht, rfl, rfl, rfl⟩⟩
  rcases mem_setPending hp with hold | ⟨q, hq, -, rfl⟩
  · exact ⟨p, hold, rfl, rfl⟩
  · exact ⟨q, hq, rfl, rfl⟩

lemma kept_consumeCode (codeHash : String) (now : ℤ) (s : Tables) :
    Kept s (consumeCode codeHash now s) := by
  refine ⟨fun _ h => h, fun p hp => ⟨p, hp, rfl, rfl⟩, fun c hc => ?_,
    fun t ht => ⟨t, ht, rfl, rfl, rfl⟩⟩
  obtain ⟨b, hb, rfl⟩ := List.mem_map.mp hc
  refine ⟨b, hb, ?_⟩
  split
  · rfl
  · rfl

lemma revokeToken_kept (now : ℤ) (t : Token) :
    (revokeToken now t).tokenHash = t.tokenHash ∧ (revokeToken now t).scope = t.scope ∧
      (revokeToken now t).clientId = t.clientId := by
  unfold revokeToken
  split
  · exact ⟨rfl, rfl, rfl⟩
  · exact ⟨rfl, rfl, rfl⟩

lemma kept_revokeFamily (grantId : Option String) (now : ℤ) (s : Tables) :
    Kept s (revokeFamily grantId now s) := by
  refine ⟨fun _ h => h, fun p hp => ⟨p, hp, rfl, rfl⟩, fun c hc => ⟨c, hc, rfl⟩, fun t ht => ?_⟩
  obtain ⟨u, hu, rfl⟩ := List.mem_map.mp ht
  refine ⟨u, hu, ?_⟩
  split
  · exact revokeToken_kept now u
  · exact ⟨rfl, rfl, rfl⟩

lemma kept_revokeAll (now : ℤ) (s : Tables) : Kept s (revokeAll now s) := by
  refine ⟨fun _ h => h, fun p hp => ⟨p, hp, rfl, rfl⟩, fun c hc => ⟨c, hc, rfl⟩, fun t ht => ?_⟩
  obtain ⟨u, hu, rfl⟩ := List.mem_map.mp ht
  exact ⟨u, hu, revokeToken_kept now u⟩

section Tracing

variable {P : Platform} {S : Stdlib} {history : List Deed} {s s' : Tables}

lemma Traced.kept (ht : Traced P S history s) (hkept : Kept s s') : Traced P S history s' where
  clients c hc := ht.clients c (hkept.clients hc)
  pending p hp := by
    obtain ⟨q, hq, hasked, -⟩ := hkept.pending p hp
    rw [hasked]
    exact ht.pending q hq
  approved p hp happroved := by
    obtain ⟨q, hq, hasked, hsame⟩ := hkept.pending p hp
    have hid : p.requestId = q.requestId := (congrArg Pending.requestId hasked :)
    have hexpires : p.expiresMs = q.expiresMs := (congrArg Pending.expiresMs hasked :)
    rw [hid, hexpires]
    exact ht.approved q hq (hsame ▸ happroved)
  unapproved p hp happroved := by
    obtain ⟨q, hq, hasked, hsame⟩ := hkept.pending p hp
    have hid : p.requestId = q.requestId := (congrArg Pending.requestId hasked :)
    rw [hid]
    exact ht.unapproved q hq (hsame ▸ happroved)
  codes c hc := by
    obtain ⟨b, hb, hunused⟩ := hkept.codes c hc
    have hexpires : c.expiresMs = b.expiresMs := (congrArg Code.expiresMs hunused :)
    have hissued : c.issuedMs = b.issuedMs := (congrArg Code.issuedMs hunused :)
    rw [hunused, hexpires, hissued]
    exact ht.codes b hb
  tokens t htoken := by
    obtain ⟨u, hu, hhash, hscope, hclient⟩ := hkept.tokens t htoken
    rw [hhash, hscope, hclient]
    exact ht.tokens u hu

/-- A deed that approves nothing leaves the tables traced. -/
lemma Traced.grow (ht : Traced P S history s) {d : Deed} (hd : ∀ id, approvalOf S id d = none) :
    Traced P S (history ++ [d]) s := by
  have hsubset : history ⊆ history ++ [d] := List.subset_append_left _ _
  refine ⟨fun c hc => ?_, fun p hp => (ht.pending p hp).mono hsubset, fun p hp happroved => ?_,
    fun p hp happroved => ?_, fun c hc => ?_, fun t htoken => ?_⟩
  · obtain ⟨d, hd, hregisters⟩ := ht.clients c hc
    exact ⟨d, hsubset hd, hregisters⟩
  · obtain ⟨now, hnow, hle⟩ := ht.approved p hp happroved
    exact ⟨now, approvals_subset hsubset _ hnow, hle⟩
  · have hsame : approvals S (history ++ [d]) p.requestId = approvals S history p.requestId := by
      simp [approvals, hd]
    rw [hsame]
    exact ht.unapproved p hp happroved
  · obtain ⟨httl, request, hissued⟩ := ht.codes c hc
    exact ⟨httl, request, hissued.mono hsubset⟩
  · obtain ⟨hscope, request, code, hlineage, hclient⟩ := ht.tokens t htoken
    exact ⟨hscope, request, code, hlineage.mono hsubset, hclient⟩

lemma Traced.addPair (ht : Traced P S history s) {a r : Token}
    (hpair : ∀ t, t = a ∨ t = r → t.scope = readOnlyScope ∧ ∃ request code,
      Lineage P S history t.tokenHash request code ∧ t.clientId = request.clientId) :
    Traced P S history { s with tokens := s.tokens ++ [a, r] } := by
  refine ⟨ht.clients, ht.pending, ht.approved, ht.unapproved, ht.codes, fun t htoken => ?_⟩
  rcases List.mem_append.mp htoken with hold | hnew
  · exact ht.tokens t hold
  · exact hpair t (List.mem_pair.mp hnew)

lemma traced_registerClient (ht : Traced P S history s) {name : PyStr} {uris : List PyStr}
    {clientId : String} {now : ℤ} (h : registerClient name uris clientId now s = .ok s') :
    Traced P S (history ++ [(s, .registerClient name uris clientId now)]) s' := by
  obtain ⟨client, rfl⟩ := registerClient_spec h
  have hgrown : Traced P S (history ++ [(s, .registerClient name uris clientId now)]) s :=
    ht.grow fun _ => rfl
  refine ⟨fun c hc => ?_, hgrown.pending, hgrown.approved, hgrown.unapproved, hgrown.codes,
    hgrown.tokens⟩
  rcases List.mem_append.mp hc with hold | hnew
  · exact hgrown.clients c hold
  · rw [List.mem_singleton.mp hnew]
    exact ⟨_, by simp, .mk h rfl⟩

lemma traced_insertPending (ht : Traced P S history s) {r : AuthorizationRequest}
    {requestId userCode : String} {now : ℤ} (hfresh : approvals S history requestId = [])
    (h : insertPending S r requestId userCode now (collectExpired now s) = .ok s') :
    Traced P S (history ++ [(s, .beginAuthorization r requestId userCode now)]) s' := by
  have hgrown : Traced P S (history ++ [(s, .beginAuthorization r requestId userCode now)])
      (collectExpired now s) := (ht.grow fun _ => rfl).kept (kept_collectExpired now s)
  obtain ⟨request, hid, happroved, hcollected, -, ⟨client, hclient, hclientId, huri⟩, rfl⟩ :=
    insertPending_spec h
  have hasked : request.asked = request := by
    cases request
    simp_all [Pending.asked]
  obtain ⟨d, hd, hregisters⟩ := hgrown.clients client hclient
  have hrecorded : Recorded S (history ++ [(s, .beginAuthorization r requestId userCode now)])
      request := ⟨⟨d, hd, client, hregisters, hclientId, huri⟩, ⟨_, by simp, .mk h rfl⟩⟩
  have hnone : approvals S (history ++ [(s, .beginAuthorization r requestId userCode now)])
      request.requestId = [] := by
    rw [hid]
    simpa [approvals, approvalOf] using hfresh
  refine ⟨hgrown.clients, fun p hp => ?_, fun p hp hset => ?_, fun p hp hunset => ?_, hgrown.codes,
    hgrown.tokens⟩
  · rcases List.mem_append.mp hp with hold | hnew
    · exact hgrown.pending p hold
    · rw [List.mem_singleton.mp hnew, hasked]
      exact hrecorded
  · rcases List.mem_append.mp hp with hold | hnew
    · exact hgrown.approved p hold hset
    · rw [List.mem_singleton.mp hnew] at hset
      exact absurd happroved hset
  · rcases List.mem_append.mp hp with hold | hnew
    · exact hgrown.unapproved p hold hunset
    · rw [List.mem_singleton.mp hnew]
      exact hnone

/-- The history after an approval: the request was not approved before. -/
lemma approvals_approve {userCode : PyStr} {now : ℤ} {requestId : String}
    (h : approve S userCode now s = .ok (requestId, s')) (id : String) :
    approvals S (history ++ [(s, .approve userCode now)]) id =
      approvals S history id ++ if requestId = id then [now] else [] := by
  have hone : approvalOf S id (s, .approve userCode now) =
      if requestId = id then some now else none := by
    simp [approvalOf, h]
  by_cases hid : requestId = id
  · simp [approvals, hone, hid]
  · simp [approvals, hone, hid]

lemma traced_approve (ht : Traced P S history s) (hunique : Table.Unique Pending.requestId s.pending)
    {userCode : PyStr} {now : ℤ} {requestId : String}
    (h : approve S userCode now s = .ok (requestId, s')) :
    Traced P S (history ++ [(s, .approve userCode now)]) s' := by
  obtain ⟨row, hrow, hid, hunset, hexpires, rfl⟩ := approve_spec h
  have hsubset : history ⊆ history ++ [(s, .approve userCode now)] := List.subset_append_left _ _
  refine ⟨fun c hc => ?_, fun p hp => ?_, fun p hp hset => ?_, fun p hp hnone => ?_, fun c hc => ?_,
    fun t htoken => ?_⟩
  · obtain ⟨d, hd, hregisters⟩ := ht.clients c hc
    exact ⟨d, hsubset hd, hregisters⟩
  · rcases mem_setPending hp with hold | ⟨q, hq, -, rfl⟩
    · exact (ht.pending p hold).mono hsubset
    · exact (ht.pending q hq).mono hsubset
  · rcases mem_setPending hp with hold | ⟨q, hq, hqid, rfl⟩
    · obtain ⟨time, htime, hle⟩ := ht.approved p hold hset
      exact ⟨time, approvals_subset hsubset _ htime, hle⟩
    · have hsame : q = row := hunique.eq_of_key_eq hq hrow (hqid.trans hid.symm)
      refine ⟨now, ?_, by rw [hsame]; exact hexpires⟩
      show now ∈ approvals S _ q.requestId
      rw [approvals_approve h, hqid, if_pos rfl]
      simp
  · obtain ⟨q, hq, heq⟩ := List.mem_map.mp hp
    by_cases hqid : q.requestId = requestId
    · rw [if_pos hqid] at heq
      rw [← heq] at hnone
      cases hnone
    · rw [if_neg hqid] at heq
      rw [← heq] at hnone ⊢
      rw [approvals_approve h, if_neg (fun hsame => hqid hsame.symm), List.append_nil]
      exact ht.unapproved q hq hnone
  · obtain ⟨httl, request, hissued⟩ := ht.codes c hc
    exact ⟨httl, request, hissued.mono hsubset⟩
  · obtain ⟨hscope, request, code, hlineage, hclient⟩ := ht.tokens t htoken
    exact ⟨hscope, request, code, hlineage.mono hsubset, hclient⟩

lemma traced_poll (ht : Traced P S history s) {id : PyStr} {secret : String} {now : ℤ}
    {requestId : String} {code : Code}
    (h : poll P id secret now s = .ok (some (requestId, code), s')) :
    Traced P S (history ++ [(s, .poll id secret now)]) s' := by
  have hgrown : Traced P S (history ++ [(s, .poll id secret now)]) s := ht.grow fun _ => rfl
  obtain ⟨row, hrow, hid, happroved, hcode, rfl⟩ := poll_spec h
  have hcollected := hgrown.kept (kept_collect requestId now s)
  have hissued : Issued P S (history ++ [(s, .poll id secret now)]) row.asked code := by
    refine ⟨hgrown.pending row hrow, hgrown.approved row hrow happroved,
      ⟨(s, .poll id secret now), by simp, ?_⟩, ?_, ?_, ?_⟩
    · show Delivers P _ row.requestId code
      rw [hid]
      exact .mk h
    all_goals rw [hcode]; rfl
  refine ⟨hcollected.clients, hcollected.pending, hcollected.approved, hcollected.unapproved,
    fun c hc => ?_, hcollected.tokens⟩
  rcases List.mem_append.mp hc with hold | hnew
  · exact hcollected.codes c hold
  · rw [List.mem_singleton.mp hnew]
    refine ⟨by rw [hcode]; rfl, row.asked, ?_⟩
    have hunused : code.unused = code := by
      rw [hcode]
      rfl
    rw [hunused]
    exact hissued

lemma traced_exchangeCode (ht : Traced P S history s) {r : ExchangeRequest}
    {grantId access refreshToken code accessHash refreshHash : String} {now : ℤ}
    (h : exchangeCode P r grantId access refreshToken now s =
      .ok ((code, accessHash, refreshHash), s')) :
    Traced P S (history ++ [(s, .exchangeCode r grantId access refreshToken now)]) s' := by
  have hgrown : Traced P S (history ++ [(s, .exchangeCode r grantId access refreshToken now)]) s :=
    ht.grow fun _ => rfl
  obtain ⟨row, hrow, rfl, hexpires, hchallenge, hissue⟩ := exchangeCode_spec h
  obtain ⟨hpair, rfl⟩ := issue_spec hissue
  obtain ⟨rfl, rfl⟩ := Prod.mk.inj hpair
  obtain ⟨httl, request, hissued⟩ := hgrown.codes row hrow
  refine (hgrown.kept (kept_consumeCode row.codeHash now s)).addPair fun t htoken => ?_
  have hredeems := Redeems.mk h
  have hlineage : ∀ hash, hash = P.hexdigest (utf8 access) ∨ hash = P.hexdigest (utf8 refreshToken) →
      Lineage P S (history ++ [(s, .exchangeCode r grantId access refreshToken now)]) hash request
        row.unused := fun hash hhash =>
    ⟨hissued, ⟨s, r, grantId, access, refreshToken, now, _, _, by simp, hredeems, httl ▸ hexpires,
      hchallenge⟩, .redeemed (by simp) hredeems hhash⟩
  rcases htoken with rfl | rfl
  · exact ⟨rfl, request, row.unused, hlineage _ (.inl rfl), hissued.clientId⟩
  · exact ⟨rfl, request, row.unused, hlineage _ (.inr rfl), hissued.clientId⟩

lemma traced_refresh (ht : Traced P S history s) (refreshToken clientId : PyStr)
    (freshGrant access newRefresh : String) (now : ℤ) :
    Traced P S (history ++ [(s, .refresh refreshToken clientId freshGrant access newRefresh now)])
      (refresh P refreshToken clientId freshGrant access newRefresh now s).1 := by
  have hgrown : Traced P S
      (history ++ [(s, .refresh refreshToken clientId freshGrant access newRefresh now)]) s :=
    ht.grow fun _ => rfl
  rcases refresh_cases P refreshToken clientId freshGrant access newRefresh now s with
    ⟨e, heq⟩ | ⟨grantId, e, heq⟩ | ⟨row, hrow, -, pair, s', hissue, heq⟩
  · rw [heq]
    exact hgrown
  · rw [heq]
    exact hgrown.kept (kept_revokeFamily grantId now s)
  · rw [heq]
    obtain ⟨hscope, request, code, hlineage, hclient⟩ := hgrown.tokens row hrow
    have hrotates := Rotates.mk heq
    obtain ⟨rfl, rfl⟩ := issue_spec hissue
    refine (hgrown.kept (kept_revokeFamily row.grantId now s)).addPair fun t htoken => ?_
    have hnew : ∀ hash, hash = P.hexdigest (utf8 access) ∨ hash = P.hexdigest (utf8 newRefresh) →
        Lineage P S
          (history ++ [(s, .refresh refreshToken clientId freshGrant access newRefresh now)]) hash
          request code := fun hash hhash =>
      ⟨hlineage.toIssued, hlineage.redeemed,
        .rotated hlineage.stems (by simp) hrotates hhash⟩
    rcases htoken with rfl | rfl
    · exact ⟨rfl, request, code, hnew _ (.inl rfl), hclient⟩
    · exact ⟨rfl, request, code, hnew _ (.inr rfl), hclient⟩

end Tracing

/-! ## Runs -/

/-- The random values an operation stores: the id of a request and the secrets whose hashes are the
keys of codes and tokens. -/
def Op.drawn : Op → List String
  | .beginAuthorization _ requestId _ _ => [requestId]
  | .poll _ secret _ => [secret]
  | .exchangeCode _ _ access refreshToken _ => [access, refreshToken]
  | .refresh _ _ _ access newRefresh _ => [access, newRefresh]
  | _ => []

/-- No random value is drawn twice. -/
def Fresh (ops : List Op) : Prop := (ops.flatMap Op.drawn).Nodup

instance (ops : List Op) : Decidable (Fresh ops) := inferInstanceAs (Decidable (List.Nodup _))

/-- What holds after every run: the tables are traced, and no request was approved twice. -/
structure Story (P : Platform) (S : Stdlib) (history : List Deed) (s : Tables) : Prop
    extends Traced P S history s where
  unique : Table.Unique Pending.requestId s.pending
  once : ∀ id, (approvals S history id).length ≤ 1
  known : ∀ id, approvals S history id ≠ [] → id ∈ (history.map Prod.snd).flatMap Op.drawn

lemma begins_drawn {S : Stdlib} {d : Deed} {request : Pending} (h : Begins S d request) :
    request.requestId ∈ d.2.drawn := by
  obtain ⟨hinsert, hpending⟩ := h
  obtain ⟨request', hid, -, -, -, -, rfl⟩ := insertPending_spec hinsert
  have hsame : request' = _ := List.singleton_inj.mp (List.append_cancel_left hpending)
  rw [← hsame, hid]
  exact List.mem_singleton_self _

lemma unique_setPending {β : Type} {column : Pending → β} {requestId : String}
    {f : Pending → Pending} {s : Tables} (hf : ∀ p, column (f p) = column p)
    (h : Table.Unique column s.pending) :
    Table.Unique column (setPending requestId f s).pending := by
  have hcolumn : (setPending requestId f s).pending.map column = s.pending.map column := by
    show (s.pending.map _).map _ = _
    rw [List.map_map]
    apply List.map_congr_left
    intro p _
    show column (if p.requestId = requestId then f p else p) = column p
    split
    · exact hf p
    · rfl
  unfold Table.Unique
  rw [hcolumn]
  exact h

lemma step_refresh {P : Platform} {S : Stdlib} {s : Tables} {refreshToken clientId : PyStr}
    {freshGrant access newRefresh : String} {now : ℤ} :
    (step P S s (.refresh refreshToken clientId freshGrant access newRefresh now)).1 =
      (refresh P refreshToken clientId freshGrant access newRefresh now s).1 := by
  simp only [step]
  split
  · rename_i h
    rw [h]
  · rename_i h
    rw [h]

/-- A column that no update of a row writes, and that a new row never repeats, stays unique. -/
lemma column_step {β : Type} {column : Pending → β} {P : Platform} {S : Stdlib} {s : Tables}
    (happroved : ∀ (p : Pending) t, column { p with approvedMs := t } = column p)
    (hcollected : ∀ (p : Pending) t, column { p with collectedMs := t } = column p)
    (hinsert : ∀ {r requestId userCode now} {s s' : Tables},
      insertPending S r requestId userCode now s = .ok s' → Table.Unique column s.pending →
        Table.Unique column s'.pending)
    (op : Op) (h : Table.Unique column s.pending) :
    Table.Unique column (step P S s op).1.pending := by
  have hexpired (now : ℤ) : Table.Unique column (collectExpired now s).pending :=
    h.sublist (List.filter_sublist.map _)
  cases op with
  | registerClient name uris clientId now =>
    simp only [step]
    split
    · rename_i hs
      obtain ⟨client, rfl⟩ := registerClient_spec hs
      exact h
    · exact h
  | beginAuthorization r requestId userCode now =>
    simp only [step, beginAuthorization]
    split
    · rename_i hs
      exact hinsert hs (hexpired now)
    · exact hexpired now
  | approve userCode now =>
    simp only [step]
    split
    · rename_i hs
      obtain ⟨row, -, -, -, -, rfl⟩ := approve_spec hs
      exact unique_setPending (fun p => happroved p _) h
    · exact h
  | poll id secret now =>
    simp only [step]
    split
    · rename_i hs
      obtain ⟨row, -, -, -, -, rfl⟩ := poll_spec hs
      exact unique_setPending (fun p => hcollected p _) h
    · rename_i hs
      rcases poll_eq_ok hs with ⟨-, rfl⟩ | ⟨row, -, code, hcode, -⟩
      · exact h
      · cases hcode
    · exact h
  | exchangeCode r grantId access refreshToken now =>
    simp only [step]
    split
    · rename_i hs
      obtain ⟨row, -, -, -, -, hissue⟩ := exchangeCode_spec hs
      obtain ⟨-, rfl⟩ := issue_spec hissue
      exact h
    · exact h
  | refresh refreshToken clientId freshGrant access newRefresh now =>
    rw [step_refresh]
    rcases refresh_cases P refreshToken clientId freshGrant access newRefresh now s with
      ⟨e, heq⟩ | ⟨grantId, e, heq⟩ | ⟨row, hrow, -, pair, s', hissue, heq⟩
    · rw [heq]
      exact h
    · rw [heq]
      exact h
    · rw [heq]
      obtain ⟨-, rfl⟩ := issue_spec hissue
      exact h
  | collectExpired now => exact hexpired now
  | revokeAll now => exact h

lemma unique_step {P : Platform} {S : Stdlib} {s : Tables} (op : Op)
    (h : Table.Unique Pending.requestId s.pending) :
    Table.Unique Pending.requestId (step P S s op).1.pending := by
  refine column_step (fun _ _ => rfl) (fun _ _ => rfl) (fun hs hunique => ?_) op h
  obtain ⟨request, hid, -, -, hfree, -, rfl⟩ := insertPending_spec hs
  refine hunique.append fun p hp => ?_
  rw [hid]
  exact hfree p hp

lemma traced_step {P : Platform} {S : Stdlib} {history : List Deed} {s : Tables}
    (h : Story P S history s) (op : Op)
    (hfresh : ∀ x ∈ op.drawn, x ∉ (history.map Prod.snd).flatMap Op.drawn) :
    Traced P S (history ++ [(s, op)]) (step P S s op).1 := by
  have ht := h.toTraced
  cases op with
  | registerClient name uris clientId now =>
    simp only [step]
    split
    · exact traced_registerClient ht ‹_›
    · exact ht.grow fun _ => rfl
  | beginAuthorization r requestId userCode now =>
    simp only [step, beginAuthorization]
    split
    · refine traced_insertPending ht ?_ ‹_›
      by_contra hne
      exact hfresh requestId (List.mem_singleton_self _) (h.known requestId hne)
    · exact (ht.grow fun _ => rfl).kept (kept_collectExpired now s)
  | approve userCode now =>
    simp only [step]
    split
    · exact traced_approve ht h.unique ‹_›
    · rename_i hs
      exact ht.grow fun id => by simp [approvalOf, hs]
  | poll id secret now =>
    simp only [step]
    split
    · exact traced_poll ht ‹_›
    · rename_i hs
      rcases poll_eq_ok hs with ⟨-, rfl⟩ | ⟨row, -, code, hcode, -⟩
      · exact ht.grow fun _ => rfl
      · cases hcode
    · exact ht.grow fun _ => rfl
  | exchangeCode r grantId access refreshToken now =>
    simp only [step]
    split
    · exact traced_exchangeCode ht ‹_›
    · exact ht.grow fun _ => rfl
  | refresh refreshToken clientId freshGrant access newRefresh now =>
    rw [step_refresh]
    exact traced_refresh ht refreshToken clientId freshGrant access newRefresh now
  | collectExpired now => exact (ht.grow fun _ => rfl).kept (kept_collectExpired now s)
  | revokeAll now => exact (ht.grow fun _ => rfl).kept (kept_revokeAll now s)

/-- What one deed adds to the approvals of a request: nothing, or the one approval of a pending
request that had none. -/
lemma approvals_concat {P : Platform} {S : Stdlib} {history : List Deed} {s : Tables}
    (h : Story P S history s) (op : Op) (id : String) :
    approvals S (history ++ [(s, op)]) id = approvals S history id ∨
      ∃ now, approvals S (history ++ [(s, op)]) id = [now] ∧
        id ∈ (history.map Prod.snd).flatMap Op.drawn := by
  have hconcat : approvals S (history ++ [(s, op)]) id =
      approvals S history id ++ (approvalOf S id (s, op)).toList := by
    cases happroval : approvalOf S id (s, op) with
    | none => simp [approvals, happroval]
    | some now => simp [approvals, happroval]
  cases happroval : approvalOf S id (s, op) with
  | none =>
    left
    rw [hconcat, happroval]
    simp
  | some now =>
    right
    cases op with
    | approve userCode time =>
      simp only [approvalOf] at happroval
      split at happroval
      · rename_i requestId s' hs
        obtain ⟨row, hrow, hid, hunset, -, -⟩ := approve_spec hs
        split at happroval
        · rename_i hsame
          have hrowid : row.requestId = id := hid.trans hsame
          refine ⟨time, ?_, ?_⟩
          · rw [approvals_approve hs, if_pos hsame, ← hrowid, h.unapproved row hrow hunset]
            rfl
          · obtain ⟨d, hd, hbegins⟩ := (h.pending row hrow).begun
            have hdrawn := begins_drawn hbegins
            have hasked : row.asked.requestId = id := hrowid
            rw [hasked] at hdrawn
            exact List.mem_flatMap.mpr ⟨d.2, List.mem_map_of_mem hd, hdrawn⟩
        · cases happroval
      · cases happroval
    | registerClient name uris clientId time => cases happroval
    | beginAuthorization r requestId userCode time => cases happroval
    | poll requestId secret time => cases happroval
    | exchangeCode r grantId access refreshToken time => cases happroval
    | refresh refreshToken clientId freshGrant access newRefresh time => cases happroval
    | collectExpired time => cases happroval
    | revokeAll time => cases happroval

/-- One step. -/
theorem story_step {P : Platform} {S : Stdlib} {history : List Deed} {s : Tables}
    (h : Story P S history s) (op : Op)
    (hfresh : ∀ x ∈ op.drawn, x ∉ (history.map Prod.snd).flatMap Op.drawn) :
    Story P S (history ++ [(s, op)]) (step P S s op).1 := by
  have hgrow : ∀ id, id ∈ (history.map Prod.snd).flatMap Op.drawn →
      id ∈ ((history ++ [(s, op)]).map Prod.snd).flatMap Op.drawn := by
    intro id hid
    rw [List.map_append, List.flatMap_append]
    exact List.mem_append_left _ hid
  refine ⟨traced_step h op hfresh, unique_step op h.unique, fun id => ?_, fun id hne => ?_⟩
  · rcases approvals_concat h op id with hsame | ⟨now, hone, -⟩
    · rw [hsame]
      exact h.once id
    · rw [hone]
      exact le_rfl
  · rcases approvals_concat h op id with hsame | ⟨now, hone, hknown⟩
    · rw [hsame] at hne
      exact hgrow id (h.known id hne)
    · exact hgrow id hknown

/-- Every run: the invariant of the tables and the history. -/
theorem story_run (P : Platform) (S : Stdlib) (ops : List Op) (hfresh : Fresh ops) :
    Story P S (Run.history (step P S) .empty ops) (Run.final (step P S) .empty ops) := by
  induction ops using List.reverseRecOn with
  | nil =>
    refine ⟨⟨?_, ?_, ?_, ?_, ?_, ?_⟩, List.nodup_nil, fun id => Nat.zero_le 1, fun id h => absurd rfl h⟩
    all_goals
      intro x hx
      cases hx
  | append_singleton ops op ih =>
    have hsplit : (ops.flatMap Op.drawn).Nodup ∧ op.drawn.Nodup ∧
        (ops.flatMap Op.drawn).Disjoint op.drawn := by
      have hnodup := hfresh
      rw [Fresh, List.flatMap_append, List.nodup_append'] at hnodup
      simpa using hnodup
    rw [Run.history_concat, Run.final_concat]
    refine story_step (ih hsplit.1) op fun x hx hold => ?_
    rw [Run.map_snd_history] at hold
    exact hsplit.2.2 hold hx

/-! ## One lineage a token -/

section Unique

variable {P : Platform} {history : List Deed}

/-- The deed drew the secret behind that hash. -/
def Mints (P : Platform) (d : Deed) (hash : String) : Prop :=
  ∃ secret ∈ d.2.drawn, P.hexdigest (utf8 secret) = hash

lemma mints_of_delivers {d : Deed} {requestId : String} {code : Code}
    (h : Delivers P d requestId code) : Mints P d code.codeHash := by
  obtain ⟨hpoll⟩ := h
  obtain ⟨row, -, -, -, rfl, -⟩ := poll_spec hpoll
  exact ⟨_, List.mem_singleton_self _, rfl⟩

lemma mints_of_redeems {d : Deed} {code access refresh token : String}
    (h : Redeems P d code access refresh) (htoken : token = access ∨ token = refresh) :
    Mints P d token := by
  obtain ⟨hexchange⟩ := h
  obtain ⟨row, -, -, -, -, hissue⟩ := exchangeCode_spec hexchange
  obtain ⟨hpair, -⟩ := issue_spec hissue
  obtain ⟨rfl, rfl⟩ := Prod.mk.inj hpair
  rcases htoken with rfl | rfl
  · exact ⟨_, List.mem_cons_self, rfl⟩
  · exact ⟨_, List.mem_cons_of_mem _ (List.mem_singleton_self _), rfl⟩

lemma mints_of_rotates {d : Deed} {old access refresh token : String}
    (h : Rotates P d old access refresh) (htoken : token = access ∨ token = refresh) :
    Mints P d token := by
  obtain ⟨hrefresh⟩ := h
  rename_i s s' refreshToken clientId freshGrant secret newRefresh now
  rcases refresh_cases P refreshToken clientId freshGrant secret newRefresh now s with
    ⟨e, heq⟩ | ⟨grantId, e, heq⟩ | ⟨row, -, -, pair, s₁, hissue, heq⟩
  · rw [heq] at hrefresh
    cases hrefresh
  · rw [heq] at hrefresh
    cases hrefresh
  · rw [heq] at hrefresh
    obtain ⟨rfl, -⟩ := issue_spec hissue
    simp only [Prod.mk.injEq, Except.ok.injEq] at hrefresh
    obtain ⟨-, -, rfl, rfl⟩ := hrefresh
    rcases htoken with rfl | rfl
    · exact ⟨_, List.mem_cons_self, rfl⟩
    · exact ⟨_, List.mem_cons_of_mem _ (List.mem_singleton_self _), rfl⟩

/-- What was drawn once names the deed that drew it. -/
lemma eq_of_drawn (hfresh : Fresh (history.map Prod.snd)) {d d' : Deed} (hd : d ∈ history)
    (hd' : d' ∈ history) {x : String} (hx : x ∈ d.2.drawn) (hx' : x ∈ d'.2.drawn) : d = d' := by
  have hpairwise : history.Pairwise fun a b => List.Disjoint a.2.drawn b.2.drawn := by
    rw [Fresh, List.flatMap_map] at hfresh
    exact (List.nodup_flatMap.mp hfresh).2
  have hsymm : Std.Symm fun a b : Deed => List.Disjoint a.2.drawn b.2.drawn :=
    ⟨fun _ _ h _ hx hx' => h hx' hx⟩
  by_contra hne
  exact hpairwise.forall hd hd' hne hx hx'

lemma eq_of_mints (hsha : Function.Injective P.sha256) (hfresh : Fresh (history.map Prod.snd))
    {d d' : Deed} (hd : d ∈ history) (hd' : d' ∈ history) {hash : String} (h : Mints P d hash)
    (h' : Mints P d' hash) : d = d' := by
  obtain ⟨x, hx, hhash⟩ := h
  obtain ⟨x', hx', hhash'⟩ := h'
  have hsame : x = x' :=
    utf8_injective (Platform.hexdigest_injective hsha (hhash.trans hhash'.symm))
  exact eq_of_drawn hfresh hd hd' hx (hsame ▸ hx')

lemma redeems_inj {d : Deed} {code access refresh code' access' refresh' : String}
    (h : Redeems P d code access refresh) (h' : Redeems P d code' access' refresh') :
    code = code' := by
  obtain ⟨hexchange⟩ := h
  obtain ⟨hexchange'⟩ := h'
  rw [hexchange] at hexchange'
  simp only [Except.ok.injEq, Prod.mk.injEq] at hexchange'
  exact hexchange'.1.1

lemma rotates_inj {d : Deed} {old access refresh old' access' refresh' : String}
    (h : Rotates P d old access refresh) (h' : Rotates P d old' access' refresh') : old = old' := by
  obtain ⟨hrefresh⟩ := h
  obtain ⟨hrefresh'⟩ := h'
  rw [hrefresh] at hrefresh'
  simp only [Prod.mk.injEq, Except.ok.injEq] at hrefresh'
  exact hrefresh'.2.1

lemma not_rotates_of_redeems {d : Deed} {code access refresh old access' refresh' : String}
    (h : Redeems P d code access refresh) : ¬ Rotates P d old access' refresh' := by
  intro h'
  obtain ⟨-⟩ := h
  cases h'

/-- A token was minted from one code. -/
lemma stems_unique (hsha : Function.Injective P.sha256) (hfresh : Fresh (history.map Prod.snd))
    {code code' token : String} (h : StemsFrom P history code token)
    (h' : StemsFrom P history code' token) : code = code' := by
  induction h with
  | redeemed hd hredeems htoken =>
    cases h' with
    | redeemed hd' hredeems' htoken' =>
      obtain rfl := eq_of_mints hsha hfresh hd hd' (mints_of_redeems hredeems htoken)
        (mints_of_redeems hredeems' htoken')
      exact redeems_inj hredeems hredeems'
    | rotated hold hd' hrotates' htoken' =>
      obtain rfl := eq_of_mints hsha hfresh hd hd' (mints_of_redeems hredeems htoken)
        (mints_of_rotates hrotates' htoken')
      exact absurd hrotates' (not_rotates_of_redeems hredeems)
  | rotated hold hd hrotates htoken ih =>
    cases h' with
    | redeemed hd' hredeems' htoken' =>
      obtain rfl := eq_of_mints hsha hfresh hd hd' (mints_of_rotates hrotates htoken)
        (mints_of_redeems hredeems' htoken')
      exact absurd hrotates (not_rotates_of_redeems hredeems')
    | rotated hold' hd' hrotates' htoken' =>
      obtain rfl := eq_of_mints hsha hfresh hd hd' (mints_of_rotates hrotates htoken)
        (mints_of_rotates hrotates' htoken')
      exact ih (rotates_inj hrotates hrotates' ▸ hold')

/-- A token has one lineage. -/
theorem lineage_unique {S : Stdlib} (hsha : Function.Injective P.sha256)
    (hfresh : Fresh (history.map Prod.snd)) {token : String} {request request' : Pending}
    {code code' : Code} (h : Lineage P S history token request code)
    (h' : Lineage P S history token request' code') : request = request' ∧ code = code' := by
  have hhash := stems_unique hsha hfresh h.stems h'.stems
  obtain ⟨d, hd, hdelivers⟩ := h.delivered
  obtain ⟨d', hd', hdelivers'⟩ := h'.delivered
  obtain rfl := eq_of_mints hsha hfresh hd hd' (mints_of_delivers hdelivers)
    (hhash ▸ mints_of_delivers hdelivers')
  have hsame : request.requestId = request'.requestId ∧ code = code' := by
    obtain ⟨hpoll⟩ := hdelivers
    cases hdelivers' with
    | mk hpoll' =>
      rw [hpoll] at hpoll'
      simp only [Except.ok.injEq, Prod.mk.injEq, Option.some.injEq] at hpoll'
      exact hpoll'.1
  obtain ⟨e, he, hbegins⟩ := h.begun
  obtain ⟨e', he', hbegins'⟩ := h'.begun
  obtain rfl := eq_of_drawn hfresh he he' (begins_drawn hbegins)
    (hsame.1 ▸ begins_drawn hbegins')
  refine ⟨?_, hsame.2⟩
  obtain ⟨hinsert, hpending⟩ := hbegins
  cases hbegins' with
  | mk hinsert' hpending' =>
    rw [hinsert] at hinsert'
    obtain rfl := Except.ok.inj hinsert'
    exact List.singleton_inj.mp (List.append_cancel_left (hpending.symm.trans hpending'))

end Unique

/-- **OAuth lineage and binding.**  After every run in which no random value repeats, every token
has the read-only scope and exactly one lineage, to a request that was approved exactly once, and it
belongs to the client of that request. -/
theorem tokens_have_lineage (P : Platform) (S : Stdlib) (hsha : Function.Injective P.sha256)
    (ops : List Op) (hfresh : Fresh ops) (t : Token)
    (ht : t ∈ (Run.final (step P S) .empty ops).tokens) :
    t.scope = readOnlyScope ∧ ∃ request code,
      Lineage P S (Run.history (step P S) .empty ops) t.tokenHash request code ∧
      (approvals S (Run.history (step P S) .empty ops) request.requestId).length = 1 ∧
      t.clientId = request.clientId ∧
      ∀ request' code', Lineage P S (Run.history (step P S) .empty ops) t.tokenHash request' code' →
        request' = request ∧ code' = code := by
  have hstory := story_run P S ops hfresh
  obtain ⟨hscope, request, code, hlineage, hclient⟩ := hstory.tokens t ht
  have hone : (approvals S (Run.history (step P S) .empty ops) request.requestId).length = 1 := by
    obtain ⟨now, hnow, -⟩ := hlineage.approved
    have hpos := List.length_pos_of_mem hnow
    have hle := hstory.once request.requestId
    omega
  refine ⟨hscope, request, code, hlineage, hone, hclient, fun request' code' hlineage' => ?_⟩
  refine lineage_unique hsha ?_ hlineage' hlineage
  rw [Run.map_snd_history]
  exact hfresh

/-- One request, approved and redeemed, and its pair rotated once. -/
def sampleRun : List Op :=
  sampleBegin ++ sampleApprove :: sampleRedeem ++
    [.refresh (.text "refresh-1") (.text "wvc_1") "wvg_2" "access-2" "refresh-2" 6000]

theorem tokens_have_lineage_sample :
    (accessRow samplePlatform "wvc_1" 6000 "wvg_1" "access-2").scope = readOnlyScope ∧
      ∃ request code,
      Lineage samplePlatform sampleStdlib
        (Run.history (step samplePlatform sampleStdlib) .empty sampleRun)
        (samplePlatform.hexdigest (utf8 "access-2")) request code ∧
      (approvals sampleStdlib (Run.history (step samplePlatform sampleStdlib) .empty sampleRun)
        request.requestId).length = 1 ∧
      "wvc_1" = request.clientId ∧
      ∀ request' code', Lineage samplePlatform sampleStdlib
          (Run.history (step samplePlatform sampleStdlib) .empty sampleRun)
          (samplePlatform.hexdigest (utf8 "access-2")) request' code' →
        request' = request ∧ code' = code :=
  tokens_have_lineage samplePlatform sampleStdlib (fun b c h => List.append_cancel_right h) sampleRun
    (by decide) (accessRow samplePlatform "wvc_1" 6000 "wvg_1" "access-2")
    (by decide +kernel)

end WhatsVault.OAuth
