import WhatsVault.Mcp.Families

/-!
# Garbage collection

`collect_expired` deletes the rows whose expiry has come, and calls it state nobody can use any more.
Its callers disagree in three ways.  They refuse a row only after its expiry, so that at the instant
itself a row can be used that a collection at that instant deletes.  `approve` and `exchange_code` say
of an expired row what it is, and of a row that is gone that it was never there.  And a rotated
refresh token is evidence as long as it is stored: presented again it kills its grant, and once it is
collected it kills nothing.

`Tells` says which call on which row shows the difference in its answer and `Forgets` which one shows
it in the tables.  A run after a collection answers every call as it would have without it, with the
same tables but for the rows collected, exactly if no call does either (`collection_invisible_iff`).
-/

namespace WhatsVault.OAuth

open Checks

variable {P : Platform} {S : Stdlib} {now t : ℤ} {s : Tables}

/-! ## Calls and answers -/

/-- A call on the tables: an operation, or `validate_access_token`. -/
inductive Call
  | op (o : Op)
  | validate (token : PyStr) (time : ℤ)

/-- What a call returns or raises, for the calls that consume a row. -/
inductive Answer
  | silent
  | approved (r : Except Refusal String)
  | polled (r : Except Refusal (Option (String × Code)))
  | exchanged (r : Except Refusal (String × String × String))
  | refreshed (r : Except Refusal (String × String × String))
  | validated (claims : Option (String × String))
  deriving DecidableEq

variable (P S) in
def answer (s : Tables) : Call → Answer
  | .op (.approve userCode now) => .approved ((approve S userCode now s).map Prod.fst)
  | .op (.poll requestId secret now) => .polled ((poll P requestId secret now s).map Prod.fst)
  | .op (.exchangeCode request grantId access refreshToken now) =>
    .exchanged ((exchangeCode P request grantId access refreshToken now s).map Prod.fst)
  | .op (.refresh refreshToken clientId freshGrant access newRefresh now) =>
    .refreshed (refresh P refreshToken clientId freshGrant access newRefresh now s).2
  | .op _ => .silent
  | .validate token time => .validated (validateAccessToken P S s token time)

variable (P S) in
/-- A call and its answer. -/
def callStep (s : Tables) (call : Call) : Tables × List Answer :=
  match call with
  | .op o => ((step P S s o).1, [answer P S s call])
  | .validate _ _ => (s, [answer P S s call])

/-- The clock value of an operation. -/
def Op.time : Op → ℤ
  | .registerClient _ _ _ now => now
  | .beginAuthorization _ _ _ now => now
  | .approve _ now => now
  | .poll _ _ now => now
  | .exchangeCode _ _ _ _ now => now
  | .refresh _ _ _ _ _ now => now
  | .collectExpired now => now
  | .revokeAll now => now

/-- A call made no earlier than `now`, whose secrets are not those of a stored code or token. -/
def Later (P : Platform) (now : ℤ) (s : Tables) : Call → Prop
  | .op o => now ≤ o.time ∧ ∀ x ∈ o.drawn, (∀ c ∈ s.codes, c.codeHash ≠ P.hexdigest (utf8 x)) ∧
      ∀ t ∈ s.tokens, t.tokenHash ≠ P.hexdigest (utf8 x)
  | .validate _ time => now ≤ time

instance decidableLater (P : Platform) (now : ℤ) (s : Tables) : ∀ call, Decidable (Later P now s call)
  | .op _ => inferInstanceAs (Decidable (_ ∧ _))
  | .validate _ _ => inferInstanceAs (Decidable (_ ≤ _))

/-! ## The row a call finds -/

/-- The row that `approve` finds. -/
def requestByCode (S : Stdlib) (s : Tables) (userCode : PyStr) : Option Pending :=
  (S.upper (S.strip userCode)).encode.bind fun code => Table.find Pending.userCode code s.pending

/-- The row that `poll` finds. -/
def requestById (s : Tables) (requestId : PyStr) : Option Pending :=
  requestId.encode.bind fun id => Table.find Pending.requestId id s.pending

/-- The row that `exchange_code` finds. -/
def storedCode (P : Platform) (s : Tables) (code : PyStr) : Option Code :=
  (hash P code).bind fun codeHash => Table.find Code.codeHash codeHash s.codes

/-- The row that `validate_access_token` finds. -/
def storedAccess (P : Platform) (S : Stdlib) (s : Tables) (token : PyStr) : Option Token :=
  if !(S.strip token).truthy then none
  else (hash P token).bind fun tokenHash =>
    s.tokens.find? fun t => t.tokenHash = tokenHash ∧ t.kind = .access

/-- A grant with a token that is neither revoked nor expired at `now`. -/
def StillGood (now : ℤ) (s : Tables) (grantId : Option String) : Prop :=
  grantId ≠ none ∧ ∃ t ∈ s.tokens, t.grantId = grantId ∧ t.revokedMs = none ∧ now < t.expiresMs

/-- The call finds a row that a collection at `now` deletes, and would have used it or named what is
wrong with it. -/
def Tells (P : Platform) (S : Stdlib) (now : ℤ) (s : Tables) : Call → Prop
  | .op (.approve userCode _) => ∃ row ∈ requestByCode S s userCode, row.expiresMs ≤ now
  | .op (.poll requestId _ t) => ∃ row ∈ requestById s requestId, row.expiresMs ≤ now ∧
      row.approvedMs ≠ none ∧ row.collectedMs = none ∧ t ≤ row.expiresMs
  | .op (.exchangeCode r _ _ _ _) => ∃ row ∈ storedCode P s r.code, row.expiresMs ≤ now
  | .op (.refresh token _ _ _ _ t) => ∃ row ∈ presentedRow P s token, row.expiresMs ≤ now ∧
      row.revokedMs = none ∧ t ≤ row.expiresMs
  | .validate token t => ∃ row ∈ storedAccess P S s token, row.expiresMs ≤ now ∧
      row.revokedMs = none ∧ t ≤ row.expiresMs
  | _ => False

/-- The call presents a rotated refresh token that a collection at `now` deletes, and whose grant is
good without it. -/
def Forgets (P : Platform) (now : ℤ) (s : Tables) : Call → Prop
  | .op (.refresh token _ _ _ _ _) => ∃ row ∈ presentedRow P s token, row.expiresMs ≤ now ∧
      row.revokedMs ≠ none ∧ StillGood now s row.grantId
  | _ => False

instance (now : ℤ) (s : Tables) (grantId : Option String) : Decidable (StillGood now s grantId) :=
  inferInstanceAs (Decidable (_ ∧ ∃ t ∈ s.tokens, _))

instance decidableTells (P : Platform) (S : Stdlib) (now : ℤ) (s : Tables) :
    ∀ call, Decidable (Tells P S now s call)
  | .op (.approve _ _) => inferInstanceAs (Decidable (∃ row ∈ requestByCode _ _ _, _))
  | .op (.poll _ _ _) => inferInstanceAs (Decidable (∃ row ∈ requestById _ _, _))
  | .op (.exchangeCode _ _ _ _ _) => inferInstanceAs (Decidable (∃ row ∈ storedCode _ _ _, _))
  | .op (.refresh _ _ _ _ _ _) => inferInstanceAs (Decidable (∃ row ∈ presentedRow _ _ _, _))
  | .validate _ _ => inferInstanceAs (Decidable (∃ row ∈ storedAccess _ _ _ _, _))
  | .op (.registerClient _ _ _ _) | .op (.beginAuthorization _ _ _ _) | .op (.collectExpired _)
  | .op (.revokeAll _) => inferInstanceAs (Decidable False)

instance decidableForgets (P : Platform) (now : ℤ) (s : Tables) :
    ∀ call, Decidable (Forgets P now s call)
  | .op (.refresh _ _ _ _ _ _) => inferInstanceAs (Decidable (∃ row ∈ presentedRow _ _ _, _))
  | .op (.approve _ _) | .op (.poll _ _ _) | .op (.exchangeCode _ _ _ _ _) | .validate _ _
  | .op (.registerClient _ _ _ _) | .op (.beginAuthorization _ _ _ _) | .op (.collectExpired _)
  | .op (.revokeAll _) => inferInstanceAs (Decidable False)

/-- The call shows a collection at `now` in its answer, or in what it leaves of the tables. -/
def Touches (P : Platform) (S : Stdlib) (now : ℤ) (s : Tables) (call : Call) : Prop :=
  Tells P S now s call ∨ Forgets P now s call

instance (P : Platform) (S : Stdlib) (now : ℤ) (s : Tables) (call : Call) :
    Decidable (Touches P S now s call) :=
  inferInstanceAs (Decidable (_ ∨ _))

/-! ## Constraints of the tables -/

/-- The PRIMARY KEY and UNIQUE constraints of the four tables. -/
structure Keyed (s : Tables) : Prop where
  requestId : Table.Unique Pending.requestId s.pending
  userCode : Table.Unique Pending.userCode s.pending
  codeHash : Table.Unique Code.codeHash s.codes
  tokenHash : Table.Unique Token.tokenHash s.tokens

instance (s : Tables) : Decidable (Keyed s) :=
  decidable_of_iff ((s.pending.map Pending.requestId).Nodup ∧ (s.pending.map Pending.userCode).Nodup ∧
      (s.codes.map Code.codeHash).Nodup ∧ (s.tokens.map Token.tokenHash).Nodup)
    ⟨fun h => ⟨h.1, h.2.1, h.2.2.1, h.2.2.2⟩,
      fun h => ⟨h.requestId, h.userCode, h.codeHash, h.tokenHash⟩⟩

lemma map_consumeCode {codeHash : String} :
    (consumeCode codeHash now s).codes.map Code.codeHash = s.codes.map Code.codeHash := by
  show (s.codes.map _).map _ = _
  rw [List.map_map]
  apply List.map_congr_left
  intro c _
  show Code.codeHash (if c.codeHash = codeHash ∧ c.consumedMs = none then
    { c with consumedMs := some now } else c) = c.codeHash
  split
  · rfl
  · rfl

lemma userCode_insertPending {r : AuthorizationRequest} {requestId userCode : String} {s' : Tables}
    (h : insertPending S r requestId userCode now s = .ok s')
    (hs : Table.Unique Pending.userCode s.pending) : Table.Unique Pending.userCode s'.pending := by
  simp only [insertPending, bind_eq_ok, orStop_eq_ok, require_eq_ok, pure_eq_ok] at h
  obtain ⟨-, -, client, -, -, -, -, -, -, -, -, -, -, -, -, -, redirectUri, -, challenge, -, state, -,
    -, hfree, rfl⟩ := h
  exact hs.append fun p hp => (hfree p hp).2

lemma userCode_step (op : Op) (h : Table.Unique Pending.userCode s.pending) :
    Table.Unique Pending.userCode (step P S s op).1.pending :=
  column_step (fun _ _ => rfl) (fun _ _ => rfl) userCode_insertPending op h

lemma unique_poll {requestId : PyStr} {secret : String} {r : Option (String × Code)} {s' : Tables}
    (h : poll P requestId secret now s = .ok (r, s')) (hs : Table.Unique Code.codeHash s.codes) :
    Table.Unique Code.codeHash s'.codes := by
  simp only [poll, bind_eq_ok, orStop_eq_ok] at h
  obtain ⟨id, -, h⟩ := h
  split at h
  · cases pure_eq_ok.mp h
    exact hs
  · split at h
    · cases pure_eq_ok.mp h
      exact hs
    · simp only [bind_eq_ok, orStop_eq_ok, pure_eq_ok, Prod.mk.injEq] at h
      obtain ⟨codes, hcodes, -, rfl⟩ := h
      exact hs.insert hcodes

lemma codeHash_step (op : Op) (h : Table.Unique Code.codeHash s.codes) :
    Table.Unique Code.codeHash (step P S s op).1.codes := by
  have hcollected (now : ℤ) : Table.Unique Code.codeHash (collectExpired now s).codes :=
    h.sublist (List.filter_sublist.map _)
  cases op with
  | registerClient name uris clientId now =>
    simp only [step]
    split
    · rename_i hs
      obtain ⟨client, rfl⟩ := registerClient_spec hs
      exact h
    · exact h
  | beginAuthorization r requestId userCode now =>
    simp only [step, beginAuthorization]
    split
    · rename_i hs
      obtain ⟨request, -, -, -, -, -, rfl⟩ := insertPending_spec hs
      exact hcollected now
    · exact hcollected now
  | approve userCode now =>
    simp only [step]
    split
    · rename_i hs
      obtain ⟨row, -, -, -, -, rfl⟩ := approve_spec hs
      exact h
    · exact h
  | poll id secret now =>
    simp only [step]
    split
    · exact unique_poll ‹_› h
    · exact unique_poll ‹_› h
    · exact h
  | exchangeCode r grantId access refreshToken now =>
    simp only [step]
    split
    · rename_i hs
      obtain ⟨row, -, -, -, -, hissue⟩ := exchangeCode_spec hs
      obtain ⟨-, rfl⟩ := issue_spec hissue
      show List.Nodup _
      rwa [map_consumeCode]
    · exact h
  | refresh refreshToken clientId freshGrant access newRefresh now =>
    rw [step_refresh]
    rcases refresh_cases P refreshToken clientId freshGrant access newRefresh now s with
      ⟨e, heq⟩ | ⟨grantId, e, heq⟩ | ⟨row, hrow, -, pair, s', hissue, heq⟩
    · rw [heq]
      exact h
    · rw [heq]
      exact h
    · rw [heq]
      obtain ⟨-, rfl⟩ := issue_spec hissue
      exact h
  | collectExpired now => exact hcollected now
  | revokeAll now => exact h

lemma keyed_callStep (h : Keyed s) (call : Call) : Keyed (callStep P S s call).1 := by
  cases call with
  | op o => exact ⟨unique_step o h.requestId, userCode_step o h.userCode, codeHash_step o h.codeHash,
      uniqueTokens_step P S s o h.tokenHash⟩
  | validate token time => exact h

/-! ## Collected tables -/

lemma filter_map_of_kept {ρ : Type} {p : ρ → Bool} {f : ρ → ρ} (h : ∀ r, p (f r) = p r)
    (rows : List ρ) : (rows.map f).filter p = (rows.filter p).map f := by
  rw [List.filter_map]
  congr 1
  exact List.filter_congr fun r _ => h r

lemma setPending_collect {requestId : String} {f : Pending → Pending}
    (hf : ∀ p, (f p).expiresMs = p.expiresMs) :
    collectExpired now (setPending requestId f s) = setPending requestId f (collectExpired now s) := by
  unfold collectExpired setPending
  simp only [Tables.mk.injEq, true_and, and_true]
  apply filter_map_of_kept
  intro p
  split
  · rw [hf]
  · rfl

lemma consumeCode_collect {codeHash : String} :
    collectExpired now (consumeCode codeHash t s) = consumeCode codeHash t (collectExpired now s) := by
  unfold collectExpired consumeCode
  simp only [Tables.mk.injEq, true_and, and_true]
  apply filter_map_of_kept
  intro c
  split
  · rfl
  · rfl

lemma revokeToken_expiresMs (u : Token) : (revokeToken t u).expiresMs = u.expiresMs := by
  unfold revokeToken
  split
  · rfl
  · rfl

lemma revokeFamily_collect {grantId : Option String} :
    collectExpired now (revokeFamily grantId t s) = revokeFamily grantId t (collectExpired now s) := by
  unfold collectExpired revokeFamily
  simp only [Tables.mk.injEq, true_and]
  apply filter_map_of_kept
  intro u
  split
  · rw [revokeToken_expiresMs]
  · rfl

lemma revokeAll_collect :
    collectExpired now (revokeAll t s) = revokeAll t (collectExpired now s) := by
  unfold collectExpired revokeAll
  simp only [Tables.mk.injEq, true_and]
  apply filter_map_of_kept
  intro u
  rw [revokeToken_expiresMs]

/-- A later collection collects all that an earlier one does. -/
lemma collectExpired_collect (ht : now ≤ t) :
    collectExpired t (collectExpired now s) = collectExpired t s := by
  unfold collectExpired
  simp only [List.filter_filter, Tables.mk.injEq, true_and]
  refine ⟨List.filter_congr fun p _ => ?_, List.filter_congr fun c _ => ?_,
    List.filter_congr fun u _ => ?_⟩
  all_goals
    rw [← Bool.decide_and, decide_eq_decide]
    omega

lemma collect_of_live (hpending : ∀ p ∈ s.pending, now < p.expiresMs)
    (hcodes : ∀ c ∈ s.codes, now < c.expiresMs) (htokens : ∀ u ∈ s.tokens, now < u.expiresMs) :
    collectExpired now s = s := by
  obtain ⟨clients, pending, codes, tokens⟩ := s
  unfold collectExpired
  simp only [Tables.mk.injEq, true_and]
  refine ⟨List.filter_eq_self.mpr fun p hp => ?_, List.filter_eq_self.mpr fun c hc => ?_,
    List.filter_eq_self.mpr fun u hu => ?_⟩
  · exact decide_eq_true (hpending p hp)
  · exact decide_eq_true (hcodes c hc)
  · exact decide_eq_true (htokens u hu)

/-- What a later collection leaves an earlier one leaves too. -/
lemma live_collectExpired (ht : now ≤ t) : (∀ p ∈ (collectExpired t s).pending, now < p.expiresMs) ∧
    (∀ c ∈ (collectExpired t s).codes, now < c.expiresMs) ∧
    ∀ u ∈ (collectExpired t s).tokens, now < u.expiresMs := by
  refine ⟨fun p hp => ?_, fun c hc => ?_, fun u hu => ?_⟩
  · have hlive := of_decide_eq_true (List.mem_filter.mp hp).2
    omega
  · have hlive := of_decide_eq_true (List.mem_filter.mp hc).2
    omega
  · have hlive := of_decide_eq_true (List.mem_filter.mp hu).2
    omega

/-- An outcome with its tables collected. -/
def collected {α : Type} (now : ℤ) (r : Except Refusal (α × Tables)) : Except Refusal (α × Tables) :=
  r.map fun x => (x.1, collectExpired now x.2)

/-- The tables after an operation that leaves them as they were where it raises. -/
def afterwards {α : Type} (s : Tables) (r : Except Refusal (α × Tables)) : Tables :=
  match r with
  | .ok x => x.2
  | .error _ => s

lemma map_fst_collected {α : Type} (r : Except Refusal (α × Tables)) :
    (collected now r).map Prod.fst = r.map Prod.fst := by
  cases r with
  | ok x => rfl
  | error e => rfl

lemma afterwards_collected {α : Type} (r : Except Refusal (α × Tables)) :
    afterwards (collectExpired now s) (collected now r) = collectExpired now (afterwards s r) := by
  cases r with
  | ok x => rfl
  | error e => rfl

/-! ## Approval -/

lemma requestByCode_collect (hk : Keyed s) (userCode : PyStr) :
    requestByCode S (collectExpired now s) userCode =
      (requestByCode S s userCode).filter fun p => now < p.expiresMs := by
  unfold requestByCode
  rcases (S.upper (S.strip userCode)).encode with _ | code
  · rfl
  · exact hk.userCode.find_filter _ code

/-- `approve` of the row it finds. -/
lemma approve_eq (userCode : PyStr) : approve S userCode t s =
    match requestByCode S s userCode with
    | none => .error (if (S.upper (S.strip userCode)).encode = none then .raised
        else .oauth "invalid_request" "no such pending authorization")
    | some row =>
      if row.approvedMs ≠ none then .error (.oauth "invalid_request" "already approved")
      else if row.expiresMs < t then
        .error (.oauth "expired_token" "authorization request expired")
      else
        .ok (row.requestId, setPending row.requestId (fun p => { p with approvedMs := some t }) s) := by
  unfold approve requestByCode
  rcases (S.upper (S.strip userCode)).encode with _ | code
  · rfl
  simp only [orStop, Option.elim_some, ok_bind, Option.bind_some, reduceCtorEq, if_false]
  rcases Table.find Pending.userCode code s.pending with _ | row
  · rfl
  simp only [Option.elim_some, ok_bind, require]
  by_cases happroved : row.approvedMs = none
  · by_cases hlive : t ≤ row.expiresMs
    · rw [if_pos happroved, if_pos hlive, if_neg (not_not.mpr happroved), if_neg (by omega)]
      rfl
    · rw [if_pos happroved, if_neg hlive, if_neg (not_not.mpr happroved), if_pos (by omega)]
      rfl
  · rw [if_neg happroved, if_pos happroved]
    rfl

lemma approve_collect (hk : Keyed s) {userCode : PyStr}
    (h : ¬ Tells P S now s (.op (.approve userCode t))) :
    approve S userCode t (collectExpired now s) = collected now (approve S userCode t s) := by
  rw [approve_eq, approve_eq, requestByCode_collect hk]
  rcases hrow : requestByCode S s userCode with _ | row
  · rfl
  · have hkept : now < row.expiresMs := by
      by_contra hgone
      exact h ⟨row, hrow, not_lt.mp hgone⟩
    rw [Option.filter_some, if_pos (decide_eq_true hkept)]
    dsimp only
    split
    · rfl
    · split
      · rfl
      · have hset : collectExpired now
              (setPending row.requestId (fun p => { p with approvedMs := some t }) s) =
            setPending row.requestId (fun p => { p with approvedMs := some t })
              (collectExpired now s) := setPending_collect fun _ => rfl
        rw [← hset]
        rfl

lemma approve_differs (hk : Keyed s) {userCode : PyStr}
    (h : Tells P S now s (.op (.approve userCode t))) :
    (approve S userCode t (collectExpired now s)).map Prod.fst ≠
      (approve S userCode t s).map Prod.fst := by
  obtain ⟨row, hrow, hgone⟩ := h
  have hencode : (S.upper (S.strip userCode)).encode ≠ none := by
    intro hnone
    rw [Option.mem_def, requestByCode, hnone] at hrow
    cases hrow
  rw [approve_eq, approve_eq, requestByCode_collect hk, Option.mem_def.mp hrow, Option.filter_some,
    if_neg (by simpa using hgone)]
  dsimp only
  rw [if_neg hencode]
  split
  · simp [Except.map]
  · split
    · simp [Except.map]
    · simp [Except.map]

/-! ## Polling -/

lemma requestById_collect (hk : Keyed s) (requestId : PyStr) :
    requestById (collectExpired now s) requestId =
      (requestById s requestId).filter fun p => now < p.expiresMs := by
  unfold requestById
  rcases requestId.encode with _ | id
  · rfl
  · exact hk.requestId.find_filter _ id

/-- The code that a poll hands over. -/
def mintedCode (P : Platform) (row : Pending) (secret : String) (t : ℤ) : Code :=
  ⟨P.hexdigest (utf8 secret), row.clientId, row.redirectUri, row.codeChallenge, row.scope, t,
    t + codeTtlMs, none⟩

/-- `poll` of the row it finds, where the secret is fresh. -/
lemma poll_eq (requestId : PyStr) {secret : String}
    (hfresh : ∀ c ∈ s.codes, c.codeHash ≠ P.hexdigest (utf8 secret)) :
    poll P requestId secret t s =
    match requestById s requestId with
    | none => if requestId.encode = none then .error .raised else .ok (none, s)
    | some row =>
      if row.approvedMs = none ∨ row.collectedMs ≠ none ∨ row.expiresMs < t then .ok (none, s)
      else .ok (some (row.requestId, mintedCode P row secret t),
        setPending row.requestId (fun p => { p with collectedMs := some t })
          { s with codes := s.codes ++ [mintedCode P row secret t] }) := by
  unfold poll requestById
  rcases requestId.encode with _ | id
  · rfl
  simp only [orStop, Option.elim_some, ok_bind, Option.bind_some, reduceCtorEq, if_false]
  rcases Table.find Pending.requestId id s.pending with _ | row
  · rfl
  dsimp only
  split
  · rfl
  · have hinsert : Table.insert Code.codeHash (mintedCode P row secret t) s.codes =
        some (s.codes ++ [mintedCode P row secret t]) :=
      Table.insert_eq_some_iff.mpr ⟨hfresh, rfl⟩
    unfold mintedCode at hinsert
    rw [hinsert]
    rfl

lemma poll_collect (hk : Keyed s) (hnow : now ≤ t) {requestId : PyStr} {secret : String}
    (hfresh : ∀ c ∈ s.codes, c.codeHash ≠ P.hexdigest (utf8 secret))
    (h : ¬ Tells P S now s (.op (.poll requestId secret t))) :
    poll P requestId secret t (collectExpired now s) =
      collected now (poll P requestId secret t s) := by
  rw [poll_eq requestId hfresh,
    poll_eq requestId fun c hc => hfresh c (List.mem_of_mem_filter hc), requestById_collect hk]
  rcases hrow : requestById s requestId with _ | row
  · rw [Option.filter_none]
    dsimp only
    split
    · rfl
    · rfl
  · by_cases hkept : now < row.expiresMs
    · rw [Option.filter_some, if_pos (decide_eq_true hkept)]
      dsimp only
      split
      · rfl
      · have hlive : now < (mintedCode P row secret t).expiresMs := by
          show now < t + codeTtlMs
          unfold codeTtlMs
          omega
        have hset : collectExpired now (setPending row.requestId
              (fun p => { p with collectedMs := some t })
              { s with codes := s.codes ++ [mintedCode P row secret t] }) =
            setPending row.requestId (fun p => { p with collectedMs := some t })
              (collectExpired now { s with codes := s.codes ++ [mintedCode P row secret t] }) :=
          setPending_collect fun _ => rfl
        unfold collected
        simp only [Except.map, hset]
        unfold collectExpired
        simp only [List.filter_append, List.filter_singleton, decide_eq_true hlive, cond_true]
    · rw [Option.filter_some, if_neg (by simpa using hkept)]
      dsimp only
      have hencode : requestId.encode ≠ none := by
        intro hnone
        rw [requestById, hnone] at hrow
        cases hrow
      rw [if_neg hencode]
      split
      · rfl
      · rename_i husable
        push Not at husable
        exact absurd ⟨row, hrow, not_lt.mp hkept, husable⟩ h

lemma poll_differs (hk : Keyed s) {requestId : PyStr} {secret : String}
    (hfresh : ∀ c ∈ s.codes, c.codeHash ≠ P.hexdigest (utf8 secret))
    (h : Tells P S now s (.op (.poll requestId secret t))) :
    (poll P requestId secret t (collectExpired now s)).map Prod.fst ≠
      (poll P requestId secret t s).map Prod.fst := by
  obtain ⟨row, hrow, hgone, happroved, hcollected, hlive⟩ := h
  have hencode : requestId.encode ≠ none := by
    intro hnone
    rw [Option.mem_def, requestById, hnone] at hrow
    cases hrow
  have husable : ¬ (row.approvedMs = none ∨ row.collectedMs ≠ none ∨ row.expiresMs < t) := by
    push Not
    exact ⟨happroved, hcollected, hlive⟩
  rw [poll_eq requestId hfresh,
    poll_eq requestId fun c hc => hfresh c (List.mem_of_mem_filter hc), requestById_collect hk,
    Option.mem_def.mp hrow, Option.filter_some, if_neg (by simpa using hgone)]
  dsimp only
  rw [if_neg hencode, if_neg husable]
  simp [Except.map]

/-! ## Exchange -/

/-- The tokens of both tables are fresh. -/
def FreshPair (P : Platform) (s : Tables) (access refreshToken : String) : Prop :=
  ∀ u ∈ s.tokens, u.tokenHash ≠ P.hexdigest (utf8 access) ∧
    u.tokenHash ≠ P.hexdigest (utf8 refreshToken)

lemma FreshPair.collect {access refreshToken : String} (h : FreshPair P s access refreshToken) :
    FreshPair P (collectExpired now s) access refreshToken :=
  fun u hu => h u (List.mem_of_mem_filter hu)

/-- `_issue` of a fresh pair fails only where the two tokens are one. -/
lemma issue_eq {clientId grantId access refreshToken : String}
    (hfresh : FreshPair P s access refreshToken) :
    issue P clientId t grantId access refreshToken s =
      if P.hexdigest (utf8 access) = P.hexdigest (utf8 refreshToken) then .error .raised
      else .ok ((P.hexdigest (utf8 access), P.hexdigest (utf8 refreshToken)),
        { s with tokens := s.tokens ++ [accessRow P clientId t grantId access,
          refreshRow P clientId t grantId refreshToken] }) := by
  have haccess : Table.insert Token.tokenHash (accessRow P clientId t grantId access) s.tokens =
      some (s.tokens ++ [accessRow P clientId t grantId access]) :=
    Table.insert_eq_some_iff.mpr ⟨fun u hu => (hfresh u hu).1, rfl⟩
  unfold issue
  simp only [haccess, orStop, Option.elim_some, ok_bind]
  split
  · rename_i hsame
    have htaken : Table.insert Token.tokenHash (refreshRow P clientId t grantId refreshToken)
        (s.tokens ++ [accessRow P clientId t grantId access]) = none := by
      rw [Option.eq_none_iff_forall_ne_some]
      intro rows hrows
      obtain ⟨hfree, -⟩ := Table.insert_eq_some_iff.mp hrows
      exact hfree _ (List.mem_append_right _ (List.mem_singleton_self _)) hsame
    rw [htaken]
    rfl
  · rename_i hdistinct
    have hinsert : Table.insert Token.tokenHash (refreshRow P clientId t grantId refreshToken)
        (s.tokens ++ [accessRow P clientId t grantId access]) =
        some (s.tokens ++ [accessRow P clientId t grantId access,
          refreshRow P clientId t grantId refreshToken]) := by
      refine Table.insert_eq_some_iff.mpr ⟨fun u hu => ?_, by simp⟩
      rcases List.mem_append.mp hu with hold | hnew
      · exact (hfresh u hold).2
      · rw [List.mem_singleton.mp hnew]
        exact hdistinct
    rw [hinsert]
    rfl

lemma issue_collect (hnow : now ≤ t) {clientId grantId access refreshToken : String}
    (hfresh : FreshPair P s access refreshToken) :
    issue P clientId t grantId access refreshToken (collectExpired now s) =
      collected now (issue P clientId t grantId access refreshToken s) := by
  rw [issue_eq hfresh, issue_eq hfresh.collect]
  split
  · rfl
  · have haccess : now < (accessRow P clientId t grantId access).expiresMs := by
      show now < t + accessTtlMs
      unfold accessTtlMs
      omega
    have hrefresh : now < (refreshRow P clientId t grantId refreshToken).expiresMs := by
      show now < t + refreshTtlMs
      unfold refreshTtlMs
      omega
    unfold collected collectExpired
    simp only [Except.map, List.filter_append, List.filter_cons, List.filter_nil,
      decide_eq_true haccess, decide_eq_true hrefresh, if_true]

lemma storedCode_collect (hk : Keyed s) (code : PyStr) :
    storedCode P (collectExpired now s) code =
      (storedCode P s code).filter fun c => now < c.expiresMs := by
  unfold storedCode
  rcases hash P code with _ | codeHash
  · rfl
  · exact hk.codeHash.find_filter _ codeHash

/-- `exchange_code` once it has found the code. -/
def redeem (P : Platform) (row : Code) (r : ExchangeRequest) (grantId access refreshToken : String)
    (now : ℤ) (s : Tables) : Except Refusal ((String × String × String) × Tables) := do
  require (row.consumedMs = none) (.oauth "invalid_grant" "authorization code already used")
  require (now ≤ row.expiresMs) (.oauth "invalid_grant" "authorization code expired")
  let sameClient ← orStop (compareDigest r.clientId (.text row.clientId)) .raised
  require sameClient (.oauth "invalid_grant" "code was not issued to this client")
  let sameRedirect ← orStop (compareDigest r.redirectUri (.text row.redirectUri)) .raised
  require sameRedirect
    (.oauth "invalid_grant" "redirect_uri does not match the authorization request")
  let verified ← orStop
    (compareDigest (.text (challengeOf P r.codeVerifier)) (.text row.codeChallenge)) .raised
  require verified (.oauth "invalid_grant" "PKCE verification failed")
  let (pair, s) ← issue P row.clientId now grantId access refreshToken
    (consumeCode row.codeHash now s)
  pure ((row.codeHash, pair), s)

lemma exchangeCode_eq (r : ExchangeRequest) (grantId access refreshToken : String) :
    exchangeCode P r grantId access refreshToken t s =
    match storedCode P s r.code with
    | none => .error (if hash P r.code = none then .raised
        else .oauth "invalid_grant" "unknown authorization code")
    | some row => redeem P row r grantId access refreshToken t s := by
  unfold exchangeCode storedCode
  rcases hash P r.code with _ | codeHash
  · rfl
  simp only [orStop, Option.elim_some, ok_bind, Option.bind_some, reduceCtorEq, if_false]
  rcases Table.find Code.codeHash codeHash s.codes with _ | row
  · rfl
  · rfl

lemma redeem_ne_unknown (row : Code) (r : ExchangeRequest) (grantId access refreshToken : String) :
    redeem P row r grantId access refreshToken t s ≠
      .error (.oauth "invalid_grant" "unknown authorization code") := by
  refine bind_ne_error (require_ne_error (by simp)) fun _ => ?_
  refine bind_ne_error (require_ne_error (by simp)) fun _ => ?_
  refine bind_ne_error (orStop_ne_error (by simp)) fun _ => ?_
  refine bind_ne_error (require_ne_error (by simp)) fun _ => ?_
  refine bind_ne_error (orStop_ne_error (by simp)) fun _ => ?_
  refine bind_ne_error (require_ne_error (by simp)) fun _ => ?_
  refine bind_ne_error (orStop_ne_error (by simp)) fun _ => ?_
  refine bind_ne_error (require_ne_error (by simp)) fun _ => ?_
  refine bind_ne_error ?_ fun x => ?_
  · refine bind_ne_error (orStop_ne_error (by simp)) fun _ => ?_
    refine bind_ne_error (orStop_ne_error (by simp)) fun _ => ?_
    exact nofun
  · exact nofun

lemma redeem_collect (hnow : now ≤ t) (row : Code) (r : ExchangeRequest)
    {grantId access refreshToken : String} (hfresh : FreshPair P s access refreshToken) :
    redeem P row r grantId access refreshToken t (collectExpired now s) =
      collected now (redeem P row r grantId access refreshToken t s) := by
  have hissue : issue P row.clientId t grantId access refreshToken
        (collectExpired now (consumeCode row.codeHash t s)) =
      collected now
        (issue P row.clientId t grantId access refreshToken (consumeCode row.codeHash t s)) :=
    issue_collect hnow hfresh
  unfold redeem collected
  simp only [except_map_bind]
  rw [← consumeCode_collect, hissue]
  rcases issue P row.clientId t grantId access refreshToken (consumeCode row.codeHash t s) with e | x
  · rfl
  · rfl

lemma exchangeCode_collect (hk : Keyed s) (hnow : now ≤ t) {r : ExchangeRequest}
    {grantId access refreshToken : String} (hfresh : FreshPair P s access refreshToken)
    (h : ¬ Tells P S now s (.op (.exchangeCode r grantId access refreshToken t))) :
    exchangeCode P r grantId access refreshToken t (collectExpired now s) =
      collected now (exchangeCode P r grantId access refreshToken t s) := by
  rw [exchangeCode_eq, exchangeCode_eq, storedCode_collect hk]
  rcases hrow : storedCode P s r.code with _ | row
  · rfl
  · have hkept : now < row.expiresMs := by
      by_contra hgone
      exact h ⟨row, hrow, not_lt.mp hgone⟩
    rw [Option.filter_some, if_pos (decide_eq_true hkept)]
    exact redeem_collect hnow row r hfresh

lemma exchangeCode_differs (hk : Keyed s) {r : ExchangeRequest}
    {grantId access refreshToken : String}
    (h : Tells P S now s (.op (.exchangeCode r grantId access refreshToken t))) :
    (exchangeCode P r grantId access refreshToken t (collectExpired now s)).map Prod.fst ≠
      (exchangeCode P r grantId access refreshToken t s).map Prod.fst := by
  obtain ⟨row, hrow, hgone⟩ := h
  have hhash : hash P r.code ≠ none := by
    intro hnone
    rw [Option.mem_def, storedCode, hnone] at hrow
    cases hrow
  rw [exchangeCode_eq, exchangeCode_eq, storedCode_collect hk, Option.mem_def.mp hrow,
    Option.filter_some, if_neg (by simpa using hgone)]
  dsimp only
  rw [if_neg hhash]
  have hne := redeem_ne_unknown (P := P) (t := t) (s := s) row r grantId access refreshToken
  intro hsame
  rcases hredeem : redeem P row r grantId access refreshToken t s with e | x
  · rw [hredeem] at hsame hne
    exact hne (congrArg Except.error (Except.error.inj hsame).symm)
  · rw [hredeem] at hsame
    cases hsame

/-! ## Rotation -/

/-- `refresh` once it has found the token. -/
def rotate (P : Platform) (row : Token) (clientId : PyStr) (freshGrant access newRefresh : String)
    (now : ℤ) (s : Tables) : Tables × Except Refusal (String × String × String) :=
  if row.revokedMs ≠ none then
    (revokeFamily row.grantId now s, .error (.oauth "invalid_grant" "refresh token is not valid"))
  else if row.expiresMs < now then
    (s, .error (.oauth "invalid_grant" "refresh token is not valid"))
  else
    match compareDigest clientId (.text row.clientId) with
    | none => (s, .error .raised)
    | some false =>
      (s, .error (.oauth "invalid_grant" "refresh token was not issued to this client"))
    | some true =>
      match issue P row.clientId now (row.grantId.getD freshGrant) access newRefresh
          (revokeFamily row.grantId now s) with
      | .ok (pair, s') => (s', .ok (row.tokenHash, pair))
      | .error e => (s, .error e)

lemma refresh_eq (token clientId : PyStr) (freshGrant access newRefresh : String) :
    refresh P token clientId freshGrant access newRefresh t s =
    match presentedRow P s token with
    | none => (s, .error (if hash P token = none then .raised
        else .oauth "invalid_grant" "refresh token is not valid"))
    | some row => rotate P row clientId freshGrant access newRefresh t s := by
  unfold refresh presentedRow
  rcases hash P token with _ | tokenHash
  · rfl
  simp only [Option.bind_eq_bind, Option.bind_some, reduceCtorEq, if_false]
  rcases s.tokens.find? fun t => t.tokenHash = tokenHash ∧ t.kind = .refresh with _ | row
  · rfl
  · rfl

lemma find_token_collect (hk : Keyed s) (tokenHash : String) (kind : TokenKind) :
    (collectExpired now s).tokens.find? (fun t => t.tokenHash = tokenHash ∧ t.kind = kind) =
      (s.tokens.find? fun t => t.tokenHash = tokenHash ∧ t.kind = kind).filter
        fun u => now < u.expiresMs := by
  apply Table.find?_filter_of_unique
  intro r hr u hu hrow hother
  rw [decide_eq_true_eq] at hrow hother
  exact hk.tokenHash.eq_of_key_eq hr hu (hrow.1.trans hother.1.symm)

lemma presentedRow_collect (hk : Keyed s) (token : PyStr) :
    presentedRow P (collectExpired now s) token =
      (presentedRow P s token).filter fun u => now < u.expiresMs := by
  unfold presentedRow
  rcases hash P token with _ | tokenHash
  · rfl
  · exact find_token_collect hk tokenHash .refresh

lemma FreshPair.revokeFamily {access refreshToken : String} {grantId : Option String}
    (h : FreshPair P s access refreshToken) :
    FreshPair P (OAuth.revokeFamily grantId t s) access refreshToken := by
  intro u hu
  obtain ⟨-, v, hv, hsame, -⟩ := mem_revokeFamily hu
  rw [← hsame]
  exact h v hv

/-- `rotate` of a row that stays, on collected tables. -/
lemma rotate_collect (hnow : now ≤ t) (row : Token) (clientId : PyStr) (freshGrant : String)
    {access newRefresh : String} (hfresh : FreshPair P s access newRefresh) :
    (rotate P row clientId freshGrant access newRefresh t (collectExpired now s)).1 =
        collectExpired now (rotate P row clientId freshGrant access newRefresh t s).1 ∧
      (rotate P row clientId freshGrant access newRefresh t (collectExpired now s)).2 =
        (rotate P row clientId freshGrant access newRefresh t s).2 := by
  have hissue : issue P row.clientId t (row.grantId.getD freshGrant) access newRefresh
        (collectExpired now (revokeFamily row.grantId t s)) =
      collected now (issue P row.clientId t (row.grantId.getD freshGrant) access newRefresh
        (revokeFamily row.grantId t s)) :=
    issue_collect hnow hfresh.revokeFamily
  unfold rotate
  split
  · exact ⟨revokeFamily_collect.symm, rfl⟩
  split
  · exact ⟨rfl, rfl⟩
  split
  · exact ⟨rfl, rfl⟩
  · exact ⟨rfl, rfl⟩
  · rw [← revokeFamily_collect, hissue]
    rcases issue P row.clientId t (row.grantId.getD freshGrant) access newRefresh
      (revokeFamily row.grantId t s) with e | x
    · exact ⟨rfl, rfl⟩
    · exact ⟨rfl, rfl⟩

/-- What `rotate` says of a row that it would use is not what it says of one it refuses. -/
lemma rotate_ne_invalid {row : Token} (hlive : row.revokedMs = none) (ht : t ≤ row.expiresMs)
    (clientId : PyStr) (freshGrant : String) {access newRefresh : String}
    (hfresh : FreshPair P s access newRefresh) :
    (rotate P row clientId freshGrant access newRefresh t s).2 ≠
      .error (.oauth "invalid_grant" "refresh token is not valid") := by
  unfold rotate
  rw [if_neg (not_not.mpr hlive), if_neg (not_lt.mpr ht)]
  split
  · simp
  · simp
  · rw [issue_eq hfresh.revokeFamily]
    by_cases hsame : P.hexdigest (utf8 access) = P.hexdigest (utf8 newRefresh)
    · rw [if_pos hsame]
      simp
    · rw [if_neg hsame]
      simp

/-- A revocation of a grant shows in the collected tables if the grant was good. -/
lemma revokeFamily_eq_self_iff {grantId : Option String} :
    collectExpired now (revokeFamily grantId t s) = collectExpired now s ↔
      ¬ StillGood now s grantId := by
  rw [revokeFamily_collect]
  constructor
  · rintro heq ⟨hgrant, u, hu, hsame, hlive, hkept⟩
    have hmem : u ∈ (revokeFamily grantId t (collectExpired now s)).tokens := by
      rw [heq]
      exact List.mem_filter.mpr ⟨hu, decide_eq_true hkept⟩
    exact (mem_revokeFamily hmem).1 hgrant hsame hlive
  · intro hdead
    unfold revokeFamily
    show Tables.mk _ _ _ _ = Tables.mk _ _ _ _
    rw [Tables.mk.injEq]
    refine ⟨rfl, rfl, rfl, ?_⟩
    refine (List.map_congr_left fun u hu => ?_).trans (List.map_id _)
    obtain ⟨hu, hkept⟩ := List.mem_filter.mp hu
    split
    · rename_i hgrant
      unfold revokeToken
      rw [if_neg fun hlive => hdead ⟨hgrant.1, u, hu, hgrant.2, hlive, of_decide_eq_true hkept⟩]
      rfl
    · rfl

/-- A `refresh` finds a collected row or one that stays, or none. -/
lemma presented_cases (P : Platform) (now : ℤ) (s : Tables) (token : PyStr) :
    presentedRow P s token = none ∨
      (∃ row, presentedRow P s token = some row ∧ now < row.expiresMs) ∨
      ∃ row, presentedRow P s token = some row ∧ row.expiresMs ≤ now ∧ hash P token ≠ none := by
  rcases hrow : presentedRow P s token with _ | row
  · exact .inl rfl
  · rcases lt_or_ge now row.expiresMs with hkept | hgone
    · exact .inr (.inl ⟨row, rfl, hkept⟩)
    · refine .inr (.inr ⟨row, rfl, hgone, fun hnone => ?_⟩)
      rw [presentedRow, hnone] at hrow
      cases hrow

lemma refresh_answer_iff (hk : Keyed s) (hnow : now ≤ t) {token clientId : PyStr}
    {freshGrant access newRefresh : String} (hfresh : FreshPair P s access newRefresh) :
    (refresh P token clientId freshGrant access newRefresh t (collectExpired now s)).2 =
        (refresh P token clientId freshGrant access newRefresh t s).2 ↔
      ¬ Tells P S now s (.op (.refresh token clientId freshGrant access newRefresh t)) := by
  rw [refresh_eq, refresh_eq, presentedRow_collect hk]
  rcases presented_cases P now s token with hrow | ⟨row, hrow, hkept⟩ | ⟨row, hrow, hgone, hhash⟩
  · rw [hrow]
    refine iff_of_true rfl ?_
    rintro ⟨row, hmem, -⟩
    rw [hrow] at hmem
    cases hmem
  · rw [hrow, Option.filter_some, if_pos (decide_eq_true hkept)]
    refine iff_of_true (rotate_collect hnow row clientId freshGrant hfresh).2 ?_
    rintro ⟨row', hmem, hgone, -⟩
    obtain rfl := Option.some.inj (hrow.symm.trans hmem)
    omega
  · rw [hrow, Option.filter_some, if_neg (by simpa using hgone)]
    dsimp only
    rw [if_neg hhash]
    have htells : Tells P S now s (.op (.refresh token clientId freshGrant access newRefresh t)) ↔
        row.revokedMs = none ∧ t ≤ row.expiresMs := by
      constructor
      · rintro ⟨row', hmem, -, h⟩
        obtain rfl := Option.some.inj (hrow.symm.trans hmem)
        exact h
      · intro h
        exact ⟨row, hrow, hgone, h⟩
    rw [htells]
    constructor
    · rintro hsame ⟨hlive, ht⟩
      exact rotate_ne_invalid hlive ht clientId freshGrant hfresh hsame.symm
    · intro hrefused
      unfold rotate
      split
      · rfl
      · rename_i hlive
        rw [if_pos (lt_of_not_ge fun ht => hrefused ⟨not_not.mp hlive, ht⟩)]

lemma refresh_tables_iff (hk : Keyed s) (hnow : now ≤ t) {token clientId : PyStr}
    {freshGrant access newRefresh : String} (hfresh : FreshPair P s access newRefresh)
    (h : ¬ Tells P S now s (.op (.refresh token clientId freshGrant access newRefresh t))) :
    (refresh P token clientId freshGrant access newRefresh t (collectExpired now s)).1 =
        collectExpired now (refresh P token clientId freshGrant access newRefresh t s).1 ↔
      ¬ Forgets P now s (.op (.refresh token clientId freshGrant access newRefresh t)) := by
  rw [refresh_eq, refresh_eq, presentedRow_collect hk]
  rcases presented_cases P now s token with hrow | ⟨row, hrow, hkept⟩ | ⟨row, hrow, hgone, -⟩
  · rw [hrow]
    refine iff_of_true rfl ?_
    rintro ⟨row, hmem, -⟩
    rw [hrow] at hmem
    cases hmem
  · rw [hrow, Option.filter_some, if_pos (decide_eq_true hkept)]
    refine iff_of_true (rotate_collect hnow row clientId freshGrant hfresh).1 ?_
    rintro ⟨row', hmem, hgone, -⟩
    obtain rfl := Option.some.inj (hrow.symm.trans hmem)
    omega
  · rw [hrow, Option.filter_some, if_neg (by simpa using hgone)]
    have hforgets : Forgets P now s
        (.op (.refresh token clientId freshGrant access newRefresh t)) ↔
        row.revokedMs ≠ none ∧ StillGood now s row.grantId := by
      constructor
      · rintro ⟨row', hmem, -, h⟩
        obtain rfl := Option.some.inj (hrow.symm.trans hmem)
        exact h
      · intro h
        exact ⟨row, hrow, hgone, h⟩
    rw [hforgets]
    dsimp only
    unfold rotate
    by_cases hrevoked : row.revokedMs = none
    · have hpast : row.expiresMs < t := by
        by_contra ht
        exact h ⟨row, hrow, hgone, hrevoked, not_lt.mp ht⟩
      rw [if_neg (not_not.mpr hrevoked), if_pos hpast]
      exact iff_of_true rfl fun h => h.1 hrevoked
    · rw [if_pos hrevoked, eq_comm, revokeFamily_eq_self_iff]
      exact not_congr (and_iff_right hrevoked).symm

/-! ## Validation -/

/-- `validate_access_token` of the row it finds. -/
lemma validate_eq (token : PyStr) : validateAccessToken P S s token t =
    (storedAccess P S s token).bind fun row =>
      if row.revokedMs ≠ none ∨ row.expiresMs < t then none
      else some (row.clientId, row.scope) := by
  unfold validateAccessToken storedAccess
  split
  · rfl
  · rcases hash P token with _ | tokenHash
    · rfl
    · rfl

lemma storedAccess_collect (hk : Keyed s) (token : PyStr) :
    storedAccess P S (collectExpired now s) token =
      (storedAccess P S s token).filter fun u => now < u.expiresMs := by
  unfold storedAccess
  split
  · rfl
  · rcases hash P token with _ | tokenHash
    · rfl
    · exact find_token_collect hk tokenHash .access

lemma validate_collect_iff (hk : Keyed s) (token : PyStr) :
    validateAccessToken P S (collectExpired now s) token t = validateAccessToken P S s token t ↔
      ¬ Tells P S now s (.validate token t) := by
  rw [validate_eq, validate_eq, storedAccess_collect hk]
  rcases hrow : storedAccess P S s token with _ | row
  · refine iff_of_true rfl ?_
    rintro ⟨row, hmem, -⟩
    rw [hrow] at hmem
    cases hmem
  have htells : Tells P S now s (.validate token t) ↔
      row.expiresMs ≤ now ∧ row.revokedMs = none ∧ t ≤ row.expiresMs := by
    constructor
    · rintro ⟨row', hmem, h⟩
      obtain rfl := Option.some.inj (hrow.symm.trans hmem)
      exact h
    · intro h
      exact ⟨row, hrow, h⟩
  rw [htells]
  by_cases hkept : now < row.expiresMs
  · rw [Option.filter_some, if_pos (decide_eq_true hkept)]
    refine iff_of_true rfl ?_
    omega
  · rw [Option.filter_some, if_neg (by simpa using hkept)]
    simp only [Option.bind_none, Option.bind_some]
    split
    · rename_i hrefused
      refine iff_of_true rfl ?_
      rintro ⟨-, hlive, ht⟩
      rcases hrefused with hrevoked | hpast
      · exact hrevoked hlive
      · omega
    · rename_i haccepted
      push Not at haccepted
      exact iff_of_false (by simp) (not_not.mpr ⟨not_lt.mp hkept, haccepted⟩)

/-! ## The other operations -/

lemma registerClient_collect (name : PyStr) (uris : List PyStr) (clientId : String) :
    registerClient name uris clientId t (collectExpired now s) =
      (registerClient name uris clientId t s).map (collectExpired now) := by
  unfold registerClient
  simp only [except_map_bind]
  rfl

lemma beginAuthorization_collect (hnow : now ≤ t) (r : AuthorizationRequest)
    (requestId userCode : String) :
    (beginAuthorization S r requestId userCode t (collectExpired now s)).1 =
      collectExpired now (beginAuthorization S r requestId userCode t s).1 := by
  obtain ⟨hpending, hcodes, htokens⟩ := live_collectExpired (s := s) hnow
  unfold beginAuthorization
  rw [collectExpired_collect hnow]
  dsimp only
  split
  · rename_i s' hinsert
    simp only [insertPending, bind_eq_ok, orStop_eq_ok, require_eq_ok, pure_eq_ok] at hinsert
    obtain ⟨-, -, client, -, -, -, -, -, -, -, -, -, -, -, -, -, redirectUri, -, challenge, -,
      state, -, -, -, rfl⟩ := hinsert
    symm
    refine collect_of_live (fun p hp => ?_) ?_ ?_
    · rcases List.mem_append.mp hp with hold | hnew
      · exact hpending p hold
      · rw [List.mem_singleton.mp hnew]
        show now < t + pendingTtlMs
        unfold pendingTtlMs
        omega
    · exact hcodes
    · exact htokens
  · exact (collect_of_live hpending hcodes htokens).symm

/-! ## One call -/

lemma step_approve (userCode : PyStr) :
    (step P S s (.approve userCode t)).1 = afterwards s (approve S userCode t s) := by
  simp only [step]
  rcases approve S userCode t s with e | x
  · rfl
  · rfl

lemma step_poll (requestId : PyStr) (secret : String) :
    (step P S s (.poll requestId secret t)).1 = afterwards s (poll P requestId secret t s) := by
  simp only [step]
  rcases poll P requestId secret t s with e | ⟨_ | x, s'⟩
  · rfl
  · rfl
  · rfl

lemma step_exchangeCode (r : ExchangeRequest) (grantId access refreshToken : String) :
    (step P S s (.exchangeCode r grantId access refreshToken t)).1 =
      afterwards s (exchangeCode P r grantId access refreshToken t s) := by
  simp only [step]
  rcases exchangeCode P r grantId access refreshToken t s with e | x
  · rfl
  · rfl

lemma answer_iff_of_outcome {α : Type} {r r' : Except Refusal (α × Tables)} {p : Prop}
    {wrap : Except Refusal α → Answer} (hwrap : Function.Injective wrap)
    (hsame : ¬ p → r' = collected now r) (hdiffers : p → r'.map Prod.fst ≠ r.map Prod.fst) :
    wrap (r'.map Prod.fst) = wrap (r.map Prod.fst) ↔ ¬ p := by
  constructor
  · intro hanswer hp
    exact hdiffers hp (hwrap hanswer)
  · intro hp
    rw [hsame hp, map_fst_collected]

lemma freshPair_of_later {access refreshToken : String} {op : Op}
    (hop : op.drawn = [access, refreshToken])
    (h : Later P now s (.op op)) : FreshPair P s access refreshToken := by
  intro u hu
  have haccess := (h.2 access (by simp [hop])).2 u hu
  have hrefresh := (h.2 refreshToken (by simp [hop])).2 u hu
  exact ⟨haccess, hrefresh⟩

/-- A call answers on collected tables as on the others exactly if it does not tell of a collected
row. -/
lemma answer_collect_iff (hk : Keyed s) {call : Call} (hlater : Later P now s call) :
    answer P S (collectExpired now s) call = answer P S s call ↔ ¬ Tells P S now s call := by
  cases call with
  | validate token t =>
    rw [← validate_collect_iff hk]
    exact ⟨fun h => Answer.validated.inj h, fun h => congrArg Answer.validated h⟩
  | op o =>
    cases o with
    | approve userCode t =>
      exact answer_iff_of_outcome (fun _ _ h => Answer.approved.inj h) (approve_collect hk)
        (approve_differs hk)
    | poll requestId secret t =>
      have hsecret := (hlater.2 secret (List.mem_singleton_self _)).1
      exact answer_iff_of_outcome (fun _ _ h => Answer.polled.inj h)
        (poll_collect hk hlater.1 hsecret) (poll_differs hk hsecret)
    | exchangeCode r grantId access refreshToken t =>
      exact answer_iff_of_outcome (fun _ _ h => Answer.exchanged.inj h)
        (exchangeCode_collect hk hlater.1 (freshPair_of_later rfl hlater)) (exchangeCode_differs hk)
    | refresh token clientId freshGrant access newRefresh t =>
      have hnow : now ≤ t := hlater.1
      rw [← refresh_answer_iff hk hnow (freshPair_of_later rfl hlater)]
      exact ⟨fun h => Answer.refreshed.inj h, fun h => congrArg Answer.refreshed h⟩
    | _ => exact iff_of_true rfl id

/-- A call that tells of no collected row leaves the tables alike but for the collected rows exactly
if it forgets no reuse. -/
lemma tables_collect_iff (hk : Keyed s) {call : Call} (hlater : Later P now s call)
    (h : ¬ Tells P S now s call) :
    (callStep P S (collectExpired now s) call).1 = collectExpired now (callStep P S s call).1 ↔
      ¬ Forgets P now s call := by
  cases call with
  | validate token t => exact iff_of_true rfl id
  | op o =>
    cases o with
    | approve userCode t =>
      refine iff_of_true ?_ id
      simp only [callStep, step_approve]
      rw [approve_collect hk h, afterwards_collected]
    | poll requestId secret t =>
      have hnow : now ≤ t := hlater.1
      have hsecret := (hlater.2 secret (List.mem_singleton_self _)).1
      refine iff_of_true ?_ id
      simp only [callStep, step_poll]
      rw [poll_collect hk hnow hsecret h, afterwards_collected]
    | exchangeCode r grantId access refreshToken t =>
      have hnow : now ≤ t := hlater.1
      refine iff_of_true ?_ id
      simp only [callStep, step_exchangeCode]
      rw [exchangeCode_collect hk hnow (freshPair_of_later rfl hlater) h, afterwards_collected]
    | refresh token clientId freshGrant access newRefresh t =>
      simp only [callStep, step_refresh]
      exact refresh_tables_iff hk hlater.1 (freshPair_of_later rfl hlater) h
    | registerClient name uris clientId t =>
      refine iff_of_true ?_ id
      simp only [callStep, step]
      rw [registerClient_collect]
      rcases registerClient name uris clientId t s with e | s'
      · rfl
      · rfl
    | beginAuthorization r requestId userCode t =>
      exact iff_of_true (beginAuthorization_collect hlater.1 r requestId userCode) id
    | collectExpired t =>
      refine iff_of_true ?_ id
      show collectExpired t (collectExpired now s) = collectExpired now (collectExpired t s)
      obtain ⟨hpending, hcodes, htokens⟩ := live_collectExpired (s := s) hlater.1
      exact (collectExpired_collect hlater.1).trans (collect_of_live hpending hcodes htokens).symm
    | revokeAll t => exact iff_of_true revokeAll_collect.symm id

lemma callStep_events (s : Tables) (call : Call) : (callStep P S s call).2 = [answer P S s call] := by
  cases call with
  | op o => rfl
  | validate token t => rfl

/-! ## Runs -/

/-- **When a collection is invisible.**  The next call after a collection answers as it would have
without it exactly if it does not tell of a collected row.  A run after it answers every call as it
would have without it, and leaves the same tables but for the collected rows, exactly if no call of
it touches a collected row. -/
theorem collection_invisible_iff (P : Platform) (S : Stdlib) {s : Tables} (hk : Keyed s) (now : ℤ) :
    (∀ call, Later P now s call →
      (answer P S (collectExpired now s) call = answer P S s call ↔ ¬ Tells P S now s call)) ∧
    ∀ calls, Run.Meets (callStep P S) (Later P now) s calls →
      ((∀ n, Run.final (callStep P S) (collectExpired now s) (calls.take n) =
            collectExpired now (Run.final (callStep P S) s (calls.take n)) ∧
          Run.events (callStep P S) s (calls.take n) =
            Run.events (callStep P S) (collectExpired now s) (calls.take n)) ↔
        Run.Meets (callStep P S) (fun s call => ¬ Touches P S now s call) s calls) := by
  refine ⟨fun call hlater => answer_collect_iff hk hlater, fun calls hlater => ?_⟩
  refine Run.lockstep_iff (R := fun s s' => s' = collectExpired now s) (I := Keyed)
    (fun s call hk _ => keyed_callStep hk call) ?_ hk rfl hlater
  rintro s s' call hk rfl hlater
  rw [callStep_events, callStep_events, List.singleton_inj, eq_comm (a := answer P S s call),
    answer_collect_iff hk hlater, and_comm]
  unfold Touches
  rw [not_or]
  exact and_congr_right fun htells => tables_collect_iff hk hlater htells

/-- The tables after `sampleRun`, whose first refresh token was issued a second before its second. -/
def sampleRotated : Tables := Run.final (step samplePlatform sampleStdlib) .empty sampleRun

/-- The second token, rotated in its turn after the first was collected. -/
def sampleNext : Call :=
  .op (.refresh (.text "refresh-2") (.text "wvc_1") "wvg_3" "access-3" "refresh-3" 2592005500)

theorem collection_invisible_iff_sample :
    answer samplePlatform sampleStdlib (collectExpired 2592005000 sampleRotated) sampleNext =
        answer samplePlatform sampleStdlib sampleRotated sampleNext ∧
      ∀ n, Run.final (callStep samplePlatform sampleStdlib)
            (collectExpired 2592005000 sampleRotated) ([sampleNext].take n) =
          collectExpired 2592005000
            (Run.final (callStep samplePlatform sampleStdlib) sampleRotated ([sampleNext].take n)) ∧
        Run.events (callStep samplePlatform sampleStdlib) sampleRotated ([sampleNext].take n) =
          Run.events (callStep samplePlatform sampleStdlib)
            (collectExpired 2592005000 sampleRotated) ([sampleNext].take n) := by
  obtain ⟨hkeyed, hlater, huntouched⟩ : Keyed sampleRotated ∧
      Later samplePlatform 2592005000 sampleRotated sampleNext ∧
      ¬ Touches samplePlatform sampleStdlib 2592005000 sampleRotated sampleNext := by decide
  have hboth := collection_invisible_iff samplePlatform sampleStdlib hkeyed 2592005000
  exact ⟨(hboth.1 sampleNext hlater).mpr fun htells => huntouched (.inl htells),
    (hboth.2 [sampleNext] ⟨hlater, trivial⟩).mpr ⟨huntouched, trivial⟩⟩

/-- The first token, presented again. -/
def sampleEvidence : Call :=
  .op (.refresh (.text "refresh-1") (.text "wvc_9") "wvg_4" "access-4" "refresh-4" 2592005400)

/-- A token that is good at the very instant is not after the collection at that instant; and with
the evidence collected, the reuse of a token no longer kills its family. -/
theorem collection_is_visible :
    validateAccessToken samplePlatform sampleStdlib sampleRotated (.text "access-2") 3606000 =
        some ("wvc_1", readOnlyScope) ∧
      validateAccessToken samplePlatform sampleStdlib (collectExpired 3606000 sampleRotated)
        (.text "access-2") 3606000 = none ∧
      Run.events (callStep samplePlatform sampleStdlib) sampleRotated [sampleEvidence, sampleNext] ≠
        Run.events (callStep samplePlatform sampleStdlib)
          (collectExpired 2592005000 sampleRotated) [sampleEvidence, sampleNext] := by
  decide

end WhatsVault.OAuth
