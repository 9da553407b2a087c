import WhatsVault.Mcp.Collection

/-!
# Storage without authentication

Four endpoints take requests from anyone: registration, authorization, polling and the token
endpoint.  Each may store rows.  `begin_authorization` collects before it stores and stops at
`MAX_PENDING` unapproved requests; a poll stores a code for a request that was approved before, and an
exchange a pair of tokens for a code (`owed`).  Nothing limits the rows of registrations, nor those of
rotations, whose old pairs stay until they expire (`charge`).  With these bounded, so are the tables
(`storage_bounded`).
-/

namespace WhatsVault.OAuth

open Checks

/-- The operations that a request without credentials reaches. -/
def Op.unauthenticated : Op → Bool
  | .registerClient _ _ _ _ | .beginAuthorization _ _ _ _ | .poll _ _ _ | .exchangeCode _ _ _ _ _
  | .refresh _ _ _ _ _ _ => true
  | .approve _ _ | .collectExpired _ | .revokeAll _ => false

def rows (s : Tables) : ℕ :=
  s.clients.length + s.pending.length + s.codes.length + s.tokens.length

def isWaiting (p : Pending) : Bool := p.approvedMs ≠ none ∧ p.collectedMs = none

def isUnapproved (p : Pending) : Bool := p.approvedMs = none

def isUnconsumed (c : Code) : Bool := c.consumedMs = none

/-- The rows that the approvals given and the codes handed over can still become: a code and a pair of
tokens for each request, a pair for each code. -/
def owed (s : Tables) : ℕ := 3 * s.pending.countP isWaiting + 2 * s.codes.countP isUnconsumed

/-- A registration that passes the checks. -/
def Registrable (s : Tables) (name : PyStr) (redirectUris : List PyStr) (clientId : String) : Prop :=
  redirectUris ≠ [] ∧ redirectUris.length ≤ maxRedirectUris ∧ redirectUris.forM checkUri = .ok () ∧
    clientName name ≠ none ∧ ∀ c ∈ s.clients, c.clientId ≠ clientId

/-- A refresh request with a good token of the client. -/
def Rotatable (P : Platform) (s : Tables) (refreshToken clientId : PyStr) (now : ℤ) : Prop :=
  ∃ row ∈ presentedRow P s refreshToken, row.revokedMs = none ∧ now ≤ row.expiresMs ∧
    compareDigest clientId (.text row.clientId) = some true

instance (s : Tables) (name : PyStr) (redirectUris : List PyStr) (clientId : String) :
    Decidable (Registrable s name redirectUris clientId) :=
  inferInstanceAs (Decidable (_ ∧ _))

instance (P : Platform) (s : Tables) (refreshToken clientId : PyStr) (now : ℤ) :
    Decidable (Rotatable P s refreshToken clientId now) :=
  inferInstanceAs (Decidable (∃ row ∈ presentedRow _ _ _, _))

/-- The rows an operation adds that no cap, approval or code accounts for. -/
def charge (P : Platform) (s : Tables) : Op → ℕ
  | .registerClient name redirectUris clientId _ =>
    if Registrable s name redirectUris clientId then 1 else 0
  | .refresh refreshToken clientId _ _ _ now =>
    if Rotatable P s refreshToken clientId now then 2 else 0
  | _ => 0

/-- The rows but for the unapproved requests, with those owed. -/
def settled (s : Tables) : ℕ :=
  s.clients.length + s.pending.countP (fun p => !isUnapproved p) + s.codes.length +
    s.tokens.length + owed s

lemma rows_eq (s : Tables) : rows s + owed s = settled s + s.pending.countP isUnapproved := by
  have hsplit := List.length_eq_countP_add_countP isUnapproved (l := s.pending)
  simp only [Bool.not_eq_true] at hsplit
  unfold rows settled
  have hsame : (fun p => decide (isUnapproved p = false)) = fun p => !isUnapproved p := by
    funext p
    cases isUnapproved p
    · rfl
    · rfl
  rw [hsame] at hsplit
  omega

/-! ## One operation -/

section Steps

variable {P : Platform} {S : Stdlib} {s s' : Tables}

lemma registrable_of_eq_ok {name : PyStr} {uris : List PyStr} {clientId : String} {now : ℤ}
    (h : registerClient name uris clientId now s = .ok s') : Registrable s name uris clientId := by
  simp only [registerClient, bind_eq_ok, orStop_eq_ok, require_eq_ok, pure_eq_ok] at h
  obtain ⟨-, hsome, -, hfew, ⟨⟩, huris, name, hname, clients, hclients, rfl⟩ := h
  exact ⟨hsome, hfew, huris, by simp [hname], (Table.insert_eq_some_iff.mp hclients).1⟩

lemma settled_collectExpired (now : ℤ) : settled (collectExpired now s) ≤ settled s := by
  have hpending (p : Pending → Bool) :
      (collectExpired now s).pending.countP p ≤ s.pending.countP p :=
    List.filter_sublist.countP_le
  have happroved := hpending fun p => !isUnapproved p
  have hwaiting := hpending isWaiting
  have hunconsumed : (collectExpired now s).codes.countP isUnconsumed ≤ s.codes.countP isUnconsumed :=
    List.filter_sublist.countP_le
  have hcodes : (collectExpired now s).codes.length ≤ s.codes.length := List.length_filter_le _ _
  have htokens : (collectExpired now s).tokens.length ≤ s.tokens.length := List.length_filter_le _ _
  have hclients : (collectExpired now s).clients = s.clients := rfl
  unfold settled owed
  rw [hclients]
  omega

lemma settled_revokeFamily (grantId : Option String) (now : ℤ) :
    settled (revokeFamily grantId now s) = settled s := by
  unfold settled owed revokeFamily
  rw [List.length_map]

lemma settled_issue {clientId grantId access refreshToken : String} {now : ℤ}
    {pair : String × String} (h : issue P clientId now grantId access refreshToken s = .ok (pair, s')) :
    settled s' = settled s + 2 := by
  obtain ⟨-, rfl⟩ := issue_spec h
  unfold settled owed
  simp only [List.length_append, List.length_cons, List.length_nil]
  omega

lemma settled_begin (r : AuthorizationRequest) (requestId userCode : String) (now : ℤ) :
    settled (beginAuthorization S r requestId userCode now s).1 ≤ settled s := by
  have hcollected := settled_collectExpired (s := s) now
  unfold beginAuthorization
  dsimp only
  split
  · rename_i hinsert
    obtain ⟨request, -, hunapproved, -, -, -, rfl⟩ := insertPending_spec hinsert
    have hnew : isUnapproved request = true := decide_eq_true hunapproved
    have hidle : isWaiting request = false := by
      rw [isWaiting, decide_eq_false_iff_not]
      exact fun h => h.1 hunapproved
    have hsame : settled { collectExpired now s with
        pending := (collectExpired now s).pending ++ [request] } = settled (collectExpired now s) := by
      unfold settled owed
      simp only [List.countP_append, List.countP_singleton, hnew, hidle]
      rfl
    rw [hsame]
    exact hcollected
  · exact hcollected

lemma settled_poll {requestId : PyStr} {secret : String} {now : ℤ} {r : Option (String × Code)}
    (h : poll P requestId secret now s = .ok (r, s')) : settled s' ≤ settled s := by
  rcases poll_eq_ok h with ⟨-, rfl⟩ | ⟨row, hrow, code, -, happroved, hidle, rfl⟩
  · exact le_rfl
  · -- the request is no longer waiting
    have hfewer : (s.pending.map fun p => if p.requestId = row.requestId then
        { p with collectedMs := some now } else p).countP isWaiting + 1 ≤
        s.pending.countP isWaiting := by
      apply Table.countP_map_lt _ hrow
      · exact decide_eq_true ⟨happroved, hidle⟩
      · rw [if_pos rfl]
        simp [isWaiting]
      · intro p _
        split
        · simp [isWaiting]
        · exact id
    have hsame : (s.pending.map fun p => if p.requestId = row.requestId then
        { p with collectedMs := some now } else p).countP (fun p => !isUnapproved p) =
        s.pending.countP fun p => !isUnapproved p := by
      rw [List.countP_map]
      apply List.countP_congr
      intro p _
      show (!isUnapproved (if p.requestId = row.requestId then _ else p)) = true ↔ _
      split
      · rfl
      · rfl
    have hcode : [code].countP isUnconsumed ≤ 1 := List.countP_le_length
    unfold settled owed setPending
    simp only [List.length_append, List.length_singleton, List.countP_append, hsame]
    omega

lemma settled_exchangeCode {r : ExchangeRequest} {grantId access refreshToken : String} {now : ℤ}
    {hashes : String × String × String}
    (h : exchangeCode P r grantId access refreshToken now s = .ok (hashes, s')) :
    settled s' ≤ settled s := by
  simp only [exchangeCode, bind_eq_ok, orStop_eq_ok, require_eq_ok, pure_eq_ok] at h
  obtain ⟨codeHash, -, row, hrow, -, hconsumed, -, -, -, -, -, -, -, -, -, -, -, -, -, -, ⟨pair, s₁⟩,
    hissue, heq⟩ := h
  obtain ⟨-, rfl⟩ := Prod.mk.inj heq
  rw [settled_issue hissue]
  have hfewer : (consumeCode row.codeHash now s).codes.countP isUnconsumed + 1 ≤
      s.codes.countP isUnconsumed := by
    apply Table.countP_map_lt _ (Table.mem_of_find_eq_some hrow).1
    · exact decide_eq_true hconsumed
    · rw [if_pos ⟨rfl, hconsumed⟩]
      rfl
    · intro c _
      split
      · simp [isUnconsumed]
      · exact id
  have hlength : (consumeCode row.codeHash now s).codes.length = s.codes.length :=
    List.length_map _
  have hclients : (consumeCode row.codeHash now s).clients = s.clients := rfl
  have hpending : (consumeCode row.codeHash now s).pending = s.pending := rfl
  have htokens : (consumeCode row.codeHash now s).tokens = s.tokens := rfl
  unfold settled owed
  rw [hlength, hclients, hpending, htokens]
  omega

lemma settled_refresh (refreshToken clientId : PyStr) (freshGrant access newRefresh : String)
    (now : ℤ) :
    settled (refresh P refreshToken clientId freshGrant access newRefresh now s).1 ≤
      settled s + if Rotatable P s refreshToken clientId now then 2 else 0 := by
  rw [refresh_eq]
  rcases hrow : presentedRow P s refreshToken with _ | row
  · exact Nat.le_add_right _ _
  dsimp only
  unfold rotate
  split
  · rw [settled_revokeFamily]
    exact Nat.le_add_right _ _
  split
  · exact Nat.le_add_right _ _
  rename_i hlive hlate
  split
  · exact Nat.le_add_right _ _
  · exact Nat.le_add_right _ _
  · rename_i hclient
    have hrotatable : Rotatable P s refreshToken clientId now :=
      ⟨row, hrow, not_not.mp hlive, not_lt.mp hlate, hclient⟩
    rw [if_pos hrotatable]
    split
    · rename_i hissue
      rw [settled_issue hissue, settled_revokeFamily]
    · exact Nat.le_add_right _ _

lemma settled_step {op : Op} (hop : op.unauthenticated = true) :
    settled (step P S s op).1 ≤ settled s + charge P s op := by
  cases op with
  | registerClient name uris clientId now =>
    simp only [step]
    split
    · rename_i h
      have hcharge := registrable_of_eq_ok h
      obtain ⟨client, rfl⟩ := registerClient_spec h
      show _ ≤ settled s + if Registrable s name uris clientId then 1 else 0
      rw [if_pos hcharge]
      unfold settled owed
      simp only [List.length_append, List.length_cons, List.length_nil]
      omega
    · exact Nat.le_add_right _ _
  | beginAuthorization r requestId userCode now => exact settled_begin r requestId userCode now
  | poll requestId secret now =>
    simp only [step]
    split
    · exact settled_poll ‹_›
    · exact settled_poll ‹_›
    · exact le_rfl
  | exchangeCode r grantId access refreshToken now =>
    simp only [step]
    split
    · exact settled_exchangeCode ‹_›
    · exact le_rfl
  | refresh refreshToken clientId freshGrant access newRefresh now =>
    rw [step_refresh]
    exact settled_refresh refreshToken clientId freshGrant access newRefresh now
  | approve _ _ => cases hop
  | collectExpired _ => cases hop
  | revokeAll _ => cases hop

lemma unapproved_begin (r : AuthorizationRequest) (requestId userCode : String) (now : ℤ) :
    (beginAuthorization S r requestId userCode now s).1.pending.countP isUnapproved ≤
      max maxPending (s.pending.countP isUnapproved) := by
  have hcollected : (collectExpired now s).pending.countP isUnapproved ≤
      s.pending.countP isUnapproved := List.filter_sublist.countP_le
  unfold beginAuthorization
  dsimp only
  split
  · rename_i hinsert
    simp only [insertPending, bind_eq_ok, orStop_eq_ok, require_eq_ok, pure_eq_ok] at hinsert
    obtain ⟨-, hcap, client, -, -, -, -, -, -, -, -, -, -, -, -, -, redirectUri, -, challenge, -,
      state, -, -, -, rfl⟩ := hinsert
    -- after the collection every unapproved request is live, so the cap counts them all
    have hlive : (collectExpired now s).pending.countP isUnapproved < maxPending := by
      rw [← List.countP_eq_length_filter] at hcap
      refine lt_of_eq_of_lt (List.countP_congr fun p hp => ?_) hcap
      have hkept := of_decide_eq_true (List.mem_filter.mp hp).2
      simp [isUnapproved, hkept]
    simp only [List.countP_append]
    exact le_max_of_le_left ((Nat.add_le_add_left List.countP_le_length _).trans hlive)
  · exact le_max_of_le_right hcollected

/-- The unapproved requests stay within the cap, or within what they were. -/
lemma unapproved_step {op : Op} (hop : op.unauthenticated = true) :
    (step P S s op).1.pending.countP isUnapproved ≤ max maxPending (s.pending.countP isUnapproved) := by
  have hsame {s' : Tables} (h : s'.pending = s.pending) :
      s'.pending.countP isUnapproved ≤ max maxPending (s.pending.countP isUnapproved) := by
    rw [h]
    exact le_max_right _ _
  cases op with
  | registerClient name uris clientId now =>
    simp only [step]
    split
    · rename_i h
      obtain ⟨client, rfl⟩ := registerClient_spec h
      exact hsame rfl
    · exact hsame rfl
  | beginAuthorization r requestId userCode now => exact unapproved_begin r requestId userCode now
  | poll requestId secret now =>
    rw [step_poll]
    rcases hpoll : poll P requestId secret now s with e | ⟨r, s'⟩
    · exact hsame rfl
    · rcases poll_eq_ok hpoll with ⟨-, rfl⟩ | ⟨row, -, code, -, -, -, rfl⟩
      · exact hsame rfl
      · refine le_max_of_le_right ?_
        show (s.pending.map _).countP isUnapproved ≤ _
        rw [List.countP_map]
        refine List.countP_mono_left fun p _ => ?_
        show isUnapproved (if p.requestId = row.requestId then _ else p) = true → _
        split
        · exact id
        · exact id
  | exchangeCode r grantId access refreshToken now =>
    rw [step_exchangeCode]
    rcases hexchange : exchangeCode P r grantId access refreshToken now s with e | ⟨hashes, s'⟩
    · exact hsame rfl
    · obtain ⟨row, -, -, -, -, hissue⟩ := exchangeCode_spec hexchange
      obtain ⟨-, rfl⟩ := issue_spec hissue
      exact hsame rfl
  | refresh refreshToken clientId freshGrant access newRefresh now =>
    rw [step_refresh]
    rcases refresh_cases P refreshToken clientId freshGrant access newRefresh now s with
      ⟨e, heq⟩ | ⟨grantId, e, heq⟩ | ⟨row, -, -, pair, s', hissue, heq⟩
    · rw [heq]
      exact hsame rfl
    · rw [heq]
      exact hsame rfl
    · rw [heq]
      obtain ⟨-, rfl⟩ := issue_spec hissue
      exact hsame rfl
  | approve _ _ => cases hop
  | collectExpired _ => cases hop
  | revokeAll _ => cases hop

end Steps

/-! ## Runs -/

/-- **Storage is bounded where registrations and rotations are.**  With at most `c` rows owed at the
start and charged over the run, a run of unauthenticated requests never has more rows than it began
with, `MAX_PENDING` and `c` more. -/
theorem storage_bounded (P : Platform) (S : Stdlib) {s₀ : Tables} {ops : List Op}
    (hops : ∀ op ∈ ops, op.unauthenticated = true) {c : ℕ}
    (hc : owed s₀ + Run.total (step P S) (charge P) s₀ ops ≤ c) (n : ℕ) :
    rows (Run.final (step P S) s₀ (ops.take n)) ≤ rows s₀ + (maxPending + c) := by
  have hmeets : Run.Meets (step P S) (fun _ op => op.unauthenticated = true) s₀ (ops.take n) :=
    Run.meets_of_forall_mem (fun op hop => hops op (List.mem_of_mem_take hop)) s₀
  have hsettled : settled (Run.final (step P S) s₀ (ops.take n)) ≤
      settled s₀ + Run.total (step P S) (charge P) s₀ (ops.take n) :=
    Run.potential_le_of_meets (fun s op hop => settled_step hop) hmeets
  have hunapproved : (Run.final (step P S) s₀ (ops.take n)).pending.countP isUnapproved ≤
      max maxPending (s₀.pending.countP isUnapproved) :=
    Run.invariant_of_meets
      (I := fun s => s.pending.countP isUnapproved ≤
        max maxPending (s₀.pending.countP isUnapproved))
      (fun s op hs hop => (unapproved_step hop).trans (max_le (le_max_left _ _) hs))
      (le_max_right _ _) hmeets
  have hcharged : Run.total (step P S) (charge P) s₀ (ops.take n) ≤
      Run.total (step P S) (charge P) s₀ ops := Run.total_take_le (charge P) s₀ ops n
  have hbefore := rows_eq s₀
  have hafter := rows_eq (Run.final (step P S) s₀ (ops.take n))
  omega

/-- One registration and one request for authorization. -/
theorem storage_bounded_sample :
    rows (Run.final (step samplePlatform sampleStdlib) .empty (sampleBegin.take 2)) ≤ 0 + (25 + 1) :=
  storage_bounded samplePlatform sampleStdlib (by decide) (by decide) 2

/-- The `n`th registration of a loop that does nothing else. -/
def sampleRegistration (n : ℕ) : Op :=
  .registerClient (.text "app") [.text "https://app"] (String.ofList (List.replicate n 'x')) 0

def sampleClient (n : ℕ) : Client :=
  ⟨String.ofList (List.replicate n 'x'), "app", [.text "https://app"], 0⟩

lemma final_registrations (n : ℕ) :
    Run.final (step samplePlatform sampleStdlib) .empty ((List.range n).map sampleRegistration) =
      ⟨(List.range n).map sampleClient, [], [], []⟩ := by
  induction n with
  | zero => rfl
  | succ n ih =>
    have hinsert : Table.insert Client.clientId (sampleClient n) ((List.range n).map sampleClient) =
        some ((List.range (n + 1)).map sampleClient) := by
      refine Table.insert_eq_some_iff.mpr ⟨fun c hc => ?_, by simp [List.range_succ]⟩
      obtain ⟨i, hi, rfl⟩ := List.mem_map.mp hc
      intro hsame
      have hlength := congrArg List.length (String.ofList_injective hsame)
      simp only [List.length_replicate] at hlength
      rw [List.mem_range] at hi
      omega
    have hregister : registerClient (.text "app") [.text "https://app"]
        (String.ofList (List.replicate n 'x')) 0 ⟨(List.range n).map sampleClient, [], [], []⟩ =
        .ok ⟨(List.range (n + 1)).map sampleClient, [], [], []⟩ := by
      have hchecks : [PyStr.text "https://app"].forM checkUri = .ok () := by decide
      unfold registerClient
      rw [hchecks]
      have hname : clientName (.text "app") = some "app" := by decide
      rw [hname]
      unfold sampleClient at hinsert ⊢
      simp only [orStop, Option.elim_some, ok_bind, hinsert]
      rfl
    rw [List.range_succ, List.map_append, List.map_singleton, Run.final_concat, ih]
    unfold sampleRegistration
    simp only [step, hregister, List.range_succ]

/-- No constant bounds the rows of the clients that anyone may register. -/
theorem registrations_unbounded :
    ¬ ∃ K : ℕ, ∀ (s₀ : Tables) (ops : List Op), (∀ op ∈ ops, Op.unauthenticated op = true) →
      ∀ n, rows (Run.final (step samplePlatform sampleStdlib) s₀ (ops.take n)) ≤ rows s₀ + K := by
  rintro ⟨K, hK⟩
  have hall := hK .empty ((List.range (K + 1)).map sampleRegistration) (fun op hop => ?_) (K + 1)
  · rw [List.take_of_length_le (by simp), final_registrations] at hall
    simp only [rows, List.length_map, List.length_range, List.length_nil, Tables.empty] at hall
    omega
  · obtain ⟨i, -, rfl⟩ := List.mem_map.mp hop
    rfl

end WhatsVault.OAuth
