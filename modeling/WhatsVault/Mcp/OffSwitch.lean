import WhatsVault.Library.Run
import WhatsVault.Mcp.OAuth

/-!
# The off switch

Authority over the vault passes from an approved request to a code, from the code to a pair of
tokens, and from a refresh token to the next pair; `Descends` is that lineage, read off the log.
`revokeAll` closes the last of these forms only.  It is a true off switch exactly where no authority
waits in one of the other two, an approved request nobody has collected or a code nobody has redeemed
(`Drained`): from there on, every accepted token descends from an approval made afterwards.
-/

namespace WhatsVault.OAuth

open Checks

/-- `Descends log token request`: the token with that hash came out of the approved request. -/
inductive Descends (log : List Event) : String → String → Prop
  | exchanged {request code access refresh token : String} :
    .codeIssued request code ∈ log → .pairIssued code access refresh ∈ log →
      token = access ∨ token = refresh → Descends log token request
  | refreshed {request old access refresh token : String} :
    Descends log old request → .refreshed old access refresh ∈ log →
      token = access ∨ token = refresh → Descends log token request

lemma Descends.mono {log log' : List Event} (hlog : log ⊆ log') {token request : String}
    (h : Descends log token request) : Descends log' token request := by
  induction h with
  | exchanged hcode hpair htoken => exact .exchanged (hlog hcode) (hlog hpair) htoken
  | refreshed _ hrefreshed htoken ih => exact .refreshed ih (hlog hrefreshed) htoken

/-- All authority in the tables stems from the approvals in `after`, by the lineage in `log`. -/
structure Since (after log : List Event) (s : Tables) : Prop where
  pending : ∀ p ∈ s.pending, p.approvedMs ≠ none → p.collectedMs = none →
    .approved p.requestId ∈ after
  codes : ∀ c ∈ s.codes, c.consumedMs = none →
    ∃ request, .approved request ∈ after ∧ .codeIssued request c.codeHash ∈ log
  tokens : ∀ t ∈ s.tokens, t.revokedMs = none →
    ∃ request, .approved request ∈ after ∧ Descends log t.tokenHash request

/-- No authority waits between an approval and a token. -/
def Drained (s : Tables) : Prop :=
  (∀ p ∈ s.pending, p.approvedMs ≠ none → p.collectedMs ≠ none) ∧
    ∀ c ∈ s.codes, c.consumedMs ≠ none

instance (s : Tables) : Decidable (Drained s) := inferInstanceAs (Decidable (_ ∧ _))

/-! ## What each operation does to the authority in the tables -/

section Authority

variable {after after' log log' : List Event} {s s' : Tables}

lemma Since.mono (h : Since after log s) (hafter : after ⊆ after') (hlog : log ⊆ log') :
    Since after' log' s where
  pending p hp happroved hcollected := hafter (h.pending p hp happroved hcollected)
  codes c hc hconsumed := by
    obtain ⟨request, hrequest, hissued⟩ := h.codes c hc hconsumed
    exact ⟨request, hafter hrequest, hlog hissued⟩
  tokens t ht hrevoked := by
    obtain ⟨request, hrequest, hdescends⟩ := h.tokens t ht hrevoked
    exact ⟨request, hafter hrequest, hdescends.mono hlog⟩

/-- Tables with fewer rows hold no more authority. -/
lemma Since.subset (h : Since after log s) (hpending : s'.pending ⊆ s.pending)
    (hcodes : s'.codes ⊆ s.codes) (htokens : s'.tokens ⊆ s.tokens) : Since after log s' :=
  ⟨fun p hp => h.pending p (hpending hp), fun c hc => h.codes c (hcodes hc),
    fun t ht => h.tokens t (htokens ht)⟩

lemma since_collectExpired (h : Since after log s) (now : ℤ) :
    Since after log (collectExpired now s) :=
  h.subset List.filter_sublist.subset List.filter_sublist.subset List.filter_sublist.subset

lemma registerClient_eq_ok {name : PyStr} {uris : List PyStr} {clientId : String} {now : ℤ}
    (h : registerClient name uris clientId now s = .ok s') :
    ∃ clients, s' = { s with clients := clients } := by
  simp only [registerClient, bind_eq_ok, orStop_eq_ok, require_eq_ok, pure_eq_ok] at h
  obtain ⟨-, -, -, -, -, -, name, -, clients, -, rfl⟩ := h
  exact ⟨clients, rfl⟩

lemma insertPending_eq_ok {S : Stdlib} {r : AuthorizationRequest} {requestId userCode : String}
    {now : ℤ} (h : insertPending S r requestId userCode now s = .ok s') :
    ∃ row, row.approvedMs = none ∧ s' = { s with pending := s.pending ++ [row] } := by
  simp only [insertPending, bind_eq_ok, orStop_eq_ok, require_eq_ok, pure_eq_ok] at h
  obtain ⟨-, -, client, -, -, -, -, -, -, -, -, -, -, -, -, -, redirectUri, -, challenge, -, state, -,
    -, -, rfl⟩ := h
  exact ⟨_, rfl, rfl⟩

lemma since_insertPending (h : Since after log s) {S : Stdlib} {r : AuthorizationRequest}
    {requestId userCode : String} {now : ℤ}
    (hs : insertPending S r requestId userCode now s = .ok s') : Since after log s' := by
  obtain ⟨row, hrow, rfl⟩ := insertPending_eq_ok hs
  refine ⟨fun p hp happroved hcollected => ?_, h.codes, h.tokens⟩
  rcases List.mem_append.mp hp with hold | hnew
  · exact h.pending p hold happroved hcollected
  · rw [List.mem_singleton.mp hnew] at happroved
    exact absurd hrow happroved

lemma mem_setPending {requestId : String} {f : Pending → Pending} {p : Pending}
    (hp : p ∈ (setPending requestId f s).pending) :
    p ∈ s.pending ∨ ∃ q ∈ s.pending, q.requestId = requestId ∧ p = f q := by
  obtain ⟨q, hq, rfl⟩ := List.mem_map.mp hp
  by_cases hid : q.requestId = requestId
  · exact .inr ⟨q, hq, hid, by rw [if_pos hid]⟩
  · rw [if_neg hid]
    exact .inl hq

lemma since_approve (h : Since after log s) {S : Stdlib} {userCode : PyStr} {now : ℤ}
    {requestId : String} (hs : approve S userCode now s = .ok (requestId, s')) :
    Since (after ++ [.approved requestId]) (log ++ [.approved requestId]) s' := by
  simp only [approve, bind_eq_ok, orStop_eq_ok, require_eq_ok, pure_eq_ok, Prod.mk.injEq] at hs
  obtain ⟨code, -, row, -, -, -, -, -, rfl, rfl⟩ := hs
  have hwider := h.mono (List.subset_append_left after [.approved row.requestId])
    (List.subset_append_left log [.approved row.requestId])
  refine ⟨fun p hp happroved hcollected => ?_, hwider.codes, hwider.tokens⟩
  rcases mem_setPending hp with hold | ⟨q, -, hid, rfl⟩
  · exact hwider.pending p hold happroved hcollected
  · rw [← hid]
    simp

/-- What `poll` can do when it returns. -/
lemma poll_eq_ok {P : Platform} {requestId : PyStr} {secret : String} {now : ℤ}
    {r : Option (String × Code)} (h : poll P requestId secret now s = .ok (r, s')) :
    (r = none ∧ s' = s) ∨
    ∃ row ∈ s.pending, ∃ code, r = some (row.requestId, code) ∧ row.approvedMs ≠ none ∧
      row.collectedMs = none ∧ s' = setPending row.requestId
        (fun p => { p with collectedMs := some now }) { s with codes := s.codes ++ [code] } := by
  simp only [poll, bind_eq_ok, orStop_eq_ok] at h
  obtain ⟨id, -, h⟩ := h
  split at h
  · cases pure_eq_ok.mp h
    exact .inl ⟨rfl, rfl⟩
  rename_i row hrow
  split at h
  · cases pure_eq_ok.mp h
    exact .inl ⟨rfl, rfl⟩
  rename_i hready
  push Not at hready
  simp only [bind_eq_ok, orStop_eq_ok, pure_eq_ok, Prod.mk.injEq] at h
  obtain ⟨codes, hcodes, rfl, rfl⟩ := h
  obtain ⟨-, rfl⟩ := Table.insert_eq_some_iff.mp hcodes
  exact .inr ⟨row, (Table.mem_of_find_eq_some hrow).1, _, rfl, hready.1, hready.2.1, rfl⟩

lemma since_poll (h : Since after log s) {P : Platform} {requestId : PyStr} {secret request : String}
    {now : ℤ} {code : Code} (hs : poll P requestId secret now s = .ok (some (request, code), s')) :
    Since (after ++ [.codeIssued request code.codeHash])
      (log ++ [.codeIssued request code.codeHash]) s' := by
  rcases poll_eq_ok hs with ⟨hnone, -⟩ | ⟨row, hrow, issued, heq, happroved, hcollected, rfl⟩
  · cases hnone
  obtain ⟨rfl, rfl⟩ := Prod.mk.inj (Option.some.inj heq)
  have hwider := h.mono (List.subset_append_left after [.codeIssued row.requestId code.codeHash])
    (List.subset_append_left log [.codeIssued row.requestId code.codeHash])
  refine ⟨fun p hp happroved' hcollected' => ?_, fun c hc hconsumed => ?_, hwider.tokens⟩
  · rcases mem_setPending hp with hold | ⟨q, -, -, rfl⟩
    · exact hwider.pending p hold happroved' hcollected'
    · cases hcollected'
  · rcases List.mem_append.mp hc with hold | hnew
    · exact hwider.codes c hold hconsumed
    · rw [List.mem_singleton.mp hnew]
      exact ⟨row.requestId, hwider.pending row hrow happroved hcollected, by simp⟩

lemma issue_eq_ok {P : Platform} {clientId grantId access refreshToken : String} {now : ℤ}
    {pair : String × String} (h : issue P clientId now grantId access refreshToken s = .ok (pair, s')) :
    ∃ a r, a.tokenHash = pair.1 ∧ r.tokenHash = pair.2 ∧
      s' = { s with tokens := s.tokens ++ [a, r] } := by
  simp only [issue, bind_eq_ok, orStop_eq_ok, pure_eq_ok, Prod.mk.injEq] at h
  obtain ⟨tokens, htokens, tokens', htokens', rfl, rfl⟩ := h
  obtain ⟨-, rfl⟩ := Table.insert_eq_some_iff.mp htokens
  obtain ⟨-, rfl⟩ := Table.insert_eq_some_iff.mp htokens'
  exact ⟨accessRow P clientId now grantId access, refreshRow P clientId now grantId refreshToken,
    rfl, rfl, by simp⟩

/-- A new pair that descends from a request approved in `after` may join the tokens. -/
lemma since_issue (h : Since after log s) {P : Platform}
    {clientId grantId access refreshToken : String} {now : ℤ} {pair : String × String}
    (hs : issue P clientId now grantId access refreshToken s = .ok (pair, s'))
    (hpair : ∃ request, .approved request ∈ after ∧
      ∀ token, token = pair.1 ∨ token = pair.2 → Descends log token request) :
    Since after log s' := by
  obtain ⟨a, r, ha, hr, rfl⟩ := issue_eq_ok hs
  obtain ⟨request, hrequest, hdescends⟩ := hpair
  refine ⟨h.pending, h.codes, fun t ht hrevoked => ?_⟩
  rcases List.mem_append.mp ht with hold | hnew
  · exact h.tokens t hold hrevoked
  · have htoken : t.tokenHash = pair.1 ∨ t.tokenHash = pair.2 := by
      rcases List.mem_pair.mp hnew with rfl | rfl
      · exact .inl ha
      · exact .inr hr
    exact ⟨request, hrequest, hdescends _ htoken⟩

lemma exchangeCode_eq_ok {P : Platform} {r : ExchangeRequest}
    {grantId access refreshToken code accessHash refreshHash : String} {now : ℤ}
    (h : exchangeCode P r grantId access refreshToken now s =
      .ok ((code, accessHash, refreshHash), s')) :
    ∃ row ∈ s.codes, row.codeHash = code ∧ row.consumedMs = none ∧
      issue P row.clientId now grantId access refreshToken (consumeCode row.codeHash now s) =
        .ok ((accessHash, refreshHash), s') := by
  simp only [exchangeCode, bind_eq_ok, orStop_eq_ok, require_eq_ok, pure_eq_ok] at h
  obtain ⟨codeHash, -, row, hrow, -, hconsumed, -, -, -, -, -, -, -, -, -, -, -, -, -, -, ⟨pair, s₁⟩,
    hissue, heq⟩ := h
  simp only [Prod.mk.injEq] at heq
  obtain ⟨⟨rfl, rfl⟩, rfl⟩ := heq
  exact ⟨row, (Table.mem_of_find_eq_some hrow).1, rfl, hconsumed, hissue⟩

lemma since_consumeCode (h : Since after log s) (codeHash : String) (now : ℤ) :
    Since after log (consumeCode codeHash now s) := by
  refine ⟨h.pending, fun c hc hconsumed => ?_, h.tokens⟩
  obtain ⟨c₀, hc₀, rfl⟩ := List.mem_map.mp hc
  split at hconsumed
  · cases hconsumed
  · rename_i hkept
    rw [if_neg hkept]
    exact h.codes c₀ hc₀ hconsumed

lemma since_exchangeCode (h : Since after log s) {P : Platform} {r : ExchangeRequest}
    {grantId access refreshToken code accessHash refreshHash : String} {now : ℤ}
    (hs : exchangeCode P r grantId access refreshToken now s =
      .ok ((code, accessHash, refreshHash), s')) :
    Since (after ++ [.pairIssued code accessHash refreshHash])
      (log ++ [.pairIssued code accessHash refreshHash]) s' := by
  obtain ⟨row, hrow, rfl, hconsumed, hissue⟩ := exchangeCode_eq_ok hs
  obtain ⟨request, hrequest, hcode⟩ := h.codes row hrow hconsumed
  have hwider := (since_consumeCode h row.codeHash now).mono
    (List.subset_append_left after [.pairIssued row.codeHash accessHash refreshHash])
    (List.subset_append_left log [.pairIssued row.codeHash accessHash refreshHash])
  refine since_issue hwider hissue ⟨request, List.mem_append_left _ hrequest, fun token htoken => ?_⟩
  exact .exchanged (List.mem_append_left _ hcode) (by simp) htoken

lemma revokeToken_revokedMs_ne_none (now : ℤ) (t : Token) :
    (revokeToken now t).revokedMs ≠ none := by
  unfold revokeToken
  split
  · simp
  · assumption

lemma since_revokeFamily (h : Since after log s) (grantId : Option String) (now : ℤ) :
    Since after log (revokeFamily grantId now s) := by
  refine ⟨h.pending, h.codes, fun t ht hrevoked => ?_⟩
  obtain ⟨t₀, ht₀, rfl⟩ := List.mem_map.mp ht
  split at hrevoked
  · exact absurd hrevoked (revokeToken_revokedMs_ne_none now t₀)
  · rename_i hkept
    rw [if_neg hkept]
    exact h.tokens t₀ ht₀ hrevoked

/-- What `refresh` can do: leave the tables alone, revoke a family, or rotate a live token. -/
lemma refresh_cases (P : Platform) (refreshToken clientId : PyStr)
    (freshGrant access newRefresh : String) (now : ℤ) (s : Tables) :
    (∃ e, refresh P refreshToken clientId freshGrant access newRefresh now s = (s, .error e)) ∨
    (∃ grantId e, refresh P refreshToken clientId freshGrant access newRefresh now s =
      (revokeFamily grantId now s, .error e)) ∨
    ∃ row ∈ s.tokens, row.revokedMs = none ∧ ∃ pair s',
      issue P row.clientId now (row.grantId.getD freshGrant) access newRefresh
        (revokeFamily row.grantId now s) = .ok (pair, s') ∧
      refresh P refreshToken clientId freshGrant access newRefresh now s =
        (s', .ok (row.tokenHash, pair)) := by
  unfold refresh
  split
  · exact .inl ⟨_, rfl⟩
  split
  · exact .inl ⟨_, rfl⟩
  rename_i row hrow
  split
  · exact .inr (.inl ⟨_, _, rfl⟩)
  rename_i hlive
  split
  · exact .inl ⟨_, rfl⟩
  split
  · exact .inl ⟨_, rfl⟩
  · exact .inl ⟨_, rfl⟩
  split
  · rename_i pair s' hissue
    exact .inr (.inr ⟨row, List.mem_of_find?_eq_some hrow, not_not.mp hlive, pair, s', hissue, rfl⟩)
  · exact .inl ⟨_, rfl⟩

lemma since_revokeAll (log : List Event) (hs : Drained s) (now : ℤ) :
    Since [] log (revokeAll now s) := by
  refine ⟨fun p hp happroved hcollected => absurd hcollected (hs.1 p hp happroved),
    fun c hc hconsumed => absurd hconsumed (hs.2 c hc), fun t ht hrevoked => ?_⟩
  obtain ⟨t₀, -, rfl⟩ := List.mem_map.mp ht
  exact absurd hrevoked (revokeToken_revokedMs_ne_none now t₀)

/-- One step: the authority in the tables stems from the approvals so far and the step's own. -/
theorem since_step (h : Since after log s) (P : Platform) (S : Stdlib) (op : Op) :
    Since (after ++ (step P S s op).2) (log ++ (step P S s op).2) (step P S s op).1 := by
  have hnone : ∀ {t}, Since after log t → Since (after ++ []) (log ++ []) t := by simp
  cases op with
  | registerClient name uris clientId now =>
    simp only [step]
    split
    · rename_i s' hs
      obtain ⟨clients, rfl⟩ := registerClient_eq_ok hs
      exact hnone ⟨h.pending, h.codes, h.tokens⟩
    · exact hnone h
  | beginAuthorization request requestId userCode now =>
    have hcollected := since_collectExpired h now
    simp only [step, beginAuthorization]
    split
    · rename_i s' hs
      exact hnone (since_insertPending hcollected hs)
    · exact hnone hcollected
  | approve userCode now =>
    simp only [step]
    split
    · exact since_approve h ‹_›
    · exact hnone h
  | poll requestId secret now =>
    simp only [step]
    split
    · exact since_poll h ‹_›
    · rename_i s' hs
      rcases poll_eq_ok hs with ⟨-, rfl⟩ | ⟨row, -, code, hcode, -⟩
      · exact hnone h
      · cases hcode
    · exact hnone h
  | exchangeCode request grantId access refreshToken now =>
    simp only [step]
    split
    · exact since_exchangeCode h ‹_›
    · exact hnone h
  | refresh refreshToken clientId freshGrant access newRefresh now =>
    rcases refresh_cases P refreshToken clientId freshGrant access newRefresh now s with
      ⟨e, heq⟩ | ⟨grantId, e, heq⟩ | ⟨row, hrow, hlive, pair, s', hissue, heq⟩
    · simp only [step, heq]
      exact hnone h
    · simp only [step, heq]
      exact hnone (since_revokeFamily h grantId now)
    · simp only [step, heq]
      obtain ⟨request, hrequest, hdescends⟩ := h.tokens row hrow hlive
      have hwider := (since_revokeFamily h row.grantId now).mono
        (List.subset_append_left after [.refreshed row.tokenHash pair.1 pair.2])
        (List.subset_append_left log [.refreshed row.tokenHash pair.1 pair.2])
      refine since_issue hwider hissue
        ⟨request, List.mem_append_left _ hrequest, fun token htoken => ?_⟩
      exact .refreshed (hdescends.mono (List.subset_append_left _ _)) (by simp) htoken
  | collectExpired now => exact hnone (since_collectExpired h now)
  | revokeAll now =>
    have hrevoked : Since after log (revokeAll now s) := by
      refine ⟨h.pending, h.codes, fun t ht hrevoked => ?_⟩
      obtain ⟨t₀, -, rfl⟩ := List.mem_map.mp ht
      exact absurd hrevoked (revokeToken_revokedMs_ne_none now t₀)
    exact hrevoked.mono (List.subset_append_left _ _) (List.subset_append_left _ _)

end Authority

/-! ## The runs -/

lemma since_run {P : Platform} {S : Stdlib} {before : List Event} {s : Tables}
    (h : Since [] before s) (ops : List Op) :
    Since (Run.events (step P S) s ops) (before ++ Run.events (step P S) s ops)
      (Run.final (step P S) s ops) := by
  have hstep : ∀ log s op, Since log (before ++ log) s →
      Since (log ++ (step P S s op).2) (before ++ (log ++ (step P S s op).2)) (step P S s op).1 := by
    intro log s op hs
    rw [← List.append_assoc]
    exact since_step hs P S op
  have hstart : Since [] (before ++ []) s := by rwa [List.append_nil]
  exact Run.log_invariant_of_meets (C := fun _ _ => True)
    (J := fun log s => Since log (before ++ log) s) (fun log s op hs _ => hstep log s op hs) hstart
    (Run.meets_of_forall (fun _ _ => trivial) s ops)

lemma validateAccessToken_eq_some {P : Platform} {S : Stdlib} {s : Tables} {token : PyStr} {time : ℤ}
    {claims : String × String} (h : validateAccessToken P S s token time = some claims) :
    ∃ row ∈ s.tokens, hash P token = some row.tokenHash ∧ row.revokedMs = none := by
  unfold validateAccessToken at h
  split at h
  · cases h
  simp only [Option.bind_eq_bind, Option.bind_eq_some_iff] at h
  obtain ⟨tokenHash, hhash, row, hrow, h⟩ := h
  have hkey := List.find?_some hrow
  simp only [decide_eq_true_eq] at hkey
  split at h
  · cases h
  · rename_i hlive
    push Not at hlive
    exact ⟨row, List.mem_of_find?_eq_some hrow, hkey.1 ▸ hhash, hlive.1⟩

/-- **The off switch.**  After a `revoke_all` that found no authority waiting, in every run that
follows, a token is accepted only when an approval made after that `revoke_all` lies in its
lineage. -/
theorem accepted_after_revokeAll (P : Platform) (S : Stdlib) (before : List Op) (now : ℤ)
    (after : List Op) (hdrained : Drained (Run.final (step P S) .empty before)) (token : PyStr)
    (time : ℤ) (claims : String × String)
    (haccepted : validateAccessToken P S
      (Run.final (step P S) .empty (before ++ .revokeAll now :: after)) token time = some claims) :
    ∃ tokenHash request, hash P token = some tokenHash ∧
      .approved request ∈
        Run.events (step P S) (revokeAll now (Run.final (step P S) .empty before)) after ∧
      Descends (Run.events (step P S) .empty (before ++ .revokeAll now :: after))
        tokenHash request := by
  rw [Run.final_append, Run.final_cons] at haccepted
  obtain ⟨row, hrow, hhash, hlive⟩ := validateAccessToken_eq_some haccepted
  have hrevoked := since_revokeAll (Run.events (step P S) .empty before ++ [.revokedAll])
    hdrained now
  obtain ⟨request, hrequest, hdescends⟩ := (since_run hrevoked after).tokens row hrow hlive
  refine ⟨row.tokenHash, request, hhash, hrequest, ?_⟩
  rw [Run.events_append, Run.events_cons, ← List.append_assoc]
  exact hdescends

/-! ## One request, approved before or after the switch -/

section Sample

def samplePlatform : Platform where
  sha256 b := b ++ List.replicate 32 0
  ecdsaVerify _ _ _ := false

def sampleStdlib : Stdlib :=
  ⟨fun _ => none, fun _ => [], fun _ => none, fun _ => "", id, id⟩

def sampleBegin : List Op :=
  [.registerClient (.text "app") [.text "https://app"] "wvc_1" 1000,
    .beginAuthorization ⟨.text "wvc_1", .text "https://app",
      .text (challengeOf samplePlatform (.text "verifier")), .text "S256", none⟩
      "wvr_1" "ABCDE-FGHJK" 1000]

def sampleApprove : Op := .approve (.text "ABCDE-FGHJK") 2000

def sampleRedeem : List Op :=
  [.poll (.text "wvr_1") "code-1" 4000,
    .exchangeCode ⟨.text "code-1", .text "wvc_1", .text "https://app", .text "verifier"⟩
      "wvg_1" "access-1" "refresh-1" 5000]

/-- The switch before the approval: the token it leads to descends from that approval. -/
theorem accepted_after_revokeAll_then_approve :
    ∃ tokenHash request, hash samplePlatform (.text "access-1") = some tokenHash ∧
      .approved request ∈ Run.events (step samplePlatform sampleStdlib)
        (revokeAll 1500 (Run.final (step samplePlatform sampleStdlib) .empty sampleBegin))
        (sampleApprove :: sampleRedeem) ∧
      Descends (Run.events (step samplePlatform sampleStdlib) .empty
        (sampleBegin ++ .revokeAll 1500 :: sampleApprove :: sampleRedeem)) tokenHash request :=
  accepted_after_revokeAll samplePlatform sampleStdlib sampleBegin 1500
    (sampleApprove :: sampleRedeem) (by decide) (.text "access-1") 6000
    ("wvc_1", readOnlyScope) (by decide)

/-- The switch between the approval and the collection of its code: a token is accepted afterwards
although nothing was approved since. -/
theorem accepted_without_approval_after_revokeAll :
    validateAccessToken samplePlatform sampleStdlib
        (Run.final (step samplePlatform sampleStdlib) .empty
          ((sampleBegin ++ [sampleApprove]) ++ .revokeAll 3000 :: sampleRedeem))
        (.text "access-1") 6000 = some ("wvc_1", readOnlyScope) ∧
    ∀ request, .approved request ∉ Run.events (step samplePlatform sampleStdlib)
      (revokeAll 3000 (Run.final (step samplePlatform sampleStdlib) .empty
        (sampleBegin ++ [sampleApprove]))) sampleRedeem := by
  refine ⟨by decide, fun request hrequest => ?_⟩
  have hevents : Run.events (step samplePlatform sampleStdlib)
      (revokeAll 3000 (Run.final (step samplePlatform sampleStdlib) .empty
        (sampleBegin ++ [sampleApprove]))) sampleRedeem =
      [.codeIssued "wvr_1" (samplePlatform.hexdigest (utf8 "code-1")),
        .pairIssued (samplePlatform.hexdigest (utf8 "code-1"))
          (samplePlatform.hexdigest (utf8 "access-1"))
          (samplePlatform.hexdigest (utf8 "refresh-1"))] := by decide
  rw [hevents] at hrequest
  simp at hrequest

end Sample

end WhatsVault.OAuth
