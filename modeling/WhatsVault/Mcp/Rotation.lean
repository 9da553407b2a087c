import WhatsVault.Mcp.Lineage

/-!
# Rotation

A refresh token that is presented and good is rotated: `refresh` revokes the tokens of its grant and
issues a new pair in the same grant.  The revocation goes by the grant id, and the tokens that were in
the database before the column was added have none.  For such a row the UPDATE matches nothing, so the
token that was presented stays good beside the new pair.  Rotation retires its predecessor exactly
where the presented token has a grant (`rotation_retires_iff`).
-/

namespace WhatsVault.OAuth

/-! ## What an operation does to the tokens -/

/-- The only column that changes in a stored token is `revoked_ms`, and it is set once. -/
structure OnlyRevokes (f : Token → Token) : Prop where
  tokenHash : ∀ t, (f t).tokenHash = t.tokenHash
  kind : ∀ t, (f t).kind = t.kind
  grantId : ∀ t, (f t).grantId = t.grantId
  revoked : ∀ t, t.revokedMs ≠ none → (f t).revokedMs ≠ none

lemma onlyRevokes_id : OnlyRevokes id :=
  ⟨fun _ => rfl, fun _ => rfl, fun _ => rfl, fun _ h => h⟩

lemma onlyRevokes_revokeToken (now : ℤ) : OnlyRevokes (revokeToken now) := by
  refine ⟨fun t => (revokeToken_kept now t).1, fun t => ?_, fun t => ?_, fun t _ => ?_⟩
  · unfold revokeToken
    split
    · rfl
    · rfl
  · unfold revokeToken
    split
    · rfl
    · rfl
  · exact revokeToken_revokedMs_ne_none now t

lemma onlyRevokes_ite {f : Token → Token} (hf : OnlyRevokes f) (p : Token → Prop)
    [DecidablePred p] : OnlyRevokes fun t => if p t then f t else t := by
  refine ⟨fun t => ?_, fun t => ?_, fun t => ?_, fun t h => ?_⟩
  · split
    · exact hf.tokenHash t
    · rfl
  · split
    · exact hf.kind t
    · rfl
  · split
    · exact hf.grantId t
    · rfl
  · split
    · exact hf.revoked t h
    · exact h

lemma onlyRevokes_revokeFamily (grantId : Option String) (now : ℤ) :
    OnlyRevokes fun t => if grantId ≠ none ∧ t.grantId = grantId then revokeToken now t else t :=
  onlyRevokes_ite (onlyRevokes_revokeToken now) _

/-- What `refresh` needs of the row it rotates, and what it then does. -/
lemma refresh_rotates {P : Platform} {refreshToken clientId : PyStr}
    {freshGrant access newRefresh : String} {now : ℤ} {s s' : Tables} {old a r : String}
    (h : refresh P refreshToken clientId freshGrant access newRefresh now s = (s', .ok (old, a, r))) :
    ∃ row ∈ s.tokens, row.tokenHash = old ∧ row.revokedMs = none ∧
      issue P row.clientId now (row.grantId.getD freshGrant) access newRefresh
        (revokeFamily row.grantId now s) = .ok ((a, r), s') := by
  rcases refresh_cases P refreshToken clientId freshGrant access newRefresh now s with
    ⟨e, heq⟩ | ⟨grantId, e, heq⟩ | ⟨row, hrow, hlive, pair, s₁, hissue, heq⟩
  · rw [heq] at h
    cases h
  · rw [heq] at h
    cases h
  · rw [heq] at h
    simp only [Prod.mk.injEq, Except.ok.injEq] at h
    obtain ⟨rfl, rfl, rfl⟩ := h
    exact ⟨row, hrow, rfl, hlive, hissue⟩

/-- The tokens after an operation: those that are kept, some of them revoked, and the pair that an
exchange or a rotation added. -/
lemma step_tokens (P : Platform) (S : Stdlib) (s : Tables) (op : Op) :
    (∃ (keep : Token → Bool) (f : Token → Token), OnlyRevokes f ∧
      (step P S s op).1.tokens = (s.tokens.filter keep).map f) ∨
    ∃ (f : Token → Token) (clientId grantId access refreshToken : String) (now : ℤ) (s₁ : Tables)
      (pair : String × String), OnlyRevokes f ∧ s₁.tokens = s.tokens.map f ∧
        issue P clientId now grantId access refreshToken s₁ = .ok (pair, (step P S s op).1) ∧
        [access, refreshToken] = op.drawn ∧
        ((∃ r, op = .exchangeCode r grantId access refreshToken now) ∨
          ∃ token client freshGrant, op = .refresh token client freshGrant access refreshToken now ∧
            ∃ row ∈ s.tokens, row.revokedMs = none ∧ grantId = row.grantId.getD freshGrant) := by
  have hsame {s' : Tables} (h : s'.tokens = s.tokens) :
      ∃ (keep : Token → Bool) (f : Token → Token), OnlyRevokes f ∧
        s'.tokens = (s.tokens.filter keep).map f := by
    refine ⟨fun _ => true, id, onlyRevokes_id, ?_⟩
    rw [h, List.filter_true, List.map_id]
  have hmap {s' : Tables} {f : Token → Token} (hf : OnlyRevokes f)
      (h : s'.tokens = s.tokens.map f) : ∃ (keep : Token → Bool) (f : Token → Token),
        OnlyRevokes f ∧ s'.tokens = (s.tokens.filter keep).map f := by
    refine ⟨fun _ => true, f, hf, ?_⟩
    rw [h, List.filter_true]
  have hcollected (now : ℤ) {s' : Tables} (h : s'.tokens = (collectExpired now s).tokens) :
      ∃ (keep : Token → Bool) (f : Token → Token), OnlyRevokes f ∧
        s'.tokens = (s.tokens.filter keep).map f := by
    refine ⟨fun t => now < t.expiresMs, id, onlyRevokes_id, ?_⟩
    rw [h, List.map_id]
    rfl
  cases op with
  | registerClient name uris clientId now =>
    left
    simp only [step]
    split
    · rename_i hs
      obtain ⟨client, rfl⟩ := registerClient_spec hs
      exact hsame rfl
    · exact hsame rfl
  | beginAuthorization r requestId userCode now =>
    left
    simp only [step, beginAuthorization]
    split
    · rename_i hs
      obtain ⟨request, -, -, -, -, -, rfl⟩ := insertPending_spec hs
      exact hcollected now rfl
    · exact hcollected now rfl
  | approve userCode now =>
    left
    simp only [step]
    split
    · rename_i hs
      obtain ⟨row, -, -, -, -, rfl⟩ := approve_spec hs
      exact hsame rfl
    · exact hsame rfl
  | poll id secret now =>
    left
    simp only [step]
    split
    · rename_i hs
      obtain ⟨row, -, -, -, -, rfl⟩ := poll_spec hs
      exact hsame rfl
    · rename_i hs
      rcases poll_eq_ok hs with ⟨-, rfl⟩ | ⟨row, -, code, hcode, -⟩
      · exact hsame rfl
      · cases hcode
    · exact hsame rfl
  | exchangeCode r grantId access refreshToken now =>
    simp only [step]
    split
    · rename_i hs
      obtain ⟨row, -, -, -, -, hissue⟩ := exchangeCode_spec hs
      refine .inr ⟨id, row.clientId, grantId, access, refreshToken, now,
        consumeCode row.codeHash now s, _, onlyRevokes_id, ?_, hissue, rfl, .inl ⟨r, rfl⟩⟩
      exact (List.map_id _).symm
    · exact .inl (hsame rfl)
  | refresh token client freshGrant access newRefresh now =>
    rcases refresh_cases P token client freshGrant access newRefresh now s with
      ⟨e, heq⟩ | ⟨grantId, e, heq⟩ | ⟨row, hrow, hlive, pair, s', hissue, heq⟩
    · left
      simp only [step, heq]
      exact hsame rfl
    · left
      simp only [step, heq]
      exact hmap (onlyRevokes_revokeFamily grantId now) rfl
    · right
      simp only [step, heq]
      exact ⟨_, row.clientId, row.grantId.getD freshGrant, access, newRefresh, now,
        revokeFamily row.grantId now s, pair, onlyRevokes_revokeFamily row.grantId now, rfl, hissue,
        rfl, .inr ⟨token, client, freshGrant, rfl, row, hrow, hlive, rfl⟩⟩
  | collectExpired now => exact .inl (hcollected now rfl)
  | revokeAll now => exact .inl (hmap (onlyRevokes_revokeToken now) rfl)

/-! ## Token hashes are unique -/

lemma OnlyRevokes.map_tokenHash {f : Token → Token} (hf : OnlyRevokes f) (tokens : List Token) :
    (tokens.map f).map Token.tokenHash = tokens.map Token.tokenHash := by
  rw [List.map_map]
  exact List.map_congr_left fun t _ => hf.tokenHash t

lemma unique_issue {P : Platform} {clientId grantId access refreshToken : String} {now : ℤ}
    {pair : String × String} {s s' : Tables} (h : Table.Unique Token.tokenHash s.tokens)
    (hissue : issue P clientId now grantId access refreshToken s = .ok (pair, s')) :
    Table.Unique Token.tokenHash s'.tokens := by
  simp only [issue, Checks.bind_eq_ok, Checks.orStop_eq_ok, Checks.pure_eq_ok,
    Prod.mk.injEq] at hissue
  obtain ⟨tokens, htokens, tokens', htokens', -, rfl⟩ := hissue
  exact (h.insert htokens).insert htokens'

lemma uniqueTokens_step (P : Platform) (S : Stdlib) (s : Tables) (op : Op)
    (h : Table.Unique Token.tokenHash s.tokens) :
    Table.Unique Token.tokenHash (step P S s op).1.tokens := by
  rcases step_tokens P S s op with ⟨keep, f, hf, heq⟩ | ⟨f, clientId, grantId, access, refreshToken,
    now, s₁, pair, hf, heq, hissue, -⟩
  · unfold Table.Unique
    rw [heq, hf.map_tokenHash]
    exact h.sublist (List.filter_sublist.map _)
  · refine unique_issue ?_ hissue
    unfold Table.Unique
    rw [heq, hf.map_tokenHash]
    exact h

/-! ## Rotation -/

/-- The tokens of a grant that are not revoked. -/
def unrevoked (s : Tables) (grantId : Option String) : List Token :=
  s.tokens.filter fun t => t.grantId = grantId ∧ t.revokedMs = none

/-- The grant of a stored token. -/
def grantOf (s : Tables) (tokenHash : String) : Option String :=
  (Table.find Token.tokenHash tokenHash s.tokens).bind Token.grantId

/-- What is left of a grant after the token with the hash `old` was rotated into a new pair. -/
structure Retired (s : Tables) (grantId : Option String) (old access refresh : String) : Prop where
  presented : ∀ t ∈ s.tokens, t.tokenHash = old → t.revokedMs ≠ none
  earlier : ∀ t ∈ s.tokens, t.grantId = grantId → t.tokenHash ≠ access → t.tokenHash ≠ refresh →
    t.revokedMs ≠ none
  pair : ∃ a r, unrevoked s grantId = [a, r] ∧ a.kind = .access ∧ a.tokenHash = access ∧
    r.kind = .refresh ∧ r.tokenHash = refresh

variable (P : Platform) (S : Stdlib)

/-- A rotation done by the operation retires the token that was presented and all of its grant. -/
def RetiresPredecessor (s : Tables) (op : Op) : Prop :=
  ∀ old access refresh, .refreshed old access refresh ∈ (step P S s op).2 →
    Retired (step P S s op).1 (grantOf s old) old access refresh

/-- The hash of the token that was rotated. -/
def Event.rotated : Event → Option String
  | .refreshed old _ _ => some old
  | _ => none

/-- A token that the operation rotates has a grant. -/
def PresentsGrant (s : Tables) (op : Op) : Prop :=
  ∀ e ∈ (step P S s op).2, ∀ old ∈ e.rotated, grantOf s old ≠ none

instance (s : Tables) (op : Op) : Decidable (PresentsGrant P S s op) :=
  inferInstanceAs (Decidable (∀ e ∈ (step P S s op).2, ∀ old ∈ e.rotated, grantOf s old ≠ none))

variable {P S}

/-- Only `refresh` rotates. -/
lemma refresh_of_rotated {s : Tables} {op : Op} {old a r : String}
    (h : .refreshed old a r ∈ (step P S s op).2) :
    ∃ token client freshGrant access newRefresh now s',
      op = .refresh token client freshGrant access newRefresh now ∧
      refresh P token client freshGrant access newRefresh now s = (s', .ok (old, a, r)) ∧
      (step P S s op).1 = s' := by
  cases op with
  | refresh token client freshGrant access newRefresh now =>
    simp only [step] at h
    split at h
    · rename_i s' old' a' r' heq
      simp only [List.mem_singleton, Event.refreshed.injEq] at h
      obtain ⟨rfl, rfl, rfl⟩ := h
      refine ⟨token, client, freshGrant, access, newRefresh, now, s', rfl, heq, ?_⟩
      rw [step_refresh, heq]
    · cases h
  | registerClient name uris clientId now =>
    simp only [step] at h
    split at h
    · cases h
    · cases h
  | beginAuthorization r requestId userCode now => cases h
  | approve userCode now =>
    simp only [step] at h
    split at h
    · simp at h
    · cases h
  | poll id secret now =>
    simp only [step] at h
    split at h
    · simp at h
    · cases h
    · cases h
  | exchangeCode r grantId access refreshToken now =>
    simp only [step] at h
    split at h
    · simp at h
    · cases h
  | collectExpired now => cases h
  | revokeAll now => simp [step] at h

lemma grantOf_eq {s : Tables} (hunique : Table.Unique Token.tokenHash s.tokens) {row : Token}
    (hrow : row ∈ s.tokens) : grantOf s row.tokenHash = row.grantId := by
  rw [grantOf, hunique.find_eq_some_iff.mpr ⟨hrow, rfl⟩]
  rfl

/-- Revoking a grant leaves none of its tokens, and nothing else is revoked. -/
lemma mem_revokeFamily {s : Tables} {grantId : Option String} {now : ℤ} {t : Token}
    (ht : t ∈ (revokeFamily grantId now s).tokens) :
    (grantId ≠ none → t.grantId = grantId → t.revokedMs ≠ none) ∧
      ∃ u ∈ s.tokens, u.tokenHash = t.tokenHash ∧ u.grantId = t.grantId := by
  obtain ⟨u, hu, rfl⟩ := List.mem_map.mp ht
  have honly := onlyRevokes_revokeFamily grantId now
  refine ⟨fun hne hgrant => ?_, u, hu, (honly.tokenHash u).symm, (honly.grantId u).symm⟩
  rw [honly.grantId u] at hgrant
  rw [if_pos ⟨hne, hgrant⟩]
  exact revokeToken_revokedMs_ne_none now u

/-- With a grant, the rotation leaves the new pair and nothing else of it. -/
lemma retired_of_grant {s s' : Tables} (hunique : Table.Unique Token.tokenHash s.tokens) {row : Token}
    (hrow : row ∈ s.tokens) {g : String} (hg : row.grantId = some g) {now : ℤ}
    {access newRefresh a r : String}
    (hissue : issue P row.clientId now g access newRefresh (revokeFamily (some g) now s) =
      .ok ((a, r), s')) : Retired s' (some g) row.tokenHash a r := by
  have hstored : Table.Unique Token.tokenHash (revokeFamily (some g) now s).tokens := by
    unfold Table.Unique
    rw [revokeFamily, (onlyRevokes_revokeFamily (some g) now).map_tokenHash]
    exact hunique
  have hunique' := unique_issue hstored hissue
  obtain ⟨hpair, rfl⟩ := issue_spec hissue
  obtain ⟨rfl, rfl⟩ := Prod.mk.inj hpair
  have hold {t : Token} (ht : t ∈ (revokeFamily (some g) now s).tokens)
      (hgrant : t.grantId = some g) : t.revokedMs ≠ none :=
    (mem_revokeFamily ht).1 (by simp) hgrant
  refine ⟨?_, ?_, accessRow P row.clientId now g access, refreshRow P row.clientId now g newRefresh,
    ?_, rfl, rfl, rfl, rfl⟩
  · intro t ht hhash
    have hkept : revokeToken now row ∈ (revokeFamily (some g) now s).tokens := by
      refine List.mem_map.mpr ⟨row, hrow, ?_⟩
      rw [if_pos ⟨by simp, hg⟩]
    have hsame : t = revokeToken now row := by
      refine hunique'.eq_of_key_eq ht (List.mem_append_left _ hkept) ?_
      rw [hhash, (onlyRevokes_revokeToken now).tokenHash]
    rw [hsame]
    exact revokeToken_revokedMs_ne_none now row
  · intro t ht hgrant haccess hrefresh
    rcases List.mem_append.mp ht with ht | hnew
    · exact hold ht hgrant
    · rcases List.mem_pair.mp hnew with rfl | rfl
      · exact absurd rfl haccess
      · exact absurd rfl hrefresh
  · have hnone : (revokeFamily (some g) now s).tokens.filter
        (fun t => t.grantId = some g ∧ t.revokedMs = none) = [] := by
      rw [List.filter_eq_nil_iff]
      intro t ht hkept
      rw [decide_eq_true_eq] at hkept
      exact hold ht hkept.1 hkept.2
    rw [unrevoked, List.filter_append, hnone]
    simp [accessRow, refreshRow]

/-- Without one, the token that was presented is as good as before. -/
lemma presented_unrevoked {s s' : Tables} {row : Token} (hrow : row ∈ s.tokens)
    (hlive : row.revokedMs = none) (hg : row.grantId = none) {now : ℤ}
    {clientId grantId access newRefresh : String} {pair : String × String}
    (hissue : issue P clientId now grantId access newRefresh (revokeFamily row.grantId now s) =
      .ok (pair, s')) : ∃ t ∈ s'.tokens, t.tokenHash = row.tokenHash ∧ t.revokedMs = none := by
  obtain ⟨-, rfl⟩ := issue_spec hissue
  refine ⟨row, List.mem_append_left _ (List.mem_map.mpr ⟨row, hrow, ?_⟩), rfl, hlive⟩
  rw [if_neg]
  intro hfamily
  exact hfamily.1 hg

/-- One operation: it retires what it rotates exactly where that has a grant. -/
lemma retires_iff_presentsGrant {s : Tables} (hunique : Table.Unique Token.tokenHash s.tokens)
    (op : Op) : RetiresPredecessor P S s op ↔ PresentsGrant P S s op := by
  constructor
  · intro hretires e he old hold
    cases e with
    | refreshed old' a r =>
      obtain rfl := Option.some.inj hold
      intro hnone
      obtain ⟨token, client, freshGrant, access, newRefresh, now, s', -, heq, hstep⟩ :=
        refresh_of_rotated he
      obtain ⟨row, hrow, rfl, hlive, hissue⟩ := refresh_rotates heq
      rw [grantOf_eq hunique hrow] at hnone
      obtain ⟨t, ht, hhash, hgood⟩ := presented_unrevoked hrow hlive hnone hissue
      exact (hretires _ a r he).presented t (hstep ▸ ht) hhash hgood
    | approved requestId => cases hold
    | codeIssued requestId codeHash => cases hold
    | pairIssued codeHash accessHash refreshHash => cases hold
    | revokedAll => cases hold
  · intro hgrants old a r he
    obtain ⟨token, client, freshGrant, access, newRefresh, now, s', -, heq, hstep⟩ :=
      refresh_of_rotated he
    obtain ⟨row, hrow, rfl, hlive, hissue⟩ := refresh_rotates heq
    have hgrant := hgrants _ he _ rfl
    rw [grantOf_eq hunique hrow] at hgrant ⊢
    obtain ⟨g, hg⟩ := Option.ne_none_iff_exists'.mp hgrant
    rw [hg, Option.getD_some] at hissue
    rw [hstep, hg]
    exact retired_of_grant hunique hrow hg hissue

/-- **Rotation.**  A run, from any tables with unique token hashes, retires every token it rotates
exactly where each of them has a grant. -/
theorem rotation_retires_iff (P : Platform) (S : Stdlib) {s₀ : Tables}
    (h₀ : Table.Unique Token.tokenHash s₀.tokens) (ops : List Op) :
    Run.Meets (step P S) (RetiresPredecessor P S) s₀ ops ↔
      Run.Meets (step P S) (PresentsGrant P S) s₀ ops :=
  Run.meets_congr_of_invariant (I := fun s => Table.Unique Token.tokenHash s.tokens)
    (uniqueTokens_step P S) (fun _ op hs => retires_iff_presentsGrant hs op) h₀

/-- A run that rotates once. -/
theorem rotation_retires_iff_sample :
    Run.Meets (step samplePlatform sampleStdlib)
      (RetiresPredecessor samplePlatform sampleStdlib) .empty sampleRun :=
  (rotation_retires_iff samplePlatform sampleStdlib (Table.unique_nil _) sampleRun).mpr
    (by decide +kernel)

/-- A pair that was issued before tokens had grants. -/
def legacyTables : Tables where
  clients := [⟨"wvc_1", "app", [.text "https://app"], 1000⟩]
  pending := []
  codes := []
  tokens :=
    [{ accessRow samplePlatform "wvc_1" 1000 "" "access-0" with grantId := none },
      { refreshRow samplePlatform "wvc_1" 1000 "" "refresh-0" with grantId := none }]

def legacyRefresh : Op :=
  .refresh (.text "refresh-0") (.text "wvc_1") "wvg_1" "access-1" "refresh-1" 2000

/-- The token of a legacy pair is rotated and stays good, and so does its access token. -/
theorem legacy_token_survives_rotation :
    Table.Unique Token.tokenHash legacyTables.tokens ∧
      (∀ t ∈ legacyTables.tokens, t.grantId = none) ∧
      ¬ Run.Meets (step samplePlatform sampleStdlib)
        (RetiresPredecessor samplePlatform sampleStdlib) legacyTables [legacyRefresh] := by
  have hunique : Table.Unique Token.tokenHash legacyTables.tokens := by
    show List.Nodup _
    decide
  refine ⟨hunique, by decide, ?_⟩
  intro hretires
  have hrotated : .refreshed (samplePlatform.hexdigest (utf8 "refresh-0"))
      (samplePlatform.hexdigest (utf8 "access-1")) (samplePlatform.hexdigest (utf8 "refresh-1")) ∈
        (step samplePlatform sampleStdlib legacyTables legacyRefresh).2 := by decide +kernel
  have hgood : ∃ t ∈ (step samplePlatform sampleStdlib legacyTables legacyRefresh).1.tokens,
      t.tokenHash = samplePlatform.hexdigest (utf8 "refresh-0") ∧ t.revokedMs = none := by
    decide
  obtain ⟨t, ht, hhash, hlive⟩ := hgood
  exact (hretires.1 _ _ _ hrotated).presented t ht hhash hlive

end WhatsVault.OAuth
