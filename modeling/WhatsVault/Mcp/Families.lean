import WhatsVault.Mcp.Rotation

/-!
# Compromised families

When a refresh token comes back that was already rotated, `refresh` revokes its grant, whoever sent
it.  From then on the grant is dead: none of its tokens is good (`Dead`), and since a pair joins a
grant only by the rotation of a good token of it, none ever will be (`dead_step`).  A grant id is
drawn once, so no exchange revives it, and a secret is drawn once, so no row of another grant ever
answers to a token of this one (`sameGrant_run`).
-/

namespace WhatsVault.OAuth

/-- The row that the SELECT of `refresh` finds. -/
def presentedRow (P : Platform) (s : Tables) (refreshToken : PyStr) : Option Token := do
  let tokenHash ← hash P refreshToken
  s.tokens.find? fun t => t.tokenHash = tokenHash ∧ t.kind = .refresh

/-- The grant ids an operation draws. -/
def Op.grants : Op → List String
  | .exchangeCode _ grantId _ _ _ => [grantId]
  | .refresh _ _ freshGrant _ _ _ => [freshGrant]
  | _ => []

/-- No grant id is drawn twice. -/
def FreshGrants (ops : List Op) : Prop := (ops.flatMap Op.grants).Nodup

instance (ops : List Op) : Decidable (FreshGrants ops) :=
  inferInstanceAs (Decidable (List.Nodup _))

/-- Tables that hold no token with a grant: empty ones, or those the migration found. -/
structure Ungranted (s : Tables) : Prop where
  unique : Table.Unique Token.tokenHash s.tokens
  grantId : ∀ t ∈ s.tokens, t.grantId = none

/-- No token of the grant is good. -/
def Dead (g : String) (s : Tables) : Prop := ∀ t ∈ s.tokens, t.grantId = some g → t.revokedMs ≠ none

/-- Only rows of the grant have that hash. -/
def SameGrant (g tokenHash : String) (s : Tables) : Prop :=
  ∀ t ∈ s.tokens, t.tokenHash = tokenHash → t.grantId = some g

/-- The grant and the secret of a token with a grant were drawn. -/
def Drawn (P : Platform) (grants secrets : List String) (s : Tables) : Prop :=
  ∀ t ∈ s.tokens, ∀ g, t.grantId = some g →
    g ∈ grants ∧ ∃ x ∈ secrets, P.hexdigest (utf8 x) = t.tokenHash

/-! ## One operation -/

section Steps

variable {P : Platform} {S : Stdlib} {s : Tables} {op : Op}

/-- A token after an operation was there before, with at most its revocation new, or is one of a pair
that the operation issued. -/
lemma token_of_step {t : Token} (ht : t ∈ (step P S s op).1.tokens) :
    (∃ u ∈ s.tokens, u.tokenHash = t.tokenHash ∧ u.grantId = t.grantId ∧
        (u.revokedMs ≠ none → t.revokedMs ≠ none)) ∨
      (∃ x ∈ op.drawn, P.hexdigest (utf8 x) = t.tokenHash) ∧
        ((∃ g ∈ op.grants, t.grantId = some g) ∨
          ∃ row ∈ s.tokens, row.revokedMs = none ∧ row.grantId ≠ none ∧ t.grantId = row.grantId) := by
  have hkept {u : Token} {f : Token → Token} (hf : OnlyRevokes f) (hu : u ∈ s.tokens) :
      ∃ v ∈ s.tokens, v.tokenHash = (f u).tokenHash ∧ v.grantId = (f u).grantId ∧
        (v.revokedMs ≠ none → (f u).revokedMs ≠ none) :=
    ⟨u, hu, (hf.tokenHash u).symm, (hf.grantId u).symm, hf.revoked u⟩
  rcases step_tokens P S s op with ⟨keep, f, hf, heq⟩ | ⟨f, clientId, grantId, access, refreshToken,
    now, s₁, pair, hf, heq, hissue, hdrawn, hop⟩
  · rw [heq] at ht
    obtain ⟨u, hu, rfl⟩ := List.mem_map.mp ht
    exact .inl (hkept hf (List.mem_of_mem_filter hu))
  · obtain ⟨-, hs'⟩ := issue_spec hissue
    rw [hs'] at ht
    rcases List.mem_append.mp ht with hold | hnew
    · rw [heq] at hold
      obtain ⟨u, hu, rfl⟩ := List.mem_map.mp hold
      exact .inl (hkept hf hu)
    · have hminted : (∃ x ∈ op.drawn, P.hexdigest (utf8 x) = t.tokenHash) ∧
          t.grantId = some grantId := by
        rw [← hdrawn]
        rcases List.mem_pair.mp hnew with rfl | rfl
        · exact ⟨⟨access, by simp, rfl⟩, rfl⟩
        · exact ⟨⟨refreshToken, by simp, rfl⟩, rfl⟩
      refine .inr ⟨hminted.1, ?_⟩
      rcases hop with ⟨r, rfl⟩ | ⟨token, client, freshGrant, rfl, row, hrow, hlive, rfl⟩
      · exact .inl ⟨grantId, List.mem_singleton_self _, hminted.2⟩
      · cases hg : row.grantId with
        | none =>
          refine .inl ⟨freshGrant, List.mem_singleton_self _, ?_⟩
          rw [hminted.2, hg]
          rfl
        | some g =>
          refine .inr ⟨row, hrow, hlive, by simp [hg], ?_⟩
          rw [hminted.2, hg]
          rfl

/-- A dead grant stays dead. -/
lemma dead_step {g : String} (h : Dead g s) (hg : g ∉ op.grants) : Dead g (step P S s op).1 := by
  intro t ht hgrant
  rcases token_of_step ht with ⟨u, hu, -, hsame, hrevoked⟩ | ⟨-, hnew⟩
  · exact hrevoked (h u hu (hsame.trans hgrant))
  · rcases hnew with ⟨g', hg', hgrant'⟩ | ⟨row, hrow, hlive, -, hsame⟩
    · rw [hgrant] at hgrant'
      exact absurd (Option.some.inj hgrant' ▸ hg') hg
    · exact absurd hlive (h row hrow (hsame.symm.trans hgrant))

lemma sameGrant_step {g tokenHash : String} (h : SameGrant g tokenHash s)
    (hfresh : ∀ x ∈ op.drawn, P.hexdigest (utf8 x) ≠ tokenHash) :
    SameGrant g tokenHash (step P S s op).1 := by
  intro t ht hhash
  rcases token_of_step ht with ⟨u, hu, hsame, hgrant, -⟩ | ⟨⟨x, hx, hminted⟩, -⟩
  · rw [← hgrant]
    exact h u hu (hsame.trans hhash)
  · exact absurd (hminted.trans hhash) (hfresh x hx)

lemma drawn_step {grants secrets : List String} (h : Drawn P grants secrets s)
    (hgrants : op.grants ⊆ grants) (hsecrets : op.drawn ⊆ secrets) :
    Drawn P grants secrets (step P S s op).1 := by
  intro t ht g hg
  rcases token_of_step ht with ⟨u, hu, hhash, hgrant, -⟩ | ⟨⟨x, hx, hminted⟩, hnew⟩
  · rw [← hhash]
    exact h u hu g (hgrant.trans hg)
  · refine ⟨?_, x, hsecrets hx, hminted⟩
    rcases hnew with ⟨g', hg', hgrant⟩ | ⟨row, hrow, -, -, hgrant⟩
    · rw [hg] at hgrant
      exact hgrants (Option.some.inj hgrant ▸ hg')
    · exact (h row hrow g (hgrant.symm.trans hg)).1

end Steps

/-- Reuse kills the grant, whatever client id came with it. -/
lemma dead_of_reuse {P : Platform} {s : Tables} {token clientId : PyStr} {row : Token} {g : String}
    (hrow : presentedRow P s token = some row) (hrevoked : row.revokedMs ≠ none)
    (hg : row.grantId = some g) (freshGrant access newRefresh : String) (now : ℤ) :
    Dead g (refresh P token clientId freshGrant access newRefresh now s).1 := by
  have hreuse : (refresh P token clientId freshGrant access newRefresh now s).1 =
      revokeFamily (some g) now s := by
    obtain ⟨tokenHash, hhash, hfind⟩ := Option.bind_eq_some_iff.mp hrow
    unfold refresh
    simp only [hhash, hfind, if_pos hrevoked, hg]
  rw [hreuse]
  intro t ht hgrant
  exact (mem_revokeFamily ht).1 (by simp) hgrant

/-! ## Runs -/

section Runs

variable {P : Platform} {S : Stdlib}

lemma dead_run {g : String} {s : Tables} (h : Dead g s) {ops : List Op}
    (hg : g ∉ ops.flatMap Op.grants) : Dead g (Run.final (step P S) s ops) := by
  refine Run.invariant_of_meets (C := fun _ op => g ∉ op.grants) (fun s op hs hop => dead_step hs hop)
    h (Run.meets_of_forall_mem (fun op hop => ?_) s)
  intro hdrawn
  exact hg (List.mem_flatMap.mpr ⟨op, hop, hdrawn⟩)

lemma sameGrant_run {g tokenHash : String} {s : Tables} (h : SameGrant g tokenHash s) {ops : List Op}
    (hfresh : ∀ x ∈ ops.flatMap Op.drawn, P.hexdigest (utf8 x) ≠ tokenHash) :
    SameGrant g tokenHash (Run.final (step P S) s ops) := by
  refine Run.invariant_of_meets (C := fun _ op => ∀ x ∈ op.drawn, P.hexdigest (utf8 x) ≠ tokenHash)
    (fun s op hs hop => sameGrant_step hs hop) h (Run.meets_of_forall_mem (fun op hop => ?_) s)
  intro x hx
  exact hfresh x (List.mem_flatMap.mpr ⟨op, hop, hx⟩)

lemma drawn_run {s : Tables} (h : Ungranted s) (ops : List Op) :
    Drawn P (ops.flatMap Op.grants) (ops.flatMap Op.drawn) (Run.final (step P S) s ops) := by
  refine Run.invariant_of_meets
    (C := fun _ op => op.grants ⊆ ops.flatMap Op.grants ∧ op.drawn ⊆ ops.flatMap Op.drawn)
    (fun s op hs hop => drawn_step hs hop.1 hop.2) ?_ (Run.meets_of_forall_mem (fun op hop => ?_) s)
  · intro t ht g hg
    rw [h.grantId t ht] at hg
    cases hg
  · exact ⟨fun x hx => List.mem_flatMap.mpr ⟨op, hop, hx⟩,
      fun x hx => List.mem_flatMap.mpr ⟨op, hop, hx⟩⟩

lemma uniqueTokens_run {s : Tables} (h : Ungranted s) (ops : List Op) :
    Table.Unique Token.tokenHash (Run.final (step P S) s ops).tokens :=
  Run.invariant (I := fun s : Tables => Table.Unique Token.tokenHash s.tokens) (uniqueTokens_step P S)
    h.unique ops

/-- The rows that have the hash of a token of a grant have that grant, later on too. -/
lemma sameGrant_later (hsha : Function.Injective P.sha256) {s : Tables} (h : Ungranted s)
    {first later : List Op} (hfresh : Fresh (first ++ later)) {t : Token}
    (ht : t ∈ (Run.final (step P S) s first).tokens) {g : String} (hg : t.grantId = some g) :
    SameGrant g t.tokenHash (Run.final (step P S) s (first ++ later)) := by
  rw [Run.final_append]
  apply sameGrant_run
  · intro u hu hhash
    rw [(uniqueTokens_run h first).eq_of_key_eq hu ht hhash]
    exact hg
  · intro x hx hminted
    obtain ⟨-, y, hy, hold⟩ := drawn_run h first t ht g hg
    have hsame : x = y := utf8_injective (Platform.hexdigest_injective hsha (hminted.trans hold.symm))
    rw [Fresh, List.flatMap_append, List.nodup_append'] at hfresh
    exact hfresh.2.2 hy (hsame ▸ hx)

end Runs

/-! ## Acceptance -/

/-- `validate_access_token` or `refresh` takes the token. -/
def Accepted (P : Platform) (S : Stdlib) (s : Tables) (token : PyStr) (time : ℤ) : Prop :=
  (∃ claims, validateAccessToken P S s token time = some claims) ∨
    ∃ clientId freshGrant access newRefresh result,
      (refresh P token clientId freshGrant access newRefresh time s).2 = .ok result

/-- A token is taken through a good row with its hash. -/
lemma exists_row_of_accepted {P : Platform} {S : Stdlib} {s : Tables} {token : PyStr} {time : ℤ}
    (h : Accepted P S s token time) :
    ∃ row ∈ s.tokens, hash P token = some row.tokenHash ∧ row.revokedMs = none := by
  rcases h with ⟨claims, hvalid⟩ | ⟨clientId, freshGrant, access, newRefresh, result, hrefresh⟩
  · exact validateAccessToken_eq_some hvalid
  · unfold refresh at hrefresh
    split at hrefresh
    · cases hrefresh
    rename_i oldHash hhash
    split at hrefresh
    · cases hrefresh
    rename_i row hrow
    have hkey := List.find?_some hrow
    rw [decide_eq_true_eq] at hkey
    split at hrefresh
    · cases hrefresh
    rename_i hlive
    exact ⟨row, List.mem_of_find?_eq_some hrow, hkey.1 ▸ hhash, not_not.mp hlive⟩

/-- **A compromised family dies for good.**  Once a run has presented a revoked refresh token of a
grant, no token that the grant has had at any time is taken any more, whoever presents it. -/
theorem compromised_family_dies (P : Platform) (S : Stdlib) (hsha : Function.Injective P.sha256)
    {s₀ : Tables} (h₀ : Ungranted s₀) (before : List Op) (token clientId : PyStr)
    (freshGrant access newRefresh : String) (now : ℤ) (after : List Op)
    (hfresh : Fresh (before ++ .refresh token clientId freshGrant access newRefresh now :: after))
    (hgrants : FreshGrants
      (before ++ .refresh token clientId freshGrant access newRefresh now :: after))
    {row : Token} (hrow : presentedRow P (Run.final (step P S) s₀ before) token = some row)
    (hrevoked : row.revokedMs ≠ none) {g : String} (hg : row.grantId = some g) :
    ∀ first : List Op,
      first <+: before ++ .refresh token clientId freshGrant access newRefresh now :: after →
      ∀ t ∈ (Run.final (step P S) s₀ first).tokens, t.grantId = some g →
      ∀ value, hash P value = some t.tokenHash → ∀ time,
        ¬ Accepted P S (Run.final (step P S) s₀
          (before ++ .refresh token clientId freshGrant access newRefresh now :: after))
          value time := by
  rintro first ⟨later, hsplit⟩ t ht hgrant value hvalue time haccepted
  obtain ⟨u, hu, hhash, hlive⟩ := exists_row_of_accepted haccepted
  have hsame : u.tokenHash = t.tokenHash := Option.some.inj (hhash.symm.trans hvalue)
  have hfamily : u.grantId = some g := by
    rw [← hsplit] at hfresh hu
    exact sameGrant_later hsha h₀ hfresh ht hgrant u hu hsame
  have hdead : Dead g (Run.final (step P S) s₀
      (before ++ .refresh token clientId freshGrant access newRefresh now :: after)) := by
    rw [Run.final_append, Run.final_cons]
    apply dead_run
    · rw [step_refresh]
      exact dead_of_reuse hrow hrevoked hg freshGrant access newRefresh now
    · -- the grant was drawn before
      obtain ⟨tokenHash, -, hfind⟩ := Option.bind_eq_some_iff.mp hrow
      have hdrawn := (drawn_run h₀ before row (List.mem_of_find?_eq_some hfind) g hg).1
      rw [FreshGrants, List.flatMap_append, List.nodup_append', List.flatMap_cons] at hgrants
      exact fun hagain => hgrants.2.2 hdrawn (List.mem_append_right _ hagain)
  exact hdead u hu hfamily hlive

/-- The token that was rotated comes back from somebody else. -/
def sampleReuse : Op :=
  .refresh (.text "refresh-1") (.text "wvc_9") "wvg_3" "access-3" "refresh-3" 7000

/-- The pair of the rotation, refused after the reuse. -/
theorem compromised_family_dies_sample :
    ¬ Accepted samplePlatform sampleStdlib
      (Run.final (step samplePlatform sampleStdlib) .empty (sampleRun ++ sampleReuse :: []))
      (.text "access-2") 8000 := by
  have hrow : ∃ row, presentedRow samplePlatform
      (Run.final (step samplePlatform sampleStdlib) .empty sampleRun) (.text "refresh-1") = some row ∧
        row.revokedMs ≠ none ∧ row.grantId = some "wvg_1" :=
    ⟨{ refreshRow samplePlatform "wvc_1" 5000 "wvg_1" "refresh-1" with revokedMs := some 6000 },
      by decide +kernel⟩
  obtain ⟨row, hfind, hrevoked, hg⟩ := hrow
  exact compromised_family_dies samplePlatform sampleStdlib
    (fun b c h => List.append_cancel_right h) ⟨Table.unique_nil _, fun t ht => by cases ht⟩ sampleRun
    (.text "refresh-1") (.text "wvc_9") "wvg_3" "access-3" "refresh-3" 7000 [] (by decide)
    (by decide) hfind hrevoked hg sampleRun ⟨_, rfl⟩
    (accessRow samplePlatform "wvc_1" 6000 "wvg_1" "access-2") (by decide +kernel) rfl
    (.text "access-2") (by decide) 8000

end WhatsVault.OAuth
