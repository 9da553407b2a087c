import WhatsVault.Mcp.GrantStatements

/-!
# Grants on the record

Who was given access, and when, is read off the audit log.  After any run of the authorization server, its
processes killed wherever, the log accounts for the tables (`accounted_of_run`): it says of each token when
it was issued and what revoked it, of each request when it was approved, and nothing that no operation did.

There is one gap.  A refresh token that is used twice ends its family, and the row that says so is committed
after the revocation; a process killed in between leaves revoked tokens without it.
-/

namespace WhatsVault.GrantAudit

open OAuth Checks Transaction Program Durable
open Mcp.Audit (AuditRow Interpreter)

variable {P : Platform} {S : Stdlib} {I : Interpreter} {auditKey : Bytes}

/-! ## The account -/

section Account

variable (I : Interpreter) (auditKey : Bytes)

/-- The row says that tokens of the grant were revoked: with all others, as a family whose token was used
twice, or when a new pair took their place. -/
inductive Ends (grantId : Option String) (now : ℤ) : AuditRow → Prop
  | all {id : String} {n : ℕ} :
      Ends grantId now (auditRow I auditKey id "oauth.revoke_all" "ok" (revokeAllArgs n) now)
  | reuse {id : String} {n : ℕ} : Ends grantId now (auditRow I auditKey id "oauth.refresh_reuse_detected"
      "revoked" (reuseArgs grantId n) now)
  | rotated {id clientId g : String} : grantId = some g →
      Ends grantId now (issuedRow I auditKey id clientId g now)

/-- A refresh at that time was killed. -/
def Act.Interrupted (a : Act) (now : ℤ) : Prop :=
  a.killed ≠ none ∧ ∃ refreshToken clientId freshGrant access newRefresh,
    a.op = .refresh refreshToken clientId freshGrant access newRefresh now

/-- The log says when a token was issued and when it was revoked. -/
structure TokenAccounted (acts : List Act) (log : List AuditRow) (t : Token) : Prop where
  issued : ∃ id grantId, t.grantId = some grantId ∧
    issuedRow I auditKey id t.clientId grantId t.issuedMs ∈ log
  revoked : ∀ now, t.revokedMs = some now → (∃ row ∈ log, Ends I auditKey t.grantId now row) ∨
    ∃ a ∈ acts, a.Interrupted now

/-- The log says when a request was approved. -/
def RequestAccounted (log : List AuditRow) (p : Pending) : Prop :=
  ∀ now, p.approvedMs = some now → ∃ id,
    auditRow I auditKey id "oauth.approve" "ok" (approveArgs p.requestId p.clientId) now ∈ log

/-- The log accounts for the tables, and has at most one row for an act, in the order of the acts. -/
structure Accounted (acts : List Act) (st : Store) : Prop where
  tokens : ∀ t ∈ st.tables.tokens, TokenAccounted I auditKey acts st.log t
  requests : ∀ p ∈ st.tables.pending, RequestAccounted I auditKey st.log p
  rows : (st.log.map AuditRow.id).Sublist (acts.map Act.id)

end Account

section Growth

variable {acts acts' : List Act} {log log' : List AuditRow}

lemma TokenAccounted.mono {t : Token} (h : TokenAccounted I auditKey acts log t) (hacts : acts ⊆ acts')
    (hlog : log ⊆ log') : TokenAccounted I auditKey acts' log' t := by
  obtain ⟨⟨id, grantId, hgrant, hrow⟩, hrevoked⟩ := h
  refine ⟨⟨id, grantId, hgrant, hlog hrow⟩, fun now hnow => ?_⟩
  obtain ⟨row, hrow, hends⟩ | ⟨a, ha, hinterrupted⟩ := hrevoked now hnow
  · exact .inl ⟨row, hlog hrow, hends⟩
  · exact .inr ⟨a, hacts ha, hinterrupted⟩

lemma RequestAccounted.mono {p : Pending} (h : RequestAccounted I auditKey log p) (hlog : log ⊆ log') :
    RequestAccounted I auditKey log' p := by
  intro now hnow
  obtain ⟨id, hrow⟩ := h now hnow
  exact ⟨id, hlog hrow⟩

/-- A token that is revoked now, and the reason is on the record. -/
lemma TokenAccounted.revokeToken {t : Token} (h : TokenAccounted I auditKey acts log t) {now : ℤ}
    (hends : (∃ row ∈ log, Ends I auditKey t.grantId now row) ∨ ∃ a ∈ acts, a.Interrupted now) :
    TokenAccounted I auditKey acts log (OAuth.revokeToken now t) := by
  unfold OAuth.revokeToken
  split
  · refine ⟨h.issued, fun now' hnow' => ?_⟩
    cases hnow'
    exact hends
  · exact h

lemma tokenAccounted_pair {clientId grantId access refreshToken id : String} {now : ℤ}
    (hrow : issuedRow I auditKey id clientId grantId now ∈ log) :
    ∀ t ∈ [accessRow P clientId now grantId access, refreshRow P clientId now grantId refreshToken],
      TokenAccounted I auditKey acts log t := by
  intro t ht
  obtain rfl | rfl := List.mem_pair.mp ht
  · exact ⟨⟨id, grantId, rfl, hrow⟩, fun now' hnow' => by cases hnow'⟩
  · exact ⟨⟨id, grantId, rfl, hrow⟩, fun now' hnow' => by cases hnow'⟩

end Growth

section Acts

variable {acts : List Act} {st st' : Store} {a : Act}

lemma Accounted.extend (h : Accounted I auditKey acts st) {rows : List AuditRow}
    (hlog : st'.log = st.log ++ rows) (hids : (rows.map AuditRow.id).Sublist [a.id])
    (htokens : ∀ t ∈ st'.tables.tokens, t ∈ st.tables.tokens ∨
      TokenAccounted I auditKey (acts ++ [a]) st'.log t)
    (hrequests : ∀ p ∈ st'.tables.pending, (∃ q ∈ st.tables.pending, q.requestId = p.requestId ∧
      q.clientId = p.clientId ∧ q.approvedMs = p.approvedMs) ∨ RequestAccounted I auditKey st'.log p) :
    Accounted I auditKey (acts ++ [a]) st' := by
  have hsubset : st.log ⊆ st'.log := by
    rw [hlog]
    exact List.subset_append_left _ _
  refine ⟨fun t ht => ?_, fun p hp => ?_, ?_⟩
  · obtain hold | hnew := htokens t ht
    · exact (h.tokens t hold).mono (List.subset_append_left _ _) hsubset
    · exact hnew
  · obtain ⟨q, hq, hid, hclient, happroved⟩ | hnew := hrequests p hp
    · intro now hnow
      rw [← hid, ← hclient]
      exact (h.requests q hq).mono hsubset now (happroved.trans hnow)
    · exact hnew
  · rw [hlog, List.map_append, List.map_append]
    exact h.rows.append hids

lemma entry_ids (id : String) (s : Tables) (op : Op) :
    ((entry P S I auditKey id s op).map AuditRow.id).Sublist [id] := by
  cases op with
  | approve userCode now =>
    cases h : findApprovable S userCode now s with
    | error e => simp [entry, h]
    | ok row => simp [entry, h, auditRow]
  | exchangeCode r grantId access refreshToken now =>
    cases h : findCode P r now s with
    | error e => simp [entry, h]
    | ok row => simp [entry, h, issuedRow, auditRow]
  | refresh refreshToken clientId freshGrant access newRefresh now =>
    cases h : findToken P refreshToken s with
    | error e => simp [entry, h]
    | ok row =>
      by_cases hrevoked : row.revokedMs = none
      · cases hcheck : checkRotation clientId now row with
        | error e => simp [entry, h, hrevoked, hcheck]
        | ok _ => simp [entry, h, hrevoked, hcheck, issuedRow, auditRow]
      · simp [entry, h, hrevoked, auditRow]
  | revokeAll now => exact List.Sublist.refl _
  | registerClient name uris clientId now => exact List.nil_sublist _
  | beginAuthorization r requestId userCode now => exact List.nil_sublist _
  | poll requestId secret now => exact List.nil_sublist _
  | collectExpired now => exact List.nil_sublist _

lemma findToken_mem {refreshToken : PyStr} {s : Tables} {row : Token}
    (h : findToken P refreshToken s = .ok row) : row ∈ s.tokens := by
  simp only [findToken, bind_eq_ok, orStop_eq_ok] at h
  obtain ⟨tokenHash, -, hfind⟩ := h
  exact List.mem_of_find?_eq_some hfind

lemma findApprovable_mem {userCode : PyStr} {now : ℤ} {s : Tables} {row : Pending}
    (h : findApprovable S userCode now s = .ok row) : row ∈ s.pending := by
  simp only [findApprovable, bind_eq_ok, orStop_eq_ok, require_eq_ok, pure_eq_ok] at h
  obtain ⟨code, -, found, hfound, -, -, -, -, rfl⟩ := h
  exact (Table.mem_of_find_eq_some hfound).1

/-- The tokens after a family was revoked. -/
lemma tokenAccounted_revokeFamily {grantId : Option String} {now : ℤ} {log : List AuditRow}
    (h : ∀ t ∈ st.tables.tokens, TokenAccounted I auditKey acts log t)
    (hends : (∃ row ∈ log, Ends I auditKey grantId now row) ∨ ∃ a ∈ acts, a.Interrupted now) :
    ∀ t ∈ (revokeFamily grantId now st.tables).tokens, TokenAccounted I auditKey acts log t := by
  intro t ht
  obtain ⟨u, hu, rfl⟩ := List.mem_map.mp ht
  split
  · rename_i hfamily
    refine (h u hu).revokeToken ?_
    rw [hfamily.2]
    exact hends
  · exact h u hu

/-- The tokens after the whole of an operation. -/
lemma tokens_done (h : Accounted I auditKey acts st) (hready : Ready P I st a.op) :
    ∀ t ∈ (done P S I auditKey a.id a.op st).tables.tokens, t ∈ st.tables.tokens ∨
      TokenAccounted I auditKey (acts ++ [a]) (done P S I auditKey a.id a.op st).log t := by
  have hacts : acts ⊆ acts ++ [a] := List.subset_append_left _ _
  have hlog : st.log ⊆ (done P S I auditKey a.id a.op st).log := List.subset_append_left _ _
  have hold : ∀ t ∈ st.tables.tokens,
      TokenAccounted I auditKey (acts ++ [a]) (done P S I auditKey a.id a.op st).log t :=
    fun t ht => (h.tokens t ht).mono hacts hlog
  obtain ⟨op, id, killed⟩ := a
  cases op with
  | registerClient name uris clientId now =>
    intro t ht
    left
    simp only [done, OAuth.step] at ht
    split at ht
    · rename_i hs
      obtain ⟨client, rfl⟩ := registerClient_spec hs
      exact ht
    · exact ht
  | beginAuthorization r requestId userCode now =>
    intro t ht
    left
    simp only [done, OAuth.step, OAuth.beginAuthorization] at ht
    split at ht
    · rename_i hs
      obtain ⟨request, -, -, -, -, -, rfl⟩ := insertPending_spec hs
      exact List.mem_of_mem_filter ht
    · exact List.mem_of_mem_filter ht
  | approve userCode now =>
    intro t ht
    left
    simp only [done, OAuth.step] at ht
    split at ht
    · rename_i hs
      obtain ⟨row, -, -, -, -, rfl⟩ := approve_spec hs
      exact ht
    · exact ht
  | poll requestId secret now =>
    intro t ht
    left
    simp only [done, OAuth.step] at ht
    split at ht
    · rename_i hs
      obtain ⟨row, -, -, -, -, rfl⟩ := poll_spec hs
      exact ht
    · rename_i hs
      obtain ⟨-, rfl⟩ | ⟨row, -, code, hcode, -⟩ := poll_eq_ok hs
      · exact ht
      · cases hcode
    · exact ht
  | exchangeCode r grantId access refreshToken now =>
    intro t ht
    simp only [done, step_exchangeCode (hready.newPair rfl), exchanged] at ht ⊢
    cases hrow : findCode P r now st.tables with
    | error e =>
      rw [hrow] at ht
      exact .inl ht
    | ok row =>
      rw [hrow] at ht
      obtain ht | ht := List.mem_append.mp ht
      · exact .inl ht
      · have hissued : issuedRow I auditKey id row.clientId grantId now ∈
            entry P S I auditKey id st.tables (.exchangeCode r grantId access refreshToken now) := by
          simp [entry, hrow]
        exact .inr (tokenAccounted_pair (List.mem_append_right _ hissued) t ht)
  | refresh refreshToken clientId freshGrant access newRefresh now =>
    intro t ht
    simp only [done, step_refresh_eq (hready.newPair rfl), refreshed] at ht hold ⊢
    cases hrow : findToken P refreshToken st.tables with
    | error e =>
      rw [hrow] at ht
      exact .inl ht
    | ok row =>
      rw [hrow] at ht
      dsimp only at ht
      by_cases hrevoked : row.revokedMs = none
      · rw [if_neg (not_not.mpr hrevoked)] at ht
        cases hcheck : checkRotation clientId now row with
        | error e =>
          rw [hcheck] at ht
          exact .inl ht
        | ok _ =>
          rw [hcheck] at ht
          have hissued : issuedRow I auditKey id row.clientId (row.grantId.getD freshGrant) now ∈
              entry P S I auditKey id st.tables
                (.refresh refreshToken clientId freshGrant access newRefresh now) := by
            simp [entry, hrow, hrevoked, hcheck]
          obtain ht | ht := List.mem_append.mp ht
          · refine .inr (tokenAccounted_revokeFamily hold (.inl ⟨_, List.mem_append_right _ hissued, ?_⟩) t ht)
            have hgranted := hready.keyed.granted row (findToken_mem hrow)
            obtain ⟨grantId, hgrant⟩ := Option.ne_none_iff_exists'.mp hgranted
            rw [hgrant]
            exact .rotated rfl
          · exact .inr (tokenAccounted_pair (List.mem_append_right _ hissued) t ht)
      · rw [if_pos hrevoked] at ht
        have hreuse : auditRow I auditKey id "oauth.refresh_reuse_detected" "revoked"
            (reuseArgs row.grantId (revocable row.grantId st.tables)) now ∈
            entry P S I auditKey id st.tables
              (.refresh refreshToken clientId freshGrant access newRefresh now) := by
          simp [entry, hrow, hrevoked]
        exact .inr (tokenAccounted_revokeFamily hold
          (.inl ⟨_, List.mem_append_right _ hreuse, .reuse⟩) t ht)
  | collectExpired now => exact fun t ht => .inl (List.mem_of_mem_filter ht)
  | revokeAll now =>
    intro t ht
    obtain ⟨u, hu, rfl⟩ := List.mem_map.mp ht
    have hrow : auditRow I auditKey id "oauth.revoke_all" "ok"
        (revokeAllArgs (st.tables.tokens.filter fun t => t.revokedMs = none).length) now ∈
        (done P S I auditKey id (.revokeAll now) st).log :=
      List.mem_append_right _ (List.mem_singleton_self _)
    exact .inr ((hold u hu).revokeToken (.inl ⟨_, hrow, .all⟩))

/-- The requests after the whole of an operation. -/
lemma requests_done (hready : Ready P I st a.op) :
    ∀ p ∈ (done P S I auditKey a.id a.op st).tables.pending,
      (∃ q ∈ st.tables.pending, q.requestId = p.requestId ∧ q.clientId = p.clientId ∧
        q.approvedMs = p.approvedMs) ∨
      RequestAccounted I auditKey (done P S I auditKey a.id a.op st).log p := by
  have hsame {p : Pending} (hp : p ∈ st.tables.pending) : ∃ q ∈ st.tables.pending,
      q.requestId = p.requestId ∧ q.clientId = p.clientId ∧ q.approvedMs = p.approvedMs :=
    ⟨p, hp, rfl, rfl, rfl⟩
  obtain ⟨op, id, killed⟩ := a
  cases op with
  | registerClient name uris clientId now =>
    intro p hp
    left
    simp only [done, OAuth.step] at hp
    split at hp
    · rename_i hs
      obtain ⟨client, rfl⟩ := registerClient_spec hs
      exact hsame hp
    · exact hsame hp
  | beginAuthorization r requestId userCode now =>
    intro p hp
    simp only [done, OAuth.step, OAuth.beginAuthorization] at hp
    split at hp
    · rename_i hs
      obtain ⟨request, -, happroved, -, -, -, rfl⟩ := insertPending_spec hs
      obtain hp | hp := List.mem_append.mp hp
      · exact .inl (hsame (List.mem_of_mem_filter hp))
      · rw [List.mem_singleton.mp hp]
        refine .inr fun now hnow => ?_
        rw [happroved] at hnow
        cases hnow
    · exact .inl (hsame (List.mem_of_mem_filter hp))
  | approve userCode now =>
    intro p hp
    simp only [done, OAuth.step, approve_eq] at hp ⊢
    cases hrow : findApprovable S userCode now st.tables with
    | error e =>
      rw [hrow] at hp
      exact .inl (hsame hp)
    | ok row =>
      rw [hrow] at hp
      obtain hp | ⟨q, hq, hid, rfl⟩ := mem_setPending hp
      · exact .inl (hsame hp)
      · obtain rfl := hready.unique.eq_of_key_eq hq (findApprovable_mem hrow) hid
        refine .inr fun now' hnow' => ⟨id, ?_⟩
        cases hnow'
        simp [entry, hrow]
  | poll requestId secret now =>
    intro p hp
    left
    simp only [done, OAuth.step] at hp
    split at hp
    · rename_i hs
      obtain ⟨row, -, -, -, -, rfl⟩ := poll_spec hs
      obtain hp | ⟨q, hq, hid, rfl⟩ := mem_setPending hp
      · exact hsame hp
      · exact ⟨q, hq, rfl, rfl, rfl⟩
    · rename_i hs
      obtain ⟨-, rfl⟩ | ⟨row, -, code, hcode, -⟩ := poll_eq_ok hs
      · exact hsame hp
      · cases hcode
    · exact hsame hp
  | exchangeCode r grantId access refreshToken now =>
    intro p hp
    simp only [done, step_exchangeCode (hready.newPair rfl), exchanged] at hp
    cases hrow : findCode P r now st.tables with
    | error e =>
      rw [hrow] at hp
      exact .inl (hsame hp)
    | ok row =>
      rw [hrow] at hp
      exact .inl (hsame hp)
  | refresh refreshToken clientId freshGrant access newRefresh now =>
    intro p hp
    simp only [done, step_refresh_eq (hready.newPair rfl), refreshed] at hp
    cases hrow : findToken P refreshToken st.tables with
    | error e =>
      rw [hrow] at hp
      exact .inl (hsame hp)
    | ok row =>
      rw [hrow] at hp
      dsimp only at hp
      split at hp
      · exact .inl (hsame hp)
      · cases hcheck : checkRotation clientId now row with
        | error e =>
          rw [hcheck] at hp
          exact .inl (hsame hp)
        | ok _ =>
          rw [hcheck] at hp
          exact .inl (hsame hp)
  | collectExpired now => exact fun p hp => .inl (hsame (List.mem_of_mem_filter hp))
  | revokeAll now => exact fun p hp => .inl (hsame hp)

lemma accounted_done (h : Accounted I auditKey acts st) (hready : Ready P I st a.op) :
    Accounted I auditKey (acts ++ [a]) (done P S I auditKey a.id a.op st) := by
  exact h.extend rfl (entry_ids a.id st.tables a.op) (tokens_done h hready) (requests_done hready)

/-- An act that left no row. -/
lemma Accounted.keep (h : Accounted I auditKey acts st) (hlog : st'.log = st.log)
    (htokens : ∀ t ∈ st'.tables.tokens, t ∈ st.tables.tokens ∨
      TokenAccounted I auditKey (acts ++ [a]) st'.log t)
    (hrequests : ∀ p ∈ st'.tables.pending, p ∈ st.tables.pending) :
    Accounted I auditKey (acts ++ [a]) st' := by
  have hnone : st'.log = st.log ++ [] := by rw [hlog, List.append_nil]
  exact h.extend hnone (List.nil_sublist _) htokens fun p hp => .inl ⟨p, hrequests p hp, rfl, rfl, rfl⟩

lemma accounted_of_moves (h : Accounted I auditKey acts st) (hready : Ready P I st a.op)
    (hmoves : Moves P S I auditKey st a st') :
    Accounted I auditKey (acts ++ [a]) st' ∧ st.log <+: st'.log := by
  obtain rfl | ⟨hkilled, hcut⟩ := hmoves
  · exact ⟨accounted_done h hready, List.prefix_append _ _⟩
  obtain ⟨op, id, killed⟩ := a
  cases hcut with
  | nothing => exact ⟨h.keep rfl (fun t ht => .inl ht) (fun p hp => hp), List.prefix_rfl⟩
  | collected =>
    exact ⟨h.keep rfl (fun t ht => .inl (List.mem_of_mem_filter ht))
      (fun p hp => List.mem_of_mem_filter hp), List.prefix_rfl⟩
  | unrecorded hrow hrevoked =>
    refine ⟨h.keep rfl (fun t ht => .inr ?_) (fun p hp => hp), List.prefix_rfl⟩
    refine tokenAccounted_revokeFamily (fun u hu => ?_) (.inr ⟨_, ?_, hkilled, _, _, _, _, _, rfl⟩) t ht
    · exact (h.tokens u hu).mono (List.subset_append_left _ _) (List.Subset.refl _)
    · exact List.mem_append_right _ (List.mem_singleton_self _)

lemma row_of_moves (hmoves : Moves P S I auditKey st a st') {row : AuditRow} (hrow : row ∈ st'.log) :
    row ∈ st.log ∨ row ∈ entry P S I auditKey a.id st.tables a.op := by
  obtain rfl | ⟨-, hcut⟩ := hmoves
  · exact List.mem_append.mp hrow
  obtain ⟨op, id, killed⟩ := a
  cases hcut with
  | nothing => exact .inl hrow
  | collected => exact .inl hrow
  | unrecorded hfound hrevoked => exact .inl hrow

/-- The tables move as the operations of the authorization server do. -/
lemma tables_of_moves (hready : Ready P I st a.op) (hmoves : Moves P S I auditKey st a st') :
    st'.tables = st.tables ∨ ∃ op, (op = a.op ∨ ∃ now, op = .collectExpired now) ∧
      st'.tables = (OAuth.step P S st.tables op).1 := by
  obtain rfl | ⟨-, hcut⟩ := hmoves
  · exact .inr ⟨a.op, .inl rfl, rfl⟩
  obtain ⟨op, id, killed⟩ := a
  cases hcut with
  | nothing => exact .inl rfl
  | @collected r requestId userCode now => exact .inr ⟨.collectExpired now, .inr ⟨now, rfl⟩, rfl⟩
  | unrecorded hrow hrevoked =>
    refine .inr ⟨_, .inl rfl, ?_⟩
    simp only [step_refresh_eq (hready.newPair rfl), refreshed, hrow]
    rw [if_pos hrevoked]

/-- An operation adds the pair it draws or no token. -/
lemma tokens_step (S : Stdlib) (s : Tables) (op : Op) :
    (∀ t ∈ (OAuth.step P S s op).1.tokens, t.tokenHash ∈ s.tokens.map Token.tokenHash ++ minted P op) ∧
      (OAuth.step P S s op).1.tokens.length ≤ s.tokens.length + 2 := by
  obtain ⟨keep, f, hf, htokens⟩ | ⟨f, clientId, grantId, access, refreshToken, now, s₁, pair, hf, htokens,
    hissue, -, hop⟩ := step_tokens P S s op
  · rw [htokens]
    refine ⟨fun t ht => ?_, ?_⟩
    · obtain ⟨u, hu, rfl⟩ := List.mem_map.mp ht
      rw [hf.tokenHash]
      exact List.mem_append_left _ (List.mem_map_of_mem (List.mem_of_mem_filter hu))
    · have hlength := List.length_filter_le keep s.tokens
      rw [List.length_map]
      omega
  · obtain ⟨-, hs'⟩ := issue_spec hissue
    have hminted : minted P op = [P.hexdigest (utf8 access), P.hexdigest (utf8 refreshToken)] := by
      obtain ⟨r, rfl⟩ | ⟨token, client, freshGrant, rfl, -⟩ := hop
      · rfl
      · rfl
    rw [hs', hminted, htokens]
    refine ⟨fun t ht => ?_, by simp⟩
    obtain ht | ht := List.mem_append.mp ht
    · obtain ⟨u, hu, rfl⟩ := List.mem_map.mp ht
      rw [hf.tokenHash]
      exact List.mem_append_left _ (List.mem_map_of_mem hu)
    · refine List.mem_append_right _ ?_
      obtain rfl | rfl := List.mem_pair.mp ht
      · exact List.mem_cons_self
      · exact List.mem_cons_of_mem _ List.mem_cons_self

end Acts

/-! ## Runs -/

/-- No two tokens drawn in a run have one hash. -/
def Fresh (P : Platform) (acts : List Act) : Prop := (acts.flatMap fun a => minted P a.op).Nodup

instance (P : Platform) (acts : List Act) : Decidable (Fresh P acts) :=
  inferInstanceAs (Decidable (List.Nodup _))

/-- An act of the run left the row: it is what the operation leaves, in the store the act found. -/
def Left (P : Platform) (S : Stdlib) (I : Interpreter) (auditKey : Bytes) (acts : List Act)
    (row : AuditRow) : Prop :=
  ∃ before a after st, acts = before ++ a :: after ∧
    Run.final (step P S I auditKey) (.clean .empty) before = .clean st ∧
    row ∈ entry P S I auditKey a.id st.tables a.op

lemma Left.mono {acts : List Act} {row : AuditRow} (h : Left P S I auditKey acts row) (a : Act) :
    Left P S I auditKey (acts ++ [a]) row := by
  obtain ⟨before, a', after, st, rfl, hfinal, hrow⟩ := h
  exact ⟨before, a', after ++ [a], st, by simp, hfinal, hrow⟩

/-- What holds of the store after every run. -/
structure Steady (P : Platform) (S : Stdlib) (I : Interpreter) (auditKey : Bytes) (acts : List Act)
    (st : Store) : Prop where
  final : Run.final (step P S I auditKey) (.clean .empty) acts = .clean st
  run : ∃ ops, st.tables = Run.final (OAuth.step P S) .empty ops
  drawn : ∀ t ∈ st.tables.tokens, t.tokenHash ∈ acts.flatMap fun a => minted P a.op
  size : st.tables.tokens.length ≤ 2 * acts.length
  account : Accounted I auditKey acts st
  sound : ∀ row ∈ st.log, Left P S I auditKey acts row

lemma Steady.ready {acts : List Act} {st : Store} (h : Steady P S I auditKey acts st) {a : Act}
    (hfresh : Fresh P (acts ++ [a])) (hsize : 2 * (acts.length + 1) < 10 ^ I.maxStrDigits) :
    Ready P I st a.op := by
  obtain ⟨ops, hrun⟩ := h.run
  rw [Fresh, List.flatMap_append, List.flatMap_singleton, List.nodup_append'] at hfresh
  obtain ⟨-, hdistinct, hdisjoint⟩ := hfresh
  refine ⟨?_, ?_, hdistinct, fun t ht hminted => hdisjoint (h.drawn t ht) hminted, ?_⟩
  · rw [hrun]
    exact Concurrent.keyed_run P S ops
  · have hempty : Table.Unique Pending.requestId Tables.empty.pending := List.nodup_nil
    rw [hrun]
    exact Run.invariant (I := fun s : Tables => Table.Unique Pending.requestId s.pending)
      (fun s op hs => unique_step op hs) hempty ops
  · have := h.size
    omega

lemma steady_empty : Steady P S I auditKey [] .empty := by
  refine ⟨rfl, ⟨[], rfl⟩, fun t ht => ?_, Nat.le_refl 0, ⟨fun t ht => ?_, fun p hp => ?_,
    List.nil_sublist _⟩, fun row hrow => ?_⟩
  · cases ht
  · cases ht
  · cases hp
  · cases hrow

lemma Steady.step {acts : List Act} {st : Store} (h : Steady P S I auditKey acts st) {a : Act}
    (hready : Ready P I st a.op) :
    ∃ st', Steady P S I auditKey (acts ++ [a]) st' ∧ st.log <+: st'.log := by
  obtain ⟨st', hstep, hmoves⟩ := moves_of_step S auditKey hready
  obtain ⟨haccount, hlog⟩ := accounted_of_moves h.account hready hmoves
  refine ⟨st', ⟨?_, ?_, ?_, ?_, haccount, ?_⟩, hlog⟩
  · rw [Run.final_concat, h.final, hstep]
  · obtain ⟨ops, hrun⟩ := h.run
    obtain hsame | ⟨op, -, hop⟩ := tables_of_moves hready hmoves
    · exact ⟨ops, hsame.trans hrun⟩
    · exact ⟨ops ++ [op], by rw [hop, hrun, Run.final_concat]⟩
  · have hsubset {op : Op} (hop : op = a.op ∨ ∃ now, op = .collectExpired now) {x : String}
        (hx : x ∈ minted P op) : x ∈ minted P a.op := by
      obtain rfl | ⟨now, rfl⟩ := hop
      · exact hx
      · cases hx
    intro t ht
    rw [List.flatMap_append, List.flatMap_singleton]
    obtain hsame | ⟨op, hop, htables⟩ := tables_of_moves hready hmoves
    · rw [hsame] at ht
      exact List.mem_append_left _ (h.drawn t ht)
    · rw [htables] at ht
      obtain hold | hnew := List.mem_append.mp ((tokens_step S st.tables op).1 t ht)
      · obtain ⟨u, hu, hhash⟩ := List.mem_map.mp hold
        rw [← hhash]
        exact List.mem_append_left _ (h.drawn u hu)
      · exact List.mem_append_right _ (hsubset hop hnew)
  · have hsize := h.size
    rw [List.length_append, List.length_singleton]
    obtain hsame | ⟨op, -, htables⟩ := tables_of_moves hready hmoves
    · rw [hsame]
      omega
    · have hgrown := (tokens_step (P := P) S st.tables op).2
      rw [htables]
      omega
  · intro row hrow
    obtain hold | hnew := row_of_moves hmoves hrow
    · exact (h.sound row hold).mono a
    · exact ⟨acts, a, [], st, rfl, h.final, hnew⟩

lemma Fresh.of_append {before after : List Act} (h : Fresh P (before ++ after)) : Fresh P before := by
  unfold Fresh at h
  rw [List.flatMap_append] at h
  exact h.of_append_left

lemma steady_run (S : Stdlib) (auditKey : Bytes) (acts : List Act) (hfresh : Fresh P acts)
    (hsize : 2 * acts.length < 10 ^ I.maxStrDigits) : ∃ st, Steady P S I auditKey acts st := by
  induction acts using List.reverseRecOn with
  | nil => exact ⟨.empty, steady_empty⟩
  | append_singleton acts a ih =>
    rw [List.length_append, List.length_singleton] at hsize
    obtain ⟨st, hsteady⟩ := ih hfresh.of_append (by omega)
    obtain ⟨st', hsteady', -⟩ := hsteady.step (hsteady.ready hfresh hsize)
    exact ⟨st', hsteady'⟩

/-- Rows stay in the log. -/
lemma log_grows (S : Stdlib) (auditKey : Bytes) (before after : List Act)
    (hfresh : Fresh P (before ++ after)) (hsize : 2 * (before ++ after).length < 10 ^ I.maxStrDigits) :
    (Run.final (step P S I auditKey) (.clean .empty) before).durable.log <+:
      (Run.final (step P S I auditKey) (.clean .empty) (before ++ after)).durable.log := by
  induction after using List.reverseRecOn with
  | nil => rw [List.append_nil]
  | append_singleton after a ih =>
    rw [← List.append_assoc] at hfresh hsize ⊢
    rw [List.length_append, List.length_singleton] at hsize
    obtain ⟨st, hsteady⟩ := steady_run (I := I) S auditKey _ hfresh.of_append (by omega)
    obtain ⟨st', hsteady', hlog⟩ := hsteady.step (hsteady.ready hfresh hsize)
    have hgrown := ih hfresh.of_append (by omega)
    rw [hsteady.final] at hgrown
    rw [hsteady'.final]
    exact hgrown.trans hlog

section Sample

def sampleGrants : List Act :=
  sampleBegin.map (fun op => ⟨op, "", none⟩) ++
    [⟨sampleApprove, "aud_1", none⟩] ++
    sampleRedeem.map (fun op => ⟨op, "aud_2", none⟩)

/-- A refresh, its token used again in a process that is killed between its commits, and the off switch. -/
def sampleReuse : List Act :=
  [⟨.refresh (.text "refresh-1") (.text "wvc_1") "wvg_2" "access-2" "refresh-2" 6000, "aud_3", none⟩,
    ⟨.refresh (.text "refresh-1") (.text "wvc_1") "wvg_3" "access-3" "refresh-3" 7000, "aud_4", some 2⟩,
    ⟨.revokeAll 8000, "aud_5", none⟩]

example : ((Run.final (step samplePlatform sampleStdlib Mcp.Audit.interpreterExample []) (.clean .empty)
    (sampleGrants ++ sampleReuse)).durable.log.map fun row => (row.id, row.tool)) =
    [("aud_1", "oauth.approve"), ("aud_2", "oauth.token_issued"), ("aud_3", "oauth.token_issued"),
      ("aud_5", "oauth.revoke_all")] := by
  decide +kernel

end Sample

end WhatsVault.GrantAudit
