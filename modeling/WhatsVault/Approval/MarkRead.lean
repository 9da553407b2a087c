import WhatsVault.Approval.Capabilities
import WhatsVault.Vault.Schema

/-!
# Read receipts

`mark_read` binds its target in the vault and then asks for a MARK_READ grant of the conversation.
The account of the message is matched in the vault; the account a grant was signed for is encoded into
the bytes that are verified and compared with nothing.  So a receipt is sent under a grant for the
account it is sent from exactly where the grant that happens to be found is one (`inScope_iff`).
-/

namespace WhatsVault.Sender

open Capabilities

/-- The arguments of `mark_read`. -/
structure MarkReadRequest where
  conversationId : String
  wamid : String
  accountId : String
  nowMs : ℤ
  deriving DecidableEq

inductive MarkReadOutcome
  | ok
  | denied (reason : String)
  | raised
  deriving DecidableEq, Repr

/-- `SELECT … FROM messages WHERE wamid=? AND account_id=?`. -/
def MarkReadRequest.target (a : MarkReadRequest) (v : Vault) : Option Message :=
  v.evidence.messages.find? fun m => m.wamid = some a.wamid ∧ m.accountId = a.accountId

/-- What `verify_and_consume` is asked for. -/
def MarkReadRequest.grant (a : MarkReadRequest) : Request := ⟨"MARK_READ", a.conversationId, a.nowMs⟩

/-- `mark_read`: its outcome, the database after it, and the wamids the provider was called with. -/
def markRead (P : Platform) (v : Vault) (a : MarkReadRequest) (s : Store) :
    MarkReadOutcome × Store × List String :=
  match a.target v with
  | none => (.denied "UNKNOWN_TARGET", s, [])
  | some m =>
    if m.conversationId ≠ a.conversationId then (.denied "TARGET_CONVERSATION_MISMATCH", s, [])
    else if m.direction ≠ .inbound then (.denied "NOT_INBOUND", s, [])
    else
      match verifyAndConsume P a.grant s with
      | (.returned true, s) => (.ok, s, [a.wamid])
      | (.returned false, s) => (.denied "AUTHORIZATION_MISSING", s, [])
      | (.raised, s) => (.raised, s, [])

variable {P : Platform} {v : Vault} {a : MarkReadRequest} {s : Store} {g : CapabilityGrant}

/-- The request names an inbound message of its account and its conversation. -/
def Targets (v : Vault) (a : MarkReadRequest) : Prop :=
  ∃ m, a.target v = some m ∧ m.conversationId = a.conversationId ∧ m.direction = .inbound

/-- The grant that the call would charge. -/
def usableGrant (P : Platform) (a : MarkReadRequest) (s : Store) : Option CapabilityGrant :=
  chosen P a.grant s.control (s.grants.filter a.grant.selects)

/-- The signature on a grant verifies over its stored fields under the key its device has. -/
def Signed (P : Platform) (c : Control) (g : CapabilityGrant) : Prop :=
  ∃ key payload signature, Devices.activeSigningKey c g.deviceId = some key ∧
    encodeGrant g.fields = some payload ∧ g.signature = some signature ∧
    verify P payload signature key = true

/-- A read receipt stays in its signed scope. -/
structure InScope (P : Platform) (v : Vault) (a : MarkReadRequest) (s : Store) : Prop where
  once : (markRead P v a s).2.2.length ≤ 1
  target : ∀ w ∈ (markRead P v a s).2.2, w = a.wamid ∧ ∃ m ∈ v.evidence.messages,
    m.wamid = some w ∧ m.accountId = a.accountId ∧ m.conversationId = a.conversationId ∧
      m.direction = .inbound
  consumed : ∀ w ∈ (markRead P v a s).2.2, ∃ before g after,
    s.grants = before ++ g :: after ∧
      (markRead P v a s).2.1.grants = before ++ g.charged :: after ∧ Signed P s.control g ∧
        g.accountId = some a.accountId ∧ g.conversationId = some a.conversationId ∧
          g.action = "MARK_READ"
  denied : ∀ reason, (markRead P v a s).1 = .denied reason →
    (markRead P v a s).2.1.grants = s.grants

/-- What a grant that is used satisfies. -/
lemma signed_of_judge {r : Request} {c : Control} (hselects : r.selects g = true)
    (h : judge P r (Devices.activeSigningKey c g.deviceId) g = .use) : Signed P c g := by
  obtain ⟨key, payload, signature, hkey, hpayload, hsignature, hverified, -⟩ :=
    judge_eq_use hselects h
  exact ⟨key, payload, signature, hkey, hpayload, hsignature, hverified⟩

/-- What the grant a call would charge is. -/
lemma usableGrant_eq_some (h : usableGrant P a s = some g) :
    g ∈ s.grants ∧ g.capabilityId ≠ none ∧ Signed P s.control g ∧
      g.conversationId = some a.conversationId ∧ g.action = "MARK_READ" := by
  obtain ⟨hmem, hid, huse⟩ := mem_of_chosen h
  obtain ⟨hmem, hselects⟩ := List.mem_filter.mp hmem
  refine ⟨hmem, hid, signed_of_judge hselects huse, ?_⟩
  simp only [Request.selects, decide_eq_true_eq] at hselects
  exact ⟨hselects.2.1, hselects.1⟩

/-- A row that is charged is the one that was read. -/
lemma charge_usableGrant (hkeyed : Keyed s.grants) (h : usableGrant P a s = some g) :
    ∃ before after, s.grants = before ++ g :: after ∧
      (charge g s).grants = before ++ g.charged :: after := by
  obtain ⟨hmem, hid, -⟩ := usableGrant_eq_some h
  obtain ⟨before, row, after, hrows, htarget, hcharged, -⟩ | ⟨hmiss, -⟩ := charge_cases hkeyed g
  · have hmem' : row ∈ s.grants := hrows ▸ List.mem_append_right _ List.mem_cons_self
    have hrow : row = g :=
      hkeyed.eq_of_capabilityId hmem' hmem hid (isTarget_iff.mp htarget).2.1
    rw [hcharged]
    exact ⟨before, after, hrow ▸ hrows, by rw [hrow]⟩
  · have htarget : isTarget g g = true := isTarget_iff.mpr ⟨hid, rfl, rfl⟩
    rw [hmiss g hmem] at htarget
    cases htarget

/-- What a call does: it is denied or raises and changes nothing, or it charges a grant and sends. -/
lemma markRead_cases (hkeyed : Keyed s.grants) :
    ((∀ g, Targets v a → usableGrant P a s ≠ some g) ∧
      (markRead P v a s).2 = (s, [])) ∨
    ∃ g, Targets v a ∧ usableGrant P a s = some g ∧
      markRead P v a s = (.ok, charge g s, [a.wamid]) := by
  unfold markRead
  split
  · rename_i hnone
    left
    refine ⟨fun g htargets => ?_, rfl⟩
    obtain ⟨m, hm, -⟩ := htargets
    rw [hnone] at hm
    cases hm
  rename_i m hm
  have hsame {m'} (hm' : a.target v = some m') : m' = m := Option.some.inj (hm'.symm.trans hm)
  split
  · rename_i hconversation
    left
    refine ⟨fun g htargets => ?_, rfl⟩
    obtain ⟨m', hm', hok, -⟩ := htargets
    exact absurd (hsame hm' ▸ hok) hconversation
  split
  · rename_i hdirection
    left
    refine ⟨fun g htargets => ?_, rfl⟩
    obtain ⟨m', hm', -, hok⟩ := htargets
    exact absurd (hsame hm' ▸ hok) hdirection
  rename_i hconversation hdirection
  have htargets : Targets v a := ⟨m, hm, not_not.mp hconversation, not_not.mp hdirection⟩
  have hread : ∀ g ∈ s.grants.filter a.grant.selects, g ∈ s.grants :=
    fun g hg => List.mem_of_mem_filter hg
  obtain ⟨g, hchosen, hconsumed⟩ | ⟨hnone, answer, hanswer, hconsumed⟩ :=
    consume_eq (P := P) (r := a.grant) hkeyed hread
  · right
    refine ⟨g, htargets, hchosen, ?_⟩
    rw [verifyAndConsume, hconsumed]
  · left
    refine ⟨fun g _ hchosen => ?_, ?_⟩
    · rw [usableGrant, hnone] at hchosen
      cases hchosen
    · rw [verifyAndConsume, hconsumed]
      rcases answer with consumed | _
      · cases consumed
        · rfl
        · exact absurd rfl hanswer
      · rfl

/-- A list that changes in one place changes in no other. -/
lemma changed_eq {α : Type} {x y x' y' : α} (hne : x ≠ y) (hne' : x' ≠ y')
    {before before' after after' : List α} (h : before ++ x :: after = before' ++ x' :: after')
    (h' : before ++ y :: after = before' ++ y' :: after') : x = x' := by
  induction before generalizing before' with
  | nil =>
    cases before' with
    | nil => exact (List.cons.inj h).1
    | cons => exact absurd ((List.cons.inj h).1.trans (List.cons.inj h').1.symm) hne
  | cons _ _ ih =>
    cases before' with
    | nil => exact absurd ((List.cons.inj h).1.symm.trans (List.cons.inj h').1) hne'
    | cons => exact ih (List.cons.inj h).2 (List.cons.inj h').2

lemma ne_charged (g : CapabilityGrant) : g ≠ g.charged := by
  intro h
  have hcount : g.usedCount = g.usedCount + 1 := congrArg CapabilityGrant.usedCount h
  omega

/-- **The scope of a read receipt.**  A call of `mark_read` stays inside the signed scope exactly where
it names no inbound message of its account and conversation, or the grant it charges was signed for that
account. -/
theorem inScope_iff (P : Platform) (v : Vault) (a : MarkReadRequest) (s : Store)
    (hkeyed : Keyed s.grants) :
    InScope P v a s ↔
      (Targets v a → ∀ g, usableGrant P a s = some g → g.accountId = some a.accountId) := by
  obtain ⟨hnone, hcall⟩ | ⟨g, htargets, husable, hcall⟩ :=
    markRead_cases (P := P) (v := v) (a := a) hkeyed
  · constructor
    · intro _ htargets g husable
      exact absurd husable (hnone g htargets)
    · intro _
      refine ⟨?_, ?_, ?_, ?_⟩
      · simp [hcall]
      · simp [hcall]
      · simp [hcall]
      · intro reason _
        rw [hcall]
  · obtain ⟨before, after, hrows, hcharged⟩ := charge_usableGrant hkeyed husable
    obtain ⟨-, -, hsigned, hconversation, haction⟩ := usableGrant_eq_some husable
    constructor
    · intro hscope _ g' husable'
      obtain rfl := Option.some.inj (husable.symm.trans husable')
      obtain ⟨before', g', after', hrows', hcharged', -, haccount, -⟩ :=
        hscope.consumed a.wamid (by rw [hcall]; exact List.mem_cons_self)
      rw [hcall] at hcharged'
      have hsame : g = g' := changed_eq (ne_charged g) (ne_charged g') (hrows.symm.trans hrows')
        (hcharged.symm.trans hcharged')
      rw [hsame]
      exact haccount
    · intro haccount
      have haccount := haccount htargets g husable
      obtain ⟨m, hm, hinconversation, hinbound⟩ := htargets
      have hcolumns : m.wamid = some a.wamid ∧ m.accountId = a.accountId := by
        simpa using List.find?_some hm
      refine ⟨?_, ?_, ?_, ?_⟩
      · simp [hcall]
      · intro w hw
        rw [hcall, List.mem_singleton] at hw
        subst hw
        exact ⟨rfl, m, List.mem_of_find?_eq_some hm, hcolumns.1, hcolumns.2, hinconversation, hinbound⟩
      · intro w _
        rw [hcall]
        exact ⟨before, g, after, hrows, hcharged, hsigned, haccount, hconversation, haction⟩
      · intro reason hdenied
        rw [hcall] at hdenied
        cases hdenied

section Sample

def inboundMessage : Message where
  id := "msg_1"
  accountId := "acc_1"
  conversationId := "cnv_1"
  senderContactId := none
  direction := .inbound
  tsLowerMs := 1
  tsUpperMsExclusive := 2
  tsPrecision := .ms
  tzName := none
  type := "text"
  textOriginal := some "hi"
  replyToWamid := none
  origin := .cloudApi
  windowEligible := false
  wamid := some "wamid.1"
  importFingerprint := none
  deliveryRank := 0
  interval := by decide

def receivedVault : Vault :=
  { Vault.empty with evidence := { Vault.empty.evidence with messages := [inboundMessage] } }

def sampleRequest : MarkReadRequest := ⟨"cnv_1", "wamid.1", "acc_1", 2000⟩

/-- The rule on a grant for the account. -/
theorem inScope_iff_own_account :
    (markRead (grantPlatform "acc_1") receivedVault sampleRequest (grantStore "acc_1")).2.2 =
      ["wamid.1"] ∧
    InScope (grantPlatform "acc_1") receivedVault sampleRequest (grantStore "acc_1") := by
  refine ⟨by decide, (inScope_iff _ _ _ _ (by unfold Keyed; decide)).mpr ?_⟩
  intro _ g husable
  have hmem := (usableGrant_eq_some husable).1
  rw [grantStore, List.mem_singleton] at hmem
  rw [hmem]
  rfl

/-- The phone signed a grant for another account, and it is used. -/
theorem grant_of_another_account :
    (markRead (grantPlatform "acc_2") receivedVault sampleRequest (grantStore "acc_2")).2.2 =
      ["wamid.1"] ∧
    ((markRead (grantPlatform "acc_2") receivedVault sampleRequest (grantStore "acc_2")).2.1.grants.map
      fun g => (g.accountId, g.usedCount)) = [(some "acc_2", 1)] ∧
    ¬ InScope (grantPlatform "acc_2") receivedVault sampleRequest (grantStore "acc_2") := by
  have hsent : (markRead (grantPlatform "acc_2") receivedVault sampleRequest
      (grantStore "acc_2")).2.2 = ["wamid.1"] := by decide
  refine ⟨hsent, by decide, fun hscope => ?_⟩
  obtain ⟨before, g, after, hrows, -, -, haccount, -⟩ :=
    hscope.consumed "wamid.1" (by rw [hsent]; exact List.mem_cons_self)
  have hmem : g ∈ (grantStore "acc_2").grants := hrows ▸ by simp
  rw [grantStore, List.mem_singleton] at hmem
  rw [hmem] at haccount
  exact absurd haccount (by decide)

end Sample

end WhatsVault.Sender
