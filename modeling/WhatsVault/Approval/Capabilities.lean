import WhatsVault.Approval.Operations
import WhatsVault.Approval.SignedMessages

/-!
# Capability grants

A grant is a row that the phone has signed: `store_grant` verifies it and stores it with a count of
zero, and `verify_and_consume` looks for one that covers an action in a conversation, verifies it again
under the device's current key and adds one to its count.  The UPDATE that does so compares the count
with the one that was read, so that it changes one row or none (`charge_cases`).

Uninterrupted, a call consumes the first grant that passes its checks (`consume_eq`).
-/

namespace WhatsVault.Capabilities

open Checks

inductive GrantStatus
  | active
  | revoked
  deriving DecidableEq, Repr

/-- A row of `capability_grants`. -/
structure CapabilityGrant where
  capabilityId : Option String
  deviceId : String
  accountId : Option String
  conversationId : Option String
  action : String
  createdAtMs : Option ℤ
  expiresAtMs : Option ℤ
  maxActions : Option ℤ
  usedCount : ℕ
  nonce : Option Nonce
  signature : Option Bytes
  status : GrantStatus
  deriving DecidableEq

/-- The control database with the table of grants. -/
structure Store where
  control : Control
  grants : List CapabilityGrant
  deriving DecidableEq

/-- The stored fields, as the dictionary that is signed. -/
def CapabilityGrant.fields (g : CapabilityGrant) : Fields where
  capabilityId := g.capabilityId
  deviceId := some g.deviceId
  accountId := g.accountId
  conversationId := g.conversationId
  action := some g.action
  createdAtMs := g.createdAtMs
  expiresAtMs := g.expiresAtMs
  maxActions := g.maxActions
  nonce := g.nonce.map Subtype.val

/-! ## Storing -/

/-- Why `store_grant` stored nothing: `GrantRejected`, or another exception. -/
inductive Refusal
  | rejected (reason : String)
  | raised
  deriving DecidableEq, Repr

/-- The row of a dictionary whose entries are all there, some of them `None`; `none` where the INSERT
cannot bind a value or a column refuses it. -/
def grantRow (fields : Fields) (signature : Bytes) : Option CapabilityGrant := do
  let deviceId ← fields.deviceId
  let action ← fields.action
  let nonce ← Relay.checkNonce fields.nonce
  if fields.createdAtMs.all fitsInt64 ∧ fields.expiresAtMs.all fitsInt64 ∧
      fields.maxActions.all (fun n => 0 ≤ n ∧ fitsInt64 n) then
    some ⟨fields.capabilityId, deviceId, fields.accountId, fields.conversationId, action,
      fields.createdAtMs, fields.expiresAtMs, fields.maxActions, 0, nonce, some signature, .active⟩
  else none

/-- `store_grant` up to its INSERT. -/
def checkGrant (P : Platform) (fields : Fields) (signature : Bytes) (c : Control) :
    Except Refusal Unit := do
  let key ← orStop (fields.deviceId.bind (Devices.activeSigningKey c))
    (.rejected "device_inactive_or_unknown")
  let payload ← orStop (encodeGrant fields) .raised
  require (Sender.verify P payload signature key) (.rejected "bad_signature")

/-- The INSERT into `capability_grants`; NULL identifiers do not collide. -/
def insertGrant (row : CapabilityGrant) (s : Store) : Option Store :=
  if ∀ g ∈ s.grants, Relay.matchesNullable g.capabilityId row.capabilityId = false then
    some { s with grants := s.grants ++ [row] }
  else none

/-- `store_grant`. -/
def storeGrant (P : Platform) (fields : Fields) (signature : Bytes) (s : Store) :
    Except Refusal Store := do
  checkGrant P fields signature s.control
  let row ← orStop (grantRow fields signature) .raised
  orStop (insertGrant row s) .raised

/-! ## Consuming -/

/-- What `verify_and_consume` is asked for. -/
structure Request where
  action : String
  conversationId : String
  nowMs : ℤ
  deriving DecidableEq

/-- `WHERE action=? AND conversation_id=? AND status='ACTIVE'`. -/
def Request.selects (r : Request) (g : CapabilityGrant) : Bool :=
  g.action = r.action ∧ g.conversationId = some r.conversationId ∧ g.status = .active

/-- What the loop does with a row: `continue`, raise, or go on to the UPDATE. -/
inductive Judgement
  | skip
  | raises
  | use
  deriving DecidableEq, Repr

/-- The checks on a row, with the key the device has when it is looked up. -/
def judge (P : Platform) (r : Request) (key : Option Bytes) (g : CapabilityGrant) : Judgement :=
  match key with
  | none => .skip
  | some key =>
    if g.expiresAtMs.any (fun expires => expires ≤ r.nowMs) then .skip
    else if g.maxActions.any (fun max => max ≤ (g.usedCount : ℤ)) then .skip
    else
      match encodeGrant { g.fields with
        conversationId := some r.conversationId
        action := some r.action } with
      | none => .raises
      | some payload =>
        match g.signature with
        | none => .raises
        | some signature => if Sender.verify P payload signature key then .use else .skip

def CapabilityGrant.charged (g : CapabilityGrant) : CapabilityGrant :=
  { g with usedCount := g.usedCount + 1 }

/-- `WHERE capability_id=? AND used_count=?`. -/
def isTarget (target g : CapabilityGrant) : Bool :=
  Relay.matchesNullable g.capabilityId target.capabilityId ∧ g.usedCount = target.usedCount

/-- `UPDATE capability_grants SET used_count=used_count+1`, for the row as it was read. -/
def charge (target : CapabilityGrant) (s : Store) : Store :=
  { s with grants := s.grants.map fun g => if isTarget target g then g.charged else g }

/-- The row count of that UPDATE. -/
def rowcount (target : CapabilityGrant) (s : Store) : ℕ :=
  (s.grants.filter (isTarget target)).length

/-- How a call of `verify_and_consume` ends. -/
inductive Answer
  | returned (consumed : Bool)
  | raised
  deriving DecidableEq, Repr

/-- The loop of `verify_and_consume` over the rows it has read. -/
def consume (P : Platform) (r : Request) : List CapabilityGrant → Store → Answer × Store
  | [], s => (.returned false, s)
  | g :: rows, s =>
    match judge P r (Devices.activeSigningKey s.control g.deviceId) g with
    | .skip => consume P r rows s
    | .raises => (.raised, s)
    | .use =>
      if rowcount g s = 1 then (.returned true, charge g s) else consume P r rows (charge g s)

/-- `verify_and_consume`, with nothing between its statements. -/
def verifyAndConsume (P : Platform) (r : Request) (s : Store) : Answer × Store :=
  consume P r (s.grants.filter r.selects) s

/-! ## The UPDATE -/

/-- The PRIMARY KEY of `capability_grants`: no identifier twice, NULL being none. -/
def Keyed (rows : List CapabilityGrant) : Prop :=
  (rows.filterMap CapabilityGrant.capabilityId).Nodup

variable {P : Platform} {r : Request} {s : Store} {g target : CapabilityGrant}

lemma isTarget_iff : isTarget target g = true ↔
    target.capabilityId ≠ none ∧ g.capabilityId = target.capabilityId ∧
      g.usedCount = target.usedCount := by
  simp only [isTarget, Relay.matchesNullable, decide_eq_true_eq, Option.isSome_iff_ne_none]
  tauto

@[simp] lemma charged_capabilityId (g : CapabilityGrant) :
    g.charged.capabilityId = g.capabilityId := rfl

/-- Under the key a row is the only one with its identifier. -/
lemma Keyed.others {before after : List CapabilityGrant} {row : CapabilityGrant}
    (h : Keyed (before ++ row :: after)) (hid : row.capabilityId ≠ none) :
    ∀ g ∈ before ++ after, g.capabilityId ≠ row.capabilityId := by
  obtain ⟨id, hid⟩ := Option.ne_none_iff_exists'.mp hid
  unfold Keyed at h
  rw [List.filterMap_append, List.filterMap_cons_some hid, List.nodup_append, List.nodup_cons] at h
  obtain ⟨-, ⟨hafter, -⟩, hbefore⟩ := h
  intro g hg hsame
  rw [hid] at hsame
  obtain hg | hg := List.mem_append.mp hg
  · exact hbefore id (List.mem_filterMap.mpr ⟨g, hg, hsame⟩) id List.mem_cons_self rfl
  · exact hafter (List.mem_filterMap.mpr ⟨g, hg, hsame⟩)

/-- Under the key two rows with one identifier are one row. -/
lemma Keyed.eq_of_capabilityId {rows : List CapabilityGrant} (h : Keyed rows)
    {row : CapabilityGrant} (hg : g ∈ rows) (hrow : row ∈ rows) (hid : row.capabilityId ≠ none)
    (hsame : g.capabilityId = row.capabilityId) : g = row := by
  obtain ⟨before, after, rfl⟩ := List.append_of_mem hrow
  have hothers := h.others hid
  rw [List.mem_append, List.mem_cons] at hg
  obtain hbefore | heq | hafter := hg
  · exact absurd hsame (hothers g (List.mem_append_left _ hbefore))
  · exact heq
  · exact absurd hsame (hothers g (List.mem_append_right _ hafter))

lemma Keyed.charged {before after : List CapabilityGrant} {row : CapabilityGrant}
    (h : Keyed (before ++ row :: after)) : Keyed (before ++ row.charged :: after) := by
  unfold Keyed at *
  rcases hid : row.capabilityId with _ | id
  · rw [List.filterMap_append, List.filterMap_cons_none hid] at h
    rwa [List.filterMap_append, List.filterMap_cons_none (by rw [charged_capabilityId, hid])]
  · rw [List.filterMap_append, List.filterMap_cons_some hid] at h
    rwa [List.filterMap_append, List.filterMap_cons_some (by rw [charged_capabilityId, hid])]

/-- The UPDATE adds one to one row, or changes nothing. -/
theorem charge_cases (hkeyed : Keyed s.grants) (target : CapabilityGrant) :
    (∃ before row after, s.grants = before ++ row :: after ∧ isTarget target row = true ∧
      charge target s = { s with grants := before ++ row.charged :: after } ∧
        rowcount target s = 1) ∨
    (∀ g ∈ s.grants, isTarget target g = false) ∧ charge target s = s ∧ rowcount target s = 0 := by
  by_cases hfound : ∃ row ∈ s.grants, isTarget target row = true
  · left
    obtain ⟨row, hrow, htarget⟩ := hfound
    obtain ⟨before, after, hrows⟩ := List.append_of_mem hrow
    obtain ⟨hsome, hid, -⟩ := isTarget_iff.mp htarget
    have hothers := (hrows ▸ hkeyed).others (hid ▸ hsome)
    have hmiss : ∀ g ∈ before ++ after, isTarget target g = false := by
      intro g hg
      rw [Bool.eq_false_iff]
      intro hg'
      exact hothers g hg ((isTarget_iff.mp hg').2.1.trans hid.symm)
    have hleft {rows : List CapabilityGrant} (h : ∀ g ∈ rows, isTarget target g = false) :
        (rows.map fun g => if isTarget target g then g.charged else g) = rows := by
      refine (List.map_congr_left fun g hg => ?_).trans (List.map_id _)
      simp [h g hg]
    have hnone {rows : List CapabilityGrant} (h : ∀ g ∈ rows, isTarget target g = false) :
        rows.filter (isTarget target) = [] := by
      rw [List.filter_eq_nil_iff]
      intro g hg
      simp [h g hg]
    have hbefore := fun g hg => hmiss g (List.mem_append_left _ hg)
    have hafter := fun g hg => hmiss g (List.mem_append_right _ hg)
    refine ⟨before, row, after, hrows, htarget, ?_, ?_⟩
    · rw [charge, hrows, List.map_append, List.map_cons, if_pos htarget, hleft hbefore, hleft hafter]
    · rw [rowcount, hrows, List.filter_append, List.filter_cons_of_pos htarget, hnone hbefore,
        hnone hafter]
      rfl
  · right
    have hmiss : ∀ g ∈ s.grants, isTarget target g = false := by
      intro g hg
      rw [Bool.eq_false_iff]
      exact fun htarget => hfound ⟨g, hg, htarget⟩
    refine ⟨hmiss, ?_, ?_⟩
    · have hrows : (s.grants.map fun g => if isTarget target g then g.charged else g) = s.grants := by
        refine (List.map_congr_left fun g hg => ?_).trans (List.map_id _)
        simp [hmiss g hg]
      rw [charge, hrows]
    · rw [rowcount, List.filter_eq_nil_iff.mpr fun g hg => by simp [hmiss g hg]]
      rfl

/-! ## The checks -/

/-- A row that is used was signed under the key, has not expired and is not used up. -/
lemma judge_eq_use {key : Option Bytes} (hselects : r.selects g = true)
    (h : judge P r key g = .use) :
    ∃ signingKey payload signature, key = some signingKey ∧ encodeGrant g.fields = some payload ∧
      g.signature = some signature ∧ Sender.verify P payload signature signingKey = true ∧
        (∀ expires, g.expiresAtMs = some expires → r.nowMs < expires) ∧
          ∀ max, g.maxActions = some max → (g.usedCount : ℤ) < max := by
  simp only [Request.selects, decide_eq_true_eq] at hselects
  obtain ⟨haction, hconversation, -⟩ := hselects
  have hfields : { g.fields with
      conversationId := some r.conversationId, action := some r.action } = g.fields := by
    simp [CapabilityGrant.fields, haction, hconversation]
  unfold judge at h
  rw [hfields] at h
  split at h
  · cases h
  rename_i signingKey
  split at h
  · cases h
  rename_i hexpires
  split at h
  · cases h
  rename_i hmax
  split at h
  · cases h
  rename_i payload hpayload
  split at h
  · cases h
  rename_i signature hsignature
  split at h
  · rename_i hverified
    refine ⟨signingKey, payload, signature, rfl, hpayload, hsignature, hverified, ?_, ?_⟩
    · intro expires hsome
      simpa [hsome] using hexpires
    · intro max hsome
      simpa [hsome] using hmax
  · cases h

/-! ## What a call consumes -/

/-- The first of the rows that passes the checks, up to one that raises.  One without an identifier is
passed over: `capability_id=NULL` is true of no row. -/
def chosen (P : Platform) (r : Request) (c : Control) : List CapabilityGrant → Option CapabilityGrant
  | [] => none
  | g :: rows =>
    match judge P r (Devices.activeSigningKey c g.deviceId) g with
    | .skip => chosen P r c rows
    | .raises => none
    | .use => if g.capabilityId = none then chosen P r c rows else some g

lemma mem_of_chosen {rows : List CapabilityGrant} (h : chosen P r s.control rows = some g) :
    g ∈ rows ∧ g.capabilityId ≠ none ∧
      judge P r (Devices.activeSigningKey s.control g.deviceId) g = .use := by
  induction rows with
  | nil => cases h
  | cons row rows ih =>
    simp only [chosen] at h
    split at h
    · obtain ⟨hmem, hrest⟩ := ih h
      exact ⟨List.mem_cons_of_mem _ hmem, hrest⟩
    · cases h
    · rename_i huse
      split at h
      · obtain ⟨hmem, hrest⟩ := ih h
        exact ⟨List.mem_cons_of_mem _ hmem, hrest⟩
      · rename_i hid
        obtain rfl := Option.some.inj h
        exact ⟨List.mem_cons_self, hid, huse⟩

/-- The loop charges the row it chooses, and changes nothing where it chooses none. -/
theorem consume_eq (hkeyed : Keyed s.grants) {rows : List CapabilityGrant}
    (hrows : ∀ g ∈ rows, g ∈ s.grants) :
    (∃ g, chosen P r s.control rows = some g ∧ consume P r rows s = (.returned true, charge g s)) ∨
    chosen P r s.control rows = none ∧ ∃ answer, answer ≠ .returned true ∧
      consume P r rows s = (answer, s) := by
  induction rows with
  | nil => exact .inr ⟨rfl, .returned false, by decide, rfl⟩
  | cons g rows ih =>
    have ih := ih fun g hg => hrows g (List.mem_cons_of_mem _ hg)
    simp only [chosen, consume]
    split
    · exact ih
    · exact .inr ⟨rfl, .raised, by decide, rfl⟩
    · obtain ⟨before, row, after, -, htarget, -, hcount⟩ | ⟨hmiss, hsame, hcount⟩ :=
        charge_cases hkeyed g
      · left
        have hid : g.capabilityId ≠ none := (isTarget_iff.mp htarget).1
        refine ⟨g, ?_, ?_⟩
        · rw [if_neg hid]
        · rw [if_pos hcount]
      · have hid : g.capabilityId = none := by
          by_contra hsome
          have htarget : isTarget g g = true := isTarget_iff.mpr ⟨hsome, rfl, rfl⟩
          rw [hmiss g (hrows g List.mem_cons_self)] at htarget
          cases htarget
        rw [if_pos hid, if_neg (by rw [hcount]; decide), hsame]
        exact ih

section Sample

open Approval

/-- A grant of the device for a conversation, signed for an account. -/
def sampleGrant (accountId : String) : CapabilityGrant :=
  ⟨some "cap_1", "dev_1", some accountId, some "cnv_1", "MARK_READ", some 1000, some 10000, some 2, 0,
    some sampleNonce, some sampleSignature, .active⟩

/-- The platform on which the device signed that grant and nothing else. -/
def grantPlatform (accountId : String) : Platform :=
  signedOnce ((encodeGrant (sampleGrant accountId).fields).getD [])

def grantStore (accountId : String) : Store :=
  ⟨{ Control.empty with approvalDevices := [⟨"dev_1", "phone", sampleKey, none, none, .active⟩] },
    [sampleGrant accountId]⟩

end Sample

end WhatsVault.Capabilities
