import WhatsVault.Approval.Capabilities
import WhatsVault.Library.WriteLock

/-!
# Budgets under concurrency

Calls of `verify_and_consume`, `store_grant` and `devices.revoke`, statement by statement, on any
number of connections to the control database.  A `verify_and_consume` reads its rows in one statement,
the key of each row's device in one more, and charges a row in a third; other calls may run between any
two of them, so that what it holds of a row may be old when it charges it.

The UPDATE finds a row only while its count is the one that was read, and nothing but the count of a row
ever changes (`Grown`).  Hence the row it charges is the row that was checked, up to the last column,
and its budget was not used up: `Sound` is the invariant, `budgets_hold` what follows for every run.
-/

namespace WhatsVault.Capabilities.Concurrent

open WriteLock

/-! ## Statements -/

inductive Call
  | verifyAndConsume (request : Request)
  | storeGrant (fields : Fields) (signature : Bytes)
  | revoke (deviceId : String)

/-- How far the call on a connection is. -/
inductive Phase
  | idle
  | calling (call : Call)
  /-- In the loop of `verify_and_consume`, with the rows it has not looked at. -/
  | scanning (request : Request) (rows : List CapabilityGrant)
  /-- The row passed its checks, and the UPDATE is next. -/
  | updating (request : Request) (row : CapabilityGrant) (rows : List CapabilityGrant)
  /-- The UPDATE has changed one row, and the commit is next. -/
  | charged (request : Request) (row : CapabilityGrant)
  /-- `store_grant` before its INSERT. -/
  | inserting (fields : Fields) (signature : Bytes)
  /-- `store_grant` or `revoke` before its commit. -/
  | written
  /-- A commit failed, and what was to be committed is still open. -/
  | broken

/-- The database, and the call on each connection. -/
structure Sys where
  db : Db Store
  phase : ℕ → Phase

def Sys.start (s : Store) : Sys := ⟨.idle s, fun _ => .idle⟩

def Sys.setPhase (σ : Sys) (i : ℕ) (p : Phase) : Sys :=
  { σ with phase := fun j => if j = i then p else σ.phase j }

@[simp] lemma Sys.setPhase_phase (σ : Sys) (i : ℕ) (p : Phase) : (σ.setPhase i p).phase i = p :=
  if_pos rfl

/-- A connection is in the phase it was given last. -/
lemma Sys.setPhase_setPhase (σ : Sys) (db : Db Store) (i : ℕ) (p q : Phase) :
    { σ.setPhase i p with db }.setPhase i q = { σ with db }.setPhase i q := by
  simp only [Sys.setPhase, Sys.mk.injEq, true_and]
  funext j
  by_cases hj : j = i
  · rw [if_pos hj, if_pos hj]
  · rw [if_neg hj, if_neg hj, if_neg hj]

inductive Label
  /-- A call begins on connection `i`. -/
  | call (i : ℕ) (c : Call)
  /-- Connection `i` runs the next statement of its call, or its commit; it waits where another one
  holds the lock. -/
  | advance (i : ℕ)
  /-- That statement or commit raises. -/
  | fail (i : ℕ)
  /-- Connection `i` is closed, or its process dies. -/
  | close (i : ℕ)

/-- What the calls show. -/
inductive Shown
  | began (i : ℕ)
  /-- The key of an active device was read. -/
  | keyRead (i : ℕ) (deviceId : String) (key : Bytes)
  /-- `verify_and_consume` returned `True`, having charged the row as it had read it. -/
  | granted (i : ℕ) (request : Request) (row : CapabilityGrant)
  /-- `verify_and_consume` returned `False`. -/
  | refused (i : ℕ)
  | raised (i : ℕ)
  deriving DecidableEq

/-- The connection an event belongs to. -/
def Shown.conn : Shown → ℕ
  | began i | keyRead i _ _ | granted i _ _ | refused i | raised i => i

/-- The first statement of a call. -/
def firstStatement (P : Platform) (σ : Sys) (i : ℕ) : Call → Sys × List Shown
  | .verifyAndConsume r =>
    (σ.setPhase i (.scanning r ((σ.db.view i).grants.filter r.selects)), [])
  | .storeGrant fields signature =>
    match checkGrant P fields signature (σ.db.view i).control with
    | .ok () => (σ.setPhase i (.inserting fields signature), [])
    | .error _ => (σ.setPhase i .idle, [.raised i])
  | .revoke deviceId =>
    match σ.db.base i with
    | none => (σ, [])
    | some s =>
      ({ σ with db := σ.db.hold i { s with control := Devices.revoke deviceId s.control } }.setPhase i
        .written, [])

/-- The head of the loop: the key of the next row's device, and the checks of that row. -/
def scan (P : Platform) (σ : Sys) (i : ℕ) (r : Request) : List CapabilityGrant → Sys × List Shown
  | [] => (σ.setPhase i .idle, [.refused i])
  | g :: rows =>
    match Devices.activeSigningKey (σ.db.view i).control g.deviceId with
    | none => (σ.setPhase i (.scanning r rows), [])
    | some key =>
      match judge P r (some key) g with
      | .skip => (σ.setPhase i (.scanning r rows), [.keyRead i g.deviceId key])
      | .raises => (σ.setPhase i .idle, [.keyRead i g.deviceId key, .raised i])
      | .use => (σ.setPhase i (.updating r g rows), [.keyRead i g.deviceId key])

def advance (P : Platform) (σ : Sys) (i : ℕ) : Sys × List Shown :=
  match σ.phase i with
  | .idle | .broken => (σ, [])
  | .calling c => firstStatement P σ i c
  | .scanning r rows => scan P σ i r rows
  | .updating r g rows =>
    match σ.db.base i with
    | none => (σ, [])
    | some s =>
      -- A row count of zero leaves the transaction open, with nothing in it.
      ({ σ with db := σ.db.hold i (charge g s) }.setPhase i
        (if rowcount g s = 1 then .charged r g else .scanning r rows), [])
  | .inserting fields signature =>
    match σ.db.base i with
    | none => (σ, [])
    | some s =>
      match (grantRow fields signature).bind fun row => insertGrant row s with
      | none => ({ σ with db := σ.db.hold i s }.setPhase i .idle, [.raised i])
      | some s' => ({ σ with db := σ.db.hold i s' }.setPhase i .written, [])
  | .charged r g => ({ σ with db := σ.db.commit i }.setPhase i .idle, [.granted i r g])
  | .written => ({ σ with db := σ.db.commit i }.setPhase i .idle, [])

def step (P : Platform) (σ : Sys) : Label → Sys × List Shown
  | .call i c =>
    match σ.phase i with
    | .idle => (σ.setPhase i (.calling c), [.began i])
    | _ => (σ, [])
  | .advance i => advance P σ i
  | .fail i =>
    match σ.phase i with
    | .idle | .broken => (σ, [])
    | .charged _ _ | .written => (σ.setPhase i .broken, [.raised i])
    | _ => (σ.setPhase i .idle, [.raised i])
  | .close i => ({ σ with db := σ.db.rollback i }.setPhase i .idle, [])

/-! ## Budgets -/

/-- How often the grants with an identifier have been used, as their rows have it. -/
def used (s : Store) (id : String) : ℕ :=
  (s.grants.map fun g => if g.capabilityId = some id then g.usedCount else 0).sum

/-- How often `True` was returned for an identifier. -/
def trues (log : List Shown) (id : String) : ℕ :=
  log.countP fun
    | .granted _ _ g => g.capabilityId = some id
    | _ => false

/-- A row without its count: what the phone signed, and the signature. -/
def terms (g : CapabilityGrant) : CapabilityGrant := { g with usedCount := 0 }

/-- A row that was read is still there, with a count that has not gone down. -/
def Recorded (g : CapabilityGrant) (s : Store) : Prop :=
  ∃ row ∈ s.grants, terms row = terms g ∧ g.usedCount ≤ row.usedCount

/-- Every row is still there, and signed as it was. -/
def Grown (s s' : Store) : Prop := ∀ g ∈ s.grants, Recorded g s'

/-- What a `True` stands for, at the commit that precedes it. -/
structure Earned (P : Platform) (t : Store) (labels : List Label) (i : ℕ) (r : Request)
    (g : CapabilityGrant) (s s' : Store) : Prop where
  identified : g.capabilityId ≠ none
  /-- One count goes up by one, and nothing else changes. -/
  charged : ∃ before after, s.grants = before ++ g :: after ∧
    s' = { s with grants := before ++ g.charged :: after }
  scope : g.action = r.action ∧ g.conversationId = some r.conversationId
  unexpired : ∀ expires, g.expiresAtMs = some expires → r.nowMs < expires
  /-- The signature verifies under a key that an active device had when this call read it. -/
  signed : ∃ key payload signature, encodeGrant g.fields = some payload ∧
    g.signature = some signature ∧ Sender.verify P payload signature key = true ∧
      ∃ pre label post, labels = pre ++ label :: post ∧
        let σ := Run.final (step P) (Sys.start t) pre
        .keyRead i g.deviceId key ∈ (step P σ label).2 ∧
          .began i ∉ Run.events (step P) (step P σ label).1 post ∧
            Devices.activeSigningKey σ.db.committed.control g.deviceId = some key

/-- Budgets held in a run from the grants of `t`. -/
structure Budgeted (P : Platform) (t : Store) (labels : List Label) : Prop where
  /-- Identifiers stand for one grant each. -/
  keyed : Keyed (Run.final (step P) (Sys.start t) labels).db.committed.grants
  /-- A grant that was charged at all was charged within its budget, earlier charges included. -/
  budget : ∀ g ∈ (Run.final (step P) (Sys.start t) labels).db.committed.grants, ∀ id max,
    g.capabilityId = some id → g.maxActions = some max →
      trues (Run.events (step P) (Sys.start t) labels) id = 0 ∨
        (used t id + trues (Run.events (step P) (Sys.start t) labels) id : ℤ) ≤ max
  /-- The counts are those of `t` and the `True` results. -/
  counted : ∀ id, used (Run.final (step P) (Sys.start t) labels).db.committed id =
    used t id + trues (Run.events (step P) (Sys.start t) labels) id
  earned : ∀ label i r g,
    .granted i r g ∈ (step P (Run.final (step P) (Sys.start t) labels) label).2 →
      Earned P t labels i r g (Run.final (step P) (Sys.start t) labels).db.committed
        (step P (Run.final (step P) (Sys.start t) labels) label).1.db.committed
  /-- No grant loses its count or changes its terms. -/
  grown : Grown t (Run.final (step P) (Sys.start t) labels).db.committed

/-! ## Rows -/

section Rows

variable {s s' s'' : Store} {g row : CapabilityGrant} {before after : List CapabilityGrant}
  {id : String}

@[simp] lemma terms_charged (g : CapabilityGrant) : terms g.charged = terms g := rfl

lemma capabilityId_of_terms (h : terms row = terms g) : row.capabilityId = g.capabilityId := by
  have hid := congrArg CapabilityGrant.capabilityId h
  exact hid

lemma eq_of_terms (h : terms row = terms g) (hcount : row.usedCount = g.usedCount) : row = g := by
  obtain ⟨⟩ := row
  obtain ⟨⟩ := g
  simp only [terms, CapabilityGrant.mk.injEq] at h hcount ⊢
  tauto

lemma recorded_of_mem (h : g ∈ s.grants) : Recorded g s := ⟨g, h, rfl, Nat.le_refl _⟩

lemma Recorded.grown (h : Recorded g s) (hgrown : Grown s s') : Recorded g s' := by
  obtain ⟨row, hrow, hterms, hcount⟩ := h
  obtain ⟨row', hrow', hterms', hcount'⟩ := hgrown row hrow
  exact ⟨row', hrow', hterms'.trans hterms, hcount.trans hcount'⟩

lemma grown_of_eq (h : s'.grants = s.grants) : Grown s s' := fun _ hg => recorded_of_mem (h ▸ hg)

lemma Grown.trans (h : Grown s s') (h' : Grown s' s'') : Grown s s'' := fun g hg => (h g hg).grown h'

/-- The row that is charged is the row that was read, up to the last column. -/
lemma Recorded.eq_of_isTarget (h : Recorded g s) (hkeyed : Keyed s.grants) (hrow : row ∈ s.grants)
    (htarget : isTarget g row = true) : row = g := by
  obtain ⟨row', hrow', hterms, -⟩ := h
  obtain ⟨hid, hsame, hcount⟩ := isTarget_iff.mp htarget
  have heq : row = row' := by
    refine hkeyed.eq_of_capabilityId hrow hrow' ?_ ?_
    · rw [capabilityId_of_terms hterms]
      exact hid
    · rw [capabilityId_of_terms hterms, hsame]
  exact eq_of_terms (heq ▸ hterms) hcount

lemma grown_charged (h : s.grants = before ++ g :: after) :
    Grown s { s with grants := before ++ g.charged :: after } := by
  intro row hrow
  rw [h, List.mem_append, List.mem_cons] at hrow
  obtain hbefore | rfl | hafter := hrow
  · exact recorded_of_mem (List.mem_append_left _ hbefore)
  · exact ⟨row.charged, List.mem_append_right _ List.mem_cons_self, rfl, Nat.le_succ _⟩
  · exact recorded_of_mem (List.mem_append_right _ (List.mem_cons_of_mem _ hafter))

lemma used_eq (hkeyed : Keyed s.grants) (hg : g ∈ s.grants) (hid : g.capabilityId = some id) :
    used s id = g.usedCount := by
  obtain ⟨before, after, hrows⟩ := List.append_of_mem hg
  have hothers := (hrows ▸ hkeyed).others (by simp [hid])
  have hzero {rows : List CapabilityGrant} (h : ∀ row ∈ rows, row ∈ before ++ after) :
      (rows.map fun g => if g.capabilityId = some id then g.usedCount else 0).sum = 0 := by
    refine List.sum_eq_zero_iff_forall_eq_nat.mpr fun n hn => ?_
    obtain ⟨row, hrow, rfl⟩ := List.mem_map.mp hn
    exact if_neg (hid ▸ hothers row (h row hrow))
  have hbefore := hzero fun row hrow => List.mem_append_left after hrow
  have hafter := hzero fun row hrow => List.mem_append_right before hrow
  rw [used, hrows, List.map_append, List.map_cons, List.sum_append, List.sum_cons, hbefore, hafter,
    if_pos hid]
  omega

lemma used_charged (h : s.grants = before ++ g :: after) (id : String) :
    used { s with grants := before ++ g.charged :: after } id =
      used s id + if g.capabilityId = some id then 1 else 0 := by
  unfold used
  rw [h]
  simp only [List.map_append, List.map_cons, List.sum_append, List.sum_cons, charged_capabilityId]
  by_cases hid : g.capabilityId = some id
  · simp [hid, CapabilityGrant.charged]
    omega
  · simp [hid]

/-- What the INSERT of `store_grant` adds. -/
lemma insertGrant_eq_some (h : insertGrant row s = some s') :
    s' = { s with grants := s.grants ++ [row] } ∧
      ∀ g ∈ s.grants, Relay.matchesNullable g.capabilityId row.capabilityId = false := by
  unfold insertGrant at h
  split at h
  · rename_i hfree
    exact ⟨(Option.some.inj h).symm, hfree⟩
  · cases h

end Rows

/-! ## The invariant -/

/-- What the committed grants and the `True` results so far have to do with the grants of `t`. -/
structure Ledger (t : Store) (log : List Shown) (s : Store) : Prop where
  keyed : Keyed s.grants
  counted : ∀ id, used s id = used t id + trues log id
  budget : ∀ g ∈ s.grants, ∀ id max, g.capabilityId = some id → g.maxActions = some max →
    trues log id = 0 ∨ (g.usedCount : ℤ) ≤ max
  grown : Grown t s

/-- The call on the connection has read the key since it began. -/
def ReadSince (log : List Shown) (i : ℕ) (deviceId : String) (key : Bytes) : Prop :=
  ∃ before after, log = before ++ .keyRead i deviceId key :: after ∧ .began i ∉ after

/-- A row that passed its checks, as it was read. -/
structure Passed (P : Platform) (log : List Shown) (s : Store) (i : ℕ) (r : Request)
    (g : CapabilityGrant) : Prop where
  recorded : Recorded g s
  selects : r.selects g = true
  read : ∃ key, judge P r (some key) g = .use ∧ ReadSince log i g.deviceId key

/-- What a call has found out about the rows it holds. -/
def Followed (P : Platform) (log : List Shown) (s : Store) (i : ℕ) : Phase → Prop
  | .scanning r rows => ∀ g ∈ rows, Recorded g s ∧ r.selects g = true
  | .updating r g rows => Passed P log s i r g ∧ ∀ g ∈ rows, Recorded g s ∧ r.selects g = true
  | .charged r g => Passed P log s i r g
  | _ => True

/-- What an open transaction has written, by the phase of the call that holds it. -/
def Pending : Phase → Store → Store → Prop
  | .charged _ g, c, s => g.capabilityId ≠ none ∧ ∃ before after,
      c.grants = before ++ g :: after ∧ s = { c with grants := before ++ g.charged :: after }
  | .written, c, s => s.grants = c.grants ∨ ∃ row, row.usedCount = 0 ∧
      s.grants = c.grants ++ [row] ∧
        ∀ g ∈ c.grants, Relay.matchesNullable g.capabilityId row.capabilityId = false
  | .broken, _, _ => True
  | _, c, s => s = c

/-- The phases before a commit. -/
def Committing : Phase → Prop
  | .charged _ _ | .written => True
  | _ => False

structure Sound (P : Platform) (t : Store) (log : List Shown) (σ : Sys) : Prop where
  ledger : Ledger t log σ.db.committed
  pending : ∀ i s, σ.db.writer = some (i, s) → Pending (σ.phase i) σ.db.committed s
  locked : ∀ i, Committing (σ.phase i) → ∃ s, σ.db.writer = some (i, s)
  followed : ∀ i, Followed P log σ.db.committed i (σ.phase i)

section Ledgers

variable {t s s' : Store} {log : List Shown} {es : List Shown} {g : CapabilityGrant}
  {before after : List CapabilityGrant} {i : ℕ} {r : Request} {id : String}

/-- An event that is no `True`. -/
def Shown.Quiet : Shown → Prop
  | .granted _ _ _ => False
  | _ => True

lemma trues_append_quiet (hquiet : ∀ e ∈ es, e.Quiet) (id : String) :
    trues (log ++ es) id = trues log id := by
  have hnone : trues es id = 0 := by
    refine List.countP_eq_zero.mpr fun e he => ?_
    have hone := hquiet e he
    cases e with
    | granted => exact hone.elim
    | began | keyRead | refused | raised => exact Bool.false_ne_true
  rw [trues, List.countP_append]
  exact Nat.add_eq_left.mpr hnone

lemma trues_append_granted (log : List Shown) (i : ℕ) (r : Request) (g : CapabilityGrant)
    (id : String) :
    trues (log ++ [.granted i r g]) id =
      trues log id + if g.capabilityId = some id then 1 else 0 := by
  simp [trues, List.countP_append, List.countP_cons]

lemma Ledger.quiet (h : Ledger t log s) (hquiet : ∀ e ∈ es, e.Quiet) : Ledger t (log ++ es) s := by
  refine ⟨h.keyed, ?_, ?_, h.grown⟩
  · intro id
    rw [trues_append_quiet hquiet, h.counted id]
  · intro g hg id max hid hmax
    rw [trues_append_quiet hquiet]
    exact h.budget g hg id max hid hmax

lemma Ledger.of_eq (h : Ledger t log s) (hgrants : s'.grants = s.grants) : Ledger t log s' := by
  refine ⟨by rw [hgrants]; exact h.keyed, ?_, by rw [hgrants]; exact h.budget,
    h.grown.trans (grown_of_eq hgrants)⟩
  intro id
  rw [← h.counted id, used, used, hgrants]

/-- A `True` adds one to the count of a row that was not used up. -/
lemma Ledger.charged (h : Ledger t log s) (hrows : s.grants = before ++ g :: after)
    (hid : g.capabilityId ≠ none)
    (hunspent : ∀ max, g.maxActions = some max → (g.usedCount : ℤ) < max) :
    Ledger t (log ++ [.granted i r g]) { s with grants := before ++ g.charged :: after } := by
  have hkeyed : Keyed (before ++ g :: after) := hrows ▸ h.keyed
  refine ⟨hkeyed.charged, ?_, ?_, h.grown.trans (grown_charged hrows)⟩
  · intro id
    rw [used_charged hrows, trues_append_granted, h.counted id]
    omega
  · intro row hrow id max hrowid hmax
    rw [trues_append_granted]
    have hother (hmem : row ∈ before ++ after) :
        trues log id + (if g.capabilityId = some id then 1 else 0) = 0 ∨
          (row.usedCount : ℤ) ≤ max := by
      have hne : g.capabilityId ≠ some id := by
        intro hsame
        exact hkeyed.others hid row hmem (hrowid.trans hsame.symm)
      rw [if_neg hne]
      refine h.budget row ?_ id max hrowid hmax
      rw [hrows]
      obtain hbefore | hafter := List.mem_append.mp hmem
      · exact List.mem_append_left _ hbefore
      · exact List.mem_append_right _ (List.mem_cons_of_mem _ hafter)
    rw [List.mem_append, List.mem_cons] at hrow
    obtain hbefore | rfl | hafter := hrow
    · exact hother (List.mem_append_left _ hbefore)
    · right
      have hlt := hunspent max hmax
      simp only [CapabilityGrant.charged]
      omega
    · exact hother (List.mem_append_right _ hafter)

/-- A new grant starts unused, under an identifier that never was used. -/
lemma Ledger.inserted (h : Ledger t log s) {row : CapabilityGrant} (hunused : row.usedCount = 0)
    (hgrants : s'.grants = s.grants ++ [row])
    (hfree : ∀ g ∈ s.grants, Relay.matchesNullable g.capabilityId row.capabilityId = false) :
    Ledger t log s' := by
  have hsome {id : String} (hid : row.capabilityId = some id) (g : CapabilityGrant)
      (hg : g ∈ s.grants) : g.capabilityId ≠ some id := by
    intro hsame
    have hmiss := hfree g hg
    rw [hid, hsame] at hmiss
    simp [Relay.matchesNullable] at hmiss
  have hused : ∀ id, used s' id = used s id := by
    intro id
    simp [used, hgrants, hunused]
  refine ⟨?_, fun id => (hused id).trans (h.counted id), ?_, h.grown.trans ?_⟩
  · unfold Keyed
    rw [hgrants, List.filterMap_append]
    refine List.nodup_append.mpr ⟨h.keyed, ?_, ?_⟩
    · rcases hid : row.capabilityId with _ | id
      · simp [List.filterMap_cons_none hid]
      · simp [List.filterMap_cons_some hid]
    · intro id hold id' hnew heq
      obtain ⟨g, hg, hid⟩ := List.mem_filterMap.mp hold
      obtain ⟨row', hrow', hid'⟩ := List.mem_filterMap.mp hnew
      rw [List.mem_singleton.mp hrow'] at hid'
      exact hsome hid' g hg (heq ▸ hid)
  · intro g hg id max hid hmax
    rw [hgrants, List.mem_append, List.mem_singleton] at hg
    obtain hold | rfl := hg
    · exact h.budget g hold id max hid hmax
    · left
      have hzero : used s id = 0 := by
        refine List.sum_eq_zero_iff_forall_eq_nat.mpr fun n hn => ?_
        obtain ⟨g, hg, rfl⟩ := List.mem_map.mp hn
        exact if_neg (hsome hid g hg)
      have hcounted := h.counted id
      omega
  · intro g hg
    exact recorded_of_mem (hgrants ▸ List.mem_append_left _ hg)

end Ledgers

section Steps

variable {P : Platform} {t s : Store} {log es : List Shown} {σ : Sys} {i j : ℕ} {p : Phase}

lemma ReadSince.append {deviceId : String} {key : Bytes} (h : ReadSince log i deviceId key)
    (hes : .began i ∉ es) : ReadSince (log ++ es) i deviceId key := by
  obtain ⟨before, after, rfl, hafter⟩ := h
  refine ⟨before, after ++ es, by simp, ?_⟩
  rw [List.mem_append]
  tauto

lemma Passed.later {r : Request} {g : CapabilityGrant} {s' : Store} (h : Passed P log s i r g)
    (hgrown : Grown s s') (hes : .began i ∉ es) : Passed P (log ++ es) s' i r g := by
  obtain ⟨key, huse, hread⟩ := h.read
  exact ⟨h.recorded.grown hgrown, h.selects, key, huse, hread.append hes⟩

lemma Followed.later {s' : Store} (h : Followed P log s i p) (hgrown : Grown s s')
    (hes : .began i ∉ es) : Followed P (log ++ es) s' i p := by
  cases p with
  | scanning r rows => exact fun g hg => ⟨(h g hg).1.grown hgrown, (h g hg).2⟩
  | updating r g rows =>
    exact ⟨h.1.later hgrown hes, fun g hg => ⟨(h.2 g hg).1.grown hgrown, (h.2 g hg).2⟩⟩
  | charged r g => exact Passed.later h hgrown hes
  | idle | calling | inserting | written | broken => trivial

/-- What a step has to show: for the ledger, for its own call and for whoever holds the lock. -/
lemma Sound.next (hσ : Sound P t log σ) {db : Db Store} (hes : ∀ e ∈ es, e.conn = i)
    (hledger : Ledger t (log ++ es) db.committed) (hgrown : Grown σ.db.committed db.committed)
    (hpending : ∀ j s, db.writer = some (j, s) →
      Pending (if j = i then p else σ.phase j) db.committed s)
    (hlocked : ∀ j, Committing (if j = i then p else σ.phase j) → ∃ s, db.writer = some (j, s))
    (hcall : Followed P (log ++ es) db.committed i p) :
    Sound P t (log ++ es) ({ σ with db }.setPhase i p) := by
  refine ⟨hledger, hpending, hlocked, fun j => ?_⟩
  change Followed P (log ++ es) db.committed j (if j = i then p else σ.phase j)
  by_cases hj : j = i
  · rw [if_pos hj, hj]
    exact hcall
  · rw [if_neg hj]
    refine (hσ.followed j).later hgrown fun hbegan => hj ?_
    exact hes _ hbegan

/-- A step that leaves the database alone. -/
lemma Sound.turn (hσ : Sound P t log σ) (hes : ∀ e ∈ es, e.conn = i ∧ e.Quiet)
    (hpending : ∀ s, σ.db.writer = some (i, s) → Pending p σ.db.committed s)
    (hlocked : ¬ Committing p) (hcall : Followed P (log ++ es) σ.db.committed i p) :
    Sound P t (log ++ es) (σ.setPhase i p) := by
  have hledger : Ledger t (log ++ es) σ.db.committed := hσ.ledger.quiet fun e he => (hes e he).2
  refine hσ.next (fun e he => (hes e he).1) hledger (grown_of_eq rfl) ?_ ?_ hcall
  · intro j s hwriter
    by_cases hj : j = i
    · rw [if_pos hj]
      exact hpending s (hj ▸ hwriter)
    · rw [if_neg hj]
      exact hσ.pending j s hwriter
  · intro j hcommitting
    by_cases hj : j = i
    · rw [if_pos hj] at hcommitting
      exact absurd hcommitting hlocked
    · rw [if_neg hj] at hcommitting
      exact hσ.locked j hcommitting

/-- A write under the lock. -/
lemma Sound.hold (hσ : Sound P t log σ) (hbase : σ.db.base i = some s) {s' : Store}
    (hes : ∀ e ∈ es, e.conn = i ∧ e.Quiet) (hpending : Pending p σ.db.committed s')
    (hcall : Followed P (log ++ es) σ.db.committed i p) :
    Sound P t (log ++ es) ({ σ with db := σ.db.hold i s' }.setPhase i p) := by
  refine hσ.next (fun e he => (hes e he).1)
    (hσ.ledger.quiet fun e he => (hes e he).2) (grown_of_eq rfl) ?_ ?_ hcall
  · intro j s'' hwriter
    obtain ⟨rfl, rfl⟩ := Prod.mk.inj (Option.some.inj hwriter)
    rw [if_pos rfl]
    exact hpending
  · intro j hcommitting
    by_cases hj : j = i
    · exact ⟨s', by rw [hj]; rfl⟩
    · -- Nobody else is about to commit: the lock was free, or ours.
      rw [if_neg hj] at hcommitting
      obtain ⟨s'', hwriter⟩ := hσ.locked j hcommitting
      obtain ⟨hfree, -⟩ | hours := Db.base_eq_some.mp hbase
      · rw [hfree] at hwriter
        cases hwriter
      · rw [hours] at hwriter
        exact absurd (Prod.mk.inj (Option.some.inj hwriter)).1.symm hj

/-- A commit. -/
lemma Sound.commit (hσ : Sound P t log σ) (hwriter : σ.db.writer = some (i, s))
    (hes : ∀ e ∈ es, e.conn = i) (hledger : Ledger t (log ++ es) s)
    (hgrown : Grown σ.db.committed s) :
    Sound P t (log ++ es) ({ σ with db := σ.db.commit i }.setPhase i .idle) := by
  have hdb : σ.db.commit i = .idle s := by
    unfold Db.commit
    rw [hwriter]
    exact if_pos rfl
  rw [hdb]
  refine hσ.next hes hledger hgrown ?_ ?_ trivial
  · intro j s' hnone
    cases hnone
  · intro j hcommitting
    by_cases hj : j = i
    · rw [if_pos hj] at hcommitting
      exact hcommitting.elim
    · rw [if_neg hj] at hcommitting
      obtain ⟨s', hother⟩ := hσ.locked j hcommitting
      rw [hwriter] at hother
      exact absurd (Prod.mk.inj (Option.some.inj hother)).1.symm hj

/-- Before it has written anything, a call sees what is committed. -/
lemma Sound.view_eq (hσ : Sound P t log σ)
    (hclean : ∀ s, Pending (σ.phase i) σ.db.committed s → s = σ.db.committed) :
    σ.db.view i = σ.db.committed :=
  Db.view_eq_committed fun s hwriter => hclean s (hσ.pending i s hwriter)

lemma Sound.base_eq (hσ : Sound P t log σ)
    (hclean : ∀ s, Pending (σ.phase i) σ.db.committed s → s = σ.db.committed)
    (hbase : σ.db.base i = some s) : s = σ.db.committed := by
  rw [← hσ.view_eq hclean, Db.view_of_base hbase]

lemma Sound.scan (hσ : Sound P t log σ) {r : Request} {rows : List CapabilityGrant}
    (hphase : σ.phase i = .scanning r rows) :
    Sound P t (log ++ (scan P σ i r rows).2) (scan P σ i r rows).1 := by
  have hpending : ∀ s, σ.db.writer = some (i, s) → s = σ.db.committed := by
    intro s hwriter
    have hopen := hσ.pending i s hwriter
    rw [hphase] at hopen
    exact hopen
  have hrows : ∀ g ∈ rows, Recorded g σ.db.committed ∧ r.selects g = true := by
    have hcall := hσ.followed i
    rw [hphase] at hcall
    exact hcall
  unfold Concurrent.scan
  cases rows with
  | nil => exact hσ.turn (by simp [Shown.conn, Shown.Quiet]) hpending id trivial
  | cons g rows =>
    have hrest : ∀ g ∈ rows, Recorded g σ.db.committed ∧ r.selects g = true :=
      fun g' hg' => hrows g' (List.mem_cons_of_mem _ hg')
    simp only
    split
    · exact hσ.turn (by simp) hpending id hrest
    · rename_i key hkey
      split
      · exact hσ.turn (by simp [Shown.conn, Shown.Quiet]) hpending id hrest
      · exact hσ.turn (by simp [Shown.conn, Shown.Quiet]) hpending id trivial
      · rename_i huse
        refine hσ.turn (by simp [Shown.conn, Shown.Quiet]) hpending id ⟨?_, hrest⟩
        obtain ⟨hrecorded, hselects⟩ := hrows g List.mem_cons_self
        exact ⟨hrecorded, hselects, key, huse, log, [], rfl, List.not_mem_nil⟩

lemma Sound.firstStatement (hσ : Sound P t log σ) {c : Call} (hphase : σ.phase i = .calling c) :
    Sound P t (log ++ (firstStatement P σ i c).2) (firstStatement P σ i c).1 := by
  have hclean : ∀ s, Pending (σ.phase i) σ.db.committed s → s = σ.db.committed := by
    rw [hphase]
    exact fun _ h => h
  have hpending : ∀ s, σ.db.writer = some (i, s) → s = σ.db.committed :=
    fun s hwriter => hclean s (hσ.pending i s hwriter)
  unfold Concurrent.firstStatement
  cases c with
  | verifyAndConsume r =>
    refine hσ.turn (by simp) hpending id fun g hg => ?_
    rw [hσ.view_eq hclean] at hg
    obtain ⟨hmem, hselects⟩ := List.mem_filter.mp hg
    exact ⟨recorded_of_mem hmem, hselects⟩
  | storeGrant fields signature =>
    simp only
    split
    · exact hσ.turn (by simp) hpending id trivial
    · exact hσ.turn (by simp [Shown.conn, Shown.Quiet]) hpending id trivial
  | revoke deviceId =>
    simp only
    split
    · simpa using hσ
    · rename_i s hbase
      refine hσ.hold hbase (by simp) (.inl ?_) trivial
      rw [hσ.base_eq hclean hbase]

/-- The UPDATE: it charges the row that was read, or it finds none. -/
lemma Sound.update (hσ : Sound P t log σ) {r : Request} {g : CapabilityGrant}
    {rows : List CapabilityGrant} (hphase : σ.phase i = .updating r g rows)
    (hbase : σ.db.base i = some s) :
    Sound P t (log ++ []) ({ σ with db := σ.db.hold i (charge g s) }.setPhase i
      (if rowcount g s = 1 then .charged r g else .scanning r rows)) := by
  have hclean : ∀ s, Pending (σ.phase i) σ.db.committed s → s = σ.db.committed := by
    rw [hphase]
    exact fun _ h => h
  obtain rfl := hσ.base_eq hclean hbase
  have hcall := hσ.followed i
  rw [hphase] at hcall
  obtain ⟨hpassed, hrest⟩ := hcall
  obtain ⟨before, row, after, hrows, htarget, hcharged, hcount⟩ | ⟨-, hsame, hcount⟩ :=
    charge_cases hσ.ledger.keyed g
  · have hrow : row = g := hpassed.recorded.eq_of_isTarget hσ.ledger.keyed
      (hrows ▸ List.mem_append_right _ List.mem_cons_self) htarget
    subst hrow
    rw [if_pos hcount, hcharged]
    refine hσ.hold hbase (by simp) ?_ (hpassed.later (grown_of_eq rfl) (by simp))
    exact ⟨(isTarget_iff.mp htarget).1, before, after, hrows, rfl⟩
  · rw [if_neg (by omega), hsame]
    exact hσ.hold hbase (by simp) rfl hrest

lemma Sound.insert (hσ : Sound P t log σ) {fields : Fields} {signature : Bytes} {s' : Store}
    (hphase : σ.phase i = .inserting fields signature) (hbase : σ.db.base i = some s)
    (hinsert : ((grantRow fields signature).bind fun row => insertGrant row s) = some s') :
    Sound P t (log ++ []) ({ σ with db := σ.db.hold i s' }.setPhase i .written) := by
  have hclean : ∀ s, Pending (σ.phase i) σ.db.committed s → s = σ.db.committed := by
    rw [hphase]
    exact fun _ h => h
  obtain rfl := hσ.base_eq hclean hbase
  obtain ⟨row, hrow, hinserted⟩ := Option.bind_eq_some_iff.mp hinsert
  obtain ⟨rfl, hfree⟩ := insertGrant_eq_some hinserted
  refine hσ.hold hbase (by simp) (.inr ⟨row, ?_, rfl, hfree⟩) trivial
  simp only [grantRow, Option.bind_eq_bind, Option.bind_eq_some_iff] at hrow
  obtain ⟨deviceId, -, action, -, nonce, -, hrow⟩ := hrow
  split at hrow
  · obtain rfl := Option.some.inj hrow
    rfl
  · cases hrow

/-- What a call is about to commit when it is about to return `True`. -/
lemma Sound.charge (hσ : Sound P t log σ) {r : Request} {g : CapabilityGrant}
    (hphase : σ.phase i = .charged r g) :
    Passed P log σ.db.committed i r g ∧ g.capabilityId ≠ none ∧ ∃ before after,
      σ.db.committed.grants = before ++ g :: after ∧ σ.db.writer =
        some (i, { σ.db.committed with grants := before ++ g.charged :: after }) := by
  have hcall := hσ.followed i
  obtain ⟨s, hwriter⟩ := hσ.locked i (by rw [hphase]; trivial)
  have hopen := hσ.pending i s hwriter
  rw [hphase] at hcall hopen
  obtain ⟨hid, before, after, hrows, rfl⟩ := hopen
  exact ⟨hcall, hid, before, after, hrows, hwriter⟩

lemma Sound.advance (hσ : Sound P t log σ) (i : ℕ) :
    Sound P t (log ++ (advance P σ i).2) (advance P σ i).1 := by
  unfold Concurrent.advance
  split
  · simpa using hσ
  · simpa using hσ
  · rename_i c hphase
    exact hσ.firstStatement hphase
  · rename_i r rows hphase
    exact hσ.scan hphase
  · rename_i r g rows hphase
    split
    · simpa using hσ
    · rename_i s hbase
      exact hσ.update hphase hbase
  · rename_i fields signature hphase
    split
    · simpa using hσ
    · rename_i s hbase
      split
      · refine hσ.hold hbase (by simp [Shown.conn, Shown.Quiet]) ?_ trivial
        refine hσ.base_eq ?_ hbase
        rw [hphase]
        exact fun _ h => h
      · rename_i s' hinsert
        exact hσ.insert hphase hbase hinsert
  · rename_i r g hphase
    obtain ⟨hpassed, hid, before, after, hrows, hwriter⟩ := hσ.charge hphase
    obtain ⟨key, huse, -⟩ := hpassed.read
    obtain ⟨-, -, -, -, -, -, -, -, hunspent⟩ := judge_eq_use hpassed.selects huse
    exact hσ.commit hwriter (by simp [Shown.conn]) (hσ.ledger.charged hrows hid hunspent)
      (grown_charged hrows)
  · rename_i hphase
    obtain ⟨s, hwriter⟩ := hσ.locked i (by rw [hphase]; trivial)
    have hopen := hσ.pending i s hwriter
    rw [hphase] at hopen
    obtain hsame | ⟨row, hunused, hgrants, hfree⟩ := hopen
    · refine hσ.commit hwriter (by simp) ?_ (grown_of_eq hsame)
      exact (hσ.ledger.of_eq hsame).quiet (by simp)
    · refine hσ.commit hwriter (by simp) ?_ ?_
      · exact (hσ.ledger.inserted hunused hgrants hfree).quiet (by simp)
      · exact fun g hg => recorded_of_mem (hgrants ▸ List.mem_append_left _ hg)

/-- Every step keeps the invariant. -/
lemma Sound.step (hσ : Sound P t log σ) (label : Label) :
    Sound P t (log ++ (step P σ label).2) (step P σ label).1 := by
  cases label with
  | call i c =>
    simp only [Concurrent.step]
    split
    · rename_i hphase
      refine hσ.turn (by simp [Shown.conn, Shown.Quiet]) (fun s hwriter => ?_) id trivial
      have hopen := hσ.pending i s hwriter
      rw [hphase] at hopen
      exact hopen
    · simpa using hσ
  | advance i => exact hσ.advance i
  | fail i =>
    have hclean (hplain : Pending (σ.phase i) = Pending .idle) : ∀ s, σ.db.writer = some (i, s) →
        Pending .idle σ.db.committed s := by
      intro s hwriter
      have hopen := hσ.pending i s hwriter
      rwa [hplain] at hopen
    simp only [Concurrent.step]
    cases hphase : σ.phase i with
    | idle | broken => simpa using hσ
    | charged | written =>
      exact hσ.turn (by simp [Shown.conn, Shown.Quiet]) (fun _ _ => trivial) id trivial
    | calling | scanning | updating | inserting =>
      refine hσ.turn (by simp [Shown.conn, Shown.Quiet]) (hclean ?_) id trivial
      rw [hphase]
      rfl
  | close i =>
    simp only [Concurrent.step]
    have hcommitted := Db.rollback_committed i σ.db
    refine hσ.next (by simp) ?_ ?_ ?_ ?_ trivial
    · rw [hcommitted]
      exact hσ.ledger.quiet (by simp)
    · rw [hcommitted]
      exact grown_of_eq rfl
    · intro j s hwriter
      obtain ⟨hwriter, hj⟩ := Db.rollback_writer hwriter
      rw [if_neg hj, hcommitted]
      exact hσ.pending j s hwriter
    · intro j hcommitting
      by_cases hj : j = i
      · rw [if_pos hj] at hcommitting
        exact hcommitting.elim
      · rw [if_neg hj] at hcommitting
        obtain ⟨s, hwriter⟩ := hσ.locked j hcommitting
        refine ⟨s, ?_⟩
        simp only [Db.rollback, hwriter, if_neg hj]

lemma sound_start (P : Platform) (hkeys : Keyed t.grants) : Sound P t [] (Sys.start t) where
  ledger := ⟨hkeys, fun _ => rfl, fun _ _ _ _ _ _ => .inl rfl, grown_of_eq rfl⟩
  pending _ _ hwriter := by cases hwriter
  locked _ hcommitting := hcommitting.elim
  followed _ := trivial

lemma sound_run (P : Platform) (hkeys : Keyed t.grants) (labels : List Label) :
    Sound P t (Run.events (Concurrent.step P) (Sys.start t) labels)
      (Run.final (Concurrent.step P) (Sys.start t) labels) := by
  have hrun := Run.log_invariant_of_meets (J := Sound P t) (C := fun _ _ => True)
    (fun log σ label hσ _ => hσ.step label) (sound_start P hkeys)
    (Run.meets_of_forall (fun _ _ => trivial) (Sys.start t) labels)
  rwa [List.nil_append] at hrun

end Steps

/-! ## What a `True` stands for -/

section Results

variable {P : Platform} {t : Store} {σ : Sys} {i : ℕ}

/-- Where the events that speak of grants come from. -/
def Explained (σ : Sys) (label : Label) : Shown → Prop
  | .granted i r g => label = .advance i ∧ σ.phase i = .charged r g
  | .keyRead i deviceId key => (∃ r rows, σ.phase i = .scanning r rows) ∧
      Devices.activeSigningKey (σ.db.view i).control deviceId = some key
  | _ => True

lemma explained_scan {label : Label} {r : Request} {rows : List CapabilityGrant}
    (hphase : σ.phase i = .scanning r rows) : ∀ e ∈ (scan P σ i r rows).2, Explained σ label e := by
  unfold scan
  cases rows with
  | nil => simp [Explained]
  | cons g rows =>
    simp only
    split
    · simp
    · rename_i key hkey
      split
      · simp [Explained, hkey, hphase]
      · simp [Explained, hkey, hphase]
      · simp [Explained, hkey, hphase]

lemma explained_firstStatement {label : Label} {c : Call} :
    ∀ e ∈ (firstStatement P σ i c).2, Explained σ label e := by
  unfold firstStatement
  cases c with
  | verifyAndConsume r => simp
  | storeGrant fields signature =>
    simp only
    split
    · simp
    · simp [Explained]
  | revoke deviceId =>
    simp only
    split
    · simp
    · simp

lemma explained_step {label : Label} : ∀ e ∈ (step P σ label).2, Explained σ label e := by
  cases label with
  | call i c =>
    simp only [step]
    split
    · simp [Explained]
    · simp
  | close i => simp [step]
  | fail i =>
    simp only [step]
    split
    · simp
    · simp
    · simp [Explained]
    · simp [Explained]
    · simp [Explained]
  | advance i =>
    simp only [step]
    unfold advance
    split
    · simp
    · simp
    · exact explained_firstStatement
    · rename_i r rows hphase
      exact explained_scan hphase
    · split
      · simp
      · simp
    · split
      · simp
      · split
        · simp [Explained]
        · simp
    · rename_i r g hphase
      simp [Explained, hphase]
    · simp

/-- **Budgets hold under concurrency.**  In every interleaving of the statements of any calls on any
connections, no grant is charged more often than its budget allows, and every `True` stands for one
count that goes up by one on a grant in scope whose signature verified. -/
theorem budgets_hold (P : Platform) {t : Store} (hkeys : Keyed t.grants) (labels : List Label) :
    Budgeted P t labels := by
  have hσ := sound_run P hkeys labels
  refine ⟨hσ.ledger.keyed, ?_, hσ.ledger.counted, ?_, hσ.ledger.grown⟩
  · intro g hg id max hid hmax
    obtain hnone | hle := hσ.ledger.budget g hg id max hid hmax
    · exact .inl hnone
    · right
      have hcounted := hσ.ledger.counted id
      rw [used_eq hσ.ledger.keyed hg hid] at hcounted
      omega
  · intro label i r g hgranted
    obtain ⟨rfl, hphase⟩ := explained_step _ hgranted
    obtain ⟨hpassed, hid, before, after, hrows, hwriter⟩ := hσ.charge hphase
    obtain ⟨key, huse, readBefore, readAfter, hlog, hbegan⟩ := hpassed.read
    obtain ⟨signingKey, payload, signature, hkey, hpayload, hsignature, hverified, hunexpired, -⟩ :=
      judge_eq_use hpassed.selects huse
    obtain rfl := Option.some.inj hkey
    have hselects := hpassed.selects
    simp only [Request.selects, decide_eq_true_eq] at hselects
    refine ⟨hid, ⟨before, after, hrows, ?_⟩, ⟨hselects.1, hselects.2.1⟩, hunexpired, ?_⟩
    · simp [step, advance, hphase, Db.commit, hwriter, Sys.setPhase, Db.idle]
    · refine ⟨key, payload, signature, hpayload, hsignature, hverified, ?_⟩
      -- The step that read the key, and the run up to it.
      obtain ⟨pre, label, post, rfl, hread, hlater⟩ := Run.exists_step_of_events hlog
      have hpre := sound_run P hkeys pre
      obtain ⟨⟨r', rows, hscanning⟩, hactive⟩ := explained_step _ hread
      refine ⟨pre, label, post, rfl, hread, fun hmem => hbegan (hlater _ hmem), ?_⟩
      rw [hpre.view_eq (by rw [hscanning]; exact fun _ h => h)] at hactive
      exact hactive

end Results

/-! ## One call alone -/

section Alone

variable {P : Platform} {σ σ' : Sys} {i : ℕ} {r : Request}

/-- Left alone, the call on the connection ends with an answer and sees the database as given. -/
def EndsWith (P : Platform) (σ : Sys) (i : ℕ) (r : Request) (result : Answer × Store) : Prop :=
  ∃ n, (Run.final (step P) σ (.replicate n (.advance i))).phase i = .idle ∧
    (Run.final (step P) σ (.replicate n (.advance i))).db.view i = result.2 ∧
      ((∃ g, .granted i r g ∈ Run.events (step P) σ (.replicate n (.advance i))) ↔
        result.1 = .returned true)

lemma EndsWith.step {result : Answer × Store} (h : EndsWith P σ' i r result)
    (hstep : (step P σ (.advance i)).1 = σ') (hquiet : ∀ e ∈ (step P σ (.advance i)).2, e.Quiet) :
    EndsWith P σ i r result := by
  obtain ⟨n, hphase, hview, hevents⟩ := h
  refine ⟨n + 1, ?_, ?_, ?_⟩
  · rwa [List.replicate_succ, Run.final_cons, hstep]
  · rwa [List.replicate_succ, Run.final_cons, hstep]
  · rw [List.replicate_succ, Run.events_cons, hstep, ← hevents]
    refine exists_congr fun g => ?_
    rw [List.mem_append, or_iff_right]
    exact hquiet _

/-- The last step of a call that does not return `True`. -/
lemma endsWith_last {answer : Answer} {s : Store} (hanswer : answer ≠ .returned true)
    (hphase : (step P σ (.advance i)).1.phase i = .idle)
    (hview : (step P σ (.advance i)).1.db.view i = s)
    (hquiet : ∀ e ∈ (step P σ (.advance i)).2, e.Quiet) : EndsWith P σ i r (answer, s) := by
  have hafter : EndsWith P (Concurrent.step P σ (.advance i)).1 i r (answer, s) :=
    ⟨0, hphase, hview, by simp [hanswer]⟩
  exact hafter.step rfl hquiet

/-- The statements of the loop are the loop. -/
lemma endsWith_consume {rows : List CapabilityGrant} {s : Store}
    (hphase : σ.phase i = .scanning r rows) (hbase : σ.db.base i = some s) :
    EndsWith P σ i r (consume P r rows s) := by
  have hview := Db.view_of_base hbase
  induction rows generalizing σ s with
  | nil =>
    refine endsWith_last (by decide) ?_ ?_ ?_
    · simp [step, advance, hphase, scan, Sys.setPhase]
    · simp [step, advance, hphase, scan, Sys.setPhase, hview]
    · simp [step, advance, hphase, scan, Shown.Quiet]
  | cons g rows ih =>
    have hscan : step P σ (.advance i) = scan P σ i r (g :: rows) := by
      simp [step, advance, hphase]
    unfold scan at hscan
    rw [hview] at hscan
    simp only at hscan
    have hrest : EndsWith P (σ.setPhase i (.scanning r rows)) i r (consume P r rows s) :=
      ih (by simp [Sys.setPhase]) hbase hview
    unfold consume
    cases hkey : Devices.activeSigningKey s.control g.deviceId with
    | none =>
      rw [hkey] at hscan
      exact hrest.step (by rw [hscan]) (by rw [hscan]; simp)
    | some key =>
      rw [hkey] at hscan
      cases hjudged : judge P r (some key) g with
      | skip =>
        simp only [hjudged] at hscan ⊢
        exact hrest.step (by rw [hscan]) (by rw [hscan]; simp [Shown.Quiet])
      | raises =>
        simp only [hjudged] at hscan ⊢
        refine endsWith_last (by decide) ?_ ?_ ?_
        · rw [hscan]
          simp [Sys.setPhase]
        · rw [hscan]
          exact hview
        · rw [hscan]
          simp [Shown.Quiet]
      | use =>
        simp only [hjudged] at hscan ⊢
        suffices hrest : EndsWith P (σ.setPhase i (.updating r g rows)) i r _ from
          hrest.step (by rw [hscan]) (by rw [hscan]; simp [Shown.Quiet])
        have hupdate : step P (σ.setPhase i (.updating r g rows)) (.advance i) =
            ({ σ with db := σ.db.hold i (charge g s) }.setPhase i
              (if rowcount g s = 1 then .charged r g else .scanning r rows), []) := by
          have hbase' : (σ.setPhase i (.updating r g rows)).db.base i = some s := hbase
          simp only [step, advance, Sys.setPhase_phase, hbase', Sys.setPhase_setPhase]
          rfl
        refine EndsWith.step ?_ (by rw [hupdate]) (by rw [hupdate]; simp)
        by_cases hcount : rowcount g s = 1
        · rw [if_pos hcount, if_pos hcount]
          refine ⟨1, ?_, ?_, ?_⟩
          · simp [step, advance, Sys.setPhase]
          · simp [step, advance, Sys.setPhase, Db.commit, Db.view]
          · simp [step, advance, Sys.setPhase]
        · rw [if_neg hcount, if_neg hcount]
          exact ih (by simp [Sys.setPhase]) (Db.base_hold) (Db.view_of_base Db.base_hold)

/-- **The statements of a call are the call.**  Where nothing comes between them, `verify_and_consume`
returns and leaves what its uninterrupted run does. -/
theorem endsWith_verifyAndConsume (P : Platform) (s : Store) (i : ℕ) (r : Request) :
    EndsWith P (step P (Sys.start s) (.call i (.verifyAndConsume r))).1 i r
      (verifyAndConsume P r s) := by
  have hbegun : (step P (Sys.start s) (.call i (.verifyAndConsume r))).1 =
      (Sys.start s).setPhase i (.calling (.verifyAndConsume r)) := rfl
  rw [hbegun]
  have hselect : step P ((Sys.start s).setPhase i (.calling (.verifyAndConsume r))) (.advance i) =
      ((Sys.start s).setPhase i (.scanning r (s.grants.filter r.selects)), []) := by
    simp only [step, advance, Sys.setPhase_phase, firstStatement]
    exact congrArg (·, []) (Sys.setPhase_setPhase _ _ i _ _)
  have hloop : EndsWith P ((Sys.start s).setPhase i (.scanning r (s.grants.filter r.selects))) i r
      (consume P r (s.grants.filter r.selects) s) := endsWith_consume (by simp [Sys.setPhase]) rfl
  exact hloop.step (by rw [hselect]) (by rw [hselect]; simp)

end Alone

section Sample

/-- Two calls that read the same row before either charges it; the second finds the count changed. -/
def racingCalls : List Label :=
  [.call 0 (.verifyAndConsume ⟨"MARK_READ", "cnv_1", 2000⟩),
    .call 1 (.verifyAndConsume ⟨"MARK_READ", "cnv_1", 2000⟩), .advance 0, .advance 1, .advance 0,
    .advance 1, .advance 0, .advance 0, .advance 1, .advance 1]

/-- The rule on a race: one of the two calls returns `True`. -/
theorem budgets_hold_race :
    trues (Run.events (step (grantPlatform "acc_1")) (Sys.start (grantStore "acc_1")) racingCalls)
      "cap_1" = 1 ∧
    Budgeted (grantPlatform "acc_1") (grantStore "acc_1") racingCalls :=
  ⟨by decide +kernel, budgets_hold (grantPlatform "acc_1") (by unfold Keyed; decide) racingCalls⟩

end Sample

end WhatsVault.Capabilities.Concurrent
