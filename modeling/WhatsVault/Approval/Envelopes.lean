import Mathlib.Data.Set.Finite.Basic
import WhatsVault.Approval.Operations

/-!
# Envelopes delivered again

The phone sends the same signed envelope until it hears that it arrived, and `accept_envelope` is to
answer a repeated one with the id it gave it before.  It finds the earlier row by draft, device,
decision and nonce, and in SQL a NULL nonce equals nothing.  So an envelope with a nonce is stored
once however often it comes, and one without a nonce is stored anew each time
(`acceptance_idempotent_iff`).
-/

namespace WhatsVault.Relay

open Checks

/-! ## The check and the insert apart -/

/-- What the structural check of `accept_envelope` reads off an envelope. -/
structure Checked where
  draftId : String
  deviceId : String
  decision : Decision
  signature : Bytes
  nonce : Option Bytes
  deriving DecidableEq

/-- `accept_envelope` up to its lookup. -/
def checkEnvelope (S : Stdlib) (envelope : Bytes) (c : Control) : Except Refusal Checked := do
  let env ← orStop (S.loads envelope) .raised
  let deviceId ← orStop ((env.get "device_id").bind (Json.bindText S)) .raised
  let device ← orStop (deviceId.bind c.device) (.rejected "unknown_or_inactive_device")
  require (device.status = .active) (.rejected "unknown_or_inactive_device")
  let sig ← orStop (hexEntry env "signature_hex") .raised
  require ((sig.getD []).length = 64) (.rejected "bad_signature_length")
  let decision ← orStop (env.get "decision") .raised
  let decision ← orStop (decision.encode.bind Decision.ofName) (.rejected "bad_decision")
  let draftId ← orStop ((env.get "draft_id").bind (Json.bindText S)) .raised
  let draft ← orStop (draftId.bind c.draft) (.rejected "unknown_draft")
  let nonce ← orStop (hexEntry env "nonce_hex") .raised
  pure ⟨draft.id, device.id, decision, sig.getD [], nonce⟩

/-- Its lookup and its INSERT. -/
def recordEnvelope (envelope : Bytes) (approvalId : String) (c : Control) (r : Checked) :
    Except Refusal Written :=
  match findApproval c r.draftId r.deviceId r.decision r.nonce with
  | some existing => pure ⟨existing.approvalId, false, c⟩
  | none => do
    let nonce ← orStop (checkNonce r.nonce) .raised
    let row := ⟨approvalId, r.draftId, r.deviceId, r.decision, r.signature, envelope, nonce⟩
    let control ← orStop (insertApproval row c) .raised
    pure ⟨approvalId, true, control⟩

variable {S : Stdlib} {envelope : Bytes} {approvalId : String} {c c' : Control} {w : Written}
  {r : Checked}

lemma acceptEnvelope_eq (S : Stdlib) (envelope : Bytes) (approvalId : String) (c : Control) :
    acceptEnvelope S envelope approvalId c =
      checkEnvelope S envelope c >>= recordEnvelope envelope approvalId c := by
  simp only [checkEnvelope, bind_assoc, pure_bind]
  rfl

/-- The check reads the devices and the drafts alone. -/
lemma checkEnvelope_congr (hdevices : c'.approvalDevices = c.approvalDevices)
    (hdrafts : c'.drafts = c.drafts) : checkEnvelope S envelope c' = checkEnvelope S envelope c := by
  have hdevice : c'.device = c.device := by
    funext id
    rw [Control.device, hdevices, Control.device]
  have hdraft : c'.draft = c.draft := by
    funext id
    rw [Control.draft, hdrafts, Control.draft]
  simp only [checkEnvelope, hdevice, hdraft]

/-- The envelope has a nonce: `env.get("nonce_hex")` is neither missing nor empty. -/
def CarriesNonce (S : Stdlib) (envelope : Bytes) : Prop :=
  ∃ env v, S.loads envelope = some env ∧ env.get "nonce_hex" = some v ∧ v.truthy = true

lemma hexEntry_eq_some {env : Json} {key : String} {entry : Option Bytes}
    (h : hexEntry env key = some entry) :
    ∃ v, env.get key = some v ∧ (v.truthy = true ↔ entry.isSome) := by
  simp only [hexEntry, Option.bind_eq_bind, Option.bind_eq_some_iff] at h
  obtain ⟨v, hv, h⟩ := h
  refine ⟨v, hv, ?_⟩
  split at h
  · rename_i htruthy
    obtain ⟨b, -, rfl⟩ := Option.map_eq_some_iff.mp h
    simp [htruthy]
  · rename_i hempty
    obtain rfl := Option.some.inj h
    simpa using hempty

lemma nonce_isSome_iff (h : checkEnvelope S envelope c = .ok r) :
    r.nonce.isSome ↔ CarriesNonce S envelope := by
  simp only [checkEnvelope, bind_eq_ok, orStop_eq_ok, require_eq_ok, pure_eq_ok] at h
  obtain ⟨env, hloads, -, -, -, -, -, -, -, -, -, -, -, -, -, -, -, -, -, -, nonce, hnonce, rfl⟩ := h
  obtain ⟨v, hv, htruthy⟩ := hexEntry_eq_some hnonce
  constructor
  · intro hsome
    exact ⟨env, v, hloads, hv, htruthy.mpr hsome⟩
  · rintro ⟨env', v', hloads', hv', htruthy'⟩
    obtain rfl := Option.some.inj (hloads.symm.trans hloads')
    obtain rfl := Option.some.inj (hv.symm.trans hv')
    exact htruthy.mp htruthy'

/-! ## Slots -/

/-- The columns of `UNIQUE(draft_id, device_id, decision, nonce)`. -/
abbrev Slot := String × String × Decision × Option Bytes

def slot (a : Approval) : Slot := (a.draftId, a.deviceId, a.decision, a.nonce.map Subtype.val)

def Checked.slot (r : Checked) : Slot := (r.draftId, r.deviceId, r.decision, r.nonce)

/-- The UNIQUE constraint on `approvals`; two NULL nonces do not collide. -/
def SlotsUnique (c : Control) : Prop :=
  c.approvals.Pairwise fun a b => a.nonce ≠ none → slot a ≠ slot b

lemma isSome_of_slot {a : Approval} (hslot : slot a = r.slot) (hne : a.nonce ≠ none) :
    r.nonce.isSome := by
  have hcolumn : a.nonce.map Subtype.val = r.nonce := congrArg (fun s : Slot => s.2.2.2) hslot
  rw [← hcolumn, Option.isSome_map]
  exact Option.isSome_iff_ne_none.mpr hne

lemma ne_none_of_slot {a : Approval} (hslot : slot a = r.slot) (hsome : r.nonce.isSome) :
    a.nonce ≠ none := by
  have hcolumn : a.nonce.map Subtype.val = r.nonce := congrArg (fun s : Slot => s.2.2.2) hslot
  rw [← hcolumn, Option.isSome_map] at hsome
  exact Option.isSome_iff_ne_none.mp hsome

/-- Under the constraint the first row with a slot is the only one. -/
lemma SlotsUnique.filter_slot (hc : SlotsUnique c) (hsome : r.nonce.isSome) {row : Approval}
    (hrow : (c.approvals.find? fun a => slot a = r.slot) = some row) :
    (c.approvals.filter fun a => slot a = r.slot) = [row] := by
  obtain ⟨hslot, before, after, hrows, hbefore⟩ := List.find?_eq_some_iff_append.mp hrow
  have hslot : slot row = r.slot := by simpa using hslot
  unfold SlotsUnique at hc
  rw [hrows] at hc ⊢
  have hafter := (List.pairwise_cons.mp (List.pairwise_append.mp hc).2.1).1
  have hnone₁ : (before.filter fun a => slot a = r.slot) = [] := by
    rw [List.filter_eq_nil_iff]
    intro a ha hsame
    simpa [hsame] using hbefore a ha
  have hnone₂ : (after.filter fun a => slot a = r.slot) = [] := by
    rw [List.filter_eq_nil_iff]
    intro a ha hsame
    exact hafter a ha (ne_none_of_slot hslot hsome) (hslot.trans (of_decide_eq_true hsame).symm)
  rw [List.filter_append, hnone₁, List.filter_cons_of_pos (by simpa using hslot), hnone₂]
  rfl

lemma findApproval_of_none (h : r.nonce = none) :
    findApproval c r.draftId r.deviceId r.decision r.nonce = none := by
  rw [findApproval, List.find?_eq_none]
  intro a _
  simp [matchesNullable, h]

lemma findApproval_of_some (h : r.nonce.isSome) :
    findApproval c r.draftId r.deviceId r.decision r.nonce =
      c.approvals.find? fun a => slot a = r.slot := by
  unfold findApproval
  congr 1
  funext a
  simp [matchesNullable, h, slot, Checked.slot]

lemma checkNonce_eq_some {b : Option Bytes} {nonce : Option Nonce} (h : checkNonce b = some nonce) :
    nonce.map Subtype.val = b := by
  rcases b with _ | b
  · obtain rfl := Option.some.inj h
    rfl
  · simp only [checkNonce] at h
    split at h
    · obtain rfl := Option.some.inj h
      rfl
    · cases h

/-- What recording an envelope does: it finds a row in the slot, or it puts one there. -/
lemma recordEnvelope_eq_ok (h : recordEnvelope envelope approvalId c r = .ok w) :
    (∃ a, findApproval c r.draftId r.deviceId r.decision r.nonce = some a ∧
      w = ⟨a.approvalId, false, c⟩) ∨
    ∃ row, findApproval c r.draftId r.deviceId r.decision r.nonce = none ∧ slot row = r.slot ∧
      (∀ a ∈ c.approvals, a.approvalId ≠ approvalId) ∧ row.approvalId = approvalId ∧
      w = ⟨approvalId, true, { c with approvals := c.approvals ++ [row] }⟩ := by
  unfold recordEnvelope at h
  split at h
  · rename_i a hfound
    left
    exact ⟨a, hfound, (pure_eq_ok.mp h).symm⟩
  · rename_i hnone
    right
    simp only [bind_eq_ok, orStop_eq_ok, pure_eq_ok, insertApproval, Option.map_eq_some_iff] at h
    obtain ⟨nonce, hnonce, control, ⟨approvals, hinsert, rfl⟩, rfl⟩ := h
    obtain ⟨hfree, rfl⟩ := Table.insert_eq_some_iff.mp hinsert
    refine ⟨_, hnone, ?_, hfree, rfl, rfl⟩
    rw [slot, checkNonce_eq_some hnonce, Checked.slot]

lemma exists_row (h : recordEnvelope envelope approvalId c r = .ok w) :
    ∃ a ∈ w.control.approvals, a.approvalId = w.id := by
  rcases recordEnvelope_eq_ok h with ⟨a, hfound, rfl⟩ | ⟨row, -, -, -, hid, rfl⟩
  · exact ⟨a, List.mem_of_find?_eq_some hfound, rfl⟩
  · exact ⟨row, by simp, hid⟩

/-- An envelope without a nonce is stored again under every id that is free. -/
lemma recordEnvelope_of_none (envelope : Bytes) (hnonce : r.nonce = none)
    (hfree : ∀ a ∈ c.approvals, a.approvalId ≠ approvalId) :
    ∃ w, recordEnvelope envelope approvalId c r = .ok w ∧ w.id = approvalId := by
  have hnone := findApproval_of_none (c := c) hnonce
  unfold recordEnvelope
  rw [hnone]
  simp only [bind_eq_ok, orStop_eq_ok, pure_eq_ok, insertApproval, Option.map_eq_some_iff]
  refine ⟨_, ⟨none, ?_, _, ⟨_, Table.insert_eq_some_iff.mpr ⟨hfree, rfl⟩, rfl⟩, rfl⟩, rfl⟩
  rw [hnonce]
  rfl

/-! ## Deliveries -/

/-- An envelope that reaches the relay, with the id `new_id` would draw for it. -/
structure Delivery where
  envelope : Bytes
  approvalId : String
  deriving DecidableEq

/-- The relay takes a delivery; the answer is an id, or none where the call raises. -/
def deliver (S : Stdlib) (c : Control) (d : Delivery) : Control × List (Option String) :=
  match acceptEnvelope S d.envelope d.approvalId c with
  | .ok w => (w.control, [some w.id])
  | .error _ => (c, [none])

/-- What deliveries keep: devices, drafts, and the approvals that are there, in their order. -/
structure Extends (c c' : Control) : Prop where
  devices : c'.approvalDevices = c.approvalDevices
  drafts : c'.drafts = c.drafts
  approvals : c.approvals <+: c'.approvals
  slots : SlotsUnique c → SlotsUnique c'

lemma Extends.refl (c : Control) : Extends c c := ⟨rfl, rfl, List.prefix_rfl, fun h => h⟩

lemma Extends.trans {c'' : Control} (h : Extends c c') (h' : Extends c' c'') : Extends c c'' :=
  ⟨h'.devices.trans h.devices, h'.drafts.trans h.drafts, h.approvals.trans h'.approvals,
    fun hc => h'.slots (h.slots hc)⟩

lemma acceptEnvelope_extends (h : acceptEnvelope S envelope approvalId c = .ok w) :
    Extends c w.control := by
  rw [acceptEnvelope_eq, bind_eq_ok] at h
  obtain ⟨r, -, h⟩ := h
  rcases recordEnvelope_eq_ok h with ⟨a, -, rfl⟩ | ⟨row, hnone, hslot, -, -, rfl⟩
  · exact Extends.refl c
  · refine ⟨rfl, rfl, List.prefix_append _ _, fun hc => ?_⟩
    refine List.pairwise_append.mpr ⟨hc, List.pairwise_singleton _ _, fun a ha b hb hne heq => ?_⟩
    obtain rfl := List.mem_singleton.mp hb
    have hsome : r.nonce.isSome := isSome_of_slot (heq.trans hslot) hne
    rw [findApproval_of_some hsome, List.find?_eq_none] at hnone
    exact hnone a ha (by simpa using heq.trans hslot)

lemma deliver_extends (S : Stdlib) (c : Control) (d : Delivery) : Extends c (deliver S c d).1 := by
  unfold deliver
  split
  · rename_i w h
    exact acceptEnvelope_extends h
  · exact Extends.refl c

lemma deliveries_extend (S : Stdlib) (c : Control) (ds : List Delivery) :
    Extends c (Run.final (deliver S) c ds) :=
  Run.invariant (I := Extends c) (fun c' d h => h.trans (deliver_extends S c' d)) (Extends.refl c) ds

/-- The row an accepted envelope has, the first one in its slot where it has a nonce. -/
lemma accepted_row (h : recordEnvelope envelope approvalId c r = .ok w) (hsome : r.nonce.isSome) :
    ∃ a, (w.control.approvals.find? fun a => slot a = r.slot) = some a ∧ a.approvalId = w.id := by
  rcases recordEnvelope_eq_ok h with ⟨a, hfound, rfl⟩ | ⟨row, hnone, hslot, -, hid, rfl⟩
  · rw [findApproval_of_some hsome] at hfound
    exact ⟨a, hfound, rfl⟩
  · rw [findApproval_of_some hsome] at hnone
    refine ⟨row, ?_, hid⟩
    rw [List.find?_append, hnone]
    simp [hslot]

/-! ## Idempotence -/

/-- However often the envelope is delivered again, and whatever else is delivered between: it gets the
id it got at first and leaves the table alone, its slot holds one row, and what is refused leaves
the table alone. -/
structure Idempotent (S : Stdlib) (envelope : Bytes) (w : Written) : Prop where
  again : ∀ ds approvalId, ∃ w',
    acceptEnvelope S envelope approvalId (Run.final (deliver S) w.control ds) = .ok w' ∧
      w'.id = w.id ∧ w'.control.approvals = (Run.final (deliver S) w.control ds).approvals
  single : ∃ row, row.approvalId = w.id ∧ ∀ ds,
    ((Run.final (deliver S) w.control ds).approvals.filter fun a => slot a = slot row) = [row]
  refused : ∀ ds d, (deliver S (Run.final (deliver S) w.control ds) d).2 = [none] →
    (deliver S (Run.final (deliver S) w.control ds) d).1.approvals =
      (Run.final (deliver S) w.control ds).approvals

lemma refused_unchanged {d : Delivery} (h : (deliver S c d).2 = [none]) : (deliver S c d).1 = c := by
  unfold deliver at h ⊢
  rcases hran : acceptEnvelope S d.envelope d.approvalId c with e | w
  · rfl
  · rw [hran] at h
    simp at h

lemma idempotent_of_nonce (hc : SlotsUnique c) (hcheck : checkEnvelope S envelope c = .ok r)
    (h : recordEnvelope envelope approvalId c r = .ok w) (hsome : r.nonce.isSome) :
    Idempotent S envelope w := by
  have haccepted : acceptEnvelope S envelope approvalId c = .ok w := by
    rw [acceptEnvelope_eq, hcheck]
    exact h
  have hext := acceptEnvelope_extends haccepted
  obtain ⟨row, hrow, hid⟩ := accepted_row h hsome
  have hslot : slot row = r.slot := by simpa using List.find?_some hrow
  -- the row stays the first one in its slot, whatever is stored behind it
  have hlater (ds : List Delivery) :
      ((Run.final (deliver S) w.control ds).approvals.find? fun a => slot a = r.slot) = some row := by
    obtain ⟨rows, hrows⟩ := (deliveries_extend S w.control ds).approvals
    rw [← hrows, List.find?_append, hrow]
    rfl
  refine ⟨fun ds approvalId' => ?_, ⟨row, hid, fun ds => ?_⟩, fun ds d hrefused => ?_⟩
  · have hall := hext.trans (deliveries_extend S w.control ds)
    refine ⟨⟨w.id, false, Run.final (deliver S) w.control ds⟩, ?_, rfl, rfl⟩
    have hfound := findApproval_of_some (c := Run.final (deliver S) w.control ds) hsome
    rw [acceptEnvelope_eq, checkEnvelope_congr hall.devices hall.drafts, hcheck, ok_bind,
      recordEnvelope, hfound, hlater ds, ← hid]
    rfl
  · have hunique := (hext.trans (deliveries_extend S w.control ds)).slots hc
    rw [hslot]
    exact hunique.filter_slot hsome (hlater ds)
  · rw [refused_unchanged hrefused]

lemma accepted_of_answer {d : Delivery} {id : String} (h : (deliver S c d).2 = [some id]) :
    ∃ w, acceptEnvelope S d.envelope d.approvalId c = .ok w := by
  unfold deliver at h
  split at h
  · rename_i w hran
    exact ⟨w, hran⟩
  · simp at h

/-- There is always an id that no row has. -/
lemma exists_free_id (rows : List Approval) : ∃ id, ∀ a ∈ rows, a.approvalId ≠ id := by
  have hinfinite : Infinite String := by
    apply Infinite.of_injective fun n : ℕ => String.ofList (List.replicate n 'x')
    intro m n h
    simpa using congrArg List.length (String.ofList_injective h)
  obtain ⟨id, hid⟩ := Infinite.exists_notMem_finset (rows.map Approval.approvalId).toFinset
  refine ⟨id, fun a ha heq => hid ?_⟩
  rw [List.mem_toFinset, ← heq]
  exact List.mem_map_of_mem ha

/-- **Repeated envelopes.**  An accepted envelope may be delivered again without effect exactly where
it carries a nonce. -/
theorem acceptance_idempotent_iff (hc : SlotsUnique c)
    (h : acceptEnvelope S envelope approvalId c = .ok w) :
    Idempotent S envelope w ↔ CarriesNonce S envelope := by
  have hext := acceptEnvelope_extends h
  rw [acceptEnvelope_eq, bind_eq_ok] at h
  obtain ⟨r, hcheck, hrecord⟩ := h
  rw [← nonce_isSome_iff hcheck]
  constructor
  · intro hidempotent
    by_contra hnone
    rw [Option.not_isSome_iff_eq_none] at hnone
    -- a NULL nonce is found by no lookup, so the second delivery is stored under a new id
    obtain ⟨id, hfree⟩ := exists_free_id w.control.approvals
    obtain ⟨w', haccepted, hid, -⟩ := hidempotent.again [] id
    obtain ⟨w'', hagain, hid'⟩ := recordEnvelope_of_none envelope hnone hfree
    rw [Run.final_nil, acceptEnvelope_eq, checkEnvelope_congr hext.devices hext.drafts, hcheck,
      ok_bind, hagain] at haccepted
    obtain rfl := Except.ok.inj haccepted
    obtain ⟨a, ha, haid⟩ := exists_row hrecord
    exact hfree a ha (haid.trans (hid.symm.trans hid'))
  · exact idempotent_of_nonce hc hcheck hrecord

section Sample

open Approval

/-- A control database with the sample device and the sample draft. -/
def sampleControl : Control :=
  { Control.empty with
    approvalDevices := [⟨"dev_1", "phone", sampleKey, none, none, .active⟩]
    drafts := [sampleDraft "PN1" "text"] }

/-- The device's decision as it comes over the wire, with a nonce or without. -/
def sampleWire (decision : String) (signature : Bytes) (nonceHex : List (PyStr × Json)) : Json :=
  .obj ([(.text "device_id", .str (.text "dev_1")), (.text "draft_id", .str (.text "drf_1")),
    (.text "decision", .str (.text decision)),
    (.text "signature_hex", .str (.text (hex signature)))] ++ nonceHex)

/-- The library that reads the empty byte string as an envelope without a nonce, and any other one as
an envelope with the nonce of the draft. -/
def wireStdlib : Stdlib :=
  { sampleStdlib with
    loads := fun b => some (sampleWire "APPROVE" sampleSignature (if b = [] then [] else
      [(.text "nonce_hex", .str (.text (hex sampleNonce.val)))])) }

/-- The rule on an envelope with a nonce: the second delivery finds the first one's row. -/
theorem acceptance_idempotent_iff_sample :
    ∃ w, acceptEnvelope wireStdlib [1] "apv_1" sampleControl = .ok w ∧
      Idempotent wireStdlib [1] w ∧ CarriesNonce wireStdlib [1] := by
  have hcarries : CarriesNonce wireStdlib [1] :=
    ⟨_, .str (.text (hex sampleNonce.val)), rfl, rfl, by decide⟩
  have hanswer : (deliver wireStdlib sampleControl ⟨[1], "apv_1"⟩).2 = [some "apv_1"] := by
    decide +kernel
  obtain ⟨w, hw⟩ := accepted_of_answer hanswer
  have hslots : SlotsUnique sampleControl := by simp [SlotsUnique, sampleControl, Control.empty]
  exact ⟨w, hw, (acceptance_idempotent_iff hslots hw).mpr hcarries, hcarries⟩

/-- The same bytes twice, without a nonce: two ids, and two rows for one decision. -/
theorem accepted_twice :
    let once := (deliver wireStdlib sampleControl ⟨[], "apv_1"⟩)
    let twice := (deliver wireStdlib once.1 ⟨[], "apv_2"⟩)
    once.2 = [some "apv_1"] ∧ twice.2 = [some "apv_2"] ∧
      twice.1.approvals.map slot =
        [("drf_1", "dev_1", .approve, none), ("drf_1", "dev_1", .approve, none)] := by
  decide +kernel

end Sample

end WhatsVault.Relay
