import Mathlib.Algebra.Order.Group.Int
import WhatsVault.Text

/-!
# The shared send policy and the clock guard

`evaluate` is the P1–P7 policy that preparation and sending both run.  Its context is a record
whose defaults are those of the `ctx.get` calls.  The free-form rule P2 looks at the window only
where the kind is `text` (`evaluate_ok_iff`), which is what the window results turn on.
-/

namespace WhatsVault

/-- The context of `policy.evaluate`. -/
structure PolicyContext where
  recipientWaId : Option String
  kind : String := "text"
  windowOpen : Bool
  accountOk : Bool := true
  nowMs : Option ℤ
  expiresAtMs : Option ℤ
  deviceActive : Bool := true
  rateOk : Bool := true
  recipientIsGroup : Bool := false

/-- `not (now is not None and exp is not None and now >= exp)`. -/
def unexpired : Option ℤ → Option ℤ → Bool
  | some now, some exp => now < exp
  | _, _ => true

/-- `policy.evaluate`: the codes of the checks that failed, in order.  The request is admitted
when there is none. -/
def evaluate (ctx : PolicyContext) : List String :=
  (if ctx.recipientWaId.getD "" = "" then ["P1_RECIPIENT_UNBOUND"] else []) ++
  (if ctx.kind = "text" ∧ ctx.windowOpen = false then ["P2_WINDOW_CLOSED"] else []) ++
  (if ctx.accountOk then [] else ["P3_ACCOUNT_BINDING"]) ++
  (if unexpired ctx.nowMs ctx.expiresAtMs then [] else ["P4_EXPIRED"]) ++
  (if ctx.deviceActive then [] else ["P5_DEVICE_INACTIVE"]) ++
  (if ctx.rateOk then [] else ["P6_RATE_LIMIT"]) ++
  (if ctx.recipientIsGroup then ["P7_GROUP_RECIPIENT"] else [])

/-- What an admitted context satisfies, check by check. -/
theorem evaluate_ok_iff (ctx : PolicyContext) :
    evaluate ctx = [] ↔
      ctx.recipientWaId.getD "" ≠ "" ∧ (ctx.kind = "text" → ctx.windowOpen = true) ∧
      ctx.accountOk = true ∧ unexpired ctx.nowMs ctx.expiresAtMs = true ∧
      ctx.deviceActive = true ∧ ctx.rateOk = true ∧ ctx.recipientIsGroup = false := by
  simp only [evaluate, List.append_eq_nil_iff, ite_eq_right_iff, ite_eq_left_iff, reduceCtorEq,
    imp_false, not_and, Bool.not_eq_false, Bool.not_eq_true, and_assoc, ne_eq]

/-- `ClockGuard`: the last reading it trusted. -/
structure ClockGuard where
  last : Option ℤ
  deriving DecidableEq

/-- `trusted_now` at a clock reading: `none` where it raises `ClockUntrusted`. -/
def ClockGuard.trustedNow (g : ClockGuard) (reading : ℤ) : Option (ℤ × ClockGuard) :=
  match g.last with
  | some last => if reading < last then none else some (reading, ⟨some reading⟩)
  | none => some (reading, ⟨some reading⟩)

lemma ClockGuard.trustedNow_eq_some {g g' : ClockGuard} {reading now : ℤ}
    (h : g.trustedNow reading = some (now, g')) : now = reading ∧ g' = ⟨some reading⟩ := by
  unfold trustedNow at h
  split at h
  · split at h
    · cases h
    · cases h
      exact ⟨rfl, rfl⟩
  · cases h
    exact ⟨rfl, rfl⟩

end WhatsVault
