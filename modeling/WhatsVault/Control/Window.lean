import WhatsVault.Control.Schema
import WhatsVault.Json

/-!
# The 24-hour window projection

`lastInboundMs` reads the stored projection the way every reader of it does, with 0 for a
conversation that has no row.  `advanceWindow` is the live path's monotonic update and
`windowOpen` the question the send policy asks.
-/

namespace WhatsVault.Control

def windowMs : ℤ := 24 * 3600 * 1000

/-- `row[0] if row else 0`. -/
def lastInboundMs (c : Control) (conversationId : String) : ℤ :=
  (c.window conversationId).elim 0 ConversationWindow.lastInboundMs

lemma lastInboundMs_nonneg (c : Control) (conversationId : String) :
    0 ≤ c.lastInboundMs conversationId := by
  unfold lastInboundMs
  cases c.window conversationId with
  | none => exact le_rfl
  | some row => exact row.nonneg

/-- The row `advance_window` writes. -/
def advancedRow (conversationId : String) (incomingProviderMs : ℤ) (c : Control) :
    ConversationWindow where
  conversationId := conversationId
  lastInboundMs := max (c.lastInboundMs conversationId) incomingProviderMs
  nonneg := le_max_of_le_left (c.lastInboundMs_nonneg conversationId)

/-- The upsert on `conversation_windows`. -/
def putWindow (c : Control) (row : ConversationWindow) : Control :=
  { c with
    conversationWindows := Table.upsert ConversationWindow.conversationId row c.conversationWindows }

/-- `doctor.advance_window`; it raises only on a value SQLite cannot store. -/
def advanceWindow (conversationId : String) (incomingProviderMs : ℤ) (c : Control) :
    Option Control :=
  let row := c.advancedRow conversationId incomingProviderMs
  if fitsInt64 row.lastInboundMs then some (c.putWindow row) else none

/-- `sender._window_open`. -/
def windowOpen (c : Control) (conversationId : String) (nowMs : ℤ) : Bool :=
  0 < c.lastInboundMs conversationId ∧ nowMs < c.lastInboundMs conversationId + windowMs

lemma advanceWindow_eq_some {conversationId : String} {incoming : ℤ} {c c' : Control}
    (h : c.advanceWindow conversationId incoming = some c') :
    c' = c.putWindow (c.advancedRow conversationId incoming) := by
  unfold advanceWindow at h
  simp only [Option.ite_none_right_eq_some, Option.some.injEq] at h
  exact h.2.symm

lemma window_putWindow (c : Control) (row : ConversationWindow) (conversationId : String) :
    (c.putWindow row).window conversationId =
      if row.conversationId = conversationId then some row else c.window conversationId :=
  Table.find_upsert row c.conversationWindows conversationId

/-- `advance_window` raises the one conversation's value to the incoming one and leaves the
others alone. -/
theorem lastInboundMs_advanceWindow {conversationId : String} {incoming : ℤ} {c c' : Control}
    (h : c.advanceWindow conversationId incoming = some c') (other : String) :
    c'.lastInboundMs other =
      if conversationId = other then max (c.lastInboundMs other) incoming
      else c.lastInboundMs other := by
  rw [advanceWindow_eq_some h]
  by_cases hc : conversationId = other
  · subst hc
    simp [lastInboundMs, window_putWindow, advancedRow]
  · simp [lastInboundMs, window_putWindow, advancedRow, hc]

/-- An open window has a row with a positive value less than 24 hours back. -/
lemma windowOpen_iff {c : Control} {conversationId : String} {nowMs : ℤ} :
    c.windowOpen conversationId nowMs = true ↔
      ∃ row, c.window conversationId = some row ∧ 0 < row.lastInboundMs ∧
        nowMs < row.lastInboundMs + windowMs := by
  rcases h : c.window conversationId with _ | row
  · simp [windowOpen, lastInboundMs, h]
  · simp [windowOpen, lastInboundMs, h]

end WhatsVault.Control
