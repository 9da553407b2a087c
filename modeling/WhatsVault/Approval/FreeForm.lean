import WhatsVault.Approval.Operations

/-!
# Free-form text and the 24-hour window

The window rule of the policy applies to the kind `text` only, while the sender hands every draft to
`send_text` whatever its kind.  So a draft of kind `text` is sent inside an open window only
(`transmissions_inside_window`), and a signed draft of another kind with a recipient is sent as text
with no window at all (`sent_without_window`).
-/

namespace WhatsVault.Approval

open Transaction Sender

/-- A draft that the envelope names and signs is of kind `text`, unless it has no recipient, in
which case the policy refuses it. -/
def SignsText (P : Platform) (s : Process) : Op → Prop
  | .executeWrite env .. =>
    ∀ draftId d, env.draftId = some draftId → s.control.working.draft draftId = some d →
      SignsDraft P s.control.working env d → d.kind = .text ∨ d.recipientWaId.getD "" = ""
  | _ => True

/-- Every message this step hands to the provider is for a stored draft whose conversation has a
window row with a positive value less than 24 hours back. -/
def InsideWindow (P : Platform) (S : Stdlib) (s : Process) : Op → Prop
  | .executeWrite env reading attemptId crash reply =>
    ∀ permit now p r b,
      .sendText permit now p r b ∈
        (step P S s (.executeWrite env reading attemptId crash reply)).2 →
      s.control.working.draft permit.draft.id = some permit.draft ∧
      ∃ row, s.control.working.window permit.draft.conversationId = some row ∧
        0 < row.lastInboundMs ∧ now < row.lastInboundMs + 24 * 3600 * 1000
  | _ => True

lemma insideWindow_of_signsText {P : Platform} {S : Stdlib} {s : Process} {op : Op}
    (h : SignsText P s op) : InsideWindow P S s op := by
  cases op with
  | call call => trivial
  | restart => trivial
  | executeWrite env reading attemptId crash reply =>
    intro permit now p r b hsend
    obtain ⟨rfl, hauth, -⟩ :=
      (executeWrite_cases P env reading attemptId crash reply s).sendText hsend
    obtain ⟨hrecipient, hwindow, -⟩ := (evaluate_ok_iff _).mp hauth.policy
    have hkind : permit.draft.kind = .text := by
      rcases h _ _ hauth.draftId hauth.draft hauth.signsDraft with hkind | hnone
      · exact hkind
      · exact absurd hnone hrecipient
    have hopen : s.control.working.windowOpen permit.draft.conversationId now = true :=
      hwindow (by rw [sendContext, hkind]; rfl)
    exact ⟨hauth.draft, Control.windowOpen_iff.mp hopen⟩

/-- **Free-form text only inside an open window**, in every run that sends only drafts of kind
`text`. -/
theorem transmissions_inside_window (P : Platform) (S : Stdlib) (ops : List Op)
    (htext : Run.Meets (step P S) (SignsText P) start ops) :
    Run.Meets (step P S) (InsideWindow P S) start ops :=
  htext.mono fun _ _ => insideWindow_of_signsText

/-- A computable condition that implies `SignsText`: the envelope names a draft of kind `text`. -/
def namesText (s : Process) : Op → Bool
  | .executeWrite env .. =>
    (env.draftId.bind s.control.working.draft).all fun d => d.kind = .text
  | _ => true

lemma signsText_of_namesText {P : Platform} {s : Process} {op : Op}
    (h : namesText s op = true) : SignsText P s op := by
  cases op with
  | executeWrite env reading attemptId crash reply =>
    intro draftId d hdraftId hd _
    left
    simpa [namesText, hdraftId, hd] using h
  | call call => trivial
  | restart => trivial

/-- The theorem on a run that sends a text draft. -/
theorem transmissions_inside_window_sample_run :
    transmissions (Run.events (step (signedOnce (samplePayload "PN1" "text")) sampleStdlib) start
      (.call (.advanceWindow "cnv_1" 1500) :: sampleRun "PN1" "text")) = ["drf_1"] ∧
    Run.Meets (step (signedOnce (samplePayload "PN1" "text")) sampleStdlib)
      (InsideWindow (signedOnce (samplePayload "PN1" "text")) sampleStdlib) start
      (.call (.advanceWindow "cnv_1" 1500) :: sampleRun "PN1" "text") := by
  have htext : Run.Meets (step (signedOnce (samplePayload "PN1" "text")) sampleStdlib)
      (fun s op => namesText s op = true) start
      (.call (.advanceWindow "cnv_1" 1500) :: sampleRun "PN1" "text") := by decide
  exact ⟨by decide +kernel, transmissions_inside_window _ _ _
    (htext.mono fun _ _ => signsText_of_namesText)⟩

/-- A draft of kind `template` is sent as text while its conversation has no window row. -/
theorem sent_without_window :
    ∃ permit, .sendText permit 2000 "PN1" (some "61999") "hi" ∈
        Run.events (step (signedOnce (samplePayload "PN1" "template")) sampleStdlib) start
          (sampleRun "PN1" "template") ∧
      ∀ n, (Run.final (step (signedOnce (samplePayload "PN1" "template")) sampleStdlib) start
        ((sampleRun "PN1" "template").take n)).control.working.window
          permit.draft.conversationId = none := by
  refine ⟨⟨sampleDraft "PN1" "template", "dev_1", sampleKey, sampleSignature,
    samplePayload "PN1" "template", utf8 "hi"⟩, by decide +kernel, fun n => ?_⟩
  match n with
  | 0 | 1 | 2 => rfl
  | n + 3 =>
    have htake : (sampleRun "PN1" "template").take (n + 3) = sampleRun "PN1" "template" :=
      List.take_of_length_le (by simp [sampleRun])
    rw [htake]
    decide +kernel

end WhatsVault.Approval
