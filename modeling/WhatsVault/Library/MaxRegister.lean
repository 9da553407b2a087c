import Mathlib.Order.MinMax
import WhatsVault.Library.Run

/-!
# A register that holds the maximum of its evidence

Evidence accumulates, and a register stores its maximum.  A *raiser* adds a piece of evidence, then
reads the register and writes back the maximum of the two.  A *repairer* reads the maximum of the
evidence, then the register, and writes the former over the latter where they differ.  Neither looks
again at what it read before it writes.

`settled` is what the register will hold when the raiser is done.  Once the repairer has finished it
equals the evidence, as long as the repairer's write is covered: what it read, with whatever the
raiser has under way, is the maximum of the evidence at the time of the write
(`settled_of_meets`).
-/

namespace MaxRegister

/-- A piece of evidence on its way into the register. -/
inductive Raiser (τ : Type*)
  | idle
  | pending (t : τ)
  /-- The register was read, and this is to be written. -/
  | computed (v : τ)

inductive Repairer (τ : Type*)
  | ready
  | evidenceRead (e : τ)
  | storedRead (e stored : τ)
  | finished
  | failed

structure Reg (τ : Type*) where
  evidence : τ
  stored : τ
  raiser : Raiser τ
  repairer : Repairer τ

inductive Move (τ : Type*)
  | observe (t : τ)
  | read
  | write
  | readEvidence
  | readStored
  | repair
  | fail
  | skip

variable {τ : Type*} [LinearOrder τ]

/-- What a register that holds `base` will hold when the raiser is done. -/
def settledFrom (base : τ) : Raiser τ → τ
  | .idle => base
  | .pending t => max base t
  | .computed v => v

def Reg.settled (r : Reg τ) : τ := settledFrom r.stored r.raiser

def step (r : Reg τ) : Move τ → Reg τ × List Unit
  | .observe t =>
    match r.raiser with
    | .idle => ({ r with evidence := max r.evidence t, raiser := .pending t }, [])
    | _ => (r, [])
  | .read =>
    match r.raiser with
    | .pending t => ({ r with raiser := .computed (max r.stored t) }, [])
    | _ => (r, [])
  | .write =>
    match r.raiser with
    | .computed v => ({ r with stored := v, raiser := .idle }, [])
    | _ => (r, [])
  | .readEvidence =>
    match r.repairer with
    | .ready => ({ r with repairer := .evidenceRead r.evidence }, [])
    | _ => (r, [])
  | .readStored =>
    match r.repairer with
    | .evidenceRead e => ({ r with repairer := .storedRead e r.stored }, [])
    | _ => (r, [])
  | .repair =>
    match r.repairer with
    | .storedRead e stored =>
      if stored = e then ({ r with repairer := .finished }, [])
      else ({ r with stored := e, repairer := .finished }, [])
    | _ => (r, [])
  | .fail =>
    match r.repairer with
    | .finished => (r, [])
    | _ => ({ r with repairer := .failed }, [])
  | .skip => (r, [])

/-- A repair that writes is covered by the evidence of its time. -/
def Covered (r : Reg τ) : Move τ → Prop
  | .repair =>
    match r.repairer with
    | .storedRead e stored => stored ≠ e → settledFrom e r.raiser = r.evidence
    | _ => True
  | _ => True

/-! ## The invariant -/

/-- Before the repairer writes, the raiser is up to date. -/
structure Fresh (r : Reg τ) : Prop where
  pending : ∀ t, r.raiser = .pending t → t ≤ r.evidence
  computed : ∀ v, r.raiser = .computed v → r.stored ≤ v ∧ v ≤ max r.stored r.evidence

def Sound (r : Reg τ) : Prop :=
  match r.repairer with
  | .ready => Fresh r
  | .evidenceRead e => Fresh r ∧ e ≤ r.evidence ∧ r.evidence ≤ max e r.settled
  | .storedRead e stored => Fresh r ∧ (stored = e → r.settled = r.evidence)
  | .finished => r.settled = r.evidence
  | .failed => True

variable {r : Reg τ}

/-- Before the repairer writes, what is stored is settled, up to the raiser. -/
lemma Fresh.stored_le_settled (h : Fresh r) : r.stored ≤ r.settled := by
  unfold Reg.settled settledFrom
  split
  · exact le_rfl
  · exact le_max_left _ _
  · rename_i v hv
    exact (h.computed v hv).1

lemma Fresh.settled_le (h : Fresh r) : r.settled ≤ max r.stored r.evidence := by
  unfold Reg.settled settledFrom
  split
  · exact le_max_left _ _
  · rename_i t ht
    exact max_le_max le_rfl (h.pending t ht)
  · rename_i v hv
    exact (h.computed v hv).2

/-- The three moves of the raiser leave the repairer alone, and settle what they observe. -/
structure Raises (r r' : Reg τ) : Prop where
  repairer : r'.repairer = r.repairer
  fresh : Fresh r → Fresh r'
  settles : (r'.evidence = r.evidence ∧ r'.settled = r.settled) ∨
    ∃ t, r'.evidence = max r.evidence t ∧ r'.settled = max r.settled t

lemma raises_refl (r : Reg τ) : Raises r r := ⟨rfl, id, .inl ⟨rfl, rfl⟩⟩

lemma raises_observe (r : Reg τ) (t : τ) : Raises r (step r (.observe t)).1 := by
  simp only [step]
  split
  · rename_i hidle
    refine ⟨rfl, fun h => ⟨fun u hu => ?_, fun v hv => (by cases hv)⟩, .inr ⟨t, rfl, ?_⟩⟩
    · cases hu
      exact le_max_right _ _
    · simp [Reg.settled, settledFrom, hidle]
  · exact raises_refl r

lemma raises_read (r : Reg τ) : Raises r (step r .read).1 := by
  simp only [step]
  split
  · rename_i t hpending
    refine ⟨rfl, fun h => ⟨fun u hu => (by cases hu), fun v hv => ?_⟩, .inl ⟨rfl, ?_⟩⟩
    · cases hv
      exact ⟨le_max_left _ _, max_le_max le_rfl (h.pending t hpending)⟩
    · simp [Reg.settled, settledFrom, hpending]
  · exact raises_refl r

lemma raises_write (r : Reg τ) : Raises r (step r .write).1 := by
  simp only [step]
  split
  · rename_i v hcomputed
    refine ⟨rfl, fun h => ⟨fun u hu => (by cases hu), fun w hw => (by cases hw)⟩,
      .inl ⟨rfl, ?_⟩⟩
    simp [Reg.settled, settledFrom, hcomputed]
  · exact raises_refl r

lemma Raises.sound {r' : Reg τ} (hr : Raises r r') (h : Sound r) : Sound r' := by
  unfold Sound at h ⊢
  rw [hr.repairer]
  cases hrepairer : r.repairer with
  | ready =>
    rw [hrepairer] at h
    exact hr.fresh h
  | evidenceRead e =>
    rw [hrepairer] at h
    obtain ⟨hfresh, hle, hcover⟩ := h
    refine ⟨hr.fresh hfresh, ?_⟩
    rcases hr.settles with ⟨hevidence, hsettled⟩ | ⟨t, hevidence, hsettled⟩
    · rw [hevidence, hsettled]
      exact ⟨hle, hcover⟩
    · rw [hevidence, hsettled]
      refine ⟨hle.trans (le_max_left _ _), ?_⟩
      rw [← max_assoc]
      exact max_le_max hcover le_rfl
  | storedRead e stored =>
    rw [hrepairer] at h
    obtain ⟨hfresh, hsame⟩ := h
    refine ⟨hr.fresh hfresh, fun heq => ?_⟩
    rcases hr.settles with ⟨hevidence, hsettled⟩ | ⟨t, hevidence, hsettled⟩
    · rw [hevidence, hsettled, hsame heq]
    · rw [hevidence, hsettled, hsame heq]
  | finished =>
    rw [hrepairer] at h
    rcases hr.settles with ⟨hevidence, hsettled⟩ | ⟨t, hevidence, hsettled⟩
    · rw [hevidence, hsettled, h]
    · rw [hevidence, hsettled, h]
  | failed => trivial

/-- A repairer that found the register at the evidence it read leaves it so. -/
lemma sound_readStored (h : Sound r) : Sound (step r .readStored).1 := by
  simp only [step]
  split
  · rename_i e hread
    unfold Sound at h
    rw [hread] at h
    obtain ⟨hfresh, hle, hcover⟩ := h
    refine ⟨⟨hfresh.pending, hfresh.computed⟩, fun heq => ?_⟩
    have hstored := hfresh.stored_le_settled
    have hsettled := hfresh.settled_le
    rw [heq] at hstored hsettled
    rw [max_eq_right hle] at hsettled
    rw [max_eq_right hstored] at hcover
    exact le_antisymm hsettled hcover
  · exact h

lemma sound_repair (h : Sound r) (hC : Covered r .repair) : Sound (step r .repair).1 := by
  simp only [step]
  split
  · rename_i e stored hread
    unfold Sound at h
    rw [hread] at h
    simp only [Covered, hread] at hC
    split
    · rename_i heq
      exact h.2 heq
    · rename_i hne
      exact hC hne
  · exact h

theorem sound_step (r : Reg τ) (move : Move τ) (h : Sound r) (hC : Covered r move) :
    Sound (step r move).1 := by
  cases move with
  | observe t => exact (raises_observe r t).sound h
  | read => exact (raises_read r).sound h
  | write => exact (raises_write r).sound h
  | readEvidence =>
    simp only [step]
    split
    · rename_i hready
      unfold Sound at h
      rw [hready] at h
      exact ⟨⟨h.pending, h.computed⟩, le_rfl, le_max_left _ _⟩
    · exact h
  | readStored => exact sound_readStored h
  | repair => exact sound_repair h hC
  | fail =>
    simp only [step]
    split
    · exact h
    · trivial
  | skip => exact h

/-- Nobody has begun. -/
def Reg.start (evidence stored : τ) : Reg τ := ⟨evidence, stored, .idle, .ready⟩

/-- Once the repairer has finished, the register settles on the evidence. -/
theorem settled_of_meets (evidence stored : τ) {moves : List (Move τ)}
    (hC : Run.Meets step Covered (.start evidence stored) moves)
    (hfinished : (Run.final step (.start evidence stored) moves).repairer = .finished) :
    (Run.final step (.start evidence stored) moves).settled =
      (Run.final step (.start evidence stored) moves).evidence := by
  have hstart : Sound (Reg.start evidence stored) := by
    show Fresh (Reg.start evidence stored)
    exact ⟨fun t h => (by cases h), fun v h => (by cases h)⟩
  have hsound : Sound (Run.final step (.start evidence stored) moves) :=
    Run.invariant_of_meets (fun r move h hmove => sound_step r move h hmove) hstart hC
  unfold Sound at hsound
  rwa [hfinished] at hsound

end MaxRegister
