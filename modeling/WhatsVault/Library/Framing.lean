import Mathlib.Data.List.Basic
import Mathlib.Algebra.Ring.Nat
import Mathlib.Data.Int.ModEq
import Mathlib.Tactic.Common

/-!
# Length-prefixed framing

Big-endian integers of a fixed width and the framing `uint(width)(length) ‖ bytes` that makes a
concatenation of variable-length chunks readable in one way only.  A chunk too long for its
prefix cannot be framed (`frame` is `none`), so injectivity needs no bound of its own: two chunk
lists that frame to the same bytes are equal (`frames_injective`), also when other bytes follow
(`frame_append_inj`).
-/

namespace Framing

abbrev Bytes := List UInt8

/-- The `width` low-order base-256 digits of `n`, most significant first. -/
def digits : ℕ → ℕ → Bytes
  | 0, _ => []
  | width + 1, n => digits width (n / 256) ++ [UInt8.ofNat n]

/-- `n.to_bytes(width, "big")`: `none` where the number does not fit. -/
def toBytes (width n : ℕ) : Option Bytes :=
  if n < 256 ^ width then some (digits width n) else none

@[simp] lemma length_digits (width n : ℕ) : (digits width n).length = width := by
  induction width generalizing n with
  | zero => rfl
  | succ width ih => simp [digits, ih]

lemma digits_inj {width m n : ℕ} (hm : m < 256 ^ width) (hn : n < 256 ^ width)
    (h : digits width m = digits width n) : m = n := by
  induction width generalizing m n with
  | zero => simp at hm hn; omega
  | succ width ih =>
    obtain ⟨hinit, hlast⟩ := List.append_inj' h rfl
    have hdiv : m / 256 = n / 256 := by
      refine ih ?_ ?_ hinit <;> rw [Nat.pow_succ] at hm hn <;> omega
    have hmod : m % 256 = n % 256 := by
      have hbyte : UInt8.ofNat m = UInt8.ofNat n := by simpa using hlast
      have hval := congrArg UInt8.toNat hbyte
      simpa using hval
    omega

lemma toBytes_eq_some {width n : ℕ} {b : Bytes} :
    toBytes width n = some b ↔ n < 256 ^ width ∧ digits width n = b := by
  simp [toBytes]

lemma length_of_toBytes {width n : ℕ} {b : Bytes} (h : toBytes width n = some b) :
    b.length = width := by
  obtain ⟨-, rfl⟩ := toBytes_eq_some.mp h
  exact length_digits width n

lemma toBytes_injective {width m n : ℕ} {b : Bytes} (hm : toBytes width m = some b)
    (hn : toBytes width n = some b) : m = n := by
  obtain ⟨hmlt, hmeq⟩ := toBytes_eq_some.mp hm
  obtain ⟨hnlt, hneq⟩ := toBytes_eq_some.mp hn
  exact digits_inj hmlt hnlt (hmeq.trans hneq.symm)

/-- `n.to_bytes(width, "big", signed=True)`: two's complement. -/
def toSignedBytes (width : ℕ) (n : ℤ) : Option Bytes :=
  let size : ℤ := ((256 ^ width : ℕ) : ℤ)
  if -size ≤ 2 * n ∧ 2 * n < size then some (digits width (n % size).toNat) else none

lemma length_of_toSignedBytes {width : ℕ} {n : ℤ} {b : Bytes} (h : toSignedBytes width n = some b) :
    b.length = width := by
  unfold toSignedBytes at h
  simp only [Option.ite_none_right_eq_some, Option.some.injEq] at h
  rw [← h.2]
  exact length_digits width _

lemma toSignedBytes_injective {width : ℕ} {m n : ℤ} {b : Bytes}
    (hm : toSignedBytes width m = some b) (hn : toSignedBytes width n = some b) : m = n := by
  unfold toSignedBytes at hm hn
  simp only [Option.ite_none_right_eq_some, Option.some.injEq] at hm hn
  obtain ⟨hmrange, hmdigits⟩ := hm
  obtain ⟨hnrange, hndigits⟩ := hn
  have hpositive : 0 < ((256 ^ width : ℕ) : ℤ) := Int.natCast_pos.mpr (Nat.pow_pos (by omega))
  obtain ⟨size, hsize⟩ : ∃ size : ℤ, size = ((256 ^ width : ℕ) : ℤ) := ⟨_, rfl⟩
  rw [← hsize] at hmrange hmdigits hnrange hndigits hpositive
  have hmnonneg := Int.emod_nonneg m hpositive.ne'
  have hnnonneg := Int.emod_nonneg n hpositive.ne'
  have hmlt := Int.emod_lt_of_pos m hpositive
  have hnlt := Int.emod_lt_of_pos n hpositive
  have heq : (m % size).toNat = (n % size).toNat :=
    digits_inj (by omega) (by omega) (hmdigits.trans hndigits.symm)
  have hdvd : size ∣ m - n := Int.ModEq.dvd (show n % size = m % size by omega)
  obtain ⟨k, hk⟩ := hdvd
  -- two numbers of half the size differ by less than the size
  have hzero : k = 0 := by
    by_contra hne
    rcases lt_or_gt_of_ne hne with hneg | hpos
    · have hle : size * k ≤ size * (-1) := Int.mul_le_mul_of_nonneg_left (by omega) hpositive.le
      omega
    · have hle : size * 1 ≤ size * k := Int.mul_le_mul_of_nonneg_left (by omega) hpositive.le
      omega
  subst hzero
  omega

/-- One chunk behind its length. -/
def frame (width : ℕ) (chunk : Bytes) : Option Bytes :=
  (toBytes width chunk.length).map (· ++ chunk)

/-- The frames of a list of chunks, one after the other. -/
def frames (width : ℕ) : List Bytes → Option Bytes
  | [] => some []
  | chunk :: chunks => do
    let first ← frame width chunk
    let rest ← frames width chunks
    pure (first ++ rest)

lemma frame_eq_some {width : ℕ} {chunk b : Bytes} :
    frame width chunk = some b ↔
      chunk.length < 256 ^ width ∧ digits width chunk.length ++ chunk = b := by
  simp [frame, toBytes_eq_some, and_assoc]

lemma frames_cons_eq_some {width : ℕ} {chunk : Bytes} {chunks : List Bytes} {b : Bytes} :
    frames width (chunk :: chunks) = some b ↔
      ∃ first rest, frame width chunk = some first ∧ frames width chunks = some rest ∧
        first ++ rest = b := by
  simp [frames, Option.bind_eq_some_iff]

/-- A frame is read off the front of any byte string in one way only. -/
lemma frame_append_inj {width : ℕ} {chunk chunk' b b' rest rest' : Bytes}
    (h : frame width chunk = some b) (h' : frame width chunk' = some b')
    (heq : b ++ rest = b' ++ rest') : chunk = chunk' ∧ rest = rest' := by
  obtain ⟨hlt, rfl⟩ := frame_eq_some.mp h
  obtain ⟨hlt', rfl⟩ := frame_eq_some.mp h'
  simp only [List.append_assoc] at heq
  obtain ⟨hlens, htail⟩ := List.append_inj heq (by simp)
  have hlen : chunk.length = chunk'.length := digits_inj hlt hlt' hlens
  exact List.append_inj htail hlen

lemma frames_isSome {width : ℕ} {chunks : List Bytes} :
    (frames width chunks).isSome ↔ ∀ chunk ∈ chunks, chunk.length < 256 ^ width := by
  induction chunks with
  | nil => simp [frames]
  | cons chunk chunks ih =>
    rw [List.forall_mem_cons, ← ih]
    by_cases hchunk : chunk.length < 256 ^ width
    · cases hrest : frames width chunks <;> simp [frames, frame, toBytes, hchunk, hrest]
    · simp [frames, frame, toBytes, hchunk]

lemma frame_ne_nil {width : ℕ} (hwidth : 0 < width) {chunk b : Bytes}
    (h : frame width chunk = some b) : b ≠ [] := by
  obtain ⟨-, rfl⟩ := frame_eq_some.mp h
  intro hnil
  have hlen := congrArg List.length hnil
  simp at hlen
  omega

/-- **Framing is injective.**  The number of chunks need not be known: the end of the byte string
ends the list. -/
theorem frames_injective {width : ℕ} (hwidth : 0 < width) {xs ys : List Bytes} {b : Bytes}
    (hx : frames width xs = some b) (hy : frames width ys = some b) : xs = ys := by
  induction xs generalizing ys b with
  | nil =>
    cases ys with
    | nil => rfl
    | cons y ys =>
      obtain rfl : [] = b := by simpa [frames] using hx
      obtain ⟨first, rest, hfirst, -, hcat⟩ := frames_cons_eq_some.mp hy
      exact absurd (List.append_eq_nil_iff.mp hcat).1 (frame_ne_nil hwidth hfirst)
  | cons x xs ih =>
    obtain ⟨first, rest, hfirst, hrest, rfl⟩ := frames_cons_eq_some.mp hx
    cases ys with
    | nil =>
      obtain hnil : [] = first ++ rest := by simpa [frames] using hy
      exact absurd (List.append_eq_nil_iff.mp hnil.symm).1 (frame_ne_nil hwidth hfirst)
    | cons y ys =>
      obtain ⟨first', rest', hfirst', hrest', hcat⟩ := frames_cons_eq_some.mp hy
      obtain ⟨rfl, rfl⟩ := frame_append_inj hfirst hfirst' hcat.symm
      rw [ih hrest hrest']

end Framing
