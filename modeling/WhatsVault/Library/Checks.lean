import Mathlib.Data.List.Basic
import Mathlib.Tactic.Common

/-!
# Functions that stop at the first failed check

A handler that reads its request, refuses it at the first check that fails and otherwise goes on is
a `do` block in `Except`.  `orStop` is the lookup that must succeed and `require` the condition that
must hold.  The `_eq_ok` lemmas turn "the block returned `b`" into the conjunction of what every check
found, in order.  The `_ne_error` lemmas show of an error that no check of a block gives it, and the
`_eq_error` lemmas turn "it stopped with `e`" into what was found before the check that gives `e`.
-/

namespace Checks

universe u

variable {ε : Type*} {α β : Type u}

/-- `x`, or stop with `e` where there is none. -/
def orStop (x : Option α) (e : ε) : Except ε α := x.elim (.error e) .ok

/-- Stop with `e` unless `p`. -/
def require (p : Prop) [Decidable p] (e : ε) : Except ε Unit := if p then .ok () else .error e

lemma bind_eq_ok {x : Except ε α} {f : α → Except ε β} {b : β} :
    (x >>= f) = .ok b ↔ ∃ a, x = .ok a ∧ f a = .ok b := by
  cases x with
  | error e => simp [bind, Except.bind]
  | ok a => simp [bind, Except.bind]

lemma ok_bind (a : α) (f : α → Except ε β) : ((.ok a : Except ε α) >>= f) = f a := rfl

lemma error_bind (e : ε) (f : α → Except ε β) : ((.error e : Except ε α) >>= f) = .error e := rfl

lemma except_map_bind {γ : Type u} (x : Except ε α) (f : α → Except ε β) (g : β → γ) :
    (x >>= f).map g = x >>= fun a => (f a).map g := by
  cases x with
  | error e => rfl
  | ok a => rfl

lemma pure_eq_ok {a b : α} : (pure a : Except ε α) = .ok b ↔ a = b := by
  simp [pure, Except.pure]

lemma map_eq_ok {x : Except ε α} {f : α → β} {b : β} :
    x.map f = .ok b ↔ ∃ a, x = .ok a ∧ f a = b := by
  cases x with
  | error e => simp [Except.map]
  | ok a => simp [Except.map]

lemma eq_ok_of_toOption {x : Except ε α} {a : α} (h : x.toOption = some a) : x = .ok a := by
  cases x with
  | error e => cases h
  | ok b => exact congrArg Except.ok (Option.some.inj h)

lemma orStop_eq_ok {x : Option α} {e : ε} {a : α} : orStop x e = .ok a ↔ x = some a := by
  cases x with
  | none => simp [orStop]
  | some b => simp [orStop]

lemma require_eq_ok {p : Prop} [Decidable p] {e : ε} {u : Unit} :
    require p e = .ok u ↔ p := by
  unfold require
  split
  · simpa
  · simpa

lemma orStop_eq_error {x : Option α} {e : ε} : orStop x e = .error e ↔ x = none := by
  cases x with
  | none => simp [orStop]
  | some a => simp [orStop]

/-! ## Blocks that stop with one error -/

lemma bind_eq_error {x : Except ε α} {f : α → Except ε β} {e : ε} :
    (x >>= f) = .error e ↔ x = .error e ∨ ∃ a, x = .ok a ∧ f a = .error e := by
  cases x with
  | error e' => simp [bind, Except.bind]
  | ok a => simp [bind, Except.bind]

lemma map_eq_error {x : Except ε α} {f : α → β} {e : ε} : x.map f = .error e ↔ x = .error e := by
  cases x with
  | error e' => simp [Except.map]
  | ok a => simp [Except.map]

/-- A first step without the error. -/
lemma bind_eq_error_of_ne {x : Except ε α} {f : α → Except ε β} {e : ε} (hx : x ≠ .error e) :
    (x >>= f) = .error e ↔ ∃ a, x = .ok a ∧ f a = .error e :=
  bind_eq_error.trans (or_iff_right hx)

/-- A rest without the error. -/
lemma bind_eq_error_of_rest {x : Except ε α} {f : α → Except ε β} {e : ε}
    (hf : ∀ a, f a ≠ .error e) : (x >>= f) = .error e ↔ x = .error e := by
  rw [bind_eq_error, or_iff_left]
  rintro ⟨a, -, ha⟩
  exact hf a ha

/-! ## Errors that a block does not stop with -/

lemma bind_ne_error {x : Except ε α} {f : α → Except ε β} {e : ε} (hx : x ≠ .error e)
    (hf : ∀ a, f a ≠ .error e) : (x >>= f) ≠ .error e := by
  cases x with
  | error e' =>
    intro h
    rw [error_bind, Except.error.injEq] at h
    exact hx (congrArg Except.error h)
  | ok a =>
    rw [ok_bind]
    exact hf a

lemma orStop_ne_error {x : Option α} {e e' : ε} (h : e' ≠ e) : orStop x e' ≠ .error e := by
  cases x with
  | none => simpa [orStop] using h
  | some a => simp [orStop]

lemma require_ne_error {p : Prop} [Decidable p] {e e' : ε} (h : e' ≠ e) :
    require p e' ≠ .error e := by
  unfold require
  split
  · simp
  · simpa using h

lemma require_bind_eq_error {β : Type} {p : Prop} [Decidable p] {e e' : ε} {f : Unit → Except ε β}
    (h : e' ≠ e) : (require p e' >>= f) = .error e ↔ p ∧ f () = .error e := by
  rw [bind_eq_error_of_ne (require_ne_error h)]
  constructor
  · rintro ⟨⟨⟩, hp, hf⟩
    exact ⟨require_eq_ok.mp hp, hf⟩
  · rintro ⟨hp, hf⟩
    exact ⟨(), require_eq_ok.mpr hp, hf⟩

lemma orStop_bind_eq_error {x : Option α} {e e' : ε} {f : α → Except ε β} (h : e' ≠ e) :
    (orStop x e' >>= f) = .error e ↔ ∃ a, x = some a ∧ f a = .error e := by
  rw [bind_eq_error_of_ne (orStop_ne_error h)]
  simp only [orStop_eq_ok]

/-! ## Checks over a list -/

lemma forM_cons_eq {a : α} {as : List α} {f : α → Except ε PUnit} :
    (a :: as).forM f = (f a >>= fun _ => as.forM f) := rfl

lemma forM_eq_ok {as : List α} {f : α → Except ε PUnit} {u : PUnit} :
    as.forM f = .ok u ↔ ∀ a ∈ as, f a = .ok ⟨⟩ := by
  induction as with
  | nil => simp [pure, Except.pure]
  | cons a as ih =>
    rw [forM_cons_eq, bind_eq_ok, List.forall_mem_cons, ← ih]
    constructor
    · rintro ⟨⟨⟩, ha, has⟩
      exact ⟨ha, has⟩
    · rintro ⟨ha, has⟩
      exact ⟨⟨⟩, ha, has⟩

lemma forM_ne_error {as : List α} {f : α → Except ε PUnit} {e : ε} (h : ∀ a, f a ≠ .error e) :
    as.forM f ≠ .error e := by
  induction as with
  | nil => simp [pure, Except.pure]
  | cons a as ih =>
    rw [forM_cons_eq]
    exact bind_ne_error (h a) fun _ => ih

end Checks
