import Mathlib.Data.List.Basic
import Mathlib.Tactic.Common

/-!
# A connection with an open transaction

A database connection is a pair of states: `durable`, what a crash leaves behind, and `working`,
what the connection's own reads see.  Statements change `working`; `commit` makes it durable and
`rollback` throws it away.  `Holds I` says that both states satisfy `I`, which is what an
invariant of a connection is: a crash may expose the one, the next statement reads the other.

`transact` is the pattern "run the statements, commit, and on any failure roll back and re-raise".
A `Verdict` says what the storage does to it: nothing, an error at one of its statements or at its
commit, or a crash of the process inside it.

`attempt` is the pattern without the handler: write, then commit.  A `Fault` says where it fails, and
one at the commit leaves what was written in the open transaction.

`elsewhere` is a call that another process makes on a connection of its own.  `Conn.Rel` relates two
connections state by state, and related bodies keep connections related (`transact_rel`,
`attempt_rel`).
-/

namespace Transaction

/-- A connection: the committed state and the state its open transaction sees. -/
@[ext] structure Conn (σ : Type*) where
  durable : σ
  working : σ
  deriving DecidableEq, Repr

/-- What the storage does to a group of statements. -/
inductive Verdict
  | ok
  | raise
  | crash
  deriving DecidableEq, Repr

/-- Where an unguarded write fails: at its statement, at its commit, or with the process. -/
inductive Fault
  | statement
  | commit
  | crash
  deriving DecidableEq, Repr

/-- How a call ends: it returns, it raises, or the process dies inside it. -/
inductive Outcome (α : Type*)
  | done (a : α)
  | raised
  | crashed
  deriving DecidableEq, Repr

variable {σ α : Type*}

def Outcome.map {β : Type*} (f : α → β) : Outcome α → Outcome β
  | done a => .done (f a)
  | raised => .raised
  | crashed => .crashed

lemma Outcome.map_eq_done {β : Type*} {f : α → β} {o : Outcome α} {b : β} :
    o.map f = .done b ↔ ∃ a, o = .done a ∧ f a = b := by
  cases o with
  | done a => simp [map]
  | raised => simp [map]
  | crashed => simp [map]

lemma Outcome.map_map {β γ : Type*} (f : α → β) (g : β → γ) (o : Outcome α) :
    (o.map f).map g = o.map fun a => g (f a) := by
  cases o <;> rfl

namespace Conn

/-- A connection with no open transaction. -/
def clean (s : σ) : Conn σ := ⟨s, s⟩

def exec (f : σ → σ) (c : Conn σ) : Conn σ := { c with working := f c.working }

def commit (c : Conn σ) : Conn σ := { c with durable := c.working }

def rollback (c : Conn σ) : Conn σ := { c with working := c.durable }

/-- One statement and its commit.  A statement that violates a constraint (`none`) changes
nothing. -/
def write (f : σ → Option σ) (c : Conn σ) : Conn σ := (f c.working).elim c clean

/-- Both states satisfy `I`. -/
def Holds (I : σ → Prop) (c : Conn σ) : Prop := I c.durable ∧ I c.working

@[simp] lemma clean_durable (s : σ) : (clean s).durable = s := rfl
@[simp] lemma clean_working (s : σ) : (clean s).working = s := rfl
@[simp] lemma exec_durable (f : σ → σ) (c : Conn σ) : (c.exec f).durable = c.durable := rfl
@[simp] lemma exec_working (f : σ → σ) (c : Conn σ) : (c.exec f).working = f c.working := rfl
@[simp] lemma commit_durable (c : Conn σ) : c.commit.durable = c.working := rfl
@[simp] lemma commit_working (c : Conn σ) : c.commit.working = c.working := rfl
@[simp] lemma rollback_durable (c : Conn σ) : c.rollback.durable = c.durable := rfl
@[simp] lemma rollback_working (c : Conn σ) : c.rollback.working = c.durable := rfl

lemma holds_clean {I : σ → Prop} {s : σ} (h : I s) : (clean s).Holds I := ⟨h, h⟩

lemma Holds.exec {I : σ → Prop} {c : Conn σ} (h : c.Holds I) {f : σ → σ}
    (hf : I c.working → I (f c.working)) : (c.exec f).Holds I := ⟨h.1, hf h.2⟩

lemma Holds.commit {I : σ → Prop} {c : Conn σ} (h : c.Holds I) : c.commit.Holds I :=
  ⟨h.2, h.2⟩

lemma Holds.rollback {I : σ → Prop} {c : Conn σ} (h : c.Holds I) : c.rollback.Holds I :=
  ⟨h.1, h.1⟩

lemma Holds.write {I : σ → Prop} {c : Conn σ} (h : c.Holds I) {f : σ → Option σ}
    (hf : ∀ s, f c.working = some s → I s) : (c.write f).Holds I := by
  unfold Conn.write
  rcases hs : f c.working with _ | s
  · exact h
  · exact holds_clean (hf s hs)

lemma Holds.mono {I J : σ → Prop} (hIJ : ∀ s, I s → J s) {c : Conn σ} (h : c.Holds I) :
    c.Holds J := ⟨hIJ _ h.1, hIJ _ h.2⟩

end Conn

/-- `try: body; commit; except: rollback; raise`.  A statement of `body` that violates a
constraint makes it `none`. -/
def transact (verdict : Verdict) (body : σ → Option (σ × α)) (c : Conn σ) :
    Conn σ × Outcome α :=
  match verdict with
  | .crash => (c.rollback, .crashed)
  | .raise => (c.rollback, .raised)
  | .ok =>
    match body c.working with
    | none => (c.rollback, .raised)
    | some (s, a) => (.clean s, .done a)

/-- A write and its commit, with no handler.  A statement that violates a constraint makes `f`
`none`. -/
def attempt (fault : Option Fault) (f : σ → Option σ) (c : Conn σ) : Conn σ × Outcome Unit :=
  match fault with
  | some .crash => (c.rollback, .crashed)
  | some .statement => (c, .raised)
  | some .commit => (f c.working).elim (c, .raised) fun s => (⟨c.durable, s⟩, .raised)
  | none => (f c.working).elim (c, .raised) fun s => (.clean s, .done ())

/-- What a transaction can do: commit the whole of its body, or leave the committed state as it
was and drop whatever was open. -/
theorem transact_cases (verdict : Verdict) (body : σ → Option (σ × α)) (c : Conn σ) :
    (∃ s a, verdict = .ok ∧ body c.working = some (s, a) ∧
      transact verdict body c = (.clean s, .done a)) ∨
    (transact verdict body c).1 = c.rollback ∧
      ((transact verdict body c).2 = .raised ∨ (transact verdict body c).2 = .crashed) := by
  cases verdict with
  | ok =>
    rcases hb : body c.working with _ | ⟨s, a⟩
    · exact .inr (by simp [transact, hb])
    · exact .inl ⟨s, a, rfl, rfl, by simp [transact, hb]⟩
  | raise => exact .inr (by simp [transact])
  | crash => exact .inr (by simp [transact])

lemma transact_ok_of_some {body : σ → Option (σ × α)} {c : Conn σ} {s : σ} {a : α}
    (h : body c.working = some (s, a)) : transact .ok body c = (.clean s, .done a) := by
  simp [transact, h]

lemma transact_ok_of_none {body : σ → Option (σ × α)} {c : Conn σ}
    (h : body c.working = none) : transact .ok body c = (c.rollback, .raised) := by
  simp [transact, h]

/-- What an unguarded write can do: go through, leave an invariant of both states alone, or leave
its statement in the open transaction. -/
theorem attempt_cases (fault : Option Fault) (f : σ → Option σ) (c : Conn σ) :
    (∃ s, fault = none ∧ f c.working = some s ∧ attempt fault f c = (.clean s, .done ())) ∨
    (∃ s, f c.working = some s ∧ attempt fault f c = (⟨c.durable, s⟩, .raised)) ∨
    attempt fault f c = (c, .raised) ∨ attempt fault f c = (c.rollback, .crashed) := by
  rcases hf : f c.working with _ | s
  · rcases fault with _ | _ | _ | _ <;> simp [attempt, hf]
  · rcases fault with _ | _ | _ | _ <;> simp [attempt, hf]

/-! ## Other connections -/

/-- A call on a connection of its own, in a process that ends with it: it sees the committed state,
what it leaves open is dropped, and while there is an open transaction here it finds the database
busy. -/
def elsewhere [DecidableEq σ] (busy : α) (f : Conn σ → Conn σ × α) (c : Conn σ) : Conn σ × α :=
  if c.working = c.durable then (.clean (f c).1.durable, (f c).2) else (c, busy)

/-! ## Two connections -/

/-- Two connections with related committed and related open states. -/
def Conn.Rel (R : σ → σ → Prop) (c c' : Conn σ) : Prop :=
  R c.durable c'.durable ∧ R c.working c'.working

lemma Conn.rel_clean {R : σ → σ → Prop} {s s' : σ} (h : R s s') : (clean s).Rel R (clean s') :=
  ⟨h, h⟩

lemma Conn.Rel.rollback {R : σ → σ → Prop} {c c' : Conn σ} (h : c.Rel R c') :
    c.rollback.Rel R c'.rollback := ⟨h.1, h.1⟩

/-- A call elsewhere whose committed result is still related to whatever the state it found was. -/
lemma Conn.Rel.elsewhere_left [DecidableEq σ] {R : σ → σ → Prop} {c c' : Conn σ} (h : c.Rel R c')
    (busy : α) {f : Conn σ → Conn σ × α}
    (hf : ∀ t, R c.working t → c.working = c.durable → R (f c).1.durable t) :
    (elsewhere busy f c).1.Rel R c' := by
  unfold elsewhere
  split
  · rename_i hclean
    exact ⟨hf _ (hclean ▸ h.1) hclean, hf _ h.2 hclean⟩
  · exact h

/-- Bodies that agree on related states: neither goes through, or both do, with one answer. -/
theorem transact_rel {R : σ → σ → Prop} (verdict : Verdict) {body body' : σ → Option (σ × α)}
    {c c' : Conn σ} (h : c.Rel R c')
    (hbody : Option.Rel (fun p q => R p.1 q.1 ∧ p.2 = q.2) (body c.working) (body' c'.working)) :
    (transact verdict body c).1.Rel R (transact verdict body' c').1 ∧
      (transact verdict body c).2 = (transact verdict body' c').2 := by
  cases verdict with
  | raise => exact ⟨h.rollback, rfl⟩
  | crash => exact ⟨h.rollback, rfl⟩
  | ok =>
    rcases hb : body c.working with _ | ⟨s, a⟩
    · rcases hb' : body' c'.working with _ | ⟨s', a'⟩
      · rw [transact_ok_of_none hb, transact_ok_of_none hb']
        exact ⟨h.rollback, rfl⟩
      · rw [hb, hb'] at hbody
        cases hbody
    · rcases hb' : body' c'.working with _ | ⟨s', a'⟩
      · rw [hb, hb'] at hbody
        cases hbody
      · rw [hb, hb'] at hbody
        obtain ⟨hs, ha⟩ : R s s' ∧ a = a' := by
          cases hbody with
          | some hrel => exact hrel
        rw [transact_ok_of_some hb, transact_ok_of_some hb', ha]
        exact ⟨Conn.rel_clean hs, rfl⟩

theorem attempt_rel {R : σ → σ → Prop} (fault : Option Fault) {f f' : σ → Option σ}
    {c c' : Conn σ} (h : c.Rel R c') (hf : Option.Rel R (f c.working) (f' c'.working)) :
    (attempt fault f c).1.Rel R (attempt fault f' c').1 ∧
      (attempt fault f c).2 = (attempt fault f' c').2 := by
  rcases hs : f c.working with _ | s
  · rcases hs' : f' c'.working with _ | s'
    · rcases fault with _ | _ | _ | _
      · simpa [attempt, hs, hs'] using h
      · exact ⟨h, rfl⟩
      · simpa [attempt, hs, hs'] using h
      · exact ⟨h.rollback, rfl⟩
    · rw [hs, hs'] at hf
      cases hf
  · rcases hs' : f' c'.working with _ | s'
    · rw [hs, hs'] at hf
      cases hf
    · rw [hs, hs'] at hf
      have hrel : R s s' := by
        cases hf with
        | some hrel => exact hrel
      rcases fault with _ | _ | _ | _
      · simpa [attempt, hs, hs'] using Conn.rel_clean hrel
      · exact ⟨h, rfl⟩
      · simp only [attempt, hs, hs', Option.elim_some]
        exact ⟨⟨h.1, hrel⟩, trivial⟩
      · exact ⟨h.rollback, rfl⟩

end Transaction
