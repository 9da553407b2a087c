import Mathlib.Tactic.Common

/-!
# A database with one writer

Connections to one database file, statement by statement.  A read outside a transaction sees the
committed state.  The first write of a connection takes the write lock and starts from the committed
state; until the connection commits or rolls back, its writes accumulate in a state of its own and
no other connection can write.  `base` is the state the next write of a connection starts from,
`none` where another one holds the lock.
-/

namespace WriteLock

/-- The committed state, and the holder of the lock with the state of its open transaction. -/
structure Db (σ : Type*) where
  committed : σ
  writer : Option (ℕ × σ)

namespace Db

variable {σ : Type*} (i : ℕ) (db : Db σ)

/-- No transaction is open. -/
def idle (s : σ) : Db σ := ⟨s, none⟩

def base : Option σ :=
  match db.writer with
  | none => some db.committed
  | some (j, s) => if j = i then some s else none

/-- What a read of the connection sees: its open transaction, or else the committed state. -/
def view : σ := (db.base i).getD db.committed

/-- The connection holds the lock and sees `s`. -/
def hold (s : σ) : Db σ := { db with writer := some (i, s) }

/-- The open transaction of the connection, if it has one, becomes the committed state. -/
def commit : Db σ :=
  match db.writer with
  | some (j, s) => if j = i then idle s else db
  | none => db

/-- The open transaction of the connection, if it has one, is dropped. -/
def rollback : Db σ :=
  match db.writer with
  | some (j, _) => if j = i then idle db.committed else db
  | none => db

/-- A statement and its commit.  It changes nothing where another connection holds the lock or the
statement violates a constraint (`none`). -/
def write (f : σ → Option σ) : Db σ :=
  match (db.base i).bind f with
  | none => db
  | some s => idle s

variable {i db} {s : σ}

lemma base_eq_some : db.base i = some s ↔
    (db.writer = none ∧ s = db.committed) ∨ db.writer = some (i, s) := by
  unfold base
  rcases hwriter : db.writer with _ | ⟨j, t⟩
  · simp [eq_comm]
  · by_cases hj : j = i
    · simp [hj]
    · simp [hj]

@[simp] lemma base_idle : (idle s).base i = some s := rfl

@[simp] lemma base_hold : (db.hold i s).base i = some s := by simp [base, hold]

@[simp] lemma hold_committed : (db.hold i s).committed = db.committed := rfl

@[simp] lemma hold_writer : (db.hold i s).writer = some (i, s) := rfl

lemma view_of_base (h : db.base i = some s) : db.view i = s := by
  rw [view, h]
  rfl

/-- A connection that has not changed anything sees the committed state. -/
lemma view_eq_committed (h : ∀ s, db.writer = some (i, s) → s = db.committed) :
    db.view i = db.committed := by
  unfold view
  rcases hbase : db.base i with _ | s
  · rfl
  · obtain ⟨-, rfl⟩ | hwriter := base_eq_some.mp hbase
    · rfl
    · exact h s hwriter

/-- What an autonomous statement does: nothing, or its whole effect on the state it starts from. -/
lemma write_cases (i : ℕ) (f : σ → Option σ) (db : Db σ) :
    db.write i f = db ∨
      ∃ s s', db.base i = some s ∧ f s = some s' ∧ db.write i f = idle s' := by
  unfold write
  rcases hwritten : (db.base i).bind f with _ | s'
  · left
    rfl
  · right
    obtain ⟨s, hbase, hf⟩ := Option.bind_eq_some_iff.mp hwritten
    exact ⟨s, s', hbase, hf, rfl⟩

/-- What a commit does: nothing, or the whole of the open transaction. -/
lemma commit_cases (i : ℕ) (db : Db σ) :
    (db.commit i = db ∧ ∀ s, db.writer ≠ some (i, s)) ∨
      ∃ s, db.writer = some (i, s) ∧ db.commit i = idle s := by
  unfold commit
  rcases hwriter : db.writer with _ | ⟨j, t⟩
  · left
    simp
  · by_cases hj : j = i
    · right
      exact ⟨t, by rw [hj], by simp [hj]⟩
    · left
      simp [hj]

lemma rollback_committed (i : ℕ) (db : Db σ) : (db.rollback i).committed = db.committed := by
  unfold rollback
  rcases hwriter : db.writer with _ | ⟨j, t⟩
  · rfl
  · by_cases hj : j = i
    · simp [hj, idle]
    · simp [hj]

/-- After a rollback the lock is free or with another connection. -/
lemma rollback_writer {j : ℕ} (h : (db.rollback i).writer = some (j, s)) :
    db.writer = some (j, s) ∧ j ≠ i := by
  unfold rollback at h
  rcases hwriter : db.writer with _ | ⟨k, t⟩
  · simp [hwriter] at h
  · rw [hwriter] at h
    by_cases hk : k = i
    · simp [hk, idle] at h
    · simp only [hk, if_false, hwriter, Option.some.injEq, Prod.mk.injEq] at h
      obtain ⟨rfl, rfl⟩ := h
      exact ⟨rfl, hk⟩

end Db

end WriteLock
