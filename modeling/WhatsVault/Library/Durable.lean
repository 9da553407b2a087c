import WhatsVault.Library.Program
import WhatsVault.Library.Transaction

/-!
# Programs on a connection

A program that works on a database reads what its connection sees, runs statements and commits.  A process
that is killed leaves what is committed, so what matters of the states a program passes through is their
durable half.

`Leaves D p c s` says of a program begun on the connection `c` that it leaves nothing open and `s`
committed, whether it returns or raises, and that whatever is committed on the way satisfies `D`.  There is
one rule for each construct, and `Leaves.killed` is what a program comes to that is killed anywhere.
-/

universe u w

namespace Durable

open Program Transaction

variable {σ : Type u} {ε : Type w} {α : Type u}

/-- A SELECT, and the checks on what it found. -/
def select (f : σ → Except ε α) : Program (Conn σ) ε α := look fun c => f c.working

/-- A statement that writes. -/
def statement (f : σ → σ) : Program (Conn σ) ε PUnit := change (Conn.exec f)

def commit : Program (Conn σ) ε PUnit := change Conn.commit

/-- Begun on `c` the program leaves `s` committed and nothing open, and commits only what satisfies `D`. -/
def Leaves (D : σ → Prop) (p : Program (Conn σ) ε α) (c : Conn σ) (s : σ) : Prop :=
  after c (p c).2 = .clean s ∧ ∀ t ∈ (p c).2, D t.durable

namespace Leaves

variable {D : σ → Prop} {c : Conn σ} {s : σ} {β : Type u}

lemma pure {a : α} : Leaves D (pure a : Program (Conn σ) ε α) (.clean s) s :=
  ⟨rfl, fun t ht => by cases ht⟩

lemma raise {e : ε} : Leaves D (raise e : Program (Conn σ) ε α) (.clean s) s :=
  ⟨rfl, fun t ht => by cases ht⟩

/-- A part that returns, and the rest of the program from where it left the connection. -/
lemma bind {p : Program (Conn σ) ε α} {q : α → Program (Conn σ) ε β} {a : α} {c' : Conn σ}
    (hreturns : Returns p c a c') (hp : ∀ t ∈ (p c).2, D t.durable) (hq : Leaves D (q a) c' s) :
    Leaves D (p >>= q) c s := by
  obtain ⟨hresult, rfl⟩ := hreturns
  have hbind : ((p >>= q) c).2 = (p c).2 ++ (q a (after c (p c).2)).2 := by
    cases hrun : p c with
    | mk result states =>
      rw [hrun] at hresult
      cases hresult
      rw [bind_of_ok hrun]
  unfold Leaves
  rw [hbind, after_append]
  refine ⟨hq.1, fun t ht => ?_⟩
  obtain ht | ht := List.mem_append.mp ht
  · exact hp t ht
  · exact hq.2 t ht

lemma select_bind {f : σ → Except ε α} {q : α → Program (Conn σ) ε β} {a : α} (h : f c.working = .ok a)
    (hq : Leaves D (q a) c s) : Leaves D (select f >>= q) c s :=
  bind (Returns.look h) (fun t ht => by cases ht) hq

/-- A check that fails, with nothing open. -/
lemma select_refused {f : σ → Except ε α} {q : α → Program (Conn σ) ε β} {e : ε} (h : f s = .error e) :
    Leaves D (select f >>= q) (.clean s) s := by
  have hrun : (select f >>= q) (.clean s) = (.error e, []) :=
    bind_of_error (congrArg (fun result => (result, [])) h)
  unfold Leaves
  rw [hrun]
  exact ⟨rfl, fun t ht => by cases ht⟩

lemma statement_bind {f : σ → σ} {q : PUnit → Program (Conn σ) ε β} (hD : D c.durable)
    (hq : Leaves D (q ⟨⟩) (c.exec f) s) : Leaves D (statement f >>= q) c s := by
  refine bind Returns.change (fun t ht => ?_) hq
  rw [List.mem_singleton.mp ht]
  exact hD

lemma commit_bind {q : PUnit → Program (Conn σ) ε β} (hD : D c.working)
    (hq : Leaves D (q ⟨⟩) (.clean c.working) s) : Leaves D (commit >>= q) c s := by
  refine bind Returns.change (fun t ht => ?_) hq
  rw [List.mem_singleton.mp ht]
  exact hD

/-- The commit at the end. -/
lemma commit (hD : D c.working) : Leaves D (commit : Program (Conn σ) ε PUnit) c c.working := by
  refine ⟨rfl, fun t ht => ?_⟩
  rw [List.mem_singleton.mp ht]
  exact hD

/-- One part after another where the first leaves nothing open. -/
lemma andThen {p : Program (Conn σ) ε α} {q : α → Program (Conn σ) ε β} {a : α} {s' : σ}
    (hp : Leaves D p c s') (hresult : (p c).1 = .ok a) (hq : Leaves D (q a) (.clean s') s) :
    Leaves D (p >>= q) c s := bind ⟨hresult, hp.1⟩ hp.2 hq

/-- A process that is killed after any number of steps. -/
theorem killed {p : Program (Conn σ) ε α} (h : Leaves D p c s) (hc : D c.durable) (n : ℕ) :
    D (cutAt p n c).durable := by
  refine after_of_forall (I := fun t : Conn σ => D t.durable) hc fun t ht => ?_
  exact h.2 t (List.mem_of_mem_take ht)

end Leaves

end Durable
