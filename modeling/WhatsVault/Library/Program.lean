import Mathlib.Data.List.Basic
import Mathlib.Tactic.Common

/-!
# Programs observed at every state

A program changes a state step by step and may raise.  `Program σ ε α` is its denotation: what it
returns or raises from a state, and every state it passes through on the way.  An exception leaves
the states it found behind it.

`Triple I P c Q` says of a program `c` that, begun in a state with `I` and `P`, it passes through
states with `I` only, however it ends, and that it returns in a state with `Q`.  So `I` is what holds
at every point of the run, and `P` and `Q` are what one part of the program hands to the next.  There
is one rule for each construct; `Triple.foldlM` is the rule of a loop over a list, whose invariant may
speak of the items done so far.

`Returns` says what a program returns and in which state, and `cutAt` is the state that a program
leaves when it is killed after some of its steps.  A triple speaks of both.
-/

universe u w

/-- From a state: what is returned or raised, and the states passed through, oldest first. -/
def Program (σ : Type u) (ε : Type w) (α : Type u) : Type (max u w) :=
  σ → Except ε α × List σ

namespace Program

variable {σ : Type u} {ε : Type w} {α β : Type u}

/-- The state a program is in after passing through `states`. -/
def after (s : σ) : List σ → σ
  | [] => s
  | t :: states => after t states

@[simp] lemma after_append (s : σ) (xs ys : List σ) :
    after s (xs ++ ys) = after (after s xs) ys := by
  induction xs generalizing s with
  | nil => rfl
  | cons x xs ih => exact ih x

lemma after_of_forall {I : σ → Prop} {s : σ} (hs : I s) {states : List σ}
    (h : ∀ t ∈ states, I t) : I (after s states) := by
  induction states generalizing s with
  | nil => exact hs
  | cons t states ih =>
    exact ih (h t List.mem_cons_self) fun t' ht' => h t' (List.mem_cons_of_mem _ ht')

instance : Monad (Program σ ε) where
  pure a := fun _ => (.ok a, [])
  bind c f := fun s =>
    match c s with
    | (.error e, states) => (.error e, states)
    | (.ok a, states) =>
      let rest := f a (after s states)
      (rest.1, states ++ rest.2)

/-- The rest of a program goes on from what the first part returned, in the state it left. -/
lemma bind_of_ok {c : Program σ ε α} {f : α → Program σ ε β} {s : σ} {a : α} {states : List σ}
    (h : c s = (.ok a, states)) :
    (c >>= f) s = ((f a (after s states)).1, states ++ (f a (after s states)).2) := by
  simp [Bind.bind, h]

lemma bind_of_error {c : Program σ ε α} {f : α → Program σ ε β} {s : σ} {e : ε} {states : List σ}
    (h : c s = (.error e, states)) : (c >>= f) s = (.error e, states) := by
  simp [Bind.bind, h]

/-- The state as it is now. -/
def now : Program σ ε σ := fun s => (.ok s, [])

/-- One step. -/
def change (f : σ → σ) : Program σ ε PUnit := fun s => (.ok ⟨⟩, [f s])

def raise (e : ε) : Program σ ε α := fun _ => (.error e, [])

def refuseIf (c : Prop) [Decidable c] (e : ε) : Program σ ε PUnit :=
  if c then raise e else pure ⟨⟩

/-- Every state of a run, the first one included. -/
def states (c : Program σ ε α) (s : σ) : List σ := s :: (c s).2

/-- A program with a handler for what it raises. -/
def rescue (c : Program σ ε α) (handler : ε → Program σ ε α) : Program σ ε α := fun s =>
  match c s with
  | (.ok a, states) => (.ok a, states)
  | (.error e, states) =>
    let rest := handler e (after s states)
    (rest.1, states ++ rest.2)

/-- From a state with `I` and `P`, a program passes through states with `I`, and returns with `Q`. -/
def Triple (I P : σ → Prop) (c : Program σ ε α) (Q : α → σ → Prop) : Prop :=
  ∀ s, I s → P s →
    (∀ t ∈ (c s).2, I t) ∧ ∀ a, (c s).1 = .ok a → Q a (after s (c s).2)

namespace Triple

variable {I P : σ → Prop} {Q : α → σ → Prop}

/-- What a triple says of the run as a whole. -/
lemma forall_states {c : Program σ ε α} (h : Triple I P c Q) {s : σ} (hI : I s) (hP : P s) :
    ∀ t ∈ c.states s, I t := by
  intro t ht
  rcases List.mem_cons.mp ht with rfl | ht
  · exact hI
  · exact (h s hI hP).1 t ht

lemma pure {a : α} (h : ∀ s, I s → P s → Q a s) : Triple I P (pure a : Program σ ε α) Q := by
  intro s hI hP
  constructor
  · intro t ht
    cases ht
  · intro b hb
    cases hb
    exact h s hI hP

lemma raise {e : ε} : Triple I P (raise e : Program σ ε α) Q := by
  intro s hI hP
  constructor
  · intro t ht
    cases ht
  · intro b hb
    cases hb

lemma now {Q : σ → σ → Prop} (h : ∀ s, I s → P s → Q s s) :
    Triple I P (now : Program σ ε σ) Q := by
  intro s hI hP
  constructor
  · intro t ht
    cases ht
  · intro b hb
    cases hb
    exact h s hI hP

lemma change {f : σ → σ} {Q : PUnit → σ → Prop} (hI : ∀ s, I s → P s → I (f s))
    (hQ : ∀ s, I s → P s → Q ⟨⟩ (f s)) : Triple I P (change f : Program σ ε PUnit) Q := by
  intro s hs hP
  constructor
  · intro t ht
    rw [show t = f s from List.mem_singleton.mp ht]
    exact hI s hs hP
  · intro b hb
    cases hb
    exact hQ s hs hP

/-- One part of a program after the other. -/
lemma bind {c : Program σ ε α} {f : α → Program σ ε β} {R : β → σ → Prop}
    (hc : Triple I P c Q) (hf : ∀ a, Triple I (Q a) (f a) R) : Triple I P (c >>= f) R := by
  intro s hI hP
  obtain ⟨hstates, hreturn⟩ := hc s hI hP
  cases hrun : c s with
  | mk result states =>
    rw [hrun] at hstates hreturn
    cases result with
    | error e =>
      rw [bind_of_error hrun]
      constructor
      · exact hstates
      · intro b hb
        cases hb
    | ok a =>
      have hmid : I (after s states) := after_of_forall hI hstates
      obtain ⟨hstates', hreturn'⟩ := hf a (after s states) hmid (hreturn a rfl)
      rw [bind_of_ok hrun]
      constructor
      · intro t ht
        rcases List.mem_append.mp ht with ht | ht
        · exact hstates t ht
        · exact hstates' t ht
      · intro b hb
        rw [after_append]
        exact hreturn' b hb

lemma rescue {c : Program σ ε α} {handler : ε → Program σ ε α} (hc : Triple I P c Q)
    (hhandler : ∀ e, Triple I (fun _ => True) (handler e) Q) :
    Triple I P (rescue c handler) Q := by
  intro s hI hP
  obtain ⟨hstates, hreturn⟩ := hc s hI hP
  unfold Program.rescue
  cases hrun : c s with
  | mk result states =>
    rw [hrun] at hstates hreturn
    cases result with
    | ok a => exact ⟨hstates, hreturn⟩
    | error e =>
      have hmid : I (after s states) := after_of_forall hI hstates
      obtain ⟨hstates', hreturn'⟩ := hhandler e (after s states) hmid trivial
      constructor
      · intro t ht
        rcases List.mem_append.mp ht with ht | ht
        · exact hstates t ht
        · exact hstates' t ht
      · intro b hb
        rw [after_append]
        exact hreturn' b hb

lemma pre {P' : σ → Prop} {c : Program σ ε α} (h : Triple I P c Q) (hP : ∀ s, I s → P' s → P s) :
    Triple I P' c Q := by
  intro s hI hP'
  exact h s hI (hP s hI hP')

lemma post {Q' : α → σ → Prop} {c : Program σ ε α} (h : Triple I P c Q)
    (hQ : ∀ a s, I s → Q a s → Q' a s) : Triple I P c Q' := by
  intro s hI hP
  obtain ⟨hstates, hreturn⟩ := h s hI hP
  exact ⟨hstates, fun a ha => hQ a _ (after_of_forall hI hstates) (hreturn a ha)⟩

lemma unreached {c : Program σ ε α} (h : ∀ s, I s → ¬ P s) : Triple I P c Q :=
  fun s hI hP => absurd hP (h s hI)

lemma refuseIf {c : Prop} [Decidable c] {e : ε} :
    Triple I P (refuseIf c e) fun _ s => P s ∧ ¬ c := by
  unfold Program.refuseIf
  split
  · exact raise
  · rename_i hc
    exact pure fun s _ hP => ⟨hP, hc⟩

/-- A fact that no state has a say in. -/
lemma assume {R : Prop} {c : Program σ ε α} (h : R → Triple I P c Q) :
    Triple I (fun s => P s ∧ R) c Q := by
  intro s hI hP
  exact h hP.2 s hI hP.1

/-- A check goes on with what it checked. -/
lemma refuseIf_bind {c : Prop} [Decidable c] {e : ε} {f : PUnit → Program σ ε α}
    (h : ¬ c → Triple I P (f ⟨⟩) Q) : Triple I P (Program.refuseIf c e >>= f) Q :=
  bind refuseIf fun _ => assume h

/-- Reading the state. -/
lemma now_bind {f : σ → Program σ ε β} {R : β → σ → Prop}
    (h : ∀ s, I s → P s → Triple I (fun t => t = s) (f s) R) :
    Triple I P (Program.now >>= f) R := by
  intro s hI hP
  obtain ⟨hstates, hreturn⟩ := h s hI hP s hI rfl
  exact ⟨hstates, hreturn⟩

/-- The loop over a list: what holds of the items done and of what the loop has so far. -/
lemma foldlM {ι : Type*} {f : α → ι → Program σ ε α} {J : List ι → α → σ → Prop}
    (done as : List ι)
    (hf : ∀ before i rest acc, done ++ as = before ++ i :: rest →
      Triple I (J before acc) (f acc i) (J (before ++ [i]))) (acc : α) :
    Triple I (J done acc) (as.foldlM f acc) (J (done ++ as)) := by
  induction as generalizing done acc with
  | nil =>
    rw [List.append_nil]
    exact pure fun s _ h => h
  | cons a as ih =>
    rw [List.foldlM_cons]
    have hassoc : done ++ a :: as = (done ++ [a]) ++ as := by simp
    have hrest := ih (done ++ [a]) (by rwa [hassoc] at hf)
    rw [← hassoc] at hrest
    exact bind (hf done a as acc rfl) hrest

/-- A loop whose rounds hand nothing on. -/
lemma foldlM_of_forall {ι : Type*} {f : α → ι → Program σ ε α} {as : List ι}
    (hf : ∀ acc, ∀ i ∈ as, Triple I (fun _ => True) (f acc i) fun _ _ => True) (acc : α) :
    Triple I (fun _ => True) (as.foldlM f acc) fun _ _ => True := by
  refine foldlM (J := fun _ _ _ => True) [] as ?_ acc
  rintro before i rest acc rfl
  exact hf acc i (by simp)

/-- What the invariant carries along can also be handed on. -/
lemma keep {F : σ → Prop} {c : Program σ ε α} (h : Triple (fun s => I s ∧ F s) P c Q) :
    Triple I (fun s => P s ∧ F s) c fun a s => Q a s ∧ F s := by
  intro s hI hP
  obtain ⟨hstates, hreturn⟩ := h s ⟨hI, hP.2⟩ hP.1
  refine ⟨fun t ht => (hstates t ht).1, fun a ha => ⟨hreturn a ha, ?_⟩⟩
  exact (after_of_forall (I := fun s => I s ∧ F s) ⟨hI, hP.2⟩ hstates).2

end Triple

/-! ## To the end, and cut off -/

/-- A look at the state that may raise. -/
def look (f : σ → Except ε α) : Program σ ε α := fun s => (f s, [])

lemma Triple.look {I P : σ → Prop} {Q : α → σ → Prop} {f : σ → Except ε α}
    (h : ∀ s a, I s → P s → f s = .ok a → Q a s) : Triple I P (look f : Program σ ε α) Q := by
  intro s hI hP
  constructor
  · intro t ht
    cases ht
  · intro a ha
    exact h s a hI hP ha

/-- From `s` the program returns `a`, in the state `t`. -/
def Returns (c : Program σ ε α) (s : σ) (a : α) (t : σ) : Prop :=
  (c s).1 = .ok a ∧ after s (c s).2 = t

namespace Returns

variable {s t u : σ} {a : α}

lemma pure : Returns (pure a : Program σ ε α) s a s := ⟨rfl, rfl⟩

lemma change {f : σ → σ} : Returns (change f : Program σ ε PUnit) s ⟨⟩ (f s) := ⟨rfl, rfl⟩

lemma look {f : σ → Except ε α} (h : f s = .ok a) : Returns (look f) s a s := ⟨h, rfl⟩

lemma bind {c : Program σ ε α} {f : α → Program σ ε β} {b : β} (hc : Returns c s a t)
    (hf : Returns (f a) t b u) : Returns (c >>= f) s b u := by
  obtain ⟨hresult, rfl⟩ := hc
  obtain ⟨hresult', rfl⟩ := hf
  cases hrun : c s with
  | mk result states =>
    rw [hrun] at hresult hresult'
    cases hresult
    unfold Returns
    rw [bind_of_ok hrun, after_append]
    exact ⟨hresult', rfl⟩

/-- The handler is not asked. -/
lemma rescue {c : Program σ ε α} {handler : ε → Program σ ε α} (h : Returns c s a t) :
    Returns (rescue c handler) s a t := by
  obtain ⟨hresult, hafter⟩ := h
  unfold Returns Program.rescue
  cases hrun : c s with
  | mk result states =>
    rw [hrun] at hresult hafter
    cases hresult
    exact ⟨rfl, hafter⟩

/-- A program that reads the state first. -/
lemma now_bind {f : σ → Program σ ε β} {b : β} (h : Returns (f s) s b u) :
    Returns (now >>= f) s b u := bind ⟨rfl, rfl⟩ h

/-- What a triple says of a program that returns. -/
lemma of_triple {I P : σ → Prop} {Q : α → σ → Prop} {c : Program σ ε α} (h : Returns c s a t)
    (hc : Triple I P c Q) (hI : I s) (hP : P s) : I t ∧ Q a t := by
  obtain ⟨hresult, rfl⟩ := h
  obtain ⟨hstates, hreturn⟩ := hc s hI hP
  exact ⟨after_of_forall hI hstates, hreturn a hresult⟩

end Returns

/-- From `s` the program raises `e`. -/
def Raises (c : Program σ ε α) (s : σ) (e : ε) : Prop := (c s).1 = .error e

lemma Raises.bind {c : Program σ ε α} {f : α → Program σ ε β} {s : σ} {e : ε} (h : Raises c s e) :
    Raises (c >>= f) s e := by
  unfold Raises at *
  cases hrun : c s with
  | mk result states =>
    rw [hrun] at h
    cases h
    rw [bind_of_error hrun]

/-- The part before it returns. -/
lemma Returns.raises {c : Program σ ε α} {f : α → Program σ ε β} {s t : σ} {a : α} {e : ε}
    (hc : Returns c s a t) (hf : Raises (f a) t e) : Raises (c >>= f) s e := by
  obtain ⟨hresult, rfl⟩ := hc
  unfold Raises at *
  cases hrun : c s with
  | mk result states =>
    rw [hrun] at hresult hf
    cases hresult
    rw [bind_of_ok hrun]
    exact hf

/-- The state after `n` steps: what a program leaves that is killed there. -/
def cutAt (c : Program σ ε α) (n : ℕ) (s : σ) : σ := after s ((c s).2.take n)

lemma Triple.cutAt {I P : σ → Prop} {Q : α → σ → Prop} {c : Program σ ε α} (hc : Triple I P c Q)
    {s : σ} (hI : I s) (hP : P s) (n : ℕ) : I (c.cutAt n s) :=
  after_of_forall hI fun t ht => (hc s hI hP).1 t (List.mem_of_mem_take ht)

end Program
