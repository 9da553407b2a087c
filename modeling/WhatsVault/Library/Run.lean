import Mathlib.Data.List.Basic
import Mathlib.Tactic.Common

/-!
# Runs of a labelled step function

A system is a total step function `step : σ → α → σ × List ε`: from a state and a label (an
operation with all its arguments) it gives the next state and the events the operation let the
outside world see.  A *run* is a list of labels; `final` is the state it ends in and `events` the
concatenated output.

`Meets C` says that every step of a run satisfies a condition `C` on the state before it and on
its label.  The rules at the end are the induction principles a development uses: an invariant of
the state (`invariant_of_meets`), an invariant that also speaks of the events so far
(`log_invariant_of_meets`), and the transfer of one step condition to another
(`meets_of_invariant`).  The rules with an exact condition (`always_iff_meets`, `persists_iff_meets`,
`lockstep_iff`) say of a run that a property holds in all its states if and only if all its steps meet
`C`; `unwinding` compares a run with what is left of it without some labels, and
`potential_le_of_meets` bounds what it can add up.  Since every prefix of a run is a run, a statement
about `final` for all label lists is a statement about every state reached.
-/

namespace Run

variable {σ α ε : Type*} (step : σ → α → σ × List ε)

/-- The state a run ends in. -/
def final (s : σ) : List α → σ
  | [] => s
  | a :: as => final (step s a).1 as

/-- The events of a run, oldest first. -/
def events (s : σ) : List α → List ε
  | [] => []
  | a :: as => (step s a).2 ++ events (step s a).1 as

/-- Every step of the run satisfies `C` at the state it starts from. -/
def Meets (C : σ → α → Prop) (s : σ) : List α → Prop
  | [] => True
  | a :: as => C s a ∧ Meets C (step s a).1 as

/-- Whether a run meets a decidable condition can be computed. -/
instance decidableMeets {C : σ → α → Prop} [∀ s a, Decidable (C s a)] (s : σ) :
    ∀ as, Decidable (Meets step C s as)
  | [] => inferInstanceAs (Decidable True)
  | a :: as =>
    have : Decidable (Meets step C (step s a).1 as) := decidableMeets (step s a).1 as
    inferInstanceAs (Decidable (C s a ∧ Meets step C (step s a).1 as))

@[simp] lemma final_nil (s : σ) : final step s [] = s := rfl

@[simp] lemma final_cons (s : σ) (a : α) (as : List α) :
    final step s (a :: as) = final step (step s a).1 as := rfl

@[simp] lemma events_nil (s : σ) : events step s [] = [] := rfl

@[simp] lemma events_cons (s : σ) (a : α) (as : List α) :
    events step s (a :: as) = (step s a).2 ++ events step (step s a).1 as := rfl

@[simp] lemma meets_nil (C : σ → α → Prop) (s : σ) : Meets step C s [] := trivial

@[simp] lemma meets_cons (C : σ → α → Prop) (s : σ) (a : α) (as : List α) :
    Meets step C s (a :: as) ↔ C s a ∧ Meets step C (step s a).1 as := Iff.rfl

lemma final_append (s : σ) (as bs : List α) :
    final step s (as ++ bs) = final step (final step s as) bs := by
  induction as generalizing s with
  | nil => rfl
  | cons a as ih => exact ih _

lemma events_append (s : σ) (as bs : List α) :
    events step s (as ++ bs) = events step s as ++ events step (final step s as) bs := by
  induction as generalizing s with
  | nil => rfl
  | cons a as ih => simp [ih]

lemma meets_append (C : σ → α → Prop) (s : σ) (as bs : List α) :
    Meets step C s (as ++ bs) ↔ Meets step C s as ∧ Meets step C (final step s as) bs := by
  induction as generalizing s with
  | nil => simp
  | cons a as ih => simp [ih, and_assoc]

variable {step}

lemma Meets.mono {C D : σ → α → Prop} (h : ∀ s a, C s a → D s a) {s : σ} {as : List α}
    (hC : Meets step C s as) : Meets step D s as := by
  induction as generalizing s with
  | nil => trivial
  | cons a as ih => exact ⟨h s a hC.1, ih hC.2⟩

/-- Every run meets a condition that holds everywhere. -/
lemma meets_of_forall {C : σ → α → Prop} (h : ∀ s a, C s a) (s : σ) (as : List α) :
    Meets step C s as := by
  induction as generalizing s with
  | nil => trivial
  | cons a as ih => exact ⟨h s a, ih _⟩

/-- A condition on the labels alone is one on each of them. -/
lemma meets_of_forall_mem {C : α → Prop} {as : List α} (h : ∀ a ∈ as, C a) (s : σ) :
    Meets step (fun _ a => C a) s as := by
  induction as generalizing s with
  | nil => trivial
  | cons a as ih =>
    exact ⟨h a List.mem_cons_self, ih (fun b hb => h b (List.mem_cons_of_mem _ hb)) _⟩

/-- The log invariant rule: `J` holds of the empty log, and every step that meets `C` carries it
over to the log extended by that step's events. -/
theorem log_invariant_of_meets {C : σ → α → Prop} {J : List ε → σ → Prop}
    (hstep : ∀ log s a, J log s → C s a → J (log ++ (step s a).2) (step s a).1)
    {log : List ε} {s : σ} (h : J log s) {as : List α} (hC : Meets step C s as) :
    J (log ++ events step s as) (final step s as) := by
  induction as generalizing log s with
  | nil => simpa using h
  | cons a as ih =>
    have hnext := ih (hstep log s a h hC.1) hC.2
    simpa [List.append_assoc] using hnext

/-- The invariant rule. -/
theorem invariant_of_meets {C : σ → α → Prop} {I : σ → Prop}
    (hstep : ∀ s a, I s → C s a → I (step s a).1)
    {s : σ} (h : I s) {as : List α} (hC : Meets step C s as) : I (final step s as) := by
  induction as generalizing s with
  | nil => exact h
  | cons a as ih => exact ih (hstep s a h hC.1) hC.2

/-- The invariant rule for an invariant that every step keeps. -/
theorem invariant {I : σ → Prop} (hstep : ∀ s a, I s → I (step s a).1)
    {s : σ} (h : I s) (as : List α) : I (final step s as) :=
  invariant_of_meets (C := fun _ _ => True) (fun s a hs _ => hstep s a hs) h
    (meets_of_forall (fun _ _ => trivial) s as)

/-- Under an invariant, a run that meets `C` meets whatever `C` implies at states where the
invariant holds. -/
theorem meets_of_invariant {C D : σ → α → Prop} {I : σ → Prop}
    (hstep : ∀ s a, I s → C s a → I (step s a).1) (himp : ∀ s a, I s → C s a → D s a)
    {s : σ} (h : I s) {as : List α} (hC : Meets step C s as) : Meets step D s as := by
  induction as generalizing s with
  | nil => trivial
  | cons a as ih => exact ⟨himp s a h hC.1, ih (hstep s a h hC.1) hC.2⟩

/-- Two conditions that agree where an invariant holds are met by the same runs. -/
theorem meets_congr_of_invariant {C D : σ → α → Prop} {I : σ → Prop}
    (hstep : ∀ s a, I s → I (step s a).1) (hiff : ∀ s a, I s → (C s a ↔ D s a))
    {s : σ} (h : I s) {as : List α} : Meets step C s as ↔ Meets step D s as := by
  constructor
  · exact meets_of_invariant (fun s a hs _ => hstep s a hs) (fun s a hs => (hiff s a hs).mp) h
  · exact meets_of_invariant (fun s a hs _ => hstep s a hs) (fun s a hs => (hiff s a hs).mpr) h

/-- The unwinding rule.  Where the labels that are kept take related states to related states with
the same events, and the others keep the relation and emit nothing, a run looks as it would without
the others. -/
theorem unwinding {R : σ → σ → Prop} {C : α → Prop} {keep : α → Bool}
    (hkeep : ∀ s s' a, R s s' → C a → keep a = true →
      R (step s a).1 (step s' a).1 ∧ (step s a).2 = (step s' a).2)
    (hdrop : ∀ s s' a, R s s' → C a → keep a = false → R (step s a).1 s' ∧ (step s a).2 = [])
    {s s' : σ} (h : R s s') {as : List α} (hC : ∀ a ∈ as, C a) :
    R (final step s as) (final step s' (as.filter keep)) ∧
      events step s as = events step s' (as.filter keep) := by
  induction as generalizing s s' with
  | nil => exact ⟨h, rfl⟩
  | cons a as ih =>
    have hrest : ∀ b ∈ as, C b := fun b hb => hC b (List.mem_cons_of_mem _ hb)
    rcases hkept : keep a with _ | _
    · obtain ⟨hnext, hsilent⟩ := hdrop s s' a h (hC a List.mem_cons_self) hkept
      obtain ⟨hfinal, hevents⟩ := ih hnext hrest
      rw [List.filter_cons_of_neg (by simp [hkept]), final_cons, events_cons, hsilent]
      exact ⟨hfinal, hevents⟩
    · obtain ⟨hnext, hsame⟩ := hkeep s s' a h (hC a List.mem_cons_self) hkept
      obtain ⟨hfinal, hevents⟩ := ih hnext hrest
      rw [List.filter_cons_of_pos hkept, final_cons, events_cons, final_cons, events_cons, hsame,
        hevents]
      exact ⟨hfinal, rfl⟩

/-- The lockstep rule.  A step of the domain `D` takes related states to related states with the same
events exactly if it meets `C`.  Two runs of the same labels from related states then stay related,
with the same events, exactly if all steps meet `C`. -/
theorem lockstep_iff {R : σ → σ → Prop} {C D : σ → α → Prop} {I : σ → Prop}
    (hkeep : ∀ s a, I s → D s a → I (step s a).1)
    (hstep : ∀ s s' a, I s → R s s' → D s a →
      ((R (step s a).1 (step s' a).1 ∧ (step s a).2 = (step s' a).2) ↔ C s a))
    {s s' : σ} (hI : I s) (h : R s s') {as : List α} (hD : Meets step D s as) :
    (∀ n, R (final step s (as.take n)) (final step s' (as.take n)) ∧
      events step s (as.take n) = events step s' (as.take n)) ↔ Meets step C s as := by
  induction as generalizing s s' with
  | nil =>
    simp only [List.take_nil, final_nil, events_nil, and_true, meets_nil, iff_true]
    exact fun _ => h
  | cons a as ih =>
    constructor
    · intro hall
      have hone : R (step s a).1 (step s' a).1 ∧ (step s a).2 = (step s' a).2 := by
        simpa using hall 1
      have hC := (hstep s s' a hI h hD.1).mp hone
      refine ⟨hC, (ih (hkeep s a hI hD.1) hone.1 hD.2).mp fun n => ?_⟩
      obtain ⟨hrelated, hevents⟩ := hall (n + 1)
      rw [List.take_succ_cons, events_cons, events_cons, hone.2] at hevents
      exact ⟨hrelated, List.append_cancel_left hevents⟩
    · rintro ⟨hC, hrest⟩ n
      obtain ⟨hnext, hsame⟩ := (hstep s s' a hI h hD.1).mpr hC
      cases n with
      | zero => exact ⟨h, rfl⟩
      | succ n =>
        obtain ⟨hrelated, hevents⟩ := (ih (hkeep s a hI hD.1) hnext hD.2).mpr hrest n
        refine ⟨hrelated, ?_⟩
        rw [List.take_succ_cons, events_cons, events_cons, hsame, hevents]

/-- The persistence rule.  Under an invariant, a step that meets `C` keeps every fact of a family `Q`
and one that does not meet it loses one.  A run then keeps each of its facts from where it first
holds if and only if all its steps meet `C`. -/
theorem persists_iff_meets {κ : Type*} {C : σ → α → Prop} {I : σ → Prop} {Q : κ → σ → Prop}
    (hstep : ∀ s a, I s → I (step s a).1)
    (hkeep : ∀ s a k, I s → C s a → Q k s → Q k (step s a).1)
    (hlose : ∀ s a, I s → ¬ C s a → ∃ k, Q k s ∧ ¬ Q k (step s a).1) {s : σ} (h : I s)
    (as : List α) :
    (∀ pre mid post, as = pre ++ mid ++ post → ∀ k, Q k (final step s pre) →
      Q k (final step s (pre ++ mid))) ↔ Meets step C s as := by
  constructor
  · intro hpersists
    induction as generalizing s with
    | nil => trivial
    | cons a as ih =>
      refine ⟨?_, ih (hstep s a h) fun pre mid post has k hk => ?_⟩
      · by_contra hC
        obtain ⟨k, hbefore, hafter⟩ := hlose s a h hC
        exact hafter (hpersists [] [a] as rfl k hbefore)
      · exact hpersists (a :: pre) mid post (by simp [has]) k hk
  · intro hC pre mid post has k hk
    rw [has, List.append_assoc, meets_append, meets_append] at hC
    have hpre : I (final step s pre) := invariant hstep h pre
    have hboth : I (final step (final step s pre) mid) ∧ Q k (final step (final step s pre) mid) :=
      invariant_of_meets (I := fun t => I t ∧ Q k t)
        (fun t a ht hta => ⟨hstep t a ht.1, hkeep t a k ht.1 hta ht.2⟩) ⟨hpre, hk⟩ hC.2.1
    rw [final_append]
    exact hboth.2

/-- The rule of an invariant with an exact condition.  A step of the domain `D` that meets `C` keeps
`I`, and one that does not meet it loses `J`, which `I` implies.  A run in the domain then has `J` in
all its states if and only if all its steps meet `C`. -/
theorem always_iff_meets {C D : σ → α → Prop} {I J : σ → Prop}
    (hkeep : ∀ s a, I s → D s a → C s a → I (step s a).1)
    (hlose : ∀ s a, I s → D s a → ¬ C s a → ¬ J (step s a).1) (himp : ∀ s, I s → J s) {s : σ}
    (h : I s) {as : List α} (hD : Meets step D s as) :
    (∀ n, J (final step s (as.take n))) ↔ Meets step C s as := by
  induction as generalizing s with
  | nil =>
    simp only [List.take_nil, final_nil, meets_nil, iff_true]
    exact fun _ => himp s h
  | cons a as ih =>
    constructor
    · intro hall
      have hC : C s a := by
        by_contra hC
        exact hlose s a h hD.1 hC (hall 1)
      have hrest := ih (hkeep s a h hD.1 hC) hD.2
      exact ⟨hC, hrest.mp fun n => hall (n + 1)⟩
    · rintro ⟨hC, hrest⟩ n
      cases n with
      | zero => exact himp s h
      | succ n => exact (ih (hkeep s a h hD.1 hC) hD.2).mpr hrest n

/-- What holds of every event of every step of a run holds of every event of the run. -/
theorem events_forall_of_meets {P : ε → Prop} {s : σ} {as : List α}
    (h : Meets step (fun s a => ∀ e ∈ (step s a).2, P e) s as) :
    ∀ e ∈ events step s as, P e := by
  induction as generalizing s with
  | nil => simp
  | cons a as ih =>
    intro e he
    rcases List.mem_append.mp he with he | he
    · exact h.1 e he
    · exact ih h.2 e he

/-- Every event of a run was shown by one of its steps, and what came after it by that step or by the
steps after it. -/
theorem exists_step_of_events {s : σ} {as : List α} {before after : List ε} {e : ε}
    (h : events step s as = before ++ e :: after) :
    ∃ pre a post, as = pre ++ a :: post ∧ e ∈ (step (final step s pre) a).2 ∧
      ∀ e' ∈ events step (step (final step s pre) a).1 post, e' ∈ after := by
  induction as generalizing s before with
  | nil => cases before <;> cases h
  | cons a as ih =>
    rw [events_cons] at h
    obtain ⟨middle, hbefore, hrest⟩ | ⟨middle, hone, hafter⟩ := List.append_eq_append_iff.mp h
    · obtain ⟨pre, b, post, rfl, he, hlater⟩ := ih hrest
      exact ⟨a :: pre, b, post, rfl, he, hlater⟩
    · cases middle with
      | nil =>
        have hnext : events step (step s a).1 as = [] ++ e :: after := by simpa using hafter.symm
        obtain ⟨pre, b, post, rfl, he, hlater⟩ := ih hnext
        exact ⟨a :: pre, b, post, rfl, he, hlater⟩
      | cons _ middle =>
        obtain ⟨rfl, rfl⟩ := List.cons.inj hafter
        refine ⟨[], a, as, rfl, ?_, fun e' he' => List.mem_append_right _ he'⟩
        rw [final_nil, hone]
        exact List.mem_append_right _ List.mem_cons_self

/-! ## Potentials -/

/-- What the steps of a run cost in all. -/
def total (step : σ → α → σ × List ε) (cost : σ → α → ℕ) (s : σ) : List α → ℕ
  | [] => 0
  | a :: as => cost s a + total step cost (step s a).1 as

lemma total_take_le (cost : σ → α → ℕ) (s : σ) (as : List α) (n : ℕ) :
    total step cost s (as.take n) ≤ total step cost s as := by
  induction as generalizing s n with
  | nil => simp
  | cons a as ih =>
    cases n with
    | zero => exact Nat.zero_le _
    | succ n => exact Nat.add_le_add_left (ih (step s a).1 n) (cost s a)

/-- The potential rule.  Where no step raises the potential by more than it costs, no run raises it
by more than its steps cost in all. -/
theorem potential_le_of_meets {C : σ → α → Prop} {cost : σ → α → ℕ} {potential : σ → ℕ}
    (hstep : ∀ s a, C s a → potential (step s a).1 ≤ potential s + cost s a)
    {s : σ} {as : List α} (hC : Meets step C s as) :
    potential (final step s as) ≤ potential s + total step cost s as := by
  induction as generalizing s with
  | nil => exact Nat.le_add_right _ _
  | cons a as ih =>
    have hone := hstep s a hC.1
    have hrest := ih hC.2
    unfold total
    rw [final_cons]
    omega

/-! ## Simulations -/

/-- The simulation rule.  Where every step is matched by a step of another system, and a condition on
the one by a condition on the other, so is every run. -/
theorem simulates {τ β δ : Type*} {step' : τ → β → τ × List δ} {C : σ → α → Prop}
    {C' : τ → β → Prop} (view : σ → τ)
    (hstep : ∀ s a, C s a → ∃ b, view (step s a).1 = (step' (view s) b).1 ∧ C' (view s) b)
    {s : σ} {as : List α} (hC : Meets step C s as) :
    ∃ bs, view (final step s as) = final step' (view s) bs ∧ Meets step' C' (view s) bs := by
  induction as generalizing s with
  | nil => exact ⟨[], rfl, trivial⟩
  | cons a as ih =>
    obtain ⟨b, hview, hb⟩ := hstep s a hC.1
    obtain ⟨bs, hfinal, hbs⟩ := ih hC.2
    refine ⟨b :: bs, ?_, hb, ?_⟩
    · rw [final_cons, final_cons, hfinal, hview]
    · rw [← hview]
      exact hbs

/-- Where every step makes the steps of a list, a run makes the run of them all. -/
theorem final_flatMap {β δ : Type*} {step' : σ → β → σ × List δ} {ops : α → List β}
    (hstep : ∀ s a, (step s a).1 = final step' s (ops a)) (s : σ) (as : List α) :
    final step s as = final step' s (as.flatMap ops) := by
  induction as generalizing s with
  | nil => rfl
  | cons a as ih => rw [final_cons, List.flatMap_cons, final_append, ← hstep, ih]

/-! ## Histories -/

/-- A run as it was lived: each label with the state it was applied in. -/
def history (step : σ → α → σ × List ε) (s : σ) : List α → List (σ × α)
  | [] => []
  | a :: as => (s, a) :: history step (step s a).1 as

lemma map_snd_history (s : σ) (as : List α) : (history step s as).map Prod.snd = as := by
  induction as generalizing s with
  | nil => rfl
  | cons a as ih => simp [history, ih]

lemma history_append (s : σ) (as bs : List α) :
    history step s (as ++ bs) = history step s as ++ history step (final step s as) bs := by
  induction as generalizing s with
  | nil => rfl
  | cons a as ih => simp [history, ih]

/-- What one label adds to a history. -/
lemma history_concat (s : σ) (as : List α) (a : α) :
    history step s (as ++ [a]) = history step s as ++ [(final step s as, a)] := by
  simp [history_append, history]

lemma final_concat (s : σ) (as : List α) (a : α) :
    final step s (as ++ [a]) = (step (final step s as) a).1 := by
  simp [final_append]

end Run
