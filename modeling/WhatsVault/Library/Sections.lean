import WhatsVault.Library.Loop

/-!
# Lists in sections

A list with some of its items marked as heads is what stands before the first head, and then one
section for each head: the head with all that follows it up to the next (`split`).  A loop that opens
something at a head, extends what is open at any other item and puts it away when the next head comes
has made one thing for each section (`collects`).
-/

namespace Sections

variable {α β σ : Type*} (p : α → Bool)

/-- What stands before the first head, and the sections. -/
def split : List α → List α × List (α × List α)
  | [] => ([], [])
  | a :: as =>
    let rest := split as
    if p a then ([], (a, rest.1) :: rest.2) else (a :: rest.1, rest.2)

variable {p}

lemma split_cons_head {a : α} (as : List α) (ha : p a = true) :
    split p (a :: as) = ([], (a, (split p as).1) :: (split p as).2) := by
  rw [split, if_pos ha]

lemma split_cons_other {a : α} (as : List α) (ha : p a = false) :
    split p (a :: as) = (a :: (split p as).1, (split p as).2) := by
  rw [split, if_neg (by simp [ha])]

/-- The sections hold every item once, in order. -/
theorem leading_append_flatMap (as : List α) :
    (split p as).1 ++ (split p as).2.flatMap (fun s => s.1 :: s.2) = as := by
  induction as with
  | nil => rfl
  | cons a as ih =>
    cases ha : p a with
    | true => rw [split_cons_head as ha, List.nil_append, List.flatMap_cons, List.cons_append, ih]
    | false => rw [split_cons_other as ha, List.cons_append, ih]

lemma not_head_of_mem_leading {as : List α} {a : α} (h : a ∈ (split p as).1) : p a = false := by
  induction as with
  | nil => cases h
  | cons b as ih =>
    cases hb : p b with
    | true =>
      rw [split_cons_head as hb] at h
      cases h
    | false =>
      rw [split_cons_other as hb] at h
      rcases List.mem_cons.mp h with rfl | h
      · exact hb
      · exact ih h

lemma section_spec {as : List α} {s : α × List α} (h : s ∈ (split p as).2) :
    p s.1 = true ∧ ∀ a ∈ s.2, p a = false := by
  induction as with
  | nil => cases h
  | cons b as ih =>
    cases hb : p b with
    | true =>
      rw [split_cons_head as hb] at h
      rcases List.mem_cons.mp h with rfl | h
      · exact ⟨hb, fun a ha => not_head_of_mem_leading ha⟩
      · exact ih h
    | false =>
      rw [split_cons_other as hb] at h
      exact ih h

/-- An item is before the first head or in a section. -/
lemma mem_cases {as : List α} {a : α} (h : a ∈ as) :
    a ∈ (split p as).1 ∨ ∃ s ∈ (split p as).2, a ∈ s.1 :: s.2 := by
  rw [← leading_append_flatMap (p := p) as, List.mem_append, List.mem_flatMap] at h
  exact h

lemma mem_of_mem_section {as : List α} {s : α × List α} (hs : s ∈ (split p as).2) {a : α}
    (ha : a ∈ s.1 :: s.2) : a ∈ as := by
  rw [← leading_append_flatMap (p := p) as, List.mem_append, List.mem_flatMap]
  exact .inr ⟨s, hs, ha⟩

/-- Each head has its section. -/
lemma exists_section_of_head {as : List α} {a : α} (h : a ∈ as) (ha : p a = true) :
    ∃ s ∈ (split p as).2, s.1 = a := by
  rcases mem_cases (p := p) h with hleading | ⟨s, hs, hmem⟩
  · simp [not_head_of_mem_leading hleading] at ha
  · rcases List.mem_cons.mp hmem with rfl | hmem
    · exact ⟨s, hs, rfl⟩
    · simp [(section_spec hs).2 a hmem] at ha

/-- The first head opens the first section. -/
lemma find?_eq_head? (as : List α) : as.find? p = (split p as).2.head?.map Prod.fst := by
  induction as with
  | nil => rfl
  | cons a as ih =>
    cases ha : p a with
    | true =>
      rw [split_cons_head as ha, List.find?_cons_of_pos ha]
      rfl
    | false =>
      rw [split_cons_other as ha, List.find?_cons_of_neg (by simp [ha])]
      exact ih

/-! ## Loops over sections -/

variable (start : α → Option β) (extend : β → α → β)

/-- What a section makes. -/
def made (s : α × List α) : Option β := (start s.1).map fun b => s.2.foldl extend b

variable {start extend}

/-- A loop that starts something at each head and extends it at the other items makes what the
sections make; `I` is what its turns may rely on. -/
theorem collects {f : σ → α → Option σ} {I : σ → Prop} {done : σ → List β} {cur : σ → Option β}
    (hkeeps : ∀ s a s', I s → f s a = some s' → I s')
    (hhead : ∀ s a s', I s → p a = true → f s a = some s' →
      ∃ b, start a = some b ∧ done s' = done s ++ (cur s).toList ∧ cur s' = some b)
    (hother : ∀ s a s', I s → p a = false → f s a = some s' →
      done s' = done s ∧ cur s' = (cur s).map fun b => extend b a)
    {s t : σ} (hs : I s) {as : List α} (h : as.foldlM f s = some t) :
    ∃ bs, (split p as).2.mapM (made start extend) = some bs ∧
      done t ++ (cur t).toList =
        done s ++ ((cur s).map fun b => (split p as).1.foldl extend b).toList ++ bs := by
  induction as generalizing s with
  | nil =>
    rw [List.foldlM_nil] at h
    obtain rfl : s = t := Option.some.inj h
    exact ⟨[], rfl, by simp [split]⟩
  | cons a as ih =>
    obtain ⟨s', hs', hrest⟩ := Loop.cons_eq_some.mp h
    obtain ⟨bs, hbs, hmade⟩ := ih (hkeeps s a s' hs hs') hrest
    cases ha : p a with
    | true =>
      obtain ⟨b, hb, hdone, hcur⟩ := hhead s a s' hs ha hs'
      refine ⟨(split p as).1.foldl extend b :: bs, ?_, ?_⟩
      · rw [split_cons_head as ha, List.mapM_cons, hbs]
        simp [made, hb]
      · rw [hmade, hdone, hcur, split_cons_head as ha]
        simp
    | false =>
      obtain ⟨hdone, hcur⟩ := hother s a s' hs ha hs'
      refine ⟨bs, ?_, ?_⟩
      · rw [split_cons_other as ha]
        exact hbs
      · rw [hmade, hdone, hcur, split_cons_other as ha, Option.map_map]
        rfl

end Sections
