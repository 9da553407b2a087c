import Mathlib.Data.List.Basic
import Mathlib.Tactic.Common

/-!
# Canonical forms of texts

A text over an alphabet whose characters may decompose, and whose marks commute unless they have the
same rank.  The decomposed form decomposes every character and puts the marks of each run into the
order of their ranks; the composed form then puts characters together from left to right.  Texts
with one decomposed form are equivalent.  Equivalence is a congruence (`Equivalent.append`), and the
composed form stays inside the class (`equivalent_nfc`), so it too is equal for equivalent texts and
for no others (`nfc_eq_iff`).

A map from characters to lists, applied character by character, respects equivalence on the class of
a text exactly when it cannot tell a character of a text of the class from its decomposition, nor
two neighbouring marks from the same two swapped (`invariant_iff`).
-/

/-- What composition and decomposition read: the full decomposition of every character, its rank,
which is 0 for a character that begins a run, and the character two characters compose to. -/
structure CharacterForms (α : Type*) where
  decomp : α → List α
  rank : α → ℕ
  comp : α → α → Option α
  /-- A decomposition is full. -/
  decomp_decomp : ∀ a, ∀ b ∈ decomp a, decomp b = [b]
  /-- A composite decomposes into what it is composed of. -/
  comp_decomp : ∀ a b c, comp a b = some c → decomp c = decomp a ++ decomp b

namespace CharacterForms

variable {α : Type*} (C : CharacterForms α)

/-- A mark before an ordered text: it moves behind the marks of lower rank. -/
def insertMark (a : α) : List α → List α
  | [] => [a]
  | b :: rest => if 0 < C.rank b ∧ C.rank b < C.rank a then b :: insertMark a rest else a :: b :: rest

/-- The canonical order: the marks of every run by rank, those of one rank as they stand. -/
def order (text : List α) : List α := text.foldr C.insertMark []

/-- The decomposed form. -/
def nfd (text : List α) : List α := C.order (text.flatMap C.decomp)

/-- Whether the marks between a character and `c` keep the two apart. -/
def blocked (marks : List α) (c : α) : Bool :=
  marks.any fun b => C.rank b = 0 ∨ C.rank c ≤ C.rank b

/-- The composition of what follows a character `s`, the marks since then being `marks`. -/
def composeFrom (s : α) (marks : List α) : List α → List α
  | [] => s :: marks
  | c :: rest =>
    match if C.blocked marks c then none else C.comp s c with
    | some d => composeFrom d marks rest
    | none =>
      if C.rank c = 0 then s :: marks ++ composeFrom c [] rest
      else composeFrom s (marks ++ [c]) rest

/-- The composition of a decomposed text; marks before its first character stay as they are. -/
def compose : List α → List α
  | [] => []
  | a :: rest => if C.rank a = 0 then C.composeFrom a [] rest else a :: compose rest

/-- The composed form. -/
def nfc (text : List α) : List α := C.compose (C.nfd text)

/-- Canonical equivalence. -/
def Equivalent (x y : List α) : Prop := C.nfd x = C.nfd y

/-- Two marks that may change places. -/
structure Swappable (a b : α) : Prop where
  ne : C.rank a ≠ C.rank b
  left : 0 < C.rank a
  right : 0 < C.rank b

/-- A character that is its own decomposition. -/
def Whole (a : α) : Prop := C.decomp a = [a]

variable {C}

/-! ## The canonical order -/

lemma Swappable.symm {a b : α} (h : C.Swappable a b) : C.Swappable b a := ⟨h.ne.symm, h.right, h.left⟩

lemma insertMark_comm {a b : α} (h : C.Swappable a b) (l : List α) :
    C.insertMark a (C.insertMark b l) = C.insertMark b (C.insertMark a l) := by
  obtain ⟨hne, hleft, hright⟩ := h
  induction l with
  | nil =>
    simp only [insertMark]
    split_ifs <;> first | rfl | omega
  | cons c l ih =>
    simp only [insertMark]
    split_ifs <;> simp only [insertMark] <;> split_ifs <;> first | rfl | omega | rw [ih]

/-- A mark put into the order of `xs` is put into the order of what follows `xs`. -/
lemma foldr_insertMark_insertMark (l : List α) (a : α) (xs : List α) :
    (C.insertMark a xs).foldr C.insertMark l = C.insertMark a (xs.foldr C.insertMark l) := by
  induction xs with
  | nil => rfl
  | cons b xs ih =>
    simp only [insertMark]
    split_ifs with hbefore
    · rw [List.foldr_cons, ih, List.foldr_cons]
      exact insertMark_comm ⟨by omega, by omega, by omega⟩ _
    · rfl

lemma foldr_order (l xs : List α) : (C.order xs).foldr C.insertMark l = xs.foldr C.insertMark l := by
  induction xs with
  | nil => rfl
  | cons a xs ih =>
    rw [List.foldr_cons, ← ih]
    exact foldr_insertMark_insertMark l a (C.order xs)

@[simp] lemma order_order (xs : List α) : C.order (C.order xs) = C.order xs := foldr_order [] xs

lemma order_append (xs ys : List α) : C.order (xs ++ ys) = xs.foldr C.insertMark (C.order ys) :=
  List.foldr_append

lemma mem_insertMark {a b : α} {l : List α} : b ∈ C.insertMark a l ↔ b = a ∨ b ∈ l := by
  induction l with
  | nil => simp [insertMark]
  | cons c l ih =>
    simp only [insertMark]
    split_ifs
    · simp only [List.mem_cons, ih]
      tauto
    · simp only [List.mem_cons]

lemma mem_order {b : α} {l : List α} : b ∈ C.order l ↔ b ∈ l := by
  induction l with
  | nil => rfl
  | cons a l ih =>
    change b ∈ C.insertMark a (C.order l) ↔ _
    rw [mem_insertMark, ih, List.mem_cons]

/-! ## Equivalence -/

@[refl] lemma Equivalent.refl (x : List α) : C.Equivalent x x := rfl

lemma Equivalent.symm {x y : List α} (h : C.Equivalent x y) : C.Equivalent y x := Eq.symm h

lemma Equivalent.trans {x y z : List α} (h : C.Equivalent x y) (h' : C.Equivalent y z) :
    C.Equivalent x z := Eq.trans h h'

/-- **Equivalence is a congruence.** -/
lemma Equivalent.append {x x' y y' : List α} (hx : C.Equivalent x x') (hy : C.Equivalent y y') :
    C.Equivalent (x ++ y) (x' ++ y') := by
  simp only [Equivalent, nfd, List.flatMap_append, order_append] at hx hy ⊢
  rw [hy, ← foldr_order _ (x.flatMap C.decomp), hx, foldr_order]

lemma Equivalent.cons (a : α) {x y : List α} (h : C.Equivalent x y) :
    C.Equivalent (a :: x) (a :: y) := Equivalent.append (Equivalent.refl [a]) h

lemma flatMap_of_whole {x : List α} (h : ∀ a ∈ x, C.Whole a) : x.flatMap C.decomp = x := by
  induction x with
  | nil => rfl
  | cons a x ih =>
    rw [List.forall_mem_cons] at h
    rw [List.flatMap_cons, h.1, ih h.2, List.singleton_append]

lemma whole_of_mem_decomps {x : List α} : ∀ b ∈ x.flatMap C.decomp, C.Whole b := by
  intro b hb
  obtain ⟨a, -, hb⟩ := List.mem_flatMap.mp hb
  exact C.decomp_decomp a b hb

lemma equivalent_decomp (a : α) : C.Equivalent (C.decomp a) [a] := by
  have hwhole : (C.decomp a).flatMap C.decomp = C.decomp a :=
    flatMap_of_whole (C.decomp_decomp a)
  simp only [Equivalent, nfd, hwhole, List.flatMap_cons, List.flatMap_nil, List.append_nil]

lemma equivalent_decomps (x : List α) : C.Equivalent (x.flatMap C.decomp) x := by
  simp only [Equivalent, nfd, flatMap_of_whole whole_of_mem_decomps]

lemma equivalent_order {x : List α} (h : ∀ a ∈ x, C.Whole a) : C.Equivalent (C.order x) x := by
  have horder : ∀ a ∈ C.order x, C.Whole a := fun a ha => h a (mem_order.mp ha)
  simp only [Equivalent, nfd, flatMap_of_whole h, flatMap_of_whole horder, order_order]

lemma whole_of_mem_nfd {x : List α} : ∀ a ∈ C.nfd x, C.Whole a :=
  fun a ha => whole_of_mem_decomps a (mem_order.mp ha)

/-- The decomposed form stays inside the class. -/
lemma equivalent_nfd (x : List α) : C.Equivalent (C.nfd x) x :=
  (equivalent_order whole_of_mem_decomps).trans (equivalent_decomps x)

lemma equivalent_swap {a b : α} (ha : C.Whole a) (hb : C.Whole b) (h : C.Swappable a b) :
    C.Equivalent [a, b] [b, a] := by
  have hflat : ∀ c d : α, C.Whole c → C.Whole d → [c, d].flatMap C.decomp = [c, d] := by
    intro c d hc hd
    exact flatMap_of_whole (by simp [hc, hd])
  simp only [Equivalent, nfd, hflat a b ha hb, hflat b a hb ha]
  exact insertMark_comm h []

lemma equivalent_comp {a b c : α} (h : C.comp a b = some c) : C.Equivalent [c] [a, b] := by
  simp only [Equivalent, nfd, List.flatMap_cons, List.flatMap_nil, List.append_nil,
    C.comp_decomp a b c h]

/-! ## Composition -/

/-- A mark moves to the front of the marks it may change places with. -/
lemma equivalent_moved {c : α} (hc : C.Whole c) {marks : List α}
    (h : ∀ m ∈ marks, C.Whole m ∧ C.Swappable m c) :
    C.Equivalent (marks ++ [c]) (c :: marks) := by
  induction marks with
  | nil => rfl
  | cons m marks ih =>
    rw [List.forall_mem_cons] at h
    have hswap : C.Equivalent ([m, c] ++ marks) ([c, m] ++ marks) :=
      Equivalent.append (equivalent_swap h.1.1 hc h.1.2) (Equivalent.refl marks)
    exact ((ih h.2).cons m).trans hswap

lemma swappable_of_not_blocked {marks : List α} {c : α} (h : C.blocked marks c = false) :
    ∀ m ∈ marks, C.Swappable m c := by
  intro m hm
  have hfree := List.any_eq_false.mp h m hm
  simp only [decide_eq_true_eq, not_or] at hfree
  exact ⟨by omega, by omega, by omega⟩

/-- Composing what follows a character keeps the class: a mark that is taken up may first move
next to the character, since no mark before it keeps it away. -/
lemma equivalent_composeFrom (s : α) {marks rest : List α} (hmarks : ∀ m ∈ marks, C.Whole m)
    (hrest : ∀ c ∈ rest, C.Whole c) :
    C.Equivalent (C.composeFrom s marks rest) (s :: marks ++ rest) := by
  induction rest generalizing s marks with
  | nil => simp only [composeFrom, List.append_nil, Equivalent.refl]
  | cons c rest ih =>
    rw [List.forall_mem_cons] at hrest
    obtain ⟨hc, hrest⟩ := hrest
    unfold composeFrom
    split
    · rename_i d hd
      obtain ⟨hfree, hcomp⟩ : C.blocked marks c = false ∧ C.comp s c = some d := by
        cases hblocked : C.blocked marks c
        · exact ⟨rfl, by simpa [hblocked] using hd⟩
        · simp [hblocked] at hd
      have hmoved : C.Equivalent (marks ++ [c]) (c :: marks) :=
        equivalent_moved hc fun m hm => ⟨hmarks m hm, swappable_of_not_blocked hfree m hm⟩
      have htaken : C.Equivalent (d :: marks) (s :: (marks ++ [c])) :=
        ((equivalent_comp hcomp).append (Equivalent.refl marks)).trans (hmoved.symm.cons s)
      have hall := (ih d hmarks hrest).trans (htaken.append (Equivalent.refl rest))
      simpa using hall
    · split_ifs
      · have hnone : ∀ m ∈ ([] : List α), C.Whole m := by simp
        have htail := ih c hnone hrest
        exact Equivalent.append (Equivalent.refl (s :: marks)) htail
      · have hmarks' : ∀ m ∈ marks ++ [c], C.Whole m := by
          intro m hm
          rcases List.mem_append.mp hm with hm | hm
          · exact hmarks m hm
          · rw [List.mem_singleton.mp hm]
            exact hc
        simpa using ih s hmarks' hrest

lemma equivalent_compose {x : List α} (h : ∀ a ∈ x, C.Whole a) : C.Equivalent (C.compose x) x := by
  induction x with
  | nil => rfl
  | cons a x ih =>
    rw [List.forall_mem_cons] at h
    unfold compose
    split_ifs
    · have hnone : ∀ m ∈ ([] : List α), C.Whole m := by simp
      exact equivalent_composeFrom a hnone h.2
    · exact (ih h.2).cons a

/-- The composed form stays inside the class. -/
theorem equivalent_nfc (x : List α) : C.Equivalent (C.nfc x) x :=
  (equivalent_compose whole_of_mem_nfd).trans (equivalent_nfd x)

/-- **The composed form is a normal form**: equal for equivalent texts and for no others. -/
theorem nfc_eq_iff {x y : List α} : C.nfc x = C.nfc y ↔ C.Equivalent x y := by
  constructor
  · intro h
    have hboth : C.Equivalent (C.nfc x) y := h ▸ equivalent_nfc y
    exact (equivalent_nfc x).symm.trans hboth
  · intro h
    unfold nfc
    rw [h]

/-! ## What respects equivalence -/

variable {β : Type*} {form : α → List β} {x : List α}

/-- In the texts equivalent to `x`, `form` gives a character what it gives its decomposition, and
gives two neighbouring marks what it gives them swapped. -/
structure Respects (C : CharacterForms α) (form : α → List β) (x : List α) : Prop where
  decomposed : ∀ p c s, C.Equivalent (p ++ c :: s) x → (C.decomp c).flatMap form = form c
  swapped : ∀ p a b s, C.Equivalent (p ++ a :: b :: s) x → C.Whole a → C.Whole b →
    C.Swappable a b → form a ++ form b = form b ++ form a

lemma Respects.decomps (h : Respects C form x) (p y : List α) (hy : C.Equivalent (p ++ y) x) :
    (y.flatMap C.decomp).flatMap form = y.flatMap form := by
  induction y generalizing p with
  | nil => rfl
  | cons c y ih =>
    have htail := ih (p ++ [c]) (by simpa using hy)
    rw [List.flatMap_cons, List.flatMap_append, List.flatMap_cons, htail, h.decomposed p c y hy]

lemma Respects.insertMark (h : Respects C form x) {a : α} (ha : C.Whole a) (p : List α)
    {l : List α} (hl : ∀ b ∈ l, C.Whole b) (hy : C.Equivalent (p ++ a :: l) x) :
    (C.insertMark a l).flatMap form = form a ++ l.flatMap form := by
  induction l generalizing p with
  | nil => rfl
  | cons b l ih =>
    rw [List.forall_mem_cons] at hl
    simp only [CharacterForms.insertMark]
    split_ifs with hbefore
    · have hswap : C.Swappable a b := ⟨by omega, by omega, by omega⟩
      have hmoved : C.Equivalent (p ++ [b] ++ a :: l) x := by
        have hpair := (equivalent_swap hl.1 ha hswap.symm).append (Equivalent.refl l)
        have hall := (Equivalent.refl p).append hpair
        exact Equivalent.trans (by simpa using hall) hy
      rw [List.flatMap_cons, ih (p ++ [b]) hl.2 hmoved, List.flatMap_cons, ← List.append_assoc,
        ← List.append_assoc, h.swapped p a b l hy ha hl.1 hswap]
    · rfl

lemma Respects.order (h : Respects C form x) (p : List α) {z : List α}
    (hz : ∀ a ∈ z, C.Whole a) (hy : C.Equivalent (p ++ z) x) :
    (C.order z).flatMap form = z.flatMap form := by
  induction z generalizing p with
  | nil => rfl
  | cons a z ih =>
    rw [List.forall_mem_cons] at hz
    have htail := ih (p ++ [a]) hz.2 (by simpa using hy)
    have hordered : C.Equivalent (p ++ a :: C.order z) x :=
      ((Equivalent.refl p).append ((equivalent_order hz.2).cons a)).trans hy
    have hwhole : ∀ b ∈ C.order z, C.Whole b := fun b hb => hz.2 b (mem_order.mp hb)
    change (C.insertMark a (C.order z)).flatMap form = _
    rw [h.insertMark hz.1 p hwhole hordered, htail, List.flatMap_cons]

/-- Where `form` respects the class of a text, the decomposed form shows what every text of the
class becomes. -/
lemma Respects.nfd (h : Respects C form x) {y : List α} (hy : C.Equivalent y x) :
    (C.nfd y).flatMap form = y.flatMap form := by
  have hdecomps : C.Equivalent ([] ++ y.flatMap C.decomp) x := (equivalent_decomps y).trans hy
  unfold CharacterForms.nfd
  rw [h.order [] whole_of_mem_decomps hdecomps, h.decomps [] y hy]

/-- **A map of characters is an invariant of a class exactly when it respects the single steps.** -/
theorem invariant_iff :
    (∀ y, C.Equivalent y x → y.flatMap form = x.flatMap form) ↔ Respects C form x := by
  constructor
  · intro hinvariant
    constructor
    · intro p c s hy
      have hsplit : C.Equivalent (p ++ (C.decomp c ++ s)) (p ++ c :: s) :=
        (Equivalent.refl p).append ((equivalent_decomp c).append (Equivalent.refl s))
      have hsame := (hinvariant _ (hsplit.trans hy)).trans (hinvariant _ hy).symm
      simp only [List.flatMap_append, List.flatMap_cons] at hsame
      exact List.append_cancel_right (List.append_cancel_left hsame)
    · intro p a b s hy ha hb hswap
      have hswapped : C.Equivalent (p ++ ([b, a] ++ s)) (p ++ a :: b :: s) :=
        (Equivalent.refl p).append
          ((equivalent_swap hb ha hswap.symm).append (Equivalent.refl s))
      have hsame := (hinvariant _ hy).trans (hinvariant _ (hswapped.trans hy)).symm
      simp only [List.flatMap_append, List.flatMap_cons, List.flatMap_nil, List.append_nil,
        ← List.append_assoc] at hsame
      have hleft := List.append_cancel_right hsame
      simp only [List.append_assoc] at hleft
      exact List.append_cancel_left hleft
  · intro h y hy
    rw [← h.nfd hy, ← h.nfd (Equivalent.refl x), hy]

end CharacterForms
