import WhatsVault.Library.MatchExpr

/-!
# What a MATCH expression hits

A tokenizer cuts a text into tokens.  A phrase stands where its tokens follow each other, the last of
them a beginning only where the phrase is starred; a NEAR group holds where its phrases stand in one
clump; a conjunction hits where all its operands hold.  A phrase without a token is left out, and a
conjunction of nothing else hits no text.

The trigram tokenizer cuts a text into its windows of three characters.  A phrase of three or more
characters stands in the trigrams of a text exactly where it is a substring (`holds_trigrams_iff`).
-/

namespace FullText

open MatchExpr (Operand Phrase)

/-- The tokens of a text in order. -/
abbrev Tokenizer := List Char → List (List Char)

/-- The tokens `ts` stand at the beginning of `ds`. -/
def standsAtHead (starred : Bool) : List (List Char) → List (List Char) → Bool
  | [], _ => true
  | _ :: _, [] => false
  | [t], d :: _ => if starred then t.isPrefixOf d else t = d
  | t :: ts, d :: ds => t = d ∧ standsAtHead starred ts ds

variable (T : Tokenizer)

def Phrase.standsAt (p : Phrase) (doc : List (List Char)) (i : ℕ) : Bool :=
  standsAtHead p.starred (T p.text) (doc.drop i)

/-- The phrases have a place each, the last of which begins at most `distance` tokens behind the end
of any. -/
def Clump (ps : List Phrase) (distance : ℕ) (doc : List (List Char)) : Prop :=
  ∃ last ≤ doc.length, (∃ p ∈ ps, Phrase.standsAt T p doc last = true) ∧
    ∀ p ∈ ps, ∃ i ≤ last,
      Phrase.standsAt T p doc i = true ∧ last ≤ i + (T p.text).length + distance

instance (ps : List Phrase) (distance : ℕ) (doc : List (List Char)) :
    Decidable (Clump T ps distance doc) :=
  inferInstanceAs (Decidable (∃ last ≤ doc.length, _))

/-- The phrases that have a token. -/
def tokenised (ps : List Phrase) : List Phrase := ps.filter fun p => T p.text ≠ []

def phrasesOf : Operand → List Phrase
  | .phrase p => [p]
  | .near ps _ => ps

def Holds (op : Operand) (text : List Char) : Prop :=
  match op with
  | .phrase p => ∃ i ≤ (T text).length, Phrase.standsAt T p (T text) i = true
  | .near ps distance => tokenised T ps = [] ∨ Clump T (tokenised T ps) distance (T text)

instance (op : Operand) (text : List Char) : Decidable (Holds T op text) := by
  cases op with
  | phrase p => exact inferInstanceAs (Decidable (∃ i ≤ (T text).length, _))
  | near ps distance => exact inferInstanceAs (Decidable (_ ∨ _))

/-- A conjunction hits a text. -/
def Hits (ops : List Operand) (text : List Char) : Prop :=
  (∃ op ∈ ops, tokenised T (phrasesOf op) ≠ []) ∧ ∀ op ∈ ops, Holds T op text

instance (ops : List Operand) (text : List Char) : Decidable (Hits T ops text) :=
  inferInstanceAs (Decidable (_ ∧ _))

/-! ## Trigrams -/

def windows : List Char → List (List Char)
  | a :: b :: c :: rest => [a, b, c] :: windows (b :: c :: rest)
  | _ => []

/-- The trigram tokenizer over a case folding. -/
def trigrams (fold : Char → Char) : Tokenizer := fun text => windows (text.map fold)

lemma drop_windows (text : List Char) (i : ℕ) : (windows text).drop i = windows (text.drop i) := by
  induction i generalizing text with
  | zero => rfl
  | succ i ih =>
    match text with
    | [] => simp [windows]
    | [a] => simp [windows]
    | [a, b] => cases i <;> simp [windows]
    | a :: b :: c :: rest => exact ih (b :: c :: rest)

lemma length_windows (text : List Char) : (windows text).length = text.length - 2 := by
  induction text using windows.induct with
  | case1 a b c rest ih =>
    rw [windows, List.length_cons, ih]
    simp
  | case2 text hshort =>
    match text, hshort with
    | [], _ => rfl
    | [a], _ => rfl
    | [a, b], _ => rfl
    | a :: b :: c :: rest, hshort => exact absurd rfl (hshort a b c rest)

/-- The windows of one text stand at the head of those of another exactly where it is its prefix. -/
lemma standsAtHead_windows_iff {s : List Char} (hs : 3 ≤ s.length) (text : List Char) :
    standsAtHead false (windows s) (windows text) = true ↔ s <+: text := by
  match s, text with
  | a :: b :: c :: rest, [] => simp [windows, standsAtHead]
  | a :: b :: c :: rest, [x] => simp [windows, standsAtHead]
  | a :: b :: c :: rest, [x, y] => simp [windows, standsAtHead]
  | [a, b, c], x :: y :: z :: more => simp [windows, standsAtHead]
  | a :: b :: c :: d :: rest, x :: y :: z :: more =>
    have ih := standsAtHead_windows_iff (s := b :: c :: d :: rest) (by simp) (y :: z :: more)
    have hstep : standsAtHead false (windows (a :: b :: c :: d :: rest))
          (windows (x :: y :: z :: more)) = true ↔
        [a, b, c] = [x, y, z] ∧
          standsAtHead false (windows (b :: c :: d :: rest)) (windows (y :: z :: more)) = true := by
      rw [windows, windows, windows]
      simp [standsAtHead]
    rw [hstep, ih]
    -- the second and third characters are compared twice
    constructor
    · intro h
      obtain ⟨hwindow, hrest⟩ := h
      exact List.cons_prefix_cons.mpr ⟨(List.cons.inj hwindow).1, hrest⟩
    · intro h
      obtain ⟨rfl, hrest⟩ := List.cons_prefix_cons.mp h
      obtain ⟨rfl, hmore⟩ := List.cons_prefix_cons.mp hrest
      obtain ⟨rfl, -⟩ := List.cons_prefix_cons.mp hmore
      exact ⟨rfl, hrest⟩

/-- A phrase of three or more characters stands in the trigrams of a text where it is a substring. -/
theorem holds_trigrams_iff (fold : Char → Char) {s : List Char} (hs : 3 ≤ s.length)
    (text : List Char) :
    Holds (trigrams fold) (.phrase ⟨s, false⟩) text ↔ s.map fold <:+: text.map fold := by
  have hstands (i : ℕ) : Phrase.standsAt (trigrams fold) ⟨s, false⟩ (trigrams fold text) i = true ↔
      s.map fold <+: (text.map fold).drop i := by
    unfold Phrase.standsAt trigrams
    rw [drop_windows]
    exact standsAtHead_windows_iff (by simpa using hs) _
  rw [List.infix_iff_prefix_suffix]
  constructor
  · intro h
    obtain ⟨i, -, hi⟩ := h
    exact ⟨_, (hstands i).mp hi, List.drop_suffix i _⟩
  · intro h
    obtain ⟨rest, hprefix, hsuffix⟩ := h
    have hrest := List.suffix_iff_eq_drop.mp hsuffix
    rw [hrest] at hprefix
    refine ⟨_, ?_, (hstands _).mpr hprefix⟩
    have hlong := hprefix.length_le
    unfold trigrams
    rw [length_windows]
    simp only [List.length_map, List.length_drop] at hlong ⊢
    omega

end FullText
