import Mathlib.Data.List.GetD
import WhatsVault.Library.Intervals
import WhatsVault.Search.Normalise

/-!
# Snippets

`search/snippet.py` over any alphabet and any table that says what one character is normalised to.
The terms are found in the normalised text, each match is projected through the origin map to a range
of the original, and the ranges are merged.

All there is to know of the origin map is `origin_lt_iff`: a normalised character comes from the first
`n` characters of the text exactly where it is one of those they are normalised to.
-/

namespace WhatsVault.Search

variable {α : Type} [DecidableEq α]

/-- `norm.find(t, start)`. -/
def findFrom (t norm : List α) (start : ℕ) : Option ℕ :=
  (List.range (norm.length + 1)).find? fun j => start ≤ j ∧ t <+: norm.drop j

/-- The `while` loop of `render` from `start` on: where the term was found.  A turn moves `start`
forward, so a bound one above the length of the text is not reached. -/
def occurrencesFrom (t norm : List α) : ℕ → ℕ → List ℕ
  | 0, _ => []
  | fuel + 1, start =>
    match findFrom t norm start with
    | none => []
    | some j => j :: occurrencesFrom t norm fuel (j + 1)

def occurrences (t norm : List α) : List ℕ := occurrencesFrom t norm (norm.length + 1) 0

/-- `(origin[j], origin[end - 1] + 1)`. -/
def projected (origin : List ℕ) (t : List α) (j : ℕ) : ℕ × ℕ :=
  (origin.getD j 0, origin.getD (j + t.length - 1) 0 + 1)

structure Snippet (α : Type) where
  displayText : List α
  spans : List (ℕ × ℕ)

/-- `t.strip()` of a normalised term. -/
def stripped (blank : α → Bool) (t : List α) : List α :=
  ((t.dropWhile blank).reverse.dropWhile blank).reverse

/-- A query term as it is looked for. -/
def needle (piece : α → List α) (blank : α → Bool) (term : List α) : List α :=
  stripped blank (mapped piece term).1

/-- `render`. -/
def render (piece : α → List α) (blank : α → Bool) (text : List α) (terms : List (List α)) :
    Snippet α :=
  let norm := (mapped piece text).1
  let origin := (mapped piece text).2
  let spans := terms.flatMap fun term =>
    let t := needle piece blank term
    if t = [] then [] else (occurrences t norm).map (projected origin t)
  ⟨text, Intervals.merge spans⟩

/-- `render` of strings, with the tables of the search normaliser. -/
def snippet (K : CharTables) (textOriginal : String) (queryTerms : List String) : Snippet Char :=
  render (normalised K [' ']) isSpace textOriginal.toList (queryTerms.map String.toList)

/-! ## The loop finds every occurrence -/

variable {t norm : List α}

lemma findFrom_eq_some {start j : ℕ} (h : findFrom t norm start = some j) :
    start ≤ j ∧ t <+: norm.drop j ∧ ∀ i, start ≤ i → t <+: norm.drop i → j ≤ i := by
  obtain ⟨hfound, -, hleast⟩ := List.find?_range_eq_some.mp h
  obtain ⟨hstart, hprefix⟩ := of_decide_eq_true hfound
  refine ⟨hstart, hprefix, fun i hi hpi => ?_⟩
  by_contra hlt
  have hno := hleast i (not_le.mp hlt)
  simp [hi, hpi] at hno

lemma findFrom_eq_none {start : ℕ} (h : findFrom t norm start = none) :
    ∀ i, start ≤ i → i ≤ norm.length → ¬ t <+: norm.drop i := by
  intro i hstart hlength hprefix
  have hno := List.find?_range_eq_none.mp h i (by omega)
  simp [hstart, hprefix] at hno

omit [DecidableEq α] in
/-- What is found fits behind its place. -/
lemma add_length_le {j : ℕ} (h : t <+: norm.drop j) (ht : t ≠ []) : j + t.length ≤ norm.length := by
  have hlength := h.length_le
  have hpos := List.length_pos_of_ne_nil ht
  rw [List.length_drop] at hlength
  omega

lemma mem_occurrencesFrom_iff (ht : t ≠ []) {fuel start : ℕ} (hfuel : norm.length < fuel + start)
    {j : ℕ} : j ∈ occurrencesFrom t norm fuel start ↔ start ≤ j ∧ t <+: norm.drop j := by
  induction fuel generalizing start with
  | zero =>
    constructor
    · intro h
      cases h
    · intro h
      have hfits := add_length_le h.2 ht
      omega
  | succ fuel ih =>
    unfold occurrencesFrom
    rcases hfind : findFrom t norm start with _ | first
    · constructor
      · intro h
        cases h
      · intro h
        have hfits := add_length_le h.2 ht
        exact absurd h.2 (findFrom_eq_none hfind j h.1 (by omega))
    · obtain ⟨hstart, hprefix, hleast⟩ := findFrom_eq_some hfind
      rw [List.mem_cons, ih (by omega)]
      constructor
      · intro h
        rcases h with rfl | h
        · exact ⟨hstart, hprefix⟩
        · exact ⟨by omega, h.2⟩
      · intro h
        rcases Nat.eq_or_lt_of_le (hleast j h.1 h.2) with heq | hlt
        · exact .inl heq.symm
        · exact .inr ⟨hlt, h.2⟩

lemma mem_occurrences_iff (ht : t ≠ []) {j : ℕ} :
    j ∈ occurrences t norm ↔ t <+: norm.drop j := by
  rw [occurrences, mem_occurrencesFrom_iff ht (by omega)]
  exact and_iff_right (Nat.zero_le j)

/-! ## The origin map -/

variable {piece : α → List α} {text : List α}

omit [DecidableEq α] in
lemma origin_lt_iff_from {i k : ℕ} (hk : k < (mappedFrom piece i text).1.length) (n : ℕ) :
    (mappedFrom piece i text).2.getD k 0 < i + n ↔ k < ((text.take n).flatMap piece).length := by
  induction text generalizing i k n with
  | nil => exact absurd hk (Nat.not_lt_zero k)
  | cons c cs ih =>
    have hsplit : (mappedFrom piece i (c :: cs)).2 =
        (piece c).map (fun _ => i) ++ (mappedFrom piece (i + 1) cs).2 := rfl
    have hlength : (mappedFrom piece i (c :: cs)).1.length =
        (piece c).length + (mappedFrom piece (i + 1) cs).1.length := List.length_append
    rw [hsplit]
    rcases Nat.lt_or_ge k (piece c).length with hhead | htail
    · have horigin : ((piece c).map fun _ => i).getD k 0 = i := by
        rw [List.map_const', List.getD_replicate _ hhead]
      rw [List.getD_append _ _ _ _ (by simpa using hhead), horigin]
      cases n with
      | zero => simp
      | succ n =>
        simp only [List.take_succ_cons, List.flatMap_cons, List.length_append]
        omega
    · have hrest : k - (piece c).length < (mappedFrom piece (i + 1) cs).1.length := by omega
      rw [List.getD_append_right _ _ _ _ (by simpa using htail), List.length_map]
      cases n with
      | zero =>
        have hlater := ih hrest 0
        simp only [List.take_zero, List.flatMap_nil, List.length_nil] at hlater ⊢
        omega
      | succ n =>
        have hlater := ih hrest n
        simp only [List.take_succ_cons, List.flatMap_cons, List.length_append]
        omega

omit [DecidableEq α] in
/-- A normalised character comes from the first `n` characters of the text exactly where it is one of
those they are normalised to. -/
lemma origin_lt_iff {k : ℕ} (hk : k < (mapped piece text).1.length) (n : ℕ) :
    (mapped piece text).2.getD k 0 < n ↔ k < ((text.take n).flatMap piece).length := by
  have h := origin_lt_iff_from hk n
  rwa [Nat.zero_add] at h

/-! ## The range of a match -/

omit [DecidableEq α] in
/-- What stands behind `before` and ends no later than `mid` stands in `mid`. -/
lemma infix_of_prefix_drop {before mid after : List α} {j : ℕ} (hbefore : before.length ≤ j)
    (hend : j + t.length ≤ before.length + mid.length)
    (h : t <+: (before ++ (mid ++ after)).drop j) : t <:+: mid := by
  rw [List.drop_append, List.drop_eq_nil_of_le hbefore, List.nil_append,
    List.drop_append_of_le_length (by omega)] at h
  have hprefix : t <+: mid.drop (j - before.length) := by
    refine List.prefix_of_prefix_length_le h (List.prefix_append _ _) ?_
    rw [List.length_drop]
    omega
  exact hprefix.isInfix.trans (List.drop_suffix _ _).isInfix

omit [DecidableEq α] in
lemma length_take_flatMap_le {j : ℕ} (hj : j < (mapped piece text).1.length) :
    ((text.take ((mapped piece text).2.getD j 0)).flatMap piece).length ≤ j := by
  have hself := (origin_lt_iff hj ((mapped piece text).2.getD j 0)).not.mp (lt_irrefl _)
  exact not_lt.mp hself

section Match

variable {j : ℕ} (ht : t ≠ []) (h : t <+: (mapped piece text).1.drop j)
include ht h

omit [DecidableEq α] in
lemma last_lt_length : j + t.length - 1 < (mapped piece text).1.length := by
  have hfits := add_length_le h ht
  have hpos := List.length_pos_of_ne_nil ht
  omega

omit [DecidableEq α] in
lemma first_lt_length : j < (mapped piece text).1.length := by
  have hlast := last_lt_length ht h
  have hpos := List.length_pos_of_ne_nil ht
  omega

omit [DecidableEq α] in
lemma projected_proper :
    (projected (mapped piece text).2 t j).1 < (projected (mapped piece text).2 t j).2 := by
  have hpos := List.length_pos_of_ne_nil ht
  have hfirst := length_take_flatMap_le (first_lt_length ht h)
  have hlast := origin_lt_iff (last_lt_length ht h) ((mapped piece text).2.getD j 0)
  unfold projected
  by_contra hnot
  have hbefore := hlast.mp (by omega)
  omega

omit [DecidableEq α] in
lemma projected_le_length : (projected (mapped piece text).2 t j).2 ≤ text.length := by
  have hlast := last_lt_length ht h
  have hwhole := origin_lt_iff hlast text.length
  rw [List.take_length, ← fst_mappedFrom piece 0 text] at hwhole
  exact hwhole.mpr hlast

omit [DecidableEq α] in
/-- What the range of a match is normalised to has the term in it. -/
lemma infix_projected :
    t <:+: ((text.drop (projected (mapped piece text).2 t j).1).take
      ((projected (mapped piece text).2 t j).2 - (projected (mapped piece text).2 t j).1)).flatMap
        piece := by
  have hproper := projected_proper ht h
  have hbefore := length_take_flatMap_le (first_lt_length ht h)
  have hlast := (origin_lt_iff (last_lt_length ht h) (projected (mapped piece text).2 t j).2).mp
    (Nat.lt_succ_self _)
  change ((text.take (projected (mapped piece text).2 t j).1).flatMap piece).length ≤ j at hbefore
  generalize (projected (mapped piece text).2 t j).1 = lo at hproper hbefore
  generalize (projected (mapped piece text).2 t j).2 = hi at hproper hlast
  obtain ⟨n, rfl⟩ : ∃ n, hi = lo + n := ⟨hi - lo, by omega⟩
  rw [Nat.add_sub_cancel_left]
  rw [List.take_add, List.flatMap_append, List.length_append] at hlast
  have hnorm : (mapped piece text).1 = (text.take lo).flatMap piece ++
      (((text.drop lo).take n).flatMap piece ++ ((text.drop lo).drop n).flatMap piece) := by
    rw [← List.flatMap_append, List.take_append_drop, ← List.flatMap_append, List.take_append_drop]
    exact fst_mappedFrom piece 0 text
  have hpos := List.length_pos_of_ne_nil ht
  rw [hnorm] at h
  exact infix_of_prefix_drop hbefore (by omega) h

end Match

/-! ## The spans -/

/-- The term is looked for, and stands in the normalised text behind `j` characters. -/
def MatchesAt (piece : α → List α) (blank : α → Bool) (text term : List α) (j : ℕ) : Prop :=
  needle piece blank term ≠ [] ∧ needle piece blank term <+: (mapped piece text).1.drop j

/-- The range of the original that a match of the term projects to. -/
def matchRange (piece : α → List α) (blank : α → Bool) (text term : List α) (j : ℕ) : ℕ × ℕ :=
  projected (mapped piece text).2 (needle piece blank term) j

/-- What a range of the original is normalised to. -/
def normalisedRange (piece : α → List α) (text : List α) (s : ℕ × ℕ) : List α :=
  ((text.drop s.1).take (s.2 - s.1)).flatMap piece

variable {blank : α → Bool} {terms : List (List α)}

/-- The ranges that are merged are those of the matches. -/
lemma mem_spans_iff {s : ℕ × ℕ} :
    s ∈ (terms.flatMap fun term =>
        if needle piece blank term = [] then []
        else (occurrences (needle piece blank term) (mapped piece text).1).map
          (projected (mapped piece text).2 (needle piece blank term))) ↔
      ∃ term ∈ terms, ∃ j, MatchesAt piece blank text term j ∧
        s = matchRange piece blank text term j := by
  rw [List.mem_flatMap]
  refine exists_congr fun term => and_congr_right fun _ => ?_
  by_cases hempty : needle piece blank term = []
  · rw [if_pos hempty]
    constructor
    · intro h
      cases h
    · intro h
      obtain ⟨j, hmatch, -⟩ := h
      exact absurd hempty hmatch.1
  · rw [if_neg hempty, List.mem_map]
    constructor
    · intro h
      obtain ⟨j, hj, rfl⟩ := h
      exact ⟨j, ⟨hempty, (mem_occurrences_iff hempty).mp hj⟩, rfl⟩
    · intro h
      obtain ⟨j, hmatch, rfl⟩ := h
      exact ⟨j, (mem_occurrences_iff hempty).mpr hmatch.2, rfl⟩

/-- **Highlighting is sound and complete.**  The spans lie in the text with a gap between any two; they
cover the ranges of the matches and nothing else, stripped characters inside them included; and what
each such range is normalised to has its term in it. -/
theorem render_highlights_matches (piece : α → List α) (blank : α → Bool) (text : List α)
    (terms : List (List α)) :
    (render piece blank text terms).displayText = text ∧
      (∀ s ∈ (render piece blank text terms).spans, s.1 < s.2 ∧ s.2 ≤ text.length) ∧
      ((render piece blank text terms).spans.Pairwise fun a b => a.2 < b.1) ∧
      (∀ i, Intervals.Covers (render piece blank text terms).spans i ↔
        ∃ term ∈ terms, ∃ j, MatchesAt piece blank text term j ∧
          Intervals.Contains (matchRange piece blank text term j) i) ∧
      ∀ term ∈ terms, ∀ j, MatchesAt piece blank text term j →
        needle piece blank term <:+: normalisedRange piece text (matchRange piece blank text term j) ∧
          ∀ i c, text[i]? = some c → piece c = [] →
            Intervals.Contains (matchRange piece blank text term j) i →
              Intervals.Covers (render piece blank text terms).spans i := by
  have hcovers (i : ℕ) : Intervals.Covers (render piece blank text terms).spans i ↔
      ∃ term ∈ terms, ∃ j, MatchesAt piece blank text term j ∧
        Intervals.Contains (matchRange piece blank text term j) i := by
    unfold render
    rw [Intervals.covers_merge]
    unfold Intervals.Covers
    simp only [mem_spans_iff]
    constructor
    · intro h
      obtain ⟨_, ⟨term, hterm, j, hmatch, rfl⟩, hi⟩ := h
      exact ⟨term, hterm, j, hmatch, hi⟩
    · intro h
      obtain ⟨term, hterm, j, hmatch, hi⟩ := h
      exact ⟨_, ⟨term, hterm, j, hmatch, rfl⟩, hi⟩
  have hproper : ∀ s ∈ (render piece blank text terms).spans, s.1 < s.2 := by
    refine Intervals.proper_merge fun s hs => ?_
    obtain ⟨term, -, j, hmatch, rfl⟩ := mem_spans_iff.mp hs
    exact projected_proper hmatch.1 hmatch.2
  have hbounds : ∀ s ∈ (render piece blank text terms).spans, s.2 ≤ text.length := by
    intro s hs
    -- the last character a span has is one of some match
    have hlast : Intervals.Contains s (s.2 - 1) := by
      have hlt := hproper s hs
      exact ⟨by omega, by omega⟩
    obtain ⟨term, -, j, hmatch, hcontains⟩ := (hcovers (s.2 - 1)).mp ⟨s, hs, hlast⟩
    have hinside : s.2 - 1 < (matchRange piece blank text term j).2 := hcontains.2
    have hle : (matchRange piece blank text term j).2 ≤ text.length :=
      projected_le_length hmatch.1 hmatch.2
    omega
  refine ⟨rfl, fun s hs => ⟨hproper s hs, hbounds s hs⟩, Intervals.apart_merge _, hcovers, ?_⟩
  intro term hterm j hmatch
  refine ⟨infix_projected hmatch.1 hmatch.2, fun i c _ _ hi => ?_⟩
  exact (hcovers i).mpr ⟨term, hterm, j, hmatch, hi⟩

/-- A tatweel inside of a match. -/
example : (snippet ⟨fun c => [c], id⟩ "این کتـاب است" ["کتاب"]).spans = [(4, 9)] := by
  decide

end WhatsVault.Search
