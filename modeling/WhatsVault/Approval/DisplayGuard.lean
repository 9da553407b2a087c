import Mathlib.Data.List.Basic
import Mathlib.Tactic.Common
import WhatsVault.Text

/-!
# The display guard

`scan` reads a body character by character, each with its two neighbours, before a phone offers to
approve it: bidirectional controls, other invisible characters, a ZWNJ away from Arabic script, and
Latin beside Cyrillic are flagged.  What it lists of each kind is less than what Unicode has of it,
and one Arabic neighbour is enough for a ZWNJ.  So a text it calls safe is clean unless it holds
something of those kinds that the lists leave out (`scan_safe_clean_iff`).
-/

namespace WhatsVault.DisplayGuard

/-! ## Characters with their neighbours -/

section Neighbours

variable {α : Type*}

/-- Every element of a list between the one before it and the one after it, `left` standing before
the first. -/
def neighboursFrom (left : Option α) : List α → List (Option α × α × Option α)
  | [] => []
  | a :: rest => (left, a, rest.head?) :: neighboursFrom (some a) rest

def neighbours (xs : List α) : List (Option α × α × Option α) := neighboursFrom none xs

lemma getLast?_or_cons (x : α) (p : List α) (left : Option α) :
    (x :: p).getLast?.or left = p.getLast?.or (some x) := by
  rw [List.getLast?_cons]
  cases p.getLast? <;> rfl

lemma mem_neighboursFrom {left l r : Option α} {a : α} {xs : List α} :
    (l, a, r) ∈ neighboursFrom left xs ↔
      ∃ p s, xs = p ++ a :: s ∧ l = p.getLast?.or left ∧ r = s.head? := by
  induction xs generalizing left with
  | nil => simp [neighboursFrom]
  | cons x xs ih =>
    simp only [neighboursFrom, List.mem_cons, Prod.mk.injEq, ih]
    constructor
    · rintro (⟨rfl, rfl, rfl⟩ | ⟨p, s, rfl, rfl, rfl⟩)
      · exact ⟨[], xs, rfl, rfl, rfl⟩
      · exact ⟨x :: p, s, rfl, (getLast?_or_cons x p left).symm, rfl⟩
    · rintro ⟨p, s, hxs, rfl, rfl⟩
      cases p with
      | nil =>
        obtain ⟨rfl, rfl⟩ := List.cons.inj hxs
        exact .inl ⟨rfl, rfl, rfl⟩
      | cons y p =>
        obtain ⟨rfl, rfl⟩ := List.cons.inj hxs
        exact .inr ⟨p, s, rfl, getLast?_or_cons _ p left, rfl⟩

lemma mem_neighbours {l r : Option α} {a : α} {xs : List α} :
    (l, a, r) ∈ neighbours xs ↔ ∃ p s, xs = p ++ a :: s ∧ l = p.getLast? ∧ r = s.head? := by
  simp [neighbours, mem_neighboursFrom]

end Neighbours

/-! ## The scan -/

/-- `_BIDI`. -/
def bidi : List ℕ :=
  [0x202A, 0x202B, 0x202C, 0x202D, 0x202E, 0x2066, 0x2067, 0x2068, 0x2069, 0x200E, 0x200F]

/-- `_ZWNJ`. -/
def zwnj : ℕ := 0x200C

/-- `_OTHER_INVISIBLE`. -/
def otherInvisible : List ℕ := [0x200B, 0x2060, 0xFEFF, 0x2061, 0x2062, 0x2063]

inductive Script
  | arabic
  | cyrillic
  | latin
  deriving DecidableEq

/-- `_script`. -/
def script (o : ℕ) : Option Script :=
  if (0x0600 ≤ o ∧ o ≤ 0x06FF) ∨ (0x0750 ≤ o ∧ o ≤ 0x077F) ∨ (0xFB50 ≤ o ∧ o ≤ 0xFDFF) then
    some .arabic
  else if 0x0400 ≤ o ∧ o ≤ 0x04FF then some .cyrillic
  else if (0x41 ≤ o ∧ o ≤ 0x5A) ∨ (0x61 ≤ o ∧ o ≤ 0x7A) then some .latin
  else none

/-- The reasons, in the order of their names. -/
inductive Reason
  | bidiControl
  | mixedLatinCyrillic
  | zeroWidthInvisible
  | zwnjOutsidePersian
  deriving DecidableEq

def Reason.name : Reason → String
  | bidiControl => "bidi_control"
  | mixedLatinCyrillic => "mixed_latin_cyrillic"
  | zeroWidthInvisible => "zero_width_invisible"
  | zwnjOutsidePersian => "zwnj_outside_persian"

/-- What `scan` holds against one character. -/
def charReason (left : Option ℕ) (o : ℕ) (right : Option ℕ) : Option Reason :=
  if o ∈ bidi then some .bidiControl
  else if o ∈ otherInvisible then some .zeroWidthInvisible
  else if o = zwnj ∧ left.bind script ≠ some .arabic ∧ right.bind script ≠ some .arabic then
    some .zwnjOutsidePersian
  else none

structure Verdict where
  safe : Bool
  reasons : List String
  deriving DecidableEq

/-- The reasons found in the code points of a text, in the order they are found. -/
def reasons (text : List ℕ) : List Reason :=
  let scripts := text.filterMap script
  (neighbours text).filterMap (fun (left, o, right) => charReason left o right) ++
    if .latin ∈ scripts ∧ .cyrillic ∈ scripts then [.mixedLatinCyrillic] else []

/-- `scan`. -/
def scan (text : PyStr) : Verdict where
  safe := reasons text.codes = []
  reasons :=
    ([.bidiControl, .mixedLatinCyrillic, .zeroWidthInvisible, .zwnjOutsidePersian].filter
      fun r : Reason => r ∈ reasons text.codes).map Reason.name

/-! ## What a text should not hide -/

/-- The properties of code points that Unicode gives: the category Cf, and the letters of three
scripts. -/
structure UnicodeData where
  isFormat : ℕ → Bool
  isLatin : ℕ → Bool
  isCyrillic : ℕ → Bool
  isArabic : ℕ → Bool
  format_zwnj : isFormat zwnj = true
  latin_zwnj : isLatin zwnj = false
  cyrillic_zwnj : isCyrillic zwnj = false

variable (D : UnicodeData)

/-- A ZWNJ directly between two letters of Arabic script. -/
def Tolerated (left : Option ℕ) (o : ℕ) (right : Option ℕ) : Prop :=
  o = zwnj ∧ left.any D.isArabic = true ∧ right.any D.isArabic = true

instance : DecidablePred fun t : Option ℕ × ℕ × Option ℕ => Tolerated D t.1 t.2.1 t.2.2 :=
  fun t => inferInstanceAs (Decidable (t.2.1 = zwnj ∧ _ ∧ _))

/-- The text without the ZWNJ that stand between two Arabic letters. -/
def residue (text : List ℕ) : List ℕ :=
  ((neighbours text).filter fun t => ¬ Tolerated D t.1 t.2.1 t.2.2).map fun t => t.2.1

/-- No format character is left, and no mix of Latin and Cyrillic letters. -/
def Clean (text : List ℕ) : Prop :=
  (∀ o ∈ residue D text, D.isFormat o = false) ∧
    ¬ ((∃ o ∈ residue D text, D.isLatin o = true) ∧ ∃ o ∈ residue D text, D.isCyrillic o = true)

def inRanges (ranges : List (ℕ × ℕ)) (o : ℕ) : Bool := ranges.any fun r => r.1 ≤ o ∧ o ≤ r.2

/-- The category Cf of Unicode 15. -/
def formatRanges : List (ℕ × ℕ) :=
  [(0xAD, 0xAD), (0x600, 0x605), (0x61C, 0x61C), (0x6DD, 0x6DD), (0x70F, 0x70F), (0x890, 0x891),
    (0x8E2, 0x8E2), (0x180E, 0x180E), (0x200B, 0x200F), (0x202A, 0x202E), (0x2060, 0x2064),
    (0x2066, 0x206F), (0xFEFF, 0xFEFF), (0xFFF9, 0xFFFB), (0x110BD, 0x110BD), (0x110CD, 0x110CD),
    (0x13430, 0x1343F), (0x1BCA0, 0x1BCA3), (0x1D173, 0x1D17A), (0xE0001, 0xE0001),
    (0xE0020, 0xE007F)]

/-- The Latin letters of Unicode 15. -/
def latinRanges : List (ℕ × ℕ) :=
  [(0x41, 0x5A), (0x61, 0x7A), (0xAA, 0xAA), (0xBA, 0xBA), (0xC0, 0xD6), (0xD8, 0xF6),
    (0xF8, 0x2B8), (0x2E0, 0x2E4), (0x1D00, 0x1D25), (0x1D2C, 0x1D5C), (0x1D62, 0x1D65),
    (0x1D6B, 0x1D77), (0x1D79, 0x1DBE), (0x1E00, 0x1EFF), (0x2071, 0x2071), (0x207F, 0x207F),
    (0x2090, 0x209C), (0x212A, 0x212B), (0x2132, 0x2132), (0x214E, 0x214E), (0x2183, 0x2184),
    (0x2C60, 0x2C7F), (0xA722, 0xA787), (0xA78B, 0xA7CA), (0xA7D0, 0xA7D1), (0xA7D3, 0xA7D3),
    (0xA7D5, 0xA7D9), (0xA7F2, 0xA7FF), (0xAB30, 0xAB5A), (0xAB5C, 0xAB64), (0xAB66, 0xAB69),
    (0xFB00, 0xFB06), (0xFF21, 0xFF3A), (0xFF41, 0xFF5A), (0x10780, 0x10785), (0x10787, 0x107B0),
    (0x107B2, 0x107BA), (0x1DF00, 0x1DF1E), (0x1DF25, 0x1DF2A)]

/-- The Cyrillic letters of Unicode 15. -/
def cyrillicRanges : List (ℕ × ℕ) :=
  [(0x400, 0x481), (0x48A, 0x52F), (0x1C80, 0x1C88), (0x1D2B, 0x1D2B), (0x1D78, 0x1D78),
    (0xA640, 0xA66E), (0xA67F, 0xA69D), (0x1E030, 0x1E06D)]

/-- The Arabic letters of Unicode 15. -/
def arabicRanges : List (ℕ × ℕ) :=
  [(0x620, 0x63F), (0x641, 0x64A), (0x66E, 0x66F), (0x671, 0x6D3), (0x6D5, 0x6D5), (0x6E5, 0x6E6),
    (0x6EE, 0x6EF), (0x6FA, 0x6FC), (0x6FF, 0x6FF), (0x750, 0x77F), (0x870, 0x887), (0x889, 0x88E),
    (0x8A0, 0x8C9), (0xFB50, 0xFBB1), (0xFBD3, 0xFD3D), (0xFD50, 0xFD8F), (0xFD92, 0xFDC7),
    (0xFDF0, 0xFDFB), (0xFE70, 0xFE74), (0xFE76, 0xFEFC), (0x1EE00, 0x1EE03), (0x1EE05, 0x1EE1F),
    (0x1EE21, 0x1EE22), (0x1EE24, 0x1EE24), (0x1EE27, 0x1EE27), (0x1EE29, 0x1EE32),
    (0x1EE34, 0x1EE37), (0x1EE39, 0x1EE39), (0x1EE3B, 0x1EE3B), (0x1EE42, 0x1EE42),
    (0x1EE47, 0x1EE47), (0x1EE49, 0x1EE49), (0x1EE4B, 0x1EE4B), (0x1EE4D, 0x1EE4F),
    (0x1EE51, 0x1EE52), (0x1EE54, 0x1EE54), (0x1EE57, 0x1EE57), (0x1EE59, 0x1EE59),
    (0x1EE5B, 0x1EE5B), (0x1EE5D, 0x1EE5D), (0x1EE5F, 0x1EE5F), (0x1EE61, 0x1EE62),
    (0x1EE64, 0x1EE64), (0x1EE67, 0x1EE6A), (0x1EE6C, 0x1EE72), (0x1EE74, 0x1EE77),
    (0x1EE79, 0x1EE7C), (0x1EE7E, 0x1EE7E), (0x1EE80, 0x1EE89), (0x1EE8B, 0x1EE9B),
    (0x1EEA1, 0x1EEA3), (0x1EEA5, 0x1EEA9), (0x1EEAB, 0x1EEBB)]

def unicode15 : UnicodeData where
  isFormat := inRanges formatRanges
  isLatin := inRanges latinRanges
  isCyrillic := inRanges cyrillicRanges
  isArabic := inRanges arabicRanges
  format_zwnj := by decide
  latin_zwnj := by decide
  cyrillic_zwnj := by decide

/-! ## What the guard catches and what it misses -/

/-- A text holds something the guard flags: a character of its two lists, a ZWNJ with no neighbour
of its Arabic blocks, or letters of ASCII beside the first Cyrillic block. -/
inductive Caught (text : List ℕ) : Prop
  | listed (o : ℕ) (hmem : o ∈ text) (hlisted : o ∈ bidi ∨ o ∈ otherInvisible)
  | joiner (p s : List ℕ) (htext : text = p ++ zwnj :: s)
      (hleft : p.getLast?.bind script ≠ some .arabic) (hright : s.head?.bind script ≠ some .arabic)
  | mixed (l c : ℕ) (hl : l ∈ text) (hlatin : script l = some .latin) (hc : c ∈ text)
      (hcyrillic : script c = some .cyrillic)

/-- A text holds something of the kind the guard is for: a format character its lists leave out, a
ZWNJ that has an Arabic neighbour without standing between two Arabic letters, or any Latin letter
beside any Cyrillic one. -/
inductive Missed (text : List ℕ) : Prop
  | unlisted (o : ℕ) (hmem : o ∈ text) (hformat : D.isFormat o = true) (hbidi : o ∉ bidi)
      (hother : o ∉ otherInvisible) (hzwnj : o ≠ zwnj)
  | joiner (p s : List ℕ) (htext : text = p ++ zwnj :: s)
      (harabic : p.getLast?.bind script = some .arabic ∨ s.head?.bind script = some .arabic)
      (houtside : ¬ Tolerated D p.getLast? zwnj s.head?)
  | mixed (l c : ℕ) (hl : l ∈ text) (hlatin : D.isLatin l = true) (hc : c ∈ text)
      (hcyrillic : D.isCyrillic c = true)

lemma charReason_ne_none {left right : Option ℕ} {o : ℕ} :
    charReason left o right ≠ none ↔
      (o ∈ bidi ∨ o ∈ otherInvisible) ∨
        (o = zwnj ∧ left.bind script ≠ some .arabic ∧ right.bind script ≠ some .arabic) := by
  unfold charReason
  split_ifs <;> simp_all

lemma reasons_eq_nil {text : List ℕ} :
    reasons text = [] ↔
      (∀ t ∈ neighbours text, charReason t.1 t.2.1 t.2.2 = none) ∧
        ¬ (.latin ∈ text.filterMap script ∧ .cyrillic ∈ text.filterMap script) := by
  unfold reasons
  rw [List.append_eq_nil_iff, List.filterMap_eq_nil_iff, ite_eq_right_iff]
  simp

/-- The scan calls a text safe exactly when it catches nothing in it. -/
lemma scan_safe_iff {text : PyStr} : (scan text).safe = true ↔ ¬ Caught text.codes := by
  have hsafe : (scan text).safe = true ↔ reasons text.codes = [] := decide_eq_true_iff
  rw [hsafe, reasons_eq_nil]
  constructor
  · rintro ⟨hnone, hmixed⟩ hcaught
    cases hcaught with
    | listed o hmem hlisted =>
      obtain ⟨p, s, htext⟩ := List.append_of_mem hmem
      have hflagged : charReason p.getLast? o s.head? ≠ none :=
        charReason_ne_none.mpr (.inl hlisted)
      exact hflagged (hnone _ (mem_neighbours.mpr ⟨p, s, htext, rfl, rfl⟩))
    | joiner p s htext hleft hright =>
      have hflagged : charReason p.getLast? zwnj s.head? ≠ none :=
        charReason_ne_none.mpr (.inr ⟨rfl, hleft, hright⟩)
      exact hflagged (hnone _ (mem_neighbours.mpr ⟨p, s, htext, rfl, rfl⟩))
    | mixed l c hl hlatin hc hcyrillic =>
      exact hmixed ⟨List.mem_filterMap.mpr ⟨l, hl, hlatin⟩,
        List.mem_filterMap.mpr ⟨c, hc, hcyrillic⟩⟩
  · intro hquiet
    refine ⟨?_, ?_⟩
    · rintro ⟨left, o, right⟩ hmem
      obtain ⟨p, s, htext, rfl, rfl⟩ := mem_neighbours.mp hmem
      by_contra hflagged
      rcases charReason_ne_none.mp hflagged with hlisted | ⟨rfl, hleft, hright⟩
      · exact hquiet (.listed o (by simp [htext]) hlisted)
      · exact hquiet (.joiner p s htext hleft hright)
    · rintro ⟨hlatin, hcyrillic⟩
      obtain ⟨l, hl, hlatin⟩ := List.mem_filterMap.mp hlatin
      obtain ⟨c, hc, hcyrillic⟩ := List.mem_filterMap.mp hcyrillic
      exact hquiet (.mixed l c hl hlatin hc hcyrillic)

variable {D}

lemma mem_residue {text : List ℕ} {o : ℕ} :
    o ∈ residue D text ↔
      ∃ p s, text = p ++ o :: s ∧ ¬ Tolerated D p.getLast? o s.head? := by
  simp only [residue, List.mem_map, List.mem_filter, decide_eq_true_eq]
  constructor
  · rintro ⟨⟨l, a, r⟩, ⟨hmem, hout⟩, rfl⟩
    obtain ⟨p, s, rfl, rfl, rfl⟩ := mem_neighbours.mp hmem
    exact ⟨p, s, rfl, hout⟩
  · rintro ⟨p, s, rfl, hout⟩
    exact ⟨(p.getLast?, o, s.head?), ⟨mem_neighbours.mpr ⟨p, s, rfl, rfl, rfl⟩, hout⟩, rfl⟩

lemma mem_of_mem_residue {text : List ℕ} {o : ℕ} (h : o ∈ residue D text) : o ∈ text := by
  obtain ⟨p, s, rfl, -⟩ := mem_residue.mp h
  simp

lemma mem_residue_of_ne {text : List ℕ} {o : ℕ} (hmem : o ∈ text) (hne : o ≠ zwnj) :
    o ∈ residue D text := by
  obtain ⟨p, s, rfl⟩ := List.append_of_mem hmem
  exact mem_residue.mpr ⟨p, s, rfl, fun htolerated => hne htolerated.1⟩

/-- A text the guard misses something of is not clean. -/
lemma Missed.not_clean {text : List ℕ} (h : Missed D text) : ¬ Clean D text := by
  rintro ⟨hformat, hmix⟩
  cases h with
  | unlisted o hmem hcf hbidi hother hzwnj =>
    have hnot := hformat o (mem_residue_of_ne hmem hzwnj)
    rw [hcf] at hnot
    cases hnot
  | joiner p s htext harabic houtside =>
    have hnot := hformat zwnj (mem_residue.mpr ⟨p, s, htext, houtside⟩)
    rw [D.format_zwnj] at hnot
    cases hnot
  | mixed l c hl hlatin hc hcyrillic =>
    have hlne : l ≠ zwnj := by
      rintro rfl
      simp [D.latin_zwnj] at hlatin
    have hcne : c ≠ zwnj := by
      rintro rfl
      simp [D.cyrillic_zwnj] at hcyrillic
    exact hmix ⟨⟨l, mem_residue_of_ne hl hlne, hlatin⟩, c, mem_residue_of_ne hc hcne, hcyrillic⟩

/-- Whatever spoils a text is caught or missed. -/
lemma caught_or_missed {text : List ℕ} (h : ¬ Clean D text) : Caught text ∨ Missed D text := by
  by_cases hformat : ∀ o ∈ residue D text, D.isFormat o = false
  · obtain ⟨⟨l, hl, hlatin⟩, c, hc, hcyrillic⟩ := not_not.mp fun hmix => h ⟨hformat, hmix⟩
    exact .inr (.mixed l c (mem_of_mem_residue hl) hlatin (mem_of_mem_residue hc) hcyrillic)
  · push Not at hformat
    obtain ⟨o, ho, hcf⟩ := hformat
    obtain ⟨p, s, htext, houtside⟩ := mem_residue.mp ho
    have hmem : o ∈ text := mem_of_mem_residue ho
    by_cases hlisted : o ∈ bidi ∨ o ∈ otherInvisible
    · exact .inl (.listed o hmem hlisted)
    · by_cases hzwnj : o = zwnj
      · subst hzwnj
        by_cases harabic : p.getLast?.bind script = some .arabic ∨
            s.head?.bind script = some .arabic
        · exact .inr (.joiner p s htext harabic houtside)
        · exact .inl (.joiner p s htext (fun hl => harabic (.inl hl)) fun hr => harabic (.inr hr))
      · push Not at hlisted
        exact .inr (.unlisted o hmem (by simpa using hcf) hlisted.1 hlisted.2 hzwnj)

/-- **When the guard keeps its promise.**  That a text it calls safe is clean holds of exactly the
texts in which it catches something whenever it misses something. -/
theorem scan_safe_clean_iff (D : UnicodeData) (text : PyStr) :
    ((scan text).safe = true → Clean D text.codes) ↔ (Missed D text.codes → Caught text.codes) := by
  rw [scan_safe_iff]
  constructor
  · intro hclean hmissed
    by_contra hquiet
    exact hmissed.not_clean (hclean hquiet)
  · intro hcaught hquiet
    by_contra hunclean
    rcases caught_or_missed hunclean with h | h
    · exact hquiet h
    · exact hquiet (hcaught h)

/-- Two Latin letters with a zero-width joiner between them. -/
def joinedPair : PyStr := .text "a\u200Db"

/-- The guard calls a text safe that hides a zero-width joiner. -/
theorem joiner_passes_unseen :
    ¬ ∀ text : PyStr, (scan text).safe = true → Clean unicode15 text.codes := by
  intro h
  have hclean := (h joinedPair (by decide)).1 0x200D (by decide)
  exact absurd hclean (by decide)

/-- A ZWNJ inside a Persian word is not held against it. -/
example : (scan (.text "\u0645\u06CC\u200C\u0631\u0648\u0645")).safe = true := by decide

end WhatsVault.DisplayGuard
