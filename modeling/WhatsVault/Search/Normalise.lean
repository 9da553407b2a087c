import WhatsVault.Search.Index

/-!
# The search normaliser

`_core` of `search/normalise.py`: every character is composed, and each character of the result is a
separator, or is folded and case-folded on its own.  What comes out may be empty or longer than what
went in; `mapped` keeps for each character the offset of the one it came from.
-/

namespace WhatsVault.Search

/-- The tables of `unicodedata` and `str` that `_core` reads. -/
structure CharTables where
  /-- `unicodedata.normalize("NFC", c)`. -/
  nfc : Char → List Char
  /-- `s.casefold()`. -/
  casefold : List Char → List Char

/-- `_YEH`: Arabic Yeh and Alef Maksura to Persian Yeh. -/
def yeh : List (ℕ × ℕ) := [(0x064A, 0x06CC), (0x0649, 0x06CC)]

/-- `_KAF`. -/
def kaf : List (ℕ × ℕ) := [(0x0643, 0x06A9)]

/-- `_HAMZA`. -/
def hamza : List (ℕ × ℕ) :=
  [(0x0623, 0x0627), (0x0625, 0x0627), (0x0622, 0x0627), (0x0671, 0x0627), (0x0624, 0x0648),
    (0x0626, 0x06CC)]

/-- `_DIGITS`: the Arabic-Indic and the extended digits. -/
def digits : List (ℕ × ℕ) :=
  (List.range 10).map (fun i => (0x0660 + i, 0x30 + i)) ++
    (List.range 10).map fun i => (0x06F0 + i, 0x30 + i)

/-- `_COMBINING`. -/
def isCombining (n : ℕ) : Bool := (0x064B ≤ n ∧ n < 0x0660) ∨ n = 0x0670

def tatweel : ℕ := 0x0640

/-- `_BIDI`. -/
def isBidi (n : ℕ) : Bool :=
  n ∈ [0x200E, 0x200F, 0x202A, 0x202B, 0x202C, 0x202D, 0x202E, 0x2066, 0x2067, 0x2068, 0x2069]

/-- `_ZWNJ`. -/
def zwnj : ℕ := 0x200C

/-- `_fold`. -/
def fold (c : Char) : List Char :=
  match (yeh ++ kaf ++ hamza ++ digits).lookup c.toNat with
  | some n => [Char.ofNat n]
  | none => if isCombining c.toNat ∨ c.toNat = tatweel ∨ isBidi c.toNat then [] else [c]

variable (K : CharTables)

/-- What one composed character becomes. -/
def piece (sep : List Char) (c : Char) : List Char :=
  if c.toNat = zwnj ∨ isSpace c then sep else K.casefold (fold c)

/-- What one character of a text becomes. -/
def normalised (sep : List Char) (c : Char) : List Char := (K.nfc c).flatMap (piece K sep)

/-- The loop of `_core` over any alphabet: the characters that come out, and the offset each came
from. -/
def mappedFrom {α : Type*} (piece : α → List α) : ℕ → List α → List α × List ℕ
  | _, [] => ([], [])
  | i, c :: cs =>
    let rest := mappedFrom piece (i + 1) cs
    (piece c ++ rest.1, (piece c).map (fun _ => i) ++ rest.2)

def mapped {α : Type*} (piece : α → List α) (text : List α) : List α × List ℕ :=
  mappedFrom piece 0 text

/-- `to_search`. -/
def toSearch (s : String) : String := String.ofList (mapped (normalised K [' ']) s.toList).1

/-- `to_compact`. -/
def toCompact (s : String) : String := String.ofList (mapped (normalised K []) s.toList).1

/-- `NORMALISER_VERSION`. -/
def normaliserVersion : ℤ := 1

def CharTables.normaliser : Normaliser := ⟨toSearch K, toCompact K, normaliserVersion⟩

lemma fst_mappedFrom {α : Type*} (piece : α → List α) (i : ℕ) (text : List α) :
    (mappedFrom piece i text).1 = text.flatMap piece := by
  induction text generalizing i with
  | nil => rfl
  | cons c cs ih =>
    rw [List.flatMap_cons, ← ih (i + 1)]
    rfl

/-! ## Strings without a NUL -/

/-- The tables make a NUL of nothing else. -/
structure CharTables.KeepsNulFree : Prop where
  nfc : ∀ c, c.toNat ≠ 0 → ∀ d ∈ K.nfc c, d.toNat ≠ 0
  casefold : ∀ s, (∀ c ∈ s, Char.toNat c ≠ 0) → ∀ d ∈ K.casefold s, d.toNat ≠ 0

variable {K}

lemma fold_nulFree {c : Char} (hc : c.toNat ≠ 0) : ∀ d ∈ fold c, d.toNat ≠ 0 := by
  intro d hd
  unfold fold at hd
  split at hd
  · rename_i n hn
    have hpos : ∀ pair ∈ yeh ++ kaf ++ hamza ++ digits, (Char.ofNat pair.2).toNat ≠ 0 := by
      decide
    rw [List.mem_singleton.mp hd]
    obtain ⟨pair, hpair, rfl⟩ : ∃ pair ∈ yeh ++ kaf ++ hamza ++ digits, pair.2 = n := by
      obtain ⟨l₁, l₂, heq, -⟩ := List.lookup_eq_some_iff.mp hn
      refine ⟨(c.toNat, n), ?_, rfl⟩
      rw [heq]
      exact List.mem_append_right _ List.mem_cons_self
    exact hpos pair hpair
  · split at hd
    · cases hd
    · rw [List.mem_singleton.mp hd]
      exact hc

lemma normalised_nulFree (h : K.KeepsNulFree) {sep : List Char} (hsep : ∀ c ∈ sep, c.toNat ≠ 0)
    {c : Char} (hc : c.toNat ≠ 0) : ∀ d ∈ normalised K sep c, d.toNat ≠ 0 := by
  intro d hd
  obtain ⟨e, he, hd⟩ := List.mem_flatMap.mp hd
  have henul := h.nfc c hc e he
  unfold piece at hd
  split at hd
  · exact hsep d hd
  · exact h.casefold _ (fold_nulFree henul) d hd

/-- Both normal forms of a text without a NUL have none. -/
lemma normaliser_nulFree (h : K.KeepsNulFree) {s : String} (hs : ∀ c ∈ s.toList, c.toNat ≠ 0) :
    (∀ d ∈ (K.normaliser.toSearch s).toList, d.toNat ≠ 0) ∧
      ∀ d ∈ (K.normaliser.toCompact s).toList, d.toNat ≠ 0 := by
  constructor
  · intro d hd
    change d ∈ (toSearch K s).toList at hd
    unfold toSearch mapped at hd
    rw [String.toList_ofList, fst_mappedFrom] at hd
    obtain ⟨c, hc, hd⟩ := List.mem_flatMap.mp hd
    exact normalised_nulFree h (by simp) (hs c hc) d hd
  · intro d hd
    change d ∈ (toCompact K s).toList at hd
    unfold toCompact mapped at hd
    rw [String.toList_ofList, fst_mappedFrom] at hd
    obtain ⟨c, hc, hd⟩ := List.mem_flatMap.mp hd
    exact normalised_nulFree h (by simp) (hs c hc) d hd

end WhatsVault.Search
