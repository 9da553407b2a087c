import WhatsVault.Library.CharacterForms
import WhatsVault.Search.Normalise

/-!
# The normaliser and canonical equivalence

`_core` composes every character of a text on its own, so a base letter and a mark that follow each
other are never put together, while the letter they compose to goes through folding as one.  Two
equivalent texts therefore meet in the index only as far as folding treats a letter like its parts.
`search_respects_iff` says when: in the texts equivalent to a given one, every letter normalises as
its decomposition does and neighbouring marks may change places.  Folding takes care of that for the
hamza letters, whose mark it strips, and of no Latin one.
-/

namespace WhatsVault.Search

/-- The tables of `_core` over a version of Unicode and a case folding. -/
def tablesOf (C : CharacterForms Char) (casefold : List Char → List Char) : CharTables where
  nfc c := C.nfc [c]
  casefold := casefold

lemma toList_toSearch (K : CharTables) (s : String) :
    (toSearch K s).toList = s.toList.flatMap (normalised K [' ']) := by
  rw [toSearch, String.toList_ofList, mapped, fst_mappedFrom]

lemma toList_toCompact (K : CharTables) (s : String) :
    (toCompact K s).toList = s.toList.flatMap (normalised K []) := by
  rw [toCompact, String.toList_ofList, mapped, fst_mappedFrom]

/-- **When search respects canonical equivalence.**  Both normal forms of a text are those of every
text that composes to the same exactly when, in all of these texts, a character has the normal form
of its decomposition and two neighbouring marks have that of the two swapped. -/
theorem search_respects_iff (C : CharacterForms Char) (casefold : List Char → List Char)
    (x : String) :
    (∀ y : String, C.nfc x.toList = C.nfc y.toList →
      toSearch (tablesOf C casefold) x = toSearch (tablesOf C casefold) y ∧
      toCompact (tablesOf C casefold) x = toCompact (tablesOf C casefold) y) ↔
      C.Respects (normalised (tablesOf C casefold) [' ']) x.toList ∧
      C.Respects (normalised (tablesOf C casefold) []) x.toList := by
  rw [← CharacterForms.invariant_iff, ← CharacterForms.invariant_iff]
  constructor
  · intro h
    have hboth (text : List Char) (htext : C.Equivalent text x.toList) :=
      h (String.ofList text) (CharacterForms.nfc_eq_iff.mpr (by
        rw [String.toList_ofList]
        exact htext.symm))
    constructor
    · intro text htext
      have hsame := congrArg String.toList (hboth text htext).1
      rw [toList_toSearch, toList_toSearch, String.toList_ofList] at hsame
      exact hsame.symm
    · intro text htext
      have hsame := congrArg String.toList (hboth text htext).2
      rw [toList_toCompact, toList_toCompact, String.toList_ofList] at hsame
      exact hsame.symm
  · rintro ⟨hsearch, hcompact⟩ y hy
    have hequivalent : C.Equivalent y.toList x.toList :=
      (CharacterForms.nfc_eq_iff.mp hy).symm
    constructor
    · apply String.toList_injective
      rw [toList_toSearch, toList_toSearch, hsearch _ hequivalent]
    · apply String.toList_injective
      rw [toList_toCompact, toList_toCompact, hcompact _ hequivalent]

/-- Unicode as far as the letter é goes. -/
def acuteForms : CharacterForms Char where
  decomp c := if c = '\u00E9' then ['e', '\u0301'] else [c]
  rank c := if c = '\u0301' then 230 else 0
  comp a b := if a = 'e' ∧ b = '\u0301' then some '\u00E9' else none
  decomp_decomp := by
    intro a b hb
    split_ifs at hb
    · simp only [List.mem_cons, List.not_mem_nil, or_false] at hb
      rcases hb with rfl | rfl <;> rfl
    · rename_i hne
      rw [List.mem_singleton.mp hb, if_neg hne]
  comp_decomp := by
    rintro a b c hc
    simp only [Option.ite_none_right_eq_some, Option.some.injEq] at hc
    obtain ⟨⟨rfl, rfl⟩, rfl⟩ := hc
    rfl

/-- A query typed as e and a combining acute misses the message that has é. -/
theorem decomposed_query_misses :
    ¬ ∀ x y : String, acuteForms.nfc x.toList = acuteForms.nfc y.toList →
      toSearch (tablesOf acuteForms id) x = toSearch (tablesOf acuteForms id) y ∧
      toCompact (tablesOf acuteForms id) x = toCompact (tablesOf acuteForms id) y := by
  intro h
  have hsame := congrArg String.toList (h "\u00E9" "e\u0301" (by decide)).1
  rw [toList_toSearch, toList_toSearch] at hsame
  exact absurd hsame (by decide)

/-- The letters that compose with a hamza or a madda fold to what their letter and the mark fold
to. -/
example : ([('\u0622', '\u0627', '\u0653'), ('\u0623', '\u0627', '\u0654'),
    ('\u0624', '\u0648', '\u0654'), ('\u0625', '\u0627', '\u0655'),
    ('\u0626', '\u064A', '\u0654')].all fun (c, letter, mark) =>
      fold c = fold letter ++ fold mark) = true := by decide

end WhatsVault.Search
