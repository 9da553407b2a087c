import WhatsVault.Library.MatchExpr
import WhatsVault.Search.Normalise
import WhatsVault.Search.Query

/-!
# The syntax of compiled queries

What a query asks for is a conjunction of phrases and a NEAR group, made of its own normalised texts
(`intendedLexical`, `intendedCompact`).  The compilers print that conjunction (`compileLexical_eq`,
`compileCompact_eq`), so FTS5 reads it back from the MATCH string whatever the texts hold.  It reads
nothing where the NEAR distance is negative, for its grammar has no sign.
-/

namespace WhatsVault.Search

open MatchExpr (Operand Phrase)

section Intended

variable (N : Normaliser)

def lexicalText (s : String) : String := strip (N.toSearch s)

def compactText (s : String) : String := strip (N.toCompact s)

/-- The texts that strings normalise to, but for the empty ones. -/
def textsOf (form : String → String) (strings : List PyStr) : List String :=
  ((strings.filterMap PyStr.encode).map form).filter fun s => s ≠ ""

def plain (s : String) : Phrase := ⟨s.toList, false⟩

def nearTexts (q : SearchQuery) : List String := textsOf (lexicalText N) (q.near.elim [] Prod.fst)

def nearDistance (q : SearchQuery) : ℤ := q.near.elim 0 Prod.snd

/-- What a query asks the lexical tier for, but for its NEAR group. -/
def lexicalPhrases (q : SearchQuery) : List Operand :=
  (textsOf (lexicalText N) q.terms).map (fun s => .phrase (plain s)) ++
    (textsOf (lexicalText N) (given q.phrase).toList).map (fun s => .phrase (plain s)) ++
    (textsOf (lexicalText N) (given q.termPrefix).toList).map fun s => .phrase ⟨s.toList, true⟩

/-- What a query asks the lexical tier for. -/
def intendedLexical (q : SearchQuery) : List Operand :=
  lexicalPhrases N q ++
    if nearTexts N q = [] then [] else [.near ((nearTexts N q).map plain) (nearDistance q).toNat]

/-- The texts that the compact tier is asked for. -/
def compactTexts (q : SearchQuery) : List String :=
  (((q.terms ++ (given q.phrase).toList).filterMap PyStr.encode).map (compactText N)).filter
    fun s => 3 ≤ s.length

def intendedCompact (q : SearchQuery) : List Operand :=
  (compactTexts N q).map fun s => .phrase (plain s)

/-- A NEAR group with a sign before its distance. -/
def SignedNear (q : SearchQuery) : Prop := nearTexts N q ≠ [] ∧ nearDistance q < 0

instance (q : SearchQuery) : Decidable (SignedNear N q) := inferInstanceAs (Decidable (_ ∧ _))

end Intended

/-! ## The compilers print -/

variable {N : Normaliser} {q : SearchQuery}

lemma toList_quote (s : String) : (quote s).toList = MatchExpr.quote s.toList := by
  have hdoubled : (fun c : Char => if c.toNat = 34 then [c, c] else [c]) =
      fun c => if c = '"' then ['"', '"'] else [c] := by
    funext c
    by_cases hc : c = '"'
    · subst hc
      rfl
    · have hcode : c.toNat ≠ 34 := fun h => hc (Char.toNat_inj.mp h)
      rw [if_neg hc, if_neg hcode]
  unfold quote MatchExpr.quote MatchExpr.doubleQuotes
  simp only [String.toList_append, String.toList_ofList, hdoubled]
  rfl

lemma toList_joined (parts : List String) :
    (joined parts).toList = MatchExpr.spaced (parts.map String.toList) := by
  unfold joined MatchExpr.spaced
  rw [String.toList_intercalate]
  rfl

/-- The normal forms of strings, where none of them raises. -/
lemma mapM_form {form : String → String} {strings : List PyStr} {forms : List String}
    (h : strings.mapM (fun t => encoded t >>= fun s => pure (form s)) = .ok forms) :
    forms = (strings.filterMap PyStr.encode).map form := by
  induction strings generalizing forms with
  | nil =>
    rw [List.mapM_nil, Checks.pure_eq_ok] at h
    exact h.symm
  | cons t strings ih =>
    simp only [List.mapM_cons, Checks.bind_eq_ok, Checks.pure_eq_ok] at h
    obtain ⟨form, ⟨s, hs, rfl⟩, rest, hrest, rfl⟩ := h
    rw [List.filterMap_cons_some (Checks.orStop_eq_ok.mp hs), List.map_cons, ← ih hrest]

lemma mapM_lexicalForm {strings : List PyStr} {forms : List String}
    (h : strings.mapM (lexicalForm N) = .ok forms) :
    forms = (strings.filterMap PyStr.encode).map (lexicalText N) := mapM_form h

lemma mapM_compactForm {strings : List PyStr} {forms : List String}
    (h : strings.mapM (compactForm N) = .ok forms) :
    forms = (strings.filterMap PyStr.encode).map (compactText N) := mapM_form h

lemma guardLen_eq_ok {matchText m : String} (h : guardLen matchText = .ok m) : m = matchText := by
  simp only [guardLen, Checks.bind_eq_ok, Checks.pure_eq_ok] at h
  obtain ⟨-, -, rfl⟩ := h
  rfl

lemma print_plain (s : String) : (Operand.phrase (plain s)).print = (quote s).toList := by
  rw [toList_quote]
  exact List.append_nil _

lemma print_starred (s : String) :
    (Operand.phrase ⟨s.toList, true⟩).print = (quote s ++ "*").toList := by
  rw [String.toList_append, toList_quote]
  rfl

lemma toList_natural (n : ℕ) : (toString (n : ℤ)).toList = Nat.toDigits 10 n := by
  show (Nat.repr n).toList = _
  exact Nat.toList_repr

lemma toList_negative (n : ℕ) :
    (toString (Int.negSucc n)).toList = '-' :: Nat.toDigits 10 (n + 1) := by
  show ("-" ++ Nat.repr (n + 1)).toList = _
  rw [String.toList_append, Nat.toList_repr]
  rfl

/-- The NEAR group of a query as it is printed. -/
def nearGroup (N : Normaliser) (q : SearchQuery) : List (List Char) :=
  if nearTexts N q = [] then []
  else [MatchExpr.group ((nearTexts N q).map plain) (toString (nearDistance q)).toList]

lemma toList_nearPart (forms : List String) (distance : ℤ) :
    (nearPart forms distance).map String.toList =
      if forms.filter (fun s => s ≠ "") = [] then []
      else [MatchExpr.group ((forms.filter fun s => s ≠ "").map plain) (toString distance).toList] := by
  have hprint : ((forms.filter fun s => s ≠ "").map quote).map String.toList =
      ((forms.filter fun s => s ≠ "").map plain).map Phrase.print := by
    rw [List.map_map, List.map_map]
    exact List.map_congr_left fun s _ => (print_plain s).symm
  unfold nearPart quotedParts
  dsimp only
  by_cases hnone : forms.filter (fun s => s ≠ "") = []
  · rw [if_pos hnone, if_pos (List.map_eq_nil_iff.mpr hnone)]
    rfl
  · rw [if_neg hnone, if_neg (mt List.map_eq_nil_iff.mp hnone)]
    unfold MatchExpr.group
    rw [List.map_singleton, String.toList_append, String.toList_append, String.toList_append,
      String.toList_append, toList_joined, hprint]
    show [['N', 'E', 'A', 'R', '('] ++ _ ++ [',', ' '] ++ _ ++ [')']] = _
    simp [MatchExpr.nearWord]

/-- The lexical MATCH string is the intended phrases, printed, and the NEAR group after them. -/
lemma compileLexical_eq {m : String} (h : compileLexical N q = .ok m) :
    m = String.ofList (MatchExpr.spaced ((lexicalPhrases N q).map Operand.print ++ nearGroup N q)) := by
  simp only [compileLexical, Checks.bind_eq_ok] at h
  obtain ⟨-, -, terms, hterms, phrase, hphrase, start, hstart, near, hnear, hguard⟩ := h
  have hquoted (strings : List PyStr) :
      (quotedParts ((strings.filterMap PyStr.encode).map (lexicalText N))).map String.toList =
        ((textsOf (lexicalText N) strings).map fun s => Operand.phrase (plain s)).map
          Operand.print := by
    unfold quotedParts textsOf
    rw [List.map_map, List.map_map]
    exact List.map_congr_left fun s _ => (print_plain s).symm
  have hstarred (strings : List PyStr) :
      ((quotedParts ((strings.filterMap PyStr.encode).map (lexicalText N))).map (· ++ "*")).map
          String.toList =
        ((textsOf (lexicalText N) strings).map fun s => Operand.phrase ⟨s.toList, true⟩).map
          Operand.print := by
    unfold quotedParts textsOf
    rw [List.map_map, List.map_map, List.map_map]
    exact List.map_congr_left fun s _ => (print_starred s).symm
  rw [guardLen_eq_ok hguard, ← String.toList_inj, String.toList_ofList, toList_joined,
    mapM_lexicalForm hterms, mapM_lexicalForm hphrase, mapM_lexicalForm hstart,
    mapM_lexicalForm hnear]
  unfold lexicalPhrases nearGroup
  rw [List.map_append, List.map_append, List.map_append, hquoted, hquoted, hstarred, toList_nearPart,
    List.map_append, List.map_append]
  rfl

/-- The compact MATCH string is the intended phrases, printed. -/
lemma compileCompact_eq {m : String} (h : compileCompact N q = .ok m) :
    m = String.ofList (MatchExpr.print (intendedCompact N q)) := by
  simp only [compileCompact, Checks.bind_eq_ok] at h
  obtain ⟨-, -, forms, hforms, hguard⟩ := h
  rw [guardLen_eq_ok hguard, ← String.toList_inj, String.toList_ofList, toList_joined,
    mapM_compactForm hforms]
  unfold MatchExpr.print intendedCompact compactTexts
  rw [List.map_map, List.map_map]
  exact congrArg MatchExpr.spaced (List.map_congr_left fun s _ => (print_plain s).symm)

/-! ## Reading the MATCH strings -/

/-- The lexical MATCH string of phrases that can be printed. -/
lemma parse_lexical {m : String} (h : compileLexical N q = .ok m)
    (hphrases : ∀ op ∈ lexicalPhrases N q, op.Printable)
    (hnear : ∀ p ∈ (nearTexts N q).map plain, ∀ c ∈ p.text, MatchExpr.isNul c = false) :
    MatchExpr.parse m = if SignedNear N q then none else some (intendedLexical N q) := by
  rw [compileLexical_eq h]
  unfold nearGroup intendedLexical
  by_cases hnone : nearTexts N q = []
  · rw [if_pos hnone, if_pos hnone, if_neg (show ¬ SignedNear N q from fun h => h.1 hnone),
      List.append_nil, List.append_nil]
    exact MatchExpr.parse_print hphrases
  rw [if_neg hnone, if_neg hnone]
  rcases lt_or_ge (nearDistance q) 0 with hsigned | hdistance
  · rw [if_pos (show SignedNear N q from ⟨hnone, hsigned⟩)]
    obtain ⟨n, hn⟩ : ∃ n : ℕ, nearDistance q = Int.negSucc n := Int.eq_negSucc_of_lt_zero hsigned
    rw [hn, toList_negative]
    exact MatchExpr.parse_signed hphrases hnear (n + 1)
  · rw [if_neg (show ¬ SignedNear N q from fun h => absurd h.2 (not_lt.mpr hdistance))]
    obtain ⟨n, hn⟩ : ∃ n : ℕ, nearDistance q = n := ⟨(nearDistance q).toNat, by omega⟩
    have hgroup : (Operand.near ((nearTexts N q).map plain) n).Printable :=
      ⟨mt List.map_eq_nil_iff.mp hnone, hnear⟩
    have hprintable : ∀ op ∈ lexicalPhrases N q ++
        [.near ((nearTexts N q).map plain) n], op.Printable := by
      intro op hop
      rcases List.mem_append.mp hop with hop | hop
      · exact hphrases op hop
      · rw [List.mem_singleton.mp hop]
        exact hgroup
    have hall := MatchExpr.parse_print hprintable
    rw [MatchExpr.print, List.map_append, List.map_singleton] at hall
    rw [hn, toList_natural]
    exact hall

lemma phrase_of_mem_lexicalPhrases {op : Operand} (h : op ∈ lexicalPhrases N q) :
    ∃ p, op = .phrase p := by
  rcases List.mem_append.mp h with hplain | hstarred
  · rcases List.mem_append.mp hplain with hterm | hphrase
    · obtain ⟨s, -, rfl⟩ := List.mem_map.mp hterm
      exact ⟨_, rfl⟩
    · obtain ⟨s, -, rfl⟩ := List.mem_map.mp hphrase
      exact ⟨_, rfl⟩
  · obtain ⟨s, -, rfl⟩ := List.mem_map.mp hstarred
    exact ⟨_, rfl⟩

/-- What a lexical MATCH string that is read at all is read as. -/
lemma intended_of_parse_lexical {m : String} (h : compileLexical N q = .ok m) {ops : List Operand}
    (hops : MatchExpr.parse m = some ops) :
    ¬ SignedNear N q ∧ ops = intendedLexical N q := by
  have hnul : ∀ c ∈ m.toList, MatchExpr.isNul c = false := by
    intro c hc
    by_contra hnul
    rw [MatchExpr.parse_of_nul hc (by simpa using hnul)] at hops
    cases hops
  rw [compileLexical_eq h, String.toList_ofList] at hnul
  have hphrases : ∀ op ∈ lexicalPhrases N q, op.Printable := by
    intro op hop
    have hprinted : ∀ c ∈ op.print, MatchExpr.isNul c = false := fun c hc =>
      hnul c (MatchExpr.mem_spaced (List.mem_append_left _ (List.mem_map_of_mem hop)) hc)
    obtain ⟨p, rfl⟩ := phrase_of_mem_lexicalPhrases hop
    exact fun c hc => hprinted c (MatchExpr.mem_phrase_print hc)
  have hnear : ∀ p ∈ (nearTexts N q).map plain, ∀ c ∈ p.text, MatchExpr.isNul c = false := by
    intro p hp c hc
    have hsome : nearTexts N q ≠ [] := by
      intro hnone
      rw [hnone] at hp
      cases hp
    have hgroup := MatchExpr.mem_group hp hc (toString (nearDistance q)).toList
    apply hnul
    refine MatchExpr.mem_spaced (List.mem_append_right _ ?_) hgroup
    rw [nearGroup, if_neg hsome]
    exact List.mem_singleton_self _
  rw [parse_lexical h hphrases hnear] at hops
  split at hops
  · cases hops
  · rename_i hsigned
    exact ⟨hsigned, (Option.some.inj hops).symm⟩

/-- What a compact MATCH string that is read at all is read as. -/
lemma intended_of_parse_compact {m : String} (h : compileCompact N q = .ok m) {ops : List Operand}
    (hops : MatchExpr.parse m = some ops) : ops = intendedCompact N q := by
  have hnul : ∀ c ∈ m.toList, MatchExpr.isNul c = false := by
    intro c hc
    by_contra hnul
    rw [MatchExpr.parse_of_nul hc (by simpa using hnul)] at hops
    cases hops
  rw [compileCompact_eq h, String.toList_ofList] at hnul
  have hprintable : ∀ op ∈ intendedCompact N q, op.Printable := by
    intro op hop
    have hprinted : ∀ c ∈ op.print, MatchExpr.isNul c = false := fun c hc =>
      hnul c (MatchExpr.mem_spaced (List.mem_map_of_mem hop) hc)
    obtain ⟨s, -, rfl⟩ := List.mem_map.mp hop
    exact fun c hc => hprinted c (MatchExpr.mem_phrase_print hc)
  rw [compileCompact_eq h, MatchExpr.parse_print hprintable] at hops
  exact (Option.some.inj hops).symm

def NulFree (s : PyStr) : Prop := ∀ c ∈ s.codes, c ≠ 0

instance (s : PyStr) : Decidable (NulFree s) := inferInstanceAs (Decidable (∀ c ∈ s.codes, c ≠ 0))

/-- No string of the query that is compiled has a NUL. -/
structure SearchQuery.NulFree (q : SearchQuery) : Prop where
  terms : ∀ t ∈ q.terms, Search.NulFree t
  phrase : ∀ t ∈ q.phrase, Search.NulFree t
  termPrefix : ∀ t ∈ q.termPrefix, Search.NulFree t
  near : ∀ near ∈ q.near, ∀ t ∈ near.1, Search.NulFree t

lemma isNul_eq_false {c : Char} : MatchExpr.isNul c = false ↔ c.toNat ≠ 0 := by
  simp [MatchExpr.isNul]

lemma mem_strip {s : String} {c : Char} (h : c ∈ (strip s).toList) : c ∈ s.toList := by
  rw [strip, String.toList_ofList, List.mem_reverse] at h
  have hinner := (List.dropWhile_sublist _).subset h
  exact (List.dropWhile_sublist _).subset (List.mem_reverse.mp hinner)

lemma mem_given {x : Option PyStr} {t : PyStr} (h : t ∈ (given x).toList) : t ∈ x := by
  rw [given, Option.mem_toList] at h
  exact (Option.filter_eq_some_iff.mp h).1

section Reads

variable {K : CharTables} (hK : K.KeepsNulFree)
include hK

lemma nulFree_forms {t : PyStr} (ht : NulFree t) {s : String} (hs : t.encode = some s) :
    (∀ c ∈ (lexicalText K.normaliser s).toList, MatchExpr.isNul c = false) ∧
      ∀ c ∈ (compactText K.normaliser s).toList, MatchExpr.isNul c = false := by
  have hnul : ∀ c ∈ s.toList, c.toNat ≠ 0 := by
    cases t with
    | text s' =>
      obtain rfl := Option.some.inj hs
      exact fun c hc => ht c.toNat (List.mem_map_of_mem hc)
    | lone codes surrogate => cases hs
  obtain ⟨hsearch, hcompact⟩ := normaliser_nulFree hK hnul
  exact ⟨fun c hc => isNul_eq_false.mpr (hsearch c (mem_strip hc)),
    fun c hc => isNul_eq_false.mpr (hcompact c (mem_strip hc))⟩

lemma nulFree_textsOf {strings : List PyStr} (h : ∀ t ∈ strings, NulFree t) {text : String}
    (htext : text ∈ textsOf (lexicalText K.normaliser) strings) :
    ∀ c ∈ text.toList, MatchExpr.isNul c = false := by
  obtain ⟨s, hs, rfl⟩ := List.mem_map.mp (List.mem_of_mem_filter htext)
  obtain ⟨t, ht, hencode⟩ := List.mem_filterMap.mp hs
  exact (nulFree_forms hK (h t ht) hencode).1

lemma printable_lexicalPhrases (hq : q.NulFree) :
    ∀ op ∈ lexicalPhrases K.normaliser q, op.Printable := by
  intro op hop
  rcases List.mem_append.mp hop with hplain | hstarred
  · rcases List.mem_append.mp hplain with hterm | hphrase
    · obtain ⟨s, hs, rfl⟩ := List.mem_map.mp hterm
      exact nulFree_textsOf hK hq.terms hs
    · obtain ⟨s, hs, rfl⟩ := List.mem_map.mp hphrase
      exact nulFree_textsOf hK (fun t ht => hq.phrase t (mem_given ht)) hs
  · obtain ⟨s, hs, rfl⟩ := List.mem_map.mp hstarred
    exact nulFree_textsOf hK (fun t ht => hq.termPrefix t (mem_given ht)) hs

lemma printable_near (hq : q.NulFree) :
    ∀ p ∈ (nearTexts K.normaliser q).map plain, ∀ c ∈ p.text, MatchExpr.isNul c = false := by
  intro p hp
  obtain ⟨s, hs, rfl⟩ := List.mem_map.mp hp
  refine nulFree_textsOf hK (fun t ht => ?_) hs
  rcases hnear : q.near with _ | near
  · rw [hnear] at ht
    cases ht
  · rw [hnear] at ht
    exact hq.near near hnear t ht

lemma parse_compileLexical (hq : q.NulFree) {m : String}
    (h : compileLexical K.normaliser q = .ok m) :
    MatchExpr.parse m =
      if SignedNear K.normaliser q then none else some (intendedLexical K.normaliser q) :=
  parse_lexical h (printable_lexicalPhrases hK hq) (printable_near hK hq)

lemma printable_intendedCompact (hq : q.NulFree) :
    ∀ op ∈ intendedCompact K.normaliser q, op.Printable := by
  intro op hop
  obtain ⟨text, htext, rfl⟩ := List.mem_map.mp hop
  obtain ⟨s, hs, heq⟩ := List.mem_map.mp (List.mem_filter.mp htext).1
  obtain ⟨t, ht, hencode⟩ := List.mem_filterMap.mp hs
  have hnul : NulFree t := by
    rcases List.mem_append.mp ht with hterm | hphrase
    · exact hq.terms t hterm
    · exact hq.phrase t (mem_given hphrase)
  intro c hc
  apply (nulFree_forms hK hnul hencode).2
  rw [heq]
  exact hc

lemma parse_compileCompact (hq : q.NulFree) {m : String}
    (h : compileCompact K.normaliser q = .ok m) :
    MatchExpr.parse m = some (intendedCompact K.normaliser q) := by
  rw [compileCompact_eq h]
  exact MatchExpr.parse_print (printable_intendedCompact hK hq)

end Reads

/-- Tables of a text that is composed and folded already. -/
def sampleTables : CharTables := ⟨fun c => [c], id⟩

lemma sampleTables_keepsNulFree : sampleTables.KeepsNulFree where
  nfc c hc d hd := by
    rw [List.mem_singleton.mp hd]
    exact hc
  casefold _ hs d hd := hs d hd

/-- A query whose term looks like three operators and whose second term normalises to nothing. -/
def sampleOperators : SearchQuery :=
  { SearchQuery.empty with
    terms := [.text "a\" OR NEAR(\"b*", .text " "], near := some ([.text "c", .text "d"], 3) }

/-- A NEAR distance below zero. -/
def sampleSigned : SearchQuery :=
  { SearchQuery.empty with near := some ([.text "c", .text "d"], -1) }

end WhatsVault.Search
