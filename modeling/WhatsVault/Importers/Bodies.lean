import WhatsVault.Importers.Fingerprint
import WhatsVault.Importers.HeaderShape
import WhatsVault.Importers.Spans

/-!
# Bodies as evidence

The body of a message in the source is what stands after the sender's prefix up to the end of the
record's span, with CRLF read as LF and the last line ending left off (`sourceBody`).  The parse
splits the same text at every separator `str.splitlines` knows and joins the lines at LF, and it drops
what is empty at the front, since `_append_body` tests whether there is a body yet (`collapsed`).  The
two are the same for exactly the bodies whose lines end in LF or CRLF, but for a separator at the very
end, and whose first line is not empty unless it is all of them (`collapsed_eq_sourceBody_iff`).
-/

namespace WhatsVault.Importers

/-! ## The body in the source -/

/-- The lines of a text where only LF and CRLF end one. -/
def lfLines : List Char → List (List Char)
  | [] => []
  | '\r' :: '\n' :: s => [] :: lfLines s
  | c :: s =>
    if c = '\n' then [] :: lfLines s
    else match lfLines s with
      | [] => [[c]]
      | line :: lines => (c :: line) :: lines

/-- The first line, and for each further one a newline and that line. -/
def sourceBody (b : List Char) : List Char := ['\n'].intercalate (lfLines b)

/-- `_append_body` on the characters of a body and a line. -/
def appendChars (body line : List Char) : List Char :=
  if body = [] then line else body ++ '\n' :: line

/-- What the parse makes of the text of a body. -/
def collapsed (b : List Char) : List Char := ((splitLines b).map stripped).foldl appendChars []

/-- A CR has its LF, and another separator is nowhere but at the end. -/
def lfOnly : List Char → Bool
  | [] => true
  | c :: s => (c ≠ '\r' ∨ s.head? = some '\n') ∧
      (isLineBoundary c = false ∨ c = '\r' ∨ c = '\n' ∨ s = []) ∧ lfOnly s

/-- The first line is empty and not the only one. -/
def opensEmpty : List Char → Bool
  | '\n' :: s => s ≠ []
  | '\r' :: '\n' :: s => s ≠ []
  | _ => false

/-- A body that the parse keeps as it is. -/
def PlainBody (b : List Char) : Prop := lfOnly b = true ∧ opensEmpty b = false

instance (b : List Char) : Decidable (PlainBody b) :=
  inferInstanceAs (Decidable (lfOnly b = true ∧ opensEmpty b = false))

/-! ## Lines joined at LF -/

lemma intercalate_cons (line : List Char) (lines : List (List Char)) :
    ['\n'].intercalate (line :: lines) = line ++ lines.flatMap fun l => '\n' :: l := by
  induction lines generalizing line with
  | nil => simp
  | cons l lines ih =>
    rw [List.intercalate_cons_cons, ih, List.flatMap_cons]
    simp

lemma intercalate_nil_cons {lines : List (List Char)} (hne : lines ≠ []) :
    ['\n'].intercalate ([] :: lines) = '\n' :: ['\n'].intercalate lines := by
  cases lines with
  | nil => exact absurd rfl hne
  | cons line lines => rw [List.intercalate_cons_cons]; rfl

lemma intercalate_cons_char (c : Char) (line : List Char) (lines : List (List Char)) :
    ['\n'].intercalate ((c :: line) :: lines) = c :: ['\n'].intercalate (line :: lines) := by
  rw [intercalate_cons, intercalate_cons, List.cons_append]

lemma lfLines_eq_nil {s : List Char} : lfLines s = [] ↔ s = [] := by
  constructor
  · intro h
    fun_induction lfLines s with
    | case1 => rfl
    | case2 => cases h
    | case3 => cases h
    | case4 => cases h
    | case5 => cases h
  · rintro rfl
    rfl

lemma sourceBody_of_empty_line {s : List Char} {lines : List (List Char)} (hlines : lines = lfLines s) :
    ['\n'].intercalate ([] :: lines) = if s = [] then [] else '\n' :: sourceBody s := by
  subst hlines
  split
  · rename_i hs
    subst hs
    rfl
  · rename_i hs
    exact intercalate_nil_cons (mt lfLines_eq_nil.mp hs)

lemma sourceBody_newline (s : List Char) :
    sourceBody ('\n' :: s) = if s = [] then [] else '\n' :: sourceBody s := by
  rw [← sourceBody_of_empty_line rfl]
  rfl

lemma sourceBody_crlf (s : List Char) :
    sourceBody ('\r' :: '\n' :: s) = if s = [] then [] else '\n' :: sourceBody s := by
  rw [← sourceBody_of_empty_line rfl]
  rfl

lemma sourceBody_cons {c : Char} (hc : c ≠ '\n') {s : List Char}
    (hcr : c = '\r' → s.head? ≠ some '\n') : sourceBody (c :: s) = c :: sourceBody s := by
  have hnot : ∀ s', c = '\r' → s = '\n' :: s' → False := by
    rintro s' hreturn rfl
    exact hcr hreturn rfl
  unfold sourceBody
  rw [lfLines.eq_3 _ _ hnot, if_neg hc]
  rcases hlines : lfLines s with _ | ⟨line, lines⟩
  · rfl
  · exact intercalate_cons_char c line lines

/-- The lines of a body as the parse reads them. -/
def linesOf (b : List Char) : List (List Char) := (splitLines b).map stripped

lemma linesOf_eq_nil {s : List Char} : linesOf s = [] ↔ s = [] := by
  unfold linesOf
  rw [List.map_eq_nil_iff]
  constructor
  · intro h
    rw [← flatMap_splitLines s, h]
    rfl
  · rintro rfl
    rfl

lemma linesOf_crlf (s : List Char) : linesOf ('\r' :: '\n' :: s) = [] :: linesOf s := by
  unfold linesOf
  rw [splitLines, List.map_cons]
  rfl

lemma linesOf_boundary {c : Char} (hc : isLineBoundary c = true) {s : List Char}
    (hcr : c = '\r' → s.head? ≠ some '\n') : linesOf (c :: s) = kept [c] :: linesOf s := by
  have hnot : ∀ s', c = '\r' → s = '\n' :: s' → False := by
    rintro s' hreturn rfl
    exact hcr hreturn rfl
  have hsplit : splitLines (c :: s) = ([], [c]) :: splitLines s := by
    rw [splitLines.eq_3 _ _ hnot, if_pos hc]
  have hline : stripped ([], [c]) = kept [c] := by
    rw [stripped_eq (s := c :: s) (by rw [hsplit]; exact List.mem_cons_self), List.nil_append]
  unfold linesOf
  rw [hsplit, List.map_cons, hline]

lemma linesOf_plain {c : Char} (hc : isLineBoundary c = false) (s : List Char) :
    linesOf (c :: s) = match linesOf s with
      | [] => [[c]]
      | line :: lines => (c :: line) :: lines := by
  unfold linesOf
  rcases hs : splitLines s with _ | ⟨p, pieces⟩
  · have hnil : s = [] := by rw [← flatMap_splitLines s, hs]; rfl
    subst hnil
    have hone : splitLines [c] = [([c], [])] := splitLines_plain (by simpa using hc) (by simp)
    rw [hone, List.map_cons, stripped_eq (s := [c]) (by rw [hone]; exact List.mem_cons_self)]
    rfl
  · obtain ⟨line, ending⟩ := p
    have hsplit := splitLines_cons_plain hc hs
    rw [hsplit, List.map_cons, List.map_cons,
      stripped_eq (s := c :: s) (by rw [hsplit]; exact List.mem_cons_self),
      stripped_eq (s := s) (by rw [hs]; exact List.mem_cons_self)]
    rfl

lemma not_mem_linesOf {c : Char} (hc : c = '\n' ∨ c = '\r') {s line : List Char}
    (h : line ∈ linesOf s) : c ∉ line := by
  obtain ⟨p, hp, rfl⟩ := List.mem_map.mp h
  obtain ⟨hplain, hending⟩ := splitLines_spec hp
  have hcBoundary : isLineBoundary c = true := by
    rcases hc with rfl | rfl
    · rfl
    · rfl
  rw [stripped_eq hp, List.mem_append, not_or]
  refine ⟨fun hmem => ?_, ?_⟩
  · rw [hplain c hmem] at hcBoundary
    cases hcBoundary
  · rcases kept_cases hending with hkept | ⟨d, -, hn, hr, -, hkept⟩
    · rw [hkept]
      simp
    · rw [hkept, List.mem_singleton]
      rintro rfl
      rcases hc with rfl | rfl
      · exact hn rfl
      · exact hr rfl

/-- The lines of the parse joined at LF. -/
def joined (b : List Char) : List Char := ['\n'].intercalate (linesOf b)

lemma joined_of_empty_line (s : List Char) :
    ['\n'].intercalate ([] :: linesOf s) = if s = [] then [] else '\n' :: joined s := by
  split
  · rename_i hs
    subst hs
    rfl
  · rename_i hs
    exact intercalate_nil_cons (mt linesOf_eq_nil.mp hs)

lemma joined_plain {c : Char} (hc : isLineBoundary c = false) (s : List Char) :
    joined (c :: s) = c :: joined s := by
  unfold joined
  rw [linesOf_plain hc]
  rcases linesOf s with _ | ⟨line, lines⟩
  · rfl
  · exact intercalate_cons_char c line lines

lemma joined_other {c : Char} (hc : isLineBoundary c = true) (hn : c ≠ '\n') (hr : c ≠ '\r')
    (s : List Char) : joined (c :: s) = c :: if s = [] then [] else '\n' :: joined s := by
  have hkept : kept [c] = [c] := by simp [kept, hn, hr]
  unfold joined
  rw [linesOf_boundary hc (fun h => absurd h hr), hkept, intercalate_cons_char]
  congr 1
  exact joined_of_empty_line s

/-- No line has a CR, so the joined lines have none. -/
lemma cr_not_mem_joined (s : List Char) : '\r' ∉ joined s := by
  unfold joined
  rcases hlines : linesOf s with _ | ⟨line, lines⟩
  · simp
  · have hline {l : List Char} (hl : l ∈ linesOf s) : '\r' ∉ l := not_mem_linesOf (.inr rfl) hl
    rw [intercalate_cons, List.mem_append, List.mem_flatMap, not_or]
    refine ⟨hline (by rw [hlines]; exact List.mem_cons_self), ?_⟩
    rintro ⟨l, hl, hmem⟩
    rcases List.mem_cons.mp hmem with heq | hmem
    · cases heq
    · exact hline (by rw [hlines]; exact List.mem_cons_of_mem _ hl) hmem

/-! ## When nothing is lost -/

/-- Induction along the lines of a body: a CRLF, an LF, a lone CR, another separator or a plain
character in front. -/
lemma body_induction {motive : List Char → Prop} (nil : motive [])
    (crlf : ∀ s, motive s → motive ('\r' :: '\n' :: s))
    (lf : ∀ s, motive s → motive ('\n' :: s))
    (cr : ∀ s, s.head? ≠ some '\n' → motive s → motive ('\r' :: s))
    (other : ∀ c s, isLineBoundary c = true → c ≠ '\n' → c ≠ '\r' → motive s → motive (c :: s))
    (plain : ∀ c s, isLineBoundary c = false → motive s → motive (c :: s)) (s : List Char) :
    motive s := by
  fun_induction splitLines s with
  | case1 => exact nil
  | case2 s ih => exact crlf s ih
  | case3 c s hcrlf hboundary ih =>
    by_cases hn : c = '\n'
    · subst hn
      exact lf s ih
    by_cases hr : c = '\r'
    · subst hr
      refine cr s (fun hhead => ?_) ih
      obtain ⟨s', rfl⟩ := List.head?_eq_some_iff.mp hhead
      exact hcrlf s' rfl rfl
    · exact other c s hboundary hn hr ih
  | case4 c s _ hboundary hnone ih => exact plain c s (by simpa using hboundary) ih
  | case5 c s _ hboundary line ending lines hsome ih => exact plain c s (by simpa using hboundary) ih

lemma joined_crlf (s : List Char) :
    joined ('\r' :: '\n' :: s) = if s = [] then [] else '\n' :: joined s := by
  unfold joined
  rw [linesOf_crlf]
  exact joined_of_empty_line s

lemma joined_lf (s : List Char) : joined ('\n' :: s) = if s = [] then [] else '\n' :: joined s := by
  unfold joined
  rw [linesOf_boundary rfl (by simp)]
  exact joined_of_empty_line s

lemma plain_ne {c : Char} (hc : isLineBoundary c = false) : c ≠ '\n' ∧ c ≠ '\r' := by
  refine ⟨?_, ?_⟩
  · rintro rfl
    cases hc
  · rintro rfl
    cases hc

lemma sourceBody_plain {c : Char} (hc : isLineBoundary c = false) (s : List Char) :
    sourceBody (c :: s) = c :: sourceBody s :=
  sourceBody_cons (plain_ne hc).1 (fun h => absurd h (plain_ne hc).2)

/-- Without a lone CR the parse adds separators and takes none away. -/
lemma length_sourceBody_le {s : List Char} (hcr : '\r' ∉ sourceBody s) :
    (sourceBody s).length ≤ (joined s).length := by
  induction s using body_induction with
  | nil => exact le_refl _
  | crlf s ih =>
    rw [sourceBody_crlf] at hcr ⊢
    rw [joined_crlf]
    by_cases hs : s = []
    · simp [hs]
    · rw [if_neg hs] at hcr ⊢
      rw [if_neg hs]
      simpa using ih (fun hmem => hcr (List.mem_cons_of_mem _ hmem))
  | lf s ih =>
    rw [sourceBody_newline] at hcr ⊢
    rw [joined_lf]
    by_cases hs : s = []
    · simp [hs]
    · rw [if_neg hs] at hcr ⊢
      rw [if_neg hs]
      simpa using ih (fun hmem => hcr (List.mem_cons_of_mem _ hmem))
  | cr s hs ih =>
    rw [sourceBody_cons (by decide) (fun _ => hs)] at hcr
    exact absurd List.mem_cons_self hcr
  | other c s hc hn hr ih =>
    rw [sourceBody_cons hn (fun h => absurd h hr)] at hcr ⊢
    rw [joined_other hc hn hr]
    have hrest := ih (fun hmem => hcr (List.mem_cons_of_mem _ hmem))
    by_cases hs : s = []
    · subst hs
      simp [sourceBody, lfLines]
    · rw [if_neg hs]
      simp only [List.length_cons]
      omega
  | plain c s hc ih =>
    rw [sourceBody_plain hc] at hcr ⊢
    rw [joined_plain hc]
    simpa using ih (fun hmem => hcr (List.mem_cons_of_mem _ hmem))

/-- Joining at LF loses nothing exactly where nothing but LF and CRLF splits. -/
theorem sourceBody_eq_joined_iff (s : List Char) :
    sourceBody s = joined s ↔ lfOnly s = true := by
  induction s using body_induction with
  | nil => simp [sourceBody, joined, linesOf, splitLines, lfLines, lfOnly]
  | crlf s ih =>
    rw [sourceBody_crlf, joined_crlf]
    have hsame : lfOnly ('\r' :: '\n' :: s) = lfOnly s := by simp [lfOnly]
    rw [hsame, ← ih]
    by_cases hs : s = []
    · simp [hs, sourceBody, joined, linesOf, splitLines, lfLines]
    · rw [if_neg hs, if_neg hs, List.cons.injEq]
      simp
  | lf s ih =>
    rw [sourceBody_newline, joined_lf]
    have hsame : lfOnly ('\n' :: s) = lfOnly s := by simp [lfOnly]
    rw [hsame, ← ih]
    by_cases hs : s = []
    · simp [hs, sourceBody, joined, linesOf, splitLines, lfLines]
    · rw [if_neg hs, if_neg hs, List.cons.injEq]
      simp
  | cr s hs ih =>
    have hlost : lfOnly ('\r' :: s) = false := by simp [lfOnly, hs]
    rw [hlost, sourceBody_cons (by decide) (fun _ => hs)]
    constructor
    · intro heq
      exact absurd (heq ▸ List.mem_cons_self) (cr_not_mem_joined _)
    · intro hfalse
      cases hfalse
  | other c s hc hn hr ih =>
    rw [sourceBody_cons hn (fun h => absurd h hr), joined_other hc hn hr, List.cons.injEq]
    by_cases hs : s = []
    · subst hs
      simp [sourceBody, lfLines, lfOnly, hc, hr]
    · have hlost : lfOnly (c :: s) = false := by simp [lfOnly, hc, hr, hn, hs]
      rw [if_neg hs, hlost]
      constructor
      · rintro ⟨-, heq⟩
        -- a newline more than the source has
        have hnone : '\r' ∉ sourceBody s := by
          rw [heq, List.mem_cons, not_or]
          exact ⟨by decide, cr_not_mem_joined s⟩
        have hle := length_sourceBody_le hnone
        rw [heq, List.length_cons] at hle
        omega
      · intro hfalse
        cases hfalse
  | plain c s hc ih =>
    rw [sourceBody_plain hc, joined_plain hc, List.cons.injEq]
    have hsame : lfOnly (c :: s) = lfOnly s := by simp [lfOnly, hc, (plain_ne hc).2]
    rw [hsame, ← ih]
    simp

/-! ## What the truth test drops -/

lemma foldl_appendChars {body : List Char} (hne : body ≠ []) (lines : List (List Char)) :
    lines.foldl appendChars body = body ++ lines.flatMap fun l => '\n' :: l := by
  induction lines generalizing body with
  | nil => simp
  | cons line lines ih =>
    rw [List.foldl_cons, ih (by simp [appendChars, hne]), List.flatMap_cons]
    simp [appendChars, hne]

/-- A body whose first line is not empty is its lines joined. -/
lemma foldl_eq_intercalate {line : List Char} (hne : line ≠ []) (lines : List (List Char)) :
    (line :: lines).foldl appendChars [] = ['\n'].intercalate (line :: lines) := by
  rw [List.foldl_cons, intercalate_cons]
  exact foldl_appendChars hne lines

/-- What is assembled starts with a character of a line. -/
lemma head_foldl_appendChars {c : Char} {lines : List (List Char)} (hlines : ∀ l ∈ lines, c ∉ l) :
    (lines.foldl appendChars []).head? ≠ some c := by
  induction lines with
  | nil => simp
  | cons line lines ih =>
    obtain ⟨hline, hrest⟩ := List.forall_mem_cons.mp hlines
    rw [List.foldl_cons]
    rcases line with _ | ⟨d, line⟩
    · exact ih hrest
    · show (lines.foldl appendChars (d :: line)).head? ≠ some c
      rw [foldl_appendChars (by simp)]
      intro hhead
      obtain rfl : d = c := by simpa using hhead
      exact hline List.mem_cons_self

lemma collapsed_head {c : Char} (hc : c = '\n' ∨ c = '\r') (b : List Char) :
    (collapsed b).head? ≠ some c :=
  head_foldl_appendChars fun _ hl => not_mem_linesOf hc hl

/-- An empty first line is dropped, and kept in the source unless it is the last. -/
lemma collapsed_empty_line {b s : List Char} (hb : linesOf b = [] :: linesOf s)
    (hsource : sourceBody b = if s = [] then [] else '\n' :: sourceBody s) :
    collapsed b = sourceBody b ↔ s = [] := by
  constructor
  · intro heq
    by_contra hs
    rw [hsource, if_neg hs] at heq
    exact collapsed_head (.inl rfl) b (by rw [heq]; rfl)
  · rintro rfl
    rw [hsource, if_pos rfl]
    show (linesOf b).foldl appendChars [] = []
    rw [hb]
    rfl

lemma opensEmpty_cons {c : Char} (hn : c ≠ '\n') (hr : c ≠ '\r') (s : List Char) :
    opensEmpty (c :: s) = false := by
  unfold opensEmpty
  split
  · rename_i heq
    exact absurd (List.cons.inj heq).1 hn
  · rename_i heq
    exact absurd (List.cons.inj heq).1 hr
  · rfl

/-- The parse keeps a body as it is in the source exactly where it is plain. -/
theorem collapsed_eq_sourceBody_iff (b : List Char) : collapsed b = sourceBody b ↔ PlainBody b := by
  have hjoined {line : List Char} {lines : List (List Char)} (hlines : linesOf b = line :: lines)
      (hne : line ≠ []) (hopens : opensEmpty b = false) :
      collapsed b = sourceBody b ↔ PlainBody b := by
    have hcollapsed : collapsed b = joined b := by
      show (linesOf b).foldl appendChars [] = ['\n'].intercalate (linesOf b)
      rw [hlines]
      exact foldl_eq_intercalate hne lines
    rw [hcollapsed, eq_comm, sourceBody_eq_joined_iff, PlainBody, hopens]
    simp
  induction b using body_induction with
  | nil => simp [collapsed, splitLines, sourceBody, lfLines, PlainBody, lfOnly, opensEmpty]
  | crlf s =>
    rw [collapsed_empty_line (linesOf_crlf s) (sourceBody_crlf s)]
    constructor
    · rintro rfl
      simp [PlainBody, lfOnly, opensEmpty]
    · rintro ⟨-, hopens⟩
      simpa [opensEmpty] using hopens
  | lf s =>
    have hlines : linesOf ('\n' :: s) = [] :: linesOf s := linesOf_boundary rfl (by simp)
    rw [collapsed_empty_line hlines (sourceBody_newline s)]
    constructor
    · rintro rfl
      simp [PlainBody, lfOnly, opensEmpty]
    · rintro ⟨-, hopens⟩
      simpa [opensEmpty] using hopens
  | cr s hs =>
    have hlost : ¬ PlainBody ('\r' :: s) := by simp [PlainBody, lfOnly, hs]
    refine iff_of_false (fun heq => ?_) hlost
    rw [sourceBody_cons (by decide) (fun _ => hs)] at heq
    exact collapsed_head (.inr rfl) ('\r' :: s) (by rw [heq]; rfl)
  | other c s hc hn hr =>
    have hkept : kept [c] = [c] := by simp [kept, hn, hr]
    exact hjoined (linesOf_boundary hc fun h => absurd h hr) (by simp [hkept])
      (opensEmpty_cons hn hr s)
  | plain c s hc =>
    have hlines := linesOf_plain hc s
    have hopens := opensEmpty_cons (plain_ne hc).1 (plain_ne hc).2 s
    rcases hs : linesOf s with _ | ⟨line, lines⟩
    · rw [hs] at hlines
      exact hjoined hlines (by simp) hopens
    · rw [hs] at hlines
      exact hjoined hlines (by simp) hopens

/-! ## The body of a record -/

variable (U : Unicode)

/-- `text[start:stop]`. -/
def slice (text : String) (start stop : ℕ) : List Char := (text.toList.drop start).take (stop - start)

/-- The offset at which the body starts on the header line of a message. -/
def bodyStart (l : SourceLine) : Option ℕ := do
  let e ← readEntry U l.line
  let sm ← senderRegex.firstMatch e.rest
  let body ← sm.group "body"
  pure (l.start + (l.line.length - body.length))

/-- Where a section ends. -/
def sectionStop (s : SourceLine × List SourceLine) : ℕ :=
  s.2.getLast?.elim s.1.stop SourceLine.stop

variable {U}

lemma sourceLinesFrom_eq_append {offset : ℕ} {pieces : List (List Char × List Char)}
    {ls ms : List SourceLine} (h : sourceLinesFrom offset pieces = ls ++ ms) :
    ∃ ps qs, pieces = ps ++ qs ∧ ls = sourceLinesFrom offset ps ∧
      ms = sourceLinesFrom (offset + (ps.flatMap fun p => p.1 ++ p.2).length) qs := by
  induction ls generalizing offset pieces with
  | nil => exact ⟨[], pieces, rfl, rfl, h.symm⟩
  | cons l ls ih =>
    cases pieces with
    | nil => cases h
    | cons p pieces =>
      obtain ⟨line, ending⟩ := p
      rw [sourceLinesFrom, List.cons_append, List.cons.injEq] at h
      obtain ⟨ps, qs, rfl, rfl, rfl⟩ := ih h.2
      refine ⟨(line, ending) :: ps, qs, rfl, ?_, ?_⟩
      · rw [sourceLinesFrom, h.1]
      · rw [List.flatMap_cons, @List.length_append _ (line ++ ending), Nat.add_assoc]

/-- A section is a run of pieces of the text. -/
lemma section_pieces {dateFormat text : String} {s : SourceLine × List SourceLine}
    (hs : s ∈ (sectionsOf U dateFormat text).2) :
    ∃ before ps after, splitLines text.toList = before ++ (ps ++ after) ∧
      s.1 :: s.2 = sourceLinesFrom (before.flatMap fun p => p.1 ++ p.2).length ps := by
  obtain ⟨sections, sections', hsections⟩ := List.append_of_mem hs
  have hall := Sections.leading_append_flatMap (p := isHeader U dateFormat) (sourceLines text)
  have hrun : (Sections.split (isHeader U dateFormat) (sourceLines text)).2 =
      sections ++ s :: sections' := hsections
  rw [hrun, List.flatMap_append, List.flatMap_cons, ← List.append_assoc] at hall
  obtain ⟨before, rest, hpieces, -, hrest⟩ := sourceLinesFrom_eq_append hall.symm
  obtain ⟨ps, after, rfl, hlines, -⟩ := sourceLinesFrom_eq_append hrest.symm
  rw [Nat.zero_add] at hlines
  exact ⟨before, ps, after, hpieces, hlines⟩

lemma slice_eq {before run after : List Char} {text : String}
    (h : text.toList = before ++ (run ++ after)) (k : ℕ) :
    slice text (before.length + k) (before.length + run.length) = run.drop k := by
  unfold slice
  rw [h, ← List.drop_drop, List.drop_left, List.drop_append, Nat.add_sub_add_left]
  rw [List.take_append_of_le_length (by simp)]
  exact List.take_of_length_le (by simp)

lemma toList_appendLine (body line : String) :
    (appendLine body line).toList = appendChars body.toList line.toList := by
  unfold appendLine appendChars
  by_cases hempty : body = ""
  · simp [hempty]
  · have hchars : body.toList ≠ [] := by simpa using hempty
    simp [hempty, hchars]

/-- A record that is a message was opened as one. -/
lemma foldl_appendBody_message {r : Record} {ls : List SourceLine} {time : HeaderTime}
    {sender body : String} {media : Option String}
    (h : (ls.foldl appendBody r).content = .message time sender body media) :
    ∃ body', r.content = .message time sender body' media ∧
      body.toList = (ls.map SourceLine.line).foldl appendChars body'.toList := by
  induction ls generalizing r with
  | nil => exact ⟨body, h, rfl⟩
  | cons l ls ih =>
    obtain ⟨body', hcontent, hbody⟩ := ih h
    obtain ⟨start, stop, content⟩ := r
    cases content with
    | message time' sender' body'' media' =>
      simp only [appendBody, Content.message.injEq] at hcontent
      obtain ⟨rfl, rfl, rfl, rfl⟩ := hcontent
      refine ⟨body'', rfl, ?_⟩
      rw [hbody, toList_appendLine, String.toList_ofList]
      rfl
    | system time' known text => cases hcontent
    | ambiguousBoundary text => cases hcontent

/-- What a message's header says of it. -/
lemma opening_message {zone : Option Zone} {dateFormat : String} {l : SourceLine} {r : Record}
    (hnewline : '\n' ∉ l.line) (h : opening U zone dateFormat l = some r) {time : HeaderTime}
    {sender body : String} {media : Option String}
    (hcontent : r.content = .message time sender body media) :
    ∃ pre, l.line = pre ++ body.toList ∧ bodyStart U l = some (l.start + pre.length) := by
  obtain ⟨e, date, hheader, hrecord⟩ := opening_eq_some.mp h
  obtain ⟨hread, -⟩ := headerOf_eq_some.mp hheader
  obtain ⟨hour, minute, second, local', z, -, -, -, rfl⟩ := openRecord_eq_some.mp hrecord
  obtain ⟨pre, hpre⟩ := rest_suffix_of_readEntry hnewline hread
  have hrest : '\n' ∉ e.rest := by
    intro hmem
    exact hnewline (by rw [hpre]; exact List.mem_append_right _ hmem)
  unfold readContent at hcontent
  rcases hfirst : senderRegex.firstMatch e.rest with _ | sm
  · simp [hfirst] at hcontent
  · obtain ⟨sender', blank, body', hsplit, -, -, hsender, hbody⟩ := sender_of_firstMatch hrest hfirst
    simp only [hfirst, Option.bind_eq_bind, Option.bind_some, hsender, hbody, Option.pure_def,
      Content.message.injEq] at hcontent
    obtain ⟨-, -, rfl, -⟩ := hcontent
    have hline : l.line = (pre ++ (sender' ++ [':', blank])) ++ body' := by
      rw [hpre, hsplit]
      simp
    refine ⟨pre ++ (sender' ++ [':', blank]), by simpa using hline, ?_⟩
    have hlength : l.line.length - body'.length = (pre ++ (sender' ++ [':', blank])).length := by
      rw [hline, @List.length_append _ (pre ++ (sender' ++ [':', blank])), Nat.add_sub_cancel]
    simp only [bodyStart, hread, Option.bind_eq_bind, Option.bind_some, hfirst, hbody,
      Option.pure_def, hlength]

lemma collapsed_of_pieces {pieces : List (List Char × List Char)} (h : Pieces pieces) :
    collapsed (pieces.flatMap fun p => p.1 ++ p.2) = (pieces.map stripped).foldl appendChars [] := by
  unfold collapsed
  rw [splitLines_of_pieces h]

/-- The text of pieces from inside the first line on. -/
lemma collapsed_cut {line line' ending : List Char} {pieces : List (List Char × List Char)}
    (h : Pieces ((line ++ line', ending) :: pieces)) :
    collapsed (line' ++ (ending ++ pieces.flatMap fun p => p.1 ++ p.2)) =
      (pieces.map stripped).foldl appendChars (line' ++ kept ending) := by
  by_cases hempty : line' ++ ending = []
  · obtain ⟨rfl, rfl⟩ := List.append_eq_nil_iff.mp hempty
    obtain ⟨-, hcrlf | ⟨c, -, hone, -⟩ | ⟨-, -, rfl⟩, -⟩ := h
    · cases hcrlf
    · cases hone
    · rfl
  · have hcut := h.cut hempty
    have hsplit := splitLines_of_pieces hcut
    have hstripped : stripped (line', ending) = line' ++ kept ending :=
      stripped_eq (by rw [hsplit]; exact List.mem_cons_self)
    have hcollapsed := collapsed_of_pieces hcut
    rw [List.flatMap_cons, List.map_cons, List.foldl_cons, hstripped, List.append_assoc] at hcollapsed
    exact hcollapsed

/-- The text of a section from inside its header line on: the blank of the sender may be the
separator that ends the line. -/
lemma collapsed_drop {line ending pre body : List Char} {pieces : List (List Char × List Char)}
    (h : Pieces ((line, ending) :: pieces)) (hline : line ++ kept ending = pre ++ body) :
    collapsed ((line ++ (ending ++ pieces.flatMap fun p => p.1 ++ p.2)).drop pre.length) =
      (pieces.map stripped).foldl appendChars body := by
  have hending : ending = [] ∨ ending = ['\r', '\n'] ∨
      ∃ c, isLineBoundary c = true ∧ ending = [c] := by
    obtain ⟨-, hcrlf | ⟨c, hc, hone, -⟩ | ⟨hnil, -⟩, -⟩ := h
    · exact .inr (.inl hcrlf)
    · exact .inr (.inr ⟨c, hc, hone⟩)
    · exact .inl hnil
  have hinside {body' : List Char} (hpre : line = pre ++ body') (hbody : body = body' ++ kept ending) :
      collapsed ((line ++ (ending ++ pieces.flatMap fun p => p.1 ++ p.2)).drop pre.length) =
        (pieces.map stripped).foldl appendChars body := by
    subst hpre
    rw [List.append_assoc, List.drop_left, hbody]
    exact collapsed_cut h
  rcases kept_cases hending with hkept | ⟨c, -, -, -, rfl, hkept⟩
  · rw [hkept, List.append_nil] at hline
    exact hinside hline (by rw [hkept, List.append_nil])
  · rw [hkept] at hline
    rcases List.eq_nil_or_concat body with rfl | ⟨body', d, rfl⟩
    · rw [List.append_nil] at hline
      rw [← List.append_assoc, hline, List.drop_left]
      exact collapsed_of_pieces h.tail
    · rw [List.concat_eq_append, ← List.append_assoc] at hline
      obtain ⟨hpre, hlast⟩ := List.append_inj' hline rfl
      exact hinside hpre (by rw [hkept, List.concat_eq_append, hlast])

/-- The body of a record is what the parse makes of the text of its section after the prefix. -/
theorem record_body {zone : Option Zone} {dateFormat text : String}
    {s : SourceLine × List SourceLine} (hs : s ∈ (sectionsOf U dateFormat text).2) {r : Record}
    (hr : recordOf U zone dateFormat s = some r) {time : HeaderTime} {sender body : String}
    {media : Option String} (hcontent : r.content = .message time sender body media) :
    ∃ b, bodyStart U s.1 = some b ∧ body.toList = collapsed (slice text b (sectionStop s)) := by
  obtain ⟨before, ps, after, hpieces, hlines⟩ := section_pieces hs
  have hwhole : Pieces (before ++ (ps ++ after)) := hpieces ▸ splitLines_pieces _
  have htext : text.toList = (before.flatMap fun p => p.1 ++ p.2) ++
      ((ps.flatMap fun p => p.1 ++ p.2) ++ after.flatMap fun p => p.1 ++ p.2) := by
    rw [← flatMap_splitLines text.toList, hpieces]
    simp
  have hmem {p : List Char × List Char} (hp : p ∈ ps) : p ∈ splitLines text.toList := by
    rw [hpieces]
    exact List.mem_append_right _ (List.mem_append_left _ hp)
  have hstop : sectionStop s = (before.flatMap fun p => p.1 ++ p.2).length +
      (ps.flatMap fun p => p.1 ++ p.2).length := by
    have htiles := sourceLinesFrom_tiles (fun p hp => splitLines_raw_ne_nil (hmem hp))
      (before.flatMap fun p => p.1 ++ p.2).length
    rw [← hlines] at htiles
    exact htiles.last
  rcases ps with _ | ⟨⟨line, ending⟩, ps⟩
  · cases hlines
  rw [sourceLinesFrom, List.cons.injEq] at hlines
  obtain ⟨hheader, hmore⟩ := hlines
  have hrun : Pieces ((line, ending) :: ps) := hwhole.append_right.append_left
  have hstripped : s.1.line = line ++ kept ending := by
    rw [hheader]
    exact stripped_eq (hmem List.mem_cons_self)
  have hnewline : '\n' ∉ s.1.line := by
    rw [hheader]
    exact (splitLine_stripped (hmem List.mem_cons_self)).newline
  obtain ⟨opened, hopened, rfl⟩ := recordOf_eq_some.mp hr
  obtain ⟨body', hcontent', hbody⟩ := foldl_appendBody_message hcontent
  obtain ⟨pre, hpre, hstart⟩ := opening_message hnewline hopened hcontent'
  refine ⟨_, hstart, ?_⟩
  have hoffset : s.1.start = (before.flatMap fun p => p.1 ++ p.2).length := by rw [hheader]
  have hmoreLines : s.2.map SourceLine.line = ps.map stripped := by
    rw [hmore, sourceLinesFrom_map_line]
  rw [hbody, hmoreLines, hstop, hoffset, slice_eq htext, List.flatMap_cons, List.append_assoc,
    collapsed_drop hrun (hstripped.symm.trans hpre)]

/-! ## Exact bodies -/

/-- The body of a message record. -/
def Record.body (r : Record) : Option String :=
  match r.content with
  | .message _ _ body _ => some body
  | _ => none

variable (U) in
/-- The body of a record in its source. -/
def bodyInSource (text : String) (r : Record) : Option (List Char) := do
  let l ← (sourceLines text).find? fun l => l.start = r.sourceStartOffset
  let b ← bodyStart U l
  pure (sourceBody (slice text b r.sourceEndOffset))

variable (U) in
/-- The bodies of the message records are those of the source. -/
def BodiesExact (text : String) (records : List (Record × ℕ)) : Prop :=
  ∀ r ∈ records.map Prod.fst, ∀ body ∈ r.body, bodyInSource U text r = some body.toList

variable (U) in
/-- Messages whose bodies differ in the source have different bodies, and no content fingerprint in
common. -/
def BodiesStayDifferent (P : Platform) (text : String) (records : List (Record × ℕ)) : Prop :=
  ∀ r ∈ records.map Prod.fst, ∀ r' ∈ records.map Prod.fst, ∀ body ∈ r.body, ∀ body' ∈ r'.body,
    bodyInSource U text r ≠ bodyInSource U text r' →
      body ≠ body' ∧ ∀ type type' fp, contentFingerprint P type (some body) = some fp →
        contentFingerprint P type' (some body') ≠ some fp

lemma Record.body_eq_some {r : Record} {body : String} :
    r.body = some body ↔ ∃ time sender media, r.content = .message time sender body media := by
  unfold Record.body
  cases r.content with
  | message time sender body' media =>
    simp only [Option.some.injEq, Content.message.injEq]
    constructor
    · rintro rfl
      exact ⟨time, sender, media, rfl, rfl, rfl, rfl⟩
    · rintro ⟨time', sender', media', -, -, rfl, -⟩
      rfl
  | system time known text => simp
  | ambiguousBoundary text => simp

lemma body_isSome_of_kind {r : Record} (h : r.kind = "message") : ∃ body, r.body = some body := by
  obtain ⟨start, stop, content⟩ := r
  cases content with
  | message time sender body media => exact ⟨body, rfl⟩
  | system time known text => cases known <;> simp [Record.kind] at h
  | ambiguousBoundary text => simp [Record.kind] at h

section Exact

variable {zone : Option Zone} {dateFormat text : String} {records : List (Record × ℕ)}

lemma exact_different (hexact : BodiesExact U text records) {P : Platform}
    (hsha : Function.Injective P.sha256) : BodiesStayDifferent U P text records := by
  intro r hr r' hr' body hbody body' hbody' hne
  have hdiffer : body ≠ body' := by
    rintro rfl
    exact hne ((hexact r hr body hbody).trans (hexact r' hr' body hbody').symm)
  refine ⟨hdiffer, fun type type' fp hfp hfp' => hdiffer ?_⟩
  simpa using (contentFingerprint_inj hsha hfp hfp').2

/-- Where the record of a section is in the source. -/
lemma bodyInSource_of_section {s : SourceLine × List SourceLine}
    (hs : s ∈ (sectionsOf U dateFormat text).2) {r : Record}
    (hr : recordOf U zone dateFormat s = some r) :
    bodyInSource U text r =
      (bodyStart U s.1).map fun b => sourceBody (slice text b (sectionStop s)) := by
  have htiles := (sections_tile (U := U) dateFormat text).2
  rw [List.flatMap_def] at htiles
  obtain ⟨start, stop, hrun⟩ := htiles.of_mem_flatten (List.mem_map_of_mem hs)
  obtain ⟨hstart, hstop⟩ := recordOf_offsets hr hrun
  have hstop' : r.sourceEndOffset = sectionStop s := hstop.trans hrun.last.symm
  have hstart' : r.sourceStartOffset = s.1.start := hstart.trans hrun.1.symm
  have hmem : s.1 ∈ sourceLines text := Sections.mem_of_mem_section hs List.mem_cons_self
  have hfound : (sourceLines text).find? (fun l => l.start = r.sourceStartOffset) = some s.1 := by
    rcases hfind : (sourceLines text).find? (fun l => l.start = r.sourceStartOffset) with _ | l
    · have hnone := List.find?_eq_none.mp hfind s.1 hmem
      simp [hstart'] at hnone
    · have hl := List.find?_some hfind
      rw [decide_eq_true_eq, hstart'] at hl
      obtain rfl := sourceLine_eq_of_start (List.mem_of_find?_eq_some hfind) hmem hl
      exact hfind
  unfold bodyInSource
  rw [hfound, hstop']
  rcases hb : bodyStart U s.1 with _ | b
  · simp [hb]
  · simp [hb]

/-- A section whose header line has a body is a message. -/
lemma isMessage_of_bodyStart {s : SourceLine × List SourceLine} {r : Record}
    (hr : recordOf U zone dateFormat s = some r) {b : ℕ} (hb : bodyStart U s.1 = some b) :
    ∃ body, r.body = some body := by
  obtain ⟨e, hread, hb⟩ := Option.bind_eq_some_iff.mp hb
  obtain ⟨sm, hfirst, -⟩ := Option.bind_eq_some_iff.mp hb
  obtain ⟨opened, hopened, rfl⟩ := recordOf_eq_some.mp hr
  obtain ⟨e', date, hheader, hrecord⟩ := opening_eq_some.mp hopened
  obtain ⟨hread', -⟩ := headerOf_eq_some.mp hheader
  obtain rfl : e = e' := Option.some.inj (hread.symm.trans hread')
  obtain ⟨hour, minute, second, local', z, -, -, -, rfl⟩ := openRecord_eq_some.mp hrecord
  have hkind := (readContent_kind (U := U) s.1.start s.1.stop
    ⟨date, hour, minute, second, classifyLocal z local'⟩ e.rest).mpr
      (Option.isSome_iff_exists.mpr ⟨sm, hfirst⟩)
  rw [← appendBody_kind _ s.2] at hkind
  exact body_isSome_of_kind hkind

/-- The bodies of a transcript are those of the source exactly where they are plain. -/
lemma bodiesExact_iff (h : parseTranscript U zone dateFormat text = some records) :
    BodiesExact U text records ↔
      ∀ s ∈ (sectionsOf U dateFormat text).2, ∀ b ∈ bodyStart U s.1,
        PlainBody (slice text b (sectionStop s)) := by
  constructor
  · intro hexact s hs b hb
    obtain ⟨r, hr, hmade⟩ := exists_record_of_section h hs
    obtain ⟨body, hbody⟩ := isMessage_of_bodyStart hmade hb
    have hsource := hexact r (List.mem_of_mem_filter hr) body hbody
    obtain ⟨time, sender, media, hcontent⟩ := Record.body_eq_some.mp hbody
    obtain ⟨b', hb', hcollapsed⟩ := record_body hs hmade hcontent
    obtain rfl : b = b' := Option.some.inj ((Option.mem_def.mp hb).symm.trans hb')
    rw [bodyInSource_of_section hs hmade, hb', Option.map_some, hcollapsed] at hsource
    exact (collapsed_eq_sourceBody_iff _).mp (Option.some.inj hsource).symm
  · intro hplain r hr body hbody
    obtain ⟨time, sender, media, hcontent⟩ := Record.body_eq_some.mp hbody
    have hevidence : r ∈ evidenceOf records := by
      refine List.mem_filter.mpr ⟨hr, ?_⟩
      simp [Record.isEvidence, hcontent]
    obtain ⟨s, hs, hmade⟩ := Loop.exists_of_mem_mapM (parse_sections h) hevidence
    obtain ⟨b, hb, hcollapsed⟩ := record_body hs hmade hcontent
    rw [bodyInSource_of_section hs hmade, hb, Option.map_some, hcollapsed,
      (collapsed_eq_sourceBody_iff _).mpr (hplain s hs b hb)]

/-- The bodies of a transcript are exact evidence where, and only where, the text of each message after
its prefix is a plain body. -/
theorem bodies_exact_iff {P : Platform} (hsha : Function.Injective P.sha256)
    (h : parseTranscript U zone dateFormat text = some records) :
    BodiesExact U text records ∧ BodiesStayDifferent U P text records ↔
      ∀ s ∈ (sectionsOf U dateFormat text).2, ∀ b ∈ bodyStart U s.1,
        PlainBody (slice text b (sectionStop s)) := by
  rw [← bodiesExact_iff h]
  exact ⟨And.left, fun hbodies => ⟨hbodies, exact_different hbodies hsha⟩⟩

/-- A body of two lines. -/
def twoLines : String := "13/04/2026, 5:32 pm - Mona: a\r\nb\n14/04/2026, 5:32 pm - Mona: c"

theorem bodies_exact_iff_twoLines :
    ∃ records, parseTranscript ascii (some .utc) "DMY" twoLines = some records ∧
      BodiesExact ascii twoLines records ∧
      BodiesStayDifferent ascii ⟨id, fun _ _ _ => false⟩ twoLines records := by
  obtain ⟨records, hrecords⟩ := Option.isSome_iff_exists.mp
    (by decide : (parseTranscript ascii (some .utc) "DMY" twoLines).isSome)
  have hplain : ∀ s ∈ (sectionsOf ascii "DMY" twoLines).2, ∀ b ∈ bodyStart ascii s.1,
      PlainBody (slice twoLines b (sectionStop s)) := by
    decide
  exact ⟨records, hrecords,
    (bodies_exact_iff (P := ⟨id, fun _ _ _ => false⟩) Function.injective_id hrecords).mpr hplain⟩

/-- Two messages, the first with an empty first line. -/
def emptyFirstLine : String :=
  "13/04/2026, 5:32 pm - Mona: \nhello\n13/04/2026, 5:32 pm - Mona: hello\n"

/-- The two bodies differ in the source and are one in the records. -/
theorem empty_first_line_lost :
    ∃ records, parseTranscript ascii (some .utc) "DMY" emptyFirstLine = some records ∧
      records.map (fun r => r.1.body) = [some "hello", some "hello"] ∧
      records.map (fun r => bodyInSource ascii emptyFirstLine r.1) =
        [some "\nhello".toList, some "hello".toList] ∧
      ¬ BodiesExact ascii emptyFirstLine records ∧
      ∀ P, ¬ BodiesStayDifferent ascii P emptyFirstLine records := by
  have hparsed : ∃ records ∈ parseTranscript ascii (some .utc) "DMY" emptyFirstLine,
      records.map (fun r => r.1.body) = [some "hello", some "hello"] ∧
      records.map (fun r => bodyInSource ascii emptyFirstLine r.1) =
        [some "\nhello".toList, some "hello".toList] ∧
      ∃ r ∈ records.map Prod.fst, ∃ r' ∈ records.map Prod.fst, r.body = some "hello" ∧
        r'.body = some "hello" ∧
        bodyInSource ascii emptyFirstLine r = some "\nhello".toList ∧
        bodyInSource ascii emptyFirstLine r' = some "hello".toList := by
    decide
  obtain ⟨records, hrecords, hbodies, hsources, r, hr, r', hr', hbody, hbody', hsource, hsource'⟩ :=
    hparsed
  refine ⟨records, hrecords, hbodies, hsources, ?_, ?_⟩
  · intro hexact
    have hsame := (hexact r hr _ hbody).symm.trans hsource
    simp at hsame
  · intro P hdifferent
    refine (hdifferent r hr r' hr' _ hbody _ hbody' ?_).1 rfl
    rw [hsource, hsource']
    simp

end Exact

end WhatsVault.Importers
