import WhatsVault.Importers.Parse
import WhatsVault.Library.Tiling

/-!
# Lines of a text

`splitLines` cuts a text into pieces, each a line with what ends it (`Pieces`), and a run of pieces is
what the text of the run splits into (`splitLines_of_pieces`).  `parse_transcript` reads a line with its
CR and LF stripped: any other separator stays on it (`splitLine_stripped`).  The lines tile the text.
-/

namespace WhatsVault.Importers

open Tiling

/-! ## Pieces -/

lemma splitLines_raw_ne_nil {s : List Char} {l : List Char × List Char} (h : l ∈ splitLines s) :
    l.1 ++ l.2 ≠ [] := by
  fun_induction splitLines s with
  | case1 => cases h
  | case2 s ih =>
    rcases List.mem_cons.mp h with rfl | h
    · simp
    · exact ih h
  | case3 c s _ hboundary ih =>
    rcases List.mem_cons.mp h with rfl | h
    · simp
    · exact ih h
  | case4 c s _ hboundary hnone ih =>
    rw [List.mem_singleton.mp h]
    simp
  | case5 c s _ hboundary line ending lines hsome ih =>
    rcases List.mem_cons.mp h with rfl | h
    · simp
    · exact ih (by rw [hsome]; exact List.mem_cons_of_mem _ h)

lemma flatMap_splitLines (s : List Char) : (splitLines s).flatMap (fun l => l.1 ++ l.2) = s := by
  fun_induction splitLines s with
  | case1 => rfl
  | case2 s ih => simpa using ih
  | case3 c s _ hboundary ih => simpa using ih
  | case4 c s _ hboundary hnone ih =>
    rw [hnone] at ih
    simpa using ih
  | case5 c s _ hboundary line ending lines hsome ih =>
    rw [hsome] at ih
    simpa using ih

lemma sourceLinesFrom_tiles {lines : List (List Char × List Char)}
    (h : ∀ l ∈ lines, l.1 ++ l.2 ≠ []) (offset : ℕ) :
    Tiles SourceLine.start SourceLine.stop offset (sourceLinesFrom offset lines)
      (offset + (lines.flatMap fun l => l.1 ++ l.2).length) := by
  induction lines generalizing offset with
  | nil => rfl
  | cons l lines ih =>
    obtain ⟨line, ending⟩ := l
    obtain ⟨hraw, hlines⟩ := List.forall_mem_cons.mp h
    have hpositive : 0 < (line ++ ending).length := List.length_pos_iff.mpr hraw
    have hrest := ih hlines (offset + (line ++ ending).length)
    rw [List.flatMap_cons, List.length_append, ← Nat.add_assoc]
    refine ⟨rfl, ?_, hrest⟩
    show offset < offset + (line ++ ending).length
    omega

/-- The lines of a text tile it. -/
theorem sourceLines_tiles (text : String) :
    Tiles SourceLine.start SourceLine.stop 0 (sourceLines text) text.length := by
  have hlines := sourceLinesFrom_tiles (fun l hl => splitLines_raw_ne_nil (s := text.toList) hl) 0
  rw [flatMap_splitLines, Nat.zero_add] at hlines
  exact hlines

/-- What a text can be split into: lines without separators, and what ends them. -/
def Pieces : List (List Char × List Char) → Prop
  | [] => True
  | (line, ending) :: pieces => (∀ c ∈ line, isLineBoundary c = false) ∧
      (ending = ['\r', '\n'] ∨
        (∃ c, isLineBoundary c = true ∧ ending = [c] ∧
          (c = '\r' → (pieces.flatMap fun p => p.1 ++ p.2).head? ≠ some '\n')) ∨
        ending = [] ∧ line ≠ [] ∧ pieces = []) ∧
      Pieces pieces

lemma splitLines_pieces (s : List Char) : Pieces (splitLines s) := by
  fun_induction splitLines s with
  | case1 => trivial
  | case2 s ih => exact ⟨by simp, .inl rfl, ih⟩
  | case3 c s hcrlf hboundary ih =>
    refine ⟨by simp, .inr (.inl ⟨c, hboundary, rfl, ?_⟩), ih⟩
    rintro rfl hhead
    rw [flatMap_splitLines] at hhead
    obtain ⟨s', rfl⟩ := List.head?_eq_some_iff.mp hhead
    exact hcrlf s' rfl rfl
  | case4 c s _ hboundary hnone ih =>
    exact ⟨by simpa using hboundary, .inr (.inr ⟨rfl, by simp, rfl⟩), trivial⟩
  | case5 c s _ hboundary line ending lines hsome ih =>
    rw [hsome] at ih
    obtain ⟨hplain, hending, hlines⟩ := ih
    refine ⟨?_, ?_, hlines⟩
    · intro d hd
      rcases List.mem_cons.mp hd with rfl | hd
      · simpa using hboundary
      · exact hplain d hd
    · rcases hending with hcrlf | hone | ⟨hnil, -, hlast⟩
      · exact .inl hcrlf
      · exact .inr (.inl hone)
      · exact .inr (.inr ⟨hnil, by simp, hlast⟩)

lemma splitLines_cons_plain {c : Char} (hc : isLineBoundary c = false) {s : List Char}
    {line ending : List Char} {pieces : List (List Char × List Char)}
    (h : splitLines s = (line, ending) :: pieces) :
    splitLines (c :: s) = (c :: line, ending) :: pieces := by
  have hcr : c ≠ '\r' := by
    rintro rfl
    cases hc
  rw [splitLines.eq_3 _ _ (fun _ heq _ => hcr heq), if_neg (by simp [hc]), h]

lemma splitLines_plain_append {line s : List Char} (hplain : ∀ c ∈ line, isLineBoundary c = false)
    {line' ending : List Char} {pieces : List (List Char × List Char)}
    (h : splitLines s = (line', ending) :: pieces) :
    splitLines (line ++ s) = (line ++ line', ending) :: pieces := by
  induction line with
  | nil => exact h
  | cons c line ih =>
    obtain ⟨hc, hplain⟩ := List.forall_mem_cons.mp hplain
    exact splitLines_cons_plain hc (ih hplain)

lemma splitLines_plain {line : List Char} (hplain : ∀ c ∈ line, isLineBoundary c = false)
    (hne : line ≠ []) : splitLines line = [(line, [])] := by
  rcases List.eq_nil_or_concat line with rfl | ⟨line, c, rfl⟩
  · exact absurd rfl hne
  · rw [List.concat_eq_append] at hplain ⊢
    have hc : isLineBoundary c = false := hplain c (by simp)
    have hone : splitLines [c] = [([c], [])] := by
      rw [splitLines.eq_3 _ _ (by simp), if_neg (by simp [hc])]
      rfl
    exact splitLines_plain_append (fun d hd => hplain d (List.mem_append_left _ hd)) hone

/-- The text of pieces splits into them. -/
theorem splitLines_of_pieces {pieces : List (List Char × List Char)} (h : Pieces pieces) :
    splitLines (pieces.flatMap fun p => p.1 ++ p.2) = pieces := by
  induction pieces with
  | nil => rfl
  | cons p pieces ih =>
    obtain ⟨line, ending⟩ := p
    obtain ⟨hplain, hending, hpieces⟩ := h
    rw [List.flatMap_cons]
    rcases hending with rfl | ⟨c, hc, rfl, hcr⟩ | ⟨rfl, hne, rfl⟩
    · have hempty : splitLines ('\r' :: '\n' :: pieces.flatMap fun p => p.1 ++ p.2) =
          ([], ['\r', '\n']) :: pieces := by
        rw [splitLines, ih hpieces]
      simpa using splitLines_plain_append hplain hempty
    · have hempty : splitLines (c :: pieces.flatMap fun p => p.1 ++ p.2) = ([], [c]) :: pieces := by
        rw [splitLines.eq_3 _ _ ?_, if_pos hc, ih hpieces]
        rintro s rfl hs
        exact hcr rfl (by rw [hs]; rfl)
      simpa using splitLines_plain_append hplain hempty
    · simpa using splitLines_plain hplain hne

lemma Pieces.tail {p : List Char × List Char} {pieces : List (List Char × List Char)}
    (h : Pieces (p :: pieces)) : Pieces pieces := h.2.2

lemma Pieces.append_left {ps qs : List (List Char × List Char)} (h : Pieces (ps ++ qs)) :
    Pieces ps := by
  induction ps with
  | nil => trivial
  | cons p ps ih =>
    obtain ⟨line, ending⟩ := p
    obtain ⟨hplain, hending, hpieces⟩ := h
    refine ⟨hplain, ?_, ih hpieces⟩
    rcases hending with hcrlf | ⟨c, hc, hone, hcr⟩ | ⟨hnil, hne, hlast⟩
    · exact .inl hcrlf
    · refine .inr (.inl ⟨c, hc, hone, fun heq hhead => hcr heq ?_⟩)
      show ((ps ++ qs).flatMap fun p => p.1 ++ p.2).head? = some '\n'
      rw [List.flatMap_append, List.head?_append, hhead]
      rfl
    · exact .inr (.inr ⟨hnil, hne, (List.append_eq_nil_iff.mp hlast).1⟩)

lemma Pieces.append_right {ps qs : List (List Char × List Char)} (h : Pieces (ps ++ qs)) :
    Pieces qs := by
  induction ps with
  | nil => exact h
  | cons p ps ih => exact ih h.tail

/-- A piece without the start of its line. -/
lemma Pieces.cut {line line' ending : List Char} {pieces : List (List Char × List Char)}
    (h : Pieces ((line ++ line', ending) :: pieces)) (hne : line' ++ ending ≠ []) :
    Pieces ((line', ending) :: pieces) := by
  obtain ⟨hplain, hending, hpieces⟩ := h
  refine ⟨fun c hc => hplain c (List.mem_append_right _ hc), ?_, hpieces⟩
  rcases hending with hcrlf | hone | ⟨rfl, -, hlast⟩
  · exact .inl hcrlf
  · exact .inr (.inl hone)
  · exact .inr (.inr ⟨rfl, by simpa using hne, hlast⟩)

/-! ## What is read of a line -/

/-- The text of a line as `parse_transcript` reads it. -/
def stripped (p : List Char × List Char) : List Char := rstrip '\r' (rstrip '\n' (p.1 ++ p.2))

lemma sourceLinesFrom_map_line (offset : ℕ) (lines : List (List Char × List Char)) :
    (sourceLinesFrom offset lines).map SourceLine.line = lines.map stripped := by
  induction lines generalizing offset with
  | nil => rfl
  | cons p lines ih =>
    obtain ⟨line, ending⟩ := p
    rw [sourceLinesFrom, List.map_cons, List.map_cons, ih]
    rfl

lemma sourceLines_map_line (text : String) :
    (sourceLines text).map SourceLine.line = (splitLines text.toList).map stripped :=
  sourceLinesFrom_map_line 0 _

/-- What a line ends with. -/
lemma splitLines_spec {s : List Char} {p : List Char × List Char} (h : p ∈ splitLines s) :
    (∀ c ∈ p.1, isLineBoundary c = false) ∧
      (p.2 = [] ∨ p.2 = ['\r', '\n'] ∨ ∃ c, isLineBoundary c = true ∧ p.2 = [c]) := by
  fun_induction splitLines s generalizing p with
  | case1 => cases h
  | case2 s ih =>
    rcases List.mem_cons.mp h with rfl | h
    · exact ⟨by simp, .inr (.inl rfl)⟩
    · exact ih h
  | case3 c s _ hboundary ih =>
    rcases List.mem_cons.mp h with rfl | h
    · exact ⟨by simp, .inr (.inr ⟨c, hboundary, rfl⟩)⟩
    · exact ih h
  | case4 c s _ hboundary hnone ih =>
    rw [List.mem_singleton.mp h]
    exact ⟨by simpa using hboundary, .inl rfl⟩
  | case5 c s _ hboundary line ending lines hsome ih =>
    rcases List.mem_cons.mp h with rfl | h
    · obtain ⟨hplain, hending⟩ := ih (p := (line, ending)) (by rw [hsome]; exact List.mem_cons_self)
      refine ⟨?_, hending⟩
      intro d hd
      rcases List.mem_cons.mp hd with rfl | hd
      · simpa using hboundary
      · exact hplain d hd
    · exact ih (by rw [hsome]; exact List.mem_cons_of_mem _ h)

lemma rstrip_concat_self (c : Char) (s : List Char) : rstrip c (s ++ [c]) = rstrip c s := by
  simp [rstrip]

lemma rstrip_of_not_mem {c : Char} {s : List Char} (h : c ∉ s) : rstrip c s = s := by
  unfold rstrip
  rcases List.eq_nil_or_concat s with rfl | ⟨s, d, rfl⟩
  · rfl
  · have hd : d ≠ c := by
      rintro rfl
      simp at h
    simp [hd]

/-- A line as `validate_family` and as `parse_transcript` split it off. -/
structure SplitLine (content line : List Char) : Prop where
  plain : ∀ c ∈ content, isLineBoundary c = false
  newline : '\n' ∉ line
  kept : line = content ∨ ∃ c, isLineBoundary c = true ∧ line = content ++ [c]

lemma isSpace_of_isLineBoundary {c : Char} (h : isLineBoundary c = true) : isSpace c = true := by
  simp only [isLineBoundary, isSpace, decide_eq_true_eq, Bool.decide_or, Bool.or_eq_true] at h ⊢
  omega

/-- What stays of an ending on the line. -/
def kept (ending : List Char) : List Char :=
  if ending ∈ [['\n'], ['\r'], ['\r', '\n']] then [] else ending

lemma stripped_eq {s : List Char} {p : List Char × List Char} (h : p ∈ splitLines s) :
    stripped p = p.1 ++ kept p.2 := by
  obtain ⟨hplain, hending⟩ := splitLines_spec h
  obtain ⟨line, ending⟩ := p
  have hnewline : '\n' ∉ line := fun hmem => by simpa [isLineBoundary] using hplain _ hmem
  have hreturn : '\r' ∉ line := fun hmem => by simpa [isLineBoundary] using hplain _ hmem
  unfold stripped
  rcases hending with rfl | rfl | ⟨c, hc, rfl⟩
  · simp only [List.append_nil]
    rw [rstrip_of_not_mem hnewline, rstrip_of_not_mem hreturn]
    simp [kept]
  · have hending : line ++ ['\r', '\n'] = (line ++ ['\r']) ++ ['\n'] := by simp
    have hnewline' : '\n' ∉ line ++ ['\r'] := by simpa using hnewline
    dsimp only
    rw [hending, rstrip_concat_self, rstrip_of_not_mem hnewline', rstrip_concat_self,
      rstrip_of_not_mem hreturn]
    simp [kept]
  · dsimp only
    by_cases hn : c = '\n'
    · subst hn
      rw [rstrip_concat_self, rstrip_of_not_mem hnewline, rstrip_of_not_mem hreturn]
      simp [kept]
    have hnewline' : '\n' ∉ line ++ [c] := by
      simp only [List.mem_append, List.mem_singleton, not_or]
      exact ⟨hnewline, fun heq => hn heq.symm⟩
    rw [rstrip_of_not_mem hnewline']
    by_cases hr : c = '\r'
    · subst hr
      rw [rstrip_concat_self, rstrip_of_not_mem hreturn]
      simp [kept]
    · have hreturn' : '\r' ∉ line ++ [c] := by
        simp only [List.mem_append, List.mem_singleton, not_or]
        exact ⟨hreturn, fun heq => hr heq.symm⟩
      rw [rstrip_of_not_mem hreturn']
      simp [kept, hn, hr]

/-- A CR or an LF is on no line, and a separator only at its end. -/
lemma kept_cases {ending : List Char}
    (h : ending = [] ∨ ending = ['\r', '\n'] ∨ ∃ c, isLineBoundary c = true ∧ ending = [c]) :
    kept ending = [] ∨
      ∃ c, isLineBoundary c = true ∧ c ≠ '\n' ∧ c ≠ '\r' ∧ ending = [c] ∧ kept ending = [c] := by
  rcases h with rfl | rfl | ⟨c, hc, rfl⟩
  · exact .inl rfl
  · exact .inl rfl
  · by_cases hn : c = '\n'
    · exact .inl (by simp [kept, hn])
    by_cases hr : c = '\r'
    · exact .inl (by simp [kept, hr])
    · exact .inr ⟨c, hc, hn, hr, rfl, by simp [kept, hn, hr]⟩

lemma splitLine_stripped {s : List Char} {p : List Char × List Char} (h : p ∈ splitLines s) :
    SplitLine p.1 (stripped p) := by
  obtain ⟨hplain, hending⟩ := splitLines_spec h
  have hnewline : '\n' ∉ p.1 := fun hmem => by simpa [isLineBoundary] using hplain _ hmem
  rw [stripped_eq h]
  rcases kept_cases hending with hkept | ⟨c, hc, hn, -, -, hkept⟩
  · rw [hkept, List.append_nil]
    exact ⟨hplain, hnewline, .inl rfl⟩
  · rw [hkept]
    refine ⟨hplain, ?_, .inr ⟨c, hc, rfl⟩⟩
    simp only [List.mem_append, List.mem_singleton, not_or]
    exact ⟨hnewline, fun heq => hn heq.symm⟩

/-- A line is known by where it starts. -/
lemma sourceLine_eq_of_start {text : String} {l l' : SourceLine} (hl : l ∈ sourceLines text)
    (hl' : l' ∈ sourceLines text) (hstart : l.start = l'.start) : l = l' := by
  have htiles := sourceLines_tiles text
  obtain ⟨-, hlt, hstop⟩ := htiles.bounds hl
  obtain ⟨only, -, hunique⟩ := htiles.existsUnique (Nat.zero_le _) (lt_of_lt_of_le hlt hstop)
  rw [hunique l ⟨hl, le_refl _, hlt⟩,
    hunique l' ⟨hl', by omega, by rw [hstart]; exact (htiles.bounds hl').2.1⟩]

end WhatsVault.Importers
