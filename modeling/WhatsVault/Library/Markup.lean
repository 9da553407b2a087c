import Mathlib.Data.List.Basic
import Mathlib.Tactic.Common

/-!
# Markup

A page is text with tags in it.  `read` takes it apart the way a browser does: `<` begins a tag, `>` ends
it unless a quoted value is open, and what is between two tags is text, whose character references are
decoded before it is shown (`browse`).  The reader knows neither comments nor elements of raw text, so for
it `<` begins a tag wherever it stands.

What is printed of a document is read back (`read_print`), where no text has a `<` in it and no tag ends
early.  Escaped text never has, whatever is escaped, and it is shown as it was (`decode_flatMap_escape`):
a template keeps its tags when escaped text is put between them.
-/

namespace Markup

inductive Segment
  | text (s : List Char)
  | tag (s : List Char)
  deriving DecidableEq, Repr

def Segment.print : Segment → List Char
  | .text s => s
  | .tag s => '<' :: (s ++ ['>'])

def print (document : List Segment) : List Char := document.flatMap Segment.print

lemma print_nil : print [] = [] := rfl

lemma print_append (s t : List Segment) : print (s ++ t) = print s ++ print t := List.flatMap_append

lemma print_text (s : List Char) (t : List Segment) : print (.text s :: t) = s ++ print t := List.flatMap_cons

lemma print_tag (s : List Char) (t : List Segment) : print (.tag s :: t) = '<' :: (s ++ '>' :: print t) := by
  simp [print, Segment.print]

lemma print_text_append (s t : List Char) (rest : List Segment) :
    print (.text (s ++ t) :: rest) = s ++ (t ++ print rest) := by
  rw [print_text, List.append_assoc]

lemma print_tag_append (s t u : List Char) (rest : List Segment) :
    print (.tag (s ++ (t ++ u)) :: rest) = '<' :: (s ++ (t ++ (u ++ '>' :: print rest))) := by
  rw [print_tag, List.append_assoc, List.append_assoc]

/-! ## Reading -/

/-- Where a reader stands. -/
inductive Mode
  | text
  | tag
  | quoted (q : Char)
  deriving DecidableEq, Repr

/-- The mode inside of a tag after a character, none where it ends the tag. -/
def Mode.next : Mode → Char → Option Mode
  | .quoted q, c => some (if c = q then .tag else .quoted q)
  | _, c => if c = '>' then none else some (if c = '"' ∨ c = '\'' then .quoted c else .tag)

/-- Text with nothing in it is no segment. -/
def textSegment (s : List Char) : List Segment := if s = [] then [] else [.text s]

/-- What is read from a mode on, `seen` being what was seen of the segment.  A tag that never ends is
dropped. -/
def readFrom : Mode → List Char → List Char → List Segment
  | .text, seen, [] => textSegment seen
  | .text, seen, c :: s =>
    if c = '<' then textSegment seen ++ readFrom .tag [] s else readFrom .text (seen ++ [c]) s
  | _, _, [] => []
  | mode, seen, c :: s =>
    match mode.next c with
    | none => .tag seen :: readFrom .text [] s
    | some mode => readFrom mode (seen ++ [c]) s

def read (s : List Char) : List Segment := readFrom .text [] s

/-- The mode after a piece of a tag, none where the piece ends it. -/
def inside : Mode → List Char → Option Mode
  | mode, [] => some mode
  | mode, c :: s => (mode.next c).bind fun mode => inside mode s

lemma inside_append (mode : Mode) (s t : List Char) :
    inside mode (s ++ t) = (inside mode s).bind fun mode => inside mode t := by
  induction s generalizing mode with
  | nil => rfl
  | cons c s ih =>
    rw [List.cons_append, inside, inside]
    cases mode.next c with
    | none => rfl
    | some mode => exact ih mode

/-- A quoted value ends with the quote it began with. -/
lemma inside_quoted {q : Char} {s : List Char} (h : q ∉ s) : inside (.quoted q) s = some (.quoted q) := by
  induction s with
  | nil => rfl
  | cons c s ih =>
    rw [List.mem_cons, not_or] at h
    rw [inside, Mode.next, if_neg (Ne.symm h.1)]
    exact ih h.2

lemma next_ne_text {mode mode' : Mode} {c : Char} (h : mode.next c = some mode') : mode' ≠ .text := by
  have hite {p : Prop} [Decidable p] {a b : Mode} (ha : a ≠ .text) (hb : b ≠ .text) :
      (if p then a else b) ≠ .text := by
    split
    · exact ha
    · exact hb
  cases mode with
  | quoted q =>
    cases h
    exact hite (by simp) (by simp)
  | text =>
    simp only [Mode.next, Option.ite_none_left_eq_some, Option.some.injEq] at h
    rw [← h.2]
    exact hite (by simp) (by simp)
  | tag =>
    simp only [Mode.next, Option.ite_none_left_eq_some, Option.some.injEq] at h
    rw [← h.2]
    exact hite (by simp) (by simp)

lemma readFrom_text {t : List Char} (h : '<' ∉ t) (seen s : List Char) :
    readFrom .text seen (t ++ s) = readFrom .text (seen ++ t) s := by
  induction t generalizing seen with
  | nil => rw [List.nil_append, List.append_nil]
  | cons c t ih =>
    rw [List.mem_cons, not_or] at h
    rw [List.cons_append, readFrom, if_neg (Ne.symm h.1), ih h.2, List.append_assoc, List.singleton_append]

lemma readFrom_inside {mode mode' : Mode} (hmode : mode ≠ .text) {t : List Char}
    (h : inside mode t = some mode') (seen s : List Char) :
    readFrom mode seen (t ++ s) = readFrom mode' (seen ++ t) s := by
  induction t generalizing mode seen with
  | nil =>
    cases h
    rw [List.nil_append, List.append_nil]
  | cons c t ih =>
    rw [inside] at h
    obtain ⟨middle, hnext, hrest⟩ := Option.bind_eq_some_iff.mp h
    rw [List.cons_append, readFrom, hnext]
    · dsimp only
      rw [ih (next_ne_text hnext) hrest, List.append_assoc, List.singleton_append]
    · exact hmode

/-! ## What is printed -/

/-- A text has no tag in it, and a tag ends where it is closed. -/
def Segment.Whole : Segment → Prop
  | .text s => s ≠ [] ∧ '<' ∉ s
  | .tag s => inside .tag s = some .tag

instance : DecidablePred Segment.Whole
  | .text _ => inferInstanceAs (Decidable (_ ∧ _))
  | .tag _ => inferInstanceAs (Decidable (_ = _))

/-- No two texts stand side by side. -/
def Segment.Apart : Segment → Segment → Prop
  | .text _, .text _ => False
  | _, _ => True

instance : DecidableRel Segment.Apart
  | .text _, .text _ => inferInstanceAs (Decidable False)
  | .text _, .tag _ | .tag _, _ => inferInstanceAs (Decidable True)

lemma textSegment_eq {s : List Char} (h : s ≠ []) : textSegment s = [.text s] := if_neg h

lemma readFrom_tag {s : List Char} (h : (Segment.tag s).Whole) (seen rest : List Char) :
    readFrom .text seen ((Segment.tag s).print ++ rest) =
      textSegment seen ++ .tag s :: readFrom .text [] rest := by
  have hprint : (Segment.tag s).print ++ rest = '<' :: (s ++ '>' :: rest) := by simp [Segment.print]
  rw [hprint, readFrom, if_pos rfl, readFrom_inside (by simp) h, List.nil_append, readFrom]
  · rfl
  · simp

/-- **A document is read back.** -/
theorem read_print {document : List Segment} (hwhole : ∀ s ∈ document, s.Whole)
    (happart : document.IsChain Segment.Apart) : read (print document) = document := by
  unfold read
  induction document with
  | nil => rfl
  | cons s document ih =>
    rw [List.forall_mem_cons] at hwhole
    have hrest := ih hwhole.2 happart.of_cons
    rw [print, List.flatMap_cons, ← print]
    cases s with
    | tag s => rw [readFrom_tag hwhole.1, hrest, textSegment, if_pos rfl, List.nil_append]
    | text s =>
      obtain ⟨hne, hplain⟩ := hwhole.1
      rw [Segment.print, readFrom_text hplain, List.nil_append]
      -- the text ends with the page, or where the next tag begins
      cases document with
      | nil => rw [print, List.flatMap_nil, readFrom, textSegment_eq hne]
      | cons next document =>
        cases next with
        | text t => exact absurd (List.isChain_cons_cons.mp happart).1 id
        | tag t =>
          rw [print, List.flatMap_cons, ← print] at hrest ⊢
          have htag := (List.forall_mem_cons.mp hwhole.2).1
          rw [readFrom_tag htag, textSegment, if_pos rfl, List.nil_append] at hrest
          rw [readFrom_tag htag, textSegment_eq hne, hrest, List.singleton_append]

/-! ## Character references -/

/-- The characters that are escaped, with their names. -/
def references : List (Char × List Char) :=
  [('&', "amp;".toList), ('<', "lt;".toList), ('>', "gt;".toList), ('"', "quot;".toList),
    ('\'', "#x27;".toList)]

def escape (c : Char) : List Char :=
  match references.lookup c with
  | some name => '&' :: name
  | none => [c]

lemma escape_ne_nil (c : Char) : escape c ≠ [] := by
  unfold escape
  split
  · exact List.cons_ne_nil _ _
  · exact List.cons_ne_nil _ _

/-- The reference a text begins with, after its `&`. -/
def reference (s : List Char) : Option (Char × List Char) :=
  references.find? fun r => r.2.isPrefixOf s

/-- `decode` after a number of characters. -/
def decodeFrom : ℕ → List Char → List Char
  | _, [] => []
  | skip + 1, _ :: s => decodeFrom skip s
  | 0, c :: s =>
    if c = '&' then
      match reference s with
      | some r => r.1 :: decodeFrom r.2.length s
      | none => c :: decodeFrom 0 s
    else c :: decodeFrom 0 s

/-- An `&` that no name follows stands for itself. -/
def decode (s : List Char) : List Char := decodeFrom 0 s

lemma decodeFrom_append (s t : List Char) : decodeFrom s.length (s ++ t) = decode t := by
  induction s with
  | nil => rfl
  | cons c s ih => exact ih

lemma decode_cons {c : Char} (h : c ≠ '&') (s : List Char) : decode (c :: s) = c :: decode s := by
  rw [decode, decodeFrom, if_neg h, ← decode]

/-- A name is not mistaken for another. -/
lemma reference_append : ∀ r ∈ references, ∀ s, reference (r.2 ++ s) = some r := by
  intro r hr s
  simp only [references, List.mem_cons, List.not_mem_nil, or_false] at hr
  rcases hr with rfl | rfl | rfl | rfl | rfl <;> simp [reference, references]

/-- **An escaped character is read back.** -/
theorem decode_escape_append (c : Char) (s : List Char) : decode (escape c ++ s) = c :: decode s := by
  unfold escape
  cases h : references.lookup c with
  | none =>
    refine decode_cons ?_ s
    rintro rfl
    cases h
  | some name =>
    have hmem : (c, name) ∈ references := by
      obtain ⟨before, after, hsplit, -⟩ := List.lookup_eq_some_iff.mp h
      rw [hsplit]
      exact List.mem_append_right _ (List.mem_cons_self ..)
    dsimp only
    rw [List.cons_append, decode, decodeFrom, if_pos rfl, reference_append _ hmem]
    dsimp only
    rw [decodeFrom_append]

@[simp] theorem decode_flatMap_escape (s : List Char) : decode (s.flatMap escape) = s := by
  induction s with
  | nil => rfl
  | cons c s ih => rw [List.flatMap_cons, decode_escape_append, ih]

lemma decode_of_not_mem {s : List Char} (h : '&' ∉ s) : decode s = s := by
  induction s with
  | nil => rfl
  | cons c s ih =>
    rw [List.mem_cons, not_or] at h
    rw [decode_cons (Ne.symm h.1), ih h.2]

/-- Escaped text has none of the characters that markup is made of. -/
lemma not_mem_escape {d : Char} (hd : (references.lookup d).isSome) (hname : ∀ r ∈ references, d ∉ r.2)
    (hne : d ≠ '&') (s : List Char) : d ∉ s.flatMap escape := by
  intro hmem
  obtain ⟨c, -, hc⟩ := List.mem_flatMap.mp hmem
  unfold escape at hc
  split at hc
  · rename_i name hlookup
    obtain hd | hd := List.mem_cons.mp hc
    · exact hne hd
    · obtain ⟨before, after, hsplit, -⟩ := List.lookup_eq_some_iff.mp hlookup
      exact hname (c, name) (by rw [hsplit]; simp) hd
  · rename_i hlookup
    rw [List.mem_singleton.mp hc, hlookup] at hd
    cases hd

lemma lt_not_mem_escape (s : List Char) : '<' ∉ s.flatMap escape :=
  not_mem_escape (by decide) (by decide) (by decide) s

/-! ## What is shown -/

/-- A segment with the references of its text decoded. -/
def Segment.shown : Segment → Segment
  | .text s => .text (decode s)
  | .tag s => .tag s

/-- What a browser makes of a page. -/
def browse (page : List Char) : List Segment := (read page).map Segment.shown

end Markup
