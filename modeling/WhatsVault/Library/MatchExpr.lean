import Mathlib.Data.List.Basic
import Mathlib.Tactic.Common

/-!
# Full-text MATCH expressions

The grammar of an FTS5 MATCH string, as far as its operators are juxtaposition, a trailing star and
`NEAR(… , n)`.  `lex` is the tokenizer, one character at a time: a string runs from a double quote to
the next one that is not doubled, a bareword is a run of letters, digits, underscores and non-ASCII
characters, and a NUL ends the text.  `parse` reads the tokens as a conjunction of operands, and reads
nothing where another operator stands among them.

`print` writes a conjunction of quoted phrases and NEAR groups.  Reading it back gives that
conjunction, whatever its phrases hold (`parse_print`).
-/

namespace MatchExpr

/-! ## Tokens -/

inductive Token
  | string (s : List Char)
  | word (s : List Char)
  | star
  | lparen
  | rparen
  | comma
  | other (c : Char)
  deriving DecidableEq

def isBlank (c : Char) : Bool := c = ' ' ∨ c = '\t' ∨ c = '\n' ∨ c = '\r'

def isWordChar (c : Char) : Bool := c.isAlphanum ∨ c = '_' ∨ c.toNat = 26 ∨ 128 ≤ c.toNat

def isNul (c : Char) : Bool := c.toNat = 0

/-- Where the tokenizer stands: between tokens, in a bareword, in a string, or in a string behind a
quote that ends it unless another one follows. -/
inductive Mode
  | between
  | word (read : List Char)
  | quoted (read : List Char)
  | closing (read : List Char)
  deriving DecidableEq

/-- A character that begins a token, or stands between two. -/
def enter (c : Char) : Option (Mode × List Token) :=
  if isBlank c then some (.between, [])
  else if c = '"' then some (.quoted [], [])
  else if isWordChar c then some (.word [c], [])
  else if c = '*' then some (.between, [.star])
  else if c = '(' then some (.between, [.lparen])
  else if c = ')' then some (.between, [.rparen])
  else if c = ',' then some (.between, [.comma])
  else if c ∈ ['{', '}', ':', '+', '-', '^'] then some (.between, [.other c])
  else none

/-- The token that is complete where the text ends. -/
def flush : Mode → Option (List Token)
  | .between => some []
  | .word read => some [.word read]
  | .quoted _ => none
  | .closing read => some [.string read]

def lexStep (m : Mode) (c : Char) : Option (Mode × List Token) :=
  let begin := (flush m).bind fun done => (enter c).map fun next => (next.1, done ++ next.2)
  match m with
  | .between => begin
  | .word read => if isWordChar c then some (.word (read ++ [c]), []) else begin
  | .quoted read =>
    if c = '"' then some (.closing read, [])
    else if isNul c then none
    else some (.quoted (read ++ [c]), [])
  | .closing read => if c = '"' then some (.quoted (read ++ [c]), []) else begin

/-- The mode that a text leaves the tokenizer in, and the tokens it completes. -/
def lexRun (m : Mode) : List Char → Option (Mode × List Token)
  | [] => some (m, [])
  | c :: cs => (lexStep m c).bind fun next =>
      (lexRun next.1 cs).map fun last => (last.1, next.2 ++ last.2)

/-- The tokens of a text. -/
def lex (cs : List Char) : Option (List Token) :=
  (lexRun .between cs).bind fun last => (flush last.1).map (last.2 ++ ·)

/-! ## Operands -/

structure Phrase where
  text : List Char
  starred : Bool
  deriving DecidableEq

inductive Operand
  | phrase (p : Phrase)
  | near (ps : List Phrase) (distance : ℕ)
  deriving DecidableEq

/-- The distance of a NEAR group that names none. -/
def defaultDistance : ℕ := 10

def number (digits : List Char) : Option ℕ :=
  if digits ≠ [] ∧ digits.all Char.isDigit then some (Nat.ofDigitChars 10 digits 0) else none

/-- Whether a bareword is an operator. -/
def isKeyword (w : List Char) : Bool := w = ['A', 'N', 'D'] ∨ w = ['O', 'R'] ∨ w = ['N', 'O', 'T']

def nearWord : List Char := ['N', 'E', 'A', 'R']

/-- What the parser is in the middle of: the conjunction, or a NEAR group with its phrases so far. -/
inductive Context
  | top
  | near (ps : List Phrase)

def parseTokens : Context → List Token → Option (List Operand)
  | .top, [] => some []
  | .top, .string s :: .star :: ts => (parseTokens .top ts).map (.phrase ⟨s, true⟩ :: ·)
  | .top, .string s :: ts => (parseTokens .top ts).map (.phrase ⟨s, false⟩ :: ·)
  | .top, .word w :: .lparen :: ts => if w = nearWord then parseTokens (.near []) ts else none
  | .top, .word w :: .star :: ts =>
    if isKeyword w then none else (parseTokens .top ts).map (.phrase ⟨w, true⟩ :: ·)
  | .top, .word w :: ts =>
    if isKeyword w then none else (parseTokens .top ts).map (.phrase ⟨w, false⟩ :: ·)
  | .near ps, .string s :: .star :: ts => parseTokens (.near (ps ++ [⟨s, true⟩])) ts
  | .near ps, .string s :: ts => parseTokens (.near (ps ++ [⟨s, false⟩])) ts
  | .near ps, .rparen :: ts =>
    if ps = [] then none else (parseTokens .top ts).map (.near ps defaultDistance :: ·)
  | .near ps, .comma :: .word d :: .rparen :: ts =>
    if ps = [] then none
    else (number d).bind fun n => (parseTokens .top ts).map (.near ps n :: ·)
  | _, _ => none

/-- The conjunction that a MATCH string stands for, `none` where it is none. -/
def parse (s : String) : Option (List Operand) := (lex s.toList).bind (parseTokens .top)

/-! ## Printing -/

def doubleQuotes (s : List Char) : List Char :=
  s.flatMap fun c => if c = '"' then ['"', '"'] else [c]

def quote (s : List Char) : List Char := '"' :: doubleQuotes s ++ ['"']

def Phrase.print (p : Phrase) : List Char := quote p.text ++ if p.starred then ['*'] else []

def spaced (parts : List (List Char)) : List Char := [' '].intercalate parts

/-- A NEAR group around whatever stands for its distance. -/
def group (ps : List Phrase) (distance : List Char) : List Char :=
  nearWord ++ '(' :: (spaced (ps.map Phrase.print) ++ ',' :: ' ' :: (distance ++ [')']))

def Operand.print : Operand → List Char
  | phrase p => p.print
  | near ps distance => group ps (Nat.toDigits 10 distance)

def Phrase.tokens (p : Phrase) : List Token := .string p.text :: if p.starred then [.star] else []

def groupTokens (ps : List Phrase) (distance : List Token) : List Token :=
  .word nearWord :: .lparen :: (ps.flatMap Phrase.tokens ++ .comma :: (distance ++ [.rparen]))

def Operand.tokens : Operand → List Token
  | phrase p => p.tokens
  | near ps distance => groupTokens ps [.word (Nat.toDigits 10 distance)]

/-- What can be printed: no NUL in a phrase, and no empty NEAR group. -/
def Operand.Printable : Operand → Prop
  | phrase p => ∀ c ∈ p.text, isNul c = false
  | near ps _ => ps ≠ [] ∧ ∀ p ∈ ps, ∀ c ∈ p.text, isNul c = false

def print (ops : List Operand) : List Char := spaced (ops.map Operand.print)

/-! ## The tokens of a printed conjunction -/

lemma lexRun_append (m : Mode) (as bs : List Char) :
    lexRun m (as ++ bs) = (lexRun m as).bind fun next =>
      (lexRun next.1 bs).map fun last => (last.1, next.2 ++ last.2) := by
  induction as generalizing m with
  | nil => simp [lexRun]
  | cons a as ih =>
    rw [List.cons_append, lexRun, lexRun]
    rcases lexStep m a with _ | next
    · rfl
    · simp only [Option.bind_some, ih]
      rcases lexRun next.1 as with _ | mid
      · rfl
      · simp only [Option.bind_some, Option.map_some]
        rcases lexRun mid.1 bs with _ | last
        · rfl
        · simp [List.append_assoc]

/-- A text is these tokens, and the last of them is complete before a delimiter. -/
def Lexes (cs : List Char) (ts : List Token) : Prop :=
  ∃ m done last, lexRun .between cs = some (m, done) ∧ flush m = some last ∧ done ++ last = ts

lemma lex_of_lexes {cs : List Char} {ts : List Token} (h : Lexes cs ts) : lex cs = some ts := by
  obtain ⟨m, done, last, hrun, hflush, rfl⟩ := h
  simp [lex, hrun, hflush]

lemma lexes_nil : Lexes [] [] := ⟨.between, [], [], rfl, rfl, rfl⟩

/-- A delimiter completes a token and is one, or none. -/
lemma lexStep_delimiter {m : Mode} {last us : List Token} {c : Char} (hflush : flush m = some last)
    (hword : isWordChar c = false) (hquote : c ≠ '"') (henter : enter c = some (.between, us)) :
    lexStep m c = some (.between, last ++ us) := by
  cases m with
  | between => simp [lexStep, hflush, henter]
  | word read => simp [lexStep, hflush, henter, hword]
  | quoted read => cases hflush
  | closing read => simp [lexStep, hflush, henter, hquote]

lemma Lexes.delimited {as bs : List Char} {ts u vs : List Token} (ha : Lexes as ts) {c : Char}
    (hword : isWordChar c = false) (hquote : c ≠ '"') (henter : enter c = some (.between, u))
    (hb : Lexes bs vs) : Lexes (as ++ c :: bs) (ts ++ u ++ vs) := by
  obtain ⟨m, done, last, hrun, hflush, rfl⟩ := ha
  obtain ⟨m', done', last', hrun', hflush', rfl⟩ := hb
  refine ⟨m', done ++ (last ++ u) ++ done', last', ?_, hflush', by simp [List.append_assoc]⟩
  rw [lexRun_append, hrun]
  simp [lexRun, lexStep_delimiter hflush hword hquote henter, hrun']

lemma Lexes.space {as bs : List Char} {ts vs : List Token} (ha : Lexes as ts) (hb : Lexes bs vs) :
    Lexes (as ++ ' ' :: bs) (ts ++ vs) := by
  have h := ha.delimited (c := ' ') (u := []) (by decide) (by decide) (by decide) hb
  rwa [List.append_nil] at h

/-- Inside a string, doubled quotes are characters like any other. -/
lemma lexRun_doubleQuotes (read : List Char) {s : List Char} (h : ∀ c ∈ s, isNul c = false) :
    lexRun (.quoted read) (doubleQuotes s) = some (.quoted (read ++ s), []) := by
  induction s generalizing read with
  | nil => simp [doubleQuotes, lexRun]
  | cons c s ih =>
    have hrest := ih (read ++ [c]) fun d hd => h d (List.mem_cons_of_mem _ hd)
    have hc := h c List.mem_cons_self
    unfold doubleQuotes at hrest ⊢
    rw [List.flatMap_cons]
    by_cases hquote : c = '"'
    · subst hquote
      simp [lexRun, lexStep, hrest]
    · simp [lexRun, lexStep, hquote, hc, hrest]

lemma lexes_quote {s : List Char} (h : ∀ c ∈ s, isNul c = false) : Lexes (quote s) [.string s] := by
  refine ⟨.closing s, [], [.string s], ?_, rfl, rfl⟩
  have hopen : lexStep .between '"' = some (.quoted [], []) := by decide
  unfold quote
  rw [List.cons_append, lexRun, hopen, Option.bind_some, lexRun_append, lexRun_doubleQuotes [] h]
  simp [lexRun, lexStep]

lemma lexes_phrase {p : Phrase} (h : ∀ c ∈ p.text, isNul c = false) : Lexes p.print p.tokens := by
  unfold Phrase.print Phrase.tokens
  split
  · exact (lexes_quote h).delimited (u := [.star]) (by decide) (by decide) (by decide) lexes_nil
  · rw [List.append_nil]
    exact lexes_quote h

lemma lexes_spaced {α : Type*} {text : α → List Char} {tokens : α → List Token} {xs : List α}
    (h : ∀ x ∈ xs, Lexes (text x) (tokens x)) : Lexes (spaced (xs.map text)) (xs.flatMap tokens) := by
  induction xs with
  | nil => exact lexes_nil
  | cons x xs ih =>
    have hhead := h x List.mem_cons_self
    have htail := ih fun y hy => h y (List.mem_cons_of_mem _ hy)
    cases xs with
    | nil => simpa [spaced, List.intercalate] using hhead
    | cons y ys =>
      have hboth := hhead.space htail
      simpa [spaced, List.intercalate, List.intersperse] using hboth

/-- A run of word characters is one bareword. -/
lemma lexes_word {w : List Char} (hne : w ≠ []) (h : ∀ c ∈ w, isWordChar c = true)
    (henter : ∀ c ∈ w, enter c = some (.word [c], [])) : Lexes w [.word w] := by
  refine ⟨.word w, [], [.word w], ?_, rfl, rfl⟩
  have hgrow (read rest : List Char) (hrest : ∀ c ∈ rest, isWordChar c = true) :
      lexRun (.word read) rest = some (.word (read ++ rest), []) := by
    induction rest generalizing read with
    | nil => simp [lexRun]
    | cons c rest ih =>
      have htail := ih (read ++ [c]) fun d hd => hrest d (List.mem_cons_of_mem _ hd)
      simp [lexRun, lexStep, hrest c List.mem_cons_self, htail]
  cases w with
  | nil => exact absurd rfl hne
  | cons c w =>
    have hfirst := henter c List.mem_cons_self
    have hrest := hgrow [c] w fun d hd => h d (List.mem_cons_of_mem _ hd)
    simp [lexRun, lexStep, flush, hfirst, hrest]

/-- The digits of a number are a bareword. -/
lemma lexes_digits (n : ℕ) : Lexes (Nat.toDigits 10 n) [.word (Nat.toDigits 10 n)] := by
  have hdigit {c : Char} (hc : c ∈ Nat.toDigits 10 n) : c.isDigit = true :=
    Nat.isDigit_of_mem_toDigits (by decide) (by decide) hc
  have hword {c : Char} (hc : c ∈ Nat.toDigits 10 n) : isWordChar c = true := by
    simp [isWordChar, Char.isAlphanum, hdigit hc]
  refine lexes_word ?_ (fun c hc => hword hc) fun c hc => ?_
  · exact List.ne_nil_of_length_pos Nat.length_toDigits_pos
  · have hne (d : Char) (hd : d.isDigit = false) : c ≠ d := by
      rintro rfl
      rw [hdigit hc] at hd
      cases hd
    have hblank : isBlank c = false := by
      simp [isBlank, hne ' ' (by decide), hne '\t' (by decide), hne '\n' (by decide),
        hne '\r' (by decide)]
    simp [enter, hblank, hne '"' (by decide), hword hc]

lemma lexes_group {ps : List Phrase} (hps : ∀ p ∈ ps, ∀ c ∈ p.text, isNul c = false)
    {distance : List Char} {ts : List Token} (h : Lexes distance ts) :
    Lexes (group ps distance) (groupTokens ps ts) := by
  have hnear : Lexes nearWord [.word nearWord] :=
    lexes_word (by decide) (by simp [nearWord, isWordChar]) (by simp [nearWord]; decide)
  have hphrases : Lexes (spaced (ps.map Phrase.print)) (ps.flatMap Phrase.tokens) :=
    lexes_spaced fun p hp => lexes_phrase (hps p hp)
  have hclose : Lexes (distance ++ ')' :: []) (ts ++ [.rparen] ++ []) :=
    h.delimited (by decide) (by decide) (by decide) lexes_nil
  have hdistance : Lexes ([] ++ ' ' :: (distance ++ ')' :: [])) ([] ++ (ts ++ [.rparen] ++ [])) :=
    lexes_nil.space hclose
  have hinner := hphrases.delimited (c := ',') (u := [.comma]) (by decide) (by decide) (by decide)
    hdistance
  have hall := hnear.delimited (c := '(') (u := [.lparen]) (by decide) (by decide) (by decide) hinner
  simpa [group, groupTokens, List.append_assoc] using hall

lemma lexes_operand {op : Operand} (h : op.Printable) : Lexes op.print op.tokens := by
  cases op with
  | phrase p => exact lexes_phrase h
  | near ps distance => exact lexes_group h.2 (lexes_digits distance)

/-! ## Reading it back -/

/-- The tokens do not go on with a star. -/
def Unstarred : List Token → Prop
  | .star :: _ => False
  | _ => True

lemma parseTokens_phrase (p : Phrase) {ts : List Token} (h : Unstarred ts) :
    parseTokens .top (p.tokens ++ ts) = (parseTokens .top ts).map (.phrase p :: ·) := by
  obtain ⟨text, starred⟩ := p
  cases starred with
  | true => simp [Phrase.tokens, parseTokens]
  | false =>
    cases ts with
    | nil => simp [Phrase.tokens, parseTokens]
    | cons t ts => cases t <;> simp_all [Phrase.tokens, parseTokens, Unstarred]

lemma parseTokens_near_phrase (ps : List Phrase) (p : Phrase) {ts : List Token} (h : Unstarred ts) :
    parseTokens (.near ps) (p.tokens ++ ts) = parseTokens (.near (ps ++ [p])) ts := by
  obtain ⟨text, starred⟩ := p
  cases starred with
  | true => simp [Phrase.tokens, parseTokens]
  | false =>
    cases ts with
    | nil => simp [Phrase.tokens, parseTokens]
    | cons t ts => cases t <;> simp_all [Phrase.tokens, parseTokens, Unstarred]

lemma unstarred_phrases (ps : List Phrase) {ts : List Token} (h : Unstarred ts) :
    Unstarred (ps.flatMap Phrase.tokens ++ ts) := by
  cases ps with
  | nil => exact h
  | cons p ps => trivial

lemma parseTokens_near_phrases (read ps : List Phrase) {ts : List Token} (h : Unstarred ts) :
    parseTokens (.near read) (ps.flatMap Phrase.tokens ++ ts) =
      parseTokens (.near (read ++ ps)) ts := by
  induction ps generalizing read with
  | nil => simp
  | cons p ps ih =>
    rw [List.flatMap_cons, List.append_assoc,
      parseTokens_near_phrase read p (unstarred_phrases ps h), ih, List.append_assoc,
      List.singleton_append]

lemma number_toDigits (n : ℕ) : number (Nat.toDigits 10 n) = some n := by
  have hdigits : (Nat.toDigits 10 n).all Char.isDigit = true :=
    List.all_eq_true.mpr fun c hc => Nat.isDigit_of_mem_toDigits (by decide) (by decide) hc
  have hne : Nat.toDigits 10 n ≠ [] := List.ne_nil_of_length_pos Nat.length_toDigits_pos
  rw [number, if_pos ⟨hne, hdigits⟩, Nat.ofDigitChars_toDigits (by decide) (by decide)]

lemma parseTokens_operand {op : Operand} (hop : op.Printable) {ts : List Token}
    (h : Unstarred ts) : parseTokens .top (op.tokens ++ ts) = (parseTokens .top ts).map (op :: ·) := by
  cases op with
  | phrase p => exact parseTokens_phrase p h
  | near ps distance =>
    have hafter : Unstarred (.comma :: (.word (Nat.toDigits 10 distance) :: .rparen :: ts)) := trivial
    have hphrases := parseTokens_near_phrases [] ps hafter
    simp only [Operand.tokens, groupTokens, List.cons_append, List.append_assoc, List.nil_append,
      parseTokens, if_true]
    rw [hphrases]
    simp [parseTokens, hop.1, number_toDigits]

lemma unstarred_operands (ops : List Operand) {ts : List Token} (h : Unstarred ts) :
    Unstarred (ops.flatMap Operand.tokens ++ ts) := by
  cases ops with
  | nil => exact h
  | cons op ops =>
    cases op with
    | phrase p => trivial
    | near ps distance => trivial

lemma parseTokens_operands {ops : List Operand} (hops : ∀ op ∈ ops, op.Printable) {ts : List Token}
    (h : Unstarred ts) :
    parseTokens .top (ops.flatMap Operand.tokens ++ ts) = (parseTokens .top ts).map (ops ++ ·) := by
  induction ops with
  | nil => simp
  | cons op ops ih =>
    rw [List.flatMap_cons, List.append_assoc,
      parseTokens_operand (hops op List.mem_cons_self) (unstarred_operands ops h),
      ih fun o ho => hops o (List.mem_cons_of_mem _ ho), Option.map_map]
    rfl

/-- **Reading a printed conjunction gives it back.** -/
theorem parse_print {ops : List Operand} (hops : ∀ op ∈ ops, op.Printable) :
    parse (String.ofList (print ops)) = some ops := by
  have hlex : lex (print ops) = some (ops.flatMap Operand.tokens) :=
    lex_of_lexes (lexes_spaced fun op hop => lexes_operand (hops op hop))
  have hend : Unstarred [] := trivial
  have hparse := parseTokens_operands hops hend
  rw [List.append_nil] at hparse
  rw [parse, String.toList_ofList, hlex, Option.bind_some, hparse]
  simp [parseTokens]

/-! ## A NUL -/

lemma lexStep_nul (m : Mode) {c : Char} (h : isNul c = true) : lexStep m c = none := by
  have hc : c = Char.ofNat 0 := Char.toNat_inj.mp (by simpa [isNul] using h)
  subst hc
  have henter : enter (Char.ofNat 0) = none := by decide
  have hword : isWordChar (Char.ofNat 0) = false := by decide
  cases m with
  | between => simp [lexStep, henter]
  | word read => simp [lexStep, henter, hword]
  | quoted read => simp [lexStep, h]
  | closing read => simp [lexStep, henter]

/-- A text with a NUL in it is no conjunction. -/
theorem parse_of_nul {s : String} {c : Char} (hc : c ∈ s.toList) (h : isNul c = true) :
    parse s = none := by
  have hrun (m : Mode) {cs : List Char} (hmem : c ∈ cs) : lexRun m cs = none := by
    induction cs generalizing m with
    | nil => cases hmem
    | cons d cs ih =>
      rw [lexRun]
      rcases List.mem_cons.mp hmem with rfl | hmem
      · rw [lexStep_nul m h, Option.bind_none]
      · rcases lexStep m d with _ | next
        · rfl
        · simp [ih next.1 hmem]
  rw [parse, lex, hrun .between hc]
  rfl

lemma mem_phrase_print {p : Phrase} {c : Char} (hc : c ∈ p.text) : c ∈ p.print := by
  have hdoubled : c ∈ doubleQuotes p.text := by
    refine List.mem_flatMap.mpr ⟨c, hc, ?_⟩
    split
    · rename_i hquote
      simp [hquote]
    · exact List.mem_singleton_self c
  simp [Phrase.print, quote, hdoubled]

lemma mem_spaced {parts : List (List Char)} {part : List Char} (hpart : part ∈ parts) {c : Char}
    (hc : c ∈ part) : c ∈ spaced parts := by
  induction parts with
  | nil => cases hpart
  | cons x xs ih =>
    cases xs with
    | nil =>
      rw [List.mem_singleton.mp hpart] at hc
      simpa [spaced, List.intercalate] using hc
    | cons y ys =>
      have hcons : spaced (x :: y :: ys) = x ++ ' ' :: spaced (y :: ys) := by
        simp [spaced, List.intercalate, List.intersperse]
      rw [hcons]
      rcases List.mem_cons.mp hpart with rfl | hpart
      · exact List.mem_append_left _ hc
      · exact List.mem_append_right _ (List.mem_cons_of_mem _ (ih hpart))

lemma mem_group {ps : List Phrase} {p : Phrase} (hp : p ∈ ps) {c : Char} (hc : c ∈ p.text)
    (distance : List Char) : c ∈ group ps distance := by
  have hphrases : c ∈ spaced (ps.map Phrase.print) :=
    mem_spaced (List.mem_map_of_mem hp) (mem_phrase_print hc)
  simp [group, hphrases]

/-! ## A signed distance -/

/-- The grammar has no sign: a conjunction that ends in a group with a signed distance is none. -/
theorem parse_signed {ops : List Operand} (hops : ∀ op ∈ ops, op.Printable) {ps : List Phrase}
    (hps : ∀ p ∈ ps, ∀ c ∈ p.text, isNul c = false) (distance : ℕ) :
    parse (String.ofList (spaced (ops.map Operand.print ++
      [group ps ('-' :: Nat.toDigits 10 distance)]))) = none := by
  have hsigned : Lexes ([] ++ '-' :: Nat.toDigits 10 distance)
      ([] ++ [.other '-'] ++ [.word (Nat.toDigits 10 distance)]) :=
    lexes_nil.delimited (by decide) (by decide) (by decide) (lexes_digits distance)
  have hlast := lexes_group hps hsigned
  have hlex : lex (spaced (ops.map Operand.print ++ [group ps ('-' :: Nat.toDigits 10 distance)])) =
      some (ops.flatMap Operand.tokens ++
        groupTokens ps [.other '-', .word (Nat.toDigits 10 distance)]) := by
    let written : List (List Char × List Token) :=
      ops.map (fun op => (op.print, op.tokens)) ++
        [(group ps ('-' :: Nat.toDigits 10 distance),
          groupTokens ps [.other '-', .word (Nat.toDigits 10 distance)])]
    have hwritten : ∀ x ∈ written, Lexes x.1 x.2 := by
      intro x hx
      rcases List.mem_append.mp hx with hmem | hgroup
      · obtain ⟨op, hop, rfl⟩ := List.mem_map.mp hmem
        exact lexes_operand (hops op hop)
      · rw [List.mem_singleton.mp hgroup]
        exact hlast
    have hall := lex_of_lexes (lexes_spaced hwritten)
    simpa [written, List.map_map, List.flatMap_map, Function.comp_def] using hall
  have hafter : Unstarred [.comma, .other '-', .word (Nat.toDigits 10 distance), .rparen] := trivial
  have hphrases := parseTokens_near_phrases [] ps hafter
  have hnone : parseTokens .top (groupTokens ps [.other '-', .word (Nat.toDigits 10 distance)]) =
      none := by
    simp only [groupTokens, List.cons_append, List.nil_append, parseTokens, if_true]
    rw [hphrases]
    simp [parseTokens]
  have hstart : Unstarred (groupTokens ps [.other '-', .word (Nat.toDigits 10 distance)]) := trivial
  rw [parse, String.toList_ofList, hlex, Option.bind_some, parseTokens_operands hops hstart, hnone]
  rfl

end MatchExpr
