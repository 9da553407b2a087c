import Mathlib.Data.Bool.AllAny
import WhatsVault.Importers.Parse

/-!
# The shape of a header

`_HEADER_RE` and `_ENTRY_RE` start alike: a date and a clock time (`Headed`), and then what may stand
between the clock and the sender (`between`), which is seconds, a day half, a bracket and a dash.  A
match of either has that shape (`mem_headerThen`) and so has a line that either accepts
(`accepts_headerThen`).  The first match takes all it can of what may stand between
(`firstMatch_headerThen`, `afterMarks_suffix`).
-/

namespace WhatsVault.Importers

open Regex

variable (U : Unicode)

/-- No digit of any script is a blank or one of the marks of a header. -/
def PlainDigits : Prop :=
  ∀ c, U.isDecimal c = true → isSpace c = false ∧ c ∉ "[]/.-–:,APapMm".toList

/-- A property of every character of a text is tested character by character. -/
lemma forall_mem_of_all {s : List Char} {p : Char → Prop} [DecidablePred p]
    (h : s.all (fun c => p c) = true) : ∀ c ∈ s, p c := by
  simpa using h

/-! ## Pieces -/

/-- A clock time without its seconds. -/
def clockToken : Regex := .seq (digits U 1 2) <| .seq (oneOf ":") (digits U 2 2)

def secondsToken : Regex := .seq (oneOf ":") (digits U 2 2)

/-- `\s*[APap]\.?[Mm]\.?`. -/
def halfToken : Regex :=
  .seq (spaces 0) <| .seq (oneOf "APap") <| .seq (opt (oneOf ".")) <|
    .seq (oneOf "Mm") (opt (oneOf "."))

/-- What may stand between the clock and the sender, without the seconds. -/
def marks : Regex :=
  .seq (opt halfToken) <| .seq (opt (oneOf "]")) <| .seq (spaces 0) <|
    .seq (opt (oneOf "-–")) (spaces 0)

/-- What may stand between the clock and the sender. -/
def between : Regex := .seq (opt (secondsToken U)) marks

/-- A line that starts with a date and a clock time and goes on with `t`. -/
def Headed (s date clock t : List Char) : Prop :=
  ∃ bracket comma gap, s = bracket ++ (date ++ (comma ++ (gap ++ (clock ++ t)))) ∧
    (opt (oneOf "[")).Accepts bracket ∧ (dateToken U).Accepts date ∧
    (opt (oneOf ",")).Accepts comma ∧ (spaces 1).Accepts gap ∧ (clockToken U).Accepts clock

variable {U}

lemma accepts_oneOf {chars : String} {w : List Char} :
    (oneOf chars).Accepts w ↔ ∃ c ∈ chars.toList, w = [c] := by
  simp [oneOf, Accepts, and_comm]

/-! ## Matches have the shape -/

lemma Headed.append {s date clock t : List Char} (h : Headed U s date clock t) (u : List Char) :
    Headed U (s ++ u) date clock (t ++ u) := by
  obtain ⟨bracket, comma, gap, rfl, hrest⟩ := h
  exact ⟨bracket, comma, gap, by simp only [List.append_assoc], hrest⟩

lemma mem_headerThen {tail : Regex} {s : List Char} {m : Match}
    (h : m ∈ (headerThen U tail).allMatches s) :
    ∃ date clock w time m', Headed U s date clock (w ++ (m'.taken ++ m'.rest)) ∧
      (between U).Accepts w ∧ m' ∈ tail.allMatches (m'.taken ++ m'.rest) ∧ m.rest = m'.rest ∧
      m.groups = ("date", date) :: ("time", time) :: m'.groups := by
  unfold headerThen at h
  obtain ⟨bracket, m₁, hbracket, rfl, h, hrest₁, hgroups₁⟩ := split_seq rfl h
  obtain ⟨date, m₂, hdate, hs₁, h, hrest₂, hgroups₂⟩ := split_seq_group rfl h
  obtain ⟨comma, m₃, hcomma, hs₂, h, hrest₃, hgroups₃⟩ := split_seq rfl h
  obtain ⟨gap, m₄, hgap, hs₃, h, hrest₄, hgroups₄⟩ := split_seq rfl h
  obtain ⟨time, m₅, htime, hs₄, h, hrest₅, hgroups₅⟩ := split_seq_group rfl h
  obtain ⟨close, m₆, hclose, hs₅, h, hrest₆, hgroups₆⟩ := split_seq rfl h
  obtain ⟨blanks, m₇, hblanks, hs₆, h, hrest₇, hgroups₇⟩ := split_seq rfl h
  obtain ⟨dash, m₈, hdash, hs₇, h, hrest₈, hgroups₈⟩ := split_seq rfl h
  obtain ⟨blanks', m₉, hblanks', hs₈, h, hrest₉, hgroups₉⟩ := split_seq rfl h
  obtain ⟨hour, w, rfl, hhour, colon, w, rfl, hcolon, minute, w, rfl, hminute, seconds, half, rfl,
    hseconds, hhalf⟩ := htime
  refine ⟨date, hour ++ (colon ++ minute),
    seconds ++ (half ++ (close ++ (blanks ++ (dash ++ blanks')))),
    hour ++ (colon ++ (minute ++ (seconds ++ half))), m₉, ?_, ?_, h, ?_, ?_⟩
  · refine ⟨bracket, comma, gap, ?_, hbracket, hdate, hcomma, hgap, ?_⟩
    · rw [hs₁, hs₂, hs₃, hs₄, hs₅, hs₆, hs₇, hs₈]
      simp only [List.append_assoc]
    · exact ⟨hour, _, rfl, hhour, colon, minute, rfl, hcolon, hminute⟩
  · exact ⟨seconds, _, rfl, hseconds, half, _, rfl, hhalf, close, _, rfl, hclose, blanks, _, rfl,
      hblanks, dash, blanks', rfl, hdash, hblanks'⟩
  · rw [hrest₁, hrest₂, hrest₃, hrest₄, hrest₅, hrest₆, hrest₇, hrest₈, hrest₉]
  · rw [hgroups₁, hgroups₂, hgroups₃, hgroups₄, hgroups₅, hgroups₆, hgroups₇, hgroups₈, hgroups₉]

/-- What has the shape is accepted. -/
lemma accepts_headerThen {tail : Regex} {s date clock w u v : List Char}
    (h : Headed U s date clock (w ++ (u ++ v))) (hw : (between U).Accepts w)
    (hu : tail.Accepts u) : ∃ taken, s = taken ++ v ∧ (headerThen U tail).Accepts taken := by
  obtain ⟨bracket, comma, gap, rfl, hbracket, hdate, hcomma, hgap, hclock⟩ := h
  obtain ⟨hour, _, rfl, hhour, colon, minute, rfl, hcolon, hminute⟩ := hclock
  obtain ⟨seconds, _, rfl, hseconds, half, _, rfl, hhalf, close, _, rfl, hclose, blanks, _, rfl,
    hblanks, dash, blanks', rfl, hdash, hblanks'⟩ := hw
  refine ⟨bracket ++ (date ++ (comma ++ (gap ++ ((hour ++ (colon ++ (minute ++ (seconds ++ half)))) ++
    (close ++ (blanks ++ (dash ++ (blanks' ++ u)))))))), ?_, ?_⟩
  · simp only [List.append_assoc]
  · exact ⟨bracket, _, rfl, hbracket, date, _, rfl, hdate, comma, _, rfl, hcomma, gap, _, rfl, hgap,
      _, _, rfl, ⟨hour, _, rfl, hhour, colon, _, rfl, hcolon, minute, _, rfl, hminute, seconds, _,
        rfl, hseconds, hhalf⟩,
      close, _, rfl, hclose, blanks, _, rfl, hblanks, dash, _, rfl, hdash, blanks', u, rfl,
      hblanks', hu⟩

/-- What `_ENTRY_RE` leaves is the end of the line. -/
lemma rest_suffix_of_readEntry {s : List Char} (hs : '\n' ∉ s) {e : Entry}
    (h : readEntry U s = some e) : ∃ pre, s = pre ++ e.rest := by
  unfold readEntry at h
  obtain ⟨em, hem, hgroups⟩ := Option.bind_eq_some_iff.mp h
  obtain ⟨date, -, hgroups⟩ := Option.bind_eq_some_iff.mp hgroups
  obtain ⟨time, -, hgroups⟩ := Option.bind_eq_some_iff.mp hgroups
  obtain ⟨rest, hrest, he⟩ := Option.bind_eq_some_iff.mp hgroups
  obtain rfl : ⟨date, time, rest⟩ = e := Option.some.inj he
  obtain ⟨date', clock, w, time', m', ⟨bracket, comma, gap, hheaded, -⟩, -, hmem, -, hgroups⟩ :=
    mem_headerThen (mem_of_firstMatch hem)
  obtain ⟨rest', m'', -, hsplit, hend, -, hgroups'⟩ := split_seq_group rfl hmem
  have hnewline : '\n' ∉ m''.taken ++ m''.rest := by
    intro hmem
    rw [hsplit] at hheaded
    refine hs ?_
    rw [hheaded]
    simp only [List.mem_append] at hmem ⊢
    simp only [hmem, or_true]
  obtain ⟨hnil, -⟩ := rest_eq_nil_of_eos hend hnewline
  have hsame : rest' = rest := by
    simpa [Match.group, hgroups, hgroups', List.lookup_cons] using hrest
  refine ⟨bracket ++ (date' ++ (comma ++ (gap ++ (clock ++ w)))), ?_⟩
  rw [hheaded, hsplit, hnil, hsame]
  simp

/-! ## Senders -/

def IsSender (s : List Char) : Prop := ':' ∉ s ∧ 1 ≤ s.length ∧ s.length ≤ 100

/-- What `_SENDER_RE` reads off the rest of a line. -/
lemma sender_of_firstMatch {s : List Char} (hs : '\n' ∉ s) {m : Match}
    (h : senderRegex.firstMatch s = some m) :
    ∃ sender blank body, s = sender ++ ':' :: blank :: body ∧ IsSender sender ∧
      isSpace blank = true ∧ m.group "sender" = some sender ∧ m.group "body" = some body := by
  have hmem := mem_of_firstMatch h
  unfold senderRegex at hmem
  obtain ⟨sender, m₁, hsender, rfl, hmem, -, hgroups⟩ := split_seq_group rfl hmem
  obtain ⟨colon, m₂, hcolon, hs₁, hmem, -, hgroups₁⟩ := split_seq rfl hmem
  obtain ⟨gap, m₃, ⟨blank, rfl, hblank⟩, hs₂, hmem, -, hgroups₂⟩ := split_seq rfl hmem
  obtain ⟨body, m₄, -, hs₃, hmem, -, hgroups₃⟩ := split_seq_group rfl hmem
  obtain ⟨c, hc, rfl⟩ := accepts_oneOf.mp hcolon
  obtain rfl : c = ':' := by simpa using hc
  obtain ⟨hnot, hlo, hhi⟩ := hsender
  have hend : '\n' ∉ m₄.taken ++ m₄.rest := by
    intro hmem
    refine hs ?_
    rw [hs₁, hs₂, hs₃]
    simp only [List.mem_append] at hmem ⊢
    simp only [hmem, or_true]
  obtain ⟨hnil, hm₄⟩ := rest_eq_nil_of_eos hmem hend
  refine ⟨sender, blank, body, ?_, ⟨?_, hlo, hhi 100 rfl⟩, hblank, ?_, ?_⟩
  · rw [hs₁, hs₂, hs₃, hnil]
    simp
  · intro hmem
    simpa using hnot ':' hmem
  · simp [Match.group, hgroups]
  · simp [Match.group, hgroups, hgroups₁, hgroups₂, hgroups₃, List.lookup_cons]

lemma senderRegex_isSome {s : List Char} (hs : '\n' ∉ s) :
    (senderRegex.firstMatch s).isSome ↔
      ∃ sender blank body, s = sender ++ ':' :: blank :: body ∧ IsSender sender ∧
        isSpace blank = true := by
  constructor
  · intro h
    obtain ⟨m, hm⟩ := Option.isSome_iff_exists.mp h
    obtain ⟨sender, blank, body, hsplit, hsender, hblank, -⟩ := sender_of_firstMatch hs hm
    exact ⟨sender, blank, body, hsplit, hsender, hblank⟩
  · rintro ⟨sender, blank, body, rfl, hsender, hblank⟩
    have hnewline {c : Char} (hc : c ∈ sender) : c ≠ ':' ∧ c ≠ '\n' := by
      refine ⟨?_, ?_⟩
      · rintro rfl
        exact hsender.1 hc
      · rintro rfl
        exact hs (List.mem_append_left _ hc)
    have hname : (group "sender"
        (many (fun c => c ≠ ':' ∧ c ≠ '\n') 1 (some 100) false)).Accepts sender := by
      refine ⟨fun c hc => by simpa using hnewline hc, hsender.2.1, ?_⟩
      intro n hn
      rw [← Option.some.inj hn]
      exact hsender.2.2
    have hbody : (group "body" (many (fun _ => true) 0 none true)).Accepts body :=
      ⟨by simp, Nat.zero_le _, by simp⟩
    have hend : (⟨[], [], []⟩ : Match) ∈ eos.allMatches [] := by simp [allMatches]
    obtain ⟨m₁, hm₁, -⟩ := exists_mem_seq (by simp [EosFree]) hbody hend
    obtain ⟨m₂, hm₂, -⟩ := exists_mem_seq (r := one isSpace) (u := [blank]) (by simp [EosFree])
      ⟨blank, rfl, hblank⟩ hm₁
    obtain ⟨m₃, hm₃, -⟩ := exists_mem_seq (r := oneOf ":") (u := [':']) (by simp [oneOf, EosFree])
      (accepts_oneOf.mpr ⟨':', by simp, rfl⟩) hm₂
    obtain ⟨m₄, hm₄, -⟩ := exists_mem_seq (by simp [EosFree]) hname hm₃
    rw [firstMatch, List.isSome_head?]
    refine List.ne_nil_of_mem (a := m₄) ?_
    simpa [senderRegex] using hm₄

/-! ## The first match -/

/-- What the first match leaves of what follows the clock. -/
def afterMarks (t : List Char) : List Char :=
  (after (oneOf "-–") ((after (oneOf "]") (after halfToken t)).dropWhile isSpace)).dropWhile isSpace

variable (U) in
def afterBetween (t : List Char) : List Char := afterMarks (after (secondsToken U) t)

lemma firstMatch_spaces (s : List Char) :
    (spaces 0).firstMatch s = some ⟨s.takeWhile isSpace, s.dropWhile isSpace, []⟩ := by
  have hsplit : (spaces 0).firstMatch (s.takeWhile isSpace ++ s.dropWhile isSpace) =
      some ⟨s.takeWhile isSpace, s.dropWhile isSpace, []⟩ :=
    firstMatch_many (fun c hc => List.mem_takeWhile_imp hc) ?_ (Nat.zero_le _) (by simp)
  · rwa [List.takeWhile_append_dropWhile] at hsplit
  · intro c hc
    have hhead := List.head?_dropWhile_not isSpace s
    rw [Option.mem_def.mp hc] at hhead
    exact hhead

lemma firstMatch_spaces_append {w s : List Char} (hw : (spaces 0).Accepts w)
    (hs : ∀ c ∈ s.head?, isSpace c = false) :
    (spaces 0).firstMatch (w ++ s) = some ⟨w, s, []⟩ :=
  firstMatch_many hw.1 hs (Nat.zero_le _) (by simp)

lemma PlainDigits.not_digit (hU : PlainDigits U) {c : Char}
    (hc : isSpace c = true ∨ c ∈ "[]/.-–:,APapMm".toList) : U.isDecimal c = false := by
  rw [← Bool.not_eq_true]
  intro hdigit
  obtain ⟨hspace, hmark⟩ := hU c hdigit
  rcases hc with hc | hc
  · rw [hspace] at hc
    cases hc
  · exact hmark hc

lemma firstMatch_digits {lo hi : ℕ} {w s : List Char} (hw : (digits U lo hi).Accepts w)
    (hs : ∀ c ∈ s.head?, U.isDecimal c = false) :
    (digits U lo hi).firstMatch (w ++ s) = some ⟨w, s, []⟩ := by
  obtain ⟨hall, hlo, hhi⟩ := hw
  exact firstMatch_many hall hs hlo hhi

lemma firstMatch_oneOf {chars : String} {c : Char} (hc : c ∈ chars.toList) (s : List Char) :
    (oneOf chars).firstMatch (c :: s) = some ⟨[c], s, []⟩ :=
  firstMatch_one (by simpa using hc) s

lemma firstMatch_dateToken (hU : PlainDigits U) {date s : List Char}
    (h : (dateToken U).Accepts date) (hs : ∀ c ∈ s.head?, U.isDecimal c = false) :
    (dateToken U).firstMatch (date ++ s) = some ⟨date, s, []⟩ := by
  obtain ⟨x, _, rfl, hx, _, _, rfl, hfirst, y, _, rfl, hy, _, z, rfl, hsecond, hz⟩ := h
  obtain ⟨c, hc, rfl⟩ := accepts_oneOf.mp hfirst
  obtain ⟨d, hd, rfl⟩ := accepts_oneOf.mp hsecond
  have hseparator {c : Char} (hc : c ∈ "/.-".toList) : U.isDecimal c = false := by
    refine hU.not_digit (.inr ?_)
    simp only [String.reduceToList, List.mem_cons, List.not_mem_nil, or_false] at hc ⊢
    tauto
  have hthird := firstMatch_digits hz hs
  have hmiddle := firstMatch_digits hy (s := d :: (z ++ s)) (by simpa using hseparator hd)
  have hstart := firstMatch_digits hx (s := c :: (y ++ (d :: (z ++ s))))
    (by simpa using hseparator hc)
  have hall := firstMatch_seq hstart (firstMatch_seq (firstMatch_oneOf hc _)
    (firstMatch_seq hmiddle (firstMatch_seq (firstMatch_oneOf hd _) hthird)))
  simpa [dateToken] using hall

lemma firstMatch_clock (hU : PlainDigits U) {clock t : List Char}
    (h : (clockToken U).Accepts clock) {r : Regex} {m : Match} (hr : r.firstMatch t = some m) :
    ∃ w, (Regex.seq (digits U 1 2) <| .seq (oneOf ":") <| .seq (digits U 2 2) r).firstMatch
      (clock ++ t) = some ⟨w, m.rest, m.groups⟩ := by
  obtain ⟨hour, _, rfl, hhour, _, minute, rfl, hcolon, hminute⟩ := h
  obtain ⟨c, hc, rfl⟩ := accepts_oneOf.mp hcolon
  have hnot : U.isDecimal c = false := by
    refine hU.not_digit (.inr ?_)
    simp only [String.reduceToList, List.mem_cons, List.not_mem_nil, or_false] at hc ⊢
    tauto
  obtain ⟨hdigits, hlo, hhi⟩ := hminute
  have hminutes : (digits U 2 2).firstMatch (minute ++ t) = some ⟨minute, t, []⟩ :=
    firstMatch_many_exact hdigits (le_antisymm (hhi 2 rfl) hlo)
  have hhours := firstMatch_digits hhour (s := c :: (minute ++ t)) (by simpa using hnot)
  have hall := firstMatch_seq hhours (firstMatch_seq (firstMatch_oneOf hc _)
    (firstMatch_seq hminutes hr))
  exact ⟨_, by simpa using hall⟩

/-- An optional mark is taken where it is there. -/
lemma firstMatch_opt_oneOf {chars : String} {w s : List Char} (hw : (opt (oneOf chars)).Accepts w)
    (hs : ∀ c ∈ s.head?, c ∉ chars.toList) :
    (opt (oneOf chars)).firstMatch (w ++ s) = some ⟨w, s, []⟩ := by
  rcases hw with hw | rfl
  · obtain ⟨c, hc, rfl⟩ := accepts_oneOf.mp hw
    exact firstMatch_opt_some (firstMatch_oneOf hc s)
  · refine firstMatch_opt_none ?_
    cases s with
    | nil => rfl
    | cons c s =>
      have hc := hs c rfl
      simp [firstMatch, oneOf, allMatches, hc]

lemma digits_eq_cons {lo hi : ℕ} {w : List Char} (hlo : 0 < lo) (h : (digits U lo hi).Accepts w) :
    ∃ c w', w = c :: w' ∧ U.isDecimal c = true := by
  obtain ⟨hall, hlength, -⟩ := h
  cases w with
  | nil => simp at hlength; omega
  | cons c w' => exact ⟨c, w', rfl, hall c List.mem_cons_self⟩

/-- What the marks take of a string first. -/
lemma firstMatch_marks {tail : Regex} {m : Match} {t : List Char}
    (htail : tail.firstMatch ((after (oneOf "-–") ((after (oneOf "]") t).dropWhile isSpace)).dropWhile
      isSpace) = some m) :
    ∃ w, (Regex.seq (opt (oneOf "]")) <| .seq (spaces 0) <| .seq (opt (oneOf "-–")) <|
      .seq (spaces 0) tail).firstMatch t = some ⟨w, m.rest, m.groups⟩ := by
  obtain ⟨close, hclose, hafter⟩ := firstMatch_opt (oneOf "]") t
  rw [← hafter] at htail
  obtain ⟨dash, hdash, hafter'⟩ := firstMatch_opt (oneOf "-–") (close.rest.dropWhile isSpace)
  rw [← hafter'] at htail
  have hall := firstMatch_seq hclose (firstMatch_seq (firstMatch_spaces close.rest)
    (firstMatch_seq hdash (firstMatch_seq (firstMatch_spaces dash.rest) htail)))
  rw [groups_eq_nil (mem_of_firstMatch hclose) rfl, groups_eq_nil (mem_of_firstMatch hdash) rfl]
    at hall
  exact ⟨_, hall⟩

/-- The first match of a header and what follows it. -/
theorem firstMatch_headerThen (hU : PlainDigits U) {s date clock t : List Char}
    (h : Headed U s date clock t) {tail : Regex} {m : Match}
    (htail : tail.firstMatch (afterBetween U t) = some m) :
    ∃ taken time, (headerThen U tail).firstMatch s =
      some ⟨taken, m.rest, ("date", date) :: ("time", time) :: m.groups⟩ := by
  obtain ⟨bracket, comma, gap, rfl, hbracket, hdate, hcomma, hgap, hclock⟩ := h
  -- what stands in front of the clock is there or not, whatever follows
  have hclockHead : ∀ c ∈ (clock ++ t).head?, isSpace c = false := by
    obtain ⟨hour, _, rfl, hhour, -⟩ := hclock
    obtain ⟨c, hour, rfl, hc⟩ := digits_eq_cons (by omega) hhour
    simpa using (hU c hc).1
  have hgapHead : ∀ c ∈ (gap ++ (clock ++ t)).head?, isSpace c = true := by
    obtain ⟨hall, hlength, -⟩ := hgap
    cases gap with
    | nil => simp at hlength
    | cons c gap => simpa using hall c List.mem_cons_self
  have hcommaHead : ∀ c ∈ (comma ++ (gap ++ (clock ++ t))).head?, U.isDecimal c = false := by
    rcases hcomma with hcomma | rfl
    · obtain ⟨c, hc, rfl⟩ := accepts_oneOf.mp hcomma
      have hnot : U.isDecimal c = false := hU.not_digit (.inr (by simp at hc ⊢; tauto))
      simpa using hnot
    · intro c hc
      exact hU.not_digit (.inl (hgapHead c hc))
  have hdateHead : ∀ c ∈ (date ++ (comma ++ (gap ++ (clock ++ t)))).head?, c ∉ "[".toList := by
    obtain ⟨x, _, rfl, hx, -⟩ := hdate
    obtain ⟨c, x, rfl, hc⟩ := digits_eq_cons (by omega) hx
    intro d hd hbracket
    obtain rfl : c = d := by simpa using hd
    refine (hU c hc).2 ?_
    simp at hbracket ⊢
    tauto
  have hcommaNot : ∀ c ∈ (gap ++ (clock ++ t)).head?, c ∉ ",".toList := by
    intro c hc hmem
    have hspace := hgapHead c hc
    obtain rfl : c = ',' := by simpa using hmem
    cases hspace
  -- and the clock is followed by the marks
  obtain ⟨seconds, hseconds, hafterSeconds⟩ := firstMatch_opt (secondsToken U) t
  obtain ⟨half, hhalf, hafterHalf⟩ := firstMatch_opt halfToken seconds.rest
  unfold afterBetween afterMarks at htail
  rw [← hafterSeconds, ← hafterHalf] at htail
  obtain ⟨w, hmarks⟩ := firstMatch_marks htail
  have htimeTail := firstMatch_seq hseconds hhalf
  rw [groups_eq_nil (mem_of_firstMatch hseconds) rfl, groups_eq_nil (mem_of_firstMatch hhalf) rfl]
    at htimeTail
  obtain ⟨time, htime⟩ := firstMatch_clock hU hclock htimeTail
  have hgapMatch : (spaces 1).firstMatch (gap ++ (clock ++ t)) = some ⟨gap, clock ++ t, []⟩ := by
    obtain ⟨hall, hlo, hhi⟩ := hgap
    exact firstMatch_many hall hclockHead hlo hhi
  have hall := firstMatch_seq (firstMatch_opt_oneOf hbracket hdateHead)
    (firstMatch_seq (firstMatch_group (firstMatch_dateToken hU hdate hcommaHead) "date")
      (firstMatch_seq (firstMatch_opt_oneOf hcomma hcommaNot)
        (firstMatch_seq hgapMatch (firstMatch_seq (firstMatch_group htime "time") hmarks))))
  exact ⟨_, time, hall⟩

/-! ## The first match takes all it can -/

lemma afterMarks_suffix (t : List Char) : afterMarks t <:+ t := by
  unfold afterMarks
  exact ((List.dropWhile_suffix _).trans (after_suffix _ _)).trans
    ((List.dropWhile_suffix _).trans ((after_suffix _ _).trans (after_suffix _ _)))

lemma afterBetween_suffix (t : List Char) : afterBetween U t <:+ t :=
  (afterMarks_suffix _).trans (after_suffix _ _)

/-- The marks that stand between, as the first match splits them. -/
lemma marks_split (t : List Char) : ∃ w, marks.Accepts w ∧ t = w ++ afterMarks t := by
  obtain ⟨half, hhalf, hs⟩ := after_split halfToken t
  obtain ⟨close, hclose, hs'⟩ := after_split (oneOf "]") (after halfToken t)
  obtain ⟨dash, hdash, hs''⟩ :=
    after_split (oneOf "-–") ((after (oneOf "]") (after halfToken t)).dropWhile isSpace)
  have hspaces (s : List Char) : (spaces 0).Accepts (s.takeWhile isSpace) :=
    ⟨fun c hc => List.mem_takeWhile_imp hc, Nat.zero_le _, by simp⟩
  refine ⟨half ++ (close ++ ((after (oneOf "]") (after halfToken t)).takeWhile isSpace ++ (dash ++
    (after (oneOf "-–") ((after (oneOf "]") (after halfToken t)).dropWhile isSpace)).takeWhile
      isSpace))), ?_, ?_⟩
  · exact ⟨half, _, rfl, hhalf, close, _, rfl, hclose, _, _, rfl, hspaces _, dash, _, rfl, hdash,
      hspaces _⟩
  · conv_lhs => rw [hs, hs']
    unfold afterMarks
    simp only [List.append_assoc, List.takeWhile_append_dropWhile]
    rw [← hs'', List.takeWhile_append_dropWhile]

lemma between_split (t : List Char) : ∃ w, (between U).Accepts w ∧ t = w ++ afterBetween U t := by
  obtain ⟨seconds, hseconds, hs⟩ := after_split (secondsToken U) t
  obtain ⟨w, hw, hs'⟩ := marks_split (after (secondsToken U) t)
  refine ⟨seconds ++ w, ⟨seconds, w, rfl, hseconds, hw⟩, ?_⟩
  conv_lhs => rw [hs, hs']
  rw [List.append_assoc]
  rfl

section Longest

variable {rest : List Char → List Char} {K : List Char → Prop} {k u : List Char}

lemma after_oneOf_of_not_mem {chars : String} {s : List Char}
    (hs : ∀ c ∈ s.head?, c ∉ chars.toList) : after (oneOf chars) s = s := by
  have hnone : (opt (oneOf chars)).firstMatch ([] ++ s) = some ⟨[], s, []⟩ :=
    firstMatch_opt_oneOf (.inr rfl) hs
  obtain ⟨m, hm, hrest⟩ := firstMatch_opt (oneOf chars) s
  rw [List.nil_append, hm] at hnone
  rw [← hrest, Option.some.inj hnone]

/-- What comes after an optional mark: if the rest takes all it can, so does the mark with it. -/
lemma after_oneOf_longest {chars : String} (hsuffix : ∀ s, rest s <:+ s)
    (hlongest : ∀ k u, K k → rest (k ++ u) <:+ u)
    (hK : ∀ k, K k → ∀ c ∈ k.head?, c ∉ chars.toList) {w : List Char}
    (hw : (opt (oneOf chars)).Accepts w) (hk : K k) :
    rest (after (oneOf chars) (w ++ (k ++ u))) <:+ u := by
  rcases hw with hw | rfl
  · obtain ⟨c, hc, rfl⟩ := accepts_oneOf.mp hw
    rw [List.singleton_append, after_eq_rest (firstMatch_oneOf hc _)]
    exact hlongest k u hk
  · rw [List.nil_append]
    cases k with
    | nil => exact (hsuffix _).trans (after_suffix _ _)
    | cons c k =>
      rw [after_oneOf_of_not_mem (by simpa using hK _ hk)]
      exact hlongest _ u hk

lemma dropWhile_longest (hsuffix : ∀ s, rest s <:+ s) (hlongest : ∀ k u, K k → rest (k ++ u) <:+ u)
    (hK : ∀ k, K k → k = [] ∨ (∃ c ∈ k.head?, isSpace c = false) ∨ ∀ c ∈ k, isSpace c = true)
    {w : List Char} (hw : (spaces 0).Accepts w) (hk : K k) :
    rest ((w ++ (k ++ u)).dropWhile isSpace) <:+ u := by
  rw [List.dropWhile_append_of_pos hw.1]
  have hall (hspaces : ∀ c ∈ k, isSpace c = true) : rest ((k ++ u).dropWhile isSpace) <:+ u := by
    rw [List.dropWhile_append_of_pos hspaces]
    exact (hsuffix _).trans (List.dropWhile_suffix _)
  rcases hK k hk with rfl | ⟨c, hc, hnot⟩ | hspaces
  · exact hall (by simp)
  · cases k with
    | nil => cases hc
    | cons d k =>
      obtain rfl : d = c := by simpa using hc
      rw [List.cons_append, List.dropWhile_cons_of_neg (by simp [hnot])]
      exact hlongest _ u hk
  · exact hall hspaces

end Longest

/-- What may stand between without seconds and day half: a bracket, blanks and a dash. -/
def closing : Regex :=
  .seq (opt (oneOf "]")) <| .seq (spaces 0) <| .seq (opt (oneOf "-–")) (spaces 0)

def afterClosing (t : List Char) : List Char :=
  (after (oneOf "-–") ((after (oneOf "]") t).dropWhile isSpace)).dropWhile isSpace

lemma afterClosing_suffix (t : List Char) : afterClosing t <:+ t :=
  ((List.dropWhile_suffix _).trans (after_suffix _ _)).trans
    ((List.dropWhile_suffix _).trans (after_suffix _ _))

lemma isSpace_of_mem_spaces {lo : ℕ} {w : List Char} (h : (spaces lo).Accepts w) {c : Char}
    (hc : c ∈ w) : isSpace c = true := h.1 c hc

lemma not_space_of_mem {chars : String} (hchars : ∀ c ∈ chars.toList, isSpace c = false) {c : Char}
    (hc : isSpace c = true) : c ∉ chars.toList := by
  intro hmem
  rw [hchars c hmem] at hc
  cases hc

/-- The first match of the closing marks takes all it can. -/
lemma closing_longest {w : List Char} (hw : closing.Accepts w) (u : List Char) :
    afterClosing (w ++ u) <:+ u := by
  have hdashSpace : ∀ c ∈ "-–".toList, isSpace c = false := forall_mem_of_all (by decide)
  have hcloseSpace : ∀ c ∈ "]".toList, isSpace c = false := forall_mem_of_all (by decide)
  have hblanks (k u : List Char) (hk : (spaces 0).Accepts k) :
      (k ++ u).dropWhile isSpace <:+ u := by
    rw [List.dropWhile_append_of_pos hk.1]
    exact List.dropWhile_suffix _
  have hdash (k u : List Char) (hk : (Regex.seq (opt (oneOf "-–")) (spaces 0)).Accepts k) :
      (after (oneOf "-–") (k ++ u)).dropWhile isSpace <:+ u := by
    obtain ⟨dash, blanks, rfl, hd, hb⟩ := hk
    rw [List.append_assoc]
    refine after_oneOf_longest (fun s => List.dropWhile_suffix _) hblanks ?_ hd hb
    intro k hk c hc
    exact not_space_of_mem hdashSpace (isSpace_of_mem_spaces hk (List.mem_of_mem_head? hc))
  have hdashSuffix (s : List Char) : (after (oneOf "-–") s).dropWhile isSpace <:+ s :=
    (List.dropWhile_suffix _).trans (after_suffix _ _)
  have hgap (k u : List Char)
      (hk : (Regex.seq (spaces 0) <| .seq (opt (oneOf "-–")) (spaces 0)).Accepts k) :
      (after (oneOf "-–") ((k ++ u).dropWhile isSpace)).dropWhile isSpace <:+ u := by
    obtain ⟨blanks, rest, rfl, hb, hrest⟩ := hk
    rw [List.append_assoc]
    refine dropWhile_longest hdashSuffix hdash ?_ hb hrest
    rintro k ⟨dash, blanks, rfl, hd, hb⟩
    rcases hd with hd | rfl
    · obtain ⟨c, hc, rfl⟩ := accepts_oneOf.mp hd
      exact .inr (.inl ⟨c, rfl, hdashSpace c hc⟩)
    · exact .inr (.inr fun c hc => isSpace_of_mem_spaces hb hc)
  obtain ⟨close, rest, rfl, hc, hrest⟩ := hw
  rw [List.append_assoc]
  have hgapSuffix (s : List Char) :
      (after (oneOf "-–") (s.dropWhile isSpace)).dropWhile isSpace <:+ s :=
    (hdashSuffix _).trans (List.dropWhile_suffix _)
  refine after_oneOf_longest hgapSuffix hgap ?_ hc hrest
  rintro k ⟨blanks, _, rfl, hb, dash, blanks', rfl, hd, hb'⟩ c hc
  have hspace {c : Char} (hc : isSpace c = true) : c ∉ "]".toList := not_space_of_mem hcloseSpace hc
  have hmem := List.mem_of_mem_head? hc
  rw [List.mem_append, List.mem_append] at hmem
  rcases hmem with hmem | hmem | hmem
  · exact hspace (isSpace_of_mem_spaces hb hmem)
  · rcases hd with hd | rfl
    · obtain ⟨d, hmark, rfl⟩ := accepts_oneOf.mp hd
      rw [List.mem_singleton.mp hmem]
      have hnot : ∀ d ∈ "-–".toList, d ∉ "]".toList := forall_mem_of_all (by decide)
      exact hnot d hmark
    · cases hmem
  · exact hspace (isSpace_of_mem_spaces hb' hmem)

/-- Every character of the closing marks is a bracket, a blank or a dash. -/
lemma closing_chars {w : List Char} (hw : closing.Accepts w) {c : Char} (hc : c ∈ w) :
    isSpace c = true ∨ c ∈ "]-–".toList := by
  obtain ⟨close, _, rfl, hclose, blanks, _, rfl, hb, dash, blanks', rfl, hd, hb'⟩ := hw
  have hmark {chars : String} {v : List Char} (hv : (opt (oneOf chars)).Accepts v) (hc : c ∈ v) :
      c ∈ chars.toList := by
    rcases hv with hv | rfl
    · obtain ⟨d, hd, rfl⟩ := accepts_oneOf.mp hv
      rwa [List.mem_singleton.mp hc]
    · cases hc
  rw [List.mem_append, List.mem_append, List.mem_append] at hc
  rcases hc with hc | hc | hc | hc
  · have hmem : ∀ d ∈ "]".toList, d ∈ "]-–".toList := forall_mem_of_all (by decide)
    exact .inr (hmem c (hmark hclose hc))
  · exact .inl (isSpace_of_mem_spaces hb hc)
  · have hmem : ∀ d ∈ "-–".toList, d ∈ "]-–".toList := forall_mem_of_all (by decide)
    exact .inr (hmem c (hmark hd hc))
  · exact .inl (isSpace_of_mem_spaces hb' hc)

lemma closing_not_mem (chars : String)
    (hchars : ∀ c ∈ chars.toList, isSpace c = false ∧ c ∉ "]-–".toList) {w : List Char}
    (hw : closing.Accepts w) {c : Char} (hc : c ∈ w) : c ∉ chars.toList := by
  intro hmem
  obtain ⟨hspace, hmark⟩ := hchars c hmem
  rcases closing_chars hw hc with h | h
  · rw [hspace] at h
    cases h
  · exact hmark h

/-- The first match of a day half. -/
lemma after_halfToken {blanks dot : List Char} {a m : Char} (hblanks : (spaces 0).Accepts blanks)
    (ha : a ∈ "APap".toList) (hdot : (opt (oneOf ".")).Accepts dot) (hm : m ∈ "Mm".toList)
    (s : List Char) :
    after halfToken (blanks ++ (a :: (dot ++ (m :: s)))) = after (oneOf ".") s := by
  have hspace : ∀ a ∈ "APap".toList, isSpace a = false := forall_mem_of_all (by decide)
  have hnot : ∀ m ∈ "Mm".toList, m ∉ ".".toList := forall_mem_of_all (by decide)
  obtain ⟨last, hlast, hrest⟩ := firstMatch_opt (oneOf ".") s
  have hfirst := firstMatch_seq
    (firstMatch_spaces_append hblanks (s := a :: (dot ++ (m :: s))) (by simpa using hspace a ha))
    (firstMatch_seq (firstMatch_oneOf ha _) (firstMatch_seq
      (firstMatch_opt_oneOf hdot (s := m :: s) (by simpa using hnot m hm))
      (firstMatch_seq (firstMatch_oneOf hm s) hlast)))
  have hhalf : halfToken.firstMatch (blanks ++ (a :: (dot ++ (m :: s)))) = _ := hfirst
  rw [after_eq_rest hhalf, ← hrest]

/-- The first match of the marks takes all it can. -/
lemma marks_longest {w : List Char} (hw : marks.Accepts w) (u : List Char) :
    afterMarks (w ++ u) <:+ u := by
  obtain ⟨half, close, rfl, hhalf, hclose⟩ := hw
  rw [List.append_assoc]
  show afterClosing (after halfToken (half ++ (close ++ u))) <:+ u
  rcases hhalf with hhalf | rfl
  · -- a day half: only its last point may be taken or left
    obtain ⟨blanks, _, rfl, hblanks, _, _, rfl, ha, dot, _, rfl, hdot, _, dot', rfl, hm, hdot'⟩ :=
      hhalf
    obtain ⟨a, hletter, rfl⟩ := accepts_oneOf.mp ha
    obtain ⟨m, hm', rfl⟩ := accepts_oneOf.mp hm
    have hshape : blanks ++ ([a] ++ (dot ++ ([m] ++ dot'))) ++ (close ++ u) =
        blanks ++ (a :: (dot ++ (m :: (dot' ++ (close ++ u))))) := by simp
    rw [hshape, after_halfToken hblanks hletter hdot hm']
    refine after_oneOf_longest afterClosing_suffix (fun k u hk => closing_longest hk u) ?_ hdot'
      hclose
    intro k hk c hc
    exact closing_not_mem _ (forall_mem_of_all (by decide)) hk
      (List.mem_of_mem_head? hc)
  · rw [List.nil_append]
    rcases after_cases halfToken (close ++ u) with hnone | ⟨half, hhalf, hsplit⟩
    · rw [hnone]
      exact closing_longest hclose u
    · -- the letter of the day half is none of the closing marks
      refine (afterClosing_suffix _).trans ?_
      generalize after halfToken (close ++ u) = v at hsplit
      obtain ⟨blanks, _, rfl, -, _, rest, rfl, ha, -⟩ := hhalf
      obtain ⟨a, hletter, rfl⟩ := accepts_oneOf.mp ha
      have hnot : a ∉ close := by
        intro hmem
        exact closing_not_mem "APap" (forall_mem_of_all (by decide)) hclose
          hmem hletter
      rw [List.append_assoc, List.append_assoc] at hsplit
      rcases List.append_eq_append_iff.mp hsplit with ⟨between, -, hu⟩ | ⟨between, hblanks, hu⟩
      · exact ⟨between ++ ([a] ++ rest), by rw [hu]; simp⟩
      · cases between with
        | nil => exact ⟨[a] ++ rest, by simpa using hu⟩
        | cons c between =>
          have hsame : a = c := by
            have hhead := congrArg List.head? hu
            simpa using hhead
          subst hsame
          exact absurd (by rw [hblanks]; simp) hnot

lemma after_secondsToken {minute : List Char} (hminute : (digits U 2 2).Accepts minute)
    (s : List Char) : after (secondsToken U) (':' :: (minute ++ s)) = s := by
  obtain ⟨hdigits, hlo, hhi⟩ := hminute
  have hcolon : (oneOf ":").firstMatch (':' :: (minute ++ s)) = some ⟨[':'], minute ++ s, []⟩ :=
    firstMatch_oneOf (by decide) (minute ++ s)
  have hminute : (digits U 2 2).firstMatch (minute ++ s) = some ⟨minute, s, []⟩ :=
    firstMatch_many_exact hdigits (le_antisymm (hhi 2 rfl) hlo)
  have hfirst := firstMatch_seq hcolon hminute
  have hseconds : (secondsToken U).firstMatch (':' :: (minute ++ s)) = _ := hfirst
  rw [after_eq_rest hseconds]

/-- A word of the marks starts with no colon. -/
lemma marks_not_colon {w : List Char} (hw : marks.Accepts w) : ':' ∉ w := by
  obtain ⟨half, close, rfl, hhalf, hclose⟩ := hw
  have hnotClose : ':' ∉ close := by
    intro hmem
    exact closing_not_mem ":" (forall_mem_of_all (by decide)) hclose hmem
      (by decide)
  rw [List.mem_append, not_or]
  refine ⟨?_, hnotClose⟩
  rcases hhalf with hhalf | rfl
  · obtain ⟨blanks, _, rfl, hblanks, _, _, rfl, ha, dot, _, rfl, hdot, _, dot', rfl, hm, hdot'⟩ :=
      hhalf
    obtain ⟨a, hletter, rfl⟩ := accepts_oneOf.mp ha
    obtain ⟨m, hm', rfl⟩ := accepts_oneOf.mp hm
    have hpoint {v : List Char} (hv : (opt (oneOf ".")).Accepts v) : ':' ∉ v := by
      rcases hv with hv | rfl
      · obtain ⟨c, hc, rfl⟩ := accepts_oneOf.mp hv
        obtain rfl : c = '.' := by simpa using hc
        simp
      · simp
    have hblank : ':' ∉ blanks := by
      intro hmem
      exact absurd (isSpace_of_mem_spaces hblanks hmem) (by decide)
    have hA : ':' ≠ a := by
      rintro rfl
      exact absurd hletter (by decide)
    have hM : ':' ≠ m := by
      rintro rfl
      exact absurd hm' (by decide)
    simp only [List.mem_append, List.mem_singleton, not_or]
    exact ⟨hblank, hA, hpoint hdot, hM, hpoint hdot'⟩
  · simp

/-- The first match of what may stand between takes all it can. -/
theorem between_longest {w : List Char} (hw : (between U).Accepts w) (u : List Char) :
    afterBetween U (w ++ u) <:+ u := by
  obtain ⟨seconds, rest, rfl, hseconds, hrest⟩ := hw
  rw [List.append_assoc]
  unfold afterBetween
  rcases hseconds with hseconds | rfl
  · obtain ⟨_, minute, rfl, hcolon, hminute⟩ := hseconds
    obtain ⟨c, hc, rfl⟩ := accepts_oneOf.mp hcolon
    obtain rfl : c = ':' := by simpa using hc
    rw [List.append_assoc, List.singleton_append, after_secondsToken hminute]
    exact marks_longest hrest u
  · rw [List.nil_append]
    rcases after_cases (secondsToken U) (rest ++ u) with hnone | ⟨seconds, hseconds, hsplit⟩
    · rw [hnone]
      exact marks_longest hrest u
    · -- seconds start with a colon, so nothing of the marks is before them
      obtain ⟨_, minute, rfl, hcolon, -⟩ := hseconds
      obtain ⟨c, hc, rfl⟩ := accepts_oneOf.mp hcolon
      obtain rfl : c = ':' := by simpa using hc
      cases rest with
      | nil => exact (afterMarks_suffix _).trans (after_suffix _ _)
      | cons d rest =>
        have hsame : d = ':' := by
          have hhead := congrArg List.head? hsplit
          simpa using hhead
        subst hsame
        exact absurd List.mem_cons_self (marks_not_colon hrest)

/-- Where a sender follows, what the first match leaves starts in the sender or at its colon. -/
theorem afterBetween_sender {w sender v : List Char} (hw : (between U).Accepts w)
    (hsender : ':' ∉ sender) (hne : sender ≠ []) :
    ∃ p s, sender = p ++ s ∧ afterBetween U (w ++ (sender ++ ':' :: v)) = s ++ ':' :: v := by
  obtain ⟨p, hp⟩ := between_longest hw (sender ++ ':' :: v)
  obtain ⟨_, ⟨seconds, k, rfl, hseconds, hk⟩, hsplit⟩ :=
    between_split (U := U) (w ++ (sender ++ ':' :: v))
  generalize afterBetween U (w ++ (sender ++ ':' :: v)) = rest at hp hsplit ⊢
  rcases List.append_eq_append_iff.mp hp with ⟨s, hs, hrest⟩ | ⟨c, hc, hv⟩
  · exact ⟨p, s, hs, hrest⟩
  cases c with
  | nil => exact ⟨sender, [], by simp, by simpa using hv.symm⟩
  | cons d c =>
    -- what the first match takes holds no colon but that of the seconds
    obtain rfl : ':' = d := by simpa using congrArg List.head? hv
    exfalso
    have htaken : w ++ (sender ++ ':' :: c) = seconds ++ k := by
      rw [← hp, hc, ← List.append_assoc] at hsplit
      exact List.append_cancel_right hsplit
    obtain ⟨seconds', k', rfl, hseconds', hk'⟩ := hw
    have hcolonFirst {u : List Char} (hu : (secondsToken U).Accepts u) :
        ∃ minute, u = ':' :: minute ∧ minute.length = 2 := by
      obtain ⟨_, minute, rfl, hcolon, -, hlo, hhi⟩ := hu
      obtain ⟨c, hc, rfl⟩ := accepts_oneOf.mp hcolon
      obtain rfl : c = ':' := by simpa using hc
      exact ⟨minute, rfl, le_antisymm (hhi 2 rfl) hlo⟩
    rcases hseconds with hseconds | rfl
    · obtain ⟨minute, rfl, hlength⟩ := hcolonFirst hseconds
      rcases hseconds' with hseconds' | rfl
      · obtain ⟨minute', rfl, hlength'⟩ := hcolonFirst hseconds'
        have hrest : minute' ++ (k' ++ (sender ++ ':' :: c)) = minute ++ k := by simpa using htaken
        have hsame : k = k' ++ (sender ++ ':' :: c) :=
          (List.append_inj_right hrest (by rw [hlength, hlength'])).symm
        exact marks_not_colon hk (by rw [hsame]; simp)
      · cases k' with
        | nil =>
          cases sender with
          | nil => exact hne rfl
          | cons d sender =>
            obtain rfl : d = ':' := by simpa using congrArg List.head? htaken
            exact hsender List.mem_cons_self
        | cons d k' =>
          obtain rfl : d = ':' := by simpa using congrArg List.head? htaken
          exact marks_not_colon hk' List.mem_cons_self
    · exact marks_not_colon hk (by rw [← List.nil_append k, ← htaken]; simp)

/-- Marks that are there can be cut so that what is cut off would do for a sender. -/
lemma marks_cut {k : List Char} (hk : marks.Accepts k) (hne : k ≠ []) :
    ∃ w v, k = w ++ v ∧ marks.Accepts w ∧ 1 ≤ v.length ∧ v.length ≤ 4 := by
  have hempty {r : Regex} : (opt r).Accepts [] := .inr rfl
  have hnoBlanks : (spaces 0).Accepts [] := ⟨by simp, le_refl _, by simp⟩
  have hinit {b : List Char} {c : Char} (hb : (spaces 0).Accepts (b ++ [c])) :
      (spaces 0).Accepts b :=
    ⟨fun d hd => hb.1 d (List.mem_append_left _ hd), Nat.zero_le _, by simp⟩
  obtain ⟨half, _, rfl, hhalf, close, _, rfl, hclose, blanks, _, rfl, hblanks, dash, blanks', rfl,
    hdash, hblanks'⟩ := hk
  rcases List.eq_nil_or_concat blanks' with rfl | ⟨init, c, rfl⟩
  · rcases hdash with hdash | rfl
    · obtain ⟨c, hc, rfl⟩ := accepts_oneOf.mp hdash
      exact ⟨half ++ (close ++ blanks), [c], by simp,
        ⟨half, _, rfl, hhalf, close, _, rfl, hclose, blanks, [], by simp, hblanks, [], [], rfl, hempty,
          hnoBlanks⟩, by simp, by simp⟩
    rcases List.eq_nil_or_concat blanks with rfl | ⟨init, c, rfl⟩
    · rcases hclose with hclose | rfl
      · obtain ⟨c, hc, rfl⟩ := accepts_oneOf.mp hclose
        exact ⟨half, [c], by simp, ⟨half, [], by simp, hhalf, [], [], rfl, hempty, [], [], rfl,
          hnoBlanks, [], [], rfl, hempty, hnoBlanks⟩, by simp, by simp⟩
      rcases hhalf with hhalf | rfl
      · -- a day half alone: its letters and points are at most four characters
        obtain ⟨blanks, _, rfl, hblanks, _, _, rfl, ha, dot, _, rfl, hdot, _, dot', rfl, hm, hdot'⟩ :=
          hhalf
        obtain ⟨a, -, rfl⟩ := accepts_oneOf.mp ha
        obtain ⟨m, -, rfl⟩ := accepts_oneOf.mp hm
        have hshort {v : List Char} (hv : (opt (oneOf ".")).Accepts v) : v.length ≤ 1 := by
          rcases hv with hv | rfl
          · obtain ⟨c, -, rfl⟩ := accepts_oneOf.mp hv
            simp
          · simp
        have hlength := hshort hdot
        have hlength' := hshort hdot'
        refine ⟨blanks, [a] ++ (dot ++ ([m] ++ dot')), by simp, ⟨[], blanks, rfl, hempty, [], blanks,
          rfl, hempty, blanks, [], by simp, hblanks, [], [], rfl, hempty, hnoBlanks⟩, ?_, ?_⟩
        · simp
        · simp only [List.length_append, List.length_singleton]
          omega
      · simp at hne
    · rw [List.concat_eq_append] at hblanks ⊢
      exact ⟨half ++ (close ++ init), [c], by simp,
        ⟨half, _, rfl, hhalf, close, init, rfl, hclose, init, [], by simp, hinit hblanks, [], [], rfl,
          hempty, hnoBlanks⟩, by simp, by simp⟩
  · rw [List.concat_eq_append] at hblanks' ⊢
    exact ⟨half ++ (close ++ (blanks ++ (dash ++ init))), [c], by simp,
      ⟨half, _, rfl, hhalf, close, _, rfl, hclose, blanks, _, rfl, hblanks, dash, init, rfl, hdash,
        hinit hblanks'⟩, by simp, by simp⟩

lemma marks_chars {w : List Char} (hw : marks.Accepts w) {c : Char} (hc : c ∈ w) :
    isSpace c = true ∨ c ∈ "[]/.-–:,APapMm".toList := by
  have hmarks (chars : String) (hchars : ∀ d ∈ chars.toList, d ∈ "[]/.-–:,APapMm".toList)
      {v : List Char} (hv : (opt (oneOf chars)).Accepts v) (hc : c ∈ v) :
      c ∈ "[]/.-–:,APapMm".toList := by
    rcases hv with hv | rfl
    · obtain ⟨d, hd, rfl⟩ := accepts_oneOf.mp hv
      rw [List.mem_singleton.mp hc]
      exact hchars d hd
    · cases hc
  obtain ⟨half, close, rfl, hhalf, hclose⟩ := hw
  rcases List.mem_append.mp hc with hc | hc
  · rcases hhalf with hhalf | rfl
    · obtain ⟨blanks, _, rfl, hblanks, _, _, rfl, ha, dot, _, rfl, hdot, _, dot', rfl, hm, hdot'⟩ :=
        hhalf
      simp only [List.mem_append] at hc
      rcases hc with hc | hc | hc | hc | hc
      · exact .inl (isSpace_of_mem_spaces hblanks hc)
      · exact .inr (hmarks "APap" (forall_mem_of_all (by decide)) (.inl ha) hc)
      · exact .inr (hmarks _ (forall_mem_of_all (by decide)) hdot hc)
      · exact .inr (hmarks "Mm" (forall_mem_of_all (by decide)) (.inl hm) hc)
      · exact .inr (hmarks _ (forall_mem_of_all (by decide)) hdot' hc)
    · cases hc
  · rcases closing_chars hclose hc with hspace | hmark
    · exact .inl hspace
    · have hmem : ∀ d ∈ "]-–".toList, d ∈ "[]/.-–:,APapMm".toList := forall_mem_of_all (by decide)
      exact .inr (hmem c hmark)

lemma digits_eq_concat {lo hi : ℕ} {w : List Char} (hlo : 0 < lo) (h : (digits U lo hi).Accepts w) :
    ∃ w' c, w = w' ++ [c] ∧ U.isDecimal c = true := by
  obtain ⟨hall, hlength, -⟩ := h
  rcases List.eq_nil_or_concat w with rfl | ⟨w', c, rfl⟩
  · simp at hlength
    omega
  · exact ⟨w', c, by simp, hall c (by simp)⟩

/-- Whether marks stand between the clock and what the first match leaves shows in the character
before it. -/
theorem Headed.marks_before (hU : PlainDigits U) {s date clock t : List Char}
    (h : Headed U s date clock t) :
    ∃ seconds k, t = seconds ++ (k ++ afterBetween U t) ∧ (opt (secondsToken U)).Accepts seconds ∧
      marks.Accepts k ∧
      (k ≠ [] ↔ ∃ before c, s = before ++ c :: afterBetween U t ∧ U.isDecimal c = false) := by
  obtain ⟨seconds, hseconds, hs⟩ := after_split (secondsToken U) t
  obtain ⟨k, hk, hs'⟩ := marks_split (after (secondsToken U) t)
  obtain ⟨bracket, comma, gap, rfl, -, -, -, -, hclock⟩ := h
  have hsplit : t = seconds ++ (k ++ afterBetween U t) := by
    conv_lhs => rw [hs, hs']
    rfl
  refine ⟨seconds, k, hsplit, hseconds, hk, ?_⟩
  generalize afterBetween U t = rest at hsplit ⊢
  subst hsplit
  constructor
  · intro hne
    rcases List.eq_nil_or_concat k with rfl | ⟨k, c, rfl⟩
    · exact absurd rfl hne
    · refine ⟨bracket ++ (date ++ (comma ++ (gap ++ (clock ++ (seconds ++ k))))), c, by simp, ?_⟩
      exact hU.not_digit (marks_chars hk (by simp))
  · rintro ⟨before, c, hsplit, hnot⟩ rfl
    -- the clock ends in a digit, and so do its seconds
    have hdigit : ∃ front d, clock ++ seconds = front ++ [d] ∧ U.isDecimal d = true := by
      rcases hseconds with hseconds | rfl
      · obtain ⟨colon, minute, rfl, -, hminute⟩ := hseconds
        obtain ⟨front, d, rfl, hd⟩ := digits_eq_concat (by omega) hminute
        exact ⟨clock ++ (colon ++ front), d, by simp, hd⟩
      · obtain ⟨hour, _, rfl, -, colon, minute, rfl, -, hminute⟩ := hclock
        obtain ⟨front, d, rfl, hd⟩ := digits_eq_concat (by omega) hminute
        exact ⟨hour ++ (colon ++ front), d, by simp, hd⟩
    obtain ⟨front, d, hfront, hd⟩ := hdigit
    have hwhole : (bracket ++ (date ++ (comma ++ (gap ++ front)))) ++ [d] ++ rest =
        before ++ [c] ++ rest := by
      have hleft : bracket ++ (date ++ (comma ++ (gap ++ (clock ++ (seconds ++ ([] ++ rest)))))) =
          bracket ++ (date ++ (comma ++ (gap ++ ((clock ++ seconds) ++ rest)))) := by simp
      rw [hleft, hfront] at hsplit
      simpa using hsplit
    have hsame := List.append_inj_right' (List.append_cancel_right hwhole) rfl
    obtain rfl : d = c := by simpa using hsame
    rw [hd] at hnot
    cases hnot

end WhatsVault.Importers
