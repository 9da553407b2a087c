import WhatsVault.Importers.HeaderShape
import WhatsVault.Importers.Spans

/-!
# Two readings of a header

`validate_family` counts the lines that `_HEADER_RE` matches, sender and all; `parse_transcript` starts
a message where `_ENTRY_RE` matches and `_SENDER_RE` matches what it left.  The two agree on a line
unless it is of one of two kinds.  Where the blank after the sender's colon is the separator that ends
the line, only the parse still sees it.  Where the marks after the clock run up to a colon, `_HEADER_RE`
gives some of them back to find a sender in them, and `_ENTRY_RE` does not.
-/

namespace WhatsVault.Importers

open Regex

variable {U : Unicode}

/-! ## The header expression -/

lemma header_of_firstMatch {s : List Char} {m : Match} (h : (headerRegex U).firstMatch s = some m) :
    ∃ date clock w sender blank z, Headed U s date clock (w ++ (sender ++ ':' :: blank :: z)) ∧
      (between U).Accepts w ∧ IsSender sender ∧ isSpace blank = true ∧
      m.group "date" = some date := by
  obtain ⟨date, clock, w, time, m', hheaded, hw, hmem, -, hgroups⟩ :=
    mem_headerThen (mem_of_firstMatch h)
  obtain ⟨sender, _, htaken, hsender, _, _, rfl, ⟨colon, rfl, hcolon⟩, ⟨blank, rfl, hblank⟩⟩ :=
    accepts_of_mem hmem
  obtain rfl : colon = ':' := by simpa using hcolon
  obtain ⟨hnot, hlo, hhi⟩ := hsender
  refine ⟨date, clock, w, sender, blank, m'.rest, ?_, hw, ⟨?_, hlo, hhi 100 rfl⟩, hblank, ?_⟩
  · rw [htaken] at hheaded
    simpa using hheaded
  · intro hmem
    simpa using hnot ':' hmem
  · simp [Match.group, hgroups]

lemma firstMatch_of_header {s date clock w sender z : List Char} {blank : Char}
    (h : Headed U s date clock (w ++ (sender ++ ':' :: blank :: z))) (hw : (between U).Accepts w)
    (hsender : IsSender sender) (hblank : isSpace blank = true) :
    ((headerRegex U).firstMatch s).isSome := by
  have hfree : (headerRegex U).EosFree := by
    simp [headerRegex, headerThen, dateToken, timeToken, digits, oneOf, spaces, EosFree]
  have htail : (Regex.seq (group "sender" (many (fun c => c ≠ ':') 1 (some 100) false))
      (.seq (oneOf ":") (one isSpace))).Accepts (sender ++ ([':'] ++ [blank])) := by
    refine ⟨sender, _, rfl, ⟨?_, hsender.2.1, ?_⟩, [':'], _, rfl, ⟨':', rfl, by simp⟩, blank, rfl,
      hblank⟩
    · intro c hc
      have hne : c ≠ ':' := by
        rintro rfl
        exact hsender.1 hc
      simpa using hne
    · intro n hn
      rw [← Option.some.inj hn]
      exact hsender.2.2
  have hshape : Headed U s date clock (w ++ ((sender ++ ([':'] ++ [blank])) ++ z)) := by
    simpa using h
  obtain ⟨taken, rfl, haccepts⟩ := accepts_headerThen hshape hw htail
  exact firstMatch_isSome hfree haccepts z

/-! ## Entries -/

lemma firstMatch_rest {s : List Char} (hs : '\n' ∉ s) :
    (Regex.seq (group "rest" (many (fun c => c ≠ '\n') 0 none true)) eos).firstMatch s =
      some ⟨s, [], [("rest", s)]⟩ := by
  have hall : (many (fun c => c ≠ '\n') 0 none true).firstMatch (s ++ []) = some ⟨s, [], []⟩ := by
    refine firstMatch_many ?_ (by simp) (Nat.zero_le _) (by simp)
    intro c hc
    have hne : c ≠ '\n' := by
      rintro rfl
      exact hs hc
    simpa using hne
  rw [List.append_nil] at hall
  have hend : eos.firstMatch [] = some ⟨[], [], []⟩ := by
    simp [firstMatch, allMatches]
  simpa using firstMatch_seq (firstMatch_group hall "rest") hend

lemma Headed.not_mem {s date clock t : List Char} {c : Char} (h : Headed U s date clock t)
    (hc : c ∉ s) : c ∉ t := by
  obtain ⟨bracket, comma, gap, rfl, -⟩ := h
  intro hmem
  exact hc (by simp [hmem])

/-- What `_ENTRY_RE` reads off a header. -/
lemma readEntry_of_headed (hU : PlainDigits U) {s date clock t : List Char} (hs : '\n' ∉ s)
    (h : Headed U s date clock t) :
    ∃ time, readEntry U s = some ⟨date, time, afterBetween U t⟩ := by
  have hrest : '\n' ∉ afterBetween U t := by
    intro hmem
    exact h.not_mem hs ((afterBetween_suffix t).subset hmem)
  obtain ⟨taken, time, hfirst⟩ := firstMatch_headerThen hU h (firstMatch_rest hrest)
  refine ⟨time, ?_⟩
  unfold readEntry entryRegex
  rw [hfirst]
  simp [Match.group, List.lookup_cons]

lemma headed_of_readEntry (hU : PlainDigits U) {s : List Char} (hs : '\n' ∉ s) {e : Entry}
    (h : readEntry U s = some e) :
    ∃ clock t, Headed U s e.date clock t ∧ e.rest = afterBetween U t := by
  have hread := h
  unfold readEntry at h
  obtain ⟨em, hem, -⟩ := Option.bind_eq_some_iff.mp h
  obtain ⟨date, clock, w, time, m', hheaded, -⟩ := mem_headerThen (mem_of_firstMatch hem)
  obtain ⟨time', hentry⟩ := readEntry_of_headed hU hs hheaded
  rw [hread] at hentry
  rw [Option.some.inj hentry]
  dsimp only
  exact ⟨clock, _, hheaded, rfl⟩

/-! ## One line -/

variable (U) in
/-- A line at which `parse_transcript` starts a message. -/
def StartsMessage (dateFormat : String) (line : List Char) : Prop :=
  ∃ e date, readEntry U line = some e ∧ parseDate U e.date dateFormat = some date ∧
    (senderRegex.firstMatch e.rest).isSome

variable (U) in
/-- A valid header in which the blank after the sender's colon is the separator that ends the line. -/
def BlankEndsLine (dateFormat : String) (line : List Char) : Prop :=
  ∃ e date sender c, readEntry U line = some e ∧ parseDate U e.date dateFormat = some date ∧
    e.rest = sender ++ [':', c] ∧ IsSender sender ∧ isLineBoundary c = true

variable (U) in
/-- A header with a colon and a blank where a sender would start, and no digit before the colon. -/
def NoSender (line : List Char) : Prop :=
  ∃ e before c blank body, readEntry U line = some e ∧ e.rest = ':' :: blank :: body ∧
    isSpace blank = true ∧ isLineBoundary blank = false ∧
    line = before ++ c :: e.rest ∧ U.isDecimal c = false

lemma SplitLine.exists_append {content line : List Char} (h : SplitLine content line) :
    ∃ kept, line = content ++ kept ∧ (kept = [] ∨ ∃ c, isLineBoundary c = true ∧ kept = [c]) := by
  rcases h.kept with rfl | ⟨c, hc, rfl⟩
  · exact ⟨[], by simp, .inl rfl⟩
  · exact ⟨[c], rfl, .inr ⟨c, hc, rfl⟩⟩

/-- A header that goes on in what both readings see. -/
lemma Headed.of_append {s date clock t kept : List Char}
    (h : Headed U (s ++ kept) date clock (t ++ kept)) :
    Headed U s date clock t := by
  obtain ⟨bracket, comma, gap, hs, hrest⟩ := h
  refine ⟨bracket, comma, gap, ?_, hrest⟩
  refine (List.append_left_inj kept).mp ?_
  rw [hs]
  simp only [List.append_assoc]

lemma split_at_colon {a b u v : List Char} (ha : ':' ∉ a) (hb : ':' ∉ b)
    (h : a ++ ':' :: u = b ++ ':' :: v) : a = b ∧ u = v := by
  rcases List.append_eq_append_iff.mp h with ⟨c, rfl, hc⟩ | ⟨c, rfl, hc⟩
  · cases c with
    | nil => exact ⟨by simp, by simpa using hc⟩
    | cons d c =>
      obtain rfl : ':' = d := by simpa using congrArg List.head? hc
      simp at hb
  · cases c with
    | nil => exact ⟨by simp, by simpa using hc.symm⟩
    | cons d c =>
      obtain rfl : ':' = d := by simpa using congrArg List.head? hc
      simp at ha

section OneLine

variable (hU : PlainDigits U) {dateFormat : String} {content line : List Char}
  (hline : SplitLine content line)
include hU hline

/-- What the parse makes of a line that `_HEADER_RE` matches. -/
lemma readEntry_of_header {m : Match} (h : (headerRegex U).firstMatch content = some m) :
    ∃ e p sender blank body, readEntry U line = some e ∧ m.group "date" = some e.date ∧
      IsSender (p ++ sender) ∧ isSpace blank = true ∧ isLineBoundary blank = false ∧
      e.rest = sender ++ ':' :: blank :: body ∧
      (sender = [] → ∃ before c, line = before ++ c :: e.rest ∧ U.isDecimal c = false) := by
  obtain ⟨date, clock, w, sender, blank, z, hheaded, hw, hsender, hblank, hdate⟩ :=
    header_of_firstMatch h
  obtain ⟨kept, hkept, -⟩ := hline.exists_append
  have hplain : isLineBoundary blank = false := by
    obtain ⟨bracket, comma, gap, hcontent, -⟩ := hheaded
    exact hline.plain blank (by rw [hcontent]; simp)
  have hne : sender ≠ [] := List.ne_nil_of_length_pos (by have := hsender.2.1; omega)
  have hwhole := hheaded.append kept
  rw [← hkept, List.append_assoc, List.append_assoc, List.cons_append, List.cons_append] at hwhole
  obtain ⟨time, hread⟩ := readEntry_of_headed hU hline.newline hwhole
  obtain ⟨p, s, rfl, hrest⟩ := afterBetween_sender (U := U) (v := blank :: (z ++ kept)) hw hsender.1 hne
  obtain ⟨seconds, k, hsplit, hseconds, hk, hmarks⟩ := hwhole.marks_before hU
  generalize afterBetween U _ = rest at hread hrest hsplit hmarks
  refine ⟨_, p, s, blank, z ++ kept, hread, hdate, hsender, hblank, hplain, hrest, ?_⟩
  rintro rfl
  refine hmarks.mp ?_
  rintro rfl
  -- all of the sender would be seconds
  rw [List.append_nil] at hsender hne hsplit
  rw [hrest, List.nil_append, List.nil_append, ← List.append_assoc] at hsplit
  have htaken : w ++ p = seconds := List.append_cancel_right hsplit
  obtain ⟨seconds', k', rfl, hseconds', hk'⟩ := hw
  have hcolonFirst {u : List Char} (hu : (secondsToken U).Accepts u) :
      u.head? = some ':' ∧ u.length = 3 := by
    obtain ⟨_, minute, rfl, hcolon, -, hlo, hhi⟩ := hu
    obtain ⟨c, hc, rfl⟩ := accepts_oneOf.mp hcolon
    obtain rfl : c = ':' := by simpa using hc
    have hlength : minute.length = 2 := le_antisymm (hhi 2 rfl) hlo
    exact ⟨rfl, by simp [hlength]⟩
  have hpositive : 0 < p.length := List.length_pos_iff.mpr hne
  rcases hseconds with hseconds | rfl
  · obtain ⟨hhead, hlength⟩ := hcolonFirst hseconds
    rcases hseconds' with hseconds' | rfl
    · have hlengths := congrArg List.length htaken
      rw [hlength, List.length_append, List.length_append, (hcolonFirst hseconds').2] at hlengths
      omega
    · rw [← htaken, List.nil_append] at hhead
      cases k' with
      | nil => exact hsender.1 (List.mem_of_mem_head? hhead)
      | cons d k' =>
        obtain rfl : d = ':' := by simpa using hhead
        exact marks_not_colon hk' List.mem_cons_self
  · have hlengths := congrArg List.length htaken
    rw [List.length_append, List.length_nil] at hlengths
    omega

lemma rest_no_newline {e : Entry} (h : readEntry U line = some e) : '\n' ∉ e.rest := by
  obtain ⟨clock, t, hheaded, hrest⟩ := headed_of_readEntry hU hline.newline h
  rw [hrest]
  intro hmem
  exact hheaded.not_mem hline.newline ((afterBetween_suffix t).subset hmem)

/-- A line that only the parse reads as a message. -/
lemma not_counted_of_blankEndsLine (h : BlankEndsLine U dateFormat line) :
    (headerRegex U).firstMatch content = none := by
  obtain ⟨e, date, sender, c, hread, -, hrest, hsender, hc⟩ := h
  rw [← Option.not_isSome_iff_eq_none]
  intro hcounted
  obtain ⟨m, hm⟩ := Option.isSome_iff_exists.mp hcounted
  obtain ⟨e', p, sender', blank, body, hread', -, hsender', -, hplain, hrest', -⟩ :=
    readEntry_of_header hU hline hm
  obtain rfl : e = e' := Option.some.inj (hread.symm.trans hread')
  have hnot : ':' ∉ sender' := fun hmem => hsender'.1 (List.mem_append_right _ hmem)
  have hsame : sender ++ ':' :: [c] = sender' ++ ':' :: (blank :: body) := hrest.symm.trans hrest'
  obtain ⟨-, hblank⟩ := split_at_colon hsender.1 hnot hsame
  obtain rfl : c = blank := by simpa using congrArg List.head? hblank
  rw [hc] at hplain
  cases hplain

omit hU in
/-- What the parse reads in the content of a line, `_HEADER_RE` matches. -/
lemma counted_of_content {date clock w sender body : List Char} {blank : Char}
    (h : Headed U line date clock (w ++ (sender ++ ':' :: blank :: body)))
    (hw : (between U).Accepts w) (hsender : IsSender sender) (hblank : isSpace blank = true)
    (hin : isLineBoundary blank = false ∨ body ≠ [] ∨ line = content) :
    ((headerRegex U).firstMatch content).isSome := by
  obtain ⟨kept, hkept, hshort⟩ := hline.exists_append
  have hbody : ∃ body', body = body' ++ kept := by
    rcases hshort with rfl | ⟨c, hc, rfl⟩
    · exact ⟨body, by simp⟩
    · obtain ⟨bracket, comma, gap, hs, -⟩ := h
      rcases List.eq_nil_or_concat body with rfl | ⟨body', d, rfl⟩
      · have hlast : line.getLast? = some blank := by rw [hs]; simp
        have hc' : line.getLast? = some c := by rw [hkept]; simp
        obtain rfl : blank = c := Option.some.inj (hlast.symm.trans hc')
        rcases hin with hplain | hne | hsame
        · rw [hc] at hplain
          cases hplain
        · exact absurd rfl hne
        · simp [hsame] at hkept
      · have hlast : line.getLast? = some d := by
          have hend : line = (bracket ++ (date ++ (comma ++ (gap ++ (clock ++ (w ++ (sender ++
              ':' :: blank :: body'))))))) ++ [d] := by
            rw [hs]
            simp
          rw [hend]
          exact List.getLast?_concat
        have hc' : line.getLast? = some c := by rw [hkept]; simp
        obtain rfl : d = c := Option.some.inj (hlast.symm.trans hc')
        exact ⟨body', by simp⟩
  obtain ⟨body', rfl⟩ := hbody
  have hshape : Headed U (content ++ kept) date clock
      ((w ++ (sender ++ ':' :: blank :: body')) ++ kept) := by
    rw [← hkept]
    simpa using h
  exact firstMatch_of_header hshape.of_append hw hsender hblank

/-- A line that only `_HEADER_RE` reads as a message. -/
lemma counted_of_noSender (h : NoSender U line) (dateFormat : String) :
    ((headerRegex U).firstMatch content).isSome ∧ ¬ StartsMessage U dateFormat line := by
  obtain ⟨e, before, c, blank, body, hread, hrest, hblank, hplain, hbefore, hc⟩ := h
  refine ⟨?_, ?_⟩
  · obtain ⟨clock, t, hheaded, hafter⟩ := headed_of_readEntry hU hline.newline hread
    obtain ⟨seconds, k, hsplit, hseconds, hk, hmarks⟩ := hheaded.marks_before hU
    have hne : k ≠ [] := hmarks.mpr ⟨before, c, by rw [← hafter]; exact hbefore, hc⟩
    obtain ⟨w, v, rfl, hw, hlo, hhi⟩ := marks_cut hk hne
    have hcolon : ':' ∉ v := fun hmem => marks_not_colon hk (List.mem_append_right _ hmem)
    have hshape : Headed U line e.date clock ((seconds ++ w) ++ (v ++ ':' :: blank :: body)) := by
      rw [hsplit, ← hafter, hrest] at hheaded
      simpa using hheaded
    exact counted_of_content hline hshape ⟨seconds, w, rfl, hseconds, hw⟩
      ⟨hcolon, hlo, by omega⟩ hblank (.inl hplain)
  · rintro ⟨e', date, hread', -, hsent⟩
    obtain rfl : e = e' := Option.some.inj (hread.symm.trans hread')
    obtain ⟨sender, blank', body', hsplit, hsender, -⟩ :=
      (senderRegex_isSome (rest_no_newline hU hline hread)).mp hsent
    have hsame : [] ++ ':' :: (blank :: body) = sender ++ ':' :: (blank' :: body') :=
      hrest.symm.trans hsplit
    obtain ⟨rfl, -⟩ := split_at_colon (by simp) hsender.1 hsame
    simpa using hsender.2.1

/-- The two readings agree on a line exactly where it is of neither kind. -/
theorem counted_iff_startsMessage
    (hvalid : ∀ m date, (headerRegex U).firstMatch content = some m → m.group "date" = some date →
      (parseDate U date dateFormat).isSome) :
    (((headerRegex U).firstMatch content).isSome ↔ StartsMessage U dateFormat line) ↔
      ¬ BlankEndsLine U dateFormat line ∧ ¬ NoSender U line := by
  constructor
  · intro hagree
    refine ⟨?_, ?_⟩
    · intro hblank
      have hnot := not_counted_of_blankEndsLine hU hline hblank
      obtain ⟨e, date, sender, c, hread, hdate, hrest, hsender, hc⟩ := hblank
      have hstarts : StartsMessage U dateFormat line := by
        refine ⟨e, date, hread, hdate, ?_⟩
        exact (senderRegex_isSome (rest_no_newline hU hline hread)).mpr
          ⟨sender, c, [], hrest, hsender, isSpace_of_isLineBoundary hc⟩
      have hcounted := hagree.mpr hstarts
      rw [hnot] at hcounted
      cases hcounted
    · intro hnone
      obtain ⟨hcounted, hnot⟩ := counted_of_noSender hU hline hnone dateFormat
      exact hnot (hagree.mp hcounted)
  · rintro ⟨hblank, hnone⟩
    constructor
    · intro hcounted
      obtain ⟨m, hm⟩ := Option.isSome_iff_exists.mp hcounted
      obtain ⟨e, p, sender, blank, body, hread, hdate, hsender, hspace, hplain, hrest, hbefore⟩ :=
        readEntry_of_header hU hline hm
      obtain ⟨date, hparsed⟩ := Option.isSome_iff_exists.mp (hvalid m e.date hm hdate)
      refine ⟨e, date, hread, hparsed, ?_⟩
      refine (senderRegex_isSome (rest_no_newline hU hline hread)).mpr
        ⟨sender, blank, body, hrest, ⟨fun hmem => hsender.1 (List.mem_append_right _ hmem), ?_, ?_⟩,
          hspace⟩
      · rcases sender with _ | ⟨d, sender⟩
        · obtain ⟨before, c, hsplit, hc⟩ := hbefore rfl
          exact absurd ⟨e, before, c, blank, body, hread, hrest, hspace, hplain, hsplit, hc⟩ hnone
        · simp
      · have hlength := hsender.2.2
        rw [List.length_append] at hlength
        omega
    · rintro ⟨e, date, hread, hdate, hsent⟩
      obtain ⟨sender, blank, body, hrest, hsender, hspace⟩ :=
        (senderRegex_isSome (rest_no_newline hU hline hread)).mp hsent
      obtain ⟨clock, t, hheaded, hafter⟩ := headed_of_readEntry hU hline.newline hread
      obtain ⟨w, hw, hsplit⟩ := between_split (U := U) t
      rw [hsplit, ← hafter, hrest] at hheaded
      refine counted_of_content hline hheaded hw hsender hspace ?_
      by_cases hbody : body = []
      · subst hbody
        cases hboundary : isLineBoundary blank with
        | false => exact .inl rfl
        | true => exact absurd ⟨e, date, sender, blank, hread, hdate, hrest, hsender, hboundary⟩ hblank
      · exact .inr (.inl hbody)

end OneLine

/-! ## All lines -/

variable (U) in
/-- The numbers of the lines that `validate_family` counts as headers. -/
def countedLines (text : String) : List ℕ := (headerDates U text).map Prod.snd

lemma mem_countedLines {text : String} {i : ℕ} :
    i + 1 ∈ countedLines U text ↔ ∃ p, (splitLines text.toList)[i]? = some p ∧
      ((headerRegex U).firstMatch p.1).isSome := by
  constructor
  · intro h
    obtain ⟨⟨date, n⟩, hmem, hn⟩ := List.mem_map.mp h
    obtain ⟨⟨p, k⟩, hp, hsome⟩ := List.mem_filterMap.mp hmem
    obtain ⟨m, hm, hrest⟩ := Option.bind_eq_some_iff.mp hsome
    obtain ⟨date', -, hpair⟩ := Option.bind_eq_some_iff.mp hrest
    have hk : k = i + 1 := by
      have hsame : (date', k) = (date, n) := Option.some.inj hpair
      rw [(Prod.mk.inj hsame).2]
      exact hn
    obtain ⟨-, hget⟩ := List.mk_mem_zipIdx_iff_le_and_getElem?_sub.mp hp
    rw [hk, Nat.add_sub_cancel] at hget
    exact ⟨p, hget, Option.isSome_iff_exists.mpr ⟨m, hm⟩⟩
  · rintro ⟨p, hget, hmatch⟩
    obtain ⟨m, hm⟩ := Option.isSome_iff_exists.mp hmatch
    obtain ⟨date, -, -, -, -, -, -, -, -, -, hdate⟩ := header_of_firstMatch hm
    have hp : (p, i + 1) ∈ (splitLines text.toList).zipIdx 1 := by
      rw [List.mk_mem_zipIdx_iff_le_and_getElem?_sub]
      exact ⟨by omega, by rwa [Nat.add_sub_cancel]⟩
    refine List.mem_map.mpr ⟨(date, i + 1), List.mem_filterMap.mpr ⟨_, hp, ?_⟩, rfl⟩
    simp [hm, hdate]

/-- Where the family validates, every header that is counted has a date of it. -/
lemma valid_of_ok {dateFormat text : String} (hok : (validateFamily U text dateFormat).ok = true)
    (p : List Char × List Char) (hp : p ∈ splitLines text.toList) (m : Match) (date : List Char)
    (hm : (headerRegex U).firstMatch p.1 = some m) (hdate : m.group "date" = some date) :
    (parseDate U date dateFormat).isSome := by
  have hnone : (headerDates U text).find? (fun h => (parseDate U h.1 dateFormat).isNone) = none := by
    simp only [validateFamily, Option.isNone_iff_eq_none, decide_eq_true_eq] at hok
    exact hok.2
  rw [List.find?_eq_none] at hnone
  obtain ⟨i, hi⟩ := List.mem_iff_getElem?.mp hp
  have hmem : (p, i + 1) ∈ (splitLines text.toList).zipIdx 1 := by
    rw [List.mk_mem_zipIdx_iff_le_and_getElem?_sub]
    exact ⟨by omega, by rwa [Nat.add_sub_cancel]⟩
  have hheader : (date, i + 1) ∈ headerDates U text :=
    List.mem_filterMap.mpr ⟨_, hmem, by simp [hm, hdate]⟩
  have hvalid := hnone _ hheader
  simpa [Option.isSome_iff_ne_none] using hvalid

lemma foldl_appendBody_start (r : Record) (ls : List SourceLine) :
    (ls.foldl appendBody r).sourceStartOffset = r.sourceStartOffset := by
  induction ls generalizing r with
  | nil => rfl
  | cons l ls ih => rw [List.foldl_cons, ih]; rfl

section Whole

variable {zone : Option Zone} {dateFormat text : String} {records : List (Record × ℕ)}

/-- The lines at which messages start. -/
lemma startsMessage_iff (h : parseTranscript U zone dateFormat text = some records) {l : SourceLine}
    (hl : l ∈ sourceLines text) :
    StartsMessage U dateFormat l.line ↔
      ∃ r ∈ records.map Prod.fst, r.kind = "message" ∧ r.sourceStartOffset = l.start := by
  -- the kind of a section's record is decided by its header
  have hkind {s : SourceLine × List SourceLine} {r : Record}
      (hr : recordOf U zone dateFormat s = some r) :
      r.sourceStartOffset = s.1.start ∧
        (r.kind = "message" ↔ StartsMessage U dateFormat s.1.line) := by
    obtain ⟨opened, hopened, rfl⟩ := recordOf_eq_some.mp hr
    obtain ⟨-, hstart, -⟩ := opening_spec hopened
    obtain ⟨e, date, hheader, hrecord⟩ := opening_eq_some.mp hopened
    obtain ⟨hread, hdate⟩ := headerOf_eq_some.mp hheader
    obtain ⟨hour, minute, second, local', z, -, -, -, rfl⟩ := openRecord_eq_some.mp hrecord
    refine ⟨by rw [foldl_appendBody_start, hstart], ?_⟩
    rw [appendBody_kind, readContent_kind]
    constructor
    · intro hsent
      exact ⟨e, date, hread, hdate, hsent⟩
    · rintro ⟨e', date', hread', -, hsent⟩
      obtain rfl : e = e' := Option.some.inj (hread.symm.trans hread')
      exact hsent
  constructor
  · intro hstarts
    have ⟨e, date, hread, hdate, _⟩ := hstarts
    obtain ⟨s, hs, rfl⟩ := Sections.exists_section_of_head hl
      (isHeader_iff.mpr ⟨e, date, hread, hdate⟩)
    obtain ⟨r, hr, hmade⟩ := exists_record_of_section h hs
    obtain ⟨hstart, hmessage⟩ := hkind hmade
    exact ⟨r, List.mem_of_mem_filter hr, hmessage.mpr hstarts, hstart⟩
  · rintro ⟨r, hr, hmessage, hstart⟩
    have hevidence : r ∈ evidenceOf records := by
      refine List.mem_filter.mpr ⟨hr, ?_⟩
      rw [← Bool.not_eq_false]
      intro hboundary
      rw [kind_eq_boundary.mpr hboundary] at hmessage
      simp at hmessage
    obtain ⟨s, hs, hmade⟩ := Loop.exists_of_mem_mapM (parse_sections h) hevidence
    obtain ⟨hstart', hmessage'⟩ := hkind hmade
    have hs' := Sections.mem_of_mem_section hs List.mem_cons_self
    rw [sourceLine_eq_of_start hl hs' (hstart.symm.trans hstart')]
    exact hmessage'.mp hmessage

/-- The two readings agree on a text exactly where no line of it is of either kind. -/
theorem headers_agree_iff (hU : PlainDigits U)
    (hok : (validateFamily U text dateFormat).ok = true)
    (h : parseTranscript U zone dateFormat text = some records) :
    (∀ (i : ℕ) (l : SourceLine), (sourceLines text)[i]? = some l →
      (i + 1 ∈ countedLines U text ↔
        ∃ r ∈ records.map Prod.fst, r.kind = "message" ∧ r.sourceStartOffset = l.start)) ↔
    ∀ l ∈ sourceLines text, ¬ BlankEndsLine U dateFormat l.line ∧ ¬ NoSender U l.line := by
  have hvalid := valid_of_ok hok
  have hpoint {i : ℕ} {l : SourceLine} (hl : (sourceLines text)[i]? = some l) :
      (i + 1 ∈ countedLines U text ↔
        ∃ r ∈ records.map Prod.fst, r.kind = "message" ∧ r.sourceStartOffset = l.start) ↔
      ¬ BlankEndsLine U dateFormat l.line ∧ ¬ NoSender U l.line := by
    have hline : ((splitLines text.toList).map stripped)[i]? = some l.line := by
      rw [← sourceLines_map_line, List.getElem?_map, hl]
      rfl
    rw [List.getElem?_map] at hline
    obtain ⟨p, hp, hstripped⟩ := Option.map_eq_some_iff.mp hline
    have hmem := List.mem_of_getElem? hp
    have hcounted : i + 1 ∈ countedLines U text ↔ ((headerRegex U).firstMatch p.1).isSome := by
      rw [mem_countedLines]
      constructor
      · rintro ⟨p', hp', hmatch⟩
        obtain rfl : p = p' := Option.some.inj (hp.symm.trans hp')
        exact hmatch
      · intro hmatch
        exact ⟨p, hp, hmatch⟩
    rw [hcounted, ← startsMessage_iff h (List.mem_of_getElem? hl), ← hstripped]
    exact counted_iff_startsMessage hU (splitLine_stripped hmem) (hvalid p hmem)
  constructor
  · intro hagree l hl
    obtain ⟨i, hi⟩ := List.mem_iff_getElem?.mp hl
    exact (hpoint hi).mp (hagree i l hi)
  · intro hneither i l hl
    exact (hpoint hl).mpr (hneither l (List.mem_of_getElem? hl))

lemma plainDigits_ascii : PlainDigits ascii := by
  intro c hc
  have hrange : 48 ≤ c.toNat ∧ c.toNat < 58 := by
    by_contra hnot
    simp [Unicode.isDecimal, ascii, hnot] at hc
  refine ⟨?_, ?_⟩
  · simp only [isSpace, decide_eq_false_iff_not]
    omega
  · intro hmem
    have hmarks : ∀ d ∈ "[]/.-–:,APapMm".toList, ¬ (48 ≤ d.toNat ∧ d.toNat < 58) :=
      forall_mem_of_all (by decide)
    exact hmarks c hmem hrange

/-- Two messages and a system line. -/
def agreeing : String :=
  "13/04/2026, 5:32 pm - Mona: hi\n13/04/2026, 5:33 pm - Mona left\n13/04/2026, 17:34 - Ali: b\n"

theorem headers_agree_iff_agreeing :
    (validateFamily ascii agreeing "DMY").ok = true ∧
    (parseTranscript ascii (some .utc) "DMY" agreeing).isSome ∧
    ∀ l ∈ sourceLines agreeing, ¬ BlankEndsLine ascii "DMY" l.line ∧ ¬ NoSender ascii l.line := by
  have hok : (validateFamily ascii agreeing "DMY").ok = true := by decide
  have hparsed : ∃ records ∈ parseTranscript ascii (some .utc) "DMY" agreeing,
      ∀ q ∈ (sourceLines agreeing).zipIdx, (q.2 + 1 ∈ countedLines ascii agreeing ↔
        ∃ r ∈ records.map Prod.fst, r.kind = "message" ∧ r.sourceStartOffset = q.1.start) := by
    decide
  obtain ⟨records, hrecords, hagree⟩ := hparsed
  have hrecords : parseTranscript ascii (some .utc) "DMY" agreeing = some records := hrecords
  refine ⟨hok, by rw [hrecords]; rfl, (headers_agree_iff plainDigits_ascii hok hrecords).mp ?_⟩
  intro i l hl
  exact hagree (l, i) (List.mk_mem_zipIdx_iff_getElem?.mpr hl)

/-- A message, a line that only `_HEADER_RE` matches, and a message that it does not. -/
def disagreeing : String :=
  "13/04/2026, 5:32 pm - Ali: hi\n13/04/2026, 5:33 pm: hello\n13/04/2026, 5:34 pm - Mona:\u2028hey\n"

theorem headers_disagree :
    (validateFamily ascii disagreeing "DMY").ok = true ∧
    countedLines ascii disagreeing = [1, 2] ∧
    ∃ records, parseTranscript ascii (some .utc) "DMY" disagreeing = some records ∧
      ¬ ∀ (i : ℕ) (l : SourceLine), (sourceLines disagreeing)[i]? = some l →
        (i + 1 ∈ countedLines ascii disagreeing ↔
          ∃ r ∈ records.map Prod.fst, r.kind = "message" ∧ r.sourceStartOffset = l.start) := by
  have hcounted : countedLines ascii disagreeing = [1, 2] := by decide
  have hparsed : ∃ records ∈ parseTranscript ascii (some .utc) "DMY" disagreeing,
      (∀ r ∈ records.map Prod.fst, r.kind = "message" → r.sourceStartOffset ≠ 30) ∧
      ∃ l ∈ (sourceLines disagreeing)[1]?, l.start = 30 := by
    decide
  obtain ⟨records, hrecords, hnone, l, hl, hstart⟩ := hparsed
  refine ⟨by decide, hcounted, records, hrecords, fun hagree => ?_⟩
  obtain ⟨r, hr, hmessage, hr'⟩ := (hagree 1 l hl).mp (by rw [hcounted]; simp)
  exact hnone r hr hmessage (hr'.trans hstart)

end Whole

end WhatsVault.Importers
