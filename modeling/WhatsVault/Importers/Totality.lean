import WhatsVault.Importers.Parse
import WhatsVault.Library.Loop

/-!
# When a transcript can be parsed

A header's time token is accepted by `_TIME`, so `_TIME_RE` reads three numbers off it
(`parseTime_isSome`).  A line therefore raises exactly where it is a header with a valid date and an
impossible clock time (`parseLine_isSome`), and one such line makes the whole text raise
(`parse_surfaces_iff`).
-/

namespace WhatsVault.Importers

open Regex

variable {U : Unicode}

/-! ## The tokens of a header -/

lemma entryRegex_captures : (entryRegex U).captures =
    [("date", dateToken U), ("time", timeToken U), ("rest", many (fun c => c ≠ '\n') 0 none true)] :=
  rfl

lemma timeRegex_captures : (timeRegex U).captures =
    [("1", digits U 1 2), ("2", digits U 2 2), ("3", digits U 2 2), ("4", oneOf "APap"),
      ("5", oneOf "Mm")] := rfl

lemma timeRegex_mandatory : (timeRegex U).mandatory = ["1", "2"] := rfl

lemma readEntry_time {line : List Char} {e : Entry} (h : readEntry U line = some e) :
    (timeToken U).Accepts e.time := by
  unfold readEntry at h
  obtain ⟨em, hem, hgroups⟩ := Option.bind_eq_some_iff.mp h
  obtain ⟨date, -, hgroups⟩ := Option.bind_eq_some_iff.mp hgroups
  obtain ⟨time, htime, hgroups⟩ := Option.bind_eq_some_iff.mp hgroups
  obtain ⟨rest, -, he⟩ := Option.bind_eq_some_iff.mp hgroups
  obtain rfl : ⟨date, time, rest⟩ = e := Option.some.inj he
  obtain ⟨r, hr, haccepts⟩ := group_accepts (mem_of_firstMatch hem) htime
  rw [entryRegex_captures] at hr
  simp only [List.mem_cons, Prod.mk.injEq, String.reduceEq, false_and, true_and, List.not_mem_nil,
    or_false, false_or] at hr
  rwa [hr] at haccepts

/-- What `\d{lo,hi}` captures is a number. -/
lemma int_isSome_of_digits {lo hi : ℕ} {w : List Char} (hlo : 0 < lo)
    (h : (digits U lo hi).Accepts w) : (U.int w).isSome := by
  obtain ⟨hall, hlength, -⟩ := h
  have hne : w ≠ [] := List.ne_nil_of_length_pos (by omega)
  exact Unicode.int_isSome hne hall

/-- A time token starts with a time of the least precision. -/
lemma timeRegex_firstMatch {tstr : List Char} (h : (timeToken U).Accepts tstr) :
    ((timeRegex U).firstMatch tstr).isSome := by
  obtain ⟨hour, rest, rfl, hhour, colon, rest, rfl, hcolon, minute, rest, rfl, hminute, -⟩ := h
  have hshort : (timeRegex U).Accepts (hour ++ (colon ++ (minute ++ []))) := by
    refine ⟨hour, _, rfl, hhour, colon, _, rfl, hcolon, minute, [], rfl, hminute, [], [], rfl,
      .inr rfl, [], [], rfl, ?_, [], [], rfl, .inr rfl, [], [], rfl, .inr rfl, .inr rfl⟩
    exact ⟨by simp, le_refl 0, by simp⟩
  have hfree : (timeRegex U).EosFree := by
    simp [timeRegex, digits, oneOf, spaces, EosFree]
  have hmatch := firstMatch_isSome hfree hshort rest
  simpa using hmatch

theorem parseTime_isSome {tstr : List Char} (h : (timeToken U).Accepts tstr) :
    (parseTime U tstr).isSome := by
  obtain ⟨m, hm⟩ := Option.isSome_iff_exists.mp (timeRegex_firstMatch h)
  have hmem := mem_of_firstMatch hm
  have hnumber {name : String} {w : List Char} (hname : name ∈ ["1", "2", "3"])
      (hw : m.group name = some w) : (U.int w).isSome := by
    obtain ⟨r, hr, haccepts⟩ := group_accepts hmem hw
    rw [timeRegex_captures] at hr
    have hdigits : r = digits U 1 2 ∨ r = digits U 2 2 := by
      simp only [List.mem_cons, List.not_mem_nil, or_false] at hname
      rcases hname with rfl | rfl | rfl
      · simp_all
      · simp_all
      · simp_all
    rcases hdigits with rfl | rfl
    · exact int_isSome_of_digits (by omega) haccepts
    · exact int_isSome_of_digits (by omega) haccepts
  have hcaptured (name : String) (hname : name ∈ ["1", "2"]) :
      ∃ n, (m.group name).bind U.int = some n := by
    obtain ⟨w, hw⟩ := Option.isSome_iff_exists.mp
      (group_isSome _ hmem (timeRegex_mandatory (U := U) ▸ hname))
    obtain ⟨n, hn⟩ := Option.isSome_iff_exists.mp
      (hnumber (List.mem_append_left ["3"] hname) hw)
    exact ⟨n, by rw [hw, Option.bind_some, hn]⟩
  obtain ⟨hour, hhour⟩ := hcaptured "1" (by simp)
  obtain ⟨minute, hminute⟩ := hcaptured "2" (by simp)
  have hsecond : ∃ n, (m.group "3").elim (some 0) U.int = some n := by
    rcases hthird : m.group "3" with _ | w
    · exact ⟨0, rfl⟩
    · exact Option.isSome_iff_exists.mp (hnumber (by simp) hthird)
  obtain ⟨second, hsecond⟩ := hsecond
  simp [parseTime, hm, hhour, hminute, hsecond]

/-! ## One line -/

lemma datetime_isSome {date : Date} {hour minute second : ℕ} :
    (datetime date hour minute second).isSome ↔ hour ≤ 23 ∧ minute ≤ 59 ∧ second ≤ 59 := by
  unfold datetime
  split
  · rename_i hvalid
    simpa using hvalid
  · rename_i hinvalid
    simpa using hinvalid

/-- A header with a valid date raises exactly where its clock time is impossible. -/
lemma openRecord_isSome {z : Zone} {date : Date} {e : Entry} {l : SourceLine}
    (h : readEntry U l.line = some e) :
    (openRecord U (some z) date e l).isSome ↔ clockImpossible U e = false := by
  obtain ⟨⟨hour, minute, second⟩, htime⟩ :=
    Option.isSome_iff_exists.mp (parseTime_isSome (readEntry_time h))
  have himpossible : clockImpossible U e = false ↔
      (datetime date hour minute second).isSome := by
    rw [datetime_isSome]
    unfold clockImpossible
    rw [htime, Option.any_some, decide_eq_false_iff_not]
    omega
  rw [himpossible]
  rcases hlocal : datetime date hour minute second with _ | local'
  · simp [openRecord, htime, hlocal]
  · simp [openRecord, htime, hlocal]

/-- A line that starts like a header of a valid date, at a time no clock shows. -/
def BadClock (U : Unicode) (dateFormat : String) (l : SourceLine) : Prop :=
  ∃ e, readEntry U l.line = some e ∧ (parseDate U e.date dateFormat).isSome ∧
    clockImpossible U e = true

lemma parseLine_isSome {z : Zone} {dateFormat : String} (s : Assembly) (l : SourceLine) :
    (parseLine U (some z) dateFormat s l).isSome ↔ ¬ BadClock U dateFormat l := by
  unfold parseLine BadClock
  rcases hentry : readEntry U l.line with _ | e
  · simp
  rcases hdate : parseDate U e.date dateFormat with _ | date
  · simp [hdate]
  have hopen : (openRecord U (some z) date e l).isSome ↔ clockImpossible U e = false :=
    openRecord_isSome hentry
  rcases hrecord : openRecord U (some z) date e l with _ | opened
  · rw [hrecord] at hopen
    simpa [hdate, hrecord] using hopen
  · rw [hrecord] at hopen
    simpa [hdate, hrecord] using hopen

/-- What was recorded stays recorded. -/
lemma parseLine_records {zone : Option Zone} {dateFormat : String} {s s' : Assembly} {l : SourceLine}
    (h : parseLine U zone dateFormat s l = some s') {r : Record} (hr : r ∈ s.records) :
    r ∈ s'.records := by
  unfold parseLine at h
  split at h
  · split at h
    · obtain ⟨opened, -, hs'⟩ := Option.bind_eq_some_iff.mp h
      rw [← Option.some.inj hs']
      exact List.mem_append_left _ hr
    · rw [← Option.some.inj h]
      exact List.mem_append_left _ hr
  · rw [← Option.some.inj h]
    exact hr

/-- A header with an impossible date is surfaced. -/
lemma parseLine_boundary {zone : Option Zone} {dateFormat : String} {s s' : Assembly}
    {l : SourceLine} {e : Entry} (h : parseLine U zone dateFormat s l = some s')
    (he : readEntry U l.line = some e) (hdate : parseDate U e.date dateFormat = none) :
    boundary l ∈ s'.records := by
  simp only [parseLine, he, hdate, Option.some.injEq] at h
  rw [← h]
  simp

/-! ## The whole text -/

/-- `parse_transcript` goes through exactly where no line is a header with a valid date and an
impossible clock time. -/
theorem parse_isSome_iff {z : Zone} {dateFormat text : String} :
    (parseTranscript U (some z) dateFormat text).isSome ↔
      ∀ l ∈ sourceLines text, ¬ BadClock U dateFormat l := by
  rw [← Loop.isSome_iff (f := parseLine U (some z) dateFormat) parseLine_isSome ⟨[], none⟩]
  unfold parseTranscript
  rcases (sourceLines text).foldlM (parseLine U (some z) dateFormat) ⟨[], none⟩ with _ | s
  · simp
  · simp

/-- Every header-shaped line with an impossible date is an ambiguous boundary, under its offsets. -/
theorem boundary_of_impossible_date {zone : Option Zone} {dateFormat text : String}
    {records : List (Record × ℕ)} (h : parseTranscript U zone dateFormat text = some records)
    {l : SourceLine} (hl : l ∈ sourceLines text) {e : Entry} (he : readEntry U l.line = some e)
    (hdate : parseDate U e.date dateFormat = none) : boundary l ∈ records.map Prod.fst := by
  obtain ⟨s, hs, hrecords⟩ := Option.bind_eq_some_iff.mp h
  have hall := Loop.traces
    (Q := fun (l : SourceLine) (s : Assembly) => ∀ e, readEntry U l.line = some e →
      parseDate U e.date dateFormat = none → boundary l ∈ s.records)
    (fun s l s' hstep e he hdate => parseLine_boundary hstep he hdate)
    (fun s _ s' l hstep hQ e he hdate => parseLine_records hstep (hQ e he hdate)) hs l hl e he hdate
  rw [← Option.some.inj hrecords, List.zipIdx_map_fst]
  exact List.mem_append_left _ hall

/-- The parse returns, and a header-shaped line with an impossible clock time is surfaced as one with
an impossible date is. -/
def Surfaces (U : Unicode) (zone : Option Zone) (dateFormat text : String) : Prop :=
  ∃ records, parseTranscript U zone dateFormat text = some records ∧
    ∀ l ∈ sourceLines text, ∀ e, readEntry U l.line = some e → clockImpossible U e = true →
      boundary l ∈ records.map Prod.fst

/-- A parse under a known zone is total and surfaces every impossible clock time exactly where only
headers with an impossible date carry one. -/
theorem parse_surfaces_iff (U : Unicode) (z : Zone) (dateFormat text : String) :
    Surfaces U (some z) dateFormat text ↔
      ∀ l ∈ sourceLines text, ∀ e, readEntry U l.line = some e → clockImpossible U e = true →
        parseDate U e.date dateFormat = none := by
  constructor
  · rintro ⟨records, hrecords, -⟩ l hl e he himpossible
    have hgood := parse_isSome_iff.mp (Option.isSome_iff_exists.mpr ⟨records, hrecords⟩) l hl
    rw [← Option.not_isSome_iff_eq_none]
    intro hdate
    exact hgood ⟨e, he, hdate, himpossible⟩
  · intro hgood
    have hsome : (parseTranscript U (some z) dateFormat text).isSome := by
      refine parse_isSome_iff.mpr ?_
      rintro l hl ⟨e, he, hdate, himpossible⟩
      rw [hgood l hl e he himpossible] at hdate
      simp at hdate
    obtain ⟨records, hrecords⟩ := Option.isSome_iff_exists.mp hsome
    refine ⟨records, hrecords, fun l hl e he himpossible => ?_⟩
    exact boundary_of_impossible_date hrecords hl he (hgood l hl e he himpossible)

/-- `str` on ASCII. -/
def ascii : Unicode where
  decimal c := if h : 48 ≤ c.toNat ∧ c.toNat < 58 then some ⟨c.toNat - 48, by omega⟩ else none
  lower s := String.ofList (s.toList.map Char.toLower)

/-- One line at 25:00 makes the whole text raise. -/
theorem impossible_hour_raises :
    parseTranscript ascii (some .utc) "DMY"
      "13/04/2026, 5:32 pm - Mona: hello\n13/04/2026, 25:00 - see you then\n" = none ∧
    ¬ Surfaces ascii (some .utc) "DMY"
      "13/04/2026, 5:32 pm - Mona: hello\n13/04/2026, 25:00 - see you then\n" := by
  have hraises : parseTranscript ascii (some .utc) "DMY"
      "13/04/2026, 5:32 pm - Mona: hello\n13/04/2026, 25:00 - see you then\n" = none := by
    decide +kernel
  refine ⟨hraises, ?_⟩
  rintro ⟨records, hrecords, -⟩
  rw [hraises] at hrecords
  cases hrecords

end WhatsVault.Importers
