import WhatsVault.Importers.Lines
import WhatsVault.Importers.Totality
import WhatsVault.Library.Sections

/-!
# The spans of a transcript

A valid header, one whose date is a date of the family, opens a record, and the record goes on to the
next valid header: the evidence of a transcript is one record for each section of its lines
(`parse_sections`).  The lines tile the text, so the spans of the evidence tile it from the first
valid header on, and a boundary, which is one line, is inside one of them or before them all
(`offsets_partition`).
-/

namespace WhatsVault.Importers

open Regex Tiling

variable (U : Unicode)

/-! ## Headers -/

/-- A header with a date of the family. -/
def headerOf (dateFormat : String) (l : SourceLine) : Option (Entry × Date) := do
  let e ← readEntry U l.line
  let date ← parseDate U e.date dateFormat
  pure (e, date)

def isHeader (dateFormat : String) (l : SourceLine) : Bool := (headerOf U dateFormat l).isSome

/-- The record that a line opens. -/
def opening (zone : Option Zone) (dateFormat : String) (l : SourceLine) : Option Record := do
  let (e, date) ← headerOf U dateFormat l
  openRecord U zone date e l

/-- The lines before the first valid header, and each valid header with the lines up to the next. -/
def sectionsOf (dateFormat text : String) : List SourceLine × List (SourceLine × List SourceLine) :=
  Sections.split (isHeader U dateFormat) (sourceLines text)

/-- The record that a section makes. -/
def recordOf (zone : Option Zone) (dateFormat : String) (s : SourceLine × List SourceLine) :
    Option Record :=
  Sections.made (opening U zone dateFormat) appendBody s

/-- A record of messages or of system lines, and no boundary. -/
def Record.isEvidence (r : Record) : Bool :=
  match r.content with
  | .ambiguousBoundary _ => false
  | _ => true

/-- The message and system records, in the order of their `source_ordinal`. -/
def evidenceOf (records : List (Record × ℕ)) : List Record :=
  (records.map Prod.fst).filter Record.isEvidence

variable {U}

/-! ## One line -/

lemma headerOf_eq_some {dateFormat : String} {l : SourceLine} {e : Entry} {date : Date} :
    headerOf U dateFormat l = some (e, date) ↔
      readEntry U l.line = some e ∧ parseDate U e.date dateFormat = some date := by
  simp only [headerOf, Option.bind_eq_bind, Option.bind_eq_some_iff, Option.pure_def,
    Option.some.injEq, Prod.mk.injEq]
  constructor
  · rintro ⟨e', he, date', hdate, rfl, rfl⟩
    exact ⟨he, hdate⟩
  · rintro ⟨he, hdate⟩
    exact ⟨e, he, date, hdate, rfl, rfl⟩

lemma isHeader_iff {dateFormat : String} {l : SourceLine} :
    isHeader U dateFormat l = true ↔
      ∃ e date, readEntry U l.line = some e ∧ parseDate U e.date dateFormat = some date := by
  simp only [isHeader, Option.isSome_iff_exists, Prod.exists, headerOf_eq_some]

lemma openRecord_eq_some {zone : Option Zone} {date : Date} {e : Entry} {l : SourceLine}
    {r : Record} :
    openRecord U zone date e l = some r ↔
      ∃ hour minute second local' z, parseTime U e.time = some (hour, minute, second) ∧
        datetime date hour minute second = some local' ∧ zone = some z ∧
        r = ⟨l.start, l.stop,
          readContent U ⟨date, hour, minute, second, classifyLocal z local'⟩ e.rest⟩ := by
  simp only [openRecord, Option.bind_eq_bind, Option.bind_eq_some_iff, Prod.exists, Option.pure_def,
    Option.some.injEq]
  constructor
  · rintro ⟨hour, minute, second, htime, local', hlocal, z, hz, rfl⟩
    exact ⟨hour, minute, second, local', z, htime, hlocal, hz, rfl⟩
  · rintro ⟨hour, minute, second, local', z, htime, hlocal, hz, rfl⟩
    exact ⟨hour, minute, second, htime, local', hlocal, z, hz, rfl⟩

lemma opening_eq_some {zone : Option Zone} {dateFormat : String} {l : SourceLine} {r : Record} :
    opening U zone dateFormat l = some r ↔
      ∃ e date, headerOf U dateFormat l = some (e, date) ∧ openRecord U zone date e l = some r := by
  simp only [opening, Option.bind_eq_bind, Option.bind_eq_some_iff, Prod.exists]

/-- All that a turn of the loop can do. -/
lemma parseLine_cases {zone : Option Zone} {dateFormat : String} {s s' : Assembly} {l : SourceLine}
    (h : parseLine U zone dateFormat s l = some s') :
    (∃ r, opening U zone dateFormat l = some r ∧ s' = ⟨s.records ++ s.cur.toList, some r⟩) ∨
      isHeader U dateFormat l = false ∧ s'.cur = s.cur.map (fun r => appendBody r l) ∧
        (s'.records = s.records ∨ s'.records = s.records ++ [boundary l]) := by
  unfold parseLine at h
  rcases hentry : readEntry U l.line with _ | e
  · rw [hentry] at h
    have hnot : isHeader U dateFormat l = false := by simp [isHeader, headerOf, hentry]
    exact .inr ⟨hnot, by rw [← Option.some.inj h], .inl (by rw [← Option.some.inj h])⟩
  rcases hdate : parseDate U e.date dateFormat with _ | date
  · simp only [hentry, hdate, Option.some.injEq] at h
    have hnot : isHeader U dateFormat l = false := by simp [isHeader, headerOf, hentry, hdate]
    exact .inr ⟨hnot, by rw [← h], .inr (by rw [← h])⟩
  · simp only [hentry, hdate] at h
    obtain ⟨r, hr, hs'⟩ := Option.bind_eq_some_iff.mp h
    have hopens := opening_eq_some.mpr ⟨e, date, headerOf_eq_some.mpr ⟨hentry, hdate⟩, hr⟩
    exact .inl ⟨r, hopens, (Option.some.inj hs').symm⟩

lemma isHeader_of_opening {zone : Option Zone} {dateFormat : String} {l : SourceLine} {r : Record}
    (h : opening U zone dateFormat l = some r) : isHeader U dateFormat l = true := by
  obtain ⟨e, date, hheader, -⟩ := opening_eq_some.mp h
  exact Option.isSome_iff_exists.mpr ⟨_, hheader⟩

lemma readContent_isEvidence (start stop : ℕ) (time : HeaderTime) (rest : List Char) :
    Record.isEvidence ⟨start, stop, readContent U time rest⟩ = true := by
  unfold readContent
  dsimp only
  split
  · rfl
  · rfl

/-- What a header opens has the offsets of its line. -/
lemma opening_spec {zone : Option Zone} {dateFormat : String} {l : SourceLine} {r : Record}
    (h : opening U zone dateFormat l = some r) :
    r.isEvidence = true ∧ r.sourceStartOffset = l.start ∧ r.sourceEndOffset = l.stop := by
  obtain ⟨e, date, -, hopen⟩ := opening_eq_some.mp h
  obtain ⟨hour, minute, second, local', z, -, -, -, rfl⟩ := openRecord_eq_some.mp hopen
  exact ⟨readContent_isEvidence _ _ _ _, rfl, rfl⟩

@[simp] lemma appendBody_isEvidence (r : Record) (l : SourceLine) :
    (appendBody r l).isEvidence = r.isEvidence := by
  obtain ⟨start, stop, content⟩ := r
  cases content with
  | message time sender body mediaState => rfl
  | system time known text => rfl
  | ambiguousBoundary text => rfl

@[simp] lemma boundary_isEvidence (l : SourceLine) : (boundary l).isEvidence = false := rfl

/-! ## Kinds -/

lemma appendBody_kind (r : Record) (ls : List SourceLine) :
    (ls.foldl appendBody r).kind = r.kind := by
  induction ls generalizing r with
  | nil => rfl
  | cons l ls ih =>
    rw [List.foldl_cons, ih]
    obtain ⟨start, stop, content⟩ := r
    cases content with
    | message time sender body mediaState => rfl
    | system time known text => rfl
    | ambiguousBoundary text => rfl

lemma readContent_kind (start stop : ℕ) (time : HeaderTime) (rest : List Char) :
    Record.kind ⟨start, stop, readContent U time rest⟩ = "message" ↔
      (senderRegex.firstMatch rest).isSome := by
  unfold readContent
  rcases hfirst : senderRegex.firstMatch rest with _ | m
  · by_cases hknown : isKnownSystem U (String.ofList rest) = true
    · simp [Record.kind, hknown]
    · simp [Record.kind, hknown]
  · have hmem := mem_of_firstMatch hfirst
    obtain ⟨sender, hsender⟩ := Option.isSome_iff_exists.mp
      (group_isSome "sender" hmem (by simp [senderRegex, mandatory]))
    obtain ⟨body, hbody⟩ := Option.isSome_iff_exists.mp
      (group_isSome "body" hmem (by simp [senderRegex, oneOf, mandatory]))
    simp [Record.kind, hsender, hbody]

/-! ## The whole transcript -/

/-- What is open is evidence. -/
def OpenIsEvidence (s : Assembly) : Prop := ∀ r ∈ s.cur, r.isEvidence = true

def putAway (s : Assembly) : List Record := s.records.filter Record.isEvidence

section Turn

variable {zone : Option Zone} {dateFormat : String} {s s' : Assembly} {l : SourceLine}

lemma openIsEvidence_parseLine (hs : OpenIsEvidence s)
    (h : parseLine U zone dateFormat s l = some s') : OpenIsEvidence s' := by
  rcases parseLine_cases h with ⟨opened, hopened, rfl⟩ | ⟨-, hcur, -⟩
  · intro r hr
    obtain rfl := Option.some.inj hr
    exact (opening_spec hopened).1
  · intro r hr
    rw [hcur] at hr
    obtain ⟨r', hr', rfl⟩ := Option.map_eq_some_iff.mp hr
    rw [appendBody_isEvidence]
    exact hs r' hr'

lemma parseLine_header (hs : OpenIsEvidence s) (hl : isHeader U dateFormat l = true)
    (h : parseLine U zone dateFormat s l = some s') :
    ∃ r, opening U zone dateFormat l = some r ∧ putAway s' = putAway s ++ s.cur.toList ∧
      s'.cur = some r := by
  rcases parseLine_cases h with ⟨opened, hopened, rfl⟩ | ⟨hnot, -, -⟩
  · refine ⟨opened, hopened, ?_, rfl⟩
    have hcur : s.cur.toList.filter Record.isEvidence = s.cur.toList := by
      rw [List.filter_eq_self]
      intro r hr
      exact hs r (Option.mem_toList.mp hr)
    rw [putAway, List.filter_append, hcur]
    rfl
  · rw [hnot] at hl
    cases hl

lemma parseLine_other (hl : isHeader U dateFormat l = false)
    (h : parseLine U zone dateFormat s l = some s') :
    putAway s' = putAway s ∧ s'.cur = s.cur.map fun r => appendBody r l := by
  rcases parseLine_cases h with ⟨opened, hopened, -⟩ | ⟨-, hcur, hrecords⟩
  · rw [isHeader_of_opening hopened] at hl
    cases hl
  · refine ⟨?_, hcur⟩
    unfold putAway
    rcases hrecords with hsame | hmore
    · rw [hsame]
    · rw [hmore, List.filter_append]
      simp

end Turn

/-- The evidence of a transcript is what its sections make. -/
theorem parse_sections {zone : Option Zone} {dateFormat text : String}
    {records : List (Record × ℕ)} (h : parseTranscript U zone dateFormat text = some records) :
    (sectionsOf U dateFormat text).2.mapM (recordOf U zone dateFormat) =
      some (evidenceOf records) := by
  obtain ⟨t, ht, hrecords⟩ := Option.bind_eq_some_iff.mp h
  have hinitial : OpenIsEvidence ⟨[], none⟩ := by simp [OpenIsEvidence]
  have hopen : OpenIsEvidence t :=
    Loop.invariant (fun _ _ _ => openIsEvidence_parseLine) hinitial ht
  obtain ⟨bs, hbs, hall⟩ := Sections.collects (fun _ _ _ => openIsEvidence_parseLine)
    (fun _ _ _ => parseLine_header) (fun _ _ _ _ => parseLine_other) hinitial ht
  have hmade : (sectionsOf U dateFormat text).2.mapM (recordOf U zone dateFormat) = some bs := hbs
  have hcur : t.cur.toList.filter Record.isEvidence = t.cur.toList := by
    rw [List.filter_eq_self]
    intro r hr
    exact hopen r (Option.mem_toList.mp hr)
  rw [hmade, evidenceOf, ← Option.some.inj hrecords, List.zipIdx_map_fst, List.filter_append, hcur]
  simpa [putAway] using hall.symm

/-- What is no evidence is a line. -/
lemma boundary_of_not_isEvidence {zone : Option Zone} {dateFormat text : String}
    {records : List (Record × ℕ)} (h : parseTranscript U zone dateFormat text = some records)
    {r : Record} (hr : r ∈ records.map Prod.fst) (hboundary : r.isEvidence = false) :
    ∃ l ∈ sourceLines text, r = boundary l := by
  obtain ⟨t, ht, hrecords⟩ := Option.bind_eq_some_iff.mp h
  have hinitial : OpenIsEvidence ⟨[], none⟩ := by simp [OpenIsEvidence]
  have hopen : OpenIsEvidence t :=
    Loop.invariant (fun _ _ _ => openIsEvidence_parseLine) hinitial ht
  have hlines := Loop.progress (d := []) (s := ⟨[], none⟩)
    (J := fun done s => OpenIsEvidence s ∧
      ∀ r ∈ s.records, r.isEvidence = false → ∃ l ∈ done, r = boundary l)
    (fun done s l s' hJ hs => ?_) ⟨hinitial, by simp⟩ ht
  · rw [← Option.some.inj hrecords, List.zipIdx_map_fst] at hr
    rcases List.mem_append.mp hr with hr | hr
    · exact hlines.2 r hr hboundary
    · rw [hopen r (Option.mem_toList.mp hr)] at hboundary
      cases hboundary
  · obtain ⟨hcurrent, hdone⟩ := hJ
    refine ⟨openIsEvidence_parseLine hcurrent hs, fun r hr hboundary => ?_⟩
    have hkept (hr : r ∈ s.records) : ∃ l' ∈ done ++ [l], r = boundary l' := by
      obtain ⟨l', hl', hline⟩ := hdone r hr hboundary
      exact ⟨l', List.mem_append_left _ hl', hline⟩
    rcases parseLine_cases hs with ⟨opened, -, rfl⟩ | ⟨-, -, hsame | hmore⟩
    · rcases List.mem_append.mp hr with hr | hr
      · exact hkept hr
      · rw [hcurrent r (Option.mem_toList.mp hr)] at hboundary
        cases hboundary
    · exact hkept (hsame ▸ hr)
    · rw [hmore] at hr
      rcases List.mem_append.mp hr with hr | hr
      · exact hkept hr
      · exact ⟨l, by simp, List.mem_singleton.mp hr⟩

/-! ## Offsets -/

variable (U) in
/-- Where the first valid header starts; the end of the text where there is none. -/
def firstHeader (dateFormat text : String) : ℕ :=
  ((sourceLines text).find? (isHeader U dateFormat)).elim text.length SourceLine.start

/-- A record grows to the end of the lines it is given. -/
lemma foldl_appendBody_offsets {ls : List SourceLine} {r : Record} {stop : ℕ}
    (h : Tiles SourceLine.start SourceLine.stop r.sourceEndOffset ls stop) :
    (ls.foldl appendBody r).sourceStartOffset = r.sourceStartOffset ∧
      (ls.foldl appendBody r).sourceEndOffset = stop := by
  induction ls generalizing r with
  | nil => exact ⟨rfl, h⟩
  | cons l ls ih => exact ih (r := appendBody r l) h.2.2

lemma recordOf_eq_some {zone : Option Zone} {dateFormat : String}
    {s : SourceLine × List SourceLine} {r : Record} :
    recordOf U zone dateFormat s = some r ↔
      ∃ opened, opening U zone dateFormat s.1 = some opened ∧ s.2.foldl appendBody opened = r := by
  unfold recordOf Sections.made
  exact Option.map_eq_some_iff

/-- The record of a section spans its lines. -/
lemma recordOf_offsets {zone : Option Zone} {dateFormat : String}
    {s : SourceLine × List SourceLine} {r : Record} (h : recordOf U zone dateFormat s = some r)
    {start stop : ℕ} (hlines : Tiles SourceLine.start SourceLine.stop start (s.1 :: s.2) stop) :
    r.sourceStartOffset = start ∧ r.sourceEndOffset = stop := by
  obtain ⟨opened, hopened, rfl⟩ := recordOf_eq_some.mp h
  obtain ⟨-, hstart, hstop⟩ := opening_spec hopened
  obtain ⟨hfirst, -, hmore⟩ := hlines
  rw [← hstop] at hmore
  obtain ⟨hsame, hend⟩ := foldl_appendBody_offsets hmore
  exact ⟨by rw [hsame, hstart, hfirst], hend⟩

/-- A span in a span. -/
def Inside (r e : Record) : Prop :=
  e.sourceStartOffset ≤ r.sourceStartOffset ∧ r.sourceEndOffset ≤ e.sourceEndOffset

lemma kind_eq_boundary {r : Record} : r.kind = "ambiguous_boundary" ↔ r.isEvidence = false := by
  obtain ⟨start, stop, content⟩ := r
  cases content with
  | message time sender body mediaState => simp [Record.kind, Record.isEvidence]
  | system time known text => cases known <;> simp [Record.kind, Record.isEvidence]
  | ambiguousBoundary text => simp [Record.kind, Record.isEvidence]

lemma exists_record_of_section {zone : Option Zone} {dateFormat text : String}
    {records : List (Record × ℕ)} (h : parseTranscript U zone dateFormat text = some records)
    {s : SourceLine × List SourceLine} (hs : s ∈ (sectionsOf U dateFormat text).2) :
    ∃ r ∈ evidenceOf records, recordOf U zone dateFormat s = some r :=
  Loop.exists_of_mapM (parse_sections h) hs

section Partition

variable {zone : Option Zone} {dateFormat text : String} {records : List (Record × ℕ)}

/-- The lines before the first valid header end where it starts, and the sections tile the rest. -/
lemma sections_tile (dateFormat text : String) :
    Tiles SourceLine.start SourceLine.stop 0 (sectionsOf U dateFormat text).1
        (firstHeader U dateFormat text) ∧
      Tiles SourceLine.start SourceLine.stop (firstHeader U dateFormat text)
        ((sectionsOf U dateFormat text).2.flatMap fun s => s.1 :: s.2) text.length := by
  have hall := sourceLines_tiles text
  rw [← Sections.leading_append_flatMap (p := isHeader U dateFormat) (sourceLines text)] at hall
  obtain ⟨mid, hleading, hsections⟩ := Tiles.append_iff.mp hall
  have hfirst : firstHeader U dateFormat text = mid := by
    unfold firstHeader
    rw [Sections.find?_eq_head?]
    rcases hcase : (Sections.split (isHeader U dateFormat) (sourceLines text)).2 with _ | ⟨s, rest⟩
    · rw [hcase] at hsections
      exact hsections.symm
    · rw [hcase] at hsections
      exact hsections.1
  rw [hfirst]
  exact ⟨hleading, hsections⟩

lemma evidence_tiles (h : parseTranscript U zone dateFormat text = some records) :
    Tiles Record.sourceStartOffset Record.sourceEndOffset (firstHeader U dateFormat text)
      (evidenceOf records) text.length := by
  have hmade := Loop.mapM_eq_some.mp (parse_sections h)
  have hruns : List.Forall₂
      (fun run r => ∃ s, run = s.1 :: s.2 ∧ recordOf U zone dateFormat s = some r)
      ((sectionsOf U dateFormat text).2.map fun s => s.1 :: s.2) (evidenceOf records) := by
    rw [List.forall₂_map_left_iff]
    exact hmade.imp fun s r hr => ⟨s, rfl, hr⟩
  refine Tiles.merge SourceLine.start SourceLine.stop ?_ hruns ?_
  · rintro run r start stop ⟨s, rfl, hr⟩ hrun
    obtain ⟨hstart, hstop⟩ := recordOf_offsets hr hrun
    exact ⟨hstart, hstop, lt_of_lt_of_le hrun.2.1 hrun.2.2.le⟩
  · rw [← List.flatMap_def]
    exact (sections_tile dateFormat text).2

/-- A line is before the first valid header or inside the record of its section. -/
lemma line_inside (h : parseTranscript U zone dateFormat text = some records) {l : SourceLine}
    (hl : l ∈ sourceLines text) :
    (∃ e ∈ evidenceOf records, Inside (boundary l) e) ∨ l.stop ≤ firstHeader U dateFormat text := by
  obtain ⟨hleading, hsections⟩ := sections_tile (U := U) dateFormat text
  rcases Sections.mem_cases (p := isHeader U dateFormat) hl with hl | ⟨s, hs, hl⟩
  · exact .inr (hleading.bounds hl).2.2
  · obtain ⟨r, hr, hmade⟩ := exists_record_of_section h hs
    rw [List.flatMap_def] at hsections
    obtain ⟨start, stop, hrun⟩ := hsections.of_mem_flatten (List.mem_map_of_mem hs)
    obtain ⟨hstart, hstop⟩ := recordOf_offsets hmade hrun
    obtain ⟨hlo, -, hhi⟩ := hrun.bounds hl
    refine .inl ⟨r, hr, ?_, ?_⟩
    · rw [hstart]
      exact hlo
    · rw [hstop]
      exact hhi

/-- The evidence partitions the text from the first valid header on, and every boundary is inside
one record of it or before them all. -/
theorem offsets_partition (h : parseTranscript U zone dateFormat text = some records) :
    records.map Prod.snd = List.range records.length ∧
    Tiles Record.sourceStartOffset Record.sourceEndOffset (firstHeader U dateFormat text)
      (evidenceOf records) text.length ∧
    (∀ x, firstHeader U dateFormat text ≤ x → x < text.length →
      ∃! r, r ∈ evidenceOf records ∧ r.sourceStartOffset ≤ x ∧ x < r.sourceEndOffset) ∧
    ∀ r ∈ records.map Prod.fst, r.kind = "ambiguous_boundary" →
      (∃! e, e ∈ evidenceOf records ∧ Inside r e) ∨
        r.sourceEndOffset ≤ firstHeader U dateFormat text := by
  have htiles := evidence_tiles h
  refine ⟨?_, htiles, fun x hlo hhi => htiles.existsUnique hlo hhi, ?_⟩
  · obtain ⟨t, -, hrecords⟩ := Option.bind_eq_some_iff.mp h
    rw [← Option.some.inj hrecords, List.zipIdx_map_snd, List.length_zipIdx, List.range_eq_range']
  · intro r hr hkind
    obtain ⟨l, hl, rfl⟩ := boundary_of_not_isEvidence h hr (kind_eq_boundary.mp hkind)
    rcases line_inside h hl with ⟨e, he, hinside⟩ | hbefore
    · -- a boundary is not empty, so its first character is in one record only
      have hnonempty := ((sourceLines_tiles text).bounds hl).2.1
      have hhi : l.start < text.length :=
        lt_of_lt_of_le hnonempty ((sourceLines_tiles text).bounds hl).2.2
      have hlo : firstHeader U dateFormat text ≤ l.start :=
        le_trans (htiles.bounds he).1 hinside.1
      obtain ⟨only, -, hunique⟩ := htiles.existsUnique hlo hhi
      have hsame {e' : Record} (he' : e' ∈ evidenceOf records) (hin : Inside (boundary l) e') :
          e' = only :=
        hunique e' ⟨he', hin.1, lt_of_lt_of_le hnonempty hin.2⟩
      refine .inl ⟨e, ⟨he, hinside⟩, ?_⟩
      rintro e' ⟨he', hin⟩
      rw [hsame he' hin, hsame he hinside]
    · exact .inr hbefore

/-- Noise, a message with a boundary in it, and another message. -/
def interrupted : String :=
  "noise\n13/04/2026, 5:32 pm - Mona: a\n31/31/2026, 5:32 - b\n14/04/2026, 5:32 - Mona: c"

theorem offsets_partition_interrupted :
    ∃ records, parseTranscript ascii (some .utc) "DMY" interrupted = some records ∧
      (evidenceOf records).length = 2 ∧
      Tiles Record.sourceStartOffset Record.sourceEndOffset (firstHeader ascii "DMY" interrupted)
        (evidenceOf records) interrupted.length := by
  obtain ⟨records, hrecords⟩ :
      ∃ records, parseTranscript ascii (some .utc) "DMY" interrupted = some records ∧
        (evidenceOf records).length = 2 := by
    have hparsed : ∃ records ∈ parseTranscript ascii (some .utc) "DMY" interrupted,
        (evidenceOf records).length = 2 := by
      decide +kernel
    exact hparsed
  exact ⟨records, hrecords.1, hrecords.2, (offsets_partition hrecords.1).2.1⟩

end Partition

end WhatsVault.Importers
