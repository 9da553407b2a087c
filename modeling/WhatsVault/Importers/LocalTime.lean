import Mathlib.Data.Set.Card
import WhatsVault.Importers.Bodies
import WhatsVault.Importers.Export
import WhatsVault.Library.Timeline

/-!
# What a local time means

A zone of the tz database is an offset for each instant and the rule by which `utcoffset` picks one
for a local time (`Pep495`).  `classify_local` never counts the instants that read a local time: it
goes to UTC and back and compares two offsets.  That counts them all the same (`classify_exact`), as
long as `datetime` can hold the times it goes through; where it cannot, the call raises.  The dates a
header can have are far from there (`classifyLocal_of_header`).

The minute `_minute_epoch_ms` finds for a header is made of instants at which the clock shows that
minute (`minuteEpochMs_exact`).
-/

namespace WhatsVault.Importers

open Timeline

/-! ## Zones of the tz database -/

/-- How a `ZoneInfo` with an offset for each instant answers.  With `fold=0` it takes the offset
after the transitions whose later wall time has come, with `fold=1` that after those whose earlier
one has. -/
structure Pep495 (off : ℤ → ℤ) (z : Zone) : Prop where
  fromutc : ∀ u, z.fromutc u = u + off u
  fold₀ : ∀ t, ∃ s, z.utcoffset t false = off s ∧ Passed off (late off) t s
  fold₁ : ∀ t, ∃ s, z.utcoffset t true = off s ∧ Passed off (early off) t s

/-- A `ZoneInfo`: the offset before the first transition, and each transition with the offset from
then on. -/
def zoneInfo (first : ℤ) (transitions : List (ℤ × ℤ)) : Zone where
  utcoffset t fold := wallOffset (if fold then min else max) first transitions t
  fromutc u := u + offsetAt first transitions u

theorem zoneInfo_pep495 {D first : ℤ} {transitions : List (ℤ × ℤ)}
    (h : Entries D first transitions) :
    Pep495 (offsetAt first transitions) (zoneInfo first transitions) where
  fromutc _ := rfl
  fold₀ t := h.passed max (fun _ _ => ⟨min_le_max, le_refl _⟩) t
  fold₁ t := h.passed min (fun _ _ => ⟨le_refl _, min_le_max⟩) t

lemma passed_unique {off wall : ℤ → ℤ} {t s s' : ℤ} (h : Passed off wall t s)
    (h' : Passed off wall t s') : off s = off s' :=
  eq_of_same_side fun T hT => (h T hT).trans (h' T hT).symm

/-! ## Naive datetimes -/

/-- `datetime.min` and `datetime.max`, without microseconds. -/
def minSeconds : LocalSeconds := -62135596800

def maxSeconds : LocalSeconds := 253402300799

def Representable (t : LocalSeconds) : Prop := minSeconds ≤ t ∧ t ≤ maxSeconds

instance (t : LocalSeconds) : Decidable (Representable t) :=
  inferInstanceAs (Decidable (minSeconds ≤ t ∧ t ≤ maxSeconds))

/-- A `datetime` with no zone. -/
structure NaiveDatetime where
  seconds : LocalSeconds
  microsecond : ℕ
  fold : Bool
  representable : Representable seconds
  validMicrosecond : microsecond < 1000000

/-- The result of an addition to a `datetime`, which raises `OverflowError` out of its range. -/
def shifted (t : LocalSeconds) : Option LocalSeconds := if Representable t then some t else none

/-- `classify_local` of any naive datetime; `none` where it raises `OverflowError`. -/
def NaiveDatetime.classifyLocal (z : Zone) (d : NaiveDatetime) : Option DstClass := do
  let utc ← shifted (d.seconds - z.utcoffset d.seconds d.fold)
  let normalised ← shifted (z.fromutc utc)
  -- the microseconds go through unchanged, and `!=` does not look at the fold
  if normalised ≠ d.seconds then pure .nonexistent
  else if z.utcoffset d.seconds false ≠ z.utcoffset d.seconds true then pure .fold
  else pure .unambiguous

/-- Going to UTC and back stays in the range of `datetime`. -/
def NaiveDatetime.InRange (z : Zone) (d : NaiveDatetime) : Prop :=
  Representable (d.seconds - z.utcoffset d.seconds d.fold) ∧
    Representable (z.fromutc (d.seconds - z.utcoffset d.seconds d.fold))

/-- The wall clock at an instant, both in microseconds. -/
def wallClock (off : ℤ → ℤ) (i : ℤ) : ℤ := i + off (i / 1000000) * 1000000

/-- The instants that have a wall clock reading, in microseconds. -/
def instants (off : ℤ → ℤ) (d : NaiveDatetime) : Set ℤ :=
  {i | wallClock off i = d.seconds * 1000000 + d.microsecond}

/-- A second that reads a time has one microsecond that reads it. -/
lemma instants_eq_image (off : ℤ → ℤ) (d : NaiveDatetime) :
    instants off d = (fun u => u * 1000000 + (d.microsecond : ℤ)) '' readings off d.seconds := by
  have hmicro := d.validMicrosecond
  ext i
  simp only [instants, wallClock, readings, Set.mem_ofPred_eq, Set.mem_image]
  constructor
  · intro hread
    have hpart : i % 1000000 = d.microsecond := by omega
    exact ⟨i / 1000000, by omega, by omega⟩
  · rintro ⟨u, hread, rfl⟩
    have hsecond : (u * 1000000 + (d.microsecond : ℤ)) / 1000000 = u := by omega
    rw [hsecond]
    omega

lemma encard_instants (off : ℤ → ℤ) (d : NaiveDatetime) :
    (instants off d).encard = (readings off d.seconds).encard := by
  rw [instants_eq_image]
  apply Function.Injective.encard_image
  intro u v huv
  simp only at huv
  omega

/-! ## Classification -/

section Classification

variable {off : ℤ → ℤ} {D : ℤ} {z : Zone}

/-- What the two offsets of a local time say of its readings. -/
lemma readings_cases (hspaced : Spaced off D) (hz : Pep495 off z) (t : LocalSeconds) :
    (z.utcoffset t false = z.utcoffset t true ∧
        readings off t = {t - z.utcoffset t false}) ∨
      (z.utcoffset t true < z.utcoffset t false ∧
        readings off t = {t - z.utcoffset t false, t - z.utcoffset t true}) ∨
      (z.utcoffset t false < z.utcoffset t true ∧ readings off t = ∅) := by
  obtain ⟨s₀, h₀, hpassed₀⟩ := hz.fold₀ t
  obtain ⟨s₁, h₁, hpassed₁⟩ := hz.fold₁ t
  rw [h₀, h₁]
  rcases lt_trichotomy (off s₀) (off s₁) with hlt | heq | hgt
  · exact .inr (.inr ⟨hlt, readings_of_lt hspaced hpassed₀ hpassed₁ hlt⟩)
  · exact .inl ⟨heq, readings_of_eq hspaced hpassed₀ hpassed₁ heq⟩
  · exact .inr (.inl ⟨hgt, readings_of_gt hspaced hpassed₀ hpassed₁ hgt⟩)

/-- The round trip through UTC comes back where the instant it went to reads the time. -/
lemma Pep495.fromutc_eq_iff (hz : Pep495 off z) (t : LocalSeconds) (fold : Bool) :
    z.fromutc (t - z.utcoffset t fold) = t ↔ t - z.utcoffset t fold ∈ readings off t := by
  rw [hz.fromutc, mem_readings]

lemma encard_pair_of_lt {a b t : ℤ} (h : b < a) : ({t - a, t - b} : Set ℤ).encard = 2 :=
  Set.encard_pair (by omega)

lemma classifyLocal_eq_none {d : NaiveDatetime} : d.classifyLocal z = none ↔ ¬ d.InRange z := by
  unfold NaiveDatetime.classifyLocal NaiveDatetime.InRange shifted
  by_cases hutc : Representable (d.seconds - z.utcoffset d.seconds d.fold)
  · by_cases hback : Representable (z.fromutc (d.seconds - z.utcoffset d.seconds d.fold))
    · simp only [hutc, hback, if_true, Option.bind_eq_bind, Option.bind_some, and_self, not_true]
      split
      · simp
      · split
        · simp
        · simp
    · simp [hutc, hback]
  · simp [hutc]

/-- In range, the class is read off the round trip and the two offsets. -/
lemma classifyLocal_of_inRange {d : NaiveDatetime} (h : d.InRange z) :
    d.classifyLocal z =
      if z.fromutc (d.seconds - z.utcoffset d.seconds d.fold) ≠ d.seconds then some .nonexistent
      else if z.utcoffset d.seconds false ≠ z.utcoffset d.seconds true then some .fold
      else some .unambiguous := by
  unfold NaiveDatetime.classifyLocal shifted
  simp only [h.1, h.2, if_true, Option.bind_eq_bind, Option.bind_some]
  rfl

/-- The class of a local time is the number of instants that read it. -/
lemma classify_cases (hspaced : Spaced off D) (hz : Pep495 off z) {d : NaiveDatetime}
    (h : d.InRange z) :
    (d.classifyLocal z = some .unambiguous ∧ (instants off d).encard = 1) ∨
      (d.classifyLocal z = some .fold ∧ (instants off d).encard = 2) ∨
      (d.classifyLocal z = some .nonexistent ∧ (instants off d).encard = 0) := by
  rw [classifyLocal_of_inRange h, encard_instants]
  have hmem := hz.fromutc_eq_iff d.seconds d.fold
  rcases readings_cases hspaced hz d.seconds with ⟨heq, hreads⟩ | ⟨hgt, hreads⟩ | ⟨hlt, hreads⟩
  · have hback : z.fromutc (d.seconds - z.utcoffset d.seconds d.fold) = d.seconds := by
      rw [hmem, hreads, Set.mem_singleton_iff]
      cases d.fold with
      | false => rfl
      | true => rw [heq]
    refine .inl ⟨?_, ?_⟩
    · rw [if_neg (not_not.mpr hback), if_neg (not_not.mpr heq)]
    · rw [hreads, Set.encard_singleton]
  · have hback : z.fromutc (d.seconds - z.utcoffset d.seconds d.fold) = d.seconds := by
      rw [hmem, hreads, Set.mem_insert_iff, Set.mem_singleton_iff]
      cases d.fold with
      | false => exact .inl rfl
      | true => exact .inr rfl
    refine .inr (.inl ⟨?_, ?_⟩)
    · rw [if_neg (not_not.mpr hback), if_pos (by omega)]
    · rw [hreads]
      exact encard_pair_of_lt hgt
  · refine .inr (.inr ⟨?_, ?_⟩)
    · rw [if_pos]
      intro hback
      rw [hmem, hreads] at hback
      exact hback
    · rw [hreads, Set.encard_empty]

/-- `classify_local` counts the instants that read a local time, and raises exactly where the time in
UTC or its way back is out of range. -/
theorem classify_exact (hspaced : Spaced off D) (hz : Pep495 off z) (d : NaiveDatetime) :
    (d.classifyLocal z = none ↔ ¬ d.InRange z) ∧
      (d.InRange z →
        (d.classifyLocal z = some .unambiguous ↔ (instants off d).encard = 1) ∧
        (d.classifyLocal z = some .fold ↔ (instants off d).encard = 2) ∧
        (d.classifyLocal z = some .nonexistent ↔ (instants off d).encard = 0)) := by
  refine ⟨classifyLocal_eq_none, ?_⟩
  intro h
  rcases classify_cases hspaced hz h with ⟨hclass, hcount⟩ | ⟨hclass, hcount⟩ | ⟨hclass, hcount⟩
  · rw [hclass, hcount]
    decide
  · rw [hclass, hcount]
    decide
  · rw [hclass, hcount]
    decide

end Classification

/-! ## Headers -/

section Headers

variable {off : ℤ → ℤ} {D : ℤ} {z : Zone}

/-- A header with the class its local time has. -/
def Classified (z : Zone) (h : HeaderTime) : Prop :=
  ∃ t, datetime h.date h.hour h.minute h.second = some t ∧ h.dstClass = classifyLocal z t

/-- The wall clock shows the minute of a header at an instant in microseconds. -/
def ShowsMinute (off : ℤ → ℤ) (h : HeaderTime) (i : ℤ) : Prop :=
  ∃ t, datetime h.date h.hour h.minute 0 = some t ∧
    t * 1000000 ≤ wallClock off i ∧ wallClock off i < (t + 60) * 1000000

/-- The 60 seconds from `ms` on are instants that show the minute of a header. -/
def MinuteOf (off : ℤ → ℤ) (h : HeaderTime) (ms : ℤ) : Prop :=
  ∀ i, (fromLocalMinute ms).1 * 1000 ≤ i → i < (fromLocalMinute ms).2 * 1000 → ShowsMinute off h i

/-- The clock time of a header without its seconds. -/
lemma datetime_minute {date : Date} {hour minute second : ℕ} {t : ℤ}
    (h : datetime date hour minute second = some t) :
    datetime date hour minute 0 = some (t - second) ∧ 60 ∣ t - (second : ℤ) ∧ second < 60 := by
  unfold datetime at h ⊢
  split at h
  · rename_i hvalid
    obtain rfl := Option.some.inj h
    rw [if_pos ⟨hvalid.1, hvalid.2.1, by omega⟩]
    refine ⟨?_, by omega, by omega⟩
    rw [Nat.cast_zero, add_zero, add_sub_cancel_right]
  · cases h

/-- The offsets of a time are those of the minute it is in. -/
lemma utcoffset_minute (hwhole : Whole off 60) (hz : Pep495 off z) {t : ℤ} {second : ℕ}
    (hminute : 60 ∣ t - (second : ℤ)) (hsecond : second < 60) (fold : Bool) :
    z.utcoffset (t - second) fold = z.utcoffset t fold := by
  have hstart {wall : ℤ → ℤ} (hwall : ∀ T, IsTransition off T → 60 ∣ wall T) {s : ℤ}
      (hpassed : Passed off wall t s) : Passed off wall (t - second) s := by
    apply Passed.start hwall hminute (by omega : (0 : ℤ) ≤ second) (by omega)
    rwa [sub_add_cancel]
  cases fold with
  | false =>
    obtain ⟨s, hs, hpassed⟩ := hz.fold₀ t
    obtain ⟨s', hs', hpassed'⟩ := hz.fold₀ (t - second)
    rw [hs, hs']
    exact passed_unique hpassed' (hstart (fun T hT => hwhole.dvd_late hT) hpassed)
  | true =>
    obtain ⟨s, hs, hpassed⟩ := hz.fold₁ t
    obtain ⟨s', hs', hpassed'⟩ := hz.fold₁ (t - second)
    rw [hs, hs']
    exact passed_unique hpassed' (hstart (fun T hT => hwhole.dvd_early hT) hpassed)

/-- The minute that starts where the clock reads a whole minute. -/
lemma minuteOf_of_reading (hwhole : Whole off 60) {h : HeaderTime} {t u : ℤ}
    (ht : datetime h.date h.hour h.minute 0 = some t) (hminute : 60 ∣ t)
    (hu : u ∈ readings off t) : MinuteOf off h (u * 1000) := by
  intro i hlo hhi
  simp only [fromLocalMinute] at hlo hhi
  rw [mem_readings] at hu
  have hoff := hwhole.offset u
  have hdvd : 60 ∣ u := by omega
  obtain ⟨d, hd⟩ : ∃ d, i / 1000000 = u + d := ⟨i / 1000000 - u, by omega⟩
  have hsame : off (i / 1000000) = off u := by
    rw [hd]
    exact hwhole.offset_add hdvd (by omega) (by omega)
  have hclock : wallClock off i = i + (t - u) * 1000000 := by
    rw [wallClock, hsame, ← hu, add_sub_cancel_left]
  have hfrom : t * 1000000 ≤ wallClock off i := by omega
  have hto : wallClock off i < (t + 60) * 1000000 := by omega
  exact ⟨t, ht, hfrom, hto⟩

/-- Unless the clock skips it, each fold of a header's minute is a reading of it. -/
lemma readings_minute (hspaced : Spaced off D) (hwhole : Whole off 60) (hz : Pep495 off z)
    {t : ℤ} {second : ℕ} (hminute : 60 ∣ t - (second : ℤ)) (hsecond : second < 60)
    (hclass : classifyLocal z t ≠ .nonexistent) :
    (classifyLocal z t = .unambiguous ∧
        (t - second) - z.utcoffset (t - second) false ∈ readings off (t - second)) ∨
      (classifyLocal z t = .fold ∧ z.utcoffset (t - second) true < z.utcoffset (t - second) false ∧
        ∀ fold, (t - second) - z.utcoffset (t - second) fold ∈ readings off (t - second)) := by
  have hsame := utcoffset_minute hwhole hz hminute hsecond
  have hback : z.fromutc (t - z.utcoffset t false) = t := by
    by_contra hne
    apply hclass
    rw [classifyLocal, if_pos hne]
  rw [hz.fromutc_eq_iff] at hback
  have hcases := readings_cases hspaced hz t
  rcases readings_cases hspaced hz (t - second) with ⟨heq, hreads⟩ | ⟨hgt, hreads⟩ | ⟨hlt, -⟩
  · refine .inl ⟨?_, by rw [hreads]; rfl⟩
    rw [hsame, hsame] at heq
    rw [classifyLocal, if_neg, if_neg (not_not.mpr heq)]
    rwa [not_not, hz.fromutc_eq_iff]
  · refine .inr ⟨?_, hgt, ?_⟩
    · rw [hsame, hsame] at hgt
      rw [classifyLocal, if_neg, if_pos (by omega)]
      rwa [not_not, hz.fromutc_eq_iff]
    · intro fold
      rw [hreads]
      cases fold with
      | false => exact .inl rfl
      | true => exact .inr rfl
  · rw [hsame, hsame] at hlt
    rcases hcases with ⟨heq, -⟩ | ⟨hgt, -⟩ | ⟨-, hreads⟩
    · omega
    · omega
    · rw [hreads] at hback
      exact absurd hback (Set.notMem_empty _)

/-- The larger offset gives the earlier instant. -/
lemma epochMs_lt (t : ℤ) {o o' : ℤ} (h : o < o') : (t - o') * 1000 < (t - o) * 1000 := by
  omega

lemma minuteEpochMs_of_fold {res : List (ℕ × ℤ)} {r : Sent} {fold : Bool} {t : ℤ}
    (hfold : foldOf res r = some fold)
    (ht : datetime r.time.date r.time.hour r.time.minute 0 = some t) :
    minuteEpochMs (some z) res r = some ((t - z.utcoffset t fold) * 1000) := by
  simp [minuteEpochMs, hfold, ht, timestamp]

/-- With resolution 0 or 1 the minute of a header the clock does not skip is a minute the clock
shows, and 0 gives the earlier one. -/
theorem minuteEpochMs_exact (hspaced : Spaced off D) (hwhole : Whole off 60) (hz : Pep495 off z)
    {r : Sent} (hclass : Classified z r.time) (hreal : r.time.dstClass ≠ .nonexistent)
    {res₀ res₁ : List (ℕ × ℤ)} (h₀ : res₀.lookup r.sourceOrdinal = some 0)
    (h₁ : res₁.lookup r.sourceOrdinal = some 1) :
    ∃ ms₀ ms₁, minuteEpochMs (some z) res₀ r = some ms₀ ∧ minuteEpochMs (some z) res₁ r = some ms₁ ∧
      MinuteOf off r.time ms₀ ∧ MinuteOf off r.time ms₁ ∧ ms₀ ≤ ms₁ ∧
      (r.time.dstClass = .fold → ms₀ < ms₁) := by
  obtain ⟨t, ht, hdst⟩ := hclass
  obtain ⟨hstart, hminute, hsecond⟩ := datetime_minute ht
  rw [hdst] at hreal
  rcases readings_minute hspaced hwhole hz hminute hsecond hreal with
    ⟨hplain, hread⟩ | ⟨hfold, hlt, hreads⟩
  · -- the resolution is not looked at
    have hepoch {res : List (ℕ × ℤ)} : minuteEpochMs (some z) res r = _ :=
      minuteEpochMs_of_fold (by rw [foldOf, if_pos (hdst.trans hplain)]) hstart
    have hmade := minuteOf_of_reading hwhole hstart hminute hread
    refine ⟨_, _, hepoch, hepoch, hmade, hmade, le_refl _, ?_⟩
    intro hfold
    rw [hdst, hplain] at hfold
    cases hfold
  · have hne : r.time.dstClass ≠ .unambiguous := by
      rw [hdst, hfold]
      decide
    have hfold₀ : foldOf res₀ r = some false := by simp [foldOf, hne, h₀]
    have hfold₁ : foldOf res₁ r = some true := by simp [foldOf, hne, h₁]
    have hlt' := epochMs_lt (t - r.time.second) hlt
    exact ⟨_, _, minuteEpochMs_of_fold hfold₀ hstart, minuteEpochMs_of_fold hfold₁ hstart,
      minuteOf_of_reading hwhole hstart hminute (hreads false),
      minuteOf_of_reading hwhole hstart hminute (hreads true), le_of_lt hlt', fun _ => hlt'⟩

end Headers

/-! ## The headers of a transcript -/

section Transcripts

variable {U : Unicode} {z : Zone} {dateFormat text : String}

/-- The header of a message: its zone is there, its date is one of the family, and its class is that
of its local time. -/
theorem header_of_message {zone : Option Zone} {records : List (Record × ℕ)}
    (h : parseTranscript U zone dateFormat text = some records) {r : Sent}
    (hr : r ∈ messagesOf records) :
    ∃ z dateStr, zone = some z ∧ parseDate U dateStr dateFormat = some r.time.date ∧
      Classified z r.time := by
  obtain ⟨record, hrecord, hsent⟩ := List.mem_filterMap.mp hr
  unfold sentOf at hsent
  split at hsent
  · rename_i time sender body media hcontent
    obtain rfl := Option.some.inj hsent
    have hevidence : record.1 ∈ evidenceOf records := by
      rw [evidenceOf, List.mem_filter]
      exact ⟨List.mem_map_of_mem hrecord, by rw [Record.isEvidence, hcontent]⟩
    obtain ⟨s, -, hmade⟩ := Loop.exists_of_mem_mapM (parse_sections h) hevidence
    obtain ⟨opened, hopened, heq⟩ := recordOf_eq_some.mp hmade
    obtain ⟨e, date, hheader, hopen⟩ := opening_eq_some.mp hopened
    obtain ⟨hour, minute, second, local', z, -, hlocal, hz, rfl⟩ := openRecord_eq_some.mp hopen
    rw [← heq] at hcontent
    obtain ⟨body', hbody, -⟩ := foldl_appendBody_message hcontent
    simp only [readContent] at hbody
    split at hbody
    · simp only [Content.message.injEq] at hbody
      obtain ⟨rfl, -⟩ := hbody
      exact ⟨z, e.date, hz, (headerOf_eq_some.mp hheader).2, local', hlocal, rfl⟩
    · cases hbody
  · cases hsent

/-- The class of each message of a transcript is that of its local time. -/
theorem classified_of_parse {records : List (Record × ℕ)}
    (h : parseTranscript U (some z) dateFormat text = some records) {r : Sent}
    (hr : r ∈ messagesOf records) : Classified z r.time := by
  obtain ⟨z', -, hz, -, hclass⟩ := header_of_message h hr
  obtain rfl := Option.some.inj hz
  exact hclass

lemma sum_daysInMonth_le (year n : ℕ) (months : List ℕ) (hn : months.length ≤ n) :
    (months.map (daysInMonth year)).sum ≤ 31 * n := by
  induction months generalizing n with
  | nil => exact Nat.zero_le _
  | cons month months ih =>
    have hmonth : daysInMonth year month ≤ 31 := by
      unfold daysInMonth
      split
      · split
        · omega
        · omega
      · split
        · omega
        · omega
    rw [List.length_cons] at hn
    have hrest := ih (n - 1) (by omega)
    rw [List.map_cons, List.sum_cons]
    omega

/-- Local times that are days away from the bounds of `datetime`. -/
lemma datetime_bounds {date : Date} (hyear : 1970 ≤ date.year ∧ date.year ≤ 2100)
    {hour minute second : ℕ} {t : ℤ} (h : datetime date hour minute second = some t) :
    -15000000 < t ∧ t < 4200000000 := by
  obtain ⟨hlo, hhi⟩ := hyear
  have hmonths := sum_daysInMonth_le date.year 11 (List.range' 1 (date.month - 1))
    (by rw [List.length_range']; have hmonth := date.validMonth; omega)
  have hday := date.validDay
  have hlong : daysInMonth date.year date.month ≤ 31 := by
    have hone := sum_daysInMonth_le date.year 1 [date.month] (le_refl _)
    simpa using hone
  have hordinal : 719000 ≤ ordinal date.year date.month date.day ∧
      ordinal date.year date.month date.day ≤ 767016 := by
    unfold ordinal
    dsimp only
    omega
  unfold datetime epochOrdinal at h
  split at h
  · obtain rfl := Option.some.inj h
    omega
  · cases h

lemma representable_of_bounds {t : ℤ} (hlo : -62000000000 ≤ t) (hhi : t ≤ 253000000000) :
    Representable t := by
  show (-62135596800 : ℤ) ≤ t ∧ t ≤ (253402300799 : ℤ)
  omega

lemma year_of_parseDate {dateStr : List Char} {date : Date}
    (h : parseDate U dateStr dateFormat = some date) : 1970 ≤ date.year ∧ date.year ≤ 2100 := by
  unfold parseDate at h
  split at h
  · obtain ⟨a, -, h⟩ := Option.bind_eq_some_iff.mp h
    obtain ⟨b, -, h⟩ := Option.bind_eq_some_iff.mp h
    obtain ⟨c, -, h⟩ := Option.bind_eq_some_iff.mp h
    generalize ofFamily dateFormat a b c = numbers at h
    obtain ⟨year, month, day⟩ := numbers
    dsimp only at h
    obtain ⟨hyear, h⟩ := Option.dite_none_right_eq_some.mp h
    obtain ⟨hmonth, h⟩ := Option.dite_none_right_eq_some.mp h
    obtain ⟨hday, h⟩ := Option.dite_none_right_eq_some.mp h
    obtain rfl := Option.some.inj h
    exact hyear
  · cases h

/-- The local time of a header is in range: its class is the one the parse gives it. -/
theorem classifyLocal_of_header {off : ℤ → ℤ} (hz : Pep495 off z) (hday : ∀ u, |off u| < 86400)
    {dateStr : List Char} {date : Date} (hdate : parseDate U dateStr dateFormat = some date)
    {hour minute second : ℕ} {d : NaiveDatetime}
    (hlocal : datetime date hour minute second = some d.seconds) (hfold : d.fold = false) :
    d.classifyLocal z = some (classifyLocal z d.seconds) := by
  obtain ⟨hlo, hhi⟩ := datetime_bounds (year_of_parseDate hdate) hlocal
  obtain ⟨s, hs, -⟩ := hz.fold₀ d.seconds
  have hout := abs_lt.mp (hday s)
  have hback := abs_lt.mp (hday (d.seconds - off s))
  have hrange : d.InRange z := by
    rw [NaiveDatetime.InRange, hz.fromutc, hfold, hs]
    exact ⟨representable_of_bounds (by omega) (by omega),
      representable_of_bounds (by omega) (by omega)⟩
  rw [classifyLocal_of_inRange hrange, hfold]
  unfold classifyLocal
  split
  · rfl
  · split
    · rfl
    · rfl

end Transcripts

/-! ## Exactness -/

/-- Classification counts the instants that read a local time, wherever going to UTC and back stays
in the range of `datetime`, and the minutes of a header are minutes the clock shows. -/
theorem dst_classification_exact {off : ℤ → ℤ} {D : ℤ} {z : Zone} (hspaced : Spaced off D)
    (hwhole : Whole off 60) (hz : Pep495 off z) :
    (∀ d : NaiveDatetime,
      (d.classifyLocal z = none ↔ ¬ d.InRange z) ∧
      (d.InRange z →
        (d.classifyLocal z = some .unambiguous ↔ (instants off d).encard = 1) ∧
        (d.classifyLocal z = some .fold ↔ (instants off d).encard = 2) ∧
        (d.classifyLocal z = some .nonexistent ↔ (instants off d).encard = 0))) ∧
    ∀ r : Sent, Classified z r.time → r.time.dstClass ≠ .nonexistent →
      ∀ res₀ res₁ : List (ℕ × ℤ), res₀.lookup r.sourceOrdinal = some 0 →
        res₁.lookup r.sourceOrdinal = some 1 →
        ∃ ms₀ ms₁, minuteEpochMs (some z) res₀ r = some ms₀ ∧
          minuteEpochMs (some z) res₁ r = some ms₁ ∧
          MinuteOf off r.time ms₀ ∧ MinuteOf off r.time ms₁ ∧ ms₀ ≤ ms₁ ∧
          (r.time.dstClass = .fold → ms₀ < ms₁) := by
  constructor
  · exact classify_exact hspaced hz
  · intro r hclass hreal res₀ res₁ h₀ h₁
    exact minuteEpochMs_exact hspaced hwhole hz hclass hreal h₀ h₁

/-- Dublin in 2026: an hour forward at the end of March and back at the end of October. -/
def dublin : List (ℤ × ℤ) := [(1774746000, 3600), (1792890000, 0)]

lemma dublin_entries : Entries 3600 0 dublin := by
  refine ⟨by decide, by decide, ?_, by decide, by decide, by simp, trivial⟩
  simp

/-- Half past one on the last Sunday of March, which the clock skips. -/
def springForward : NaiveDatetime := ⟨1774747800, 0, false, by decide, by decide⟩

theorem dst_classification_exact_dublin :
    (instants (offsetAt 0 dublin) springForward).encard = 0 ∧
      springForward.classifyLocal (zoneInfo 0 dublin) = some .nonexistent := by
  have hwhole : Whole (offsetAt 0 dublin) 60 := by
    refine dublin_entries.whole (by decide) ?_
    simp [dublin]
  obtain ⟨hrange, hcount⟩ := (dst_classification_exact dublin_entries.spaced hwhole
    (zoneInfo_pep495 dublin_entries)).1 springForward
  have hclass : springForward.classifyLocal (zoneInfo 0 dublin) = some .nonexistent := by
    decide
  have hin : springForward.InRange (zoneInfo 0 dublin) := by
    by_contra hout
    rw [hrange.mpr hout] at hclass
    cases hclass
  exact ⟨(hcount hin).2.2.mp hclass, hclass⟩

/-- The first instant of `datetime`, by a clock nine hours ahead of UTC. -/
def firstMidnight : NaiveDatetime := ⟨minSeconds, 0, false, by decide, by decide⟩

/-- One instant reads that midnight, but `datetime` has no UTC time for it. -/
theorem first_midnight_raises :
    Spaced (offsetAt 32400 []) 0 ∧ Whole (offsetAt 32400 []) 60 ∧
      Pep495 (offsetAt 32400 []) (zoneInfo 32400 []) ∧
      (instants (offsetAt 32400 []) firstMidnight).encard = 1 ∧
      firstMidnight.classifyLocal (zoneInfo 32400 []) = none := by
  have hentries : Entries 0 32400 [] := trivial
  refine ⟨hentries.spaced, hentries.whole (by decide) (by simp), zoneInfo_pep495 hentries, ?_,
    by decide⟩
  have hreads : readings (offsetAt 32400 []) firstMidnight.seconds =
      {firstMidnight.seconds - 32400} := by
    ext u
    simp only [readings, offsetAt, Set.mem_ofPred_eq, Set.mem_singleton_iff]
    omega
  rw [encard_instants, hreads, Set.encard_singleton]

end WhatsVault.Importers
