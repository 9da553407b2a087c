import WhatsVault.Importers.Grammar

/-!
# Transcripts

`parse_transcript` assembles an export's lines into records.  A line that starts like a header opens
a record; any other line goes on with the record that is open.  A header whose date is impossible
under the declared family is not a message: it is recorded as an ambiguous boundary, and its text is
kept with the open record.

The clock time of a header is not checked before the `datetime` of it is built, so an impossible one
raises out of the parse.  That is all that can raise under a known zone (`parse_isSome_iff`), since
what the header expression captured as a time is a time (`parseTime_isSome`).
-/

namespace WhatsVault.Importers

open Regex

/-! ## Records -/

/-- The local time of a header. -/
structure HeaderTime where
  date : Date
  hour : ℕ
  minute : ℕ
  second : ℕ
  dstClass : DstClass
  deriving DecidableEq

inductive Content
  | message (time : HeaderTime) (sender body : String) (mediaState : Option String)
  /-- A line with no sender: `system`, or `system_unknown` where no known wording is in it. -/
  | system (time : HeaderTime) (known : Bool) (text : String)
  | ambiguousBoundary (text : String)
  deriving DecidableEq

structure Record where
  sourceStartOffset : ℕ
  sourceEndOffset : ℕ
  content : Content
  deriving DecidableEq

/-- `rec["kind"]`. -/
def Record.kind (r : Record) : String :=
  match r.content with
  | .message .. => "message"
  | .system _ known _ => if known then "system" else "system_unknown"
  | .ambiguousBoundary _ => "ambiguous_boundary"

/-- A line without its ending, and the offsets at which it starts and ends with it. -/
structure SourceLine where
  line : List Char
  start : ℕ
  stop : ℕ
  deriving DecidableEq

/-- `s.rstrip(chars)` of one character. -/
def rstrip (c : Char) (s : List Char) : List Char :=
  (s.reverse.dropWhile fun d => d = c).reverse

def sourceLinesFrom (offset : ℕ) : List (List Char × List Char) → List SourceLine
  | [] => []
  | (line, ending) :: lines =>
    let raw := line ++ ending
    ⟨rstrip '\r' (rstrip '\n' raw), offset, offset + raw.length⟩ ::
      sourceLinesFrom (offset + raw.length) lines

/-- The lines `parse_transcript` goes through. -/
def sourceLines (text : String) : List SourceLine := sourceLinesFrom 0 (splitLines text.toList)

/-! ## One line -/

variable (U : Unicode)

/-- `_ENTRY_RE`. -/
def entryRegex : Regex :=
  headerThen U <| .seq (group "rest" (many (fun c => c ≠ '\n') 0 none true)) eos

/-- `_SENDER_RE`. -/
def senderRegex : Regex :=
  .seq (group "sender" (many (fun c => c ≠ ':' ∧ c ≠ '\n') 1 (some 100) false)) <|
    .seq (oneOf ":") <| .seq (one isSpace) <|
      .seq (group "body" (many (fun _ => true) 0 none true)) eos

/-- `_TIME_RE`. -/
def timeRegex : Regex :=
  .seq (group "1" (digits U 1 2)) <| .seq (oneOf ":") <| .seq (group "2" (digits U 2 2)) <|
    .seq (opt (.seq (oneOf ":") (group "3" (digits U 2 2)))) <| .seq (spaces 0) <|
      .seq (opt (group "4" (oneOf "APap"))) <| .seq (opt (oneOf ".")) (opt (group "5" (oneOf "Mm")))

/-- What `_ENTRY_RE` captures of a line. -/
structure Entry where
  date : List Char
  time : List Char
  rest : List Char
  deriving DecidableEq

/-- `_ENTRY_RE.match(line)`. -/
def readEntry (line : List Char) : Option Entry := do
  let em ← (entryRegex U).firstMatch line
  let date ← em.group "date"
  let time ← em.group "time"
  let rest ← em.group "rest"
  pure ⟨date, time, rest⟩

/-- The hour after `a` or `p`. -/
def adjustHour (hour : ℕ) (ap : List Char) : ℕ :=
  if U.lower (String.ofList ap) = "p" ∧ hour ≠ 12 then hour + 12
  else if U.lower (String.ofList ap) = "a" ∧ hour = 12 then 0
  else hour

/-- `_parse_time`; `none` where it raises. -/
def parseTime (tstr : List Char) : Option (ℕ × ℕ × ℕ) := do
  let m ← (timeRegex U).firstMatch tstr
  let hour ← (m.group "1").bind U.int
  let minute ← (m.group "2").bind U.int
  let second ← (m.group "3").elim (some 0) U.int
  pure ((m.group "4").elim hour (adjustHour U hour), minute, second)

/-- `_MEDIA_MARKERS`. -/
def mediaMarkers : List String :=
  ["<media omitted>", "image omitted", "video omitted", "audio omitted", "sticker omitted",
    "gif omitted", "document omitted", "contact card omitted"]

/-- `_KNOWN_SYSTEM`. -/
def knownSystem : List String :=
  ["end-to-end encrypted", "created group", "added", "left", "removed", "changed the subject",
    "changed this group", "changed their phone number", "you deleted this message",
    "this message was deleted", "changed to", "missed voice call", "missed video call",
    "security code changed", "joined using", "changed the group description"]

/-- `_media_state`. -/
def mediaState (body : String) : Option String :=
  let low := U.lower (strip body)
  if mediaMarkers.any (contains low) then some "MEDIA_PLACEHOLDER" else none

/-- Whether `_system_kind` is `system`. -/
def isKnownSystem (text : String) : Bool := knownSystem.any (contains (U.lower text))

/-- What a header opens. -/
def readContent (time : HeaderTime) (rest : List Char) : Content :=
  let sent := do
    let sm ← senderRegex.firstMatch rest
    let sender ← sm.group "sender"
    let body ← sm.group "body"
    pure (String.ofList sender, String.ofList body)
  match sent with
  | some (sender, body) => .message time sender body (mediaState U body)
  | none => .system time (isKnownSystem U (String.ofList rest)) (String.ofList rest)

/-- The record a header with a valid date opens; `none` where the clock time or the zone raises. -/
def openRecord (zone : Option Zone) (date : Date) (e : Entry) (l : SourceLine) : Option Record := do
  let (hour, minute, second) ← parseTime U e.time
  let local' ← datetime date hour minute second
  let z ← zone
  let time := ⟨date, hour, minute, second, classifyLocal z local'⟩
  pure ⟨l.start, l.stop, readContent U time e.rest⟩

/-- The text with a line more. -/
def appendLine (text line : String) : String := if text = "" then line else text ++ "\n" ++ line

/-- `_append_body`. -/
def appendBody (r : Record) (l : SourceLine) : Record where
  sourceStartOffset := r.sourceStartOffset
  sourceEndOffset := l.stop
  content :=
    let line := String.ofList l.line
    match r.content with
    | .message time sender body media => .message time sender (appendLine body line) media
    | .system time known text => .system time known (appendLine text line)
    | .ambiguousBoundary text => .ambiguousBoundary (appendLine text line)

/-- The record that surfaces a line. -/
def boundary (l : SourceLine) : Record :=
  ⟨l.start, l.stop, .ambiguousBoundary (String.ofList l.line)⟩

/-! ## The transcript -/

/-- The records so far and the one that is open. -/
structure Assembly where
  records : List Record
  cur : Option Record
  deriving DecidableEq

/-- One turn of the loop of `parse_transcript`. -/
def parseLine (zone : Option Zone) (dateFormat : String) (s : Assembly) (l : SourceLine) :
    Option Assembly :=
  match readEntry U l.line with
  | some e =>
    match parseDate U e.date dateFormat with
    | some date => do
      let opened ← openRecord U zone date e l
      pure ⟨s.records ++ s.cur.toList, some opened⟩
    -- a leading boundary has no record that keeps its text
    | none => some ⟨s.records ++ [boundary l], s.cur.map fun r => appendBody r l⟩
  | none => some ⟨s.records, s.cur.map fun r => appendBody r l⟩

/-- `parse_transcript`: the records, each with its `source_ordinal`.  `zone` is `ZoneInfo(tz_name)`,
`none` where that raises, and the result is `none` where the parse raises. -/
def parseTranscript (zone : Option Zone) (dateFormat text : String) :
    Option (List (Record × ℕ)) := do
  let s ← (sourceLines text).foldlM (parseLine U zone dateFormat) ⟨[], none⟩
  pure (s.records ++ s.cur.toList).zipIdx

/-- An hour above 23, after `a` or `p`, or a minute or a second above 59. -/
def clockImpossible (e : Entry) : Bool :=
  (parseTime U e.time).any fun (hour, minute, second) => 23 < hour ∨ 59 < minute ∨ 59 < second

end WhatsVault.Importers
