import WhatsVault.Library.Regex
import WhatsVault.Text
import WhatsVault.TimeModel

/-!
# The header grammar of an export

A header line starts with a date token and a clock time.  The expressions do not depend on the date
family; it says only how the three numbers of the date token are read.  A family is offered for a
text where at least one line has the shape of a header and the date of each such line is a date of
that family.
-/

namespace WhatsVault.Importers

/-! ## Lines -/

/-- The characters `str.splitlines` splits at. -/
def isLineBoundary (c : Char) : Bool :=
  let n := c.toNat
  (10 ≤ n ∧ n ≤ 13) ∨ (28 ≤ n ∧ n ≤ 30) ∨ n = 0x85 ∨ n = 0x2028 ∨ n = 0x2029

/-- `text.splitlines()`, each line with the boundary that ends it. -/
def splitLines : List Char → List (List Char × List Char)
  | [] => []
  | '\r' :: '\n' :: s => ([], ['\r', '\n']) :: splitLines s
  | c :: s =>
    if isLineBoundary c then ([], [c]) :: splitLines s
    else match splitLines s with
      | [] => [([c], [])]
      | (line, ending) :: lines => (c :: line, ending) :: lines

/-! ## Expressions -/

open Regex

variable (U : Unicode)

/-- `\d{lo,hi}`. -/
def digits (lo hi : ℕ) : Regex := many U.isDecimal lo (some hi) true

/-- A class of characters given by its members. -/
def oneOf (chars : String) : Regex := one fun c => c ∈ chars.toList

/-- `\s*` and `\s+`. -/
def spaces (lo : ℕ) : Regex := many isSpace lo none true

/-- `_DATE`. -/
def dateToken : Regex :=
  .seq (digits U 1 4) <| .seq (oneOf "/.-") <| .seq (digits U 1 2) <| .seq (oneOf "/.-")
    (digits U 1 4)

/-- `_TIME`. -/
def timeToken : Regex :=
  .seq (digits U 1 2) <| .seq (oneOf ":") <| .seq (digits U 2 2) <|
    .seq (opt (.seq (oneOf ":") (digits U 2 2))) <|
      opt (.seq (spaces 0) <| .seq (oneOf "APap") <| .seq (opt (oneOf ".")) <|
        .seq (oneOf "Mm") (opt (oneOf ".")))

/-- What `_HEADER_RE` and `_ENTRY_RE` have in common. -/
def headerThen (tail : Regex) : Regex :=
  .seq (opt (oneOf "[")) <| .seq (group "date" (dateToken U)) <| .seq (opt (oneOf ",")) <|
    .seq (spaces 1) <| .seq (group "time" (timeToken U)) <| .seq (opt (oneOf "]")) <|
      .seq (spaces 0) <| .seq (opt (oneOf "-–")) <| .seq (spaces 0) tail

/-- `_HEADER_RE`. -/
def headerRegex : Regex :=
  headerThen U <| .seq (group "sender" (many (fun c => c ≠ ':') 1 (some 100) false)) <|
    .seq (oneOf ":") (one isSpace)

/-! ## Dates -/

/-- `FAMILIES`. -/
def families : List String := ["DMY", "MDY", "YMD"]

/-- The year, month and day that three numbers are in a family. -/
def ofFamily (family : String) (a b c : ℕ) : ℕ × ℕ × ℕ :=
  if family = "DMY" then (c, b, a)
  else if family = "MDY" then (c, a, b)
  else (a, b, c)

/-- `_parse_date`. -/
def parseDate (dateStr : List Char) (family : String) : Option Date :=
  match dateStr.splitOnP (fun c => c ∈ ['/', '.', '-']) with
  | [x, y, z] => do
    let a ← U.int x
    let b ← U.int y
    let c ← U.int z
    let (year, month, day) := ofFamily family a b c
    let year := if year < 100 then year + 2000 else year
    if hy : 1970 ≤ year ∧ year ≤ 2100 then
      if hm : 1 ≤ month ∧ month ≤ 12 then
        if hd : 1 ≤ day ∧ day ≤ daysInMonth year month then
          some ⟨year, month, day, ⟨by omega, by omega⟩, hm, hd⟩
        else none
      else none
    else none
  | _ => none

/-! ## Families -/

structure Validation where
  ok : Bool
  headerCount : ℕ
  firstBadLine : Option ℕ
  deriving DecidableEq

/-- The date tokens of the header lines, with the numbers of their lines. -/
def headerDates (text : String) : List (List Char × ℕ) :=
  ((splitLines text.toList).zipIdx 1).filterMap fun l => do
    let m ← (headerRegex U).firstMatch l.1.1
    let date ← m.group "date"
    pure (date, l.2)

/-- `validate_family` for a known family. -/
def validateFamily (text dateFormat : String) : Validation :=
  let headers := headerDates U text
  let bad := headers.find? fun h => (parseDate U h.1 dateFormat).isNone
  { ok := 0 < headers.length ∧ bad.isNone
    headerCount := headers.length
    firstBadLine := bad.map Prod.snd }

/-- `suggest_families`. -/
def suggestFamilies (text : String) : List String :=
  families.filter fun f => (validateFamily U text f).ok

end WhatsVault.Importers
