import Mathlib.Data.List.Infix
import Mathlib.Tactic.Common
import WhatsVault.Library.Framing

/-!
# Text and bytes

What SQLite stores as TEXT and what the encoders hash is Unicode text, and `String` models it:
its UTF-8 image is injective (`utf8_injective`) and strict decoding is the partial inverse
(`decodeUtf8_eq_some`).  A Python `str` is wider, since it may hold a lone surrogate; `PyStr` keeps
that case apart, because `.encode("utf-8")` and every SQL binding raise on it.
-/

namespace WhatsVault

export Framing (Bytes)

/-- `s.encode("utf-8")` of a string without lone surrogates. -/
def utf8 (s : String) : Bytes := s.toUTF8.data.toList

/-- `b.decode("utf-8")`: `none` where it raises. -/
def decodeUtf8 (b : Bytes) : Option String := String.fromUTF8? ⟨b.toArray⟩

lemma utf8_injective : Function.Injective utf8 := by
  intro s t h
  have hdata : s.toUTF8.data = t.toUTF8.data := Array.toList_inj.mp h
  exact String.toByteArray_inj.mp (ByteArray.ext hdata)

@[simp] lemma utf8_inj {s t : String} : utf8 s = utf8 t ↔ s = t := utf8_injective.eq_iff

@[simp] lemma utf8_empty : utf8 "" = [] := rfl

lemma decodeUtf8_eq_some {b : Bytes} {s : String} : decodeUtf8 b = some s ↔ utf8 s = b := by
  unfold decodeUtf8 String.fromUTF8?
  constructor
  · intro h
    split at h
    · cases h
      rfl
    · cases h
  · rintro rfl
    have hvalid : ByteArray.IsValidUTF8 ⟨(utf8 s).toArray⟩ := s.isValidUTF8
    rw [dif_pos hvalid]
    rfl

@[simp] lemma decodeUtf8_utf8 (s : String) : decodeUtf8 (utf8 s) = some s :=
  decodeUtf8_eq_some.mpr rfl

/-! ## Characters -/

/-- The characters with `str.isspace`. -/
def isSpace (c : Char) : Bool :=
  let n := c.toNat
  (9 ≤ n ∧ n ≤ 13) ∨ (28 ≤ n ∧ n ≤ 32) ∨ n = 0x85 ∨ n = 0xA0 ∨ n = 0x1680 ∨
    (0x2000 ≤ n ∧ n ≤ 0x200A) ∨ n = 0x2028 ∨ n = 0x2029 ∨ n = 0x202F ∨ n = 0x205F ∨ n = 0x3000

/-- `s.strip()`. -/
def strip (s : String) : String :=
  String.ofList ((s.toList.dropWhile isSpace).reverse.dropWhile isSpace).reverse

/-- `part in s`. -/
def contains (s part : String) : Bool := decide (part.toList <:+: s.toList)

/-- The tables of `str` the model takes as given. -/
structure Unicode where
  /-- The value of a decimal digit of any script; `none` for a character that is no `\d`. -/
  decimal : Char → Option (Fin 10)
  /-- `s.lower()`. -/
  lower : String → String

/-- `\d`. -/
def Unicode.isDecimal (U : Unicode) (c : Char) : Bool := (U.decimal c).isSome

/-- `int(s)` of a string that is digits or nothing at all; `none` where it raises. -/
def Unicode.int (U : Unicode) (s : List Char) : Option ℕ :=
  if s = [] then none
  else (s.mapM U.decimal).map fun digits => digits.foldl (fun n d => 10 * n + d.val) 0

lemma Unicode.int_isSome {U : Unicode} {s : List Char} (hne : s ≠ [])
    (h : ∀ c ∈ s, U.isDecimal c = true) : (U.int s).isSome := by
  unfold Unicode.int
  rw [if_neg hne, Option.isSome_map]
  clear hne
  induction s with
  | nil => rfl
  | cons c s ih =>
    obtain ⟨d, hd⟩ := Option.isSome_iff_exists.mp (h c List.mem_cons_self)
    have htail := ih fun c hc => h c (List.mem_cons_of_mem _ hc)
    obtain ⟨ds, hds⟩ := Option.isSome_iff_exists.mp htail
    rw [List.mapM_cons, hd, hds]
    rfl

/-! ## Python strings -/

/-- A Python `str`: Unicode text, or a string with a lone surrogate, kept as its code points. -/
inductive PyStr
  | text (s : String)
  | lone (codes : List ℕ) (surrogate : ∃ c ∈ codes, 0xD800 ≤ c ∧ c < 0xE000)
  deriving DecidableEq

namespace PyStr

/-- The text that `.encode("utf-8")` writes, `none` where it raises. -/
def encode : PyStr → Option String
  | text s => some s
  | lone .. => none

/-- `bool(s)`. -/
def truthy : PyStr → Bool
  | text s => s ≠ ""
  | lone .. => true

/-- The one-character string of a code point. -/
def ofCode (c : ℕ) : PyStr :=
  if h : 0xD800 ≤ c ∧ c < 0xE000 then lone [c] ⟨c, by simp, h⟩
  else text (Char.ofNat c).toString

/-- The code points of a string. -/
def codes : PyStr → List ℕ
  | text s => s.toList.map Char.toNat
  | lone codes _ => codes

/-- `len(s)`. -/
def length (s : PyStr) : ℕ := s.codes.length

/-- The characters of a string, as Python iterates over them. -/
def chars : PyStr → List PyStr
  | text s => s.toList.map fun c => text c.toString
  | lone codes _ => codes.map ofCode

end PyStr

end WhatsVault
