import Mathlib.Algebra.Order.Group.Int
import Mathlib.Algebra.Ring.Nat
import WhatsVault.Text

/-!
# JSON values and what Python and SQLite make of them

The values `json.loads` returns, with the operations the repository applies to them: truthiness
(`x or default`), `dict.get`, `int(x)`, equality of dictionary keys, and binding as an SQL
parameter of a TEXT column.  Every operation that can raise returns an `Option`, `none` where it
raises.

`Stdlib` collects the library functions the model takes as given: the JSON reader and writer,
`int` on a string, the text SQLite gives a floating-point number, and two Unicode operations.
-/

namespace WhatsVault

/-- A binary64 value.  A finite one is `± magnitude * 2 ^ exponent`, with its sign kept apart so
that `-0.0` is a value of its own. -/
inductive PyFloat
  | nan
  | inf (negative : Bool)
  | finite (negative : Bool) (magnitude : ℕ) (exponent : ℤ)
  deriving DecidableEq

inductive Json
  | null
  | bool (b : Bool)
  | int (n : ℤ)
  | float (x : PyFloat)
  | str (s : PyStr)
  | arr (items : List Json)
  | obj (fields : List (PyStr × Json))

/-- Python and SQLite functions taken as given. -/
structure Stdlib where
  /-- `json.loads`, `none` where it raises. -/
  loads : Bytes → Option Json
  /-- The UTF-8 bytes of `json.dumps(x, sort_keys=True, ensure_ascii=False)`. -/
  dumps : Json → Bytes
  /-- `int(s)` on a string. -/
  intOfStr : PyStr → Option ℤ
  /-- The text a floating-point number takes in a TEXT column. -/
  floatText : PyFloat → String
  /-- `s.upper()`. -/
  upper : PyStr → PyStr
  /-- `s.strip()`. -/
  strip : PyStr → PyStr

/-- The integers SQLite stores; binding another one raises `OverflowError`. -/
def fitsInt64 (n : ℤ) : Bool := -(2 ^ 63) ≤ n ∧ n < 2 ^ 63

namespace PyFloat

/-- `int(x)`: towards zero, raising on infinities and on NaN. -/
def trunc : PyFloat → Option ℤ
  | nan | inf _ => none
  | finite negative magnitude exponent =>
    let size : ℕ :=
      if 0 ≤ exponent then magnitude * 2 ^ exponent.toNat
      else magnitude / 2 ^ (-exponent).toNat
    some (if negative then -(size : ℤ) else size)

def truthy : PyFloat → Bool
  | nan | inf _ => true
  | finite _ magnitude _ => magnitude ≠ 0

end PyFloat

namespace Json

/-- `bool(x)`. -/
def truthy : Json → Bool
  | null => false
  | bool b => b
  | int n => n ≠ 0
  | float x => x.truthy
  | str s => s.truthy
  | arr items => !items.isEmpty
  | obj fields => !fields.isEmpty

/-- `x or default`. -/
def orElse (x default : Json) : Json := if x.truthy then x else default

/-- `x.get(key, default)`: raises unless `x` is a dictionary. -/
def getD (x : Json) (key : String) (default : Json) : Option Json :=
  match x with
  | obj fields => some ((fields.lookup (.text key)).getD default)
  | _ => none

/-- `x.get(key)`. -/
def get (x : Json) (key : String) : Option Json := x.getD key null

/-- The elements a `for` loop draws from `x`; a string gives its characters and a dictionary its
keys, which are strings. -/
def iterate : Json → Option (List Json)
  | arr items => some items
  | obj fields => some (fields.map fun field => str field.1)
  | str s => some (s.chars.map str)
  | _ => none

/-- `int(x)`. -/
def toInt (S : Stdlib) : Json → Option ℤ
  | bool b => some (if b then 1 else 0)
  | int n => some n
  | float x => x.trunc
  | str s => S.intOfStr s
  | null | arr _ | obj _ => none

/-- The string behind `x`, `none` where `x.encode("utf-8")` raises. -/
def encode : Json → Option String
  | str s => s.encode
  | _ => none

/-- The value `x` has when bound to a parameter that is stored in, or compared with, a TEXT
column: `some none` is NULL, `none` is a value SQLite cannot take. -/
def bindText (S : Stdlib) : Json → Option (Option String)
  | null => some none
  | bool b => some (some (if b then "1" else "0"))
  | int n => if fitsInt64 n then some (some (toString n)) else none
  | float .nan => some none
  | float x => some (some (S.floatText x))
  | str s => s.encode.map some
  | arr _ | obj _ => none

/-- Whether `x` can be a dictionary key. -/
def hashable : Json → Bool
  | arr _ | obj _ => false
  | _ => true

/-- The exact value of a finite number, as `numerator * 2 ^ exponent`. -/
def dyadic : Json → Option (ℤ × ℤ)
  | bool b => some (if b then 1 else 0, 0)
  | int n => some (n, 0)
  | float (.finite negative magnitude exponent) =>
    some (if negative then -(magnitude : ℤ) else magnitude, exponent)
  | _ => none

/-- Equality of dictionary keys: numbers compare by value whatever their type, and the reader
makes one NaN object, which is found by identity. -/
def keyEq (x y : Json) : Bool :=
  match x.dyadic, y.dyadic with
  | some (m, e), some (n, f) => m * 2 ^ (e - min e f).toNat = n * 2 ^ (f - min e f).toNat
  | none, none =>
    match x, y with
    | null, null => true
    | float a, float b => a = b
    | str s, str t => s = t
    | _, _ => false
  | _, _ => false

mutual
/-- No string in `x`, and no key, holds a lone surrogate: what `json.dumps` of it can be encoded
as UTF-8. -/
def encodable : Json → Bool
  | str s => s.encode.isSome
  | arr items => encodableItems items
  | obj fields => encodableFields fields
  | _ => true

def encodableItems : List Json → Bool
  | [] => true
  | x :: xs => x.encodable && encodableItems xs

def encodableFields : List (PyStr × Json) → Bool
  | [] => true
  | (key, x) :: fields => key.encode.isSome && x.encodable && encodableFields fields
end

/-- The bytes of `json.dumps(x, sort_keys=True, ensure_ascii=False).encode("utf-8")`. -/
def dumps (S : Stdlib) (x : Json) : Option Bytes :=
  if x.encodable then some (S.dumps x) else none

@[simp] lemma orElse_of_truthy {x d : Json} (h : x.truthy = true) : x.orElse d = x := by
  simp [orElse, h]

@[simp] lemma orElse_of_not_truthy {x d : Json} (h : x.truthy = false) : x.orElse d = d := by
  simp [orElse, h]

end Json

end WhatsVault
