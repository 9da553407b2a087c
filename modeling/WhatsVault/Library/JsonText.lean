import Mathlib.Data.List.Basic
import Mathlib.Data.Nat.Digits.Defs
import Mathlib.Tactic.Common

/-!
# JSON strings in ASCII

How a JSON writer that keeps to ASCII writes a string: the printable characters as they are, seven
characters by a letter, every other one by its UTF-16 code units.

`unescape` reads the first character back, whatever follows it (`unescape_escape`).  So a written string
ends where it ends: what is written of two strings is the same, with whatever after it, only where the
strings are the same and what comes after them is (`quote_append_inj`).  The same holds of a flat object,
whose values are strings and nulls (`object_injective`).
-/

namespace JsonText

/-- Four hexadecimal digits. -/
def hex4 (n : ℕ) : List Char :=
  [Nat.digitChar (n / 4096 % 16), Nat.digitChar (n / 256 % 16), Nat.digitChar (n / 16 % 16),
    Nat.digitChar (n % 16)]

def unitEscape (n : ℕ) : List Char := '\\' :: 'u' :: hex4 n

/-- The characters that have a letter of their own. -/
def letters : List (Char × Char) :=
  [('"', '"'), ('\\', '\\'), ('\x08', 'b'), ('\x0c', 'f'), ('\n', 'n'), ('\r', 'r'), ('\t', 't')]

/-- What is written of one character. -/
def escape (c : Char) : List Char :=
  match letters.lookup c with
  | some letter => ['\\', letter]
  | none =>
    if ' ' ≤ c ∧ c ≤ '~' then [c]
    else if c.toNat < 0x10000 then unitEscape c.toNat
    else
      unitEscape (0xd800 + (c.toNat - 0x10000) / 0x400) ++
        unitEscape (0xdc00 + (c.toNat - 0x10000) % 0x400)

/-- What is written of a string. -/
def quote (s : List Char) : List Char := '"' :: (s.flatMap escape ++ ['"'])

/-! ## Reading a character back -/

def digitValue (c : Char) : ℕ := if c ≤ '9' then c.toNat - 48 else c.toNat - 87

/-- The code unit after `\u`. -/
def readUnit : List Char → Option (ℕ × List Char)
  | a :: b :: c :: d :: rest =>
    some (4096 * digitValue a + 256 * digitValue b + 16 * digitValue c + digitValue d, rest)
  | _ => none

/-- The second half of a surrogate pair, and the character the two make. -/
def readLow (high : ℕ) : List Char → Option (Char × List Char)
  | _ :: _ :: rest => (readUnit rest).map fun p =>
    (Char.ofNat (0x10000 + (high - 0xd800) * 0x400 + (p.1 - 0xdc00)), p.2)
  | _ => none

/-- The first character of a written string, and the rest of it. -/
def unescape : List Char → Option (Char × List Char)
  | [] => none
  | c :: s =>
    if c ≠ '\\' then some (c, s)
    else
      match s with
      | [] => none
      | e :: rest =>
        if e = 'u' then
          (readUnit rest).bind fun p =>
            if 0xd800 ≤ p.1 ∧ p.1 < 0xdc00 then readLow p.1 p.2
            else some (Char.ofNat p.1, p.2)
        else (letters.find? fun p => p.2 = e).map fun p => (p.1, rest)

lemma digitValue_digitChar : ∀ d < 16, digitValue (Nat.digitChar d) = d := by decide

lemma readUnit_hex4 {n : ℕ} (h : n < 0x10000) (rest : List Char) :
    readUnit (hex4 n ++ rest) = some (n, rest) := by
  have hvalue {d : ℕ} : digitValue (Nat.digitChar (d % 16)) = d % 16 :=
    digitValue_digitChar _ (Nat.mod_lt _ (by omega))
  simp only [hex4, List.cons_append, List.nil_append, readUnit, hvalue]
  congr 2
  omega

/-- A character that is not of the basic plane is the pair of its surrogates. -/
lemma readLow_unitEscape {c : Char} (h : 0x10000 ≤ c.toNat) (rest : List Char) :
    readLow (0xd800 + (c.toNat - 0x10000) / 0x400)
        (unitEscape (0xdc00 + (c.toNat - 0x10000) % 0x400) ++ rest) = some (c, rest) := by
  have hlow : 0xdc00 + (c.toNat - 0x10000) % 0x400 < 0x10000 := by omega
  simp only [unitEscape, List.cons_append, readLow, readUnit_hex4 hlow, Option.map_some]
  have hcode : 0x10000 + (0xd800 + (c.toNat - 0x10000) / 0x400 - 0xd800) * 0x400 +
      (0xdc00 + (c.toNat - 0x10000) % 0x400 - 0xdc00) = c.toNat := by omega
  rw [hcode, Char.ofNat_toNat]

lemma unescape_unitEscape {n : ℕ} (h : n < 0x10000) (rest : List Char) :
    unescape (unitEscape n ++ rest) =
      if 0xd800 ≤ n ∧ n < 0xdc00 then readLow n rest else some (Char.ofNat n, rest) := by
  simp [unitEscape, unescape, readUnit_hex4 h]

lemma letters_find : ∀ p ∈ letters, p.2 ≠ 'u' ∧ letters.find? (fun q => q.2 = p.2) = some p := by
  decide

/-- No surrogate is a character. -/
lemma not_surrogate (c : Char) : ¬ (0xd800 ≤ c.toNat ∧ c.toNat < 0xdc00) := by
  rintro ⟨hlow, hhigh⟩
  rcases c.valid with h | h
  · have : c.toNat < 0xd800 := h
    omega
  · have : 0xdfff < c.toNat := h.1
    omega

lemma toNat_lt (c : Char) : c.toNat < 0x110000 := by
  rcases c.valid with h | h
  · have : c.toNat < 0xd800 := h
    omega
  · exact h.2

/-- **A written character is read back.** -/
theorem unescape_escape (c : Char) (rest : List Char) :
    unescape (escape c ++ rest) = some (c, rest) := by
  unfold escape
  cases hletter : letters.lookup c with
  | some letter =>
    obtain ⟨before, after, hletters, -⟩ := List.lookup_eq_some_iff.mp hletter
    obtain ⟨hne, hfind⟩ := letters_find (c, letter) (by simp [hletters])
    simp [unescape, hne, hfind]
  | none =>
    have hback : c ≠ '\\' := by
      rintro rfl
      revert hletter
      decide
    simp only
    split
    · simp [unescape, hback]
    split
    · rename_i hbasic
      rw [unescape_unitEscape hbasic, if_neg (not_surrogate c), Char.ofNat_toNat]
    · rename_i hbasic
      have hlt := toNat_lt c
      rw [List.append_assoc, unescape_unitEscape (by omega), if_pos (by omega),
        readLow_unitEscape (by omega)]

/-! ## Where a written string ends -/

lemma escape_ne_nil (c : Char) : escape c ≠ [] := by
  intro h
  have hread := unescape_escape c []
  rw [h] at hread
  cases hread

/-- No character begins as the end of a string does. -/
lemma escape_append_ne (c : Char) (r r' : List Char) : escape c ++ r ≠ '"' :: r' := by
  intro h
  have hread := unescape_escape c r
  rw [h] at hread
  obtain ⟨rfl, rfl⟩ : '"' = c ∧ r' = r := by simpa [unescape] using hread
  have hlength := congrArg List.length h
  have hescape : (escape '"').length = 2 := by decide
  rw [List.length_append, hescape, List.length_cons] at hlength
  omega

lemma body_append_inj {s t r r' : List Char}
    (h : s.flatMap escape ++ '"' :: r = t.flatMap escape ++ '"' :: r') : s = t ∧ r = r' := by
  induction s generalizing t with
  | nil =>
    cases t with
    | nil => simpa using h
    | cons d t =>
      rw [List.flatMap_cons, List.append_assoc] at h
      exact absurd h.symm (escape_append_ne d _ _)
  | cons c s ih =>
    cases t with
    | nil =>
      rw [List.flatMap_cons, List.append_assoc] at h
      exact absurd h (escape_append_ne c _ _)
    | cons d t =>
      simp only [List.flatMap_cons, List.append_assoc] at h
      have hread := unescape_escape c (s.flatMap escape ++ '"' :: r)
      rw [h, unescape_escape] at hread
      obtain ⟨rfl, htail⟩ : d = c ∧ _ := by simpa using hread
      obtain ⟨rfl, rfl⟩ := ih htail.symm
      exact ⟨rfl, rfl⟩

/-- **What is written of a string can be read in one way only**, whatever follows it. -/
theorem quote_append_inj {s t r r' : List Char} (h : quote s ++ r = quote t ++ r') :
    s = t ∧ r = r' := by
  simp only [quote, List.cons_append, List.append_assoc, List.nil_append, List.cons.injEq,
    true_and] at h
  exact body_append_inj h

/-! ## Flat objects -/

/-- A string or `null`. -/
def value : Option (List Char) → List Char
  | none => ['n', 'u', 'l', 'l']
  | some s => quote s

/-- A key and its value. -/
def member (m : List Char × Option (List Char)) : List Char := quote m.1 ++ [':', ' '] ++ value m.2

/-- The members after the first, and the end of the object. -/
def members : List (List Char × Option (List Char)) → List Char
  | [] => ['\x7d']
  | m :: ms => [',', ' '] ++ member m ++ members ms

/-- An object, its members in the order they were inserted. -/
def object : List (List Char × Option (List Char)) → List Char
  | [] => ['\x7b', '\x7d']
  | m :: ms => '\x7b' :: (member m ++ members ms)

lemma value_append_inj {v w : Option (List Char)} {r r' : List Char}
    (h : value v ++ r = value w ++ r') : v = w ∧ r = r' := by
  cases v with
  | none =>
    cases w with
    | none => simpa [value] using h
    | some t => simp [value, quote] at h
  | some s =>
    cases w with
    | none => simp [value, quote] at h
    | some t =>
      obtain ⟨rfl, hrest⟩ := quote_append_inj h
      exact ⟨rfl, hrest⟩

lemma member_append_inj {m m' : List Char × Option (List Char)} {r r' : List Char}
    (h : member m ++ r = member m' ++ r') : m = m' ∧ r = r' := by
  simp only [member, List.append_assoc] at h
  obtain ⟨hkey, h⟩ := quote_append_inj h
  obtain ⟨hvalue, hrest⟩ := value_append_inj (List.append_cancel_left h)
  exact ⟨Prod.ext hkey hvalue, hrest⟩

lemma members_injective : Function.Injective members := by
  intro ms ms' h
  induction ms generalizing ms' with
  | nil =>
    cases ms' with
    | nil => rfl
    | cons m' ms' => simp [members] at h
  | cons m ms ih =>
    cases ms' with
    | nil => simp [members] at h
    | cons m' ms' =>
      simp only [members, List.append_assoc] at h
      obtain ⟨rfl, hrest⟩ := member_append_inj (List.append_cancel_left h)
      rw [ih hrest]

/-- **What is written of a flat object can be read in one way only.** -/
theorem object_injective : Function.Injective object := by
  intro ms ms' h
  have hempty (m : List Char × Option (List Char)) (ms : List (List Char × Option (List Char))) :
      object (m :: ms) ≠ object [] := by
    simp [object, member, quote]
  cases ms with
  | nil =>
    cases ms' with
    | nil => rfl
    | cons m' ms' => exact absurd h.symm (hempty m' ms')
  | cons m ms =>
    cases ms' with
    | nil => exact absurd h (hempty m ms)
    | cons m' ms' =>
      obtain ⟨rfl, hrest⟩ := member_append_inj (List.cons.inj h).2
      rw [members_injective hrest]

end JsonText
