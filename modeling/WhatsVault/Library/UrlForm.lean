import Mathlib.Data.List.TakeWhile
import Mathlib.Tactic.Common

/-!
# Form encoding

A list of fields in the query of a URL: the bytes of a name and of a value are percent-encoded, a space is a
plus sign, `=` stands between the two and `&` between the fields.

Whatever bytes the fields hold, they are read back (`decode_encode`).  `extend` adds fields to a URL, which
may have a query already; it keeps the page the URL names (`target_extend`) and the fields that were there
(`parameters_extend`).
-/

namespace UrlForm

/-- The bytes that stand for themselves: letters, digits and `-._~`. -/
def unreserved (x : UInt8) : Bool :=
  (48 ≤ x && x ≤ 57) || (65 ≤ x && x ≤ 90) || (97 ≤ x && x ≤ 122) || [45, 46, 95, 126].contains x

/-- One upper-case hexadecimal digit. -/
def digit (n : ℕ) : UInt8 := UInt8.ofNat (if n < 10 then 48 + n else 55 + n)

def encodeByte (x : UInt8) : List UInt8 :=
  if x = 32 then [43]
  else if unreserved x then [x]
  else [37, digit (x.toNat / 16), digit (x.toNat % 16)]

def quote (s : List UInt8) : List UInt8 := s.flatMap encodeByte

/-- A field: `name=value`. -/
def field (p : List UInt8 × List UInt8) : List UInt8 := quote p.1 ++ 61 :: quote p.2

/-- The fields with `&` between them. -/
def encode (fields : List (List UInt8 × List UInt8)) : List UInt8 := [38].intercalate (fields.map field)

/-! ## Reading -/

def digitValue (x : UInt8) : Option ℕ :=
  if 48 ≤ x ∧ x ≤ 57 then some (x.toNat - 48)
  else if 65 ≤ x ∧ x ≤ 70 then some (x.toNat - 55)
  else if 97 ≤ x ∧ x ≤ 102 then some (x.toNat - 87)
  else none

/-- A `%` that no two hexadecimal digits follow stands for itself. -/
def unquote : List UInt8 → List UInt8
  | [] => []
  | x :: s =>
    if x = 43 then 32 :: unquote s
    else if x = 37 then
      match s with
      | a :: b :: rest =>
        match digitValue a, digitValue b with
        | some high, some low => UInt8.ofNat (16 * high + low) :: unquote rest
        | _, _ => x :: unquote (a :: b :: rest)
      | s => x :: unquote s
    else x :: unquote s

/-- The name and the value of a field, which has no value where `=` is missing. -/
def readField (s : List UInt8) : List UInt8 × List UInt8 :=
  (unquote (s.takeWhile (· ≠ 61)), unquote ((s.dropWhile (· ≠ 61)).drop 1))

def decode (s : List UInt8) : List (List UInt8 × List UInt8) :=
  ((s.splitOn 38).filter (· ≠ [])).map readField

/-! ## Bytes -/

lemma digitValue_digit : ∀ n < 16, digitValue (digit n) = some n := by decide

lemma unreserved_digit : ∀ n < 16, unreserved (digit n) = true := by decide

lemma unquote_cons {x : UInt8} (h : x ≠ 37) (s : List UInt8) :
    unquote (x :: s) = (if x = 43 then 32 else x) :: unquote s := by
  rw [unquote.eq_def]
  by_cases hplus : x = 43
  · simp [hplus]
  · simp [hplus, h]

/-- **An encoded byte is read back.** -/
theorem unquote_encodeByte (x : UInt8) (rest : List UInt8) :
    unquote (encodeByte x ++ rest) = x :: unquote rest := by
  unfold encodeByte
  split
  · rename_i hspace
    rw [hspace, List.singleton_append, unquote_cons (by decide), if_pos rfl]
  split
  · rename_i hself
    have hplus : x ≠ 43 := by
      rintro rfl
      exact absurd hself (by decide)
    have hpercent : x ≠ 37 := by
      rintro rfl
      exact absurd hself (by decide)
    rw [List.singleton_append, unquote_cons hpercent, if_neg hplus]
  · have hlt := x.toNat_lt
    have hhigh := digitValue_digit (x.toNat / 16) (by omega)
    have hlow := digitValue_digit (x.toNat % 16) (by omega)
    have hbyte : 16 * (x.toNat / 16) + x.toNat % 16 = x.toNat := Nat.div_add_mod _ _
    simp [unquote, hhigh, hlow, hbyte]

lemma unquote_quote_append (s rest : List UInt8) : unquote (quote s ++ rest) = s ++ unquote rest := by
  induction s with
  | nil => rfl
  | cons x s ih =>
    rw [quote, List.flatMap_cons, List.append_assoc, unquote_encodeByte, ← quote, ih, List.cons_append]

@[simp] lemma unquote_quote (s : List UInt8) : unquote (quote s) = s := by
  have h := unquote_quote_append s []
  rwa [List.append_nil, unquote, List.append_nil] at h

/-- What is quoted has letters, digits, `-._~`, `+` and `%` only. -/
lemma not_mem_quote {x : UInt8} (hself : unreserved x = false) (hplus : x ≠ 43) (hpercent : x ≠ 37)
    (s : List UInt8) : x ∉ quote s := by
  intro hx
  obtain ⟨y, -, hx⟩ := List.mem_flatMap.mp hx
  unfold encodeByte at hx
  have hdigit {n : ℕ} (hn : n < 16) : x ≠ digit n := by
    rintro rfl
    rw [unreserved_digit n hn] at hself
    cases hself
  have hlt := y.toNat_lt
  split at hx
  · exact hplus (List.mem_singleton.mp hx)
  split at hx
  · rename_i hy
    rw [List.mem_singleton.mp hx, hy] at hself
    cases hself
  · simp only [List.mem_cons, List.not_mem_nil, or_false] at hx
    obtain hx | hx | hx := hx
    · exact hpercent hx
    · exact hdigit (by omega) hx
    · exact hdigit (by omega) hx

/-! ## Fields -/

section Separators

variable {x : UInt8} {s : List UInt8} (h : x ∉ s) (t : List UInt8)
include h

lemma takeWhile_separated : (s ++ x :: t).takeWhile (· ≠ x) = s := by
  rw [List.takeWhile_append_of_pos fun y hy => decide_eq_true (ne_of_mem_of_not_mem hy h)]
  simp

lemma dropWhile_separated : (s ++ x :: t).dropWhile (· ≠ x) = x :: t := by
  rw [List.dropWhile_append_of_pos fun y hy => decide_eq_true (ne_of_mem_of_not_mem hy h)]
  simp

end Separators

lemma readField_field (p : List UInt8 × List UInt8) : readField (field p) = p := by
  have hname : 61 ∉ quote p.1 := not_mem_quote (by decide) (by decide) (by decide) _
  unfold readField field
  rw [takeWhile_separated hname, dropWhile_separated hname, List.drop_one, List.tail_cons, unquote_quote,
    unquote_quote]

/-- A byte that the encoding gives no use stands in no field. -/
lemma not_mem_field {x : UInt8} (hself : unreserved x = false) (hplus : x ≠ 43) (hpercent : x ≠ 37)
    (hequals : x ≠ 61) (p : List UInt8 × List UInt8) : x ∉ field p := by
  unfold field
  rw [List.mem_append, List.mem_cons]
  rintro (hname | heq | hvalue)
  · exact not_mem_quote hself hplus hpercent _ hname
  · exact hequals heq
  · exact not_mem_quote hself hplus hpercent _ hvalue

lemma field_ne_nil (p : List UInt8 × List UInt8) : field p ≠ [] := by simp [field]

lemma encode_cons_cons (p q : List UInt8 × List UInt8) (fields : List (List UInt8 × List UInt8)) :
    encode (p :: q :: fields) = field p ++ 38 :: encode (q :: fields) := by
  simp [encode]

/-- The fields before a separator and those after it. -/
theorem decode_append (s t : List UInt8) : decode (s ++ 38 :: t) = decode s ++ decode t := by
  unfold decode
  rw [List.splitOn_append_cons_self, List.filter_append, List.map_append]

lemma decode_field (p : List UInt8 × List UInt8) : decode (field p) = [p] := by
  unfold decode
  rw [List.splitOn_eq_singleton (not_mem_field (by decide) (by decide) (by decide) (by decide) p)]
  simp [field_ne_nil, readField_field]

/-- **Encoded fields are read back.** -/
theorem decode_encode (fields : List (List UInt8 × List UInt8)) : decode (encode fields) = fields := by
  induction fields with
  | nil => rfl
  | cons p fields ih =>
    cases fields with
    | nil => simpa [encode] using decode_field p
    | cons q fields => rw [encode_cons_cons, decode_append, decode_field, ih, List.singleton_append]

/-- No fragment begins in what is encoded. -/
lemma hash_not_mem_encode (fields : List (List UInt8 × List UInt8)) : 35 ∉ encode fields := by
  have hfield := not_mem_field (x := 35) (by decide) (by decide) (by decide) (by decide)
  induction fields with
  | nil => simp [encode]
  | cons p fields ih =>
    cases fields with
    | nil => simpa [encode] using hfield p
    | cons q fields =>
      rw [encode_cons_cons, List.mem_append, List.mem_cons]
      rintro (hfirst | heq | hrest)
      · exact hfield p hfirst
      · exact absurd heq (by decide)
      · exact ih hrest

/-! ## URLs -/

/-- The page of a URL. -/
def target (url : List UInt8) : List UInt8 := url.takeWhile (· ≠ 63)

/-- The fields in the query of a URL without a fragment. -/
def parameters (url : List UInt8) : List (List UInt8 × List UInt8) :=
  decode ((url.dropWhile (· ≠ 63)).drop 1)

/-- The URL with more fields. -/
def extend (url : List UInt8) (fields : List (List UInt8 × List UInt8)) : List UInt8 :=
  url ++ (if 63 ∈ url then 38 else 63) :: encode fields

theorem target_extend (url : List UInt8) (fields : List (List UInt8 × List UInt8)) :
    target (extend url fields) = target url := by
  unfold target extend
  by_cases h : 63 ∈ url
  · obtain ⟨page, query, rfl, hpage⟩ := List.eq_append_cons_of_mem h
    rw [List.append_assoc, List.cons_append, takeWhile_separated hpage, takeWhile_separated hpage]
  · rw [if_neg h, takeWhile_separated h, List.takeWhile_eq_self_iff.mpr]
    exact fun x hx => decide_eq_true (ne_of_mem_of_not_mem hx h)

theorem parameters_extend (url : List UInt8) (fields : List (List UInt8 × List UInt8)) :
    parameters (extend url fields) = parameters url ++ fields := by
  unfold parameters extend
  by_cases h : 63 ∈ url
  · rw [if_pos h]
    obtain ⟨page, query, rfl, hpage⟩ := List.eq_append_cons_of_mem h
    rw [List.append_assoc, List.cons_append, dropWhile_separated hpage, dropWhile_separated hpage,
      List.drop_one, List.tail_cons, List.drop_one, List.tail_cons, decode_append, decode_encode]
  · have hall : url.dropWhile (· ≠ 63) = [] :=
      List.dropWhile_eq_nil_iff.mpr fun x hx => decide_eq_true (ne_of_mem_of_not_mem hx h)
    rw [if_neg h, dropWhile_separated h, hall, List.drop_one, List.tail_cons, decode_encode]
    rfl

lemma hash_not_mem_extend {url : List UInt8} (h : 35 ∉ url) (fields : List (List UInt8 × List UInt8)) :
    35 ∉ extend url fields := by
  unfold extend
  rw [List.mem_append, List.mem_cons]
  rintro (hurl | heq | hfields)
  · exact h hurl
  · split at heq
    · exact absurd heq (by decide)
    · exact absurd heq (by decide)
  · exact hash_not_mem_encode fields hfields

end UrlForm
