import Mathlib.Data.List.Induction
import WhatsVault.Crypto.Sealed

/-!
# What opens

Under an ideal cipher and key agreement the envelopes that open are the ones `seal` returned for
the recipient's key, each followed by any bytes at all (`opens_iff`): the header is associated
data, the nonce, the ephemeral key and the ciphertext are bound by the cipher and the length by
the ciphertext, but `parse_header` only looks for a buffer that is too short.  So the envelopes
that open are the sealed ones exactly where nothing follows a sealed one (`tight_iff`).
-/

namespace WhatsVault.Sealed

open Framing

/-! ## Reading what was written -/

lemma unpackU32_append_singleton (b : Bytes) (x : UInt8) :
    unpackU32 (b ++ [x]) = 256 * unpackU32 b + x.toNat := by
  simp [unpackU32, List.foldl_append]

lemma unpackU32_digits {width n : ℕ} (h : n < 256 ^ width) : unpackU32 (digits width n) = n := by
  induction width generalizing n with
  | zero =>
    have hzero : n = 0 := by simpa using h
    rw [hzero]
    rfl
  | succ width ih =>
    have hdiv : n / 256 < 256 ^ width := by
      rw [Nat.pow_succ] at h
      omega
    rw [digits, unpackU32_append_singleton, ih hdiv]
    have hbyte : (UInt8.ofNat n).toNat = n % 256 := by simp
    omega

lemma digits_unpackU32 (b : Bytes) : digits b.length (unpackU32 b) = b := by
  induction b using List.reverseRecOn with
  | nil => rfl
  | append_singleton b x ih =>
    have hx := x.toNat_lt
    rw [List.length_append, List.length_singleton, digits, unpackU32_append_singleton]
    have hdiv : (256 * unpackU32 b + x.toNat) / 256 = unpackU32 b := by omega
    have hbyte : UInt8.ofNat (256 * unpackU32 b + x.toNat) = x := by
      apply UInt8.toNat.inj
      simp
    rw [hdiv, hbyte, ih]

lemma unpackU32_lt (b : Bytes) : unpackU32 b < 256 ^ b.length := by
  induction b using List.reverseRecOn with
  | nil => decide
  | append_singleton b x ih =>
    have hx := x.toNat_lt
    rw [unpackU32_append_singleton, List.length_append, List.length_singleton, Nat.pow_succ]
    omega

lemma pack_eq_some {width : ℕ} {n : ℤ} {b : Bytes} :
    pack width n = some b ↔ 0 ≤ n ∧ toBytes width n.toNat = some b := by
  simp [pack]

lemma length_of_pack {width : ℕ} {n : ℤ} {b : Bytes} (h : pack width n = some b) :
    b.length = width := length_of_toBytes (pack_eq_some.mp h).2

lemma unpackU32_of_pack {width : ℕ} {n : ℤ} {b : Bytes} (h : pack width n = some b) :
    (unpackU32 b : ℤ) = n := by
  obtain ⟨hnonneg, hbytes⟩ := pack_eq_some.mp h
  obtain ⟨hlt, rfl⟩ := toBytes_eq_some.mp hbytes
  rw [unpackU32_digits hlt]
  omega

/-- The field between two offsets, read from a concatenation. -/
lemma slice_append_right {a b : Bytes} {i j : ℕ} (h : a.length ≤ i) :
    slice (a ++ b) i j = slice b (i - a.length) (j - a.length) := by
  unfold slice
  by_cases hij : i ≤ j
  · rw [List.take_append, List.drop_append, List.take_of_length_le (le_trans h hij),
      List.drop_of_length_le h, List.nil_append]
  · rw [List.drop_of_length_le, List.drop_of_length_le]
    · rw [List.length_take]
      omega
    · rw [List.length_take]
      omega

lemma slice_append_left {a b : Bytes} {i j : ℕ} (h : j ≤ a.length) :
    slice (a ++ b) i j = slice a i j := by
  unfold slice
  rw [List.take_append_of_le_length h]

lemma slice_full {b : Bytes} {j : ℕ} (h : b.length = j) : slice b 0 j = b := by
  subst h
  simp [slice]

/-! ## The layout of an envelope -/

/-- The parts of a byte string long enough to hold every fixed field: what follows the length field
is the ciphertext and, perhaps, more. -/
structure Parts where
  aad : Bytes
  eph : Bytes
  nonce : Bytes
  len : Bytes
  tail : Bytes
  length_aad : aad.length = 43
  length_eph : eph.length = 32
  length_nonce : nonce.length = 12
  length_len : len.length = 4

namespace Parts

def bytes (p : Parts) : Bytes := p.aad ++ (p.eph ++ (p.nonce ++ (p.len ++ p.tail)))

/-- The ciphertext the length field delimits. -/
def ct (p : Parts) : Bytes := p.tail.take (unpackU32 p.len)

variable (p : Parts)

@[simp] lemma length_bytes : p.bytes.length = ctlenEnd + p.tail.length := by
  simp only [bytes, List.length_append, p.length_aad, p.length_eph, p.length_nonce, p.length_len,
    ctlenEnd, nonceEnd, ephEnd, hdrLen]
  omega

@[simp] lemma take_bytes : p.bytes.take hdrLen = p.aad := by
  rw [bytes, List.take_append_of_le_length (by simp [p.length_aad, hdrLen])]
  exact List.take_of_length_le (by simp [p.length_aad, hdrLen])

/-- A field of the header is one of the associated data. -/
lemma slice_aad {i j : ℕ} (h : j ≤ 43) : slice p.bytes i j = slice p.aad i j :=
  slice_append_left (by rw [p.length_aad]; exact h)

lemma take_four : p.bytes.take 4 = p.aad.take 4 :=
  List.take_append_of_le_length (by rw [p.length_aad]; omega)

@[simp] lemma slice_eph : slice p.bytes hdrLen ephEnd = p.eph := by
  rw [bytes, slice_append_right (by simp [p.length_aad, hdrLen]), p.length_aad,
    slice_append_left (by simp [p.length_eph, ephEnd, hdrLen])]
  exact slice_full p.length_eph

@[simp] lemma slice_nonce : slice p.bytes ephEnd nonceEnd = p.nonce := by
  rw [bytes, slice_append_right (by simp [p.length_aad, ephEnd, hdrLen]), p.length_aad,
    slice_append_right (by simp [p.length_eph, ephEnd, hdrLen]), p.length_eph,
    slice_append_left (by simp [p.length_nonce, nonceEnd, ephEnd, hdrLen])]
  exact slice_full p.length_nonce

lemma bytes_eq_append :
    p.bytes = (p.aad ++ (p.eph ++ p.nonce)) ++ (p.len ++ p.tail) := by
  simp [bytes]

lemma length_before : (p.aad ++ (p.eph ++ p.nonce)).length = nonceEnd := by
  simp [p.length_aad, p.length_eph, p.length_nonce, nonceEnd, ephEnd, hdrLen]

@[simp] lemma slice_len : slice p.bytes nonceEnd ctlenEnd = p.len := by
  rw [bytes_eq_append, slice_append_right p.length_before.le, p.length_before,
    slice_append_left (by simp [p.length_len, ctlenEnd]), Nat.sub_self]
  exact slice_full (by simp [p.length_len, ctlenEnd])

@[simp] lemma ciphertext_bytes : ciphertext p.bytes = p.ct := by
  have hbefore : ((p.aad ++ (p.eph ++ p.nonce)) ++ p.len).length = ctlenEnd := by
    rw [List.length_append, p.length_before, p.length_len, ctlenEnd]
  rw [ciphertext, slice_len, bytes_eq_append, ← List.append_assoc,
    slice_append_right hbefore.le, hbefore, Nat.sub_self, Nat.add_sub_cancel_left]
  simp [slice, ct]

end Parts

lemma take_drop_append_drop (e : Bytes) (i n : ℕ) :
    (e.drop i).take n ++ e.drop (i + n) = e.drop i := by
  rw [← List.drop_drop, List.take_append_drop]

/-- A byte string that holds every fixed field has such parts. -/
lemma exists_parts {e : Bytes} (h : ctlenEnd ≤ e.length) : ∃ p : Parts, p.bytes = e := by
  have hlen : 91 ≤ e.length := h
  refine ⟨⟨e.take 43, (e.drop 43).take 32, (e.drop 75).take 12, (e.drop 87).take 4, e.drop 91,
    ?_, ?_, ?_, ?_⟩, ?_⟩
  · rw [List.length_take]
    omega
  · rw [List.length_take, List.length_drop]
    omega
  · rw [List.length_take, List.length_drop]
    omega
  · rw [List.length_take, List.length_drop]
    omega
  · have hfour := take_drop_append_drop e 87 4
    have hnonce := take_drop_append_drop e 75 12
    have heph := take_drop_append_drop e 43 32
    rw [Parts.bytes]
    simp only [hfour, hnonce, heph, List.take_append_drop]

/-! ## What opens -/

/-- The header of an envelope with these parts. -/
def Parts.header (P : Platform) (p : Parts) : Header :=
  { envelopeVersion := unpackU32 (slice p.aad 4 5)
    algorithmId := unpackU32 (slice p.aad 5 6)
    cryptoVersion := unpackU32 (slice p.aad 6 7)
    recipientKeyId := unpackU32 (slice p.aad 7 11)
    eventIdHash := slice p.aad 11 43
    ciphertextSha256 := P.hexdigest p.ct }

lemma parseHeader_bytes (P : Platform) (p : Parts) :
    parseHeader P p.bytes =
      if p.aad.take 4 = magic ∧ p.ct.length = unpackU32 p.len then some (p.header P) else none := by
  have hlong : ¬ p.bytes.length < ctlenEnd := by
    rw [p.length_bytes]
    omega
  have hfields : ∀ i j, j ≤ 43 → slice p.bytes i j = slice p.aad i j := fun i j h => p.slice_aad h
  unfold parseHeader
  rw [p.take_four, p.ciphertext_bytes, p.slice_len, hfields 4 5 (by omega), hfields 5 6 (by omega),
    hfields 6 7 (by omega), hfields 7 11 (by omega), hfields 11 43 (by omega)]
  by_cases hmagic : p.aad.take 4 = magic
  · by_cases hct : p.ct.length = unpackU32 p.len
    · rw [if_neg (not_or.mpr ⟨hlong, not_not.mpr hmagic⟩), if_neg (not_not.mpr hct),
        if_pos ⟨hmagic, hct⟩]
      rfl
    · rw [if_neg (not_or.mpr ⟨hlong, not_not.mpr hmagic⟩), if_pos hct, if_neg (by simp [hct])]
  · rw [if_pos (by simp [hmagic]), if_neg (by simp [hmagic])]

/-- Everything `open_sealed` checks, on the parts. -/
lemma openSealed_bytes_eq_opened {P : Platform} {C : Primitives} {keyLookup : ℕ → Option Bytes}
    {p : Parts} {pt : Bytes} {hdr : Header} :
    openSealed P C keyLookup p.bytes = .opened pt hdr ↔
      p.aad.take 4 = magic ∧ p.ct.length = unpackU32 p.len ∧ hdr = p.header P ∧
        ∃ priv, keyLookup (p.header P).recipientKeyId = some priv ∧
          ∃ shared, C.exchange priv p.eph = some shared ∧
            C.decrypt (C.derive shared) p.nonce p.ct p.aad = some pt := by
  unfold openSealed
  rw [parseHeader_bytes, p.slice_eph, p.slice_nonce, p.ciphertext_bytes, p.take_bytes]
  by_cases hok : p.aad.take 4 = magic ∧ p.ct.length = unpackU32 p.len
  · rw [if_pos hok]
    simp only [hok, true_and]
    cases hkey : keyLookup (p.header P).recipientKeyId with
    | none => simp
    | some priv =>
      cases hshared : C.exchange priv p.eph with
      | none => simp [hshared]
      | some shared =>
        cases hpt : C.decrypt (C.derive shared) p.nonce p.ct p.aad with
        | none => simp [hshared, hpt]
        | some plaintext =>
          simp only [hshared, hpt, OpenResult.opened.injEq, Option.some.injEq, exists_eq_left']
          constructor
          · rintro ⟨rfl, rfl⟩
            exact ⟨rfl, rfl⟩
          · rintro ⟨rfl, rfl⟩
            exact ⟨rfl, rfl⟩
  · rw [if_neg hok]
    constructor
    · intro h
      cases h
    · rintro ⟨hmagic, hct, -⟩
      exact absurd ⟨hmagic, hct⟩ hok

/-! ## What is sealed -/

/-- The header `seal` writes. -/
def SealCall.header (P : Platform) (s : SealCall) (ct : Bytes) : Header :=
  { envelopeVersion := s.envelopeVersion.toNat
    algorithmId := s.algorithmId.toNat
    cryptoVersion := s.cryptoVersion.toNat
    recipientKeyId := s.recipientKeyId.toNat
    eventIdHash := s.eventIdHash
    ciphertextSha256 := P.hexdigest ct }

/-- The associated data are the magic followed by the fields of the header. -/
structure Reads (s : SealCall) (aad : Bytes) : Prop where
  length : aad.length = 43
  magic : aad.take 4 = Sealed.magic
  envelopeVersion : unpackU32 (slice aad 4 5) = s.envelopeVersion.toNat
  algorithmId : unpackU32 (slice aad 5 6) = s.algorithmId.toNat
  cryptoVersion : unpackU32 (slice aad 6 7) = s.cryptoVersion.toNat
  recipientKeyId : unpackU32 (slice aad 7 11) = s.recipientKeyId.toNat
  eventIdHash : slice aad 11 43 = s.eventIdHash

lemma toNat_of_pack {width : ℕ} {n : ℤ} {b : Bytes} (h : pack width n = some b) :
    unpackU32 b = n.toNat := by
  have hcast := unpackU32_of_pack h
  omega

lemma reads_of_aad {s : SealCall} {aad : Bytes} (h : s.aad = some aad) : Reads s aad := by
  unfold SealCall.aad headerBytes at h
  split at h
  · cases h
  · rename_i hhash
    have hhash : s.eventIdHash.length = 32 := not_not.mp hhash
    simp only [Option.bind_eq_bind, Option.bind_eq_some_iff, Option.pure_def,
      Option.some.injEq] at h
    obtain ⟨ver, hver, alg, halg, cver, hcver, keyId, hkeyId, rfl⟩ := h
    have hmagic : Sealed.magic.length = 4 := by decide
    have hverlen := length_of_pack hver
    have halglen := length_of_pack halg
    have hcverlen := length_of_pack hcver
    have hkeylen := length_of_pack hkeyId
    simp only [List.append_assoc]
    refine ⟨?_, ?_, ?_, ?_, ?_, ?_, ?_⟩
    · simp [hmagic, hverlen, halglen, hcverlen, hkeylen, hhash]
    · rw [List.take_append_of_le_length (by rw [hmagic])]
      exact List.take_of_length_le (by rw [hmagic])
    · rw [slice_append_right (by rw [hmagic]), hmagic, slice_append_left (by omega),
        slice_full (by omega)]
      exact toNat_of_pack hver
    · rw [slice_append_right (by rw [hmagic]; omega), hmagic,
        slice_append_right (by omega), hverlen, slice_append_left (by omega),
        slice_full (by omega)]
      exact toNat_of_pack halg
    · rw [slice_append_right (by rw [hmagic]; omega), hmagic,
        slice_append_right (by omega), hverlen, slice_append_right (by omega), halglen,
        slice_append_left (by omega), slice_full (by omega)]
      exact toNat_of_pack hcver
    · rw [slice_append_right (by rw [hmagic]; omega), hmagic,
        slice_append_right (by omega), hverlen, slice_append_right (by omega), halglen,
        slice_append_right (by omega), hcverlen, slice_append_left (by omega),
        slice_full (by omega)]
      exact toNat_of_pack hkeyId
    · rw [slice_append_right (by rw [hmagic]; omega), hmagic,
        slice_append_right (by omega), hverlen, slice_append_right (by omega), halglen,
        slice_append_right (by omega), hcverlen, slice_append_right (by omega), hkeylen,
        slice_full (by omega)]

lemma Reads.header_eq {P : Platform} {s : SealCall} {p : Parts} (h : Reads s p.aad) :
    p.header P = s.header P p.ct := by
  unfold Parts.header SealCall.header
  rw [h.envelopeVersion, h.algorithmId, h.cryptoVersion, h.recipientKeyId, h.eventIdHash]

/-- The parts are the ones a `seal` call put together. -/
structure Composes (C : SealPrimitives) (s : SealCall) (p : Parts) : Prop where
  aad : s.aad = some p.aad
  eph : p.eph = C.publicKey s.eph
  nonce : p.nonce = s.nonce
  len : pack 4 p.tail.length = some p.len
  encrypted : ∃ shared, C.exchange s.eph s.recipientPub = some shared ∧
    C.encrypt (C.derive shared) s.nonce s.plaintext p.aad = some p.tail

lemma seal_of_composes {C : SealPrimitives} {s : SealCall} {p : Parts} (h : Composes C s p) :
    s.seal C = some p.bytes := by
  obtain ⟨shared, hshared, hct⟩ := h.encrypted
  simp [SealCall.seal, hshared, h.aad, hct, h.len, Parts.bytes, h.eph, h.nonce]

lemma composes_of_seal {C : SealPrimitives} {s : SealCall} {e : Bytes}
    (hpub : (C.publicKey s.eph).length = 32) (hnonce : s.nonce.length = 12)
    (h : s.seal C = some e) : ∃ p, Composes C s p ∧ p.bytes = e := by
  simp only [SealCall.seal, Option.bind_eq_bind, Option.bind_eq_some_iff, Option.pure_def,
    Option.some.injEq] at h
  obtain ⟨shared, hshared, aad, haad, ct, hct, len, hlen, rfl⟩ := h
  refine ⟨⟨aad, C.publicKey s.eph, s.nonce, len, ct, (reads_of_aad haad).length, hpub, hnonce,
    length_of_pack hlen⟩, ⟨haad, rfl, rfl, hlen, shared, hshared, hct⟩, ?_⟩
  simp [Parts.bytes]

lemma Composes.ct_eq {C : SealPrimitives} {s : SealCall} {p : Parts} (h : Composes C s p) :
    p.ct = p.tail := by
  have hlen := toNat_of_pack h.len
  apply List.take_of_length_le
  omega

/-! ## Ideal primitives -/

/-- The cipher and the key agreement are ideal for the `seal` calls made so far and the private
keys the recipient holds. -/
structure Ideal (C : SealPrimitives) (keyLookup : ℕ → Option Bytes) (calls : List SealCall) :
    Prop where
  length_publicKey : ∀ priv, (C.publicKey priv).length = 32
  length_nonce : ∀ s ∈ calls, s.nonce.length = 12
  /-- Both ends of a key agreement arrive at one secret. -/
  agreement : ∀ a b, C.exchange a (C.publicKey b) = C.exchange b (C.publicKey a)
  /-- The key of a `seal` call is reached only with the private key it was made for and its own
  ephemeral key. -/
  exclusive : ∀ s ∈ calls, ∀ k priv eph shared shared', keyLookup k = some priv →
    C.exchange priv eph = some shared → C.exchange s.eph s.recipientPub = some shared' →
    C.derive shared = C.derive shared' → s.recipientPub = C.publicKey priv ∧ eph = C.publicKey s.eph
  decrypt_encrypt : ∀ s ∈ calls, ∀ shared aad ct, C.exchange s.eph s.recipientPub = some shared →
    s.aad = some aad → C.encrypt (C.derive shared) s.nonce s.plaintext aad = some ct →
    C.decrypt (C.derive shared) s.nonce ct aad = some s.plaintext
  /-- Decryption succeeds only for the key, the nonce, the ciphertext and the associated data that
  some `seal` call produced. -/
  authentic : ∀ key nonce ct aad pt, C.decrypt key nonce ct aad = some pt →
    ∃ s ∈ calls, ∃ shared, C.exchange s.eph s.recipientPub = some shared ∧
      C.derive shared = key ∧ s.nonce = nonce ∧ s.aad = some aad ∧
      C.encrypt key nonce s.plaintext aad = some ct

section Opening

variable (P : Platform) (C : SealPrimitives) (keyLookup : ℕ → Option Bytes)
  (calls : List SealCall)

/-- The call sealed to the public half of the key the recipient holds under that key id. -/
def SealCall.For (s : SealCall) : Prop :=
  ∃ priv, keyLookup s.recipientKeyId.toNat = some priv ∧ s.recipientPub = C.publicKey priv

/-- An envelope some call returned for the recipient's key. -/
def IsSealed (e : Bytes) : Prop := ∃ s ∈ calls, s.seal C = some e ∧ s.For C keyLookup

/-- `open_sealed` succeeds. -/
def Opens (e : Bytes) : Prop :=
  ∃ pt hdr, openSealed P C.toPrimitives keyLookup e = .opened pt hdr

/-- The byte string opens exactly if it is a sealed envelope, and then to what was sealed. -/
structure Tight (e : Bytes) : Prop where
  opens_iff : Opens P C keyLookup e ↔ IsSealed C keyLookup calls e
  returns : ∀ s ∈ calls, s.seal C = some e → s.For C keyLookup →
    openSealed P C.toPrimitives keyLookup e = .opened s.plaintext (s.header P (ciphertext e))

/-- A sealed envelope with bytes appended to it. -/
def Extended (e : Bytes) : Prop :=
  ∃ sealedBytes extra, extra ≠ [] ∧ e = sealedBytes ++ extra ∧ IsSealed C keyLookup calls sealedBytes

variable {P C keyLookup calls}

/-- The parts with more bytes at the end. -/
def Parts.extend (p : Parts) (extra : Bytes) : Parts := { p with tail := p.tail ++ extra }

lemma Parts.bytes_extend (p : Parts) (extra : Bytes) : (p.extend extra).bytes = p.bytes ++ extra := by
  simp [Parts.extend, Parts.bytes]

lemma Composes.ct_extend {s : SealCall} {p : Parts} (h : Composes C s p) (extra : Bytes) :
    (p.extend extra).ct = p.tail := by
  have hlen := toNat_of_pack h.len
  show (p.tail ++ extra).take (unpackU32 p.len) = p.tail
  rw [List.take_append_of_le_length (by omega)]
  exact h.ct_eq

/-- An envelope opens to what was sealed, whatever follows it. -/
lemma openSealed_extend (hideal : Ideal C keyLookup calls) {s : SealCall} {p : Parts} (hs : s ∈ calls)
    (h : Composes C s p) (hfor : s.For C keyLookup) (extra : Bytes) :
    openSealed P C.toPrimitives keyLookup (p.bytes ++ extra) =
      .opened s.plaintext (s.header P p.tail) := by
  have hreads := reads_of_aad h.aad
  have hlen := toNat_of_pack h.len
  obtain ⟨priv, hkey, hpub⟩ := hfor
  obtain ⟨shared, hshared, hct⟩ := h.encrypted
  have hheader : (p.extend extra).header P = s.header P p.tail := by
    have hextend : Reads s (p.extend extra).aad := hreads
    rw [hextend.header_eq, h.ct_extend]
  rw [← Parts.bytes_extend, openSealed_bytes_eq_opened]
  refine ⟨hreads.magic, ?_, hheader.symm, priv, ?_, shared, ?_, ?_⟩
  · rw [h.ct_extend]
    show p.tail.length = unpackU32 p.len
    omega
  · rw [hheader]
    exact hkey
  · show C.exchange priv p.eph = some shared
    rw [h.eph, hideal.agreement, ← hpub]
    exact hshared
  · rw [h.ct_extend]
    show C.decrypt (C.derive shared) p.nonce p.tail p.aad = some s.plaintext
    rw [h.nonce]
    exact hideal.decrypt_encrypt s hs _ _ _ hshared h.aad hct

/-- **What opens is a sealed envelope followed by any bytes.** -/
theorem opens_iff (hideal : Ideal C keyLookup calls) (e : Bytes) :
    Opens P C keyLookup e ↔ ∃ b extra, e = b ++ extra ∧ IsSealed C keyLookup calls b := by
  constructor
  · rintro ⟨pt, hdr, hopen⟩
    have hlong : ctlenEnd ≤ e.length := by
      by_contra hshort
      simp [openSealed, parseHeader, Nat.lt_of_not_le hshort] at hopen
    obtain ⟨p, rfl⟩ := exists_parts hlong
    obtain ⟨-, hct, -, priv, hkey, shared, hshared, hdecrypt⟩ := openSealed_bytes_eq_opened.mp hopen
    obtain ⟨s, hs, shared', hshared', hderive, hnonce, haad, hencrypt⟩ :=
      hideal.authentic _ _ _ _ _ hdecrypt
    obtain ⟨hpub, heph⟩ := hideal.exclusive s hs _ _ _ _ _ hkey hshared hshared' hderive.symm
    -- the envelope of that call is the byte string up to the end of its ciphertext
    let front : Parts := { p with tail := p.ct }
    have hfits : p.ct.length < 256 ^ 4 := by
      have hlt := unpackU32_lt p.len
      rw [p.length_len] at hlt
      omega
    have hlen : pack 4 p.ct.length = some p.len := by
      rw [pack_eq_some, toBytes_eq_some]
      refine ⟨by omega, by omega, ?_⟩
      have hdigits := digits_unpackU32 p.len
      rw [p.length_len, ← hct] at hdigits
      exact hdigits
    have hfront : Composes C s front :=
      ⟨haad, heph, hnonce.symm, hlen, shared', hshared', by
        show C.encrypt (C.derive shared') s.nonce s.plaintext p.aad = some p.ct
        rw [hderive, hnonce]
        exact hencrypt⟩
    refine ⟨front.bytes, p.tail.drop (unpackU32 p.len), ?_, s, hs, seal_of_composes hfront, priv, ?_,
      hpub⟩
    · rw [← Parts.bytes_extend]
      show p.bytes = p.aad ++ (p.eph ++ (p.nonce ++ (p.len ++ (p.ct ++ p.tail.drop _))))
      rw [Parts.ct, List.take_append_drop]
      rfl
    · rw [← (reads_of_aad haad).recipientKeyId]
      exact hkey
  · rintro ⟨b, extra, rfl, s, hs, hseal, hfor⟩
    obtain ⟨p, hp, rfl⟩ :=
      composes_of_seal (hideal.length_publicKey _) (hideal.length_nonce s hs) hseal
    exact ⟨_, _, openSealed_extend hideal hs hp hfor extra⟩

/-- The length field of a sealed envelope ends it, so none is a proper extension of another. -/
lemma eq_nil_of_sealed_append (hideal : Ideal C keyLookup calls) {b extra : Bytes}
    (hb : IsSealed C keyLookup calls b) (hext : IsSealed C keyLookup calls (b ++ extra)) :
    extra = [] := by
  obtain ⟨s, hs, hseal, -⟩ := hb
  obtain ⟨s', hs', hseal', -⟩ := hext
  obtain ⟨p, hp, rfl⟩ :=
    composes_of_seal (hideal.length_publicKey _) (hideal.length_nonce s hs) hseal
  obtain ⟨q, hq, heq⟩ :=
    composes_of_seal (hideal.length_publicKey _) (hideal.length_nonce s' hs') hseal'
  rw [← Parts.bytes_extend] at heq
  have hlenfield : q.len = p.len := by
    rw [← q.slice_len, heq, (p.extend extra).slice_len]
    rfl
  have hp' := toNat_of_pack hp.len
  have hq' := toNat_of_pack hq.len
  have hlength := congrArg List.length heq
  rw [q.length_bytes, (p.extend extra).length_bytes] at hlength
  have htail : (p.extend extra).tail.length = p.tail.length + extra.length := by
    simp [Parts.extend]
  rw [hlenfield] at hq'
  exact List.eq_nil_of_length_eq_zero (by omega)

/-- **An envelope is tamper-proof exactly up to bytes at its end.** -/
theorem tight_iff (hideal : Ideal C keyLookup calls) (e : Bytes) :
    Tight P C keyLookup calls e ↔ ¬ Extended C keyLookup calls e := by
  constructor
  · rintro htight ⟨b, extra, hextra, rfl, hb⟩
    have hopens : Opens P C keyLookup (b ++ extra) :=
      (opens_iff hideal _).mpr ⟨b, extra, rfl, hb⟩
    exact hextra (eq_nil_of_sealed_append hideal hb (htight.opens_iff.mp hopens))
  · intro hnot
    refine ⟨⟨fun hopens => ?_, fun hsealed => ?_⟩, fun s hs hseal hfor => ?_⟩
    · obtain ⟨b, extra, rfl, hb⟩ := (opens_iff hideal _).mp hopens
      by_cases hextra : extra = []
      · rw [hextra, List.append_nil]
        exact hb
      · exact absurd ⟨b, extra, hextra, rfl, hb⟩ hnot
    · exact (opens_iff hideal _).mpr ⟨e, [], by simp, hsealed⟩
    · obtain ⟨p, hp, rfl⟩ :=
        composes_of_seal (hideal.length_publicKey _) (hideal.length_nonce s hs) hseal
      have hopened := openSealed_extend (P := P) hideal hs hp hfor []
      rw [List.append_nil] at hopened
      rw [p.ciphertext_bytes, hp.ct_eq]
      exact hopened

end Opening

/-! ## A byte after the ciphertext -/

/-- A cipher that knows one envelope: keys agree by exclusive or, the tag is sixteen zero bytes. -/
def oneEnvelope (key nonce plaintext aad : Bytes) : SealPrimitives where
  exchange priv pub :=
    if pub.length = 32 then
      some (List.zipWith (· ^^^ ·) ((priv ++ List.replicate 32 0).take 32) pub)
    else none
  derive shared := shared
  decrypt key' nonce' ct aad' :=
    if key' = key ∧ nonce' = nonce ∧ ct = plaintext ++ List.replicate 16 0 ∧ aad' = aad then
      some plaintext
    else none
  publicKey priv := (priv ++ List.replicate 32 0).take 32
  encrypt _ _ plaintext' _ := some (plaintext' ++ List.replicate 16 0)

def sampleKeys : ℕ → Option Bytes := fun k => if k = 7 then some (List.replicate 32 1) else none

def sampleCall : SealCall where
  recipientPub := List.replicate 32 1
  plaintext := [104, 105]
  recipientKeyId := 7
  eventIdHash := List.replicate 32 5
  cryptoVersion := 1
  algorithmId := 1
  envelopeVersion := 1
  eph := List.replicate 32 2
  nonce := List.replicate 12 9

def sampleCipher : SealPrimitives :=
  oneEnvelope (List.replicate 32 3) (List.replicate 12 9) [104, 105]
    (magic ++ [1, 1, 1, 0, 0, 0, 7] ++ List.replicate 32 5)

def sampleEnvelope : Bytes :=
  magic ++ [1, 1, 1, 0, 0, 0, 7] ++ List.replicate 32 5 ++ List.replicate 32 2 ++
    List.replicate 12 9 ++ [0, 0, 0, 18] ++ [104, 105] ++ List.replicate 16 0

lemma zipWith_xor_cancel {a b c : Bytes} (hb : b.length = a.length) (hc : c.length = a.length)
    (h : List.zipWith (· ^^^ ·) a b = List.zipWith (· ^^^ ·) a c) : b = c := by
  induction a generalizing b c with
  | nil => rw [List.eq_nil_of_length_eq_zero hb, List.eq_nil_of_length_eq_zero hc]
  | cons x a ih =>
    cases b with
    | nil => simp at hb
    | cons y b =>
      cases c with
      | nil => simp at hc
      | cons z c =>
        simp only [List.zipWith_cons_cons, List.cons.injEq] at h
        have htail := ih (by simpa using hb) (by simpa using hc) h.2
        have hhead : y = z := by simpa using h.1
        rw [hhead, htail]

lemma sample_ideal : Ideal sampleCipher sampleKeys [sampleCall] where
  length_publicKey priv := by simp [sampleCipher, oneEnvelope]
  length_nonce s hs := by
    rw [List.mem_singleton.mp hs]
    decide
  agreement a b := by
    have hcomm : ∀ x y : Bytes,
        List.zipWith (· ^^^ ·) x y = List.zipWith (· ^^^ ·) y x := fun x y => by
      rw [List.zipWith_comm]
      simp only [UInt8.xor_comm]
    simp [sampleCipher, oneEnvelope, hcomm]
  exclusive s hs k priv eph shared shared' hkey hshared hshared' hderive := by
    rw [List.mem_singleton.mp hs] at hshared' ⊢
    have hpriv : priv = List.replicate 32 1 := by
      unfold sampleKeys at hkey
      split at hkey
      · exact (Option.some.inj hkey).symm
      · cases hkey
    rw [hpriv] at hshared ⊢
    have hcall : sampleCipher.exchange sampleCall.eph sampleCall.recipientPub =
        some (List.replicate 32 3) := by decide
    have hthree : shared = List.replicate 32 3 := by
      have hsecret : shared' = List.replicate 32 3 := Option.some.inj (hshared'.symm.trans hcall)
      exact (show shared = shared' from hderive).trans hsecret
    refine ⟨by decide, ?_⟩
    simp only [sampleCipher, oneEnvelope] at hshared
    split at hshared
    · rename_i hlength
      refine zipWith_xor_cancel (a := List.replicate 32 1) (by simpa using hlength) (by decide) ?_
      have hleft := (Option.some.inj hshared).trans hthree
      exact hleft.trans (by decide)
    · cases hshared
  decrypt_encrypt s hs shared aad ct hshared haad hct := by
    rw [List.mem_singleton.mp hs] at hshared haad hct ⊢
    have hsecret : sampleCipher.exchange sampleCall.eph sampleCall.recipientPub =
        some (List.replicate 32 3) := by decide
    have hheader : sampleCall.aad = some (magic ++ [1, 1, 1, 0, 0, 0, 7] ++ List.replicate 32 5) := by
      decide
    obtain rfl := Option.some.inj (hshared.symm.trans hsecret)
    obtain rfl := Option.some.inj (haad.symm.trans hheader)
    obtain rfl := Option.some.inj hct
    decide
  authentic key nonce ct aad pt h := by
    simp only [sampleCipher, oneEnvelope] at h
    split at h
    · rename_i hmatch
      obtain ⟨rfl, rfl, rfl, rfl⟩ := hmatch
      exact ⟨sampleCall, List.mem_singleton_self _, List.replicate 32 3, by decide, by decide,
        by decide, by decide, by decide⟩
    · cases h

lemma sample_sealed : IsSealed sampleCipher sampleKeys [sampleCall] sampleEnvelope :=
  ⟨sampleCall, List.mem_singleton_self _, by decide, List.replicate 32 1, by decide, by decide⟩

/-- One byte appended to a sealed envelope: it still opens, and no call returned it. -/
theorem appended_byte_opens :
    Ideal sampleCipher sampleKeys [sampleCall] ∧
      Opens ⟨fun _ => [], fun _ _ _ => false⟩ sampleCipher sampleKeys (sampleEnvelope ++ [0]) ∧
      ¬ IsSealed sampleCipher sampleKeys [sampleCall] (sampleEnvelope ++ [0]) := by
  refine ⟨sample_ideal, ?_, fun hsealed => ?_⟩
  · exact (opens_iff sample_ideal _).mpr ⟨sampleEnvelope, [0], rfl, sample_sealed⟩
  · exact absurd (eq_nil_of_sealed_append sample_ideal sample_sealed hsealed) (by decide)

theorem tight_iff_sample :
    Tight ⟨fun _ => [], fun _ _ _ => false⟩ sampleCipher sampleKeys [sampleCall] sampleEnvelope ↔
      ¬ Extended sampleCipher sampleKeys [sampleCall] sampleEnvelope :=
  tight_iff sample_ideal sampleEnvelope

end WhatsVault.Sealed
