import WhatsVault.Crypto.Authenticity

/-!
# Blobs at rest

`seal_blob` writes a header (magic, version, key id and nonce) before the ciphertext, and binds it as
associated data together with the caller's own.  Nothing in the header says how long the ciphertext
is: it is all that follows.

So under an ideal cipher what opens is exactly what `seal_blob` returned, for the same key and the same
associated data, with nothing changed, cut off or added (`opened_iff`).  The sealed edge envelope,
which delimits its ciphertext, is not as tight.
-/

namespace WhatsVault.AtRest

open Framing
open Sealed (slice pack)

/-- The methods of `AESGCM(key)`. -/
structure Primitives where
  /-- `encrypt(nonce, plaintext, aad)`, `none` where it raises. -/
  encrypt : Bytes → Bytes → Bytes → Bytes → Option Bytes
  /-- `decrypt(nonce, ct, aad)`, `none` where it raises `InvalidTag`. -/
  decrypt : Bytes → Bytes → Bytes → Bytes → Option Bytes

def magic : Bytes := utf8 "WVA1"

def headerLen : ℕ := 4 + 1 + 4 + 12

/-- The arguments of one `seal_blob` call, and the nonce it draws. -/
structure SealCall where
  key : Bytes
  plaintext : Bytes
  keyId : ℤ
  aad : Bytes
  /-- `os.urandom(12)`. -/
  nonce : Bytes
  deriving DecidableEq

/-- `MAGIC + bytes([_VERSION]) + key_id.to_bytes(4, "big") + nonce`. -/
def SealCall.header (s : SealCall) : Option Bytes :=
  (pack 4 s.keyId).map fun keyId => magic ++ [1] ++ keyId ++ s.nonce

/-- `seal_blob`, `none` where it raises. -/
def SealCall.seal (C : Primitives) (s : SealCall) : Option Bytes := do
  let header ← s.header
  let ct ← C.encrypt s.key s.nonce s.plaintext (header ++ s.aad)
  pure (header ++ ct)

inductive OpenResult
  | opened (plaintext : Bytes)
  /-- `ValueError` of a blob that is too short or has another magic. -/
  | notAnEnvelope
  /-- `ValueError` that names the version. -/
  | unsupportedVersion (version : ℕ)
  | invalidTag
  deriving DecidableEq

/-- `open_blob`. -/
def openBlob (C : Primitives) (key blob aad : Bytes) : OpenResult :=
  if blob.length < headerLen ∨ blob.take 4 ≠ magic then .notAnEnvelope
  else if slice blob 4 5 ≠ [1] then .unsupportedVersion (Sealed.unpackU32 (slice blob 4 5))
  else
    match C.decrypt key (slice blob 9 headerLen) (blob.drop headerLen)
        (blob.take headerLen ++ aad) with
    | none => .invalidTag
    | some plaintext => .opened plaintext

/-- The cipher is ideal for the calls made so far: it inverts what they made of their plaintexts, and
knows no other ciphertext. -/
structure Ideal (C : Primitives) (calls : List SealCall) : Prop where
  length_nonce : ∀ s ∈ calls, s.nonce.length = 12
  decrypt_encrypt : ∀ s ∈ calls, ∀ header ct, s.header = some header →
    C.encrypt s.key s.nonce s.plaintext (header ++ s.aad) = some ct →
    C.decrypt s.key s.nonce ct (header ++ s.aad) = some s.plaintext
  authentic : ∀ key nonce ct aad pt, C.decrypt key nonce ct aad = some pt →
    ∃ s ∈ calls, ∃ header, s.header = some header ∧ s.key = key ∧ s.nonce = nonce ∧
      header ++ s.aad = aad ∧ C.encrypt key nonce s.plaintext aad = some ct

variable {C : Primitives} {calls : List SealCall} {s : SealCall}

/-- What the fields of a header are. -/
structure Header (s : SealCall) (header : Bytes) : Prop where
  length : header.length = headerLen
  magic : header.take 4 = AtRest.magic
  version : slice header 4 5 = [1]
  nonce : slice header 9 headerLen = s.nonce

lemma length_magic : magic.length = 4 := by decide

lemma header_eq_some {header : Bytes} (hnonce : s.nonce.length = 12) (h : s.header = some header) :
    Header s header := by
  obtain ⟨keyId, hkeyId, rfl⟩ := Option.map_eq_some_iff.mp h
  have hlength := Sealed.length_of_pack hkeyId
  have hmagic := length_magic
  have hfront : (magic ++ [1] ++ keyId).length = 9 := by simp [hmagic, hlength]
  refine ⟨?_, ?_, ?_, ?_⟩
  · rw [List.length_append, hfront, hnonce, headerLen]
  · rw [List.append_assoc, List.append_assoc, List.take_append_of_le_length hmagic.ge]
    exact List.take_of_length_le hmagic.le
  · rw [List.append_assoc, List.append_assoc, Sealed.slice_append_right hmagic.le, hmagic,
      Sealed.slice_append_left (by simp)]
    rfl
  · rw [Sealed.slice_append_right hfront.le, hfront, Nat.sub_self]
    exact Sealed.slice_full (by rw [hnonce, headerLen])

/-- What a call returned opens to its plaintext. -/
lemma openBlob_seal (hideal : Ideal C calls) (hs : s ∈ calls) {blob : Bytes}
    (hseal : s.seal C = some blob) : openBlob C s.key blob s.aad = .opened s.plaintext := by
  simp only [SealCall.seal, Option.bind_eq_bind, Option.bind_eq_some_iff, Option.pure_def,
    Option.some.injEq] at hseal
  obtain ⟨header, hheader, ct, hct, rfl⟩ := hseal
  have hfields := header_eq_some (hideal.length_nonce s hs) hheader
  have hlength := hfields.length
  have htake {n : ℕ} (hn : n ≤ headerLen) : (header ++ ct).take n = header.take n :=
    List.take_append_of_le_length (by omega)
  have hslice {i j : ℕ} (hj : j ≤ headerLen) : slice (header ++ ct) i j = slice header i j :=
    Sealed.slice_append_left (by omega)
  unfold openBlob
  rw [htake (by decide), hslice (by decide), hslice le_rfl, htake le_rfl, hfields.magic,
    hfields.version, hfields.nonce, List.take_of_length_le hlength.le,
    List.drop_left' hlength, hideal.decrypt_encrypt s hs header ct hheader hct]
  have hlong : ¬ (header ++ ct).length < headerLen := by
    rw [List.length_append]
    omega
  rw [if_neg (not_or.mpr ⟨hlong, not_not.mpr rfl⟩), if_neg (by simp)]

/-- **What opens is what was sealed.** -/
theorem opened_iff (hideal : Ideal C calls) (key blob aad pt : Bytes) :
    openBlob C key blob aad = .opened pt ↔
      ∃ s ∈ calls, s.seal C = some blob ∧ s.key = key ∧ s.aad = aad ∧ s.plaintext = pt := by
  constructor
  · intro hopen
    unfold openBlob at hopen
    split at hopen
    · cases hopen
    rename_i hlong
    rw [not_or, not_lt, not_not] at hlong
    split at hopen
    · cases hopen
    split at hopen
    · cases hopen
    rename_i plaintext hdecrypt
    cases hopen
    obtain ⟨s, hs, header, hheader, rfl, hnonce, haad, hencrypt⟩ :=
      hideal.authentic _ _ _ _ _ hdecrypt
    -- both headers have one length, so the associated data splits in one way
    have hlength := (header_eq_some (hideal.length_nonce s hs) hheader).length
    have hsplit := List.append_inj haad (by rw [hlength, List.length_take]; omega)
    obtain ⟨rfl, rfl⟩ := hsplit
    have hplain := hideal.decrypt_encrypt s hs _ _ hheader (hnonce ▸ hencrypt)
    rw [hnonce, hdecrypt] at hplain
    refine ⟨s, hs, ?_, rfl, rfl, (Option.some.inj hplain).symm⟩
    simp only [SealCall.seal, hheader, Option.bind_eq_bind, Option.bind_some, hnonce, hencrypt,
      Option.pure_def, List.take_append_drop]
  · rintro ⟨s, hs, hseal, rfl, rfl, rfl⟩
    exact openBlob_seal hideal hs hseal

/-! ## One blob -/

/-- A cipher that knows one call; its tag is sixteen zero bytes. -/
def oneBlob (s : SealCall) : Primitives where
  encrypt _ _ plaintext _ := some (plaintext ++ List.replicate 16 0)
  decrypt key nonce ct aad :=
    if key = s.key ∧ nonce = s.nonce ∧ ct = s.plaintext ++ List.replicate 16 0 ∧
        s.header.map (· ++ s.aad) = some aad then
      some s.plaintext
    else none

lemma ideal_oneBlob (hnonce : s.nonce.length = 12) : Ideal (oneBlob s) [s] where
  length_nonce := by
    intro t ht
    rwa [List.mem_singleton.mp ht]
  decrypt_encrypt := by
    intro t ht header ct hheader hct
    obtain rfl := List.mem_singleton.mp ht
    obtain rfl := Option.some.inj hct
    simp [oneBlob, hheader]
  authentic := by
    intro key nonce ct aad pt h
    simp only [oneBlob, Option.ite_none_right_eq_some] at h
    obtain ⟨⟨rfl, rfl, rfl, haad⟩, -⟩ := h
    obtain ⟨header, hheader, rfl⟩ := Option.map_eq_some_iff.mp haad
    exact ⟨s, List.mem_singleton_self s, header, hheader, rfl, rfl, rfl, rfl⟩

def sampleCall : SealCall where
  key := List.replicate 32 1
  plaintext := [104, 105]
  keyId := 0
  aad := [97]
  nonce := List.replicate 12 2

theorem opened_iff_sampleCall :
    openBlob (oneBlob sampleCall) (List.replicate 32 1) (utf8 "WVA1") [97] = .opened [104, 105] ↔
      ∃ s ∈ [sampleCall], s.seal (oneBlob sampleCall) = some (utf8 "WVA1") ∧
        s.key = List.replicate 32 1 ∧ s.aad = [97] ∧ s.plaintext = [104, 105] :=
  opened_iff (ideal_oneBlob rfl) _ _ _ _

end WhatsVault.AtRest
