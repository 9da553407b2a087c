import WhatsVault.Platform

/-!
# The sealed edge envelope

`seal` builds an envelope: a header, the ephemeral public key, the nonce, the length of the
ciphertext and the ciphertext, of which the header alone is associated data.  `parseHeader` reads
the fixed header back and `openSealed` decrypts under the key the header names.  The three ways
`open_sealed` fails on purpose are kept apart, since the consumer treats them differently, and so
is an exception of another kind, which the consumer does not catch.
-/

namespace WhatsVault.Sealed

/-- The `cryptography` primitives `open_sealed` composes. -/
structure Primitives where
  /-- `X25519PrivateKey.from_private_bytes(priv).exchange(X25519PublicKey.from_public_bytes(pub))`,
  `none` where it raises. -/
  exchange : Bytes → Bytes → Option Bytes
  /-- `HKDF(SHA256(), 32, None, _INFO).derive(shared)`. -/
  derive : Bytes → Bytes
  /-- `AESGCM(key).decrypt(nonce, ct, aad)`, `none` where it raises `InvalidTag`. -/
  decrypt : Bytes → Bytes → Bytes → Bytes → Option Bytes

/-- What `seal` uses besides. -/
structure SealPrimitives extends Primitives where
  /-- `X25519PrivateKey.from_private_bytes(priv).public_key().public_bytes_raw()`. -/
  publicKey : Bytes → Bytes
  /-- `AESGCM(key).encrypt(nonce, plaintext, aad)`, `none` where it raises. -/
  encrypt : Bytes → Bytes → Bytes → Bytes → Option Bytes

def magic : Bytes := utf8 "WVE1"

def hdrLen : ℕ := 4 + 1 + 1 + 1 + 4 + 32
def ephEnd : ℕ := hdrLen + 32
def nonceEnd : ℕ := ephEnd + 12
def ctlenEnd : ℕ := nonceEnd + 4

/-- `b[i:j]`. -/
def slice (b : Bytes) (i j : ℕ) : Bytes := (b.take j).drop i

/-- `struct.unpack(">I", b)[0]`. -/
def unpackU32 (b : Bytes) : ℕ := b.foldl (fun n x => 256 * n + x.toNat) 0

/-- `bytes([n])` and `struct.pack(">I", n)`: `none` where the number does not fit. -/
def pack (width : ℕ) (n : ℤ) : Option Bytes := if 0 ≤ n then Framing.toBytes width n.toNat else none

/-- `_header_bytes`, `none` where it raises. -/
def headerBytes (envVer alg cver keyId : ℤ) (eventIdHash : Bytes) : Option Bytes :=
  if eventIdHash.length ≠ 32 then none
  else do
    let envVer ← pack 1 envVer
    let alg ← pack 1 alg
    let cver ← pack 1 cver
    let keyId ← pack 4 keyId
    pure (magic ++ (envVer ++ alg ++ cver) ++ keyId ++ eventIdHash)

/-- The arguments of one `seal` call, and the key and the nonce it draws. -/
structure SealCall where
  recipientPub : Bytes
  plaintext : Bytes
  recipientKeyId : ℤ
  eventIdHash : Bytes
  cryptoVersion : ℤ
  algorithmId : ℤ
  envelopeVersion : ℤ
  /-- `X25519PrivateKey.generate()`. -/
  eph : Bytes
  /-- `os.urandom(12)`. -/
  nonce : Bytes
  deriving DecidableEq

def SealCall.aad (s : SealCall) : Option Bytes :=
  headerBytes s.envelopeVersion s.algorithmId s.cryptoVersion s.recipientKeyId s.eventIdHash

/-- `seal`, `none` where it raises. -/
def SealCall.seal (C : SealPrimitives) (s : SealCall) : Option Bytes := do
  let shared ← C.exchange s.eph s.recipientPub
  let aeskey := C.derive shared
  let aad ← s.aad
  let ct ← C.encrypt aeskey s.nonce s.plaintext aad
  let ctLen ← pack 4 ct.length
  pure (aad ++ C.publicKey s.eph ++ s.nonce ++ ctLen ++ ct)

structure Header where
  envelopeVersion : ℕ
  algorithmId : ℕ
  cryptoVersion : ℕ
  recipientKeyId : ℕ
  eventIdHash : Bytes
  ciphertextSha256 : String
  deriving DecidableEq

def ciphertext (envelope : Bytes) : Bytes :=
  slice envelope ctlenEnd (ctlenEnd + unpackU32 (slice envelope nonceEnd ctlenEnd))

/-- `parse_header`, `none` where it raises `BadEnvelope`. -/
def parseHeader (P : Platform) (envelope : Bytes) : Option Header :=
  if envelope.length < ctlenEnd ∨ envelope.take 4 ≠ magic then none
  else if (ciphertext envelope).length ≠ unpackU32 (slice envelope nonceEnd ctlenEnd) then none
  else
    some
      { envelopeVersion := unpackU32 (slice envelope 4 5)
        algorithmId := unpackU32 (slice envelope 5 6)
        cryptoVersion := unpackU32 (slice envelope 6 7)
        recipientKeyId := unpackU32 (slice envelope 7 11)
        eventIdHash := slice envelope 11 43
        ciphertextSha256 := P.hexdigest (ciphertext envelope) }

inductive OpenResult
  | opened (plaintext : Bytes) (header : Header)
  | keyUnavailable
  | badEnvelope
  | authFailed
  | raised
  deriving DecidableEq

/-- The plaintext, where there is one. -/
def OpenResult.plaintext : OpenResult → Option Bytes
  | opened plaintext _ => some plaintext
  | _ => none

lemma OpenResult.plaintext_eq_some {r : OpenResult} {b : Bytes} :
    r.plaintext = some b ↔ ∃ header, r = .opened b header := by
  cases r <;> simp [OpenResult.plaintext]

/-- `open_sealed`. -/
def openSealed (P : Platform) (C : Primitives) (keyLookup : ℕ → Option Bytes) (envelope : Bytes) :
    OpenResult :=
  match parseHeader P envelope with
  | none => .badEnvelope
  | some header =>
    match keyLookup header.recipientKeyId with
    | none => .keyUnavailable
    | some priv =>
      match C.exchange priv (slice envelope hdrLen ephEnd) with
      | none => .raised
      | some shared =>
        match C.decrypt (C.derive shared) (slice envelope ephEnd nonceEnd) (ciphertext envelope)
            (envelope.take hdrLen) with
        | none => .authFailed
        | some plaintext => .opened plaintext header

end WhatsVault.Sealed
