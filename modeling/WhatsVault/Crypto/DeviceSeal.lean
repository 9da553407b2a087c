import WhatsVault.Crypto.Authenticity

/-!
# The seal to a device

`device_seal.seal` encrypts to the P-256 agreement key of a phone: the magic, the ephemeral public key,
the nonce, the length of the ciphertext and the ciphertext.  The caller's associated data is all that is
bound; none of what stands before the ciphertext is.

`open_sealed` checks the magic and nothing else, and takes a slice as long as the length field says, so a
longer ciphertext than there is does no harm, and neither does anything after it.  Under ideal
primitives that is all that can be changed in an envelope that still opens (`opens_on_device_iff`); and
what `seal` returned opens only on the device it was sealed to, only under the same associated data, and
to nothing but what was sealed (`opened_seal_iff`).
-/

namespace WhatsVault.DeviceSeal

open Framing
open Sealed (slice pack unpackU32)

/-- The `cryptography` primitives; a private key is its scalar, and a point its uncompressed encoding. -/
structure Primitives where
  /-- `EllipticCurvePublicKey.from_encoded_point(SECP256R1(), b)`, `none` where it raises. -/
  fromEncodedPoint : Bytes → Option Bytes
  /-- `priv.exchange(ECDH(), pub)`. -/
  exchange : Bytes → Bytes → Bytes
  /-- `HKDF(SHA256(), 32, None, _INFO).derive(shared)`. -/
  derive : Bytes → Bytes
  /-- `priv.public_key().public_bytes(X962, UncompressedPoint)`. -/
  publicKey : Bytes → Bytes
  /-- `AESGCM(key).encrypt(nonce, plaintext, aad)`, `none` where it raises. -/
  encrypt : Bytes → Bytes → Bytes → Bytes → Option Bytes
  /-- `AESGCM(key).decrypt(nonce, ct, aad)`, `none` where it raises `InvalidTag`. -/
  decrypt : Bytes → Bytes → Bytes → Bytes → Option Bytes

def magic : Bytes := utf8 "WVD1"

def ephEnd : ℕ := 4 + 65
def nonceEnd : ℕ := ephEnd + 12
def ctlenEnd : ℕ := nonceEnd + 4

/-- The arguments of one `seal` call, and the key and the nonce it draws. -/
structure SealCall where
  agreementPub : Bytes
  plaintext : Bytes
  aad : Bytes
  /-- `ec.generate_private_key(ec.SECP256R1())`. -/
  eph : Bytes
  /-- `os.urandom(12)`. -/
  nonce : Bytes
  deriving DecidableEq

/-- The key a call derives. -/
def SealCall.key (C : Primitives) (s : SealCall) : Option Bytes :=
  (C.fromEncodedPoint s.agreementPub).map fun pub => C.derive (C.exchange s.eph pub)

/-- The ciphertext of a call. -/
def SealCall.ct (C : Primitives) (s : SealCall) : Option Bytes :=
  (s.key C).bind fun k => C.encrypt k s.nonce s.plaintext s.aad

/-- What a call writes before the length. -/
def SealCall.front (C : Primitives) (s : SealCall) : Bytes :=
  magic ++ C.publicKey s.eph ++ s.nonce

/-- `seal`, `none` where it raises. -/
def SealCall.seal (C : Primitives) (s : SealCall) : Option Bytes := do
  let ct ← s.ct C
  let ctLen ← pack 4 ct.length
  pure (s.front C ++ ctLen ++ ct)

inductive OpenResult
  | opened (plaintext : Bytes)
  /-- `DeviceSealError("bad device envelope")`. -/
  | badEnvelope
  /-- `DeviceSealError("device seal auth failed")`. -/
  | authFailed
  /-- `struct.error` of an envelope that ends before its length does. -/
  | structError
  /-- `ValueError` of bytes that are no point of the curve. -/
  | valueError
  deriving DecidableEq

/-- `open_sealed`. -/
def openSealed (C : Primitives) (agreementPriv envelope aad : Bytes) : OpenResult :=
  if envelope.take 4 ≠ magic then .badEnvelope
  else
    let ephpub := slice envelope 4 ephEnd
    let nonce := slice envelope ephEnd nonceEnd
    let clen := slice envelope nonceEnd ctlenEnd
    if clen.length ≠ 4 then .structError
    else
      let ct := slice envelope ctlenEnd (ctlenEnd + unpackU32 clen)
      match C.fromEncodedPoint ephpub with
      | none => .valueError
      | some pub =>
        match C.decrypt (C.derive (C.exchange agreementPriv pub)) nonce ct aad with
        | none => .authFailed
        | some plaintext => .opened plaintext

/-! ## Ideal primitives -/

/-- The call sealed to the public half of a private key. -/
def SealCall.For (C : Primitives) (priv : Bytes) (s : SealCall) : Prop :=
  C.fromEncodedPoint s.agreementPub = some (C.publicKey priv)

/-- The cipher and the key agreement are ideal for the calls made so far and the private keys that
the devices hold. -/
structure Ideal (C : Primitives) (held : List Bytes) (calls : List SealCall) : Prop where
  length_publicKey : ∀ priv, (C.publicKey priv).length = 65
  length_nonce : ∀ s ∈ calls, s.nonce.length = 12
  point_publicKey : ∀ priv, C.fromEncodedPoint (C.publicKey priv) = some (C.publicKey priv)
  /-- 65 bytes are an uncompressed encoding or none. -/
  uncompressed : ∀ b pub, b.length = 65 → C.fromEncodedPoint b = some pub → b = pub
  /-- Both ends of a key agreement arrive at one secret. -/
  agreement : ∀ a b, C.exchange a (C.publicKey b) = C.exchange b (C.publicKey a)
  /-- On a device the key of a call is reached only with the private key it was made for and its own
  ephemeral key. -/
  exclusive : ∀ s ∈ calls, ∀ priv ∈ held, ∀ b pub, C.fromEncodedPoint b = some pub →
    s.key C = some (C.derive (C.exchange priv pub)) → s.For C priv ∧ pub = C.publicKey s.eph
  decrypt_encrypt : ∀ s ∈ calls, ∀ k ct, s.key C = some k →
    C.encrypt k s.nonce s.plaintext s.aad = some ct → C.decrypt k s.nonce ct s.aad = some s.plaintext
  /-- Decryption succeeds only for the key, the nonce, the ciphertext and the associated data of some
  call. -/
  authentic : ∀ k nonce ct aad pt, C.decrypt k nonce ct aad = some pt →
    ∃ s ∈ calls, s.key C = some k ∧ s.nonce = nonce ∧ s.aad = aad ∧
      C.encrypt k nonce s.plaintext aad = some ct
  /-- No ephemeral key is drawn twice. -/
  fresh : ∀ s ∈ calls, ∀ s' ∈ calls, C.publicKey s.eph = C.publicKey s'.eph → s = s'

/-- What is left of the envelope of a call where it still opens: all but the length, which may be too
long if the envelope ends with the ciphertext, and may be followed by anything if it is right. -/
def Carries (C : Primitives) (s : SealCall) (envelope : Bytes) : Prop :=
  ∃ ct len extra, s.ct C = some ct ∧ envelope = s.front C ++ len ++ ct ++ extra ∧ len.length = 4 ∧
    (unpackU32 len = ct.length ∨ ct.length < unpackU32 len ∧ extra = [])

variable {C : Primitives} {held : List Bytes} {calls : List SealCall} {s : SealCall} {priv : Bytes}

lemma length_magic : magic.length = 4 := by decide

lemma length_front (hideal : Ideal C held calls) (hs : s ∈ calls) : (s.front C).length = nonceEnd := by
  unfold SealCall.front
  rw [List.length_append, List.length_append, length_magic, hideal.length_publicKey,
    hideal.length_nonce s hs, nonceEnd, ephEnd]

lemma slice_middle {a b c : Bytes} {i j : ℕ} (ha : a.length = i) (hb : b.length + i = j) :
    slice (a ++ (b ++ c)) i j = b := by
  rw [Sealed.slice_append_right ha.le, ha, Nat.sub_self, Sealed.slice_append_left (by omega)]
  exact Sealed.slice_full (by omega)

lemma slice_add (b : Bytes) (i n : ℕ) : slice b i (i + n) = (b.drop i).take n := by
  rw [slice, List.drop_take, Nat.add_sub_cancel_left]

/-- The fields of an envelope, and what follows them. -/
lemma fields_append (e : Bytes) :
    e.take 4 ++ slice e 4 ephEnd ++ slice e ephEnd nonceEnd ++ slice e nonceEnd ctlenEnd ++
      e.drop ctlenEnd = e := by
  have hstep {i j : ℕ} (hij : i ≤ j) : e.take i ++ slice e i j = e.take j := by
    have htake : (e.take j).take i = e.take i := by rw [List.take_take, min_eq_left hij]
    rw [slice, ← htake, List.take_append_drop]
  rw [hstep (by decide), hstep (by decide), hstep (by decide), List.take_append_drop]

/-- An envelope that carries a call opens where the call was sealed to. -/
lemma openSealed_of_carries (hideal : Ideal C held calls) (hs : s ∈ calls) (hfor : s.For C priv)
    {envelope : Bytes} (h : Carries C s envelope) :
    openSealed C priv envelope s.aad = .opened s.plaintext := by
  obtain ⟨ct, len, extra, hct, rfl, hlen, hfits⟩ := h
  have hpub := hideal.length_publicKey s.eph
  have hnonce := hideal.length_nonce s hs
  have hmagic := length_magic
  have hfront := length_front hideal hs
  obtain ⟨k, hk, hencrypt⟩ := Option.bind_eq_some_iff.mp hct
  have htake : (s.front C ++ len ++ ct ++ extra).take 4 = magic := by
    simp only [SealCall.front, List.append_assoc]
    exact List.take_left' hmagic
  have heph : slice (s.front C ++ len ++ ct ++ extra) 4 ephEnd = C.publicKey s.eph := by
    simp only [SealCall.front, List.append_assoc]
    exact slice_middle hmagic (by rw [hpub, ephEnd])
  have hslice : slice (s.front C ++ len ++ ct ++ extra) ephEnd nonceEnd = s.nonce := by
    have hbefore : (magic ++ C.publicKey s.eph).length = ephEnd := by
      rw [List.length_append, hmagic, hpub, ephEnd]
    simp only [SealCall.front, List.append_assoc]
    rw [← List.append_assoc]
    exact slice_middle hbefore (by rw [hnonce, nonceEnd]; omega)
  have hclen : slice (s.front C ++ len ++ ct ++ extra) nonceEnd ctlenEnd = len := by
    simp only [List.append_assoc]
    exact slice_middle hfront (by rw [hlen, ctlenEnd]; omega)
  have htext : slice (s.front C ++ len ++ ct ++ extra) ctlenEnd (ctlenEnd + unpackU32 len) = ct := by
    have hbefore : (s.front C ++ len).length = ctlenEnd := by
      rw [List.length_append, hfront, hlen, ctlenEnd]
    rw [List.append_assoc, Sealed.slice_append_right hbefore.le, hbefore, Nat.sub_self,
      Nat.add_sub_cancel_left]
    obtain heq | ⟨hlong, rfl⟩ := hfits
    · rw [heq, Sealed.slice_append_left le_rfl]
      exact Sealed.slice_full rfl
    · rw [List.append_nil, slice, List.drop_zero]
      exact List.take_of_length_le hlong.le
  have hkey : C.derive (C.exchange priv (C.publicKey s.eph)) = k := by
    have hpoint : C.fromEncodedPoint s.agreementPub = some (C.publicKey priv) := hfor
    have hderived := hk
    rw [SealCall.key, hpoint, Option.map_some] at hderived
    rw [hideal.agreement]
    exact Option.some.inj hderived
  unfold openSealed
  simp only [htake, ne_eq, not_true_eq_false, if_false, heph, hslice, hclen, hlen, htext,
    hideal.point_publicKey, hkey, hideal.decrypt_encrypt s hs k ct hk hencrypt]

/-- **What opens is what was sealed to the device**, but for the length and what follows. -/
theorem opens_on_device_iff (hideal : Ideal C held calls) (hpriv : priv ∈ held) (envelope aad pt : Bytes) :
    openSealed C priv envelope aad = .opened pt ↔
      ∃ s ∈ calls, s.For C priv ∧ s.aad = aad ∧ s.plaintext = pt ∧ Carries C s envelope := by
  constructor
  · intro hopen
    unfold openSealed at hopen
    dsimp only at hopen
    split at hopen
    · cases hopen
    rename_i hmagic
    split at hopen
    · cases hopen
    rename_i hclen
    split at hopen
    · cases hopen
    rename_i pub hpub
    split at hopen
    · cases hopen
    rename_i plaintext hdecrypt
    cases hopen
    rw [not_not] at hmagic hclen
    have hlong : ctlenEnd ≤ envelope.length := by
      rw [slice, List.length_drop, List.length_take] at hclen
      simp only [ctlenEnd, nonceEnd, ephEnd] at hclen ⊢
      omega
    obtain ⟨s, hs, hkey, hnonce, rfl, hencrypt⟩ := hideal.authentic _ _ _ _ _ hdecrypt
    obtain ⟨hfor, rfl⟩ := hideal.exclusive s hs priv hpriv _ _ hpub hkey
    have hplain := hideal.decrypt_encrypt s hs _ _ hkey (hnonce ▸ hencrypt)
    rw [hnonce, hdecrypt] at hplain
    have heph : slice envelope 4 ephEnd = C.publicKey s.eph := by
      refine hideal.uncompressed _ _ ?_ hpub
      rw [slice, List.length_drop, List.length_take]
      simp only [ctlenEnd, nonceEnd, ephEnd] at hlong ⊢
      omega
    refine ⟨s, hs, hfor, rfl, (Option.some.inj hplain).symm, ?_⟩
    have hct : s.ct C = some (slice envelope ctlenEnd
        (ctlenEnd + unpackU32 (slice envelope nonceEnd ctlenEnd))) := by
      rw [SealCall.ct, hkey, Option.bind_some, hnonce]
      exact hencrypt
    -- the slice is as long as the length says, unless the envelope ends before
    refine ⟨_, slice envelope nonceEnd ctlenEnd,
      (envelope.drop ctlenEnd).drop (unpackU32 (slice envelope nonceEnd ctlenEnd)), hct, ?_, hclen, ?_⟩
    · conv_lhs => rw [← fields_append envelope]
      rw [hmagic, heph, ← hnonce, SealCall.front, slice_add, List.append_assoc _ (List.take _ _),
        List.take_append_drop]
    · rw [slice_add, List.length_take]
      generalize unpackU32 (slice envelope nonceEnd ctlenEnd) = n
      by_cases hn : n ≤ (envelope.drop ctlenEnd).length
      · exact .inl (min_eq_left hn).symm
      · exact .inr ⟨by omega, List.drop_eq_nil_of_le (by omega)⟩
  · rintro ⟨s, hs, hfor, rfl, rfl, hcarries⟩
    exact openSealed_of_carries hideal hs hfor hcarries

lemma carries_of_seal {envelope : Bytes} (h : s.seal C = some envelope) : Carries C s envelope := by
  simp only [SealCall.seal, Option.bind_eq_bind, Option.bind_eq_some_iff, Option.pure_def,
    Option.some.injEq] at h
  obtain ⟨ct, hct, len, hlen, rfl⟩ := h
  have hvalue := Sealed.toNat_of_pack hlen
  exact ⟨ct, len, [], hct, by simp, Sealed.length_of_pack hlen, .inl (by omega)⟩

/-- The front of an envelope names its call. -/
lemma eq_of_carries (hideal : Ideal C held calls) {s' : SealCall} (hs : s ∈ calls) (hs' : s' ∈ calls)
    {envelope : Bytes} (h : Carries C s envelope) (h' : Carries C s' envelope) : s = s' := by
  obtain ⟨ct, len, extra, -, rfl, -, -⟩ := h
  obtain ⟨ct', len', extra', -, heq, -, -⟩ := h'
  simp only [SealCall.front, List.append_assoc] at heq
  obtain ⟨-, heq⟩ := List.append_inj heq rfl
  have hlength : (C.publicKey s.eph).length = (C.publicKey s'.eph).length := by
    rw [hideal.length_publicKey, hideal.length_publicKey]
  exact hideal.fresh s hs s' hs' (List.append_inj heq hlength).1

/-- **What `seal` returned opens on its device, under its associated data, and nowhere else.** -/
lemma opened_seal_iff (hideal : Ideal C held calls) (hpriv : priv ∈ held) (hs : s ∈ calls)
    {envelope : Bytes} (hseal : s.seal C = some envelope) (aad pt : Bytes) :
    openSealed C priv envelope aad = .opened pt ↔
      s.For C priv ∧ s.aad = aad ∧ s.plaintext = pt := by
  rw [opens_on_device_iff hideal hpriv]
  constructor
  · rintro ⟨s', hs', hfor, haad, hplain, hcarries⟩
    obtain rfl := eq_of_carries hideal hs hs' (carries_of_seal hseal) hcarries
    exact ⟨hfor, haad, hplain⟩
  · rintro ⟨hfor, haad, hplain⟩
    exact ⟨s, hs, hfor, haad, hplain, carries_of_seal hseal⟩

/-! ## One envelope -/

def paddedKey (priv : Bytes) : Bytes := (priv ++ List.replicate 65 0).take 65

/-- Primitives that know one call: keys agree by exclusive or, the tag is sixteen zero bytes. -/
def oneSeal (s : SealCall) (priv : Bytes) : Primitives where
  fromEncodedPoint b := if b.length = 65 then some b else none
  exchange priv' pub := List.zipWith (· ^^^ ·) (paddedKey priv') pub
  derive shared := shared
  publicKey := paddedKey
  encrypt _ _ plaintext _ := some (plaintext ++ List.replicate 16 0)
  decrypt key nonce ct aad :=
    if key = List.zipWith (· ^^^ ·) (paddedKey s.eph) (paddedKey priv) ∧ nonce = s.nonce ∧
        ct = s.plaintext ++ List.replicate 16 0 ∧ aad = s.aad then
      some s.plaintext
    else none

lemma xor_comm (a b : Bytes) : List.zipWith (· ^^^ ·) a b = List.zipWith (· ^^^ ·) b a := by
  rw [List.zipWith_comm]
  simp only [UInt8.xor_comm]

lemma length_paddedKey (priv : Bytes) : (paddedKey priv).length = 65 := by simp [paddedKey]

lemma key_oneSeal (hpub : s.agreementPub = paddedKey priv) : s.key (oneSeal s priv) =
    some (List.zipWith (· ^^^ ·) (paddedKey s.eph) (paddedKey priv)) := by
  simp [SealCall.key, oneSeal, hpub, length_paddedKey]

lemma ideal_oneSeal (hnonce : s.nonce.length = 12) (hpub : s.agreementPub = paddedKey priv) :
    Ideal (oneSeal s priv) [priv] [s] where
  length_publicKey := length_paddedKey
  length_nonce := by
    intro t ht
    rwa [List.mem_singleton.mp ht]
  point_publicKey key := by simp [oneSeal, length_paddedKey]
  uncompressed b pub hlength h := by
    simpa [oneSeal, hlength] using h
  agreement a b := xor_comm _ _
  exclusive := by
    intro t ht priv' hpriv' b pub hpoint hkey
    obtain rfl := List.mem_singleton.mp ht
    obtain rfl := List.mem_singleton.mp hpriv'
    rw [key_oneSeal hpub, xor_comm] at hkey
    simp only [oneSeal, Option.ite_none_right_eq_some, Option.some.injEq] at hpoint hkey
    obtain ⟨hlength, rfl⟩ := hpoint
    refine ⟨by simp [SealCall.For, oneSeal, hpub, length_paddedKey], ?_⟩
    exact (Sealed.zipWith_xor_cancel (by rw [length_paddedKey, length_paddedKey])
      (by rw [hlength, length_paddedKey]) hkey).symm
  decrypt_encrypt := by
    intro t ht k ct hk hct
    obtain rfl := List.mem_singleton.mp ht
    rw [key_oneSeal hpub] at hk
    obtain rfl := Option.some.inj hk
    obtain rfl := Option.some.inj hct
    simp [oneSeal]
  authentic := by
    intro k nonce ct aad pt h
    simp only [oneSeal, Option.ite_none_right_eq_some] at h
    obtain ⟨⟨rfl, rfl, rfl, rfl⟩, -⟩ := h
    exact ⟨s, List.mem_singleton_self s, key_oneSeal hpub, rfl, rfl, rfl⟩
  fresh := by
    intro t ht t' ht' _
    rw [List.mem_singleton.mp ht, List.mem_singleton.mp ht']

def sampleCall : SealCall where
  agreementPub := paddedKey [1]
  plaintext := [104, 105]
  aad := [97]
  eph := [2]
  nonce := List.replicate 12 3

/-- Its envelope, the length too large by one. -/
def sampleEnvelope : Bytes :=
  magic ++ paddedKey [2] ++ List.replicate 12 3 ++ [0, 0, 0, 19] ++ [104, 105] ++ List.replicate 16 0

theorem opens_on_device_iff_sampleCall :
    openSealed (oneSeal sampleCall [1]) [1] sampleEnvelope [97] = .opened [104, 105] ↔
      ∃ s ∈ [sampleCall], s.For (oneSeal sampleCall [1]) [1] ∧ s.aad = [97] ∧
        s.plaintext = [104, 105] ∧ Carries (oneSeal sampleCall [1]) s sampleEnvelope :=
  opens_on_device_iff (ideal_oneSeal rfl rfl) (List.mem_singleton_self _) _ _ _

end WhatsVault.DeviceSeal
