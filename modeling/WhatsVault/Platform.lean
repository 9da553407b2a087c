import WhatsVault.Text

/-!
# Cryptographic primitives

The two primitives of the `hashlib` and `cryptography` packages the model takes as given.  Nothing
is assumed of them here: where a result needs SHA-256 to be collision-free or signatures to be
unforgeable, it says so in its own hypotheses.
-/

namespace WhatsVault

structure Platform where
  /-- `hashlib.sha256(b).digest()`. -/
  sha256 : Bytes → Bytes
  /-- `pub.verify(der, payload, ECDSA(SHA256()))` on a payload, a raw `r‖s` signature and a SEC1
  public key: whether it neither raises `InvalidSignature` nor `ValueError`. -/
  ecdsaVerify : Bytes → Bytes → Bytes → Bool

/-- One lower-case hexadecimal digit. -/
def hexDigit (n : ℕ) : Char := if n < 10 then Char.ofNat (48 + n) else Char.ofNat (87 + n)

/-- `b.hex()`. -/
def hex (b : Bytes) : String :=
  String.ofList (b.flatMap fun x => [hexDigit (x.toNat / 16), hexDigit (x.toNat % 16)])

lemma hexDigit_inj : ∀ m < 16, ∀ n < 16, hexDigit m = hexDigit n → m = n := by decide

lemma hex_injective : Function.Injective hex := by
  intro b c h
  have hlist := String.ofList_injective h
  clear h
  induction b generalizing c with
  | nil => cases c with
    | nil => rfl
    | cons y c => simp at hlist
  | cons x b ih =>
    cases c with
    | nil => simp at hlist
    | cons y c =>
      simp only [List.flatMap_cons, List.cons_append, List.nil_append, List.cons.injEq] at hlist
      obtain ⟨hhigh, hlow, htail⟩ := hlist
      have hx := x.toNat_lt
      have hy := y.toNat_lt
      have hdiv := hexDigit_inj _ (by omega) _ (by omega) hhigh
      have hmod := hexDigit_inj _ (by omega) _ (by omega) hlow
      have hbyte : x = y := UInt8.toNat.inj (by omega)
      rw [hbyte, ih htail]

/-- `hashlib.sha256(b).hexdigest()`. -/
def Platform.hexdigest (P : Platform) (b : Bytes) : String := hex (P.sha256 b)

lemma Platform.hexdigest_injective {P : Platform} (hsha : Function.Injective P.sha256) :
    Function.Injective P.hexdigest := hex_injective.comp hsha

end WhatsVault
