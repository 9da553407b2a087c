import WhatsVault.Platform

/-!
# Evidence fingerprints

`content_fingerprint` names a message's type and text, `import_fingerprint` one occurrence of such a
content in a minute of a conversation.  Both hash length-prefixed chunks behind a domain line, and
where SHA-256 does not collide they name what they hash (`importFingerprint_inj`).
-/

namespace WhatsVault.Importers

open Framing

def fingerprintVersion : ℕ := 1

def contentDomain : Bytes := utf8 "WHATSVAULT-CONTENT-V1\n"

def importDomain : Bytes := utf8 "WHATSVAULT-IMPORT-FP-V1\n"

/-- `content_fingerprint`, `none` where a length does not fit its prefix. -/
def contentFingerprint (P : Platform) (messageType : String) (originalText : Option String) :
    Option String := do
  let blob ← frames 4 [utf8 messageType, utf8 (originalText.getD "")]
  pure (P.hexdigest (contentDomain ++ blob))

/-- A content fingerprint names the type and the text. -/
theorem contentFingerprint_inj {P : Platform} (hsha : Function.Injective P.sha256)
    {type type' : String} {text text' : Option String} {fp : String}
    (h : contentFingerprint P type text = some fp) (h' : contentFingerprint P type' text' = some fp) :
    type = type' ∧ text.getD "" = text'.getD "" := by
  obtain ⟨blob, hblob, hfp⟩ := Option.bind_eq_some_iff.mp h
  obtain ⟨blob', hblob', hfp'⟩ := Option.bind_eq_some_iff.mp h'
  have hsame := List.append_cancel_left
    (Platform.hexdigest_injective hsha ((Option.some.inj hfp).trans (Option.some.inj hfp').symm))
  subst hsame
  have hframes := frames_injective (by omega) hblob hblob'
  simp only [List.cons.injEq, utf8_inj, and_true] at hframes
  exact hframes

lemma contentFingerprint_isSome {P : Platform} {type : String} {text : Option String} :
    (contentFingerprint P type text).isSome ↔
      (utf8 type).length < 256 ^ 4 ∧ (utf8 (text.getD "")).length < 256 ^ 4 := by
  have hframes : (contentFingerprint P type text).isSome =
      (frames 4 [utf8 type, utf8 (text.getD "")]).isSome := by
    unfold contentFingerprint
    cases frames 4 [utf8 type, utf8 (text.getD "")] <;> rfl
  rw [hframes, frames_isSome]
  simp only [List.forall_mem_cons, List.not_mem_nil, false_implies, implies_true, and_true]

/-- The messages an export cannot tell apart: one conversation, minute, sender, type and content. -/
structure Bucket where
  conversationId : String
  minuteMs : ℤ
  sender : String
  type : String
  contentFp : String
  deriving DecidableEq

/-- `import_fingerprint`, `none` where a number does not fit its chunk. -/
def importFingerprint (P : Platform) (b : Bucket) (occurrenceIndex : ℕ) : Option String := do
  let version ← toBytes 4 fingerprintVersion
  let bucket ← toSignedBytes 8 b.minuteMs
  let index ← toBytes 4 occurrenceIndex
  let blob ← frames 4 [version, utf8 b.conversationId, bucket, utf8 b.sender, utf8 b.type,
    utf8 b.contentFp, index]
  pure (P.hexdigest (importDomain ++ blob))

lemma importFingerprint_eq_some {P : Platform} {b : Bucket} {i : ℕ} {fp : String} :
    importFingerprint P b i = some fp ↔
      ∃ version bucket index blob, toBytes 4 fingerprintVersion = some version ∧
        toSignedBytes 8 b.minuteMs = some bucket ∧ toBytes 4 i = some index ∧
        frames 4 [version, utf8 b.conversationId, bucket, utf8 b.sender, utf8 b.type,
          utf8 b.contentFp, index] = some blob ∧ P.hexdigest (importDomain ++ blob) = fp := by
  simp [importFingerprint, Option.bind_eq_some_iff]

/-- The numbers and texts a fingerprint can be made of. -/
lemma importFingerprint_isSome {P : Platform} {b : Bucket} {i : ℕ} :
    (importFingerprint P b i).isSome ↔
      (toSignedBytes 8 b.minuteMs).isSome ∧ i < 256 ^ 4 ∧
        (utf8 b.conversationId).length < 256 ^ 4 ∧ (utf8 b.sender).length < 256 ^ 4 ∧
        (utf8 b.type).length < 256 ^ 4 ∧ (utf8 b.contentFp).length < 256 ^ 4 := by
  simp only [Option.isSome_iff_exists, importFingerprint_eq_some]
  constructor
  · rintro ⟨-, version, bucket, index, blob, -, hbucket, hindex, hblob, -⟩
    have hchunks := frames_isSome.mp (Option.isSome_iff_exists.mpr ⟨blob, hblob⟩)
    simp only [List.forall_mem_cons] at hchunks
    obtain ⟨-, hconversation, -, hsender, htype, hcontent, -⟩ := hchunks
    exact ⟨⟨bucket, hbucket⟩, (toBytes_eq_some.mp hindex).1, hconversation, hsender, htype,
      hcontent⟩
  · rintro ⟨⟨bucket, hbucket⟩, hindex, hconversation, hsender, htype, hcontent⟩
    have hversion : toBytes 4 fingerprintVersion = some (digits 4 fingerprintVersion) :=
      toBytes_eq_some.mpr ⟨by decide, rfl⟩
    have hplace : toBytes 4 i = some (digits 4 i) := toBytes_eq_some.mpr ⟨hindex, rfl⟩
    have hshort : (4 : ℕ) < 256 ^ 4 := by decide
    have hblob : (frames 4 [digits 4 fingerprintVersion, utf8 b.conversationId, bucket,
        utf8 b.sender, utf8 b.type, utf8 b.contentFp, digits 4 i]).isSome := by
      rw [frames_isSome]
      simp only [List.forall_mem_cons, length_digits, length_of_toSignedBytes hbucket]
      exact ⟨hshort, hconversation, by decide, hsender, htype, hcontent, hshort, by simp⟩
    obtain ⟨blob, hblob⟩ := Option.isSome_iff_exists.mp hblob
    exact ⟨_, _, _, _, blob, hversion, hbucket, hplace, hblob, rfl⟩

/-- A fingerprint names its bucket and its place in it. -/
theorem importFingerprint_inj {P : Platform} (hsha : Function.Injective P.sha256) {b c : Bucket}
    {i j : ℕ} {fp : String} (hb : importFingerprint P b i = some fp)
    (hc : importFingerprint P c j = some fp) : b = c ∧ i = j := by
  obtain ⟨version, bucket, index, blob, hversion, hbucket, hindex, hblob, rfl⟩ :=
    importFingerprint_eq_some.mp hb
  obtain ⟨version', bucket', index', blob', hversion', hbucket', hindex', hblob', heq⟩ :=
    importFingerprint_eq_some.mp hc
  have hsame := List.append_cancel_left (Platform.hexdigest_injective hsha heq)
  subst hsame
  have hframes := frames_injective (by omega) hblob hblob'
  simp only [List.cons.injEq, utf8_inj, and_true] at hframes
  obtain ⟨-, hconversation, rfl, hsender, htype, hcontent, rfl⟩ := hframes
  have hminute := toSignedBytes_injective hbucket hbucket'
  refine ⟨?_, toBytes_injective hindex hindex'⟩
  cases b
  cases c
  simp_all

end WhatsVault.Importers
