import Mathlib
import WhatsVault.Approval.Drafts
import WhatsVault.Importers.Fingerprint

/-!
# The byte streams that are hashed

Template parameters, attachment lists, message contents and imported occurrences are each hashed as
a domain line and a run of length-prefixed chunks.  The two list encoders write four chunks for each
element, its index first, and no count: the end of the stream ends the list.  A stream names the
function it was made for and that function's arguments, once their defaults are filled in
(`hashed_content_unambiguous`).
-/

namespace WhatsVault

open Framing

/-- `s.encode("utf-8")`, `none` where it raises. -/
def PyStr.bytes (s : PyStr) : Option Bytes := s.encode.map utf8

/-- `s.encode("ascii")`, `none` where it raises. -/
def PyStr.asciiBytes (s : PyStr) : Option Bytes :=
  s.encode.bind fun text => if text.toList.all (fun c => c.toNat < 128) then some (utf8 text) else none

/-- `n.to_bytes(width, "big")` of a Python integer, which raises on a negative one. -/
def toUnsignedBytes (width : ℕ) (n : ℤ) : Option Bytes :=
  if 0 ≤ n then toBytes width n.toNat else none

lemma PyStr.encode_eq_some {s : PyStr} {text : String} : s.encode = some text ↔ s = .text text := by
  cases s <;> simp [PyStr.encode]

lemma PyStr.bytes_eq_some {s : PyStr} {b : Bytes} :
    s.bytes = some b ↔ ∃ text, s = .text text ∧ utf8 text = b := by
  simp [PyStr.bytes, PyStr.encode_eq_some]

lemma PyStr.bytes_injective {s t : PyStr} {b : Bytes} (hs : s.bytes = some b)
    (ht : t.bytes = some b) : s = t := by
  obtain ⟨text, rfl, htext⟩ := PyStr.bytes_eq_some.mp hs
  obtain ⟨text', rfl, htext'⟩ := PyStr.bytes_eq_some.mp ht
  rw [utf8_injective (htext.trans htext'.symm)]

lemma PyStr.bytes_of_asciiBytes {s : PyStr} {b : Bytes} (h : s.asciiBytes = some b) :
    s.bytes = some b := by
  obtain ⟨text, htext, hb⟩ := Option.bind_eq_some_iff.mp h
  simp only [Option.ite_none_right_eq_some, Option.some.injEq] at hb
  exact PyStr.bytes_eq_some.mpr ⟨text, PyStr.encode_eq_some.mp htext, hb.2⟩

lemma toUnsignedBytes_injective {width : ℕ} {m n : ℤ} {b : Bytes}
    (hm : toUnsignedBytes width m = some b) (hn : toUnsignedBytes width n = some b) : m = n := by
  simp only [toUnsignedBytes, Option.ite_none_right_eq_some] at hm hn
  have hnat := toBytes_injective hm.2 hn.2
  omega

/-! ## Lists of triples -/

/-- The chunks of a list of string triples whose first element has ordinal `i`: the ordinal and the
three strings of each element. -/
def indexedParts : ℕ → List (PyStr × PyStr × PyStr) → Option (List Bytes)
  | _, [] => some []
  | i, (a, b, c) :: triples => do
    let a ← a.bytes
    let b ← b.bytes
    let c ← c.bytes
    let rest ← indexedParts (i + 1) triples
    pure ([utf8 (toString i), a, b, c] ++ rest)

lemma indexedParts_cons_eq_some {i : ℕ} {a b c : PyStr} {triples : List (PyStr × PyStr × PyStr)}
    {parts : List Bytes} :
    indexedParts i ((a, b, c) :: triples) = some parts ↔
      ∃ a' b' c' rest, a.bytes = some a' ∧ b.bytes = some b' ∧ c.bytes = some c' ∧
        indexedParts (i + 1) triples = some rest ∧
        utf8 (toString i) :: a' :: b' :: c' :: rest = parts := by
  simp [indexedParts, Option.bind_eq_some_iff]

/-- The chunks say how many elements there are. -/
lemma indexedParts_injective {i : ℕ} {xs ys : List (PyStr × PyStr × PyStr)} {parts : List Bytes}
    (hx : indexedParts i xs = some parts) (hy : indexedParts i ys = some parts) : xs = ys := by
  induction xs generalizing i ys parts with
  | nil =>
    obtain rfl : [] = parts := by simpa [indexedParts] using hx
    cases ys with
    | nil => rfl
    | cons y ys =>
      obtain ⟨a, b, c⟩ := y
      obtain ⟨_, _, _, _, _, _, _, _, hnil⟩ := indexedParts_cons_eq_some.mp hy
      exact absurd hnil (List.cons_ne_nil _ _)
  | cons x xs ih =>
    obtain ⟨a, b, c⟩ := x
    obtain ⟨a₁, b₁, c₁, rest, ha, hb, hc, hrest, rfl⟩ := indexedParts_cons_eq_some.mp hx
    cases ys with
    | nil => simp [indexedParts] at hy
    | cons y ys =>
      obtain ⟨a', b', c'⟩ := y
      obtain ⟨a₂, b₂, c₂, rest', ha', hb', hc', hrest', hparts⟩ :=
        indexedParts_cons_eq_some.mp hy
      simp only [List.cons.injEq, true_and] at hparts
      obtain ⟨rfl, rfl, rfl, rfl⟩ := hparts
      rw [PyStr.bytes_injective ha ha', PyStr.bytes_injective hb hb', PyStr.bytes_injective hc hc',
        ih hrest hrest']

/-! ## The four streams -/

/-- A domain line and the chunks behind it, each after its length. -/
def domainStream (domain : Bytes) (chunks : Option (List Bytes)) : Option Bytes := do
  let chunks ← chunks
  let body ← frames 4 chunks
  pure (domain ++ body)

lemma domainStream_eq_some {domain : Bytes} {chunks : Option (List Bytes)} {b : Bytes} :
    domainStream domain chunks = some b ↔
      ∃ parts body, chunks = some parts ∧ frames 4 parts = some body ∧ domain ++ body = b := by
  simp [domainStream, Option.bind_eq_some_iff]

lemma domainStream_some (domain : Bytes) (chunks : List Bytes) :
    domainStream domain (some chunks) = (frames 4 chunks).map (domain ++ ·) := by
  unfold domainStream
  cases h : frames 4 chunks <;> simp [h]

namespace Templates

/-- An element of the parameter list: a dictionary, with `none` for an entry it does not have, or
any other value.  A value is what `str()` makes of it. -/
inductive RawParam
  | dict (componentType paramType value : Option PyStr)
  | bare (value : PyStr)

/-- The parameter with the defaults of `p.get` filled in. -/
def RawParam.param : RawParam → TemplateParam
  | dict componentType paramType value =>
    ⟨componentType.getD (.text "body"), paramType.getD (.text "text"), value.getD (.text "")⟩
  | bare value => { value := value }

def TemplateParam.triple (p : TemplateParam) : PyStr × PyStr × PyStr :=
  (p.componentType, p.paramType, p.value)

def paramsChunks (templateName language : PyStr) (definitionVersion : ℤ)
    (params : List TemplateParam) : Option (List Bytes) := do
  let name ← templateName.bytes
  let language ← language.bytes
  let parts ← indexedParts 0 (params.map TemplateParam.triple)
  pure ([name, language, utf8 (toString definitionVersion)] ++ parts)

/-- What `params_digest` hashes. -/
def paramsStream (templateName language : PyStr) (definitionVersion : ℤ)
    (params : Option (List RawParam)) : Option Bytes :=
  domainStream tplDomain
    (paramsChunks templateName language definitionVersion ((params.getD []).map RawParam.param))

end Templates

namespace Canonical

/-- An element of the attachment list, with `none` for an entry the dictionary does not have. -/
structure RawAttachment where
  contentSha256 : Option PyStr
  mime : Option PyStr
  size : Option ℤ

/-- The hash, the type and the size with the defaults of `it.get` filled in. -/
def RawAttachment.entry (item : RawAttachment) : PyStr × PyStr × ℤ :=
  (item.contentSha256.getD (.text ""), item.mime.getD (.text ""), item.size.getD 0)

def attachmentTriple (entry : PyStr × PyStr × ℤ) : PyStr × PyStr × PyStr :=
  (entry.1, entry.2.1, .text (toString entry.2.2))

def attachmentsChunks (entries : List (PyStr × PyStr × ℤ)) : Option (List Bytes) :=
  indexedParts 0 (entries.map attachmentTriple)

/-- What `attachments_digest` hashes. -/
def attachmentsStream (items : Option (List RawAttachment)) : Option Bytes :=
  domainStream attachDomain (attachmentsChunks ((items.getD []).map RawAttachment.entry))

end Canonical

namespace Importers

def contentChunks (messageType body : PyStr) : Option (List Bytes) := do
  let type ← messageType.bytes
  let body ← body.bytes
  pure [type, body]

/-- What `content_fingerprint` hashes. -/
def contentStream (messageType : PyStr) (originalText : Option PyStr) : Option Bytes :=
  domainStream contentDomain (contentChunks messageType (originalText.getD (.text "")))

/-- The arguments of `import_fingerprint`. -/
structure ImportFields where
  fingerprintVersion : ℤ
  conversationKey : PyStr
  tsBucket : ℤ
  senderKey : PyStr
  messageType : PyStr
  contentFp : PyStr
  occurrenceIndex : ℤ

def importChunks (f : ImportFields) : Option (List Bytes) := do
  let version ← toUnsignedBytes 4 f.fingerprintVersion
  let conversation ← f.conversationKey.bytes
  let bucket ← toSignedBytes 8 f.tsBucket
  let sender ← f.senderKey.bytes
  let type ← f.messageType.bytes
  let content ← f.contentFp.asciiBytes
  let index ← toUnsignedBytes 4 f.occurrenceIndex
  pure [version, conversation, bucket, sender, type, content, index]

/-- What `import_fingerprint` hashes. -/
def importStream (f : ImportFields) : Option Bytes := domainStream importDomain (importChunks f)

end Importers

/-! ## The chunks name the arguments -/

namespace Templates

lemma triple_injective : Function.Injective TemplateParam.triple := by
  rintro ⟨componentType, paramType, value⟩ ⟨componentType', paramType', value'⟩ h
  simp only [TemplateParam.triple, Prod.mk.injEq] at h
  obtain ⟨rfl, rfl, rfl⟩ := h
  rfl

lemma paramsChunks_injective {name name' language language' : PyStr} {version version' : ℤ}
    {params params' : List TemplateParam} {chunks : List Bytes}
    (h : paramsChunks name language version params = some chunks)
    (h' : paramsChunks name' language' version' params' = some chunks) :
    name = name' ∧ language = language' ∧ version = version' ∧ params = params' := by
  simp only [paramsChunks, Option.bind_eq_bind, Option.pure_def, Option.bind_eq_some_iff,
    Option.some.injEq] at h h'
  obtain ⟨n, hn, l, hl, parts, hparts, rfl⟩ := h
  obtain ⟨n', hn', l', hl', parts', hparts', heq⟩ := h'
  simp only [List.cons_append, List.nil_append, List.cons.injEq, utf8_inj] at heq
  obtain ⟨rfl, rfl, hversion, rfl⟩ := heq
  have hparams := indexedParts_injective hparts hparts'
  exact ⟨PyStr.bytes_injective hn hn', PyStr.bytes_injective hl hl',
    (Int.repr_injective hversion).symm, List.map_injective_iff.mpr triple_injective hparams⟩

end Templates

namespace Canonical

lemma attachmentTriple_injective : Function.Injective attachmentTriple := by
  rintro ⟨hash, mime, size⟩ ⟨hash', mime', size'⟩ h
  simp only [attachmentTriple, Prod.mk.injEq, PyStr.text.injEq] at h
  obtain ⟨rfl, rfl, hsize⟩ := h
  rw [Int.repr_injective hsize]

lemma attachmentsChunks_injective {entries entries' : List (PyStr × PyStr × ℤ)}
    {chunks : List Bytes} (h : attachmentsChunks entries = some chunks)
    (h' : attachmentsChunks entries' = some chunks) : entries = entries' :=
  List.map_injective_iff.mpr attachmentTriple_injective (indexedParts_injective h h')

end Canonical

namespace Importers

lemma contentChunks_injective {type type' body body' : PyStr} {chunks : List Bytes}
    (h : contentChunks type body = some chunks) (h' : contentChunks type' body' = some chunks) :
    type = type' ∧ body = body' := by
  simp only [contentChunks, Option.bind_eq_bind, Option.pure_def, Option.bind_eq_some_iff,
    Option.some.injEq] at h h'
  obtain ⟨t, ht, b, hb, rfl⟩ := h
  obtain ⟨t', ht', b', hb', heq⟩ := h'
  simp only [List.cons.injEq, and_true] at heq
  obtain ⟨rfl, rfl⟩ := heq
  exact ⟨PyStr.bytes_injective ht ht', PyStr.bytes_injective hb hb'⟩

lemma importChunks_injective {f g : ImportFields} {chunks : List Bytes}
    (hf : importChunks f = some chunks) (hg : importChunks g = some chunks) : f = g := by
  simp only [importChunks, Option.bind_eq_bind, Option.pure_def, Option.bind_eq_some_iff,
    Option.some.injEq] at hf hg
  obtain ⟨version, hversion, key, hkey, bucket, hbucket, sender, hsender, type, htype, content,
    hcontent, index, hindex, rfl⟩ := hf
  obtain ⟨version', hversion', key', hkey', bucket', hbucket', sender', hsender', type', htype',
    content', hcontent', index', hindex', heq⟩ := hg
  simp only [List.cons.injEq, and_true] at heq
  obtain ⟨rfl, rfl, rfl, rfl, rfl, rfl, rfl⟩ := heq
  have hcontentFp := PyStr.bytes_injective (PyStr.bytes_of_asciiBytes hcontent)
    (PyStr.bytes_of_asciiBytes hcontent')
  cases f
  cases g
  simp only [ImportFields.mk.injEq]
  exact ⟨toUnsignedBytes_injective hversion hversion', PyStr.bytes_injective hkey hkey',
    toSignedBytes_injective hbucket hbucket', PyStr.bytes_injective hsender hsender',
    PyStr.bytes_injective htype htype', hcontentFp, toUnsignedBytes_injective hindex hindex'⟩

end Importers

/-! ## One stream, one content -/

/-- A call of one of the four functions. -/
inductive HashCall
  | params (templateName language : PyStr) (definitionVersion : ℤ)
      (params : Option (List Templates.RawParam))
  | attachments (items : Option (List Canonical.RawAttachment))
  | content (messageType : PyStr) (originalText : Option PyStr)
  | occurrence (fields : Importers.ImportFields)

/-- The arguments of a call with their defaults filled in. -/
inductive HashedContent
  | params (templateName language : PyStr) (definitionVersion : ℤ)
      (params : List Templates.TemplateParam)
  | attachments (entries : List (PyStr × PyStr × ℤ))
  | content (messageType body : PyStr)
  | occurrence (fields : Importers.ImportFields)

/-- The bytes given to SHA-256, `none` where the call raises. -/
def HashCall.stream : HashCall → Option Bytes
  | params name language version ps => Templates.paramsStream name language version ps
  | attachments items => Canonical.attachmentsStream items
  | content messageType originalText => Importers.contentStream messageType originalText
  | occurrence fields => Importers.importStream fields

def HashCall.normalised : HashCall → HashedContent
  | params name language version ps =>
    .params name language version ((ps.getD []).map Templates.RawParam.param)
  | attachments items => .attachments ((items.getD []).map Canonical.RawAttachment.entry)
  | content messageType originalText => .content messageType (originalText.getD (.text ""))
  | occurrence fields => .occurrence fields

namespace HashedContent

def domain : HashedContent → Bytes
  | params .. => Templates.tplDomain
  | attachments .. => Canonical.attachDomain
  | content .. => Importers.contentDomain
  | occurrence .. => Importers.importDomain

def chunks : HashedContent → Option (List Bytes)
  | params name language version ps => Templates.paramsChunks name language version ps
  | attachments entries => Canonical.attachmentsChunks entries
  | content messageType body => Importers.contentChunks messageType body
  | occurrence fields => Importers.importChunks fields

def domains : List Bytes :=
  [Templates.tplDomain, Canonical.attachDomain, Importers.contentDomain, Importers.importDomain]

lemma domain_mem (c : HashedContent) : c.domain ∈ domains := by cases c <;> simp [domain, domains]

/-- The domain lines differ before the shortest of them ends. -/
lemma domains_apart :
    ∀ a ∈ domains, ∀ b ∈ domains, 14 ≤ a.length ∧ (a.take 14 = b.take 14 → a = b) := by decide

/-- The kind of a content is read off the front of its stream. -/
lemma domain_inj {c d : HashedContent} {x y : Bytes} (h : c.domain ++ x = d.domain ++ y) :
    c.domain = d.domain := by
  obtain ⟨hc, hapart⟩ := domains_apart _ c.domain_mem _ d.domain_mem
  have hd := (domains_apart _ d.domain_mem _ c.domain_mem).1
  have htake := congrArg (List.take 14) h
  rw [List.take_append_of_le_length hc, List.take_append_of_le_length hd] at htake
  exact hapart htake

lemma chunks_injective {c d : HashedContent} {parts : List Bytes} (hdomain : c.domain = d.domain)
    (hc : c.chunks = some parts) (hd : d.chunks = some parts) : c = d := by
  cases c <;> cases d <;> try exact absurd hdomain (by simp only [domain]; decide)
  · obtain ⟨rfl, rfl, rfl, rfl⟩ := Templates.paramsChunks_injective hc hd
    rfl
  · rw [Canonical.attachmentsChunks_injective hc hd]
  · obtain ⟨rfl, rfl⟩ := Importers.contentChunks_injective hc hd
    rfl
  · rw [Importers.importChunks_injective hc hd]

end HashedContent

lemma HashCall.stream_eq (c : HashCall) :
    c.stream = domainStream c.normalised.domain c.normalised.chunks := by
  cases c <;> rfl

/-- **Hashed content is bound unambiguously.**  A call that hashes anything hashes the bytes of
another call exactly when both are calls of one function with the same normalised arguments. -/
theorem hashed_content_unambiguous (c d : HashCall) (hc : c.stream.isSome) :
    c.stream = d.stream ↔ c.normalised = d.normalised := by
  constructor
  · intro heq
    obtain ⟨b, hb⟩ := Option.isSome_iff_exists.mp hc
    have hb' : d.stream = some b := by rw [← heq, hb]
    rw [HashCall.stream_eq] at hb hb'
    obtain ⟨parts, body, hparts, hbody, rfl⟩ := domainStream_eq_some.mp hb
    obtain ⟨parts', body', hparts', hbody', hsame⟩ := domainStream_eq_some.mp hb'
    have hdomain := HashedContent.domain_inj hsame
    rw [hdomain] at hsame
    obtain rfl := List.append_cancel_left hsame
    obtain rfl := frames_injective (by decide) hbody hbody'
    exact HashedContent.chunks_injective hdomain.symm hparts hparts'
  · intro hsame
    rw [HashCall.stream_eq, HashCall.stream_eq, hsame]

/-- A bare value and a dictionary that spells out the defaults are one parameter. -/
theorem hashed_content_unambiguous_sample :
    let bare : HashCall := .params (.text "hello") (.text "en") 1 (some [.bare (.text "Mona")])
    let spelled : HashCall := .params (.text "hello") (.text "en") 1
      (some [.dict (some (.text "body")) none (some (.text "Mona"))])
    bare.stream = spelled.stream ↔ bare.normalised = spelled.normalised := by
  exact hashed_content_unambiguous _ _ (by decide)

/-! ## The digests of the model -/

lemma PyStr.bytes_text (s : String) : (PyStr.text s).bytes = some (utf8 s) := rfl

namespace Templates

lemma paramParts_eq (i : ℕ) (params : List TemplateParam) :
    paramParts i params = indexedParts i (params.map TemplateParam.triple) := by
  induction params generalizing i with
  | nil => rfl
  | cons p ps ih =>
    simp only [paramParts, ih, List.map_cons, TemplateParam.triple, indexedParts, PyStr.bytes]
    cases p.componentType.encode <;> cases p.paramType.encode <;> cases p.value.encode <;> rfl

lemma paramsDigest_eq (P : Platform) (name language : String) (version : ℤ)
    (params : List TemplateParam) :
    paramsDigest P name language version params =
      (domainStream tplDomain
        (paramsChunks (.text name) (.text language) version params)).map P.sha256 := by
  simp only [paramsDigest, paramParts_eq, domainStream, paramsChunks, PyStr.bytes_text]
  cases indexedParts 0 (params.map TemplateParam.triple) with
  | none => rfl
  | some parts =>
    simp only [Option.bind_eq_bind, Option.bind_some, Option.pure_def]
    cases frames 4 _ <;> rfl

/-- A digest in a template draft names the template, its definition and the parameters. -/
theorem paramsDigest_inj {P : Platform} (hsha : Function.Injective P.sha256)
    {name name' language language' : String} {version version' : ℤ}
    {params params' : List TemplateParam} {digest : Bytes}
    (h : paramsDigest P name language version params = some digest)
    (h' : paramsDigest P name' language' version' params' = some digest) :
    name = name' ∧ language = language' ∧ version = version' ∧ params = params' := by
  rw [paramsDigest_eq] at h h'
  obtain ⟨stream, hstream, rfl⟩ := Option.map_eq_some_iff.mp h
  obtain ⟨stream', hstream', heq⟩ := Option.map_eq_some_iff.mp h'
  obtain rfl := hsha heq
  obtain ⟨parts, body, hparts, hbody, rfl⟩ := domainStream_eq_some.mp hstream
  obtain ⟨parts', body', hparts', hbody', hsame⟩ := domainStream_eq_some.mp hstream'
  obtain rfl := List.append_cancel_left hsame
  obtain rfl := frames_injective (by decide) hbody hbody'
  obtain ⟨hname, hlanguage, hrest⟩ := paramsChunks_injective hparts hparts'
  exact ⟨PyStr.text.inj hname, PyStr.text.inj hlanguage, hrest⟩

end Templates

namespace Canonical

lemma attachmentParts_eq (i : ℕ) (items : List Attachment) :
    indexedParts i (items.map fun item =>
      attachmentTriple (.text item.contentSha256, .text item.mime, item.size)) =
      some (attachmentParts i items) := by
  induction items generalizing i with
  | nil => rfl
  | cons item items ih =>
    have htail := ih (i + 1)
    simp only [attachmentTriple] at htail
    simp only [List.map_cons, attachmentTriple, indexedParts, PyStr.bytes_text, attachmentParts,
      htail]
    rfl

lemma attachmentsDigest_eq (P : Platform) (items : List Attachment) :
    attachmentsDigest P items =
      (domainStream attachDomain (attachmentsChunks (items.map fun item =>
        (.text item.contentSha256, .text item.mime, item.size)))).map P.sha256 := by
  have hparts := attachmentParts_eq 0 items
  simp only [attachmentsDigest, attachmentsChunks, List.map_map, Function.comp_def, hparts,
    domainStream_some, Option.map_map]

end Canonical

namespace Importers

lemma contentFingerprint_eq (P : Platform) (messageType : String) (originalText : Option String) :
    contentFingerprint P messageType originalText =
      (contentStream (.text messageType) (originalText.map .text)).map P.hexdigest := by
  have hbody : (originalText.map PyStr.text).getD (.text "") = .text (originalText.getD "") := by
    cases originalText <;> rfl
  have hchunks : contentChunks (.text messageType) (.text (originalText.getD "")) =
      some [utf8 messageType, utf8 (originalText.getD "")] := rfl
  simp only [contentFingerprint, contentStream, hbody, hchunks, domainStream_some, Option.map_map]
  cases frames 4 [utf8 messageType, utf8 (originalText.getD "")] <;> simp

lemma importFingerprint_eq (P : Platform) (b : Bucket) (i : ℕ)
    (hascii : b.contentFp.toList.all (fun c => c.toNat < 128) = true) :
    importFingerprint P b i =
      (importStream ⟨fingerprintVersion, .text b.conversationId, b.minuteMs, .text b.sender,
        .text b.type, .text b.contentFp, i⟩).map P.hexdigest := by
  have hcontent : (PyStr.text b.contentFp).asciiBytes = some (utf8 b.contentFp) := by
    simp only [PyStr.asciiBytes, PyStr.encode, Option.bind_some, hascii, if_pos]
  have hnat (n : ℕ) : toUnsignedBytes 4 n = toBytes 4 n := by simp [toUnsignedBytes]
  simp only [importFingerprint, importStream, domainStream, importChunks, hcontent,
    PyStr.bytes_text, hnat]
  cases toBytes 4 fingerprintVersion <;> cases toSignedBytes 8 b.minuteMs <;>
    cases toBytes 4 i <;> simp [Option.map_bind]

end Importers

end WhatsVault
