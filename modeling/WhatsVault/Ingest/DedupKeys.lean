import Mathlib
import WhatsVault.Ingest.Consumer

/-!
# What a dedup key stands for

The key of a message names its provider, phone number and id, the key of a status its status, time
and recipient too; the two never meet, and within each the framing keeps the fields apart.  What the
keys do not keep apart are the defaults: a field that is missing and one that is empty, and an
absent recipient and one that is the text put in its place.  An atom takes a key away from another
one exactly where such a default stands in for a value (`sameEvent_iff`).
-/

namespace WhatsVault.Ingest

open Framing

/-! ## The fields behind a key -/

/-- The text that stands for an absent recipient. -/
def absent : String := String.ofList [Char.ofNat 0] ++ "none"

section Fields

variable {P : Platform}

lemma sha_eq_some {domain key : String} {parts : List String} :
    sha P domain parts = some key ↔ ∃ body, frames 4 (parts.map utf8) = some body ∧
      P.hexdigest (utf8 domain ++ body) = key := by
  rw [sha, Option.map_eq_some_iff]

lemma sha_inj (hsha : Function.Injective P.sha256) {domain key : String}
    {parts parts' : List String} (h : sha P domain parts = some key)
    (h' : sha P domain parts' = some key) : parts = parts' := by
  obtain ⟨body, hbody, rfl⟩ := sha_eq_some.mp h
  obtain ⟨body', hbody', heq⟩ := sha_eq_some.mp h'
  obtain rfl := List.append_cancel_left (Platform.hexdigest_injective hsha heq)
  exact List.map_injective_iff.mpr utf8_injective (frames_injective (by omega) hbody hbody')

lemma messageKey_inj (hsha : Function.Injective P.sha256) {phone phone' id id' key : String}
    (h : messageKey P phone id = some key) (h' : messageKey P phone' id' = some key) :
    phone = phone' ∧ id = id' := by
  have hparts := sha_inj hsha h h'
  simpa using hparts

lemma statusKey_inj (hsha : Function.Injective P.sha256)
    {phone phone' id id' status status' key : String} {ms ms' : ℤ} {rid rid' : Option String}
    (h : statusKey P phone id status ms rid = some key)
    (h' : statusKey P phone' id' status' ms' rid' = some key) :
    phone = phone' ∧ id = id' ∧ status = status' ∧ ms = ms' ∧
      rid.getD absent = rid'.getD absent := by
  have hparts := sha_inj hsha h h'
  simp only [List.cons.injEq, and_true, true_and] at hparts
  obtain ⟨hphone, hid, hstatus, hms, hrid⟩ := hparts
  exact ⟨hphone, hid, hstatus, Int.repr_injective hms, hrid⟩

/-- No message has the key of a status. -/
lemma messageKey_ne_statusKey (hsha : Function.Injective P.sha256)
    {phone phone' id id' status key : String} {ms : ℤ} {rid : Option String}
    (h : messageKey P phone id = some key) :
    statusKey P phone' id' status ms rid ≠ some key := by
  intro h'
  obtain ⟨body, -, rfl⟩ := sha_eq_some.mp h
  obtain ⟨body', -, heq⟩ := sha_eq_some.mp h'
  have hprefix := congrArg (List.take 19) (Platform.hexdigest_injective hsha heq)
  rw [List.take_append_of_le_length (by decide),
    List.take_append_of_le_length (by decide)] at hprefix
  revert hprefix
  decide

end Fields

/-! ## Defaults -/

section Defaults

variable {x y : Json} {s : String}

/-- What `x or ""` is where it can be encoded. -/
lemma orEmpty_eq_some (h : orEmpty x = some s) :
    if x.truthy then s ≠ "" ∧ x = .str (.text s) else s = "" := by
  unfold orEmpty at h
  split
  · rename_i htruthy
    rw [Json.orElse_of_truthy htruthy] at h
    cases x with
    | str t =>
      cases t with
      | text t =>
        obtain rfl : t = s := Option.some.inj h
        exact ⟨by simpa [Json.truthy, PyStr.truthy] using htruthy, rfl⟩
      | lone => cases h
    | null | bool | int | float | arr | obj => cases h
  · rename_i htruthy
    rw [Json.orElse_of_not_truthy (by simpa using htruthy)] at h
    exact (Option.some.inj h).symm

/-- A value that is there is told from every other one. -/
lemma orEmpty_inj (h : orEmpty x = some s) (h' : orEmpty y = some s) (hx : x.truthy = true) :
    x = y := by
  have hxs := orEmpty_eq_some h
  rw [if_pos hx] at hxs
  have hys := orEmpty_eq_some h'
  split at hys
  · exact hxs.2.trans hys.2.symm
  · exact absurd hys hxs.1

lemma recipient_eq_some {rid : Option String} (h : recipient x = some rid) :
    x = .null ∧ rid = none ∨ ∃ t, x = .str (.text t) ∧ rid = some t := by
  cases x with
  | null => exact .inl ⟨rfl, (Option.some.inj h).symm⟩
  | str t =>
    cases t with
    | text t => exact .inr ⟨t, rfl, (Option.some.inj h).symm⟩
    | lone => cases h
  | bool | int | float | arr | obj => cases h

/-- Recipients that are both absent or both there are told apart. -/
lemma recipient_inj {rid rid' : Option String} (h : recipient x = some rid)
    (h' : recipient y = some rid') (hsame : rid.getD absent = rid'.getD absent)
    (hnull : x = .null ↔ y = .null) : x = y := by
  rcases recipient_eq_some h with ⟨rfl, -⟩ | ⟨t, rfl, rfl⟩
  · exact (hnull.mp rfl).symm
  · rcases recipient_eq_some h' with ⟨rfl, -⟩ | ⟨t', rfl, rfl⟩
    · cases hnull.mpr rfl
    · rw [show t = t' from hsame]

end Defaults

/-! ## Two atoms with one key -/

/-- A message or a status. -/
def IsEvent (atom : Atom) : Prop := atom.kind = .message ∨ atom.kind = .status

/-- Two atoms tell of the same event: of one family group, they carry the same id, which is not
empty, and the same phone number; statuses carry the same status, time and recipient too. -/
structure SameEvent (S : Stdlib) (a b : Atom) : Prop where
  kind : a.kind = b.kind
  id : ∃ id, id ≠ "" ∧ a.raw.get "id" = some (.str (.text id)) ∧
    b.raw.get "id" = some (.str (.text id))
  phone : a.phoneNumberId = b.phoneNumberId
  status : a.kind = .status → a.raw.get "status" = b.raw.get "status"
  time : a.kind = .status → timestampMs S a.raw = timestampMs S b.raw
  recipient : a.kind = .status → a.raw.get "recipient_id" = b.raw.get "recipient_id"

/-- No default stands in for a value: the id is there, the phone number and the status are there or
are missing in the same way, and the recipient is absent from both or from neither. -/
structure Explicit (a b : Atom) : Prop where
  id : ∃ id, a.raw.get "id" = some id ∧ id.truthy = true
  phone : a.phoneNumberId.truthy = true ∨ a.phoneNumberId = b.phoneNumberId
  status : a.kind = .status → (∃ status, a.raw.get "status" = some status ∧ status.truthy = true) ∨
    a.raw.get "status" = b.raw.get "status"
  recipient : a.kind = .status →
    (a.raw.get "recipient_id" = some .null ↔ b.raw.get "recipient_id" = some .null)

lemma SameEvent.explicit {S : Stdlib} {a b : Atom} (h : SameEvent S a b) : Explicit a b where
  id := by
    obtain ⟨id, hne, hid, -⟩ := h.id
    exact ⟨_, hid, by simpa [Json.truthy, PyStr.truthy] using hne⟩
  phone := .inr h.phone
  status hkind := .inr (h.status hkind)
  recipient hkind := by rw [h.recipient hkind]

section Keys

variable {P : Platform} {S : Stdlib} {a b : Atom} {family family' : Family} {key : String}

lemma semanticKey_message (hkind : a.kind = .message) (h : semanticKey P S a = some (family, key)) :
    ∃ id idText phone, a.raw.get "id" = some id ∧ orEmpty id = some idText ∧
      orEmpty a.phoneNumberId = some phone ∧ messageKey P phone idText = some key := by
  simp only [semanticKey, hkind, Option.bind_eq_bind, Option.pure_def, Option.bind_eq_some_iff,
    Option.some.injEq, Prod.mk.injEq] at h
  obtain ⟨id, hid, phone, hphone, idText, hidText, _, hkey, -, rfl⟩ := h
  exact ⟨id, idText, phone, hid, hidText, hphone, hkey⟩

lemma semanticKey_status (hkind : a.kind = .status) (h : semanticKey P S a = some (family, key)) :
    ∃ id idText phone status statusText ms rid ridText, a.raw.get "id" = some id ∧
      orEmpty id = some idText ∧ orEmpty a.phoneNumberId = some phone ∧
      a.raw.get "status" = some status ∧ orEmpty status = some statusText ∧
      timestampMs S a.raw = some ms ∧ a.raw.get "recipient_id" = some rid ∧
      recipient rid = some ridText ∧ statusKey P phone idText statusText ms ridText = some key := by
  simp only [semanticKey, hkind, Option.bind_eq_bind, Option.pure_def, Option.bind_eq_some_iff,
    Option.some.injEq, Prod.mk.injEq] at h
  obtain ⟨id, hid, status, hstatus, ms, hms, rid, hrid, phone, hphone, idText, hidText, statusText,
    hstatusText, ridText, hridText, _, hkey, -, rfl⟩ := h
  exact ⟨id, idText, phone, status, statusText, ms, rid, ridText, hid, hidText, hphone, hstatus,
    hstatusText, hms, hrid, hridText, hkey⟩

/-- Atoms with one key are of one family group. -/
lemma kind_eq_of_key (hsha : Function.Injective P.sha256) (ha : IsEvent a) (hb : IsEvent b)
    (h : semanticKey P S a = some (family, key)) (h' : semanticKey P S b = some (family', key)) :
    a.kind = b.kind := by
  rcases ha with ha | ha <;> rcases hb with hb | hb
  · exact ha.trans hb.symm
  · obtain ⟨_, _, _, -, -, -, hkey⟩ := semanticKey_message ha h
    obtain ⟨_, _, _, _, _, _, _, _, -, -, -, -, -, -, -, -, hkey'⟩ := semanticKey_status hb h'
    exact absurd hkey' (messageKey_ne_statusKey hsha hkey)
  · obtain ⟨_, _, _, _, _, _, _, _, -, -, -, -, -, -, -, -, hkey⟩ := semanticKey_status ha h
    obtain ⟨_, _, _, -, -, -, hkey'⟩ := semanticKey_message hb h'
    exact absurd hkey (messageKey_ne_statusKey hsha hkey')
  · exact ha.trans hb.symm

end Keys

/-- Two atoms with the same dedup key tell of the same event exactly where no default stands in for
one of its values: SHA-256 does not collide. -/
theorem sameEvent_iff (P : Platform) (S : Stdlib) (hsha : Function.Injective P.sha256) (a b : Atom)
    (ha : IsEvent a) (hb : IsEvent b) (family family' : Family) (key : String)
    (h : semanticKey P S a = some (family, key)) (h' : semanticKey P S b = some (family', key)) :
    SameEvent S a b ↔ Explicit a b := by
  refine ⟨SameEvent.explicit, fun hexplicit => ?_⟩
  have hkind := kind_eq_of_key hsha ha hb h h'
  obtain ⟨given, hgiven, htruthy⟩ := hexplicit.id
  -- what an id and a phone number that are there say of those of the other atom
  have hids {id id' : Json} {s : String} (hid : a.raw.get "id" = some id)
      (hid' : b.raw.get "id" = some id') (hs : orEmpty id = some s) (hs' : orEmpty id' = some s) :
      ∃ id, id ≠ "" ∧ a.raw.get "id" = some (.str (.text id)) ∧
        b.raw.get "id" = some (.str (.text id)) := by
    obtain rfl : given = id := Option.some.inj (hgiven.symm.trans hid)
    obtain rfl := orEmpty_inj hs hs' htruthy
    have htext := orEmpty_eq_some hs
    rw [if_pos htruthy] at htext
    obtain ⟨hne, rfl⟩ := htext
    exact ⟨s, hne, hid, hid'⟩
  have hphones {s : String} (hs : orEmpty a.phoneNumberId = some s)
      (hs' : orEmpty b.phoneNumberId = some s) : a.phoneNumberId = b.phoneNumberId := by
    rcases hexplicit.phone with hphone | hsame
    · exact orEmpty_inj hs hs' hphone
    · exact hsame
  rcases ha with hmessage | hstatus
  · obtain ⟨id, idText, phone, hid, hidText, hphone, hkey⟩ := semanticKey_message hmessage h
    obtain ⟨id', idText', phone', hid', hidText', hphone', hkey'⟩ :=
      semanticKey_message (hkind.symm.trans hmessage) h'
    obtain ⟨rfl, rfl⟩ := messageKey_inj hsha hkey hkey'
    have hnot : a.kind ≠ .status := by simp [hmessage]
    exact ⟨hkind, hids hid hid' hidText hidText', hphones hphone hphone',
      fun hs => absurd hs hnot, fun hs => absurd hs hnot, fun hs => absurd hs hnot⟩
  · obtain ⟨id, idText, phone, status, statusText, ms, rid, ridText, hid, hidText, hphone, hst,
      hstText, hms, hrid, hridText, hkey⟩ := semanticKey_status hstatus h
    obtain ⟨id', idText', phone', status', statusText', ms', rid', ridText', hid', hidText',
      hphone', hst', hstText', hms', hrid', hridText', hkey'⟩ :=
      semanticKey_status (hkind.symm.trans hstatus) h'
    obtain ⟨rfl, rfl, rfl, rfl, hrids⟩ := statusKey_inj hsha hkey hkey'
    refine ⟨hkind, hids hid hid' hidText hidText', hphones hphone hphone', fun hs => ?_,
      fun _ => hms.trans hms'.symm, fun hs => ?_⟩
    · rcases hexplicit.status hs with ⟨given, hgiven, htruthy⟩ | hsame
      · obtain rfl : given = status := Option.some.inj (hgiven.symm.trans hst)
        rw [hst, hst', orEmpty_inj hstText hstText' htruthy]
      · exact hsame
    · have hnull := hexplicit.recipient hs
      rw [hrid, hrid', Option.some.injEq, Option.some.injEq] at hnull
      rw [hrid, hrid', recipient_inj hridText hridText' hrids hnull]

/-! ## Events that lose their key -/

/-- A text message without an id. -/
def bareMessage (body : String) : Json :=
  .obj [field "from" (text "61400"), field "text" (.obj [field "body" (text body)]),
    field "timestamp" (text "1700000000"), field "type" (text "text")]

/-- A status, with or without a recipient. -/
def sentStatus (recipient : List (PyStr × Json)) : Json :=
  .obj ([field "id" (text "wamid.X"), field "status" (text "sent"),
    field "timestamp" (text "1700000000")] ++ recipient)

/-- A webhook for one phone number. -/
def webhook (messages statuses : List Json) : Json :=
  .obj [field "entry" (.arr [.obj [field "changes" (.arr [.obj [field "value"
    (.obj [field "metadata" (.obj [field "phone_number_id" (text "PN1")]),
      field "messages" (.arr messages), field "statuses" (.arr statuses)])]])]])]

def bareAtom (body : String) : Atom := ⟨.message, text "PN1", bareMessage body, false, .null⟩

def statusAtom (recipient : List (PyStr × Json)) : Atom :=
  ⟨.status, text "PN1", sentStatus recipient, false, .null⟩

/-- The sample message and itself redelivered. -/
theorem sameEvent_iff_sample : SameEvent sampleStdlib sampleAtom sampleAtom := by
  obtain ⟨⟨family, key⟩, hkey⟩ : ∃ r, semanticKey samplePlatform sampleStdlib sampleAtom = some r :=
    Option.isSome_iff_exists.mp (by decide)
  have hrule := sameEvent_iff samplePlatform sampleStdlib Function.injective_id sampleAtom
    sampleAtom (.inl rfl) (.inl rfl) family family key hkey hkey
  exact hrule.mpr ⟨⟨text "wamid.X", rfl, by decide⟩, .inr rfl, fun _ => .inr rfl, fun _ => Iff.rfl⟩

/-- Of two messages without an id the second is taken for the first, and of two statuses the one for
a recipient named like the absent one for the one without a recipient. -/
theorem distinct_events_share_a_key :
    splitWebhook (webhook [bareMessage "hello", bareMessage "goodbye"] []) =
      some [bareAtom "hello", bareAtom "goodbye"] ∧
    (∃ key, (processAtoms samplePlatform sampleStdlib sampleNormaliser 1700000001000 sampleIds
      (fun _ => {}) 0 [bareAtom "hello", bareAtom "goodbye"] start).2 =
        (.done (), [.stored key, .deduped key])) ∧
    ¬ SameEvent sampleStdlib (bareAtom "hello") (bareAtom "goodbye") ∧
    splitWebhook (webhook [] [sentStatus [], sentStatus [field "recipient_id" (text absent)]]) =
      some [statusAtom [], statusAtom [field "recipient_id" (text absent)]] ∧
    semanticKey samplePlatform sampleStdlib (statusAtom []) =
      semanticKey samplePlatform sampleStdlib (statusAtom [field "recipient_id" (text absent)]) ∧
    (semanticKey samplePlatform sampleStdlib (statusAtom [])).isSome = true ∧
    ¬ SameEvent sampleStdlib (statusAtom []) (statusAtom [field "recipient_id" (text absent)]) := by
  refine ⟨rfl, ?_, ?_, rfl, by decide +kernel, by decide, ?_⟩
  · exact ⟨((semanticKey samplePlatform sampleStdlib (bareAtom "hello")).map Prod.snd).getD "",
      by decide⟩
  · intro hsame
    obtain ⟨id, -, hid, -⟩ := hsame.id
    cases Option.some.inj hid
  · intro hsame
    have hnull : Option.some Json.null = some (text absent) := hsame.recipient rfl
    cases Option.some.inj hnull

end WhatsVault.Ingest
