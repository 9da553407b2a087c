import WhatsVault.Importers.Effects
import WhatsVault.Importers.Totality
import WhatsVault.Library.Bag
import WhatsVault.Library.Run

/-!
# Imports are a union

A batch is a bag of buckets.  What a run of imports and undos leaves in the vault is the union of the
bags of the batches that were imported and not undone: of each bucket as many messages as the
batch that has most of it.

`Unites` is the invariant.  An observation stands for one numbered copy of a bucket that its batch
has (`explained`), each copy a batch has is observed by it (`complete`), and a message of an import
is observed (`observed`).  A fingerprint names a bucket and a number, so the messages are the union
of the copies.  A turn of the import loop extends the bag of the batch that is being imported by one
(`Unites.observe`), and an undo takes a batch out (`Unites.undo`).
-/

namespace WhatsVault.Importers

open Transaction

/-! ## Runs -/

inductive Call
  | importBatch (verdict : Verdict) (args : ImportArgs) (ids : ImportIds)
  | undoBatch (verdict : Verdict) (batchId : String) (nowMs : ℤ)

/-- What a call that returned did. -/
inductive Event
  | imported (batchId : String) (args : ImportArgs)
  | undone (batchId : String)
  deriving DecidableEq

/-- One call; one that does not return emits nothing. -/
def step (I : Importer) (c : Conn Vault) : Call → Conn Vault × List Event
  | .importBatch verdict args ids =>
    match importBatch I verdict args ids c with
    | (c, .ok _) => (c, [.imported ids.batch args])
    | (c, .error _) => (c, [])
  | .undoBatch verdict batchId nowMs =>
    match undoBatch verdict batchId nowMs c with
    | (c, .ok _) => (c, [.undone batchId])
    | (c, .error _) => (c, [])

def survive (kept : List (String × ImportArgs)) : Event → List (String × ImportArgs)
  | .imported batchId args => kept ++ [(batchId, args)]
  | .undone batchId => kept.filter fun batch => batch.1 ≠ batchId

/-- The batches of a log that were imported and not undone. -/
def survivors (log : List Event) : List (String × ImportArgs) := log.foldl survive []

/-- The buckets of the messages of an export, with repetition. -/
def bagOf (I : Importer) (args : ImportArgs) : List Bucket :=
  let parsed := parseTranscript I.unicode (I.zone args.tzName) args.dateFormat args.text
  (messagesOf (parsed.getD [])).filterMap (bucketOf I args)

/-- The message is one of a bucket: its columns are the bucket's, and so is the name of a sender it
was observed under. -/
def InBucket (P : Platform) (v : Vault) (b : Bucket) (m : Message) : Prop :=
  m.conversationId = b.conversationId ∧ m.tsLowerMs = b.minuteMs ∧ m.type = b.type ∧
    contentFingerprint P m.type m.textOriginal = some b.contentFp ∧
    ∃ o ∈ v.imports.observations, o.messageId = m.id ∧
      ∃ p ∈ v.imports.participants, p.id = o.senderImportParticipantId ∧
        p.rawDisplayName = b.sender

instance (P : Platform) (v : Vault) (b : Bucket) (m : Message) : Decidable (InBucket P v b m) :=
  inferInstanceAs (Decidable (m.conversationId = b.conversationId ∧ m.tsLowerMs = b.minuteMs ∧
    m.type = b.type ∧ contentFingerprint P m.type m.textOriginal = some b.contentFp ∧
    ∃ o ∈ v.imports.observations, o.messageId = m.id ∧
      ∃ p ∈ v.imports.participants, p.id = o.senderImportParticipantId ∧
        p.rawDisplayName = b.sender))

/-- The number of imported messages in a bucket. -/
def bucketCount (P : Platform) (v : Vault) (b : Bucket) : ℕ :=
  (v.evidence.messages.filter fun m => InBucket P v b m).length

/-! ## The invariant -/

/-- The message is the `i`-th copy of a bucket. -/
structure IsCopy (P : Platform) (m : Message) (b : Bucket) (i : ℕ) : Prop where
  fingerprint : ∃ fp, importFingerprint P b i = some fp ∧ m.importFingerprint = some fp
  conversation : m.conversationId = b.conversationId
  minute : m.tsLowerMs = b.minuteMs
  type : m.type = b.type
  content : contentFingerprint P m.type m.textOriginal = some b.contentFp

/-- The messages, on their own. -/
structure Stored (messages : List Message) : Prop where
  ids : Table.Unique Message.id messages
  fingerprints : ∀ m ∈ messages, ∀ m' ∈ messages, m.importFingerprint ≠ none →
    m.importFingerprint = m'.importFingerprint → m = m'
  imported : ∀ m ∈ messages, m.origin = .manualExport ↔ m.importFingerprint ≠ none
  noWamid : ∀ m ∈ messages, m.origin = .manualExport → m.wamid = none

/-- The vault holds the union of some batches, each a bag of buckets. -/
structure Unites (P : Platform) (kept : List (String × List Bucket)) (v : Vault) : Prop where
  messages : Stored v.evidence.messages
  participantIds : Table.Unique ImportParticipant.id v.imports.participants
  batchIds : Table.Unique ImportBatch.id v.imports.batches
  keptIds : (kept.map Prod.fst).Nodup
  keptBatches : ∀ id, id ∈ kept.map Prod.fst ↔
    ∃ row ∈ v.imports.batches, row.id = id ∧ row.undoneAtMs = none
  observed : ∀ m ∈ v.evidence.messages, m.origin = .manualExport →
    ∃ o ∈ v.imports.observations, o.messageId = m.id
  explained : ∀ o ∈ v.imports.observations, ∃ bag, (o.batchId, bag) ∈ kept ∧
    ∃ b i, i < bag.count b ∧
      (∃ m ∈ v.evidence.messages, m.id = o.messageId ∧ IsCopy P m b i) ∧
      ∃ p ∈ v.imports.participants, p.id = o.senderImportParticipantId ∧ p.rawDisplayName = b.sender
  complete : ∀ id bag, (id, bag) ∈ kept → ∀ b i, i < bag.count b →
    ∃ o ∈ v.imports.observations, o.batchId = id ∧
      ∃ m ∈ v.evidence.messages, m.id = o.messageId ∧ IsCopy P m b i

variable {P : Platform} {kept : List (String × List Bucket)} {v v' : Vault}

lemma IsCopy.inj {m : Message} {b c : Bucket} {i j : ℕ} (hsha : Function.Injective P.sha256)
    (h : IsCopy P m b i) (h' : IsCopy P m c j) : b = c ∧ i = j := by
  obtain ⟨fp, hfp, hm⟩ := h.fingerprint
  obtain ⟨fp', hfp', hm'⟩ := h'.fingerprint
  obtain rfl : fp = fp' := Option.some.inj (hm.symm.trans hm')
  exact importFingerprint_inj hsha hfp hfp'

/-- A message with the fingerprint of a copy is that copy. -/
lemma Unites.isCopy (h : Unites P kept v) (hsha : Function.Injective P.sha256) {m : Message}
    (hm : m ∈ v.evidence.messages) {b : Bucket} {i : ℕ} {fp : String}
    (hfp : importFingerprint P b i = some fp) (hmfp : m.importFingerprint = some fp) :
    IsCopy P m b i := by
  have himported : m.origin = .manualExport := (h.messages.imported m hm).mpr (by simp [hmfp])
  obtain ⟨o, ho, hid⟩ := h.observed m hm himported
  obtain ⟨bag, -, c, j, -, ⟨m', hm', hid', hcopy⟩, -⟩ := h.explained o ho
  obtain rfl : m' = m := h.messages.ids.eq_of_key_eq hm' hm (hid'.trans hid)
  obtain ⟨fp', hfp', hmfp'⟩ := hcopy.fingerprint
  obtain rfl : fp = fp' := Option.some.inj (hmfp.symm.trans hmfp')
  obtain ⟨rfl, rfl⟩ := importFingerprint_inj hsha hfp hfp'
  exact hcopy

/-! ## What it says of the buckets -/

/-- A message in a bucket is one of its copies. -/
lemma Unites.inBucket_iff (h : Unites P kept v) (hsha : Function.Injective P.sha256) {m : Message}
    (hm : m ∈ v.evidence.messages) {b : Bucket} :
    InBucket P v b m ↔ ∃ i < Bag.maxCount (kept.map Prod.snd) b, IsCopy P m b i := by
  constructor
  · rintro ⟨hconversation, hminute, htype, hcontent, o, ho, hid, p, hp, hpid, hname⟩
    obtain ⟨bag, hbag, c, i, hi, ⟨m', hm', hid', hcopy⟩, p', hp', hpid', hname'⟩ := h.explained o ho
    obtain rfl : m' = m := h.messages.ids.eq_of_key_eq hm' hm (hid'.trans hid)
    obtain rfl : p' = p := h.participantIds.eq_of_key_eq hp' hp (hpid'.trans hpid.symm)
    have hcb : c = b := by
      have hcontent' := Option.some.inj (hcopy.content.symm.trans hcontent)
      have hconversation' := hcopy.conversation.symm.trans hconversation
      have hminute' := hcopy.minute.symm.trans hminute
      have htype' := hcopy.type.symm.trans htype
      have hsender' := hname'.symm.trans hname
      cases c
      cases b
      simp_all
    subst hcb
    exact ⟨i, Bag.mem_union_iff.mpr ⟨bag, List.mem_map.mpr ⟨_, hbag, rfl⟩, hi⟩, hcopy⟩
  · rintro ⟨i, -, hcopy⟩
    obtain ⟨fp, hfp, hmfp⟩ := hcopy.fingerprint
    have himported : m.origin = .manualExport := (h.messages.imported m hm).mpr (by simp [hmfp])
    obtain ⟨o, ho, hid⟩ := h.observed m hm himported
    obtain ⟨bag, -, c, j, -, ⟨m', hm', hid', hcopy'⟩, hp⟩ := h.explained o ho
    obtain rfl : m' = m := h.messages.ids.eq_of_key_eq hm' hm (hid'.trans hid)
    obtain ⟨rfl, -⟩ := hcopy'.inj hsha hcopy
    exact ⟨hcopy.conversation, hcopy.minute, hcopy.type, hcopy.content, o, ho, hid, hp⟩

/-- Of every bucket the vault has as many messages as the batch that has most of it. -/
theorem Unites.bucketCount_eq (h : Unites P kept v) (hsha : Function.Injective P.sha256)
    (b : Bucket) : bucketCount P v b = Bag.maxCount (kept.map Prod.snd) b := by
  have hcopies {i : ℕ} (hi : i < Bag.maxCount (kept.map Prod.snd) b) :
      ∃ m ∈ v.evidence.messages, IsCopy P m b i := by
    obtain ⟨bag, hbag, hlt⟩ := Bag.mem_union_iff.mp hi
    obtain ⟨⟨id, bag⟩, hkept, rfl⟩ := List.mem_map.mp hbag
    obtain ⟨o, -, -, m, hm, -, hcopy⟩ := h.complete id bag hkept b i hlt
    exact ⟨m, hm, hcopy⟩
  have hrow {m : Message} : m ∈ v.evidence.messages.filter (fun m => InBucket P v b m) ↔
      m ∈ v.evidence.messages ∧ ∃ i < Bag.maxCount (kept.map Prod.snd) b, IsCopy P m b i := by
    rw [List.mem_filter, decide_eq_true_eq]
    exact and_congr_right fun hm => h.inBucket_iff hsha hm
  refine Bag.length_eq_of_numbered Message.importFingerprint (importFingerprint P b) ?_
    (fun i hi j hj hij => ?_) fun k => ?_
  · refine List.Nodup.map_on (fun m hm m' hm' hsame => ?_) (List.Nodup.filter _ h.messages.ids.of_map)
    obtain ⟨hmem, i, -, hcopy⟩ := hrow.mp hm
    obtain ⟨fp, -, hmfp⟩ := hcopy.fingerprint
    exact h.messages.fingerprints m hmem m' (hrow.mp hm').1 (by simp [hmfp]) hsame
  · obtain ⟨m, -, hcopy⟩ := hcopies hi
    obtain ⟨m', -, hcopy'⟩ := hcopies hj
    obtain ⟨fp, hfp, -⟩ := hcopy.fingerprint
    obtain ⟨fp', hfp', -⟩ := hcopy'.fingerprint
    have hsame : some fp = some fp' := hfp.symm.trans (hij.trans hfp')
    exact (importFingerprint_inj hsha hfp (hsame ▸ hfp')).2
  · rw [List.mem_map]
    constructor
    · rintro ⟨m, hm, rfl⟩
      obtain ⟨-, i, hi, hcopy⟩ := hrow.mp hm
      obtain ⟨fp, hfp, hmfp⟩ := hcopy.fingerprint
      exact ⟨i, hi, hfp.trans hmfp.symm⟩
    · rintro ⟨i, hi, rfl⟩
      obtain ⟨m, hm, hcopy⟩ := hcopies hi
      obtain ⟨fp, hfp, hmfp⟩ := hcopy.fingerprint
      exact ⟨m, hrow.mpr ⟨hm, i, hi, hcopy⟩, hmfp.trans hfp.symm⟩

/-- A message of an import is there exactly as long as a batch that is not undone observes it. -/
theorem Unites.exists_iff_observed (h : Unites P kept v) (id : String) :
    (∃ m ∈ v.evidence.messages, m.origin = .manualExport ∧ m.id = id) ↔
      ∃ o ∈ v.imports.observations, o.messageId = id ∧
        ∃ row ∈ v.imports.batches, row.id = o.batchId ∧ row.undoneAtMs = none := by
  constructor
  · rintro ⟨m, hm, himported, rfl⟩
    obtain ⟨o, ho, hid⟩ := h.observed m hm himported
    obtain ⟨bag, hbag, -⟩ := h.explained o ho
    exact ⟨o, ho, hid, (h.keptBatches o.batchId).mp (List.mem_map.mpr ⟨_, hbag, rfl⟩)⟩
  · rintro ⟨o, ho, rfl, -⟩
    obtain ⟨-, -, b, i, -, ⟨m, hm, hid, hcopy⟩, -⟩ := h.explained o ho
    obtain ⟨fp, -, hmfp⟩ := hcopy.fingerprint
    exact ⟨m, hm, (h.messages.imported m hm).mpr (by simp [hmfp]), hid⟩

/-! ## One turn of the import loop -/

section Import

variable {I : Importer} {args : ImportArgs} {ids : ImportIds}

lemma bucketOf_eq_some {r : Sent} {b : Bucket} (h : bucketOf I args r = some b) :
    b.conversationId = args.conversationId ∧ b.sender = r.sender ∧
      contentFingerprint I.platform b.type (some r.body) = some b.contentFp := by
  obtain ⟨minuteMs, -, h⟩ := Option.bind_eq_some_iff.mp h
  obtain ⟨contentFp, hcontent, h⟩ := Option.bind_eq_some_iff.mp h
  obtain rfl := Option.some.inj h
  exact ⟨rfl, rfl, hcontent⟩

lemma Stored.add {messages : List Message} (h : Stored messages) {row : Message} {fp : String}
    (hid : ∀ m ∈ messages, m.id ≠ row.id) (hfp : ∀ m ∈ messages, m.importFingerprint ≠ some fp)
    (hrow : row.importFingerprint = some fp) (horigin : row.origin = .manualExport)
    (hwamid : row.wamid = none) : Stored (messages ++ [row]) where
  ids := h.ids.append hid
  fingerprints := by
    intro m hm m' hm' hsome hsame
    rcases List.mem_append.mp hm with hold | hnew
    · rcases List.mem_append.mp hm' with hold' | hnew'
      · exact h.fingerprints m hold m' hold' hsome hsame
      · rw [List.mem_singleton.mp hnew', hrow] at hsame
        exact absurd hsame (hfp m hold)
    · obtain rfl := List.mem_singleton.mp hnew
      rcases List.mem_append.mp hm' with hold' | hnew'
      · rw [hrow] at hsame
        exact absurd hsame.symm (hfp m' hold')
      · exact (List.mem_singleton.mp hnew').symm
  imported := by
    intro m hm
    rcases List.mem_append.mp hm with hold | hnew
    · exact h.imported m hold
    · rw [List.mem_singleton.mp hnew]
      simp [hrow, horigin]
  noWamid := by
    intro m hm himported
    rcases List.mem_append.mp hm with hold | hnew
    · exact h.noWamid m hold himported
    · rw [List.mem_singleton.mp hnew, hwamid]

/-- Found or added, the message is the copy, and nothing else changes. -/
lemma Resolves.spec (h : Unites I.platform kept v) (hsha : Function.Injective I.platform.sha256)
    {r : Sent} {b : Bucket} {i : ℕ} {fp messageId : String} (hb : bucketOf I args r = some b)
    (hfp : importFingerprint I.platform b i = some fp)
    (hres : Resolves I args ids r b fp v messageId v') :
    v'.imports = v.imports ∧ v.evidence.messages ⊆ v'.evidence.messages ∧
      (∀ m ∈ v'.evidence.messages, m ∈ v.evidence.messages ∨ m.id = messageId) ∧
      Stored v'.evidence.messages ∧
      ∃ m ∈ v'.evidence.messages, m.id = messageId ∧ IsCopy I.platform m b i := by
  cases hres with
  | found m hm hmfp =>
    exact ⟨rfl, List.Subset.refl _, fun m' hm' => .inl hm', h.messages, m, hm, rfl,
      h.isCopy hsha hm hfp hmfp⟩
  | added n hid hnone =>
    obtain ⟨hconversation, -, hcontent⟩ := bucketOf_eq_some hb
    refine ⟨rfl, List.subset_append_left _ _, ?_, h.messages.add hid hnone rfl rfl rfl, ?_⟩
    · intro m hm
      rcases List.mem_append.mp hm with hold | hnew
      · exact .inl hold
      · rw [List.mem_singleton.mp hnew]
        exact .inr rfl
    · refine ⟨evidenceRow args (ids.message n) r b fp,
        List.mem_append_right _ (List.mem_singleton_self _), rfl, ?_⟩
      exact
        { fingerprint := ⟨fp, hfp, rfl⟩
          conversation := hconversation.symm
          minute := rfl
          type := rfl
          content := hcontent }

/-- One more message of the batch that is being imported. -/
theorem Unites.observe {id : String} {bag : List Bucket}
    (h : Unites I.platform (kept ++ [(id, bag)]) v) (hsha : Function.Injective I.platform.sha256)
    {r : Sent} {b : Bucket} {fp : String} {o : Observation} (hb : bucketOf I args r = some b)
    (hfp : importFingerprint I.platform b (bag.count b) = some fp)
    (hres : Resolves I args ids r b fp v o.messageId v') (hbatch : o.batchId = id)
    (hparticipant : ∃ p ∈ v.imports.participants,
      p.id = o.senderImportParticipantId ∧ p.rawDisplayName = b.sender) :
    Unites I.platform (kept ++ [(id, bag ++ [b])])
      (withObservations (v'.imports.observations ++ [o]) v') := by
  obtain ⟨himports, hsubset, hnew, hstored, hcopied⟩ := hres.spec h hsha hb hfp
  have hfirst (bag' : List Bucket) : (kept ++ [(id, bag')]).map Prod.fst =
      (kept ++ [(id, bag)]).map Prod.fst := by simp
  have hobservations : v'.imports.observations = v.imports.observations := by rw [himports]
  have hparticipants : v'.imports.participants = v.imports.participants := by rw [himports]
  have hkept {id' : String} {bag' : List Bucket} (hmem : (id', bag') ∈ kept ++ [(id, bag)]) :
      ∃ bag'', (id', bag'') ∈ kept ++ [(id, bag ++ [b])] ∧ ∀ c, bag'.count c ≤ bag''.count c := by
    rcases List.mem_append.mp hmem with hold | hlast
    · exact ⟨bag', List.mem_append_left _ hold, fun c => le_refl _⟩
    · obtain ⟨rfl, rfl⟩ := Prod.mk.inj (List.mem_singleton.mp hlast)
      exact ⟨bag' ++ [b], List.mem_append_right _ (List.mem_singleton_self _),
        fun c => by rw [List.count_append]; exact Nat.le_add_right _ _⟩
  refine
    { messages := hstored
      participantIds := by
        rw [withObservations_participants, himports]
        exact h.participantIds
      batchIds := by
        rw [withObservations_batches, himports]
        exact h.batchIds
      keptIds := hfirst (bag ++ [b]) ▸ h.keptIds
      keptBatches := fun id' => ?_
      observed := fun m hm himported => ?_
      explained := fun o' ho' => ?_
      complete := fun id' bag' hmem c i hi => ?_ }
  · rw [hfirst, h.keptBatches id']
    simp only [withObservations, himports]
  · rcases hnew m hm with hold | hid
    · obtain ⟨o', ho', hid⟩ := h.observed m hold himported
      exact ⟨o', List.mem_append_left _ (hobservations ▸ ho'), hid⟩
    · exact ⟨o, List.mem_append_right _ (List.mem_singleton_self _), hid.symm⟩
  · rcases List.mem_append.mp ho' with hold | hlast
    · rw [hobservations] at hold
      obtain ⟨bag', hmem, c, i, hi, ⟨m, hm, hcopy⟩, p, hp, hpid⟩ := h.explained o' hold
      obtain ⟨bag'', hmem', hle⟩ := hkept hmem
      exact ⟨bag'', hmem', c, i, lt_of_lt_of_le hi (hle c), ⟨m, hsubset hm, hcopy⟩, p,
        hparticipants.symm ▸ hp, hpid⟩
    · obtain rfl := List.mem_singleton.mp hlast
      obtain ⟨p, hp, hpid⟩ := hparticipant
      subst hbatch
      refine ⟨bag ++ [b], List.mem_append_right _ (List.mem_singleton_self _), b, bag.count b,
        Bag.lt_count_concat.mpr (.inr ⟨rfl, rfl⟩), hcopied, p,
        hparticipants.symm ▸ hp, hpid⟩
  · have hold {bag₀ : List Bucket} (hmem₀ : (id', bag₀) ∈ kept ++ [(id, bag)])
        (hi₀ : i < bag₀.count c) :
        ∃ o' ∈ v'.imports.observations ++ [o], o'.batchId = id' ∧
          ∃ m ∈ v'.evidence.messages, m.id = o'.messageId ∧ IsCopy I.platform m c i := by
      obtain ⟨o', ho', hid', m, hm, hcopy⟩ := h.complete id' bag₀ hmem₀ c i hi₀
      exact ⟨o', List.mem_append_left _ (hobservations ▸ ho'), hid', m, hsubset hm, hcopy⟩
    rcases List.mem_append.mp hmem with hother | hlast
    · exact hold (List.mem_append_left _ hother) hi
    · obtain ⟨rfl, rfl⟩ := Prod.mk.inj (List.mem_singleton.mp hlast)
      rcases Bag.lt_count_concat.mp hi with hlt | ⟨rfl, rfl⟩
      · exact hold (List.mem_append_right _ (List.mem_singleton_self _)) hlt
      · exact ⟨o, List.mem_append_right _ (List.mem_singleton_self _), hbatch, hcopied⟩

/-! ## A whole import -/

/-- Only four tables matter. -/
lemma Unites.congr (h : Unites P kept v) (hmessages : v'.evidence.messages = v.evidence.messages)
    (hparticipants : v'.imports.participants = v.imports.participants)
    (hbatches : v'.imports.batches = v.imports.batches)
    (hobservations : v'.imports.observations = v.imports.observations) : Unites P kept v' where
  messages := hmessages ▸ h.messages
  participantIds := hparticipants ▸ h.participantIds
  batchIds := hbatches ▸ h.batchIds
  keptIds := h.keptIds
  keptBatches := hbatches ▸ h.keptBatches
  observed := by
    rw [hmessages, hobservations]
    exact h.observed
  explained := by
    rw [hmessages, hobservations, hparticipants]
    exact h.explained
  complete := by
    rw [hmessages, hobservations]
    exact h.complete

/-- A batch starts as the empty bag. -/
lemma Unites.open (h : Unites P kept v) {records : List (Record × ℕ)}
    {participants : List ImportParticipant} (hfree : ∀ row ∈ v.imports.batches, row.id ≠ ids.batch)
    (hunique : Table.Unique ImportParticipant.id participants)
    (hsubset : v.imports.participants ⊆ participants) :
    Unites P (kept ++ [(ids.batch, [])]) (opened args ids records participants v) where
  messages := h.messages
  participantIds := hunique
  batchIds := h.batchIds.append hfree
  keptIds := by
    rw [List.map_append, List.nodup_append]
    refine ⟨h.keptIds, List.nodup_singleton _, fun id hid id' hid' => ?_⟩
    rw [List.mem_singleton.mp hid']
    obtain ⟨row, hrow, rfl, -⟩ := (h.keptBatches id).mp hid
    exact hfree row hrow
  keptBatches := by
    intro id
    have hlast : (∃ row ∈ [batchRow args ids.batch records], row.id = id ∧ row.undoneAtMs = none) ↔
        id ∈ [ids.batch] := by
      simp [batchRow, eq_comm]
    rw [List.map_append, List.mem_append, h.keptBatches id]
    simp only [opened, List.mem_append, or_and_right, exists_or]
    exact or_congr Iff.rfl hlast.symm
  observed := h.observed
  explained := by
    intro o ho
    obtain ⟨bag, hbag, b, i, hi, hcopy, p, hp, hpid⟩ := h.explained o ho
    exact ⟨bag, List.mem_append_left _ hbag, b, i, hi, hcopy, p, hsubset hp, hpid⟩
  complete := by
    intro id bag hmem b i hi
    rcases List.mem_append.mp hmem with hold | hlast
    · exact h.complete id bag hold b i hi
    · obtain ⟨-, rfl⟩ := Prod.mk.inj (List.mem_singleton.mp hlast)
      simp at hi

/-- An import adds its bag. -/
theorem Unites.imported (h : Unites I.platform kept v) (hsha : Function.Injective I.platform.sha256)
    {records : List (Record × ℕ)} (himport : Imported I args ids records v v') :
    Unites I.platform
      (kept ++ [(ids.batch, (messagesOf records).filterMap (bucketOf I args))]) v' := by
  obtain ⟨participantIds, participants, s, hparticipants, hloop, hsource⟩ := himport.turns
  obtain ⟨hunique, hsubset, hnamed⟩ := addParticipants_eq_some hparticipants h.participantIds
  have hopen : Unites I.platform (kept ++ [(ids.batch, [])])
      (opened args ids records participants v) := h.open himport.batch hunique hsubset
  -- `occ` counts the bag so far, so the next copy of a bucket has the number that is free
  have hrun := Loop.progress (f := importMessage I args ids participantIds)
    (J := fun done s =>
      Unites I.platform (kept ++ [(ids.batch, done.filterMap (bucketOf I args))]) s.vault ∧
        (∀ b, s.occ b = (done.filterMap (bucketOf I args)).count b) ∧
        s.vault.imports.participants = participants)
    (fun done s r s' hJ hturn => ?_) (d := [])
    (s := ⟨opened args ids records participants v, fun _ => 0, 0, 0⟩) ⟨hopen, by simp, rfl⟩ hloop
  · rw [List.nil_append] at hrun
    rw [addSource_eq_some hsource]
    exact hrun.1.congr rfl rfl rfl rfl
  · obtain ⟨hunites, hocc, hrows⟩ := hJ
    obtain ⟨b, fp, messageId, w, participantId, hb, hfp, hres, hlookup, hocc', hvault⟩ :=
      (importMessage_eq_some hturn).turn
    have hbag : (done ++ [r]).filterMap (bucketOf I args) =
        done.filterMap (bucketOf I args) ++ [b] := by
      rw [List.filterMap_append]
      simp [hb]
    obtain ⟨before, after, hsplit, -⟩ := List.lookup_eq_some_iff.mp hlookup
    obtain ⟨p, hp, hpid, hname⟩ := hnamed r.sender participantId (by rw [hsplit]; simp)
    have hsender := (bucketOf_eq_some hb).2.1
    rw [hocc b] at hfp
    have hnext := hunites.observe hsha (o := ⟨ids.batch, messageId, participantId, r.sourceOrdinal,
      r.sourceStartOffset, r.sourceEndOffset, b.contentFp⟩) hb hfp hres rfl
      ⟨p, hrows.symm ▸ hp, hpid, hname.trans hsender.symm⟩
    rw [hbag, hvault]
    refine ⟨hnext, fun c => ?_, ?_⟩
    · rw [hocc', List.count_append, Function.update_apply, hocc b]
      split
      · rename_i hc
        rw [hc, List.count_singleton_self]
      · rename_i hc
        rw [hocc c, List.count_singleton, if_neg (by simpa using Ne.symm hc), Nat.add_zero]
    · rw [withObservations_participants, (hres.spec hunites hsha hb hfp).1, hrows]

end Import

/-! ## Undo -/

lemma Stored.sublist {messages messages' : List Message} (h : Stored messages)
    (hsub : messages'.Sublist messages) : Stored messages' where
  ids := h.ids.sublist (hsub.map _)
  fingerprints := fun m hm m' hm' =>
    h.fingerprints m (hsub.subset hm) m' (hsub.subset hm')
  imported := fun m hm => h.imported m (hsub.subset hm)
  noWamid := fun m hm => h.noWamid m (hsub.subset hm)

/-- An undo takes the batch out. -/
theorem Unites.undo (h : Unites P kept v) {batchId : String} {nowMs : ℤ}
    (hundo : Undone batchId nowMs v v') :
    Unites P (kept.filter fun batch => batch.1 ≠ batchId) v' := by
  obtain ⟨messages, hevidence, hsub⟩ := hundo.evidence
  have hmem {o : Observation} :
      o ∈ unobserved batchId v ↔ o ∈ v.imports.observations ∧ o.batchId ≠ batchId := by
    simp [unobserved]
  -- a message that some other batch observes stays
  have hstays {m : Message} (hm : m ∈ v.evidence.messages) {o : Observation}
      (ho : o ∈ unobserved batchId v) (hid : m.id = o.messageId) : m ∈ v'.evidence.messages :=
    (hundo.mem_undone m).mpr ⟨hm, fun hdrops => hdrops.2.1 o ho hid.symm⟩
  refine
    { messages := ?_
      participantIds := ?_
      batchIds := ?_
      keptIds := h.keptIds.sublist (List.filter_sublist.map _)
      keptBatches := fun id => ?_
      observed := fun m hm himported => ?_
      explained := fun o ho => ?_
      complete := fun id bag hkept b i hi => ?_ }
  · rw [hevidence]
    exact h.messages.sublist hsub
  · rw [hundo.participants]
    exact h.participantIds.sublist (List.filter_sublist.map _)
  · rw [hundo.batches]
    unfold Table.Unique
    rw [List.map_map]
    refine Eq.mp (congrArg List.Nodup ?_) h.batchIds
    refine List.map_congr_left fun row _ => ?_
    dsimp only [Function.comp]
    split
    · rfl
    · rfl
  · have hleft : id ∈ (kept.filter fun batch => batch.1 ≠ batchId).map Prod.fst ↔
        id ∈ kept.map Prod.fst ∧ id ≠ batchId := by
      simp only [List.mem_map, List.mem_filter, decide_eq_true_eq]
      constructor
      · rintro ⟨batch, ⟨hbatch, hne⟩, rfl⟩
        exact ⟨⟨batch, hbatch, rfl⟩, hne⟩
      · rintro ⟨⟨batch, hbatch, rfl⟩, hne⟩
        exact ⟨batch, ⟨hbatch, hne⟩, rfl⟩
    rw [hleft, h.keptBatches id, hundo.batches]
    constructor
    · rintro ⟨⟨row, hrow, rfl, hnone⟩, hne⟩
      exact ⟨row, List.mem_map.mpr ⟨row, hrow, if_neg hne⟩, rfl, hnone⟩
    · rintro ⟨row', hrow', hid, hnone⟩
      obtain ⟨row, hrow, rfl⟩ := List.mem_map.mp hrow'
      by_cases hrowid : row.id = batchId
      · rw [if_pos hrowid] at hnone
        cases hnone
      · rw [if_neg hrowid] at hid hnone
        exact ⟨⟨row, hrow, hid, hnone⟩, hid ▸ hrowid⟩
  · obtain ⟨hold, hheld⟩ := (hundo.mem_undone m).mp hm
    obtain ⟨o, ho, hid⟩ := h.observed m hold himported
    rw [hundo.observations]
    by_contra hnone
    push Not at hnone
    refine hheld ⟨⟨o, ho, ?_, hid⟩, hnone, h.messages.noWamid m hold himported⟩
    by_contra hother
    exact hnone o (hmem.mpr ⟨ho, hother⟩) hid
  · rw [hundo.observations] at ho
    obtain ⟨hold, hother⟩ := hmem.mp ho
    obtain ⟨bag, hbag, b, i, hi, ⟨m, hm, hid, hcopy⟩, p, hp, hpid, hname⟩ := h.explained o hold
    refine ⟨bag, List.mem_filter.mpr ⟨hbag, by simpa using hother⟩, b, i, hi,
      ⟨m, hstays hm ho hid, hid, hcopy⟩, p, ?_, hpid, hname⟩
    rw [hundo.participants, List.mem_filter, decide_eq_true_eq]
    exact ⟨hp, fun hbatch => hundo.held p hp hbatch o ho hpid.symm⟩
  · obtain ⟨hkept, hne⟩ := List.mem_filter.mp hkept
    obtain ⟨o, ho, hid, m, hm, hmid, hcopy⟩ := h.complete id bag hkept b i hi
    have hstill : o ∈ unobserved batchId v := hmem.mpr ⟨ho, by simpa [hid] using hne⟩
    exact ⟨o, hundo.observations ▸ hstill, hid, m, hstays hm hstill hmid, hmid, hcopy⟩

/-! ## Every run -/

/-- A vault nothing was ever imported into. -/
structure Pristine (v : Vault) : Prop where
  ids : Table.Unique Message.id v.evidence.messages
  provider : ∀ m ∈ v.evidence.messages, m.origin ≠ .manualExport ∧ m.importFingerprint = none
  imports : v.imports = ⟨[], [], [], []⟩

lemma Pristine.unites (h : Pristine v) : Unites P [] v where
  messages :=
    { ids := h.ids
      fingerprints := fun m hm _ _ hsome => absurd (h.provider m hm).2 hsome
      imported := fun m hm => by simp [h.provider m hm]
      noWamid := fun m hm himported => absurd himported (h.provider m hm).1 }
  participantIds := by simp [h.imports, Table.unique_nil]
  batchIds := by simp [h.imports, Table.unique_nil]
  keptIds := List.nodup_nil
  keptBatches := by simp [h.imports]
  observed := fun m hm himported => absurd himported (h.provider m hm).1
  explained := by simp [h.imports]
  complete := by simp

section Runs

variable {I : Importer}

/-- The batches of a log, as bags. -/
def bags (I : Importer) (kept : List (String × ImportArgs)) : List (String × List Bucket) :=
  kept.map fun batch => (batch.1, bagOf I batch.2)

lemma bags_concat (kept : List (String × ImportArgs)) (batchId : String) (args : ImportArgs) :
    bags I (kept ++ [(batchId, args)]) = bags I kept ++ [(batchId, bagOf I args)] := by
  simp [bags]

lemma bags_filter (kept : List (String × ImportArgs)) (batchId : String) :
    bags I (kept.filter fun batch => batch.1 ≠ batchId) =
      (bags I kept).filter fun batch => batch.1 ≠ batchId := by
  unfold bags
  rw [List.filter_map]
  rfl

/-- Between calls the connection has no open transaction, and the vault holds the union of what
survives. -/
structure Between (I : Importer) (log : List Event) (c : Conn Vault) : Prop where
  clean : c.rollback = c
  unites : Unites I.platform (bags I (survivors log)) c.durable

lemma Between.working {log : List Event} {c : Conn Vault} (h : Between I log c) :
    c.working = c.durable := by
  rw [← h.clean]
  rfl

lemma bagOf_eq {args : ImportArgs} {records : List (Record × ℕ)} (h : gate I args = .ok records) :
    bagOf I args = (messagesOf records).filterMap (bucketOf I args) := by
  unfold bagOf
  rw [gate_eq_ok h]
  rfl

theorem Between.step (hsha : Function.Injective I.platform.sha256) {log : List Event}
    {c : Conn Vault} (h : Between I log c) (call : Call) :
    Between I (log ++ (step I c call).2) (step I c call).1 := by
  cases call with
  | importBatch verdict args ids =>
    rcases importBatch_cases I verdict args ids c with
      ⟨records, v, summary, hgate, hbody, hrun⟩ | ⟨stop, hstop, -⟩
    · have hnext := h.unites.imported hsha (importBody_eq_some (h.working ▸ hbody))
      simp only [Importers.step, hrun]
      refine ⟨rfl, ?_⟩
      rw [survivors, List.foldl_append]
      change Unites I.platform (bags I (survivors log ++ [(ids.batch, args)])) v
      rw [bags_concat, bagOf_eq hgate]
      exact hnext
    · have hsame := importBatch_stopped h.clean hstop
      rcases hrun : importBatch I verdict args ids c with ⟨c', result⟩
      rw [hrun] at hstop hsame
      obtain rfl : result = .error stop := hstop
      obtain rfl : c' = c := hsame
      simpa [Importers.step, hrun] using h
  | undoBatch verdict batchId nowMs =>
    rcases undoBatch_cases verdict batchId nowMs c with ⟨v, summary, -, hbody, hrun⟩ | ⟨stop, hstop, -⟩
    · have hnext := h.unites.undo (undoBody_eq_some h.unites.messages.ids (h.working ▸ hbody))
      simp only [Importers.step, hrun]
      refine ⟨rfl, ?_⟩
      rw [survivors, List.foldl_append]
      change Unites I.platform
        (bags I ((survivors log).filter fun batch => batch.1 ≠ batchId)) v
      rw [bags_filter]
      exact hnext
    · have hsame := undoBatch_stopped h.clean hstop
      rcases hrun : undoBatch verdict batchId nowMs c with ⟨c', result⟩
      rw [hrun] at hstop hsame
      obtain rfl : result = .error stop := hstop
      obtain rfl : c' = c := hsame
      simpa [Importers.step, hrun] using h

theorem between_of_run (hsha : Function.Injective I.platform.sha256) (hv : Pristine v)
    (calls : List Call) : Between I (Run.events (step I) (.clean v) calls)
      (Run.final (step I) (.clean v) calls) := by
  have hstart : Between I [] (.clean v) := ⟨rfl, hv.unites⟩
  have hrun := Run.log_invariant_of_meets (C := fun _ _ => True) (J := Between I)
    (fun log c call h _ => h.step hsha call) hstart
    (Run.meets_of_forall (fun _ _ => trivial) (Conn.clean v) calls)
  rwa [List.nil_append] at hrun

end Runs

/-- Import and undo compute a union.  After every run of them, each bucket has as many messages as
the surviving batch with most of it; what survives is what is not stamped as undone; an imported
message exists exactly where a surviving batch observes it; a call that does not return changes
nothing; and two runs with the same surviving exports agree, whatever the order. -/
theorem imports_are_a_union (I : Importer) (hsha : Function.Injective I.platform.sha256) (v : Vault)
    (hv : Pristine v) (calls : List Call) :
    let c := Run.final (step I) (.clean v) calls
    let kept := survivors (Run.events (step I) (.clean v) calls)
    (∀ b, bucketCount I.platform c.durable b =
      Bag.maxCount (kept.map fun batch => bagOf I batch.2) b) ∧
    (∀ id, id ∈ kept.map Prod.fst ↔
      ∃ row ∈ c.durable.imports.batches, row.id = id ∧ row.undoneAtMs = none) ∧
    (∀ id, (∃ m ∈ c.durable.evidence.messages, m.origin = .manualExport ∧ m.id = id) ↔
      ∃ o ∈ c.durable.imports.observations, o.messageId = id ∧
        ∃ row ∈ c.durable.imports.batches, row.id = o.batchId ∧ row.undoneAtMs = none) ∧
    (∀ verdict args ids stop, (importBatch I verdict args ids c).2 = .error stop →
      (importBatch I verdict args ids c).1 = c) ∧
    (∀ verdict batchId nowMs stop, (undoBatch verdict batchId nowMs c).2 = .error stop →
      (undoBatch verdict batchId nowMs c).1 = c) ∧
    ∀ calls', ((survivors (Run.events (step I) (.clean v) calls')).map Prod.snd).Perm
        (kept.map Prod.snd) →
      ∀ b, bucketCount I.platform (Run.final (step I) (.clean v) calls').durable b =
        bucketCount I.platform c.durable b := by
  intro c kept
  have h : Between I _ c := between_of_run hsha hv calls
  have hcount (calls : List Call) (b : Bucket) :
      bucketCount I.platform (Run.final (step I) (.clean v) calls).durable b =
        Bag.maxCount ((survivors (Run.events (step I) (.clean v) calls)).map
          fun batch => bagOf I batch.2) b := by
    rw [(between_of_run hsha hv calls).unites.bucketCount_eq hsha b, bags, List.map_map]
    rfl
  refine ⟨hcount calls, fun id => ?_, h.unites.exists_iff_observed,
    fun verdict args ids stop hstop => importBatch_stopped h.clean hstop,
    fun verdict batchId nowMs stop hstop => undoBatch_stopped h.clean hstop,
    fun calls' hperm b => ?_⟩
  · rw [← h.unites.keptBatches id, bags, List.map_map]
    rfl
  · rw [hcount calls', hcount calls]
    refine Bag.maxCount_perm ?_ b
    have hbags := hperm.map (bagOf I)
    rwa [List.map_map, List.map_map] at hbags

/-! ## A sample run -/

/-- An importer that knows the zone of UTC. -/
def sampleImporter : Importer :=
  ⟨Ingest.samplePlatform, ascii, Ingest.sampleNormaliser, fun name => if name = "UTC" then some .utc
    else none⟩

/-- A vault with one conversation. -/
def sampleVault : Vault :=
  { Vault.empty with
    evidence :=
      ⟨[⟨"acc_1", "PN1"⟩], [], [⟨"cnv_1", "acc_1", .dm, none, none, none, .allowMcp⟩], [], [], []⟩ }

def sampleArgs (text : String) : ImportArgs :=
  ⟨text, "", "DMY", "UTC", "cnv_1", "acc_1", "Me", [], none⟩

def sampleImportIds (suffix : String) : ImportIds where
  batch := "bat_" ++ suffix
  participant n := "imp_" ++ suffix ++ String.ofList (List.replicate n '1')
  message n := "msg_" ++ suffix ++ String.ofList (List.replicate n '1')

/-- Two like messages, and one of them again. -/
def sampleExports : List String :=
  ["1/4/26 1:02 M: h\n1/4/26 1:02 M: h", "1/4/26 1:02 M: h"]

/-- Both exports, and the undo of the first. -/
def sampleCalls : List Call :=
  [.importBatch .ok (sampleArgs sampleExports[0]) (sampleImportIds "a"),
    .importBatch .ok (sampleArgs sampleExports[1]) (sampleImportIds "b"),
    .undoBatch .ok "bat_a" 5]

lemma sampleVault_pristine : Pristine sampleVault := ⟨Table.unique_nil _, by decide, rfl⟩

/-- One of the two like messages is left, the one the second export has as well. -/
theorem imports_are_a_union_sample_run :
    (Run.final (step sampleImporter) (.clean sampleVault)
      sampleCalls).durable.evidence.messages.length = 1 ∧
    ∀ b, bucketCount Ingest.samplePlatform
        (Run.final (step sampleImporter) (.clean sampleVault) sampleCalls).durable b =
      Bag.maxCount ((survivors (Run.events (step sampleImporter) (.clean sampleVault)
        sampleCalls)).map fun batch => bagOf sampleImporter batch.2) b := by
  have hunion := imports_are_a_union sampleImporter (fun _ _ h => h) sampleVault
    sampleVault_pristine sampleCalls
  exact ⟨by decide +kernel, hunion.1⟩

end WhatsVault.Importers
