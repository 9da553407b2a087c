import WhatsVault.Importers.LocalTime
import WhatsVault.Importers.Union

/-!
# The first import of a conversation

An export of a conversation of which nothing is imported adds one message and one observation for
each message of its text.  The occurrence of a message is in its fingerprint, and no fingerprint of
another conversation is one of this, so each message is new when its turn comes (`Adding`).

The transaction goes through exactly where the account and the conversation are in the vault and
what the messages are fingerprinted by fits the length prefixes (`importBody_of_admits`,
`admits_of_importBody`).
-/

namespace WhatsVault.Importers

open Transaction Framing

variable (I : Importer)

/-- The senders of some messages in the order in which they first appear. -/
def sendersOf (msgs : List Sent) : List String :=
  msgs.foldl (fun senders r => if r.sender ∈ senders then senders else senders ++ [r.sender]) []

/-! ## When an import can be stored -/

/-- The messages `import_batch` reads in its text. -/
def exportOf (args : ImportArgs) : List Sent :=
  messagesOf ((parseTranscript I.unicode (I.zone args.tzName) args.dateFormat args.text).getD [])

/-- What the messages of an export are fingerprinted by fits the prefixes and the counter of their
fingerprints. -/
structure Fits (args : ImportArgs) : Prop where
  conversation : ∀ r ∈ exportOf I args, (utf8 args.conversationId).length < 256 ^ 4
  sender : ∀ r ∈ exportOf I args, (utf8 r.sender).length < 256 ^ 4
  body : ∀ r ∈ exportOf I args, (utf8 r.body).length < 256 ^ 4
  digest : ∀ b ∈ bagOf I args, (utf8 b.contentFp).length < 256 ^ 4
  repeats : ∀ b, (bagOf I args).count b ≤ 256 ^ 4

/-- What `import_batch` needs besides: its account and its conversation. -/
def Admits (args : ImportArgs) (v : Vault) : Prop :=
  References v.evidence args.accountId args.conversationId ∧ Fits I args

/-- The ids a call draws are in none of the tables, and no two are the same. -/
structure FreshIds (ids : ImportIds) (v : Vault) : Prop where
  batch : ∀ row ∈ v.imports.batches, row.id ≠ ids.batch
  observed : ∀ o ∈ v.imports.observations, o.batchId ≠ ids.batch
  participant : ∀ p ∈ v.imports.participants, ∀ n, p.id ≠ ids.participant n
  participants : Function.Injective ids.participant
  message : ∀ m ∈ v.evidence.messages, ∀ n, m.id ≠ ids.message n
  messages : Function.Injective ids.message

/-- An import fingerprint is that of a message of the conversation it is stored in. -/
def Fingerprinted (P : Platform) (messages : List Message) : Prop :=
  ∀ m ∈ messages, ∀ fp, m.importFingerprint = some fp → m.origin = .manualExport ∧
    ∃ b i, b.conversationId = m.conversationId ∧ importFingerprint P b i = some fp

/-- Nothing of the conversation was imported. -/
def Unimported (conversationId : String) (messages : List Message) : Prop :=
  ∀ m ∈ messages, m.origin = .manualExport → m.conversationId ≠ conversationId

variable {I} {args : ImportArgs} {ids : ImportIds}

lemma Unites.fingerprinted {P : Platform} {kept : List (String × List Bucket)} {v : Vault}
    (h : Unites P kept v) : Fingerprinted P v.evidence.messages := by
  intro m hm fp hfp
  have himported : m.origin = .manualExport := (h.messages.imported m hm).mpr (by simp [hfp])
  obtain ⟨o, ho, hid⟩ := h.observed m hm himported
  obtain ⟨-, -, b, i, -, ⟨m', hm', hid', hcopy⟩, -⟩ := h.explained o ho
  obtain rfl : m' = m := h.messages.ids.eq_of_key_eq hm' hm (hid'.trans hid)
  obtain ⟨fp', hfp', hmfp⟩ := hcopy.fingerprint
  obtain rfl : fp = fp' := Option.some.inj (hfp.symm.trans hmfp)
  exact ⟨himported, b, i, hcopy.conversation.symm, hfp'⟩

/-- Imports and undos keep to fingerprinted messages. -/
theorem fingerprinted_of_run (hsha : Function.Injective I.platform.sha256) {v : Vault}
    (hv : Pristine v) (calls : List Call) : Fingerprinted I.platform
      (Run.final (step I) (.clean v) calls).durable.evidence.messages :=
  (between_of_run hsha hv calls).unites.fingerprinted

/-! ## The participants -/

lemma sendersOf_concat (msgs : List Sent) (r : Sent) : sendersOf (msgs ++ [r]) =
    if r.sender ∈ sendersOf msgs then sendersOf msgs else sendersOf msgs ++ [r.sender] := by
  unfold sendersOf
  rw [List.foldl_append]
  rfl

lemma mem_sendersOf {msgs : List Sent} {r : Sent} (hr : r ∈ msgs) : r.sender ∈ sendersOf msgs := by
  induction msgs using List.reverseRecOn with
  | nil => cases hr
  | append_singleton msgs last ih =>
    rw [sendersOf_concat]
    split
    · rename_i hseen
      rcases List.mem_append.mp hr with hold | hlast
      · exact ih hold
      · rwa [List.mem_singleton.mp hlast]
    · rcases List.mem_append.mp hr with hold | hlast
      · exact List.mem_append_left _ (ih hold)
      · rw [List.mem_singleton.mp hlast]
        exact List.mem_append_right _ (List.mem_singleton_self _)

lemma lookup_isSome {pairs : List (String × String)} {name : String} :
    (pairs.lookup name).isSome ↔ name ∈ pairs.map Prod.fst := by
  induction pairs with
  | nil => simp
  | cons p pairs ih =>
    rw [List.map_cons, List.mem_cons, List.lookup_cons]
    by_cases h : name = p.1
    · simp [h]
    · rw [beq_false_of_ne h, ih]
      simp [h]

/-- The participants of the senders so far, numbered in the order of their first message. -/
structure Naming (ids : ImportIds) (rows : List ImportParticipant) (done : List Sent)
    (s : List (String × String) × List ImportParticipant) : Prop where
  names : s.1.map Prod.fst = sendersOf done
  known : ∀ p ∈ s.2, p ∈ rows ∨ ∃ n < s.1.length, p.id = ids.participant n

lemma Naming.turn {rows : List ImportParticipant}
    (hfree : ∀ p ∈ rows, ∀ n, p.id ≠ ids.participant n)
    (hids : Function.Injective ids.participant) {done : List Sent}
    {s : List (String × String) × List ImportParticipant} (h : Naming ids rows done s) (r : Sent) :
    ∃ s', addParticipant ids s r = some s' ∧ Naming ids rows (done ++ [r]) s' := by
  unfold addParticipant
  by_cases hseen : (s.1.lookup r.sender).isSome
  · have hmem : r.sender ∈ sendersOf done := by rwa [← h.names, ← lookup_isSome]
    refine ⟨s, if_pos hseen, ?_, h.known⟩
    rw [sendersOf_concat, if_pos hmem, h.names]
  · have hmem : r.sender ∉ sendersOf done := by rwa [← h.names, ← lookup_isSome]
    have hnew : ∀ p ∈ s.2, p.id ≠ ids.participant s.1.length := by
      intro p hp
      rcases h.known p hp with hold | ⟨n, hn, hid⟩
      · exact hfree p hold _
      · intro hsame
        have heq := hids (hid.symm.trans hsame)
        omega
    have hinsert : Table.insert ImportParticipant.id
        ⟨ids.participant s.1.length, ids.batch, r.sender⟩ s.2 =
          some (s.2 ++ [⟨ids.participant s.1.length, ids.batch, r.sender⟩]) :=
      Table.insert_eq_some_iff.mpr ⟨hnew, rfl⟩
    refine ⟨_, (if_neg hseen).trans (Option.bind_eq_some_iff.mpr ⟨_, hinsert, rfl⟩), ?_,
      fun p hp => ?_⟩
    · rw [sendersOf_concat, if_neg hmem, List.map_append, h.names]
      rfl
    · rw [List.length_append, List.length_singleton]
      rcases List.mem_append.mp hp with hold | hlast
      · rcases h.known p hold with hrow | ⟨n, hn, hid⟩
        · exact .inl hrow
        · exact .inr ⟨n, by omega, hid⟩
      · rw [List.mem_singleton.mp hlast]
        exact .inr ⟨_, by omega, rfl⟩

/-- The loop over the senders goes through, and names each of them. -/
lemma addParticipants_goes_through {rows : List ImportParticipant}
    (hfree : ∀ p ∈ rows, ∀ n, p.id ≠ ids.participant n)
    (hids : Function.Injective ids.participant) (msgs : List Sent) :
    ∃ participantIds participants,
      msgs.foldlM (addParticipant ids) ([], rows) = some (participantIds, participants) ∧
        participantIds.length = (sendersOf msgs).length ∧
        ∀ r ∈ msgs, ∃ id, participantIds.lookup r.sender = some id := by
  have hstart : Naming ids rows [] ([], rows) := ⟨rfl, fun p hp => .inl hp⟩
  obtain ⟨⟨participantIds, participants⟩, hloop, hnaming⟩ :=
    Loop.goes_through hstart fun done r (_ : List Sent) s _ hs => hs.turn hfree hids r
  refine ⟨participantIds, participants, hloop, ?_, fun r hr => ?_⟩
  · have hlength := congrArg List.length hnaming.names
    rwa [List.length_map, List.nil_append] at hlength
  · rw [← Option.isSome_iff_exists, lookup_isSome, hnaming.names]
    exact mem_sendersOf hr

/-! ## The bucket of a message -/

/-- The offsets of a tz database are below a day. -/
def Importer.DayOffsets (I : Importer) : Prop :=
  ∀ name z, I.zone name = some z → ∀ t fold, |z.utcoffset t fold| < 86400

lemma toSignedBytes_of_bounds {t o : ℤ} (hlo : -15000000 < t) (hhi : t < 4200000000)
    (ho : -86400 < o ∧ o < 86400) : (toSignedBytes 8 ((t - o) * 1000)).isSome := by
  have hsize : ((256 ^ 8 : ℕ) : ℤ) = 18446744073709551616 := by decide
  unfold toSignedBytes
  rw [Option.isSome_ite, hsize]
  omega

/-- The minute of a message that is not a DST case fits its chunk. -/
lemma exists_minute (hzone : I.DayOffsets) {records : List (Record × ℕ)}
    (h : parseTranscript I.unicode (I.zone args.tzName) args.dateFormat args.text = some records)
    {r : Sent} (hr : r ∈ messagesOf records) (hplain : r.time.dstClass = .unambiguous) :
    ∃ ms, minuteEpochMs (I.zone args.tzName) args.dstResolutions r = some ms ∧
      (toSignedBytes 8 ms).isSome := by
  obtain ⟨z, dateStr, hz, hdate, t, ht, -⟩ := header_of_message h hr
  obtain ⟨hstart, -, -⟩ := datetime_minute ht
  obtain ⟨hlo, hhi⟩ := datetime_bounds (year_of_parseDate hdate) hstart
  have hfold : foldOf args.dstResolutions r = some false := by rw [foldOf, if_pos hplain]
  have hoffset := abs_lt.mp (hzone _ z hz (t - r.time.second) false)
  exact ⟨_, by rw [hz]; exact minuteEpochMs_of_fold hfold hstart,
    toSignedBytes_of_bounds hlo hhi hoffset⟩

/-- A message whose body fits has a bucket. -/
lemma exists_bucket (hzone : I.DayOffsets) {records : List (Record × ℕ)}
    (h : parseTranscript I.unicode (I.zone args.tzName) args.dateFormat args.text = some records)
    {r : Sent} (hr : r ∈ messagesOf records) (hplain : r.time.dstClass = .unambiguous)
    (hbody : (utf8 r.body).length < 256 ^ 4) :
    ∃ b, bucketOf I args r = some b ∧ (toSignedBytes 8 b.minuteMs).isSome ∧
      (utf8 b.type).length < 256 ^ 4 := by
  obtain ⟨ms, hms, hfits⟩ := exists_minute hzone h hr hplain
  have htype : (utf8 (if r.mediaState.isSome then "media" else "text")).length < 256 ^ 4 := by
    split
    · decide
    · decide
  obtain ⟨contentFp, hcontent⟩ := Option.isSome_iff_exists.mp
    (contentFingerprint_isSome.mpr ⟨htype, hbody⟩ : (contentFingerprint I.platform
      (if r.mediaState.isSome then "media" else "text") (some r.body)).isSome)
  exact ⟨⟨args.conversationId, ms, r.sender, if r.mediaState.isSome then "media" else "text",
    contentFp⟩, by simp [bucketOf, hms, hcontent], hfits, htype⟩

/-! ## The messages -/

/-- The loop over the messages, where each so far was added and observed under the id drawn for
it. -/
structure Adding (I : Importer) (args : ImportArgs) (ids : ImportIds) (v : Vault) (done : List Sent)
    (s : Stage) : Prop where
  accounts : s.vault.evidence.accounts = v.evidence.accounts
  conversations : s.vault.evidence.conversations = v.evidence.conversations
  added : s.added = done.length
  observed : s.obsCount = done.length
  occ : ∀ b, s.occ b = (done.filterMap (bucketOf I args)).count b
  messages : ∃ new, s.vault.evidence.messages = v.evidence.messages ++ new ∧
    new.map Message.id = (List.range done.length).map ids.message ∧
    (new.map Message.importFingerprint).Nodup ∧
    ∀ m ∈ new, ∃ b, ∃ i < s.occ b, (importFingerprint I.platform b i).isSome ∧
      m.importFingerprint = importFingerprint I.platform b i
  observations : ∃ new, s.vault.imports.observations = v.imports.observations ++ new ∧
    new.map Observation.messageId = (List.range done.length).map ids.message ∧
    (∀ o ∈ new, o.batchId = ids.batch) ∧
    new.map Observation.sourceOrdinal = done.map Sent.sourceOrdinal

lemma exists_of_mem_ids {α : Type} {rows : List α} {key : α → String} {n : ℕ} {id : ℕ → String}
    (h : rows.map key = (List.range n).map id) {row : α} (hrow : row ∈ rows) :
    ∃ k < n, key row = id k := by
  have hmem : key row ∈ (List.range n).map id := h ▸ List.mem_map_of_mem hrow
  obtain ⟨k, hk, hid⟩ := List.mem_map.mp hmem
  exact ⟨k, List.mem_range.mp hk, hid.symm⟩

section Messages

variable {v : Vault} {done : List Sent} {s : Stage} {r : Sent} {b : Bucket} {fp : String}

/-- The observation of a message that is added. -/
def observationOf (ids : ImportIds) (s : Stage) (r : Sent) (b : Bucket) (participantId : String) :
    Observation :=
  ⟨ids.batch, ids.message s.added, participantId, r.sourceOrdinal, r.sourceStartOffset,
    r.sourceEndOffset, b.contentFp⟩

/-- The turn of the loop that adds a message. -/
def Stage.adds (I : Importer) (args : ImportArgs) (ids : ImportIds) (s : Stage) (r : Sent)
    (b : Bucket) (fp participantId : String) : Stage where
  vault := withObservations
    (s.vault.imports.observations ++ [observationOf ids s r b participantId])
    (withMessage I (evidenceRow args (ids.message s.added) r b fp) r.body s.vault)
  occ := Function.update s.occ b (s.occ b + 1)
  added := s.added + 1
  obsCount := s.obsCount + 1

/-- No message has the fingerprint of the next occurrence of a bucket. -/
lemma Adding.fresh_fingerprint (h : Adding I args ids v done s)
    (hsha : Function.Injective I.platform.sha256)
    (hnamed : Fingerprinted I.platform v.evidence.messages)
    (hother : Unimported args.conversationId v.evidence.messages)
    (hb : b.conversationId = args.conversationId)
    (hfp : importFingerprint I.platform b (s.occ b) = some fp) :
    ∀ m ∈ s.vault.evidence.messages, m.importFingerprint ≠ some fp := by
  obtain ⟨new, hmessages, -, -, hnumbered⟩ := h.messages
  intro m hm hsame
  rw [hmessages] at hm
  rcases List.mem_append.mp hm with hold | hadded
  · -- an old one is of another conversation
    obtain ⟨himported, b', i, hconversation, hfp'⟩ := hnamed m hold fp hsame
    obtain ⟨rfl, -⟩ := importFingerprint_inj hsha hfp hfp'
    exact hother m hold himported (hconversation.symm.trans hb)
  · -- a new one is of another bucket, or an earlier occurrence
    obtain ⟨b', i, hi, -, hfp'⟩ := hnumbered m hadded
    obtain ⟨rfl, rfl⟩ := importFingerprint_inj hsha hfp (hfp'.symm.trans hsame)
    exact lt_irrefl _ hi

lemma Adding.fresh_id (h : Adding I args ids v done s) (hids : FreshIds ids v) :
    ∀ m ∈ s.vault.evidence.messages, m.id ≠ ids.message s.added := by
  obtain ⟨new, hmessages, hnewIds, -, -⟩ := h.messages
  intro m hm hsame
  rw [hmessages] at hm
  rcases List.mem_append.mp hm with hold | hadded
  · exact hids.message m hold _ hsame
  · obtain ⟨k, hk, hid⟩ := exists_of_mem_ids hnewIds hadded
    have heq := hids.messages (hid.symm.trans hsame)
    rw [h.added] at heq
    omega

/-- The observation of the next message is no copy of another. -/
lemma Adding.insertObservation (h : Adding I args ids v done s) (hids : FreshIds ids v)
    (hordinal : ∀ q ∈ done, q.sourceOrdinal ≠ r.sourceOrdinal) (participantId : String) :
    insertObservation (observationOf ids s r b participantId) s.vault.imports.observations =
      some (s.vault.imports.observations ++ [observationOf ids s r b participantId]) := by
  obtain ⟨new, hobservations, hnewIds, -, hordinals⟩ := h.observations
  refine if_pos fun o ho hbatch => ?_
  rw [hobservations] at ho
  rcases List.mem_append.mp ho with hold | hadded
  · exact absurd hbatch (hids.observed o hold)
  · constructor
    · intro hsame
      obtain ⟨k, hk, hid⟩ := exists_of_mem_ids hnewIds hadded
      have heq := hids.messages (hid.symm.trans hsame)
      rw [h.added] at heq
      omega
    · intro hsame
      have hmem : o.sourceOrdinal ∈ done.map Sent.sourceOrdinal :=
        hordinals ▸ List.mem_map_of_mem hadded
      obtain ⟨q, hq, hqo⟩ := List.mem_map.mp hmem
      exact hordinal q hq (hqo.trans hsame)

/-- The turn of a message whose fingerprint is not stored. -/
lemma Adding.importMessage (h : Adding I args ids v done s) (hids : FreshIds ids v)
    (hreferences : References v.evidence args.accountId args.conversationId)
    (hfingerprint : ∀ m ∈ s.vault.evidence.messages, m.importFingerprint ≠ some fp)
    (hb : bucketOf I args r = some b) (hfp : importFingerprint I.platform b (s.occ b) = some fp)
    {participantIds : List (String × String)} {participantId : String}
    (hparticipant : participantIds.lookup r.sender = some participantId)
    (hordinal : ∀ q ∈ done, q.sourceOrdinal ≠ r.sourceOrdinal) :
    importMessage I args ids participantIds s r =
      some (s.adds I args ids r b fp participantId) := by
  have hid := h.fresh_id hids
  have hrefers : References s.vault.evidence args.accountId args.conversationId := by
    unfold References
    rw [h.accounts, h.conversations]
    exact hreferences
  have hinsert : Ingest.insertMessage (evidenceRow args (ids.message s.added) r b fp)
      s.vault.evidence = some { s.vault.evidence with messages := s.vault.evidence.messages ++
        [evidenceRow args (ids.message s.added) r b fp] } :=
    if_pos fun m hm => ⟨hid m hm, .inl rfl, .inr (hfingerprint m hm)⟩
  have hadd : addMessage I (evidenceRow args (ids.message s.added) r b fp) r.body s.vault =
      some (withMessage I (evidenceRow args (ids.message s.added) r b fp) r.body s.vault) :=
    (if_pos hrefers).trans (Option.bind_eq_some_iff.mpr ⟨_, hinsert, rfl⟩)
  unfold Importers.importMessage resolveMessage
  simp only [hb, hfp, Table.find_eq_none_iff.mpr hfingerprint, hadd, hparticipant,
    Option.bind_eq_bind, Option.bind_some, Option.pure_def]
  exact Option.bind_eq_some_iff.mpr ⟨_, h.insertObservation hids hordinal participantId, rfl⟩

lemma count_concat (hb : bucketOf I args r = some b) (c : Bucket) :
    ((done ++ [r]).filterMap (bucketOf I args)).count c =
      (done.filterMap (bucketOf I args)).count c + if b = c then 1 else 0 := by
  rw [List.filterMap_append, List.count_append, List.filterMap_cons, hb, List.filterMap_nil,
    List.count_singleton]
  simp only [beq_iff_eq]

lemma Adding.adds (h : Adding I args ids v done s)
    (hfingerprint : ∀ m ∈ s.vault.evidence.messages, m.importFingerprint ≠ some fp)
    (hb : bucketOf I args r = some b) (hfp : importFingerprint I.platform b (s.occ b) = some fp)
    (participantId : String) :
    Adding I args ids v (done ++ [r]) (s.adds I args ids r b fp participantId) := by
  obtain ⟨new, hmessages, hnewIds, hnodup, hnumbered⟩ := h.messages
  obtain ⟨seen, hobservations, hseenIds, hbatch, hordinals⟩ := h.observations
  have hlength : (done ++ [r]).length = done.length + 1 := List.length_append
  have hocc (c : Bucket) : (s.adds I args ids r b fp participantId).occ c =
      s.occ c + if b = c then 1 else 0 := by
    show Function.update s.occ b (s.occ b + 1) c = _
    by_cases hc : b = c
    · subst hc
      rw [Function.update_self, if_pos rfl]
    · rw [Function.update_of_ne (Ne.symm hc), if_neg hc, Nat.add_zero]
  have hids : (List.range (done ++ [r]).length).map ids.message =
      (List.range done.length).map ids.message ++ [ids.message s.added] := by
    rw [hlength, List.range_succ, List.map_append, h.added]
    rfl
  refine
    { accounts := h.accounts
      conversations := h.conversations
      added := by rw [hlength, ← h.added]; rfl
      observed := by rw [hlength, ← h.observed]; rfl
      occ := fun c => by rw [hocc, count_concat hb, h.occ]
      messages := ⟨new ++ [evidenceRow args (ids.message s.added) r b fp], ?_, ?_, ?_, ?_⟩
      observations := ⟨seen ++ [observationOf ids s r b participantId], ?_, ?_, ?_, ?_⟩ }
  · rw [← List.append_assoc, ← hmessages]
    rfl
  · rw [List.map_append, hnewIds, hids]
    rfl
  · rw [List.map_append, List.nodup_append]
    refine ⟨hnodup, List.nodup_singleton _, fun x hx y hy hxy => ?_⟩
    obtain ⟨m, hm, rfl⟩ := List.mem_map.mp hx
    obtain rfl := List.mem_singleton.mp hy
    exact hfingerprint m (by rw [hmessages]; exact List.mem_append_right _ hm) hxy
  · intro m hm
    rcases List.mem_append.mp hm with hold | hlast
    · obtain ⟨c, i, hi, hsome, hmfp⟩ := hnumbered m hold
      exact ⟨c, i, by rw [hocc]; omega, hsome, hmfp⟩
    · rw [List.mem_singleton.mp hlast]
      exact ⟨b, s.occ b, by rw [hocc, if_pos rfl]; omega, by rw [hfp]; rfl, hfp.symm⟩
  · rw [← List.append_assoc, ← hobservations]
    rfl
  · rw [List.map_append, hseenIds, hids]
    rfl
  · intro o ho
    rcases List.mem_append.mp ho with hold | hlast
    · exact hbatch o hold
    · rw [List.mem_singleton.mp hlast]
      rfl
  · rw [List.map_append, hordinals, List.map_append]
    rfl

end Messages

/-! ## A batch -/

/-- What a batch adds is as many messages as observations, no two of one fingerprint and no two of
one key. -/
structure AddsApart (n : ℕ) (v v' : Vault) : Prop where
  messages : ∃ new, v'.evidence.messages = v.evidence.messages ++ new ∧ new.length = n ∧
    (∀ m ∈ new, m.importFingerprint.isSome) ∧ (new.map Message.importFingerprint).Nodup
  observations : ∃ new, v'.imports.observations = v.imports.observations ++ new ∧ new.length = n ∧
    (new.map fun o => (o.batchId, o.messageId)).Nodup

section Batch

variable {v : Vault} {records : List (Record × ℕ)}

lemma Adding.addsApart {done : List Sent} {s : Stage} (h : Adding I args ids v done s)
    (hids : Function.Injective ids.message) : AddsApart done.length v s.vault := by
  obtain ⟨new, hmessages, hnewIds, hnodup, hnumbered⟩ := h.messages
  obtain ⟨seen, hobservations, hseenIds, -, -⟩ := h.observations
  have hdrawn : ((List.range done.length).map ids.message).Nodup := List.nodup_range.map hids
  have hlength {α : Type} {rows : List α} {key : α → String}
      (hrows : rows.map key = (List.range done.length).map ids.message) :
      rows.length = done.length := by
    have heq := congrArg List.length hrows
    rwa [List.length_map, List.length_map, List.length_range] at heq
  refine ⟨⟨new, hmessages, hlength hnewIds, fun m hm => ?_, hnodup⟩,
    ⟨seen, hobservations, hlength hseenIds, ?_⟩⟩
  · obtain ⟨b, i, -, hsome, hmfp⟩ := hnumbered m hm
    rwa [hmfp]
  · refine List.Nodup.of_map Prod.snd ?_
    rw [List.map_map]
    rw [← hseenIds] at hdrawn
    exact hdrawn

lemma sublist_ordinals (records : List (Record × ℕ)) :
    ((messagesOf records).map Sent.sourceOrdinal).Sublist (records.map Prod.snd) := by
  induction records with
  | nil => exact List.Sublist.refl _
  | cons record records ih =>
    unfold messagesOf at ih ⊢
    rw [List.filterMap_cons, List.map_cons]
    rcases hsent : sentOf record with _ | r
    · exact ih.trans (List.sublist_cons_self _ _)
    · have hordinal : r.sourceOrdinal = record.2 := by
        unfold sentOf at hsent
        split at hsent
        · rw [← Option.some.inj hsent]
        · cases hsent
      rw [← hordinal]
      exact ih.cons_cons _

lemma nodup_ordinals
    (h : parseTranscript I.unicode (I.zone args.tzName) args.dateFormat args.text = some records) :
    ((messagesOf records).map Sent.sourceOrdinal).Nodup := by
  refine (sublist_ordinals records).nodup ?_
  obtain ⟨s, -, hrecords⟩ := Option.bind_eq_some_iff.mp h
  rw [← Option.some.inj hrecords, List.zipIdx_map_snd]
  exact List.nodup_range'

lemma exportOf_eq
    (h : parseTranscript I.unicode (I.zone args.tzName) args.dateFormat args.text = some records) :
    exportOf I args = messagesOf records := by rw [exportOf, h, Option.getD_some]

/-- The messages of an export without DST cases are all added. -/
lemma importMessages_go_through (hsha : Function.Injective I.platform.sha256) (hzone : I.DayOffsets)
    (h : parseTranscript I.unicode (I.zone args.tzName) args.dateFormat args.text = some records)
    (hplain : ∀ r ∈ messagesOf records, r.time.dstClass = .unambiguous) (hadmits : Admits I args v)
    (hids : FreshIds ids v) (hnamed : Fingerprinted I.platform v.evidence.messages)
    (hother : Unimported args.conversationId v.evidence.messages)
    {participantIds : List (String × String)}
    (hparticipants : ∀ r ∈ messagesOf records, ∃ id, participantIds.lookup r.sender = some id)
    {s : Stage} (hstart : Adding I args ids v [] s) :
    ∃ t, (messagesOf records).foldlM (importMessage I args ids participantIds) s = some t ∧
      Adding I args ids v (messagesOf records) t := by
  obtain ⟨hreferences, hfits⟩ := hadmits
  have hexport := exportOf_eq h
  refine Loop.goes_through (d := []) hstart fun done r rest s hsplit hs => ?_
  rw [List.nil_append] at hsplit
  have hr : r ∈ messagesOf records := by rw [hsplit]; simp
  have hre : r ∈ exportOf I args := hexport ▸ hr
  obtain ⟨b, hb, hminute, htype⟩ := exists_bucket hzone h hr (hplain r hr) (hfits.body r hre)
  have hbag : bagOf I args = (done ++ [r] ++ rest).filterMap (bucketOf I args) := by
    rw [List.append_assoc, List.singleton_append, ← hsplit, ← hexport]
    rfl
  have hplace : s.occ b < 256 ^ 4 := by
    have hcount := hfits.repeats b
    rw [hbag, List.filterMap_append, List.count_append, count_concat hb, if_pos rfl] at hcount
    rw [hs.occ]
    omega
  have hmem : b ∈ bagOf I args := by
    rw [hbag, List.mem_filterMap]
    exact ⟨r, by simp, hb⟩
  obtain ⟨hconversation, hsender, -⟩ := bucketOf_eq_some hb
  obtain ⟨fp, hfp⟩ := Option.isSome_iff_exists.mp (importFingerprint_isSome.mpr
    ⟨hminute, hplace, hconversation ▸ hfits.conversation r hre, hsender ▸ hfits.sender r hre, htype,
      hfits.digest b hmem⟩)
  have hordinal : ∀ q ∈ done, q.sourceOrdinal ≠ r.sourceOrdinal := by
    intro q hq
    have hnodup := nodup_ordinals h
    rw [hsplit, List.map_append, List.map_cons, List.nodup_append] at hnodup
    exact hnodup.2.2 _ (List.mem_map_of_mem hq) _ List.mem_cons_self
  obtain ⟨participantId, hparticipant⟩ := hparticipants r hr
  have hfingerprint := hs.fresh_fingerprint hsha hnamed hother hconversation hfp
  exact ⟨_, hs.importMessage hids hreferences hfingerprint hb hfp hparticipant hordinal,
    hs.adds hfingerprint hb hfp participantId⟩

/-- The transaction of an export without DST cases goes through where the vault admits it. -/
theorem importBody_of_admits (hsha : Function.Injective I.platform.sha256) (hzone : I.DayOffsets)
    (h : parseTranscript I.unicode (I.zone args.tzName) args.dateFormat args.text = some records)
    (hfamily : args.dateFormat ∈ families)
    (hplain : ∀ r ∈ messagesOf records, r.time.dstClass = .unambiguous) (hadmits : Admits I args v)
    (hids : FreshIds ids v) (hnamed : Fingerprinted I.platform v.evidence.messages)
    (hother : Unimported args.conversationId v.evidence.messages) :
    ∃ v', importBody I args ids records v = some (v', ⟨ids.batch, (messagesOf records).length,
      (messagesOf records).length, (sendersOf (messagesOf records)).length⟩) ∧
      AddsApart (messagesOf records).length v v' := by
  have hbatch : insertBatch (batchRow args ids.batch records) v.imports.batches =
      some (v.imports.batches ++ [batchRow args ids.batch records]) :=
    (if_pos hfamily).trans (Table.insert_eq_some_iff.mpr ⟨hids.batch, rfl⟩)
  obtain ⟨participantIds, participants, hparticipants, hlength, hlookup⟩ :=
    addParticipants_goes_through hids.participant hids.participants (messagesOf records)
  have hstart : Adding I args ids v []
      ⟨opened args ids records participants v, fun _ => 0, 0, 0⟩ := by
    refine
      { accounts := rfl
        conversations := rfl
        added := rfl
        observed := rfl
        occ := fun _ => rfl
        messages := ⟨[], (List.append_nil _).symm, rfl, List.nodup_nil, by simp⟩
        observations := ⟨[], (List.append_nil _).symm, rfl, by simp, rfl⟩ }
  obtain ⟨s, hloop, hs⟩ := importMessages_go_through hsha hzone h hplain hadmits hids hnamed hother
    hlookup hstart
  have hrefers : References s.vault.evidence args.accountId args.conversationId := by
    unfold References
    rw [hs.accounts, hs.conversations]
    exact hadmits.1
  obtain ⟨v', hsource⟩ : ∃ v', addSource ⟨args.conversationId, args.accountId, ids.batch⟩ s.vault =
      some v' := ⟨_, if_pos hrefers⟩
  refine ⟨v', ?_, ?_⟩
  · unfold importBody
    simp only [hbatch, hparticipants, Option.bind_eq_bind, Option.bind_some, Option.pure_def]
    refine Option.bind_eq_some_iff.mpr ⟨s, hloop, Option.bind_eq_some_iff.mpr ⟨_, hsource, ?_⟩⟩
    rw [hs.added, hs.observed, hlength]
  · have happart := hs.addsApart hids.messages
    rw [addSource_eq_some hsource]
    exact ⟨happart.messages, happart.observations⟩

/-- The loop over the messages, where each so far could be fingerprinted. -/
structure Reading (I : Importer) (args : ImportArgs) (v : Vault) (done : List Sent) (s : Stage) :
    Prop where
  accounts : s.vault.evidence.accounts = v.evidence.accounts
  conversations : s.vault.evidence.conversations = v.evidence.conversations
  occ : ∀ b, s.occ b = (done.filterMap (bucketOf I args)).count b
  buckets : ∀ r ∈ done, ∃ b, bucketOf I args r = some b
  fingerprints : ∀ b, ∀ i < s.occ b, (importFingerprint I.platform b i).isSome

lemma Resolves.accounts {r : Sent} {b : Bucket} {fp messageId : String} {v' : Vault}
    (h : Resolves I args ids r b fp v messageId v') :
    v'.evidence.accounts = v.evidence.accounts ∧
      v'.evidence.conversations = v.evidence.conversations := by
  cases h with
  | found m hm hfp => exact ⟨rfl, rfl⟩
  | added n hid hfp => exact ⟨rfl, rfl⟩

lemma Reading.turn {done : List Sent} {s s' : Stage} (h : Reading I args v done s)
    {participantIds : List (String × String)} {r : Sent}
    (hturn : importMessage I args ids participantIds s r = some s') :
    Reading I args v (done ++ [r]) s' := by
  obtain ⟨b, fp, messageId, w, participantId, hb, hfp, hresolves, -, hocc, hvault⟩ :=
    (importMessage_eq_some hturn).turn
  obtain ⟨haccounts, hconversations⟩ := hresolves.accounts
  have hcounts (c : Bucket) : s'.occ c = s.occ c + if b = c then 1 else 0 := by
    rw [hocc]
    by_cases hc : b = c
    · subst hc
      rw [Function.update_self, if_pos rfl]
    · rw [Function.update_of_ne (Ne.symm hc), if_neg hc, Nat.add_zero]
  refine
    { accounts := by rw [hvault]; exact haccounts.trans h.accounts
      conversations := by rw [hvault]; exact hconversations.trans h.conversations
      occ := fun c => by rw [hcounts, count_concat hb, h.occ]
      buckets := fun q hq => ?_
      fingerprints := fun c i hi => ?_ }
  · rcases List.mem_append.mp hq with hold | hlast
    · exact h.buckets q hold
    · rw [List.mem_singleton.mp hlast]
      exact ⟨b, hb⟩
  · rw [hcounts] at hi
    by_cases hc : b = c
    · subst hc
      rw [if_pos rfl] at hi
      rcases Nat.lt_succ_iff_lt_or_eq.mp hi with hless | rfl
      · exact h.fingerprints b i hless
      · rw [hfp]
        rfl
    · rw [if_neg hc, Nat.add_zero] at hi
      exact h.fingerprints c i hi

/-- What an import that goes through had to find. -/
theorem admits_of_importBody {v' : Vault} {summary : Summary}
    (h : parseTranscript I.unicode (I.zone args.tzName) args.dateFormat args.text = some records)
    (hbody : importBody I args ids records v = some (v', summary)) : Admits I args v := by
  obtain ⟨participantIds, participants, s, -, hloop, hsource⟩ := (importBody_eq_some hbody).turns
  have hstart : Reading I args v [] ⟨opened args ids records participants v, fun _ => 0, 0, 0⟩ :=
    ⟨rfl, rfl, fun _ => rfl, by simp, fun _ _ hi => absurd hi (Nat.not_lt_zero _)⟩
  have hread := Loop.progress (J := Reading I args v)
    (fun _ _ _ _ hs hturn => hs.turn hturn) hstart hloop
  rw [List.nil_append, ← exportOf_eq h] at hread
  -- what is in the bag was fingerprinted for the first time once
  have hbag {b : Bucket} (hb : b ∈ bagOf I args) : (importFingerprint I.platform b 0).isSome := by
    refine hread.fingerprints b 0 ?_
    rw [hread.occ]
    exact List.count_pos_iff.mpr hb
  have hmember {r : Sent} (hr : r ∈ exportOf I args) :
      ∃ b, bucketOf I args r = some b ∧ (importFingerprint I.platform b 0).isSome := by
    obtain ⟨b, hb⟩ := hread.buckets r hr
    exact ⟨b, hb, hbag (List.mem_filterMap.mpr ⟨r, hr, hb⟩)⟩
  refine ⟨?_, fun r hr => ?_, fun r hr => ?_, fun r hr => ?_, fun b hb => ?_, fun b => ?_⟩
  · unfold addSource at hsource
    rw [Option.ite_none_right_eq_some] at hsource
    have hrefers := hsource.1
    unfold References at hrefers
    rw [hread.accounts, hread.conversations] at hrefers
    exact hrefers
  · obtain ⟨b, hb, hsome⟩ := hmember hr
    rw [← (bucketOf_eq_some hb).1]
    exact (importFingerprint_isSome.mp hsome).2.2.1
  · obtain ⟨b, hb, hsome⟩ := hmember hr
    rw [← (bucketOf_eq_some hb).2.1]
    exact (importFingerprint_isSome.mp hsome).2.2.2.1
  · obtain ⟨b, hb, -⟩ := hmember hr
    exact (contentFingerprint_isSome.mp
      (Option.isSome_iff_exists.mpr ⟨_, (bucketOf_eq_some hb).2.2⟩)).2
  · exact (importFingerprint_isSome.mp (hbag hb)).2.2.2.2.2
  · by_contra hmany
    have hlast := hread.fingerprints b (256 ^ 4) (by rw [hread.occ]; exact not_le.mp hmany)
    exact lt_irrefl _ (importFingerprint_isSome.mp hlast).2.1

end Batch

end WhatsVault.Importers
