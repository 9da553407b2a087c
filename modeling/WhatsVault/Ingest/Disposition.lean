import WhatsVault.Ingest.ExactlyOnce

/-!
# What becomes of a decrypted envelope

Once an envelope is decrypted, `drain_once` knows two ends for it: it is acknowledged when every
atom of its payload was stored or found in the ledger, and handed back to the queue on any
exception.  `storable` says which payloads meet the first end, by the values they carry and by what
the vault already holds; every other payload is handed back at each delivery, whatever the storage
does (`nacked_forever`).
-/

namespace WhatsVault.Ingest

open Transaction

/-! ## The condition -/

/-- The ledger can take the values of an atom. -/
def ledgerable (S : Stdlib) (atom : Atom) (x : Decoded) : Bool :=
  (((atom.raw.orElse (.obj [])).get "id").bind (Json.bindText S)).isSome &&
    x.rows.providerTs.all fitsInt64

/-- The values of the domain row of an atom, where its columns can take them: for a message the
phone number and wamid it takes up, if it has a wamid. -/
def columns (S : Stdlib) : Rows → Option (Option (String × String))
  | .message rows => do
    let phoneNumberId ← (← rows.phoneNumberId.bindText S)
    let _ ← rows.waId.bindText S
    let _ ← rows.name.bindText S
    let _ ← (← rows.type.bindText S)
    let _ ← rows.textOriginal.bindText S
    let wamid ← rows.wamid.bindText S
    if fitsInt64 (rows.tsLowerMs + 1000) then pure (wamid.map fun w => (phoneNumberId, w)) else none
  | .status rows => do
    let _ ← (← rows.wamid.bindText S)
    let _ ← (← rows.status.bindText S)
    let _ ← rows.recipientId.bindText S
    pure none
  | .none => some none

/-- Every atom of a payload can be stored, in turn.  `keys` are the keys in the ledger and `taken`
the pairs of a phone number and a wamid in `messages`. -/
def storableAtoms (P : Platform) (S : Stdlib) :
    List String → List (String × String) → List Atom → Bool
  | _, _, [] => true
  | keys, taken, atom :: atoms =>
    match decode P S atom with
    | none => false
    | some x =>
      ledgerable S atom x &&
        if x.key ∈ keys then storableAtoms P S keys taken atoms
        else
          match columns S x.rows with
          | none => false
          | some none => storableAtoms P S (x.key :: keys) taken atoms
          | some (some pair) =>
            decide (pair ∉ taken) && storableAtoms P S (x.key :: keys) (pair :: taken) atoms

/-- The keys in the ledger. -/
def ledgerKeys (e : Evidence) : List String := e.ingestEvents.map IngestEvent.semanticEventKey

/-- The pairs of a phone number and a wamid in `messages`. -/
def takenPairs (e : Evidence) : List (String × String) :=
  e.messages.filterMap fun m => do
    let phone ← phoneNumber e m
    let wamid ← m.wamid
    pure (phone, wamid)

/-- A plaintext that is JSON, fans out, and whose atoms can be stored in a vault. -/
def storable (P : Platform) (S : Stdlib) (e : Evidence) (plaintext : Bytes) : Bool :=
  match payloadAtoms S plaintext with
  | none => false
  | some atoms => storableAtoms P S (ledgerKeys e) (takenPairs e) atoms

/-- No id of the one is an id of the other. -/
def Apart (ids ids' : AtomIds) : Prop :=
  ids.account ≠ ids'.account ∧ ids.contact ≠ ids'.contact ∧
    ids.conversation ≠ ids'.conversation ∧ ids.message ≠ ids'.message

lemma Apart.symm {ids ids' : AtomIds} (h : Apart ids ids') : Apart ids' ids :=
  ⟨h.1.symm, h.2.1.symm, h.2.2.1.symm, h.2.2.2.symm⟩

/-- Ids that are drawn only once and are not in a vault yet, from position `i` on. -/
structure Fresh (e : Evidence) (ids : ℕ → AtomIds) (i : ℕ) : Prop where
  accounts : ∀ j, i ≤ j → ∀ a ∈ e.accounts, a.id ≠ (ids j).account
  contacts : ∀ j, i ≤ j → ∀ c ∈ e.contacts, c.id ≠ (ids j).contact
  conversations : ∀ j, i ≤ j → ∀ c ∈ e.conversations, c.id ≠ (ids j).conversation
  messages : ∀ j, i ≤ j → ∀ m ∈ e.messages, m.id ≠ (ids j).message
  distinct : ∀ j k, j ≠ k → (ids j).account ≠ (ids k).account ∧ (ids j).contact ≠ (ids k).contact ∧
    (ids j).conversation ≠ (ids k).conversation ∧ (ids j).message ≠ (ids k).message

variable {P : Platform} {S : Stdlib}

/-- Rows under ids that are none of the later ones leave these fresh. -/
lemma Fresh.of_drawn {e e' : Evidence} {ids : AtomIds} {ids' : ℕ → AtomIds} {i : ℕ}
    (h : Fresh e ids' i) (hapart : ∀ j, i ≤ j → Apart ids (ids' j)) (hdrawn : Drawn ids e e') :
    Fresh e' ids' i where
  accounts j hj a ha := by
    rcases hdrawn.accounts a ha with hold | hnew
    · exact h.accounts j hj a hold
    · rw [hnew]
      exact (hapart j hj).1
  contacts j hj c hc := by
    rcases hdrawn.contacts c hc with hold | hnew
    · exact h.contacts j hj c hold
    · rw [hnew]
      exact (hapart j hj).2.1
  conversations j hj c hc := by
    rcases hdrawn.conversations c hc with hold | hnew
    · exact h.conversations j hj c hold
    · rw [hnew]
      exact (hapart j hj).2.2.1
  messages j hj m hm := by
    rcases hdrawn.messages m hm with hold | hnew
    · exact h.messages j hj m hold
    · rw [hnew]
      exact (hapart j hj).2.2.2
  distinct := h.distinct

lemma Fresh.drawn {e e' : Evidence} {ids : ℕ → AtomIds} {i : ℕ} (h : Fresh e ids i)
    (hdrawn : Drawn (ids i) e e') : Fresh e' ids (i + 1) := by
  have hlater : Fresh e ids (i + 1) :=
    { accounts := fun j hj => h.accounts j (by omega)
      contacts := fun j hj => h.contacts j (by omega)
      conversations := fun j hj => h.conversations j (by omega)
      messages := fun j hj => h.messages j (by omega)
      distinct := h.distinct }
  exact hlater.of_drawn (fun j hj => h.distinct i j (by omega)) hdrawn

/-! ## When an atom can be stored -/

/-- The account of every message is there. -/
def Housed (e : Evidence) : Prop := ∀ m ∈ e.messages, ∃ phone, ⟨m.accountId, phone⟩ ∈ e.accounts

lemma phoneNumber_eq_some {e : Evidence} (hkeyed : Keyed e) {m : Message} {phone : String} :
    phoneNumber e m = some phone ↔ ⟨m.accountId, phone⟩ ∈ e.accounts := by
  rw [phoneNumber, Option.map_eq_some_iff]
  constructor
  · rintro ⟨a, hfind, rfl⟩
    obtain ⟨ha, hid⟩ := Table.mem_of_find_eq_some hfind
    rw [← hid]
    exact ha
  · intro ha
    exact ⟨_, hkeyed.accountIds.find_eq_some_iff.mpr ⟨ha, rfl⟩, rfl⟩

lemma mem_takenPairs {e : Evidence} (hkeyed : Keyed e) {phone wamid : String} :
    (phone, wamid) ∈ takenPairs e ↔
      ∃ m ∈ e.messages, ⟨m.accountId, phone⟩ ∈ e.accounts ∧ m.wamid = some wamid := by
  simp only [takenPairs, List.mem_filterMap, Option.bind_eq_bind, Option.pure_def,
    Option.bind_eq_some_iff, Option.some.injEq, Prod.mk.injEq]
  constructor
  · rintro ⟨m, hm, _, hphone, _, hwamid, rfl, rfl⟩
    exact ⟨m, hm, (phoneNumber_eq_some hkeyed).mp hphone, hwamid⟩
  · rintro ⟨m, hm, haccount, hwamid⟩
    exact ⟨m, hm, phone, (phoneNumber_eq_some hkeyed).mpr haccount, wamid, hwamid, rfl, rfl⟩

section Tables

variable {e : Evidence} {id : String}

lemma exists_getAccount (phone : String) (hfresh : ∀ a ∈ e.accounts, a.id ≠ id) :
    ∃ r, getAccount (some phone) id e = some r := by
  rcases hfind : Table.find Account.phoneNumberId phone e.accounts with _ | a
  · have hinsert : Table.insert Account.id ⟨id, phone⟩ e.accounts = some _ :=
      Table.insert_eq_some_iff.mpr ⟨hfresh, rfl⟩
    simp [getAccount, hfind, hinsert]
  · simp [getAccount, hfind]

lemma exists_getContact (waId name : Option String) (hfresh : ∀ c ∈ e.contacts, c.id ≠ id) :
    ∃ r, getContact waId name id e = some r := by
  unfold getContact
  split
  · exact ⟨_, rfl⟩
  · have hinsert : Table.insert Contact.id ⟨id, waId, name, none⟩ e.contacts = some _ :=
      Table.insert_eq_some_iff.mpr ⟨hfresh, rfl⟩
    simp [hinsert]

lemma exists_getConversation (accountId : String) (waChatId : Option String)
    (hfresh : ∀ c ∈ e.conversations, c.id ≠ id) :
    ∃ r, getConversation accountId waChatId id e = some r := by
  unfold getConversation
  split
  · exact ⟨_, rfl⟩
  · have hinsert : Table.insert Conversation.id
        ⟨id, accountId, .dm, waChatId, none, none, .allowMcp⟩ e.conversations = some _ :=
      Table.insert_eq_some_iff.mpr ⟨hfresh, rfl⟩
    simp [hinsert]

end Tables

section Message

variable {ids : ℕ → AtomIds} {i : ℕ} {rows : MessageRows} {e : Evidence}

/-- A message that was stored took up a pair that was free. -/
lemma Appends.free {ids : AtomIds} {e' : Evidence} {row : Message} (h : Appends S ids rows e e' row)
    (hkeyed : Keyed e) {phone wamid : String}
    (hphone : rows.phoneNumberId.bindText S = some (some phone))
    (hwamid : rows.wamid.bindText S = some (some wamid)) : (phone, wamid) ∉ takenPairs e := by
  intro htaken
  obtain ⟨m, hm, haccount, hmwamid⟩ := (mem_takenPairs hkeyed).mp htaken
  have hkeyed' := h.keyed hkeyed
  obtain ⟨phone', hphone', hrow⟩ := h.stored.account
  obtain rfl : phone = phone' := by simpa using hphone.symm.trans hphone'
  have hsame := hkeyed'.accountPhones.eq_of_key_eq (h.accounts haccount) hrow rfl
  have hids := hkeyed'.messageIds
  rw [Table.Unique, h.messages, List.map_append, List.nodup_append] at hids
  have hmem : ∀ m' ∈ e.messages ++ [row], m' ∈ e'.messages := by simp [h.messages]
  have hrowwamid : row.wamid = some wamid := Option.some.inj (h.stored.wamid.symm.trans hwamid)
  have heq : m = row := hkeyed'.wamids m (hmem m (by simp [hm])) row (hmem row (by simp))
    (by simp [hmwamid]) (congrArg Account.id hsame) (hmwamid.trans hrowwamid.symm)
  exact hids.2.2 m.id (List.mem_map_of_mem hm) row.id (by simp) (congrArg Message.id heq)

/-- The INSERT of a message with a fresh id, whose pair is free. -/
lemma exists_insertMessage (row : Message) (hid : ∀ m ∈ e.messages, m.id ≠ row.id)
    (hfingerprint : row.importFingerprint = none)
    (hfree : ∀ m ∈ e.messages, row.wamid ≠ none → m.accountId = row.accountId →
      m.wamid ≠ row.wamid) : ∃ e', insertMessage row e = some e' := by
  refine ⟨_, if_pos fun m hm => ⟨hid m hm, ?_, .inl hfingerprint⟩⟩
  by_cases hwamid : row.wamid = none
  · exact .inl hwamid
  · by_cases haccount : m.accountId = row.accountId
    · exact .inr (.inr (hfree m hm hwamid haccount))
    · exact .inr (.inl haccount)

/-- `_apply_rows` stores a message exactly where its columns can take its values and its pair is
free. -/
theorem applyMessage_isSome_iff (hkeyed : Keyed e) (hhoused : Housed e) (hfresh : Fresh e ids i)
    (htime : fitsInt64 rows.tsLowerMs = true) :
    (∃ r, applyMessage S (ids i) rows e = some r) ↔
      ∃ pair, columns S (.message rows) = some pair ∧ ∀ p, pair = some p → p ∉ takenPairs e := by
  constructor
  · rintro ⟨⟨e', applied⟩, h⟩
    obtain ⟨row, happends, -⟩ := applyMessage_eq_some h
    obtain ⟨_, _, _, _, _, wamid, _, _, _, _, _, _, hphone, hwaId, hname, htype, htext, hwamid,
      haccount, -, -, ⟨-, hupper⟩, -⟩ := applyMessage_steps h
    obtain ⟨phone, -, rfl, -⟩ := getAccount_eq_some haccount
    refine ⟨wamid.map fun w => (phone, w), ?_, ?_⟩
    · simp [columns, hphone, hwaId, hname, htype, htext, hwamid, hupper]
    · rintro p hp
      obtain ⟨w, rfl, rfl⟩ := Option.map_eq_some_iff.mp hp
      exact happends.free hkeyed hphone hwamid
  · rintro ⟨pair, hcolumns, hfree⟩
    simp only [columns, Option.bind_eq_bind, Option.pure_def, Option.bind_eq_some_iff,
      Option.ite_none_right_eq_some, Option.some.injEq] at hcolumns
    obtain ⟨_, hphone, phone, rfl, waId, hwaId, name, hname, _, htype, type, rfl, text, htext, wamid,
      hwamid, hupper, rfl⟩ := hcolumns
    obtain ⟨⟨accountId, e₁⟩, haccount⟩ := exists_getAccount phone (hfresh.accounts i le_rfl)
    obtain ⟨phone', accounts, hphone', rfl, -, hmem, hkeyed₁⟩ := getAccount_eq_some haccount
    obtain rfl := Option.some.inj hphone'
    obtain ⟨⟨contactId, e₂⟩, hcontact⟩ := exists_getContact
      (e := { e with accounts := e.accounts ++ accounts }) waId name (hfresh.contacts i le_rfl)
    obtain ⟨contacts, rfl, -⟩ := getContact_eq_some hcontact
    obtain ⟨⟨conversationId, e₃⟩, hconversation⟩ := exists_getConversation
      (e := { e with accounts := e.accounts ++ accounts, contacts := e.contacts ++ contacts })
      accountId waId (hfresh.conversations i le_rfl)
    obtain ⟨conversations, rfl, -, -, -⟩ := getConversation_eq_some hconversation
    have hfree' : ∀ m ∈ e.messages, wamid ≠ none → m.accountId = accountId → m.wamid ≠ wamid := by
      intro m hm hnull haccountId heq
      obtain ⟨w, rfl⟩ := Option.ne_none_iff_exists'.mp hnull
      obtain ⟨phone', hhouse⟩ := hhoused m hm
      have hsame := (hkeyed₁ hkeyed).accountIds.eq_of_key_eq (List.mem_append_left _ hhouse) hmem
        haccountId
      obtain rfl : phone' = phone := congrArg Account.phoneNumberId hsame
      exact hfree (phone', w) rfl ((mem_takenPairs hkeyed).mpr ⟨m, hm, hhouse, heq⟩)
    obtain ⟨e₄, hinsert⟩ := exists_insertMessage
      (e := { e with
        accounts := e.accounts ++ accounts, contacts := e.contacts ++ contacts,
        conversations := e.conversations ++ conversations })
      (messageRow rows (ids i).message accountId contactId conversationId type text wamid)
      (hfresh.messages i le_rfl) rfl hfree'
    refine ⟨(e₄, ⟨conversationId, (ids i).message, rows.textOriginal, rows.tsLowerMs⟩), ?_⟩
    simp only [applyMessage, hphone, hwaId, hname, htype, htext, hwamid, haccount, hcontact,
      hconversation, Option.bind_eq_bind, Option.bind_some, htime, hupper, and_self, if_true,
      hinsert, Option.pure_def]

end Message

/-! ## One atom, when the storage does not fail -/

def WindowsFit (c : Control) : Prop :=
  ∀ conversationId, fitsInt64 (c.lastInboundMs conversationId) = true

lemma WindowsFit.advance {conversationId : String} {ms : ℤ} {c c' : Control} (h : WindowsFit c)
    (hadvance : c.advanceWindow conversationId ms = some c') : WindowsFit c' := by
  intro other
  rw [Control.lastInboundMs_advanceWindow hadvance]
  by_cases hc : conversationId = other
  · rw [if_pos hc, ← hc]
    simp only [Control.advanceWindow, Option.ite_none_right_eq_some] at hadvance
    exact hadvance.1
  · rw [if_neg hc]
    exact h other

lemma WindowsFit.exists_advance {c : Control} (h : WindowsFit c) {ms : ℤ}
    (hms : fitsInt64 ms = true) (conversationId : String) :
    ∃ c', c.advanceWindow conversationId ms = some c' := by
  refine ⟨_, if_pos ?_⟩
  change fitsInt64 (max (c.lastInboundMs conversationId) ms) = true
  rcases max_choice (c.lastInboundMs conversationId) ms with hleft | hright
  · rw [hleft]
    exact h conversationId
  · rwa [hright]

/-- What a daemon between two atoms is known to satisfy. -/
structure Ready (P : Platform) (S : Stdlib) (e : Evidence) (d : Daemon) : Prop where
  evidence : d.vault.Holds fun v => v.evidence = e
  mirrored : Mirrored P S e
  fits : d.control.Holds WindowsFit

section Atom

variable {N : Search.Normaliser} {now : ℤ} {ids : ℕ → AtomIds} {i : ℕ} {e : Evidence} {d : Daemon}
  {atom : Atom} {x : Decoded}

/-- After its commit an atom comes to its end. -/
lemma afterCommit_done {family : Family} {applied : Option Applied} (hfits : d.control.Holds WindowsFit)
    (happlied : ∀ a, applied = some a → fitsInt64 a.providerMs = true) :
    (afterCommit N {} family applied d).2 = .done () := by
  unfold afterCommit
  split
  · rename_i a
    obtain ⟨c, hc⟩ := hfits.2.exists_advance (happlied a rfl) a.conversationId
    have hrun : attempt none (Control.advanceWindow a.conversationId a.providerMs) d.control =
        (.clean c, .done ()) := by simp [attempt, hc]
    simp only [project, hrun]
    rcases htext : indexText a.text with _ | text <;> simp [indexMessage, htext, runHook]
  · rfl

lemma Mirrored.housed (h : Mirrored P S e) : Housed e := fun _ hm => by
  obtain ⟨phone, hmem, -⟩ := h.account hm
  exact ⟨phone, hmem⟩

lemma ledgerRow_isSome_iff (hnow : fitsInt64 now = true) :
    (∃ event, ledgerRow P S now atom x = some event) ↔ ledgerable S atom x = true := by
  simp only [ledgerRow, ledgerable, Option.bind_eq_bind, Option.pure_def, Bool.and_eq_true,
    Option.isSome_iff_exists, Option.bind_eq_some_iff, Option.ite_none_right_eq_some, hnow, and_true]
  grind

/-- `_apply_rows` goes through exactly where the columns can take the values and the pair of a
message is free. -/
theorem applyRows_isSome_iff {rows : Rows} (hkeyed : Keyed e) (hhoused : Housed e)
    (hfresh : Fresh e ids i) (htime : rows.providerTs.all fitsInt64 = true) :
    (∃ r, applyRows S (ids i) rows e = some r) ↔
      ∃ pair, columns S rows = some pair ∧ ∀ p, pair = some p → p ∉ takenPairs e := by
  cases rows with
  | message rows =>
    rw [← applyMessage_isSome_iff hkeyed hhoused hfresh htime]
    simp [applyRows]
  | status rows =>
    have hts : fitsInt64 rows.providerTsMs = true := htime
    simp only [applyRows, applyStatus, columns, hts, Option.bind_eq_bind, Option.pure_def,
      Option.map_eq_some_iff, Option.bind_eq_some_iff]
    grind
  | none => simp [applyRows, columns]

/-- The condition on one atom. -/
def StorableAtom (S : Stdlib) (e : Evidence) (atom : Atom) (x : Decoded) : Prop :=
  ledgerable S atom x = true ∧ (x.key ∈ ledgerKeys e ∨
    ∃ pair, columns S x.rows = some pair ∧ ∀ p, pair = some p → p ∉ takenPairs e)

lemma recorded_iff {key : String} : Recorded e key ↔ key ∈ ledgerKeys e := by
  rw [ledgerKeys, List.mem_map]
  rfl

/-- The transaction of an atom commits exactly where the atom can be stored. -/
theorem ingestBody_isSome_iff {v : Vault} (hv : v.evidence = e) (hmirrored : Mirrored P S e)
    (hfresh : Fresh e ids i) (hnow : fitsInt64 now = true) :
    (∃ r, ingestBody P S (ids i) now atom x v = some r) ↔ StorableAtom S e atom x := by
  subst hv
  rw [StorableAtom, ← ledgerRow_isSome_iff (P := P) hnow, ← recorded_iff]
  constructor
  · rintro ⟨⟨v', ingested⟩, h⟩
    rcases ingestBody_eq_some h with ⟨hrecorded, -, -⟩ |
      ⟨event, evidence, applied, -, hevent, happly, -, -⟩
    · simp only [ingestBody, Option.bind_eq_bind, Option.bind_eq_some_iff] at h
      obtain ⟨event, hevent, -⟩ := h
      exact ⟨⟨event, hevent⟩, .inl hrecorded⟩
    · have hledgerable := (ledgerRow_isSome_iff hnow).mp ⟨event, hevent⟩
      simp only [ledgerable, Bool.and_eq_true] at hledgerable
      exact ⟨⟨event, hevent⟩, .inr ((applyRows_isSome_iff (e := withLedger v.evidence event)
        { hmirrored.keyed with } hmirrored.housed { hfresh with } hledgerable.2).mp ⟨_, happly⟩)⟩
  · rintro ⟨⟨event, hevent⟩, hstorable⟩
    by_cases hrecorded : Recorded v.evidence x.key
    · exact ⟨_, by simp [ingestBody, hevent, hrecorded]; rfl⟩
    · have hcolumns := hstorable.resolve_left hrecorded
      have hledgerable := (ledgerRow_isSome_iff hnow).mp ⟨event, hevent⟩
      simp only [ledgerable, Bool.and_eq_true] at hledgerable
      obtain ⟨⟨evidence, applied⟩, happly⟩ :=
        (applyRows_isSome_iff (e := withLedger v.evidence event) { hmirrored.keyed with }
          hmirrored.housed { hfresh with } hledgerable.2).mpr hcolumns
      refine ⟨({ v with evidence := evidence }, .stored applied), ?_⟩
      unfold withLedger at happly
      simp [ingestBody, hevent, hrecorded, happly]

/-- Storing an atom takes up the pair its columns carry, and frees none. -/
lemma takenPairs_of_stores {ids : AtomIds} {e' : Evidence} {rows : Rows} {applied : Option Applied}
    {pair : Option (String × String)} (h : Stores S ids e e' rows applied) (hkeyed : Keyed e)
    (hhoused : Housed e) (hcolumns : columns S rows = some pair) (p : String × String) :
    p ∈ takenPairs e' ↔ pair = some p ∨ p ∈ takenPairs e := by
  obtain ⟨phone, wamid⟩ := p
  cases h with
  | @message rows row happends =>
    have hkeyed' := happends.keyed hkeyed
    rw [mem_takenPairs hkeyed', mem_takenPairs hkeyed, happends.messages]
    obtain ⟨phone₀, hphone₀, hrow⟩ := happends.stored.account
    have hpair : pair = row.wamid.map fun w => (phone₀, w) := by
      simp only [columns, hphone₀, happends.stored.wamid, Option.bind_eq_bind, Option.pure_def,
        Option.bind_eq_some_iff, Option.ite_none_right_eq_some, Option.some.injEq,
        exists_eq_left'] at hcolumns
      obtain ⟨_, -, _, -, _, -, _, -, _, -, -, hpair⟩ := hcolumns
      exact hpair.symm
    constructor
    · rintro ⟨m, hm, haccount, hwamid⟩
      rcases List.mem_append.mp hm with hold | hlast
      · obtain ⟨phone₁, hhouse⟩ := hhoused m hold
        have hsame := hkeyed'.accountIds.eq_of_key_eq (happends.accounts hhouse) haccount rfl
        obtain rfl : phone₁ = phone := congrArg Account.phoneNumberId hsame
        exact .inr ⟨m, hold, hhouse, hwamid⟩
      · obtain rfl := List.mem_singleton.mp hlast
        have hsame := hkeyed'.accountIds.eq_of_key_eq hrow haccount rfl
        obtain rfl : phone₀ = phone := congrArg Account.phoneNumberId hsame
        exact .inl (by rw [hpair, hwamid]; rfl)
    · rintro (hnew | ⟨m, hm, haccount, hwamid⟩)
      · rw [hpair] at hnew
        obtain ⟨w, hw, heq⟩ := Option.map_eq_some_iff.mp hnew
        cases heq
        exact ⟨row, by simp, hrow, hw⟩
      · exact ⟨m, List.mem_append_left _ hm, happends.accounts haccount, hwamid⟩
  | status _ hsame =>
    have hnone : pair = none := by
      simp only [columns, Option.bind_eq_bind, Option.pure_def, Option.bind_eq_some_iff,
        Option.some.injEq] at hcolumns
      obtain ⟨_, -, _, -, _, -, _, -, _, -, rfl⟩ := hcolumns
      rfl
    subst hsame hnone
    simp [takenPairs, phoneNumber]
  | none hsame =>
    obtain rfl : none = pair := by simpa [columns] using hcolumns
    subst hsame
    simp

/-- The vault after an atom, as far as the condition on the atoms after it goes. -/
inductive Advanced (S : Stdlib) (x : Decoded) (e e' : Evidence) : Prop
  | known (recorded : x.key ∈ ledgerKeys e) (same : e' = e)
  | stored (fresh : x.key ∉ ledgerKeys e) (pair : Option (String × String))
      (columns : columns S x.rows = some pair) (free : ∀ p, pair = some p → p ∉ takenPairs e)
      (keys : ∀ key, key ∈ ledgerKeys e' ↔ key = x.key ∨ key ∈ ledgerKeys e)
      (taken : ∀ p, p ∈ takenPairs e' ↔ pair = some p ∨ p ∈ takenPairs e)

/-- An atom that cannot be stored ends the loop. -/
lemma processAtom_refused (h : Ready P S e d) (hfresh : Fresh e ids i) (hnow : fitsInt64 now = true)
    (hrefused : ∀ x, decode P S atom = some x → ¬ StorableAtom S e atom x) :
    (processAtom P S N now (ids i) {} atom d).2.1 = .raised := by
  rcases hx : decode P S atom with _ | x
  · simp [processAtom, hx]
  · have hbody : ingestBody P S (ids i) now atom x d.vault.working = none := by
      rw [Option.eq_none_iff_forall_ne_some]
      exact fun r hr => hrefused x hx
        ((ingestBody_isSome_iff h.evidence.2 h.mirrored hfresh hnow).mp ⟨r, hr⟩)
    simp [processAtom, hx, transact_ok_of_none hbody]

/-- An atom that can be stored is. -/
theorem processAtom_stored (h : Ready P S e d) (hfresh : Fresh e ids i) (hnow : fitsInt64 now = true)
    (hx : decode P S atom = some x) (hstorable : StorableAtom S e atom x) :
    (processAtom P S N now (ids i) {} atom d).2.1 = .done () ∧
    ∃ e', Ready P S e' (processAtom P S N now (ids i) {} atom d).1 ∧ Fresh e' ids (i + 1) ∧
      Advanced S x e e' := by
  obtain ⟨⟨v, ingested⟩, hbody⟩ :=
    (ingestBody_isSome_iff h.evidence.2 h.mirrored hfresh hnow).mpr hstorable
  have hrun : processAtom P S N now (ids i) {} atom d =
      match ingested with
      | .duplicate => (⟨.clean v, d.control⟩, .done (), [.deduped x.key])
      | .stored applied =>
        let r := afterCommit N {} x.family applied ⟨.clean v, d.control⟩
        (r.1, r.2, [.stored x.key]) := by
    simp only [processAtom, hx, transact_ok_of_some hbody]
    cases ingested <;> rfl
  have hfits : (processAtom P S N now (ids i) {} atom d).1.control.Holds WindowsFit :=
    control_processAtom (fun _ _ _ _ hc hadvance => hc.advance hadvance) h.fits
  rcases ingestBody_eq_some hbody with ⟨hrecorded, rfl, rfl⟩ |
    ⟨event, evidence, applied, hnew, hevent, happly, rfl, rfl⟩
  · rw [h.evidence.2, recorded_iff] at hrecorded
    rw [hrun] at hfits ⊢
    refine ⟨rfl, e, ⟨Conn.holds_clean h.evidence.2, h.mirrored, hfits⟩, ?_, .known hrecorded rfl⟩
    exact { hfresh with
      accounts := fun j hj => hfresh.accounts j (by omega)
      contacts := fun j hj => hfresh.contacts j (by omega)
      conversations := fun j hj => hfresh.conversations j (by omega)
      messages := fun j hj => hfresh.messages j (by omega) }
  · rw [h.evidence.2] at hnew happly
    have hrecords := ledgerRow_eq_some hx hevent
    have hstores := applyRows_eq_some happly
    obtain ⟨hmirrored, hkeys⟩ := h.mirrored.stores hrecords hnew hstores
    have hcolumns := hstorable.2.resolve_left (fun hmem => hnew (recorded_iff.mpr hmem))
    obtain ⟨pair, hpair, hfree⟩ := hcolumns
    have htime : ∀ a, applied = some a → fitsInt64 a.providerMs = true := by
      rintro a rfl
      generalize x.rows = rows at hstores
      cases hstores with
      | message happends => exact happends.fits
    have hevidence : (afterCommit N {} x.family applied
        ⟨.clean { d.vault.working with evidence := evidence }, d.control⟩).1.vault.Holds
          fun v => v.evidence = evidence :=
      holds_afterCommit (fun _ _ hv => hv) (Conn.holds_clean rfl)
    rw [hrun] at hfits ⊢
    refine ⟨afterCommit_done h.fits htime, evidence, ⟨hevidence, hmirrored, hfits⟩, ?_,
      .stored (fun hmem => hnew (recorded_iff.mpr hmem)) pair hpair hfree (fun key => ?_) fun p => ?_⟩
    · exact hfresh.drawn { hstores.drawn with }
    · rw [← recorded_iff, hkeys key, ← recorded_iff, or_comm, eq_comm]
    · exact takenPairs_of_stores hstores { h.mirrored.keyed with } h.mirrored.housed hpair p

/-- The loop over the atoms of a payload comes to its end exactly where they are storable, and raises
otherwise. -/
theorem processAtoms_storable {faults : ℕ → AtomFaults} (hfaults : ∀ j, faults j = {})
    (hnow : fitsInt64 now = true) {atoms : List Atom} (h : Ready P S e d) (hfresh : Fresh e ids i)
    {keys : List String} {taken : List (String × String)}
    (hkeys : ∀ key, key ∈ keys ↔ key ∈ ledgerKeys e) (htaken : ∀ p, p ∈ taken ↔ p ∈ takenPairs e) :
    (processAtoms P S N now ids faults i atoms d).2.1 =
      if storableAtoms P S keys taken atoms = true then .done () else .raised := by
  induction atoms generalizing i d e keys taken with
  | nil => rfl
  | cons atom atoms ih =>
    by_cases hstorable : ∃ x, decode P S atom = some x ∧ StorableAtom S e atom x
    · obtain ⟨x, hx, hstorable⟩ := hstorable
      obtain ⟨hdone, e', hready, hfresh', hadvanced⟩ :=
        processAtom_stored (N := N) h hfresh hnow hx hstorable
      rcases hrun : processAtom P S N now (ids i) {} atom d with ⟨d₁, o, log₁⟩
      rw [hrun] at hdone hready
      obtain rfl : o = .done () := hdone
      have hloop : (processAtoms P S N now ids faults i (atom :: atoms) d).2.1 =
          (processAtoms P S N now ids faults (i + 1) atoms d₁).2.1 := by
        simp [processAtoms, hfaults, hrun]
      rw [hloop]
      cases hadvanced with
      | known hrecorded hsame =>
        subst hsame
        rw [ih hready hfresh' hkeys htaken]
        simp [storableAtoms, hx, hstorable.1, (hkeys x.key).mpr hrecorded]
      | stored hnew pair hcolumns hfree hkeys' htaken' =>
        have hnew' : x.key ∉ keys := fun hmem => hnew ((hkeys x.key).mp hmem)
        have hkeys₁ : ∀ key, key ∈ x.key :: keys ↔ key ∈ ledgerKeys e' := by
          intro key
          rw [List.mem_cons, hkeys key, hkeys' key]
        rcases pair with _ | pair
        · have htaken₁ : ∀ p, p ∈ taken ↔ p ∈ takenPairs e' := by
            intro p
            rw [htaken p, htaken' p]
            simp
          rw [ih hready hfresh' hkeys₁ htaken₁]
          simp [storableAtoms, hx, hstorable.1, hnew', hcolumns]
        · have htaken₁ : ∀ p, p ∈ pair :: taken ↔ p ∈ takenPairs e' := by
            intro p
            rw [List.mem_cons, htaken p, htaken' p, Option.some.injEq, eq_comm]
          have hpair : pair ∉ taken := fun hmem => hfree pair rfl ((htaken pair).mp hmem)
          rw [ih hready hfresh' hkeys₁ htaken₁]
          simp [storableAtoms, hx, hstorable.1, hnew', hcolumns, hpair]
    · have hrefused : ∀ x, decode P S atom = some x → ¬ StorableAtom S e atom x :=
        fun x hx hs => hstorable ⟨x, hx, hs⟩
      have hraised := processAtom_refused (N := N) h hfresh hnow hrefused
      rcases hrun : processAtom P S N now (ids i) {} atom d with ⟨d₁, o, log₁⟩
      rw [hrun] at hraised
      obtain rfl : o = .raised := hraised
      have hfalse : storableAtoms P S keys taken (atom :: atoms) = false := by
        rcases hx : decode P S atom with _ | x
        · simp [storableAtoms, hx]
        · have hnot := hrefused x hx
          simp only [StorableAtom, ← hkeys x.key, ← htaken, not_and, not_or, not_exists] at hnot
          by_cases hledgerable : ledgerable S atom x = true
          · obtain ⟨hnew, hcolumns⟩ := hnot hledgerable
            rcases hc : columns S x.rows with _ | _ | pair
            · simp [storableAtoms, hx, hnew, hc]
            · exact absurd (hcolumns none) (by simp [hc])
            · have hmem : pair ∈ taken := by simpa [hc] using hcolumns (some pair)
              simp [storableAtoms, hx, hnew, hc, hmem]
          · simp [storableAtoms, hx, hledgerable]
      simp [processAtoms, hfaults, hrun, hfalse]

end Atom

/-! ## One lease of a batch, when the storage does not fail -/

/-- Nothing goes wrong in the storage while a lease is handled. -/
structure Faultless (lease : Lease) : Prop where
  atoms : ∀ i, lease.faults i = {}
  dlq : lease.dlq = none

section Batch

variable {N : Search.Normaliser} {C : Sealed.Primitives} {r : Drain}

lemma handleLease_opened {lease : Lease} (health : List ℕ) {d : Daemon} {e : Evidence}
    {plaintext : Bytes} {header : Sealed.Header} (hfaultless : Faultless lease)
    (hnow : fitsInt64 r.now = true) (h : Ready P S e d) (hfresh : Fresh e lease.ids 0)
    (hopened : Sealed.openSealed P C r.keyLookup lease.body = .opened plaintext header) :
    (handleLease P S N C r lease health d).2.1 =
      .done (if storable P S e plaintext = true then .ack (some plaintext) else .nack) := by
  have hpayload : (processPayload P S N r.now lease.ids lease.faults plaintext d).2.1 =
      if storable P S e plaintext = true then .done () else .raised := by
    unfold processPayload storable
    rcases payloadAtoms S plaintext with _ | atoms
    · rfl
    · exact processAtoms_storable hfaultless.atoms hnow h hfresh (fun _ => Iff.rfl) fun _ => Iff.rfl
  rcases hrun : processPayload P S N r.now lease.ids lease.faults plaintext d with ⟨after, o, log⟩
  rw [hrun] at hpayload
  dsimp only at hpayload
  subst hpayload
  by_cases hstorable : storable P S e plaintext = true
  · rw [if_pos hstorable] at hrun
    simp [handleLease, hopened, hrun, hstorable]
  · rw [if_neg hstorable] at hrun
    simp [handleLease, hopened, hrun, hstorable]

lemma afterCommit_ne_crashed {family : Family} {applied : Option Applied} {d : Daemon} :
    (afterCommit N {} family applied d).2 ≠ .crashed := by
  unfold afterCommit
  split
  · rename_i a
    rcases hwindow : Control.advanceWindow a.conversationId a.providerMs d.control.working with _ | c
    · simp [project, attempt, hwindow]
    · rcases htext : indexText a.text with _ | text <;>
        simp [project, attempt, hwindow, indexMessage, htext, runHook]
  · simp [runHook]

/-- No atom crashes by itself. -/
lemma processAtom_ne_crashed (now : ℤ) (ids : AtomIds) (atom : Atom) (d : Daemon) :
    (processAtom P S N now ids {} atom d).2.1 ≠ .crashed := by
  unfold processAtom
  rcases decode P S atom with _ | x
  · simp
  · dsimp only
    rcases hbody : ingestBody P S ids now atom x d.vault.working with _ | ⟨v, _ | applied⟩
    · simp [transact_ok_of_none hbody]
    · simp [transact_ok_of_some hbody]
    · rw [transact_ok_of_some hbody]
      exact afterCommit_ne_crashed

lemma processAtoms_ne_crashed {now : ℤ} {ids : ℕ → AtomIds} {faults : ℕ → AtomFaults}
    (hfaults : ∀ j, faults j = {}) {i : ℕ} {atoms : List Atom} {d : Daemon} :
    (processAtoms P S N now ids faults i atoms d).2.1 ≠ .crashed := by
  induction atoms generalizing i d with
  | nil => simp [processAtoms]
  | cons atom atoms ih =>
    have hfirst := processAtom_ne_crashed (P := P) (S := S) (N := N) now (ids i) atom d
    rcases hrun : processAtom P S N now (ids i) {} atom d with ⟨d₁, ⟨⟩ | _ | _, log₁⟩
    · simpa [processAtoms, hfaults, hrun] using ih
    · simp [processAtoms, hfaults, hrun]
    · rw [hrun] at hfirst
      exact absurd rfl hfirst

/-- The loop goes on after this lease: opening its envelope raises no exception of another kind, and
does not trip the breaker. -/
def PassesOn (P : Platform) (C : Sealed.Primitives) (r : Drain) (lease : Lease) (health : List ℕ) :
    Prop :=
  Sealed.openSealed P C r.keyLookup lease.body ≠ .raised ∧
  (Sealed.openSealed P C r.keyLookup lease.body = .authFailed →
    (Sealed.parseHeader P lease.body).elim 0 Sealed.Header.recipientKeyId ∈ health)

/-- A lease whose envelope can be opened, or fails to in a foreseen way, is disposed of. -/
lemma handleLease_done {lease : Lease} (health : List ℕ) (d : Daemon)
    (hfaultless : Faultless lease) (hnow : fitsInt64 r.now = true)
    (hraised : Sealed.openSealed P C r.keyLookup lease.body ≠ .raised) :
    ∃ disposition, (handleLease P S N C r lease health d).2.1 = .done disposition ∧
      (PassesOn P C r lease health → disposition ≠ .halt) := by
  unfold handleLease PassesOn
  rcases hopen : Sealed.openSealed P C r.keyLookup lease.body with ⟨plaintext, header⟩ | _ | _ | _ | _
  · have hpayload : (processPayload P S N r.now lease.ids lease.faults plaintext d).2.1 ≠ .crashed := by
      unfold processPayload
      split
      · simp
      · exact processAtoms_ne_crashed hfaultless.atoms
    dsimp only
    rcases hrun : processPayload P S N r.now lease.ids lease.faults plaintext d with
      ⟨after, ⟨⟩ | _ | _, log⟩
    · exact ⟨_, rfl, by simp⟩
    · exact ⟨_, rfl, by simp⟩
    · rw [hrun] at hpayload
      exact absurd rfl hpayload
  · exact ⟨_, rfl, by simp⟩
  · exact ⟨.ack none, by simp [disposeAfter, hfaultless.dlq, attempt, quarantine, hnow], by simp⟩
  · dsimp only
    split
    · exact ⟨.ack none, by simp [disposeAfter, hfaultless.dlq, attempt, quarantine, hnow], by simp⟩
    · rename_i hunhealthy
      exact ⟨.halt, by simp [disposeAfter, hfaultless.dlq, attempt, trip, hnow],
        fun hpasses => absurd (hpasses.2 rfl) hunhealthy⟩
  · exact absurd hopen hraised

/-- The loop goes on after every one of these leases. -/
def PassAll (P : Platform) (C : Sealed.Primitives) (r : Drain) : List Lease → List ℕ → Prop
  | [], _ => True
  | lease :: leases, health =>
    PassesOn P C r lease health ∧ PassAll P C r leases (healthAfter P C r lease health)

/-- The leases that pass on are disposed of one by one before the rest is handled. -/
lemma drainLoop_append (rest : List Lease) {before : List Lease} {health : List ℕ} {d : Daemon}
    (hfaultless : ∀ l ∈ before, Faultless l) (hnow : fitsInt64 r.now = true)
    (hpass : PassAll P C r before health) :
    ∃ keys acks log, (drainLoop P S N C r before health d).2.1 = .done acks ∧
      drainLoop P S N C r (before ++ rest) health d =
        (let x := drainLoop P S N C r rest keys (drainLoop P S N C r before health d).1
        (x.1, x.2.1.map (acks ++ ·), log ++ x.2.2)) := by
  induction before generalizing health d with
  | nil =>
    refine ⟨health, [], [], rfl, ?_⟩
    simp only [List.nil_append, drainLoop]
    rcases drainLoop P S N C r rest health d with ⟨after, _ | _ | _, log⟩ <;> rfl
  | cons lease leases ih =>
    obtain ⟨disposition, hdone, hgoes⟩ := handleLease_done (N := N) (S := S) health d
      (hfaultless lease List.mem_cons_self) hnow hpass.1.1
    have hcontinues := hgoes hpass.1
    rcases hrun : handleLease P S N C r lease health d with ⟨d₁, o, log₁⟩
    rw [hrun] at hdone
    obtain rfl : o = .done disposition := hdone
    obtain ⟨keys, acks, log, hacks, heq⟩ := ih (d := d₁)
      (fun l hl => hfaultless l (List.mem_cons_of_mem _ hl)) hpass.2
    refine ⟨keys, toAck lease disposition ++ acks, log₁ ++ log, ?_, ?_⟩
    · rw [drainLoop_cons_of_done hrun hcontinues]
      simp [hacks, Outcome.map]
    · rw [List.cons_append, drainLoop_cons_of_done hrun hcontinues,
        drainLoop_cons_of_done hrun hcontinues, heq]
      simp [Outcome.map_map, List.append_assoc]

/-- Whatever follows, the loop comes to its end unless opening an envelope raises. -/
lemma drainLoop_done {leases : List Lease} (health : List ℕ) (d : Daemon)
    (hfaultless : ∀ l ∈ leases, Faultless l) (hnow : fitsInt64 r.now = true)
    (hraised : ∀ l ∈ leases, Sealed.openSealed P C r.keyLookup l.body ≠ .raised) :
    ∃ acks, (drainLoop P S N C r leases health d).2.1 = .done acks := by
  induction leases generalizing health d with
  | nil => exact ⟨[], rfl⟩
  | cons lease leases ih =>
    obtain ⟨disposition, hdone, -⟩ := handleLease_done (N := N) (S := S) health d
      (hfaultless lease List.mem_cons_self) hnow (hraised lease List.mem_cons_self)
    rcases hrun : handleLease P S N C r lease health d with ⟨d₁, o, log₁⟩
    rw [hrun] at hdone
    obtain rfl : o = .done disposition := hdone
    by_cases hhalt : disposition = .halt
    · subst hhalt
      exact ⟨[], by simp [drainLoop, hrun]⟩
    · obtain ⟨acks, hacks⟩ := ih (healthAfter P C r lease health) d₁
        (fun l hl => hfaultless l (List.mem_cons_of_mem _ hl))
        fun l hl => hraised l (List.mem_cons_of_mem _ hl)
      rw [drainLoop_cons_of_done hrun hhalt]
      exact ⟨toAck lease disposition ++ acks, by simp [hacks, Outcome.map]⟩

/-- Every acknowledgement of a loop is of one of its leases. -/
lemma mem_of_acks {leases : List Lease} {health : List ℕ} {d : Daemon} {acks : List Ack}
    (hdone : (drainLoop P S N C r leases health d).2.1 = .done acks) {ack : Ack} (hack : ack ∈ acks) :
    ∃ l ∈ leases, l.leaseId = ack.leaseId := by
  obtain ⟨l, hl, -, -, hid, -⟩ := drainLoop_acks hdone hack
  exact ⟨l, hl, hid⟩

lemma mem_toAck {lease : Lease} {disposition : Disposition} {payload : Option Bytes} :
    ⟨lease.leaseId, lease.body, payload⟩ ∈ toAck lease disposition ↔ disposition = .ack payload := by
  cases disposition with
  | ack other => simp [toAck, eq_comm]
  | nack => simp [toAck]
  | halt => simp [toAck]

/-- What the loop acknowledges from a lease on. -/
lemma drainLoop_cons_acks {lease : Lease} {after : List Lease} {keys : List ℕ} {d : Daemon}
    {disposition : Disposition} (hfaultless : ∀ l ∈ after, Faultless l)
    (hnow : fitsInt64 r.now = true)
    (hafter : ∀ l ∈ after, Sealed.openSealed P C r.keyLookup l.body ≠ .raised)
    (hdone : (handleLease P S N C r lease keys d).2.1 = .done disposition) :
    ∃ acks, (drainLoop P S N C r (lease :: after) keys d).2.1 =
        .done (toAck lease disposition ++ acks) ∧
      ∀ ack ∈ acks, ∃ l ∈ after, l.leaseId = ack.leaseId := by
  rcases hrun : handleLease P S N C r lease keys d with ⟨d₁, o, log₁⟩
  rw [hrun] at hdone
  obtain rfl : o = .done disposition := hdone
  by_cases hhalt : disposition = .halt
  · subst hhalt
    exact ⟨[], by simp [drainLoop, hrun, toAck], by simp⟩
  · obtain ⟨acks, hacks⟩ := drainLoop_done (S := S) (N := N) (healthAfter P C r lease keys) d₁
      hfaultless hnow hafter
    refine ⟨acks, ?_, fun ack hack => mem_of_acks hacks hack⟩
    rw [drainLoop_cons_of_done hrun hhalt]
    simp [hacks, Outcome.map]

/-- A lease in its place in a batch is acknowledged exactly where it is disposed of so. -/
lemma acked_iff_disposed {before after : List Lease} {lease : Lease} {d : Daemon}
    (payload : Option Bytes) (hbatch : r.leases = before ++ lease :: after)
    (hids : (r.leases.map Lease.leaseId).Nodup) (hfaultless : ∀ l ∈ r.leases, Faultless l)
    (hnow : fitsInt64 r.now = true) (hpass : PassAll P C r before r.keyHealth)
    (hopens : Sealed.openSealed P C r.keyLookup lease.body ≠ .raised)
    (hafter : ∀ l ∈ after, Sealed.openSealed P C r.keyLookup l.body ≠ .raised)
    (hclosed : d.vault.working.circuit = .closed) :
    ∃ keys disposition,
      (handleLease P S N C r lease keys (drainLoop P S N C r before r.keyHealth d).1).2.1 =
        .done disposition ∧
      (.acked ⟨lease.leaseId, lease.body, payload⟩ ∈ (drainOnce P S N C r d).2 ↔
        disposition = .ack payload) := by
  rw [hbatch] at hids hfaultless
  obtain ⟨keys, acks, log, hacks, happend⟩ := drainLoop_append (S := S) (N := N) (d := d)
    (lease :: after) (fun l hl => hfaultless l (List.mem_append_left _ hl)) hnow hpass
  obtain ⟨disposition, hdone, -⟩ := handleLease_done (S := S) (N := N) keys
    (drainLoop P S N C r before r.keyHealth d).1 (hfaultless lease (by simp)) hnow hopens
  refine ⟨keys, disposition, hdone, ?_⟩
  obtain ⟨later, hlater, hmem⟩ := drainLoop_cons_acks
    (fun l hl => hfaultless l (by simp [hl])) hnow hafter hdone
  have hloop : (drainLoop P S N C r r.leases r.keyHealth d).2.1 =
      .done (acks ++ (toAck lease disposition ++ later)) := by
    rw [hbatch, happend]
    simp [hlater, Outcome.map]
  have hquiet := drainLoop_acked (P := P) (S := S) (N := N) (C := C)
    ⟨lease.leaseId, lease.body, payload⟩ r r.leases r.keyHealth d
  rcases hrun : drainLoop P S N C r r.leases r.keyHealth d with ⟨d₁, o, log₁⟩
  rw [hrun] at hloop hquiet
  dsimp only at hloop hquiet
  subst hloop
  have hevents : (drainOnce P S N C r d).2 =
      log₁ ++ (acks ++ (toAck lease disposition ++ later)).map .acked := by
    simp [drainOnce, hclosed, hrun]
  simp only [List.map_append, List.map_cons, List.nodup_append, List.nodup_cons] at hids
  obtain ⟨-, ⟨hnotAfter, -⟩, hdisjoint⟩ := hids
  have hnotBefore : ⟨lease.leaseId, lease.body, payload⟩ ∉ acks := by
    intro hack
    obtain ⟨l, hl, hid⟩ := mem_of_acks hacks hack
    exact hdisjoint _ (List.mem_map_of_mem hl) _ List.mem_cons_self hid
  have hnotLater : ⟨lease.leaseId, lease.body, payload⟩ ∉ later := by
    intro hack
    obtain ⟨l, hl, hid⟩ := hmem _ hack
    have hmemAfter := List.mem_map_of_mem (f := Lease.leaseId) hl
    rw [hid] at hmemAfter
    exact hnotAfter hmemAfter
  rw [hevents, List.mem_append, List.mem_map_of_injective (fun _ _ h => Event.acked.inj h),
    List.mem_append, List.mem_append, mem_toAck]
  simp [hquiet, hnotBefore, hnotLater]

end Batch

/-! ## Decrypted envelopes -/

variable {N : Search.Normaliser} {C : Sealed.Primitives}

/-- Every state a run reaches is ready, and so is every state inside a batch that starts there. -/
lemma ready_of_run (ops : List Op) (r : Drain) (leases : List Lease) :
    Ready P S
      (drainLoop P S N C r leases r.keyHealth
        (Run.final (step P S N C) start ops)).1.vault.durable.evidence
      (drainLoop P S N C r leases r.keyHealth (Run.final (step P S N C) start ops)).1 := by
  have hkept : Kept P S (Run.events (step P S N C) start ops)
      (Run.final (step P S N C) start ops) := kept_of_run ops
  have hfits : (Run.final (step P S N C) start ops).control.Holds WindowsFit :=
    Run.invariant (I := fun d : Daemon => d.control.Holds WindowsFit)
      (fun d op hd => control_step (fun _ _ _ _ hc hadvance => hc.advance hadvance) hd op)
      (Conn.holds_clean fun _ => rfl) ops
  have hloop := drainLoop_invariant (P := P) (S := S) (N := N) (C := C) r leases
    (J := fun log d => Kept P S log d ∧ d.control.Holds WindowsFit)
    (fun log health lease _ d hd => ⟨hd.1.handleLease r lease health,
      control_handleLease (fun _ _ _ _ hc hadvance => hc.advance hadvance) hd.2⟩)
    _ ⟨hkept, hfits⟩ r.keyHealth
  exact ⟨⟨rfl, hloop.1.settled⟩, hloop.1.mirrored, hloop.2⟩

/-- In every state a run reaches, a lease whose envelope decrypts is acknowledged, and safe in the
committed vault, exactly where its plaintext is storable in the vault it is handled on: the storage
does not fail, fresh ids are drawn, and the other leases of the batch neither trip the breaker
before it nor make `open_sealed` raise an exception the loop does not know. -/
theorem acked_iff_storable (P : Platform) (S : Stdlib) (N : Search.Normaliser)
    (C : Sealed.Primitives) (ops : List Op) (r : Drain) (before after : List Lease) (lease : Lease)
    (plaintext : Bytes) (header : Sealed.Header)
    (hbatch : r.leases = before ++ lease :: after) (hids : (r.leases.map Lease.leaseId).Nodup)
    (hclosed : (Run.final (step P S N C) start ops).vault.working.circuit = .closed)
    (hfaultless : ∀ l ∈ r.leases, Faultless l) (hnow : fitsInt64 r.now = true)
    (hfresh : Fresh (drainLoop P S N C r before r.keyHealth
      (Run.final (step P S N C) start ops)).1.vault.durable.evidence lease.ids 0)
    (hpass : PassAll P C r before r.keyHealth)
    (hafter : ∀ l ∈ after, Sealed.openSealed P C r.keyLookup l.body ≠ .raised)
    (hopened : Sealed.openSealed P C r.keyLookup lease.body = .opened plaintext header) :
    (.acked ⟨lease.leaseId, lease.body, some plaintext⟩ ∈
        (drainOnce P S N C r (Run.final (step P S N C) start ops)).2 ∧
      Secured P S C (drainOnce P S N C r (Run.final (step P S N C) start ops)).1.vault.durable
        ⟨lease.leaseId, lease.body, some plaintext⟩) ↔
    storable P S (drainLoop P S N C r before r.keyHealth
      (Run.final (step P S N C) start ops)).1.vault.durable.evidence plaintext = true := by
  have hkept := (kept_of_run (P := P) (S := S) (N := N) (C := C) ops).step (N := N) (C := C) (.drain r)
  have hready := ready_of_run (P := P) (S := S) (N := N) (C := C) ops r before
  obtain ⟨keys, disposition, hdone, hiff⟩ := acked_iff_disposed (S := S) (N := N)
    (some plaintext) hbatch hids hfaultless hnow hpass (by simp [hopened]) hafter hclosed
  have hends := handleLease_opened (N := N) keys
    (hfaultless lease (by simp [hbatch])) hnow hready hfresh hopened
  rw [hdone, Outcome.done.injEq] at hends
  constructor
  · rintro ⟨hacked, -⟩
    rw [hiff.mp hacked] at hends
    by_contra hstorable
    rw [if_neg hstorable] at hends
    cases hends
  · intro hstorable
    rw [if_pos hstorable] at hends
    have hacked := hiff.mpr hends
    have hrests := acked_step (.drain r) hacked
    refine ⟨hacked, hrests.mono (fun key hkey => ?_) fun hq => ?_⟩
    · exact (hkept.processed key).mpr (hkey.mono (List.subset_append_right _ _))
    · exact hkept.quarantined lease.body (List.mem_append_right _ hq)

/-! ## Two deliveries -/

lemma fresh_sampleIds : Fresh Vault.empty.evidence sampleIds 0 where
  accounts := by simp [Vault.empty]
  contacts := by simp [Vault.empty]
  conversations := by simp [Vault.empty]
  messages := by simp [Vault.empty]
  distinct j k hjk := by
    have hsuffix : String.ofList (List.replicate (j + 1) '1') ≠
        String.ofList (List.replicate (k + 1) '1') := by
      intro h
      have hlength := congrArg List.length (String.ofList_injective h)
      simp only [List.length_replicate] at hlength
      omega
    refine ⟨?_, ?_, ?_, ?_⟩ <;>
      exact fun h => hsuffix (String.append_right_inj _ |>.mp h)

/-- The sample payload is storable in an empty vault, so its envelope is acknowledged. -/
theorem acked_iff_storable_sample :
    .acked ⟨"lse_1", sampleEnvelope samplePlaintext, some samplePlaintext⟩ ∈
      (drainOnce samplePlatform sampleStdlib sampleNormaliser samplePrimitives
        (sampleCall samplePlaintext {}) start).2 := by
  obtain ⟨header, hopened⟩ := Sealed.OpenResult.plaintext_eq_some.mp openSealed_sample
  have hrule := acked_iff_storable samplePlatform sampleStdlib sampleNormaliser samplePrimitives []
    (sampleCall samplePlaintext {}) [] [] (sampleLease samplePlaintext {}) samplePlaintext header
    rfl (by simp [sampleCall]) rfl
    (fun l hl => by
      obtain rfl := List.mem_singleton.mp hl
      exact ⟨fun _ => rfl, rfl⟩)
    (by decide) fresh_sampleIds trivial (by simp) hopened
  exact (hrule.mpr (by decide +kernel)).1

/-- A text that is not JSON. -/
def poison : Bytes := utf8 "hello"

/-- It decrypts, and every delivery hands it back and leaves no trace in either database. -/
theorem nacked_forever :
    (Sealed.openSealed samplePlatform samplePrimitives sampleKeys (sampleEnvelope poison)).plaintext =
      some poison ∧
    ∀ n, Run.events (step samplePlatform sampleStdlib sampleNormaliser samplePrimitives) start
        (List.replicate n (sampleDrain poison {})) = List.replicate n (.nacked "lse_1") ∧
      Run.final (step samplePlatform sampleStdlib sampleNormaliser samplePrimitives) start
        (List.replicate n (sampleDrain poison {})) = start := by
  refine ⟨by decide, fun n => ?_⟩
  have hstep : step samplePlatform sampleStdlib sampleNormaliser samplePrimitives start
      (sampleDrain poison {}) = (start, [.nacked "lse_1"]) := by decide
  induction n with
  | zero => exact ⟨rfl, rfl⟩
  | succ n ih =>
    rw [List.replicate_succ, Run.events_cons, Run.final_cons, hstep, ih.1, ih.2]
    exact ⟨rfl, rfl⟩

end WhatsVault.Ingest
