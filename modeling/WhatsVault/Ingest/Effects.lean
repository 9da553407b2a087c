import WhatsVault.Ingest.Consumer

/-!
# What the consumer can do to the vault

One inversion lemma for each function of the consumer, from the inserts of `_apply_rows` up to the
turn of the loop.  `Appends` says everything a stored message changes, `Stores` everything a stored
atom changes, and `AtomStep` lists the ways one atom can go.  The runs of the consumer are reasoned
about through these alone.
-/

namespace WhatsVault.Ingest

open Transaction

/-! ## The rows of a message -/

/-- The UNIQUE constraints of the evidence tables. -/
structure Keyed (e : Evidence) : Prop where
  accountIds : Table.Unique Account.id e.accounts
  accountPhones : Table.Unique Account.phoneNumberId e.accounts
  conversationIds : Table.Unique Conversation.id e.conversations
  messageIds : Table.Unique Message.id e.messages
  wamids : ∀ m ∈ e.messages, ∀ m' ∈ e.messages, m.wamid ≠ none → m.accountId = m'.accountId →
    m.wamid = m'.wamid → m = m'

lemma Keyed.empty : Keyed Vault.empty.evidence where
  accountIds := Table.unique_nil _
  accountPhones := Table.unique_nil _
  conversationIds := Table.unique_nil _
  messageIds := Table.unique_nil _
  wamids := by simp [Vault.empty]

/-- `m` is the row of the message `rows` describes: it belongs to the account with that phone
number and to a conversation with that chat, and has that wamid and time. -/
structure StoredAs (S : Stdlib) (e : Evidence) (rows : MessageRows) (m : Message) : Prop where
  account : ∃ phone, rows.phoneNumberId.bindText S = some (some phone) ∧
    ⟨m.accountId, phone⟩ ∈ e.accounts
  conversation : ∃ c ∈ e.conversations, c.id = m.conversationId ∧ c.accountId = m.accountId ∧
    rows.waId.bindText S = some c.waChatId
  wamid : rows.wamid.bindText S = some m.wamid
  text : rows.textOriginal.bindText S = some m.textOriginal
  time : m.tsLowerMs = rows.tsLowerMs
  direction : m.direction = rows.direction
  eligible : m.windowEligible = rows.windowEligible

lemma StoredAs.mono {S : Stdlib} {e e' : Evidence} {rows : MessageRows} {m : Message}
    (h : StoredAs S e rows m) (haccounts : e.accounts ⊆ e'.accounts)
    (hconversations : e.conversations ⊆ e'.conversations) : StoredAs S e' rows m := by
  obtain ⟨phone, hphone, hmem⟩ := h.account
  obtain ⟨c, hc, hchat⟩ := h.conversation
  exact { h with
    account := ⟨phone, hphone, haccounts hmem⟩
    conversation := ⟨c, hconversations hc, hchat⟩ }

section Lookups

variable {e e' : Evidence} {id found : String}

lemma getAccount_eq_some {phoneNumberId : Option String}
    (h : getAccount phoneNumberId id e = some (found, e')) :
    ∃ phone added, phoneNumberId = some phone ∧
      e' = { e with accounts := e.accounts ++ added } ∧ (∀ a ∈ added, a.id = id) ∧
      ⟨found, phone⟩ ∈ e'.accounts ∧ (Keyed e → Keyed e') := by
  rcases phoneNumberId with _ | phone
  · cases h
  rcases hfind : Table.find Account.phoneNumberId phone e.accounts with _ | a
  · simp only [getAccount, hfind, Option.bind_eq_bind, Option.bind_some, Option.pure_def,
      Option.bind_eq_some_iff, Option.some.injEq, Prod.mk.injEq] at h
    obtain ⟨accounts, hinsert, rfl, rfl⟩ := h
    obtain ⟨hid, rfl⟩ := Table.insert_eq_some_iff.mp hinsert
    have hphone := Table.find_eq_none_iff.mp hfind
    refine ⟨phone, [⟨id, phone⟩], rfl, rfl, by simp, by simp, fun hkeyed => ?_⟩
    exact { hkeyed with
      accountIds := hkeyed.accountIds.append hid
      accountPhones := hkeyed.accountPhones.append hphone }
  · simp only [getAccount, hfind, Option.bind_eq_bind, Option.bind_some, Option.pure_def,
      Option.some.injEq, Prod.mk.injEq] at h
    obtain ⟨rfl, rfl⟩ := h
    obtain ⟨hmem, rfl⟩ := Table.mem_of_find_eq_some hfind
    exact ⟨a.phoneNumberId, [], rfl, by simp, by simp, hmem, fun hkeyed => hkeyed⟩

lemma getContact_eq_some {waId name : Option String}
    (h : getContact waId name id e = some (found, e')) :
    ∃ added, e' = { e with contacts := e.contacts ++ added } ∧ ∀ c ∈ added, c.id = id := by
  unfold getContact at h
  split at h
  · cases h
    exact ⟨[], by simp, by simp⟩
  · simp only [Option.bind_eq_bind, Option.pure_def, Option.bind_eq_some_iff, Option.some.injEq,
      Prod.mk.injEq] at h
    obtain ⟨contacts, hinsert, -, rfl⟩ := h
    obtain ⟨-, rfl⟩ := Table.insert_eq_some_iff.mp hinsert
    exact ⟨_, rfl, by simp⟩

lemma getConversation_eq_some {accountId : String} {waChatId : Option String}
    (h : getConversation accountId waChatId id e = some (found, e')) :
    ∃ added, e' = { e with conversations := e.conversations ++ added } ∧
      (∀ c ∈ added, c.id = id) ∧
      (∃ c ∈ e'.conversations, c.id = found ∧ c.accountId = accountId ∧ c.waChatId = waChatId) ∧
      (Keyed e → Keyed e') := by
  unfold getConversation at h
  split at h
  · rename_i c hfind
    cases h
    have hc := List.find?_some hfind
    simp only [decide_eq_true_eq] at hc
    obtain ⟨haccount, -, hchat⟩ := hc
    refine ⟨[], by simp, by simp, ⟨c, List.mem_of_find?_eq_some hfind, rfl, haccount, hchat⟩,
      fun hkeyed => hkeyed⟩
  · simp only [Option.bind_eq_bind, Option.pure_def, Option.bind_eq_some_iff, Option.some.injEq,
      Prod.mk.injEq] at h
    obtain ⟨conversations, hinsert, rfl, rfl⟩ := h
    obtain ⟨hid, rfl⟩ := Table.insert_eq_some_iff.mp hinsert
    refine ⟨_, rfl, by simp,
      ⟨_, List.mem_append_right _ (List.mem_singleton_self _), rfl, rfl, rfl⟩, ?_⟩
    intro hkeyed
    exact { hkeyed with conversationIds := hkeyed.conversationIds.append hid }

lemma insertMessage_eq_some {row : Message} (h : insertMessage row e = some e') :
    e' = { e with messages := e.messages ++ [row] } ∧ (Keyed e → Keyed e') := by
  unfold insertMessage at h
  rw [Option.ite_none_right_eq_some] at h
  obtain ⟨hfree, h⟩ := h
  obtain rfl := Option.some.inj h
  refine ⟨rfl, fun hkeyed => { hkeyed with
    messageIds := hkeyed.messageIds.append fun m hm => (hfree m hm).1
    wamids := ?_ }⟩
  have hnew : ∀ m ∈ e.messages, row.wamid ≠ none → m.accountId = row.accountId →
      m.wamid ≠ row.wamid := by
    intro m hm hwamid haccount
    rcases (hfree m hm).2.1 with hnull | hother | hother
    · exact absurd hnull hwamid
    · exact absurd haccount hother
    · exact hother
  intro m hm m' hm' hwamid haccount heq
  rcases List.mem_append.mp hm with hold | hlast <;>
    rcases List.mem_append.mp hm' with hold' | hlast'
  · exact hkeyed.wamids m hold m' hold' hwamid haccount heq
  · obtain rfl := List.mem_singleton.mp hlast'
    exact absurd heq (hnew m hold (heq ▸ hwamid) haccount)
  · obtain rfl := List.mem_singleton.mp hlast
    exact absurd heq.symm (hnew m' hold' hwamid haccount.symm)
  · rw [List.mem_singleton.mp hlast, List.mem_singleton.mp hlast']

end Lookups

/-- The rows of `e'` that are not in `e` have the ids drawn for the atom. -/
structure Drawn (ids : AtomIds) (e e' : Evidence) : Prop where
  accounts : ∀ a ∈ e'.accounts, a ∈ e.accounts ∨ a.id = ids.account
  contacts : ∀ c ∈ e'.contacts, c ∈ e.contacts ∨ c.id = ids.contact
  conversations : ∀ c ∈ e'.conversations, c ∈ e.conversations ∨ c.id = ids.conversation
  messages : ∀ m ∈ e'.messages, m ∈ e.messages ∨ m.id = ids.message

/-- What storing a message changes: one row is appended to `messages`, and what the row refers to is
there. -/
structure Appends (S : Stdlib) (ids : AtomIds) (rows : MessageRows) (e e' : Evidence)
    (row : Message) : Prop where
  messages : e'.messages = e.messages ++ [row]
  ingestEvents : e'.ingestEvents = e.ingestEvents
  statusEvents : e'.statusEvents = e.statusEvents
  accounts : e.accounts ⊆ e'.accounts
  conversations : e.conversations ⊆ e'.conversations
  stored : StoredAs S e' rows row
  fits : fitsInt64 row.tsLowerMs = true
  drawn : Drawn ids e e'
  keyed : Keyed e → Keyed e'

/-- What a message that is stored goes through: its columns, the three rows it refers to, and its own
INSERT. -/
lemma applyMessage_steps {S : Stdlib} {ids : AtomIds} {rows : MessageRows} {e e' : Evidence}
    {applied : Applied} (h : applyMessage S ids rows e = some (e', applied)) :
    ∃ phone waId name type text wamid accountId e₁ contactId e₂ conversationId e₃,
      rows.phoneNumberId.bindText S = some phone ∧ rows.waId.bindText S = some waId ∧
      rows.name.bindText S = some name ∧ rows.type.bindText S = some (some type) ∧
      rows.textOriginal.bindText S = some text ∧ rows.wamid.bindText S = some wamid ∧
      getAccount phone ids.account e = some (accountId, e₁) ∧
      getContact waId name ids.contact e₁ = some (contactId, e₂) ∧
      getConversation accountId waId ids.conversation e₂ = some (conversationId, e₃) ∧
      (fitsInt64 rows.tsLowerMs = true ∧ fitsInt64 (rows.tsLowerMs + 1000) = true) ∧
      insertMessage (messageRow rows ids.message accountId contactId conversationId type text wamid)
        e₃ = some e' ∧
      applied = ⟨conversationId, ids.message, rows.textOriginal, rows.tsLowerMs⟩ := by
  unfold applyMessage at h
  obtain ⟨phone, hphone, h⟩ := Option.bind_eq_some_iff.mp h
  obtain ⟨waId, hwaId, h⟩ := Option.bind_eq_some_iff.mp h
  obtain ⟨name, hname, h⟩ := Option.bind_eq_some_iff.mp h
  obtain ⟨type', htype, h⟩ := Option.bind_eq_some_iff.mp h
  obtain ⟨type, hsome, h⟩ := Option.bind_eq_some_iff.mp h
  obtain ⟨text, htext, h⟩ := Option.bind_eq_some_iff.mp h
  obtain ⟨wamid, hwamid, h⟩ := Option.bind_eq_some_iff.mp h
  obtain ⟨⟨accountId, e₁⟩, haccount, h⟩ := Option.bind_eq_some_iff.mp h
  obtain ⟨⟨contactId, e₂⟩, hcontact, h⟩ := Option.bind_eq_some_iff.mp h
  obtain ⟨⟨conversationId, e₃⟩, hconversation, h⟩ := Option.bind_eq_some_iff.mp h
  obtain ⟨hfits, h⟩ := Option.ite_none_right_eq_some.mp h
  obtain ⟨e₄, hinsert, h⟩ := Option.bind_eq_some_iff.mp h
  obtain ⟨rfl, rfl⟩ := Prod.mk.inj (Option.some.inj h)
  rw [hsome] at htype
  exact ⟨phone, waId, name, type, text, wamid, accountId, e₁, contactId, e₂, conversationId, e₃, hphone,
    hwaId, hname, htype, htext, hwamid, haccount, hcontact, hconversation, hfits, hinsert, rfl⟩
theorem applyMessage_eq_some {S : Stdlib} {ids : AtomIds} {rows : MessageRows} {e e' : Evidence}
    {applied : Applied} (h : applyMessage S ids rows e = some (e', applied)) :
    ∃ row, Appends S ids rows e e' row ∧
      applied = ⟨row.conversationId, row.id, rows.textOriginal, row.tsLowerMs⟩ := by
  obtain ⟨_, waId, _, type, text, wamid, accountId, e₁, contactId, e₂, conversationId, e₃, hphone,
    hwaId, -, -, htext, hwamid, haccount, hcontact, hconversation, ⟨hfits, -⟩, hinsert, rfl⟩ :=
    applyMessage_steps h
  obtain ⟨phone, accounts, rfl, rfl, haccountIds, hmemAccount, hkeyed₁⟩ :=
    getAccount_eq_some haccount
  obtain ⟨contacts, rfl, hcontactIds⟩ := getContact_eq_some hcontact
  obtain ⟨conversations, rfl, hconversationIds, ⟨c, hc, hcid, hcaccount, hcchat⟩, hkeyed₃⟩ :=
    getConversation_eq_some hconversation
  obtain ⟨rfl, hkeyed₄⟩ := insertMessage_eq_some hinsert
  refine ⟨_, ⟨rfl, rfl, rfl, List.subset_append_left _ _, List.subset_append_left _ _, ?_, hfits, ?_,
    ?_⟩, rfl⟩
  · exact
      { account := ⟨phone, hphone, hmemAccount⟩
        conversation := ⟨c, hc, hcid, hcaccount, by rw [hwaId, hcchat]⟩
        wamid := hwamid
        text := htext
        time := rfl
        direction := rfl
        eligible := rfl }
  · exact
      { accounts := fun a ha => (List.mem_append.mp ha).imp id (haccountIds a)
        contacts := fun c hc => (List.mem_append.mp hc).imp id (hcontactIds c)
        conversations := fun c hc => (List.mem_append.mp hc).imp id (hconversationIds c)
        messages := fun m hm => (List.mem_append.mp hm).imp id fun hlast => by
          rw [List.mem_singleton.mp hlast]
          rfl }
  · intro hkeyed
    have hkeyed₂ := hkeyed₁ hkeyed
    exact hkeyed₄ (hkeyed₃ { hkeyed₂ with })

/-- The id of a stored message was free. -/
lemma applyMessage_fresh {S : Stdlib} {ids : AtomIds} {rows : MessageRows} {e e' : Evidence}
    {applied : Applied} (h : applyMessage S ids rows e = some (e', applied)) :
    ∀ m ∈ e.messages, m.id ≠ applied.messageId := by
  obtain ⟨_, _, _, type, _, _, accountId, e₁, contactId, e₂, conversationId, e₃, -, -, -, -, -, -,
    haccount, hcontact, hconversation, -, hinsert, rfl⟩ := applyMessage_steps h
  obtain ⟨-, accounts, -, rfl, -⟩ := getAccount_eq_some haccount
  obtain ⟨contacts, rfl, -⟩ := getContact_eq_some hcontact
  obtain ⟨conversations, rfl, -⟩ := getConversation_eq_some hconversation
  unfold insertMessage at hinsert
  rw [Option.ite_none_right_eq_some] at hinsert
  exact fun m hm => (hinsert.1 m hm).1

/-! ## The rows of an atom -/

/-- The families of a message, in either direction. -/
def isMessage : Family → Bool
  | .messageInbound | .messageEcho => true
  | _ => false

def isStatus : Family → Bool
  | .messageStatus => true
  | _ => false

/-- The rows that go with a family. -/
def Shaped (family : Family) : Rows → Prop
  | .message _ => isMessage family = true ∧ isStatus family = false
  | .status _ => isMessage family = false ∧ isStatus family = true
  | .none => isMessage family = false ∧ isStatus family = false

lemma semanticKey_family {P : Platform} {S : Stdlib} {atom : Atom} {family : Family} {key : String}
    (h : semanticKey P S atom = some (family, key)) : family = classify atom := by
  unfold semanticKey at h
  dsimp only at h
  split at h <;>
    · simp only [Option.bind_eq_bind, Option.pure_def, Option.bind_eq_some_iff, Option.some.injEq,
        Prod.mk.injEq] at h
      grind

lemma shaped_toRows {S : Stdlib} {atom : Atom} {rows : Rows} (h : toRows S atom = some rows) :
    Shaped (classify atom) rows := by
  unfold toRows at h
  unfold classify
  rcases hkind : atom.kind <;> rw [hkind] at h
  · obtain ⟨rows, -, rfl⟩ := Option.map_eq_some_iff.mp h
    cases atom.echo <;> exact ⟨rfl, rfl⟩
  · obtain ⟨rows, -, rfl⟩ := Option.map_eq_some_iff.mp h
    exact ⟨rfl, rfl⟩
  all_goals
    obtain rfl := Option.some.inj h
    exact ⟨rfl, rfl⟩

lemma decode_eq_some {P : Platform} {S : Stdlib} {atom : Atom} {x : Decoded}
    (h : decode P S atom = some x) :
    semanticKey P S atom = some (x.family, x.key) ∧ toRows S atom = some x.rows ∧
      atom.raw.dumps S = some x.raw := by
  simp only [decode, Option.bind_eq_bind, Option.pure_def, Option.bind_eq_some_iff,
    Option.some.injEq, Prod.exists] at h
  obtain ⟨family, key, hkey, rows, hrows, raw, hraw, rfl⟩ := h
  exact ⟨hkey, hrows, hraw⟩

lemma shaped_of_decode {P : Platform} {S : Stdlib} {atom : Atom} {x : Decoded}
    (h : decode P S atom = some x) : Shaped x.family x.rows := by
  obtain ⟨hkey, hrows, -⟩ := decode_eq_some h
  rw [semanticKey_family hkey]
  exact shaped_toRows hrows

/-- `event` is the ledger row of `atom`. -/
structure Records (P : Platform) (S : Stdlib) (atom : Atom) (x : Decoded) (event : IngestEvent) :
    Prop where
  decoded : decode P S atom = some x
  key : event.semanticEventKey = x.key
  family : event.family = x.family
  providerTs : event.providerTsMs = x.rows.providerTs
  raw : event.rawPayload = x.raw

lemma ledgerRow_eq_some {P : Platform} {S : Stdlib} {now : ℤ} {atom : Atom} {x : Decoded}
    {event : IngestEvent} (hx : decode P S atom = some x)
    (h : ledgerRow P S now atom x = some event) : Records P S atom x event := by
  simp only [ledgerRow, Option.bind_eq_bind, Option.pure_def, Option.bind_eq_some_iff,
    Option.ite_none_right_eq_some, Option.some.injEq] at h
  obtain ⟨externalEventId, -, -, rfl⟩ := h
  exact ⟨hx, rfl, rfl, rfl, rfl⟩

/-- `event` is the status row `rows` describes. -/
structure StatusAs (S : Stdlib) (rows : StatusRows) (event : StatusEvent) : Prop where
  wamid : rows.wamid.bindText S = some (some event.wamid)
  status : rows.status.bindText S = some (some event.status)
  time : event.providerTsMs = rows.providerTsMs
  recipient : rows.recipientId.bindText S = some event.recipientId

lemma applyStatus_eq_some {S : Stdlib} {rows : StatusRows} {e e' : Evidence}
    (h : applyStatus S rows e = some e') :
    ∃ event, StatusAs S rows event ∧
      e' = { e with statusEvents := e.statusEvents ++ [event] } := by
  simp only [applyStatus, Option.bind_eq_bind, Option.pure_def, Option.bind_eq_some_iff,
    Option.ite_none_right_eq_some, Option.some.injEq] at h
  obtain ⟨_, hwamid, wamid, rfl, _, hstatus, status, rfl, recipientId, hrecipient, -, rfl⟩ := h
  exact ⟨_, ⟨hwamid, hstatus, rfl, hrecipient⟩, rfl⟩

/-- What storing the rows of an atom changes, on top of its ledger row. -/
inductive Stores (S : Stdlib) (ids : AtomIds) (e e' : Evidence) : Rows → Option Applied → Prop
  | message {rows : MessageRows} {row : Message} (appends : Appends S ids rows e e' row) :
      Stores S ids e e' (.message rows)
        (some ⟨row.conversationId, row.id, rows.textOriginal, row.tsLowerMs⟩)
  | status {rows : StatusRows} {event : StatusEvent} (stored : StatusAs S rows event)
      (same : e' = { e with statusEvents := e.statusEvents ++ [event] }) :
      Stores S ids e e' (.status rows) none
  | none (same : e' = e) : Stores S ids e e' .none none

theorem applyRows_eq_some {S : Stdlib} {ids : AtomIds} {rows : Rows} {e e' : Evidence}
    {applied : Option Applied} (h : applyRows S ids rows e = some (e', applied)) :
    Stores S ids e e' rows applied := by
  cases rows with
  | message rows =>
    obtain ⟨⟨e₁, applied⟩, happly, hpair⟩ := Option.map_eq_some_iff.mp h
    cases hpair
    obtain ⟨row, happends, rfl⟩ := applyMessage_eq_some happly
    exact .message happends
  | status rows =>
    obtain ⟨e₁, happly, hpair⟩ := Option.map_eq_some_iff.mp h
    cases hpair
    obtain ⟨event, hstored, hsame⟩ := applyStatus_eq_some happly
    exact .status hstored hsame
  | none =>
    cases h
    exact .none rfl

/-- So was that of the message an atom stores. -/
lemma applyRows_fresh {S : Stdlib} {ids : AtomIds} {rows : Rows} {e e' : Evidence}
    {applied : Applied} (h : applyRows S ids rows e = some (e', some applied)) :
    ∀ m ∈ e.messages, m.id ≠ applied.messageId := by
  cases rows with
  | message rows =>
    obtain ⟨⟨e₁, applied'⟩, happly, hpair⟩ := Option.map_eq_some_iff.mp h
    obtain ⟨-, happlied⟩ := Prod.mk.inj hpair
    rw [← Option.some.inj happlied]
    exact applyMessage_fresh happly
  | status rows =>
    obtain ⟨e₁, -, hpair⟩ := Option.map_eq_some_iff.mp h
    cases hpair
  | none => cases h

lemma Stores.messages_of_none {S : Stdlib} {ids : AtomIds} {e e' : Evidence} {rows : Rows}
    (h : Stores S ids e e' rows Option.none) : e'.messages = e.messages := by
  cases h with
  | status _ hsame => rw [hsame]
  | none hsame => rw [hsame]

lemma Stores.messages_of_some {S : Stdlib} {ids : AtomIds} {e e' : Evidence} {rows : Rows}
    {applied : Applied} (h : Stores S ids e e' rows (some applied)) :
    ∃ row, e'.messages = e.messages ++ [row] ∧ row.id = applied.messageId := by
  cases h with
  | message happends => exact ⟨_, happends.messages, rfl⟩

lemma Stores.messages_append {S : Stdlib} {ids : AtomIds} {e e' : Evidence} {rows : Rows}
    {applied : Option Applied} (h : Stores S ids e e' rows applied) :
    ∃ added, e'.messages = e.messages ++ added := by
  cases applied with
  | none => exact ⟨[], by rw [h.messages_of_none, List.append_nil]⟩
  | some applied =>
    obtain ⟨row, hrow, -⟩ := h.messages_of_some
    exact ⟨[row], hrow⟩

lemma Stores.keyed {S : Stdlib} {ids : AtomIds} {e e' : Evidence} {rows : Rows}
    {applied : Option Applied} (h : Stores S ids e e' rows applied) (hkeyed : Keyed e) :
    Keyed e' := by
  cases h with
  | message happends => exact happends.keyed hkeyed
  | status _ heq =>
    subst heq
    exact { hkeyed with }
  | none heq =>
    subst heq
    exact hkeyed

lemma Stores.drawn {S : Stdlib} {ids : AtomIds} {e e' : Evidence} {rows : Rows}
    {applied : Option Applied} (h : Stores S ids e e' rows applied) : Drawn ids e e' := by
  have hsame : Drawn ids e e := ⟨fun _ ha => .inl ha, fun _ hc => .inl hc, fun _ hc => .inl hc,
    fun _ hm => .inl hm⟩
  cases h with
  | message happends => exact happends.drawn
  | status _ heq =>
    subst heq
    exact { hsame with }
  | none heq =>
    subst heq
    exact hsame

/-- An evidence with one more ledger row. -/
def withLedger (e : Evidence) (event : IngestEvent) : Evidence :=
  { e with ingestEvents := e.ingestEvents ++ [event] }

/-- What the transaction of an atom can do: find its key in the ledger and change nothing, or store
its ledger row and its rows. -/
theorem ingestBody_eq_some {P : Platform} {S : Stdlib} {ids : AtomIds} {now : ℤ} {atom : Atom}
    {x : Decoded} {v v' : Vault} {ingested : Ingested}
    (h : ingestBody P S ids now atom x v = some (v', ingested)) :
    (Recorded v.evidence x.key ∧ v' = v ∧ ingested = .duplicate) ∨
    ∃ event evidence applied, ¬ Recorded v.evidence x.key ∧
      ledgerRow P S now atom x = some event ∧
      applyRows S ids x.rows (withLedger v.evidence event) = some (evidence, applied) ∧
      v' = { v with evidence := evidence } ∧ ingested = .stored applied := by
  simp only [ingestBody, Option.bind_eq_bind, Option.pure_def, Option.bind_eq_some_iff] at h
  obtain ⟨event, hevent, h⟩ := h
  split at h
  · rename_i hrecorded
    cases h
    exact .inl ⟨hrecorded, rfl, rfl⟩
  · rename_i hnew
    simp only [Option.bind_eq_some_iff, Option.some.injEq, Prod.mk.injEq, Prod.exists] at h
    obtain ⟨evidence, applied, happly, rfl, rfl⟩ := h
    exact .inr ⟨event, evidence, applied, hnew, hevent, happly, rfl, rfl⟩

/-! ## After the commit -/

section AfterCommit

variable {N : Search.Normaliser} {I : Vault → Prop} (hI : ∀ v s, I v → I { v with search := s })

include hI in
lemma holds_indexMessage (fault : Option IndexFault) (messageId : String) (text : Json)
    {c : Conn Vault} (h : c.Holds I) : (indexMessage N fault messageId text c).1.Holds I := by
  unfold indexMessage
  split
  · exact h.rollback
  · exact h
  · exact h.exec fun hw => hI _ _ hw
  · exact h.exec fun hw => hI _ _ hw
  · exact Conn.holds_clean (hI _ _ h.2)

lemma holds_runHook {hook : Verdict} {d : Daemon} (h : d.vault.Holds I) :
    (runHook hook d).1.vault.Holds I := by
  cases hook with
  | ok => exact h
  | raise => exact h
  | crash => exact h.rollback

include hI in
lemma holds_project {faults : AtomFaults} {applied : Applied} {d : Daemon} (h : d.vault.Holds I) :
    (project N faults applied d).1.vault.Holds I := by
  unfold project
  split
  · exact h.rollback
  · exact h
  · have hindex := holds_indexMessage hI (N := N) faults.index applied.messageId applied.text h
    split <;> rename_i vault _ heq <;> rw [heq] at hindex
    · exact hindex
    · exact holds_runHook hindex

include hI in
/-- After its commit an atom touches no table of the vault but those of the search index. -/
theorem holds_afterCommit {faults : AtomFaults} {family : Family} {applied : Option Applied}
    {d : Daemon} (h : d.vault.Holds I) :
    (afterCommit N faults family applied d).1.vault.Holds I := by
  unfold afterCommit
  split
  · exact holds_project hI h
  · exact holds_runHook h

lemma control_runHook {J : Control → Prop} {hook : Verdict} {d : Daemon} (h : d.control.Holds J) :
    (runHook hook d).1.control.Holds J := by
  cases hook with
  | ok => exact h
  | raise => exact h
  | crash => exact h.rollback

/-- What every advance of a window keeps, an atom keeps after its commit, whatever goes wrong. -/
theorem control_afterCommit {J : Control → Prop}
    (hJ : ∀ conversationId ms c c', J c → Control.advanceWindow conversationId ms c = some c' → J c')
    {faults : AtomFaults} {family : Family} {applied : Option Applied} {d : Daemon}
    (h : d.control.Holds J) : (afterCommit N faults family applied d).1.control.Holds J := by
  unfold afterCommit
  split
  · rename_i applied
    unfold project
    have hattempt : (attempt faults.window
        (Control.advanceWindow applied.conversationId applied.providerMs) d.control).1.Holds J := by
      rcases attempt_cases faults.window
        (Control.advanceWindow applied.conversationId applied.providerMs) d.control with
        ⟨c, -, hc, hrun⟩ | ⟨c, hc, hrun⟩ | hrun | hrun <;> rw [hrun]
      · exact Conn.holds_clean (hJ _ _ _ _ h.2 hc)
      · exact ⟨h.1, hJ _ _ _ _ h.2 hc⟩
      · exact h
      · exact h.rollback
    split <;> rename_i control _ hrun <;> rw [hrun] at hattempt
    · exact hattempt
    · exact hattempt
    · split
      · exact hattempt.rollback
      · exact control_runHook hattempt
  · exact control_runHook h

/-- The projection of an inbound message, when nothing goes wrong in it. -/
theorem control_afterCommit_inbound {J : Control → Prop} {faults : AtomFaults} {applied : Applied}
    {d : Daemon} {c : Control} (hwindow : faults.window = none)
    (hadvance : d.control.working.advanceWindow applied.conversationId applied.providerMs = some c)
    (hc : J c) :
    (afterCommit N faults .messageInbound (some applied) d).1.control.Holds J := by
  have hrun : attempt faults.window
      (Control.advanceWindow applied.conversationId applied.providerMs) d.control =
        (.clean c, .done ()) := by
    rw [hwindow]
    simp [attempt, hadvance]
  simp only [afterCommit, project, hrun]
  split
  · exact Conn.holds_clean hc
  · exact control_runHook (Conn.holds_clean hc)

/-- An atom that is not an inbound message leaves the control database alone. -/
theorem control_afterCommit_other {J : Control → Prop} {faults : AtomFaults} {family : Family}
    {applied : Option Applied} {d : Daemon} (hfamily : family ≠ .messageInbound)
    (h : d.control.Holds J) : (afterCommit N faults family applied d).1.control.Holds J := by
  unfold afterCommit
  split
  · exact absurd rfl hfamily
  · exact control_runHook h

end AfterCommit

/-! ## One turn of the loop -/

section ProcessAtom

variable (P : Platform) (S : Stdlib) (N : Search.Normaliser) (now : ℤ) (ids : AtomIds)
  (faults : AtomFaults) (atom : Atom) (d : Daemon)

/-- The ways one atom can go. -/
inductive AtomStep : Step Unit → Prop
  /-- It cannot be decoded. -/
  | undecodable (undecoded : decode P S atom = none) : AtomStep (d, .raised, [])
  /-- Its transaction fails. -/
  | failed {outcome : Outcome Unit} (control : Conn Control)
      (ended : outcome = .raised ∧ control = d.control ∨
        outcome = .crashed ∧ control = d.control.rollback) :
      AtomStep (⟨d.vault.rollback, control⟩, outcome, [])
  /-- Its key is in the ledger. -/
  | duplicate {x : Decoded} (decoded : decode P S atom = some x)
      (recorded : Recorded d.vault.working.evidence x.key) :
      AtomStep (⟨.clean d.vault.working, d.control⟩, .done (), [.deduped x.key])
  /-- It is stored. -/
  | stored {x : Decoded} {event : IngestEvent} {evidence : Evidence} {applied : Option Applied}
      (records : Records P S atom x event) (fresh : ¬ Recorded d.vault.working.evidence x.key)
      (stores : Stores S ids (withLedger d.vault.working.evidence event) evidence x.rows applied)
      {after : Daemon × Outcome Unit}
      (rest : after = afterCommit N faults x.family applied
        ⟨.clean { d.vault.working with evidence := evidence }, d.control⟩) :
      AtomStep (after.1, after.2, [.stored x.key])

theorem processAtom_cases :
    AtomStep P S N ids faults atom d (processAtom P S N now ids faults atom d) := by
  unfold processAtom
  rcases hx : decode P S atom with _ | x
  · exact .undecodable hx
  dsimp only
  rcases transact_cases faults.evidence (ingestBody P S ids now atom x) d.vault with
    ⟨v, ingested, -, hbody, hrun⟩ | ⟨hvault, houtcome⟩
  · rw [hrun]
    rcases ingestBody_eq_some hbody with ⟨hrecorded, rfl, rfl⟩ |
      ⟨event, evidence, applied, hfresh, hevent, happly, rfl, rfl⟩
    · exact .duplicate hx hrecorded
    · exact .stored (ledgerRow_eq_some hx hevent) hfresh (applyRows_eq_some happly) rfl
  · rcases hrun : transact faults.evidence (ingestBody P S ids now atom x) d.vault with ⟨vault, o⟩
    rw [hrun] at hvault houtcome
    dsimp only at hvault houtcome
    subst hvault
    rcases houtcome with rfl | rfl
    · exact .failed _ (.inl ⟨rfl, rfl⟩)
    · exact .failed _ (.inr ⟨rfl, rfl⟩)

end ProcessAtom

/-- What every advance of a window keeps, an atom keeps. -/
theorem control_processAtom {P : Platform} {S : Stdlib} {N : Search.Normaliser} {J : Control → Prop}
    (hJ : ∀ conversationId ms c c', J c → Control.advanceWindow conversationId ms c = some c' → J c')
    {now : ℤ} {ids : AtomIds} {faults : AtomFaults} {atom : Atom} {d : Daemon}
    (h : d.control.Holds J) : (processAtom P S N now ids faults atom d).1.control.Holds J := by
  have hcases := processAtom_cases P S N now ids faults atom d
  generalize processAtom P S N now ids faults atom d = result at hcases ⊢
  cases hcases with
  | undecodable => exact h
  | failed control hended =>
    rcases hended with ⟨-, rfl⟩ | ⟨-, rfl⟩
    · exact h
    · exact h.rollback
  | duplicate => exact h
  | stored _ _ _ hafter =>
    rw [hafter]
    exact control_afterCommit hJ h

/-- What the rows of an atom keep of the evidence, an atom keeps. -/
theorem evidence_processAtom {P : Platform} {S : Stdlib} {N : Search.Normaliser}
    {K : Evidence → Prop}
    (hrows : ∀ ids rows e e' applied, K e → applyRows S ids rows e = some (e', applied) → K e')
    (hledger : ∀ e event, K e → K (withLedger e event)) {now : ℤ} {ids : AtomIds}
    {faults : AtomFaults} {atom : Atom} {d : Daemon} (h : d.vault.Holds fun v => K v.evidence) :
    (processAtom P S N now ids faults atom d).1.vault.Holds fun v => K v.evidence := by
  unfold processAtom
  rcases decode P S atom with _ | x
  · exact h
  dsimp only
  obtain ⟨v, ingested, -, hbody, hrun⟩ | ⟨hvault, houtcome⟩ :=
    transact_cases faults.evidence (ingestBody P S ids now atom x) d.vault
  · rw [hrun]
    obtain ⟨-, rfl, rfl⟩ | ⟨event, evidence, applied, -, -, happly, rfl, rfl⟩ :=
      ingestBody_eq_some hbody
    · exact Conn.holds_clean h.2
    · refine holds_afterCommit (fun v s hv => hv) (Conn.holds_clean ?_)
      exact hrows ids x.rows _ evidence applied (hledger _ event h.2) happly
  · rcases hrun : transact faults.evidence (ingestBody P S ids now atom x) d.vault with ⟨vault, o⟩
    rw [hrun] at hvault houtcome
    dsimp only at hvault houtcome
    subst hvault
    obtain rfl | rfl := houtcome
    · exact h.rollback
    · exact h.rollback

/-! ## The end of a lease -/

/-- The ways a branch that writes to the vault and disposes of its lease can go. -/
inductive Disposes (f : Vault → Option Vault) (disposition : Disposition) (log : List Event)
    (d : Daemon) : Step Disposition → Prop
  | written {v : Vault} (wrote : f d.vault.working = some v) :
      Disposes f disposition log d (⟨.clean v, d.control⟩, .done disposition, log)
  /-- The write stays in the open transaction. -/
  | uncommitted {v : Vault} (wrote : f d.vault.working = some v) :
      Disposes f disposition log d (⟨⟨d.vault.durable, v⟩, d.control⟩, .raised, [])
  | refused : Disposes f disposition log d (d, .raised, [])
  | crashed : Disposes f disposition log d (d.restart, .crashed, [])

theorem disposeAfter_cases (fault : Option Fault) (f : Vault → Option Vault)
    (disposition : Disposition) (log : List Event) (d : Daemon) :
    Disposes f disposition log d (disposeAfter fault f disposition log d) := by
  unfold disposeAfter
  rcases attempt_cases fault f d.vault with ⟨v, -, hv, hrun⟩ | ⟨v, hv, hrun⟩ | hrun | hrun <;>
    rw [hrun]
  · exact .written hv
  · exact .uncommitted hv
  · exact .refused
  · exact .crashed

lemma quarantine_eq_some {P : Platform} {envelope : Bytes} {failureClass failureCode : String}
    {now : ℤ} {v v' : Vault} (h : quarantine P envelope failureClass failureCode now v = some v') :
    ∃ row, row.envelope = envelope ∧ v' = { v with ingestDlq := v.ingestDlq ++ [row] } := by
  simp only [quarantine, Option.ite_none_right_eq_some, Option.some.injEq] at h
  exact ⟨_, rfl, h.2.symm⟩

lemma trip_eq_some {keyId : ℕ} {now : ℤ} {v v' : Vault} (h : trip keyId now v = some v') :
    ∃ circuit, v' = { v with circuit := circuit } := by
  simp only [trip, Option.ite_none_right_eq_some, Option.some.injEq] at h
  exact ⟨_, h.2.symm⟩

section Leases

variable (P : Platform) (S : Stdlib) (N : Search.Normaliser) (C : Sealed.Primitives)

/-- The ways the handling of a lease can go. -/
inductive LeaseStep (r : Drain) (lease : Lease) (d : Daemon) : Step Disposition → Prop
  | raised : LeaseStep r lease d (d, .raised, [])
  | unavailable : LeaseStep r lease d (d, .done .nack, [.nacked lease.leaseId])
  | quarantines {failureClass failureCode : String} {result : Step Disposition}
      (disposes : Disposes (quarantine P lease.body failureClass failureCode r.now) (.ack none)
        [.quarantined lease.body] d result) : LeaseStep r lease d result
  | trips {keyId : ℕ} {result : Step Disposition}
      (disposes : Disposes (trip keyId r.now) .halt [] d result) : LeaseStep r lease d result
  | processed {plaintext : Bytes} {header : Sealed.Header} {after : Daemon} {log : List Event}
      (opened : Sealed.openSealed P C r.keyLookup lease.body = .opened plaintext header)
      (ran : processPayload P S N r.now lease.ids lease.faults plaintext d =
        (after, .done (), log)) :
      LeaseStep r lease d (after, .done (.ack (some plaintext)), log)
  | nacked {plaintext : Bytes} {header : Sealed.Header} {after : Daemon} {log : List Event}
      (opened : Sealed.openSealed P C r.keyLookup lease.body = .opened plaintext header)
      (ran : processPayload P S N r.now lease.ids lease.faults plaintext d =
        (after, .raised, log)) :
      LeaseStep r lease d (after, .done .nack, log ++ [.nacked lease.leaseId])
  | died {plaintext : Bytes} {header : Sealed.Header} {after : Daemon} {log : List Event}
      (opened : Sealed.openSealed P C r.keyLookup lease.body = .opened plaintext header)
      (ran : processPayload P S N r.now lease.ids lease.faults plaintext d =
        (after, .crashed, log)) :
      LeaseStep r lease d (after, .crashed, log)

theorem handleLease_cases (r : Drain) (lease : Lease) (health : List ℕ) (d : Daemon) :
    LeaseStep P S N C r lease d (handleLease P S N C r lease health d) := by
  unfold handleLease
  rcases hopen : Sealed.openSealed P C r.keyLookup lease.body with ⟨plaintext, header⟩ | _ | _ | _ | _
  · dsimp only
    rcases hrun : processPayload P S N r.now lease.ids lease.faults plaintext d with
      ⟨after, ⟨⟩ | _ | _, log⟩
    · exact .processed hopen hrun
    · exact .nacked hopen hrun
    · exact .died hopen hrun
  · exact .unavailable
  · exact .quarantines (disposeAfter_cases _ _ _ _ _)
  · dsimp only
    split
    · exact .quarantines (disposeAfter_cases _ _ _ _ _)
    · exact .trips (disposeAfter_cases _ _ _ _ _)
  · exact .raised

/-! ## The loops -/

section Loops

variable {P S N C} {J : List Event → Daemon → Prop}

/-- What every turn of the loop over the atoms keeps, the loop keeps. -/
theorem processAtoms_invariant (now : ℤ) (ids : ℕ → AtomIds) (faults : ℕ → AtomFaults)
    (atoms : List Atom) (i : ℕ)
    (hatom : ∀ log j atom d, atoms[j]? = some atom → J log d →
      J (log ++ (processAtom P S N now (ids (i + j)) (faults (i + j)) atom d).2.2)
        (processAtom P S N now (ids (i + j)) (faults (i + j)) atom d).1)
    (log : List Event) {d : Daemon} (h : J log d) :
    J (log ++ (processAtoms P S N now ids faults i atoms d).2.2)
      (processAtoms P S N now ids faults i atoms d).1 := by
  induction atoms generalizing log d i with
  | nil => simpa [processAtoms] using h
  | cons atom atoms ih =>
    have hfirst := hatom log 0 atom d rfl h
    rw [Nat.add_zero] at hfirst
    rcases hrun : processAtom P S N now (ids i) (faults i) atom d with ⟨d₁, ⟨⟩ | _ | _, log₁⟩
    · rw [hrun] at hfirst
      have hrest : J (log ++ log₁ ++ (processAtoms P S N now ids faults (i + 1) atoms d₁).2.2)
          (processAtoms P S N now ids faults (i + 1) atoms d₁).1 := by
        refine ih (i + 1) (fun log j a d ha hd => ?_) (log ++ log₁) hfirst
        have hnext := hatom log (j + 1) a d ha hd
        rwa [show i + (j + 1) = i + 1 + j by omega] at hnext
      simpa [processAtoms, hrun, List.append_assoc] using hrest
    · simpa [processAtoms, hrun] using hfirst
    · simpa [processAtoms, hrun] using hfirst

lemma drainLoop_cons_of_done {r : Drain} {lease : Lease} {leases : List Lease} {health : List ℕ}
    {d after : Daemon} {disposition : Disposition} {log : List Event}
    (hrun : handleLease P S N C r lease health d = (after, .done disposition, log))
    (hcontinues : disposition ≠ .halt) :
    drainLoop P S N C r (lease :: leases) health d =
      (let rest := drainLoop P S N C r leases (healthAfter P C r lease health) after
      (rest.1, rest.2.1.map (toAck lease disposition ++ ·), log ++ rest.2.2)) := by
  rcases disposition with _ | _ | _
  · simp [drainLoop, hrun]
  · simp [drainLoop, hrun]
  · exact absurd rfl hcontinues

/-- What every advance of a window keeps, a lease keeps. -/
theorem control_handleLease {K : Control → Prop}
    (hK : ∀ conversationId ms c c', K c → Control.advanceWindow conversationId ms c = some c' → K c')
    {r : Drain} {lease : Lease} {health : List ℕ} {d : Daemon} (h : d.control.Holds K) :
    (handleLease P S N C r lease health d).1.control.Holds K := by
  have hcases := handleLease_cases P S N C r lease health d
  generalize handleLease P S N C r lease health d = result at hcases ⊢
  have hpayload : ∀ {plaintext after outcome log},
      processPayload P S N r.now lease.ids lease.faults plaintext d = (after, outcome, log) →
      after.control.Holds K := by
    intro plaintext after outcome log hran
    unfold processPayload at hran
    split at hran
    · cases hran
      exact h
    · rename_i atoms _
      have hloop := processAtoms_invariant (P := P) (S := S) (N := N) r.now lease.ids lease.faults
        atoms 0 (J := fun _ d => d.control.Holds K) (fun _ _ _ _ _ hd => control_processAtom hK hd)
        [] h
      rwa [hran] at hloop
  have hdisposes : ∀ {f disposition log}, Disposes f disposition log d result →
      result.1.control.Holds K := by
    intro f disposition log hd
    cases hd with
    | written => exact h
    | uncommitted => exact h
    | refused => exact h
    | crashed => exact h.rollback
  cases hcases with
  | raised => exact h
  | unavailable => exact h
  | quarantines hd => exact hdisposes hd
  | trips hd => exact hdisposes hd
  | processed _ hran => exact hpayload hran
  | nacked _ hran => exact hpayload hran
  | died _ hran => exact hpayload hran

/-- What every lease of a batch keeps, the batch keeps. -/
theorem drainLoop_invariant (r : Drain) (leases : List Lease)
    (hlease : ∀ log health, ∀ lease ∈ leases, ∀ d, J log d →
      J (log ++ (handleLease P S N C r lease health d).2.2)
        (handleLease P S N C r lease health d).1)
    (log : List Event) {d : Daemon} (h : J log d) (health : List ℕ) :
    J (log ++ (drainLoop P S N C r leases health d).2.2)
      (drainLoop P S N C r leases health d).1 := by
  induction leases generalizing log d health with
  | nil => simpa [drainLoop] using h
  | cons lease leases ih =>
    have hfirst := hlease log health lease List.mem_cons_self d h
    rcases hrun : handleLease P S N C r lease health d with ⟨d₁, disposition | _ | _, log₁⟩
    · rw [hrun] at hfirst
      by_cases hhalt : disposition = .halt
      · subst hhalt
        simpa [drainLoop, hrun] using hfirst
      · have hrest := ih (fun log k l hl => hlease log k l (List.mem_cons_of_mem _ hl)) (log ++ log₁)
          hfirst (healthAfter P C r lease health)
        rw [drainLoop_cons_of_done hrun hhalt]
        simpa [List.append_assoc] using hrest
    · simpa [drainLoop, hrun] using hfirst
    · simpa [drainLoop, hrun] using hfirst

/-- Every lease a batch acknowledges was handled to that end, and what was emitted meanwhile is in
the output of the batch. -/
theorem drainLoop_acks {r : Drain} {leases : List Lease} {health : List ℕ} {d : Daemon}
    {acks : List Ack}
    (hdone : (drainLoop P S N C r leases health d).2.1 = .done acks)
    {ack : Ack} (hack : ack ∈ acks) :
    ∃ lease ∈ leases, ∃ keys before,
      lease.leaseId = ack.leaseId ∧ lease.body = ack.envelope ∧
      (handleLease P S N C r lease keys before).2.1 = .done (.ack ack.payload) ∧
      (handleLease P S N C r lease keys before).2.2 ⊆
        (drainLoop P S N C r leases health d).2.2 := by
  induction leases generalizing d health acks with
  | nil =>
    obtain rfl : [] = acks := by simpa [drainLoop] using hdone
    simp at hack
  | cons lease leases ih =>
    rcases hrun : handleLease P S N C r lease health d with ⟨d₁, disposition | _ | _, log₁⟩
    · by_cases hhalt : disposition = .halt
      · subst hhalt
        obtain rfl : [] = acks := by simpa [drainLoop, hrun] using hdone
        simp at hack
      · rw [drainLoop_cons_of_done hrun hhalt] at hdone ⊢
        obtain ⟨rest, hrest, rfl⟩ := Outcome.map_eq_done.mp hdone
        rcases List.mem_append.mp hack with hhere | hlater
        · cases disposition with
          | ack payload =>
            obtain rfl := List.mem_singleton.mp hhere
            refine ⟨lease, List.mem_cons_self, health, d, rfl, rfl, by rw [hrun], ?_⟩
            rw [hrun]
            exact List.subset_append_left _ _
          | nack => simp [toAck] at hhere
          | halt => simp [toAck] at hhere
        · obtain ⟨l, hl, keys, before, hid, hbody, hend, hlog⟩ := ih hrest hlater
          exact ⟨l, List.mem_cons_of_mem _ hl, keys, before, hid, hbody, hend,
            fun event hevent => List.mem_append_right _ (hlog hevent)⟩
    · simp [drainLoop, hrun] at hdone
    · simp [drainLoop, hrun] at hdone

/-- What every lease of a call keeps, and the acknowledgements at its end keep, the call keeps. -/
theorem drainOnce_invariant {r : Drain}
    (hlease : ∀ log health, ∀ lease ∈ r.leases, ∀ d, J log d →
      J (log ++ (handleLease P S N C r lease health d).2.2)
        (handleLease P S N C r lease health d).1)
    (hacks : ∀ log d (acks : List Ack), J log d → J (log ++ acks.map .acked) d)
    (log : List Event) {d : Daemon} (h : J log d) :
    J (log ++ (drainOnce P S N C r d).2) (drainOnce P S N C r d).1 := by
  have hloop := drainLoop_invariant r r.leases hlease log h r.keyHealth
  unfold drainOnce
  split
  · simpa using h
  · rcases hrun : drainLoop P S N C r r.leases r.keyHealth d with ⟨d₁, acks | _ | _, log₁⟩ <;>
      rw [hrun] at hloop
    · have hend := hacks _ _ acks hloop
      simpa [List.append_assoc] using hend
    · exact hloop
    · exact hloop

/-- What the rows of an atom keep of the evidence, a lease keeps. -/
lemma evidence_handleLease {K : Evidence → Prop}
    (hrows : ∀ ids rows e e' applied, K e → applyRows S ids rows e = some (e', applied) → K e')
    (hledger : ∀ e event, K e → K (withLedger e event)) {r : Drain} {lease : Lease}
    {health : List ℕ} {d : Daemon} (h : d.vault.Holds fun v => K v.evidence) :
    (handleLease P S N C r lease health d).1.vault.Holds fun v => K v.evidence := by
  have hpayload : ∀ {plaintext after outcome log},
      processPayload P S N r.now lease.ids lease.faults plaintext d = (after, outcome, log) →
      after.vault.Holds fun v => K v.evidence := by
    intro plaintext after outcome log hran
    unfold processPayload at hran
    split at hran
    · cases hran
      exact h
    · rename_i atoms _
      have hloop := processAtoms_invariant (P := P) (S := S) (N := N) r.now lease.ids lease.faults
        atoms 0 (J := fun _ d => d.vault.Holds fun v => K v.evidence)
        (fun _ _ _ _ _ hd => evidence_processAtom hrows hledger hd) [] h
      rwa [hran] at hloop
  have hdisposes : ∀ {f disposition log result}, Disposes f disposition log d result →
      (∀ v v', f v = some v' → v'.evidence = v.evidence) →
      result.1.vault.Holds fun v => K v.evidence := by
    intro f disposition log result hd hkeeps
    have hkeep {v : Vault} (hwrote : f d.vault.working = some v) : K v.evidence := by
      rw [hkeeps _ _ hwrote]
      exact h.2
    cases hd with
    | written hwrote => exact Conn.holds_clean (hkeep hwrote)
    | uncommitted hwrote => exact ⟨h.1, hkeep hwrote⟩
    | refused => exact h
    | crashed => exact h.rollback
  have hcases := handleLease_cases P S N C r lease health d
  generalize handleLease P S N C r lease health d = result at hcases ⊢
  cases hcases with
  | raised => exact h
  | unavailable => exact h
  | quarantines hd =>
    refine hdisposes hd fun v v' hwrote => ?_
    obtain ⟨row, -, rfl⟩ := quarantine_eq_some hwrote
    rfl
  | trips hd =>
    refine hdisposes hd fun v v' hwrote => ?_
    obtain ⟨circuit, rfl⟩ := trip_eq_some hwrote
    rfl
  | processed _ hran => exact hpayload hran
  | nacked _ hran => exact hpayload hran
  | died _ hran => exact hpayload hran

/-- What the rows of an atom keep of the evidence, every step keeps. -/
theorem evidence_step {K : Evidence → Prop}
    (hrows : ∀ ids rows e e' applied, K e → applyRows S ids rows e = some (e', applied) → K e')
    (hledger : ∀ e event, K e → K (withLedger e event)) {d : Daemon}
    (h : d.vault.Holds fun v => K v.evidence) (op : Op) :
    (step P S N C d op).1.vault.Holds fun v => K v.evidence := by
  cases op with
  | drain r =>
    exact drainOnce_invariant (P := P) (S := S) (N := N) (C := C)
      (J := fun _ (d : Daemon) => d.vault.Holds fun v : Vault => K v.evidence)
      (fun _ _ _ _ _ hd => evidence_handleLease hrows hledger hd) (fun _ _ _ hd => hd) [] h
  | restart => exact h.rollback
  | resetCircuit => exact h

/-- What every advance of a window keeps, every step keeps. -/
theorem control_step {K : Control → Prop}
    (hK : ∀ conversationId ms c c', K c → Control.advanceWindow conversationId ms c = some c' → K c')
    {d : Daemon} (h : d.control.Holds K) (op : Op) : (step P S N C d op).1.control.Holds K := by
  cases op with
  | drain r =>
    exact drainOnce_invariant (P := P) (S := S) (N := N) (C := C)
      (J := fun _ d => d.control.Holds K) (fun _ _ _ _ _ hd => control_handleLease hK hd)
      (fun _ _ _ hd => hd) [] h
  | restart => exact h.rollback
  | resetCircuit => exact h

section Acked

variable {ack : Ack}

lemma processPayload_acked (ack : Ack) (now : ℤ) (ids : ℕ → AtomIds) (faults : ℕ → AtomFaults)
    (plaintext : Bytes) (d : Daemon) :
    .acked ack ∉ (processPayload P S N now ids faults plaintext d).2.2 := by
  unfold Ingest.processPayload
  split
  · simp
  · rename_i atoms _
    have hquiet := processAtoms_invariant (P := P) (S := S) (N := N) now ids faults atoms 0
      (J := fun log _ => .acked ack ∉ log) (d := d) ?_ [] (by simp)
    · simpa using hquiet
    · intro log j atom d₁ _ hlog
      have hcases := processAtom_cases P S N now (ids (0 + j)) (faults (0 + j)) atom d₁
      generalize processAtom P S N now (ids (0 + j)) (faults (0 + j)) atom d₁ = result at hcases ⊢
      cases hcases <;> simpa using hlog

lemma handleLease_acked (ack : Ack) (r : Drain) (lease : Lease) (health : List ℕ) (d : Daemon) :
    .acked ack ∉ (handleLease P S N C r lease health d).2.2 := by
  have hcases := handleLease_cases P S N C r lease health d
  generalize Ingest.handleLease P S N C r lease health d = result at hcases ⊢
  have hpayload : ∀ {plaintext after outcome log},
      processPayload P S N r.now lease.ids lease.faults plaintext d = (after, outcome, log) →
      .acked ack ∉ log := by
    intro plaintext after outcome log hran
    have hquiet := processPayload_acked (P := P) (S := S) (N := N) ack r.now lease.ids lease.faults
      plaintext d
    rwa [hran] at hquiet
  cases hcases with
  | raised => simp
  | unavailable => simp
  | quarantines hdisposes => cases hdisposes <;> simp
  | trips hdisposes => cases hdisposes <;> simp
  | processed _ hran => exact hpayload hran
  | nacked _ hran => simpa using hpayload hran
  | died _ hran => exact hpayload hran

/-- Nothing is acknowledged before the end of a batch. -/
lemma drainLoop_acked (ack : Ack) (r : Drain) (leases : List Lease) (health : List ℕ) (d : Daemon) :
    .acked ack ∉ (drainLoop P S N C r leases health d).2.2 := by
  have hquiet := drainLoop_invariant (P := P) (S := S) (N := N) (C := C) r leases
    (J := fun log _ => .acked ack ∉ log) (d := d)
    (fun log health lease _ d₁ hlog hmem => ?_) [] (by simp) health
  · simpa using hquiet
  · rcases List.mem_append.mp hmem with hold | hnew
    · exact hlog hold
    · exact handleLease_acked _ _ _ _ _ hnew

/-- Every acknowledgement comes from a lease that was handled to that end, and what was emitted
meanwhile is in the output of its call. -/
theorem acked_of_step {d : Daemon} {op : Op}
    (h : .acked ack ∈ (step P S N C d op).2) :
    ∃ r, op = .drain r ∧ ∃ lease ∈ r.leases, lease.body = ack.envelope ∧ ∃ keys before,
      (handleLease P S N C r lease keys before).2.1 = .done (.ack ack.payload) ∧
      (handleLease P S N C r lease keys before).2.2 ⊆ (step P S N C d op).2 := by
  cases op with
  | restart => simp [step] at h
  | resetCircuit => simp [step] at h
  | drain r =>
    refine ⟨r, rfl, ?_⟩
    simp only [step, drainOnce] at h ⊢
    split at h
    · simp at h
    · rename_i hclosed
      rw [if_neg hclosed]
      have hquiet := drainLoop_acked (P := P) (S := S) (N := N) (C := C) ack r r.leases r.keyHealth d
      rcases hrun : drainLoop P S N C r r.leases r.keyHealth d with ⟨d₁, acks | _ | _, log₁⟩ <;>
        rw [hrun] at h hquiet
      · rcases List.mem_append.mp h with hloop | hend
        · exact absurd hloop hquiet
        · obtain ⟨_, hack, heq⟩ := List.mem_map.mp hend
          cases heq
          have hdone : (drainLoop P S N C r r.leases r.keyHealth d).2.1 = .done acks := by rw [hrun]
          obtain ⟨lease, hlease, keys, before, -, hbody, hend, hlog⟩ := drainLoop_acks hdone hack
          rw [hrun] at hlog
          exact ⟨lease, hlease, hbody, keys, before, hend,
            fun e he => List.mem_append_left _ (hlog he)⟩
      · exact absurd h hquiet
      · exact absurd h hquiet

end Acked

end Loops

end Leases

end WhatsVault.Ingest
