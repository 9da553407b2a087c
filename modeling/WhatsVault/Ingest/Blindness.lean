import WhatsVault.Ingest.Effects

/-!
# What ingest sees of imported rows

Nothing.  `provided` is the vault without the messages of imports, the bookkeeping of imports and the
search index.  Every step of the consumer does the same to two vaults that are the same but for
those (`Alike`): it ends in the same way, emits the same events and leaves the control database the
same.  The search index is written and never read here, so a difference in it does not spread.

The ids an import has drawn for its messages are `reserved`, and the ids drawn for an atom are not
among them: that is all that two generators of ids need to agree on.
-/

namespace WhatsVault.Ingest

open Transaction

/-! ## Provider evidence -/

/-- The evidence without the rows of imports. -/
def provided (e : Evidence) : Evidence :=
  { e with messages := e.messages.filter fun m => m.origin ≠ .manualExport }

/-- The vault without what imports wrote, and without the index. -/
def unimported (v : Vault) : Vault :=
  { v with evidence := provided v.evidence, imports := ⟨[], [], [], []⟩, search := ⟨[], [], []⟩ }

/-- What tells the rows of imports from those of the provider. -/
structure Separated (reserved : Set String) (e : Evidence) : Prop where
  ids : Table.Unique Message.id e.messages
  imported : ∀ m ∈ e.messages, m.origin = .manualExport →
    m.id ∈ reserved ∧ m.wamid = none ∧ m.windowEligible = false
  provider : ∀ m ∈ e.messages, m.origin ≠ .manualExport →
    m.id ∉ reserved ∧ m.importFingerprint = none

/-- Two vaults that differ in the rows of imports and in the index alone.  Whatever a batch observes is
a row of an import. -/
structure Alike (reserved : Set String) (v v' : Vault) : Prop where
  left : Separated reserved v.evidence
  right : Separated reserved v'.evidence
  observed : ∀ o ∈ v.imports.observations, o.messageId ∈ reserved
  same : unimported v = unimported v'

variable {reserved : Set String}

lemma Alike.withSearch {v v' : Vault} (h : Alike reserved v v')
    (f f' : SearchTables → SearchTables) : Alike reserved (withSearch f v) (withSearch f' v') :=
  ⟨h.left, h.right, h.observed, h.same⟩

/-! ## The rows of an atom -/

@[simp] lemma provided_accounts (e : Evidence) : (provided e).accounts = e.accounts := rfl

@[simp] lemma provided_contacts (e : Evidence) : (provided e).contacts = e.contacts := rfl

@[simp] lemma provided_conversations (e : Evidence) :
    (provided e).conversations = e.conversations := rfl

lemma getAccount_provided (phoneNumberId : Option String) (id : String) (e : Evidence) :
    getAccount phoneNumberId id (provided e) =
      (getAccount phoneNumberId id e).map fun p => (p.1, provided p.2) := by
  unfold getAccount
  rcases phoneNumberId with _ | phone
  · rfl
  · simp only [provided_accounts, Option.bind_eq_bind, Option.bind_some]
    rcases Table.find Account.phoneNumberId phone e.accounts with _ | a
    · rcases Table.insert Account.id ⟨id, phone⟩ e.accounts with _ | accounts
      · rfl
      · rfl
    · rfl

lemma getContact_provided (waId name : Option String) (id : String) (e : Evidence) :
    getContact waId name id (provided e) =
      (getContact waId name id e).map fun p => (p.1, provided p.2) := by
  unfold getContact
  simp only [provided_contacts]
  rcases e.contacts.find? _ with _ | c
  · rcases Table.insert Contact.id _ e.contacts with _ | contacts
    · rfl
    · rfl
  · rfl

lemma getConversation_provided (accountId : String) (waChatId : Option String) (id : String)
    (e : Evidence) : getConversation accountId waChatId id (provided e) =
      (getConversation accountId waChatId id e).map fun p => (p.1, provided p.2) := by
  unfold getConversation
  simp only [provided_conversations]
  rcases e.conversations.find? _ with _ | c
  · rcases Table.insert Conversation.id _ e.conversations with _ | conversations
    · rfl
    · rfl
  · rfl

/-- A row of the provider clashes with no row of an import. -/
lemma insertMessage_provided {e : Evidence} (h : Separated reserved e) {row : Message}
    (hid : row.id ∉ reserved) (horigin : row.origin ≠ .manualExport)
    (hfingerprint : row.importFingerprint = none) :
    insertMessage row (provided e) = (insertMessage row e).map provided := by
  have hfree : (∀ m ∈ (provided e).messages, m.id ≠ row.id ∧
      (row.wamid = none ∨ m.accountId ≠ row.accountId ∨ m.wamid ≠ row.wamid) ∧
      (row.importFingerprint = none ∨ m.importFingerprint ≠ row.importFingerprint)) ↔
      ∀ m ∈ e.messages, m.id ≠ row.id ∧
        (row.wamid = none ∨ m.accountId ≠ row.accountId ∨ m.wamid ≠ row.wamid) ∧
        (row.importFingerprint = none ∨ m.importFingerprint ≠ row.importFingerprint) := by
    constructor
    · intro hprovided m hm
      by_cases himported : m.origin = .manualExport
      · obtain ⟨hreserved, hwamid, -⟩ := h.imported m hm himported
        refine ⟨fun hsame => hid (hsame ▸ hreserved), ?_, .inl hfingerprint⟩
        rw [hwamid]
        rcases row.wamid with _ | wamid
        · exact .inl rfl
        · exact .inr (.inr (by simp))
      · exact hprovided m (List.mem_filter.mpr ⟨hm, by simpa using himported⟩)
    · intro hall m hm
      exact hall m (List.mem_of_mem_filter hm)
  unfold insertMessage
  by_cases hall : ∀ m ∈ e.messages, m.id ≠ row.id ∧
      (row.wamid = none ∨ m.accountId ≠ row.accountId ∨ m.wamid ≠ row.wamid) ∧
      (row.importFingerprint = none ∨ m.importFingerprint ≠ row.importFingerprint)
  · rw [if_pos (hfree.mpr hall), if_pos hall]
    simp [provided, List.filter_append, horigin]
  · rw [if_neg (fun hprovided => hall (hfree.mp hprovided)), if_neg hall]
    rfl

lemma Separated.of_messages {e e' : Evidence} (h : Separated reserved e)
    (hmessages : e'.messages = e.messages) : Separated reserved e' where
  ids := hmessages ▸ h.ids
  imported := hmessages ▸ h.imported
  provider := hmessages ▸ h.provider

section Atom

variable {P : Platform} {S : Stdlib} {ids : AtomIds} {e e' : Evidence}

lemma applyMessage_provided (h : Separated reserved e) (hid : ids.message ∉ reserved)
    {rows : MessageRows} (horigin : rows.origin ≠ .manualExport) :
    applyMessage S ids rows (provided e) =
      (applyMessage S ids rows e).map fun p => (provided p.1, p.2) := by
  unfold applyMessage
  rcases rows.phoneNumberId.bindText S with _ | phoneNumberId
  · rfl
  rcases rows.waId.bindText S with _ | waId
  · rfl
  rcases rows.name.bindText S with _ | name
  · rfl
  rcases rows.type.bindText S with _ | _ | type
  · rfl
  · rfl
  rcases rows.textOriginal.bindText S with _ | text
  · rfl
  rcases rows.wamid.bindText S with _ | wamid
  · rfl
  simp only [Option.bind_eq_bind, Option.bind_some, getAccount_provided]
  rcases haccount : getAccount phoneNumberId ids.account e with _ | ⟨accountId, e₁⟩
  · rfl
  have h₁ : Separated reserved e₁ := by
    obtain ⟨-, accounts, -, rfl, -⟩ := getAccount_eq_some haccount
    exact h.of_messages rfl
  simp only [Option.map_some, Option.bind_some, getContact_provided]
  rcases hcontact : getContact waId name ids.contact e₁ with _ | ⟨contactId, e₂⟩
  · rfl
  have h₂ : Separated reserved e₂ := by
    obtain ⟨contacts, rfl, -⟩ := getContact_eq_some hcontact
    exact h₁.of_messages rfl
  simp only [Option.map_some, Option.bind_some, getConversation_provided]
  rcases hconversation : getConversation accountId waId ids.conversation e₂ with
    _ | ⟨conversationId, e₃⟩
  · rfl
  have h₃ : Separated reserved e₃ := by
    obtain ⟨conversations, rfl, -⟩ := getConversation_eq_some hconversation
    exact h₂.of_messages rfl
  simp only [Option.map_some, Option.bind_some]
  split
  · rw [insertMessage_provided h₃ hid horigin rfl]
    rcases insertMessage _ e₃ with _ | e₄
    · rfl
    · rfl
  · rfl

/-- The row of a message is the provider's. -/
lemma applyMessage_separated (h : Separated reserved e) (hid : ids.message ∉ reserved)
    {rows : MessageRows} (horigin : rows.origin ≠ .manualExport) {applied : Applied}
    (happly : applyMessage S ids rows e = some (e', applied)) : Separated reserved e' := by
  obtain ⟨_, _, _, type, _, _, accountId, e₁, contactId, e₂, conversationId, e₃, -, -, -, -, -, -,
    haccount, hcontact, hconversation, -, hinsert, -⟩ := applyMessage_steps happly
  obtain ⟨-, accounts, -, rfl, -⟩ := getAccount_eq_some haccount
  obtain ⟨contacts, rfl, -⟩ := getContact_eq_some hcontact
  obtain ⟨conversations, rfl, -⟩ := getConversation_eq_some hconversation
  unfold insertMessage at hinsert
  rw [Option.ite_none_right_eq_some] at hinsert
  obtain ⟨hfree, hinsert⟩ := hinsert
  obtain rfl := Option.some.inj hinsert
  refine
    { ids := h.ids.append fun m hm => (hfree m hm).1
      imported := fun m hm himported => ?_
      provider := fun m hm hprovider => ?_ }
  · rcases List.mem_append.mp hm with hold | hnew
    · exact h.imported m hold himported
    · rw [List.mem_singleton.mp hnew] at himported
      exact absurd himported horigin
  · rcases List.mem_append.mp hm with hold | hnew
    · exact h.provider m hold hprovider
    · rw [List.mem_singleton.mp hnew]
      exact ⟨hid, rfl⟩

lemma applyStatus_provided (rows : StatusRows) :
    applyStatus S rows (provided e) = (applyStatus S rows e).map provided := by
  unfold applyStatus
  rcases rows.wamid.bindText S with _ | _ | wamid
  · rfl
  · rfl
  rcases rows.status.bindText S with _ | _ | status
  · rfl
  · rfl
  rcases rows.recipientId.bindText S with _ | recipientId
  · rfl
  simp only [Option.bind_eq_bind, Option.bind_some]
  split
  · rfl
  · rfl

/-- Rows that are not an import's. -/
def Rows.Provider : Rows → Prop
  | .message rows => rows.origin ≠ .manualExport
  | _ => True

lemma provider_of_decode {atom : Atom} {x : Decoded} (h : decode P S atom = some x) :
    x.rows.Provider := by
  obtain ⟨-, hrows, -⟩ := decode_eq_some h
  unfold toRows at hrows
  split at hrows
  · obtain ⟨rows, hmessage, hx⟩ := Option.map_eq_some_iff.mp hrows
    rw [← hx]
    simp only [messageRows, Option.bind_eq_bind, Option.pure_def, Option.bind_eq_some_iff,
      Option.some.injEq] at hmessage
    obtain ⟨-, -, -, -, -, -, -, -, -, -, rfl⟩ := hmessage
    simp only [Rows.Provider]
    split
    · simp
    · simp
  · obtain ⟨rows, -, hx⟩ := Option.map_eq_some_iff.mp hrows
    rw [← hx]
    trivial
  · rw [← Option.some.inj hrows]
    trivial
  · rw [← Option.some.inj hrows]
    trivial
  · rw [← Option.some.inj hrows]
    trivial

lemma applyRows_provided (h : Separated reserved e) (hid : ids.message ∉ reserved) {rows : Rows}
    (hrows : rows.Provider) :
    applyRows S ids rows (provided e) =
      (applyRows S ids rows e).map fun p => (provided p.1, p.2) := by
  cases rows with
  | message rows =>
    simp only [applyRows, applyMessage_provided h hid hrows, Option.map_map]
    rfl
  | status rows =>
    simp only [applyRows, applyStatus_provided, Option.map_map]
    rfl
  | none => rfl

lemma applyRows_separated (h : Separated reserved e) (hid : ids.message ∉ reserved) {rows : Rows}
    (hrows : rows.Provider) {applied : Option Applied}
    (happly : applyRows S ids rows e = some (e', applied)) : Separated reserved e' := by
  cases rows with
  | message rows =>
    obtain ⟨⟨e₁, applied⟩, hmessage, hpair⟩ := Option.map_eq_some_iff.mp happly
    obtain ⟨rfl, -⟩ := Prod.mk.inj hpair
    exact applyMessage_separated h hid hrows hmessage
  | status rows =>
    obtain ⟨e₁, hstatus, hpair⟩ := Option.map_eq_some_iff.mp happly
    obtain ⟨rfl, -⟩ := Prod.mk.inj hpair
    obtain ⟨event, -, rfl⟩ := applyStatus_eq_some hstatus
    exact h.of_messages rfl
  | none =>
    obtain ⟨rfl, -⟩ := Prod.mk.inj (Option.some.inj happly)
    exact h

variable {now : ℤ} {atom : Atom} {x : Decoded} {v v' : Vault}

lemma ingestBody_unimported (h : Separated reserved v.evidence) (hid : ids.message ∉ reserved)
    (hrows : x.rows.Provider) :
    ingestBody P S ids now atom x (unimported v) =
      (ingestBody P S ids now atom x v).map fun p => (unimported p.1, p.2) := by
  unfold ingestBody
  rcases ledgerRow P S now atom x with _ | event
  · rfl
  simp only [Option.bind_eq_bind, Option.bind_some]
  by_cases hrecorded : Recorded v.evidence x.key
  · have hrecorded' : Recorded (unimported v).evidence x.key := hrecorded
    rw [if_pos hrecorded, if_pos hrecorded']
    rfl
  · have hrecorded' : ¬ Recorded (unimported v).evidence x.key := hrecorded
    rw [if_neg hrecorded, if_neg hrecorded']
    have hledger : Separated reserved (withLedger v.evidence event) := h.of_messages rfl
    have happly : applyRows S ids x.rows (provided (withLedger v.evidence event)) =
        (applyRows S ids x.rows (withLedger v.evidence event)).map fun p => (provided p.1, p.2) :=
      applyRows_provided hledger hid hrows
    have hsame : provided (withLedger v.evidence event) =
        { (unimported v).evidence with
          ingestEvents := (unimported v).evidence.ingestEvents ++ [event] } := rfl
    rw [← hsame, happly]
    change _ = ((applyRows S ids x.rows (withLedger v.evidence event)).bind _).map _
    rcases applyRows S ids x.rows (withLedger v.evidence event) with _ | ⟨e₁, applied⟩
    · rfl
    · rfl

lemma ingestBody_separated (h : Separated reserved v.evidence) (hid : ids.message ∉ reserved)
    (hrows : x.rows.Provider) {ingested : Ingested}
    (hbody : ingestBody P S ids now atom x v = some (v', ingested)) :
    Separated reserved v'.evidence := by
  rcases ingestBody_eq_some hbody with ⟨-, rfl, -⟩ | ⟨event, e₁, applied, -, -, happly, rfl, -⟩
  · exact h
  · have hledger : Separated reserved (withLedger v.evidence event) := h.of_messages rfl
    exact applyRows_separated hledger hid hrows happly

lemma ingestBody_imports {ingested : Ingested}
    (hbody : ingestBody P S ids now atom x v = some (v', ingested)) : v'.imports = v.imports := by
  rcases ingestBody_eq_some hbody with ⟨-, rfl, -⟩ | ⟨event, e₁, applied, -, -, -, rfl, -⟩
  · rfl
  · rfl

/-- The transaction of an atom does the same to both vaults. -/
theorem Alike.ingestBody (P : Platform) (S : Stdlib) (now : ℤ) (atom : Atom)
    (h : Alike reserved v v') (hid : ids.message ∉ reserved) (hrows : x.rows.Provider) :
    Option.Rel (fun p q => Alike reserved p.1 q.1 ∧ p.2 = q.2)
      (ingestBody P S ids now atom x v) (ingestBody P S ids now atom x v') := by
  have hsame := congrArg (Ingest.ingestBody P S ids now atom x) h.same
  rw [ingestBody_unimported h.left hid hrows, ingestBody_unimported h.right hid hrows] at hsame
  rcases hbody : Ingest.ingestBody P S ids now atom x v with _ | ⟨w, ingested⟩
  · rw [hbody] at hsame
    rw [Option.map_eq_none_iff.mp hsame.symm]
    exact .none
  · rcases hbody' : Ingest.ingestBody P S ids now atom x v' with _ | ⟨w', ingested'⟩
    · rw [hbody, hbody'] at hsame
      cases hsame
    · rw [hbody, hbody'] at hsame
      obtain ⟨hsame, hingested⟩ := Prod.mk.inj (Option.some.inj hsame)
      have hobserved : ∀ o ∈ w.imports.observations, o.messageId ∈ reserved := by
        rw [ingestBody_imports hbody]
        exact h.observed
      exact .some ⟨⟨ingestBody_separated h.left hid hrows hbody,
        ingestBody_separated h.right hid hrows hbody', hobserved, hsame⟩, hingested⟩

end Atom

/-! ## The consumer -/

/-- Two processes with the same control database and alike vaults. -/
structure Matched (reserved : Set String) (d d' : Daemon) : Prop where
  vault : d.vault.Rel (Alike reserved) d'.vault
  control : d.control = d'.control

/-- Two calls that end alike. -/
def EndAlike {β : Type} (reserved : Set String) (r r' : Daemon × β) : Prop :=
  Matched reserved r.1 r'.1 ∧ r.2 = r'.2

lemma Matched.restart {d d' : Daemon} (h : Matched reserved d d') :
    Matched reserved d.restart d'.restart :=
  ⟨h.vault.rollback, congrArg Conn.rollback h.control⟩

section Consumer

variable (P : Platform) (S : Stdlib) (N : Search.Normaliser) (C : Sealed.Primitives) {d d' : Daemon}

/-- Indexing ends as its fault says, whatever is in the vault. -/
lemma indexMessage_alike {c c' : Conn Vault} (h : c.Rel (Alike reserved) c')
    (fault : Option IndexFault) (messageId : String) (text : Json) :
    (indexMessage N fault messageId text c).1.Rel (Alike reserved)
        (indexMessage N fault messageId text c').1 ∧
      (indexMessage N fault messageId text c).2 = (indexMessage N fault messageId text c').2 := by
  unfold indexMessage
  rcases indexText text with _ | text
  · rcases fault with _ | _ | _ | _
    · exact ⟨h, rfl⟩
    · exact ⟨h, rfl⟩
    · exact ⟨h, rfl⟩
    · exact ⟨h.rollback, rfl⟩
  · rcases fault with _ | _ | _ | _
    · exact ⟨Conn.rel_clean (h.2.withSearch _ _), rfl⟩
    · exact ⟨⟨h.1, h.2.withSearch _ _⟩, rfl⟩
    · exact ⟨⟨h.1, h.2.withSearch _ _⟩, rfl⟩
    · exact ⟨h.rollback, rfl⟩

lemma runHook_alike (h : Matched reserved d d') (hook : Verdict) :
    EndAlike reserved (runHook hook d) (runHook hook d') := by
  cases hook with
  | ok => exact ⟨h, rfl⟩
  | raise => exact ⟨h, rfl⟩
  | crash => exact ⟨h.restart, rfl⟩

lemma project_alike (h : Matched reserved d d') (faults : AtomFaults) (applied : Applied) :
    EndAlike reserved (project N faults applied d) (project N faults applied d') := by
  unfold project
  rw [← h.control]
  rcases attempt faults.window (Control.advanceWindow applied.conversationId applied.providerMs)
    d.control with ⟨control, _ | _ | _⟩
  · have hindex := indexMessage_alike N h.vault faults.index applied.messageId applied.text
    revert hindex
    dsimp only
    rcases indexMessage N faults.index applied.messageId applied.text d.vault with ⟨vault, outcome⟩
    rcases indexMessage N faults.index applied.messageId applied.text d'.vault with
      ⟨vault', outcome'⟩
    rintro ⟨hvault, hsame⟩
    obtain rfl : outcome = outcome' := hsame
    have hmatched : Matched reserved ⟨vault, control⟩ ⟨vault', control⟩ := ⟨hvault, rfl⟩
    cases outcome with
    | done => exact runHook_alike hmatched faults.hook
    | raised => exact runHook_alike hmatched faults.hook
    | crashed => exact ⟨⟨hvault, rfl⟩, rfl⟩
  · exact ⟨⟨h.vault, rfl⟩, rfl⟩
  · exact ⟨⟨h.vault.rollback, rfl⟩, rfl⟩

lemma afterCommit_alike (h : Matched reserved d d') (faults : AtomFaults) (family : Family)
    (applied : Option Applied) :
    EndAlike reserved (afterCommit N faults family applied d)
      (afterCommit N faults family applied d') := by
  unfold afterCommit
  split
  · exact project_alike N h faults _
  · exact runHook_alike h faults.hook

/-- One turn of the loop over atoms. -/
theorem processAtom_alike (h : Matched reserved d d') (now : ℤ) {ids : AtomIds}
    (hid : ids.message ∉ reserved) (faults : AtomFaults) (atom : Atom) :
    EndAlike reserved (processAtom P S N now ids faults atom d)
      (processAtom P S N now ids faults atom d') := by
  unfold processAtom
  rcases hx : decode P S atom with _ | x
  · exact ⟨h, rfl⟩
  have hbody := h.vault.2.ingestBody P S now atom hid (provider_of_decode hx)
  have hrun := transact_rel faults.evidence h.vault hbody
  revert hrun
  dsimp only
  rcases transact faults.evidence (ingestBody P S ids now atom x) d.vault with ⟨vault, outcome⟩
  rcases transact faults.evidence (ingestBody P S ids now atom x) d'.vault with ⟨vault', outcome'⟩
  rintro ⟨hvault, rfl⟩
  rcases outcome with (_ | applied) | _ | _
  · exact ⟨⟨hvault, h.control⟩, rfl⟩
  · have hcommitted : Matched reserved ⟨vault, d.control⟩ ⟨vault', d'.control⟩ := ⟨hvault, h.control⟩
    have hafter := afterCommit_alike N hcommitted faults x.family applied
    refine ⟨hafter.1, ?_⟩
    dsimp only
    rw [hafter.2]
  · exact ⟨⟨hvault, h.control⟩, rfl⟩
  · exact ⟨⟨hvault, congrArg Conn.rollback h.control⟩, rfl⟩

theorem processAtoms_alike (now : ℤ) {ids : ℕ → AtomIds} (hids : ∀ i, (ids i).message ∉ reserved)
    (faults : ℕ → AtomFaults) (i : ℕ) (atoms : List Atom) (h : Matched reserved d d') :
    EndAlike reserved (processAtoms P S N now ids faults i atoms d)
      (processAtoms P S N now ids faults i atoms d') := by
  induction atoms generalizing i d d' with
  | nil => exact ⟨h, rfl⟩
  | cons atom atoms ih =>
    have hatom := processAtom_alike P S N h now (hids i) (faults i) atom
    unfold processAtoms
    revert hatom
    rcases processAtom P S N now (ids i) (faults i) atom d with ⟨d₁, outcome, log⟩
    rcases processAtom P S N now (ids i) (faults i) atom d' with ⟨d₁', outcome', log'⟩
    rintro ⟨hmatched, hsame⟩
    obtain ⟨rfl, rfl⟩ := Prod.mk.inj hsame
    cases outcome with
    | done =>
      have hrest := ih (i + 1) hmatched
      refine ⟨hrest.1, ?_⟩
      dsimp only
      rw [hrest.2]
    | raised => exact ⟨hmatched, rfl⟩
    | crashed => exact ⟨hmatched, rfl⟩

lemma processPayload_alike (h : Matched reserved d d') (now : ℤ) {ids : ℕ → AtomIds}
    (hids : ∀ i, (ids i).message ∉ reserved) (faults : ℕ → AtomFaults) (plaintext : Bytes) :
    EndAlike reserved (processPayload P S N now ids faults plaintext d)
      (processPayload P S N now ids faults plaintext d') := by
  unfold processPayload
  split
  · exact ⟨h, rfl⟩
  · exact processAtoms_alike P S N now hids faults 0 _ h

/-- A write to the operational tables. -/
lemma disposeAfter_alike (h : Matched reserved d d') (fault : Option Fault)
    {f : Vault → Option Vault}
    (hf : Option.Rel (Alike reserved) (f d.vault.working) (f d'.vault.working))
    (disposition : Disposition) (log : List Event) :
    EndAlike reserved (disposeAfter fault f disposition log d)
      (disposeAfter fault f disposition log d') := by
  have hrun := attempt_rel fault h.vault hf
  unfold disposeAfter
  revert hrun
  rcases attempt fault f d.vault with ⟨vault, outcome⟩
  rcases attempt fault f d'.vault with ⟨vault', outcome'⟩
  rintro ⟨hvault, rfl⟩
  cases outcome with
  | done => exact ⟨⟨hvault, h.control⟩, rfl⟩
  | raised => exact ⟨⟨hvault, h.control⟩, rfl⟩
  | crashed => exact ⟨⟨hvault, congrArg Conn.rollback h.control⟩, rfl⟩

lemma quarantine_alike {v v' : Vault} (h : Alike reserved v v') (envelope : Bytes)
    (failureClass failureCode : String) (now : ℤ) :
    Option.Rel (Alike reserved) (quarantine P envelope failureClass failureCode now v)
      (quarantine P envelope failureClass failureCode now v') := by
  unfold quarantine
  split
  · refine .some ⟨h.left, h.right, h.observed, ?_⟩
    exact congrArg (fun w : Vault => { w with ingestDlq := w.ingestDlq ++
      [dlqRow P envelope failureClass failureCode now] }) h.same
  · exact .none

lemma trip_alike {v v' : Vault} (h : Alike reserved v v') (keyId : ℕ) (now : ℤ) :
    Option.Rel (Alike reserved) (trip keyId now v) (trip keyId now v') := by
  unfold trip
  dsimp only
  split
  · refine .some ⟨h.left, h.right, h.observed, ?_⟩
    have hwrite (circuit : Circuit) := congrArg (fun w : Vault => { w with circuit }) h.same
    exact hwrite _
  · exact .none

/-- The ids drawn for the atoms of a lease are none of an import's. -/
def Unreserved (reserved : Set String) (lease : Lease) : Prop :=
  ∀ i, (lease.ids i).message ∉ reserved

theorem handleLease_alike (h : Matched reserved d d') (r : Drain) {lease : Lease}
    (hids : Unreserved reserved lease) (health : List ℕ) :
    EndAlike reserved (handleLease P S N C r lease health d)
      (handleLease P S N C r lease health d') := by
  unfold handleLease
  split
  · exact ⟨h, rfl⟩
  · exact ⟨h, rfl⟩
  · exact disposeAfter_alike h lease.dlq (quarantine_alike P h.vault.2 _ _ _ _) _ _
  · dsimp only
    split
    · exact disposeAfter_alike h lease.dlq (quarantine_alike P h.vault.2 _ _ _ _) _ _
    · exact disposeAfter_alike h lease.dlq (trip_alike h.vault.2 _ _) _ _
  · rename_i plaintext header hopened
    have hpayload := processPayload_alike P S N h r.now hids lease.faults plaintext
    revert hpayload
    rcases processPayload P S N r.now lease.ids lease.faults plaintext d with ⟨d₁, outcome, log⟩
    rcases processPayload P S N r.now lease.ids lease.faults plaintext d' with ⟨d₁', outcome', log'⟩
    rintro ⟨hmatched, hsame⟩
    obtain ⟨rfl, rfl⟩ := Prod.mk.inj hsame
    cases outcome with
    | done => exact ⟨hmatched, rfl⟩
    | raised => exact ⟨hmatched, rfl⟩
    | crashed => exact ⟨hmatched, rfl⟩

theorem drainLoop_alike (r : Drain) (leases : List Lease)
    (hids : ∀ lease ∈ leases, Unreserved reserved lease) (health : List ℕ)
    (h : Matched reserved d d') :
    EndAlike reserved (drainLoop P S N C r leases health d) (drainLoop P S N C r leases health d') := by
  induction leases generalizing health d d' with
  | nil => exact ⟨h, rfl⟩
  | cons lease leases ih =>
    have hlease := handleLease_alike P S N C h r (hids lease List.mem_cons_self) health
    unfold drainLoop
    revert hlease
    rcases handleLease P S N C r lease health d with ⟨d₁, outcome, log⟩
    rcases handleLease P S N C r lease health d' with ⟨d₁', outcome', log'⟩
    rintro ⟨hmatched, hsame⟩
    obtain ⟨rfl, rfl⟩ := Prod.mk.inj hsame
    have hrest := ih (fun l hl => hids l (List.mem_cons_of_mem _ hl)) (healthAfter P C r lease health)
      hmatched
    rcases outcome with disposition | _ | _
    · cases disposition with
      | halt => exact ⟨hmatched, rfl⟩
      | ack payload =>
        refine ⟨hrest.1, ?_⟩
        dsimp only
        rw [hrest.2]
      | nack =>
        refine ⟨hrest.1, ?_⟩
        dsimp only
        rw [hrest.2]
    · exact ⟨hmatched, rfl⟩
    · exact ⟨hmatched, rfl⟩

theorem drainOnce_alike (h : Matched reserved d d') (r : Drain)
    (hids : ∀ lease ∈ r.leases, Unreserved reserved lease) :
    EndAlike reserved (drainOnce P S N C r d) (drainOnce P S N C r d') := by
  have hcircuit : d.vault.working.circuit = d'.vault.working.circuit := by
    show (unimported d.vault.working).circuit = (unimported d'.vault.working).circuit
    rw [h.vault.2.same]
  unfold drainOnce
  rw [hcircuit]
  split
  · exact ⟨h, rfl⟩
  · have hloop := drainLoop_alike P S N C r r.leases hids r.keyHealth h
    revert hloop
    rcases drainLoop P S N C r r.leases r.keyHealth d with ⟨d₁, outcome, log⟩
    rcases drainLoop P S N C r r.leases r.keyHealth d' with ⟨d₁', outcome', log'⟩
    rintro ⟨hmatched, hsame⟩
    obtain ⟨rfl, rfl⟩ := Prod.mk.inj hsame
    cases outcome with
    | done => exact ⟨hmatched, rfl⟩
    | raised => exact ⟨hmatched, rfl⟩
    | crashed => exact ⟨hmatched, rfl⟩

/-- The operations of the consumer, with the ids they draw. -/
def Op.Unreserved (reserved : Set String) : Op → Prop
  | .drain r => ∀ lease ∈ r.leases, Ingest.Unreserved reserved lease
  | _ => True

theorem step_alike (h : Matched reserved d d') {op : Op} (hop : op.Unreserved reserved) :
    EndAlike reserved (step P S N C d op) (step P S N C d' op) := by
  cases op with
  | drain r => exact drainOnce_alike P S N C h r hop
  | restart => exact ⟨h.restart, rfl⟩
  | resetCircuit =>
    have hreset {v v' : Vault} (hv : Alike reserved v v') :
        Alike reserved (resetCircuit v) (resetCircuit v') :=
      ⟨hv.left, hv.right, hv.observed, congrArg resetCircuit hv.same⟩
    exact ⟨⟨⟨hreset h.vault.1, hreset h.vault.2⟩, h.control⟩, rfl⟩

end Consumer

end WhatsVault.Ingest
