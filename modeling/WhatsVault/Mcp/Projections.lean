import WhatsVault.Importers.Union
import WhatsVault.Mcp.Fence
import WhatsVault.Search.Hits

/-!
# Two projection columns

`messages.delivery_rank` and `conversations.last_message_ms` repeat what other tables say: the highest
status reported of a message, and the time of a conversation's latest message.  Every column has to be
kept by whoever writes or deletes the rows it repeats.  None of the writers does (`unprojected_run`):
in every vault they can leave, the first is zero and the second NULL.

So `search` and `get_messages` show the rank that `get_message_status` returns exactly of the messages
nobody reported a delivery of (`deliveryAgrees_iff`), and `list_chats` is a ranking by recency exactly
where there is nothing to rank (`byRecency_iff`).
-/

namespace WhatsVault.Mcp.Projections

open Transaction
open Ingest (Daemon applyRows withLedger)
open Importers (Importer ImportArgs ImportIds)
open WhatsVault.Search (Raised SearchQuery encoded)

/-! ## The writers of the vault -/

/-- `LOCAL_PHONE_NUMBER_ID`. -/
def localPhoneNumberId : String := "local"

/-- `cmd_accounts_add`. -/
def accountsAdd (id : String) (v : Vault) : Option Vault :=
  (Table.insert Account.id ⟨id, localPhoneNumberId⟩ v.evidence.accounts).map fun accounts =>
    { v with evidence := { v.evidence with accounts } }

/-- `cmd_conversations_add`. -/
def conversationsAdd (id accountId : String) (type : ConversationType) (subject : Option String)
    (v : Vault) : Option Vault :=
  if ∃ a ∈ v.evidence.accounts, a.id = accountId then
    (Table.insert Conversation.id ⟨id, accountId, type, none, subject, none, .allowMcp⟩
      v.evidence.conversations).map fun conversations =>
        { v with evidence := { v.evidence with conversations } }
  else none

def setRow (conversationId : String) (visibility : Visibility) (c : Conversation) : Conversation :=
  if c.id = conversationId then { c with mcpVisibility := visibility } else c

/-- `acl.set_visibility`. -/
def setVisibility (conversationId : String) (visibility : Visibility) (v : Vault) : Vault :=
  let conversations := v.evidence.conversations.map (setRow conversationId visibility)
  { v with evidence := { v.evidence with conversations } }

/-- The consumer, and the commands that write to the vault, each in a process of its own. -/
inductive Label
  | ingest (op : Ingest.Op)
  | importBatch (verdict : Verdict) (args : ImportArgs) (ids : ImportIds)
  | undoBatch (verdict : Verdict) (batchId : String) (nowMs : ℤ)
  | accountsAdd (id : String)
  | conversationsAdd (id accountId : String) (type : ConversationType) (subject : Option String)
  | setVisibility (conversationId : String) (visibility : Visibility)

variable (I : Importer) (S : Stdlib) (C : Sealed.Primitives)

/-- A command on the vault, where it does not find it busy. -/
def command (f : Vault → Option Vault) (d : Daemon) : Daemon :=
  ⟨(elsewhere () (fun c => (c.write f, ())) d.vault).1, d.control⟩

def step (d : Daemon) : Label → Daemon × List Unit
  | .ingest op => ((Ingest.step I.platform S I.normaliser C d op).1, [])
  | .importBatch verdict args ids =>
    (⟨(elsewhere (.error .raised) (Importers.importBatch I verdict args ids) d.vault).1, d.control⟩,
      [])
  | .undoBatch verdict batchId nowMs =>
    (⟨(elsewhere (.error .raised) (Importers.undoBatch verdict batchId nowMs) d.vault).1, d.control⟩,
      [])
  | .accountsAdd id => (command (accountsAdd id) d, [])
  | .conversationsAdd id accountId type subject =>
    (command (conversationsAdd id accountId type subject) d, [])
  | .setVisibility conversationId visibility =>
    (command (fun v => some (setVisibility conversationId visibility v)) d, [])

/-! ## Nobody writes them -/

/-- The two columns as the INSERTs leave them, and the keys of their tables. -/
structure Unprojected (e : Evidence) : Prop where
  messageIds : Table.Unique Message.id e.messages
  conversationIds : Table.Unique Conversation.id e.conversations
  deliveryRank : ∀ m ∈ e.messages, m.deliveryRank = 0
  lastMessageMs : ∀ c ∈ e.conversations, c.lastMessageMs = none

section Writers

variable {I S C} {e e' : Evidence} {v v' : Vault} {args : ImportArgs} {ids : ImportIds}

lemma Unprojected.withMessage (h : Unprojected e) {row : Message}
    (hid : ∀ m ∈ e.messages, m.id ≠ row.id) (hrank : row.deliveryRank = 0) :
    Unprojected { e with messages := e.messages ++ [row] } := by
  refine ⟨h.messageIds.append hid, h.conversationIds, fun m hm => ?_, h.lastMessageMs⟩
  obtain hold | hnew := List.mem_append.mp hm
  · exact h.deliveryRank m hold
  · rw [List.mem_singleton.mp hnew]
    exact hrank

lemma Unprojected.withConversation (h : Unprojected e) {row : Conversation}
    {conversations : List Conversation}
    (hinsert : Table.insert Conversation.id row e.conversations = some conversations)
    (hlast : row.lastMessageMs = none) : Unprojected { e with conversations } := by
  obtain ⟨hid, rfl⟩ := Table.insert_eq_some_iff.mp hinsert
  refine ⟨h.messageIds, h.conversationIds.append hid, h.deliveryRank, fun c hc => ?_⟩
  obtain hold | hnew := List.mem_append.mp hc
  · exact h.lastMessageMs c hold
  · rw [List.mem_singleton.mp hnew]
    exact hlast

lemma Unprojected.getConversation (h : Unprojected e) {accountId id found : String}
    {waChatId : Option String}
    (hget : Ingest.getConversation accountId waChatId id e = some (found, e')) : Unprojected e' := by
  unfold Ingest.getConversation at hget
  split at hget
  · obtain ⟨-, rfl⟩ := Prod.mk.inj (Option.some.inj hget)
    exact h
  · obtain ⟨conversations, hinsert, hget⟩ := Option.bind_eq_some_iff.mp hget
    obtain ⟨-, rfl⟩ := Prod.mk.inj (Option.some.inj hget)
    exact h.withConversation hinsert rfl

lemma Unprojected.applyMessage (h : Unprojected e) {ids : Ingest.AtomIds}
    {rows : Ingest.MessageRows} {applied : Ingest.Applied}
    (happly : Ingest.applyMessage S ids rows e = some (e', applied)) : Unprojected e' := by
  obtain ⟨_, _, _, type, _, _, accountId, e₁, contactId, e₂, conversationId, e₃, -, -, -, -, -, -,
    haccount, hcontact, hconversation, -, hinsert, -⟩ := Ingest.applyMessage_steps happly
  obtain ⟨-, accounts, -, rfl, -⟩ := Ingest.getAccount_eq_some haccount
  obtain ⟨contacts, rfl, -⟩ := Ingest.getContact_eq_some hcontact
  have hbefore : Unprojected
      { e with accounts := e.accounts ++ accounts, contacts := e.contacts ++ contacts } :=
    ⟨h.messageIds, h.conversationIds, h.deliveryRank, h.lastMessageMs⟩
  have hopened := hbefore.getConversation hconversation
  unfold Ingest.insertMessage at hinsert
  rw [Option.ite_none_right_eq_some] at hinsert
  obtain ⟨hfree, hinsert⟩ := hinsert
  obtain rfl := Option.some.inj hinsert
  exact hopened.withMessage (fun m hm => (hfree m hm).1) rfl

lemma Unprojected.applyRows (h : Unprojected e) {ids : Ingest.AtomIds} {rows : Ingest.Rows}
    {applied : Option Ingest.Applied} (happly : applyRows S ids rows e = some (e', applied)) :
    Unprojected e' := by
  cases rows with
  | message rows =>
    obtain ⟨⟨e₁, applied⟩, hstored, hpair⟩ := Option.map_eq_some_iff.mp happly
    obtain ⟨rfl, -⟩ := Prod.mk.inj hpair
    exact h.applyMessage hstored
  | status rows =>
    obtain ⟨e₁, hstored, hpair⟩ := Option.map_eq_some_iff.mp happly
    obtain ⟨rfl, -⟩ := Prod.mk.inj hpair
    obtain ⟨event, -, rfl⟩ := Ingest.applyStatus_eq_some hstored
    exact ⟨h.messageIds, h.conversationIds, h.deliveryRank, h.lastMessageMs⟩
  | none =>
    obtain ⟨rfl, -⟩ := Prod.mk.inj (Option.some.inj happly)
    exact h

lemma Unprojected.observes {participantIds : List (String × String)} {r : Importers.Sent}
    {s s' : Importers.Stage} (hs : Unprojected s.vault.evidence)
    (hturn : Importers.Observes I args ids participantIds r s s') :
    Unprojected s'.vault.evidence := by
  obtain ⟨b, fp, messageId, w, participantId, -, -, hresolves, -, -, hvault⟩ := hturn.turn
  rw [hvault]
  cases hresolves with
  | found => exact hs
  | added n hid => exact hs.withMessage hid rfl

lemma Unprojected.imported (h : Unprojected v.evidence) {records : List (Importers.Record × ℕ)}
    (himport : Importers.Imported I args ids records v v') : Unprojected v'.evidence := by
  obtain ⟨participantIds, participants, s, -, hloop, hsource⟩ := himport.turns
  rw [Importers.addSource_eq_some hsource]
  refine Loop.invariant (f := Importers.importMessage I args ids participantIds)
    (I := fun s => Unprojected s.vault.evidence) (fun s r s' hs hturn => ?_) h hloop
  exact Unprojected.observes hs (Importers.importMessage_eq_some hturn)

lemma Unprojected.undone (h : Unprojected v.evidence) {batchId : String} {nowMs : ℤ}
    (hundo : Importers.Undone batchId nowMs v v') : Unprojected v'.evidence := by
  obtain ⟨messages, hevidence, hsub⟩ := hundo.evidence
  rw [hevidence]
  exact ⟨h.messageIds.sublist (hsub.map _), h.conversationIds,
    fun m hm => h.deliveryRank m (hsub.subset hm), h.lastMessageMs⟩

lemma Unprojected.setVisibility (h : Unprojected v.evidence) (conversationId : String)
    (visibility : Visibility) :
    Unprojected (setVisibility conversationId visibility v).evidence := by
  have hid : ∀ c, (setRow conversationId visibility c).id = c.id := fun c => by
    unfold setRow
    split
    · rfl
    · rfl
  have hlast : ∀ c, (setRow conversationId visibility c).lastMessageMs = c.lastMessageMs := fun c => by
    unfold setRow
    split
    · rfl
    · rfl
  refine ⟨h.messageIds, ?_, h.deliveryRank, fun c hc => ?_⟩
  · have hids : Conversation.id ∘ setRow conversationId visibility = Conversation.id := funext hid
    have hunique := h.conversationIds
    unfold Table.Unique at hunique ⊢
    rwa [Projections.setVisibility, List.map_map, hids]
  · obtain ⟨c', hc', rfl⟩ := List.mem_map.mp hc
    rw [hlast]
    exact h.lastMessageMs c' hc'

/-- What a call elsewhere keeps of the committed state, it keeps of the database. -/
lemma holds_elsewhere {α : Type} {J : Vault → Prop} {c : Conn Vault} (h : c.Holds J) (busy : α)
    {f : Conn Vault → Conn Vault × α} (hf : (f c).1.Holds J) : (elsewhere busy f c).1.Holds J := by
  unfold elsewhere
  split
  · exact Conn.holds_clean hf.1
  · exact h

lemma holds_command {f : Vault → Option Vault} {d : Daemon}
    (hf : ∀ v v', Unprojected v.evidence → f v = some v' → Unprojected v'.evidence)
    (h : d.vault.Holds fun v => Unprojected v.evidence) :
    (command f d).vault.Holds fun v => Unprojected v.evidence :=
  holds_elsewhere h () (h.write fun v hwrote => hf _ v h.2 hwrote)

lemma unprojected_step {d : Daemon} (h : d.vault.Holds fun v => Unprojected v.evidence)
    (label : Label) : (step I S C d label).1.vault.Holds fun v => Unprojected v.evidence := by
  cases label with
  | ingest op =>
    refine Ingest.evidence_step (fun ids rows e e' applied he happly => he.applyRows happly) ?_ h op
    exact fun e event he => ⟨he.messageIds, he.conversationIds, he.deliveryRank, he.lastMessageMs⟩
  | importBatch verdict args ids =>
    refine holds_elsewhere h _ ?_
    obtain ⟨records, v, summary, -, hbody, hrun⟩ | ⟨stop, -, hsame | hrolled⟩ :=
      Importers.importBatch_cases I verdict args ids d.vault
    · rw [hrun]
      exact Conn.holds_clean (Unprojected.imported h.2 (Importers.importBody_eq_some hbody))
    · rw [hsame]
      exact h
    · rw [hrolled]
      exact h.rollback
  | undoBatch verdict batchId nowMs =>
    refine holds_elsewhere h _ ?_
    obtain ⟨v, summary, -, hbody, hrun⟩ | ⟨stop, -, hrolled⟩ :=
      Importers.undoBatch_cases verdict batchId nowMs d.vault
    · rw [hrun]
      have hundone := Importers.undoBody_eq_some h.2.messageIds hbody
      exact Conn.holds_clean (Unprojected.undone h.2 hundone)
    · rw [hrolled]
      exact h.rollback
  | accountsAdd id =>
    refine holds_command (fun v v' hv hadd => ?_) h
    obtain ⟨accounts, -, rfl⟩ := Option.map_eq_some_iff.mp hadd
    exact ⟨hv.messageIds, hv.conversationIds, hv.deliveryRank, hv.lastMessageMs⟩
  | conversationsAdd id accountId type subject =>
    refine holds_command (fun v v' hv hadd => ?_) h
    unfold Projections.conversationsAdd at hadd
    rw [Option.ite_none_right_eq_some] at hadd
    obtain ⟨conversations, hinsert, rfl⟩ := Option.map_eq_some_iff.mp hadd.2
    exact hv.withConversation hinsert rfl
  | setVisibility conversationId visibility =>
    refine holds_command (fun v v' hv hset => ?_) h
    obtain rfl := Option.some.inj hset
    exact hv.setVisibility conversationId visibility

/-- In no vault that the writers leave is either column kept. -/
theorem unprojected_run (I : Importer) (S : Stdlib) (C : Sealed.Primitives) (labels : List Label) :
    Unprojected (Run.final (step I S C) Ingest.start labels).vault.durable.evidence := by
  have hstart : Ingest.start.vault.Holds fun v => Unprojected v.evidence :=
    Conn.holds_clean ⟨Table.unique_nil _, Table.unique_nil _, (by simp [Vault.empty]),
      (by simp [Vault.empty])⟩
  have hrun : (Run.final (step I S C) Ingest.start labels).vault.Holds
      fun v : Vault => Unprojected v.evidence :=
    Run.invariant (I := fun d : Daemon => d.vault.Holds fun v : Vault => Unprojected v.evidence)
      (fun d label h => unprojected_step h label) hstart labels
  exact hrun.1

end Writers

/-! ## The delivery rank -/

section Delivery

variable {ρ : Type} {R : Runtime ρ} {v : Vault} {m : Message}

/-- The two views of a delivery agree: `search` and `get_messages` show messages the MCP may see, and
of those with a wamid the rank that `get_message_status` returns. -/
structure DeliveryAgrees [LinearOrder ρ] (R : Runtime ρ) (v : Vault) : Prop where
  hits : ∀ q hits, search R q v = .ok hits → ∀ h ∈ hits, ∃ m ∈ shownMessages v, h.view = view R v m
  messages : ∀ conversationId fromMs toMs limit rows,
    getMessages R conversationId fromMs toMs limit v = .ok rows →
      ∀ row ∈ rows, ∃ m ∈ shownMessages v, row = view R v m
  rank : ∀ m ∈ shownMessages v, m.wamid ≠ none → ∃ r, getMessageStatus (.text m.id) v = .ok (some r) ∧
    (view R v m).deliveryRank = r.deliveryRank

lemma statusRank_pos {status : String} {rank : ℕ} (h : Ingest.statusRank status = some rank) :
    0 < rank := by
  obtain ⟨before, after, htable, -⟩ := List.lookup_eq_some_iff.mp h
  have hmem : (status, rank) ∈ [("sent", 1), ("delivered", 2), ("read", 3)] := by
    rw [htable]
    exact List.mem_append_right _ List.mem_cons_self
  have hpositive : ∀ row ∈ [("sent", 1), ("delivered", 2), ("read", 3)], 0 < row.2 := by decide
  exact hpositive _ hmem

/-- The reduced rank is zero where no event has one. -/
lemma deliveryRank_eq_zero (events : List StatusEvent) :
    (Ingest.reduceStatus events).deliveryRank = 0 ↔
      ∀ e ∈ events, Ingest.statusRank e.status = none := by
  have hfold (r : Ingest.Reduced) : (events.foldl Ingest.Reduced.add r).deliveryRank = 0 ↔
      r.deliveryRank = 0 ∧ ∀ e ∈ events, Ingest.statusRank e.status = none := by
    induction events generalizing r with
    | nil => simp
    | cons e events ih =>
      rw [List.foldl_cons, ih, List.forall_mem_cons, ← and_assoc]
      refine and_congr_left fun _ => ?_
      unfold Ingest.Reduced.add
      rcases hrank : Ingest.statusRank e.status with _ | rank
      · simp only [and_true]
        split
        · rfl
        · split
          · rfl
          · rfl
      · have hpos := statusRank_pos hrank
        simp only [reduceCtorEq, and_false, iff_false]
        omega
  exact (hfold .none).trans (by simp [Ingest.Reduced.none])

lemma getMessageStatus_shown (hunique : Table.Unique Message.id v.evidence.messages)
    (hm : m ∈ shownMessages v) :
    getMessageStatus (.text m.id) v = .ok (some (statusOf v m)) := by
  obtain ⟨hmem, hshown⟩ := List.mem_filter.mp hm
  have hfound : v.message m.id = some m := hunique.find_eq_some_iff.mpr ⟨hmem, rfl⟩
  have hencoded : encoded (.text m.id) = .ok m.id := rfl
  rw [getMessageStatus_eq_map, hencoded]
  simp only [Except.map, hfound, Option.filter_some, hshown, if_true, Option.map_some]

/-- A delivery was reported of the message. -/
def Reported (v : Vault) (m : Message) : Prop :=
  ∃ wamid, nonempty m.wamid = some wamid ∧ ∃ e ∈ v.evidence.statusEvents,
    e.wamid = wamid ∧ Ingest.statusRank e.status ≠ none

lemma statusOf_eq_zero : (statusOf v m).deliveryRank = 0 ↔ ¬ Reported v m := by
  unfold statusOf Reported
  cases nonempty m.wamid with
  | none => simp [Ingest.Reduced.none]
  | some wamid =>
    rw [deliveryRank_eq_zero]
    simp only [List.mem_filter, decide_eq_true_eq, Option.some.injEq, exists_eq_left', not_exists,
      not_and, not_not]
    constructor
    · intro h e he hwamid
      exact h e ⟨he, hwamid⟩
    · rintro h e ⟨he, hwamid⟩
      exact h e he hwamid

/-- What `search` shows, and of which messages. -/
lemma shown_of_search [LinearOrder ρ] {q : SearchQuery} {hits : List (Hit ρ)}
    (h : search R q v = .ok hits) {hit : Hit ρ} (hhit : hit ∈ hits) :
    ∃ m ∈ shownMessages v, hit.view = view R v m := by
  simp only [search, Checks.bind_eq_ok, Checks.pure_eq_ok] at h
  obtain ⟨rows, hrows, rfl⟩ := h
  obtain ⟨r, hr, htohit⟩ := List.mem_filterMap.mp hhit
  obtain ⟨matchText, f, hrow⟩ := Search.mem_run hrows hr
  obtain ⟨d, -, hjoined⟩ := (Search.mem_tierRows R.fts).mp hrow.row
  obtain ⟨hid, -, m, hm, hconversation⟩ := Search.joinedRow_eq_some R.fts hjoined
  unfold toHit at htohit
  split at htohit
  · cases htohit
  · rename_i hvisible
    rw [hid, hm] at htohit
    obtain rfl := Option.some.inj htohit
    refine ⟨m, List.mem_filter.mpr ⟨(Table.mem_of_find_eq_some hm).1, ?_⟩, rfl⟩
    rw [isShown, ← hconversation]
    simpa using hvisible

lemma shown_of_getMessages (hunique : Table.Unique Conversation.id v.evidence.conversations)
    {conversationId : PyStr} {fromMs toMs : Option ℤ} {limit : Json} {rows : List MessageView}
    (h : getMessages R conversationId fromMs toMs limit v = .ok rows) {row : MessageView}
    (hrow : row ∈ rows) : ∃ m ∈ shownMessages v, row = view R v m := by
  simp only [getMessages, Checks.bind_eq_ok] at h
  obtain ⟨id, -, h⟩ := h
  split at h
  · rw [Checks.pure_eq_ok] at h
    subst h
    cases hrow
  rename_i c hc
  split at h
  · rw [Checks.pure_eq_ok] at h
    subst h
    cases hrow
  rename_i hvisible
  simp only [Checks.bind_eq_ok, Checks.pure_eq_ok] at h
  obtain ⟨n, -, fromMs, -, toMs, -, rfl⟩ := h
  obtain ⟨m, hm, rfl⟩ := List.mem_map.mp hrow
  have hmem := (Ranking.mem_sortBy _).mp (List.mem_of_mem_take hm)
  have hid : id ∉ localOnlyIds v := by
    intro hlocal
    obtain ⟨c', hc', hsame⟩ := List.mem_map.mp hlocal
    obtain ⟨hmem', hmarked⟩ := List.mem_filter.mp hc'
    have hfound : v.conversation id = some c' := hunique.find_eq_some_iff.mpr ⟨hmem', hsame⟩
    obtain rfl := Option.some.inj (hc.symm.trans hfound)
    exact hvisible (of_decide_eq_true hmarked)
  rw [filter_inConversation hid] at hmem
  exact ⟨m, List.mem_of_mem_filter hmem, rfl⟩

/-- **The two views of a delivery.**  In a vault that the writers left, they agree exactly where no
status event says of a message the MCP may see that it was sent, delivered or read. -/
theorem deliveryAgrees_iff [LinearOrder ρ] (R : Runtime ρ) (I : Importer) (S : Stdlib)
    (C : Sealed.Primitives) (labels : List Label) :
    DeliveryAgrees R (Run.final (step I S C) Ingest.start labels).vault.durable ↔
      ∀ m ∈ shownMessages (Run.final (step I S C) Ingest.start labels).vault.durable,
        ¬ Reported (Run.final (step I S C) Ingest.start labels).vault.durable m := by
  have hrun := unprojected_run I S C labels
  generalize (Run.final (step I S C) Ingest.start labels).vault.durable = v at hrun ⊢
  have hview : ∀ m ∈ shownMessages v, (view R v m).deliveryRank = 0 := fun m hm =>
    hrun.deliveryRank m (List.mem_of_mem_filter hm)
  constructor
  · intro hagrees m hm hreported
    have hwamid : m.wamid ≠ none := by
      obtain ⟨wamid, hwamid, -⟩ := hreported
      intro hnone
      rw [hnone] at hwamid
      cases hwamid
    obtain ⟨r, hstatus, hrank⟩ := hagrees.rank m hm hwamid
    rw [getMessageStatus_shown hrun.messageIds hm] at hstatus
    obtain rfl := Option.some.inj (Except.ok.inj hstatus)
    rw [hview m hm] at hrank
    exact statusOf_eq_zero.mp hrank.symm hreported
  · intro hnone
    refine ⟨fun q hits h hit hhit => shown_of_search h hhit,
      fun _ _ _ _ rows h row hrow => shown_of_getMessages hrun.conversationIds h hrow,
      fun m hm _ => ⟨statusOf v m, getMessageStatus_shown hrun.messageIds hm, ?_⟩⟩
    rw [hview m hm, statusOf_eq_zero.mpr (hnone m hm)]

end Delivery

/-! ## The latest message -/

section Recency

variable {ρ : Type} {R : Runtime ρ} {v : Vault}

/-- The time of the latest message of a conversation, `⊥` where it has none. -/
def latestMs (v : Vault) (conversationId : String) : WithBot ℤ :=
  ((v.evidence.messages.filter fun m => m.conversationId = conversationId).map
    Message.tsLowerMs).max?.elim ⊥ fun ms => (ms : WithBot ℤ)

/-- The pattern `list_chats` binds for a query. -/
def chatPattern (query : Option PyStr) : Except Raised (Option String) := do
  let pattern ← (WhatsVault.Search.given query).mapM encoded
  pure (pattern.map fun s => "%" ++ s ++ "%")

/-- The conversations a call of `list_chats` may return. -/
def listed (R : Runtime ρ) (pattern : Option String) (v : Vault) : List Conversation :=
  v.evidence.conversations.filter (isListed R pattern)

/-- The latest first. -/
def latestFirst (v : Vault) (c : Conversation) : OrderDual (WithBot ℤ) :=
  OrderDual.toDual (latestMs v c.id)

/-- What a call of `list_chats` returns is the head of a ranking by the latest message, as long as its
limit admits, and it reports the time of that message. -/
structure Recent (R : Runtime ρ) (v : Vault) (pattern : Option String) (n : ℕ)
    (top : List Conversation) : Prop where
  leads : Ranking.Leads (latestFirst v) (listed R pattern v) top
  filled : top.length = min n (listed R pattern v).length
  reported : ∀ c ∈ top, c.lastMessageMs.elim ⊥ (fun ms => (ms : WithBot ℤ)) = latestMs v c.id

def ByRecency (R : Runtime ρ) (v : Vault) (query : Option PyStr) (limit : Json) : Prop :=
  ∀ rows, listChats R query limit v = .ok rows → ∀ n pattern, clamp R limit = .ok n →
    chatPattern query = .ok pattern → ∃ top, rows = top.map chatView ∧ Recent R v pattern n top

lemma listChats_eq_ok {query : Option PyStr} {limit : Json} {rows : List ChatView} :
    listChats R query limit v = .ok rows ↔ ∃ n pattern, clamp R limit = .ok n ∧
      chatPattern query = .ok pattern ∧
        rows = ((Ranking.sortBy recency (listed R pattern v)).take n).map chatView := by
  simp only [listChats, chatPattern, listed, Checks.bind_eq_ok, Checks.pure_eq_ok]
  constructor
  · rintro ⟨n, hn, pattern, hpattern, rfl⟩
    exact ⟨n, _, hn, ⟨pattern, hpattern, rfl⟩, rfl⟩
  · rintro ⟨n, _, hn, ⟨pattern, hpattern, rfl⟩, rfl⟩
    exact ⟨n, hn, pattern, hpattern, rfl⟩

/-- Every limit that is accepted admits a row. -/
lemma clamp_pos {limit : Json} {n : ℕ} (h : clamp R limit = .ok n) : 0 < n := by
  unfold clamp at h
  split at h
  · cases h
  · simp only [Checks.bind_eq_ok, Checks.pure_eq_ok] at h
    obtain ⟨k, -, rfl⟩ := h
    omega

lemma latestMs_eq_bot {conversationId : String} : latestMs v conversationId = ⊥ ↔
    ∀ m ∈ v.evidence.messages, m.conversationId ≠ conversationId := by
  have hbot : ∀ latest : Option ℤ,
      latest.elim ⊥ (fun ms => (ms : WithBot ℤ)) = ⊥ ↔ latest = none := by
    rintro (_ | ms)
    · simp
    · simp
  rw [latestMs, hbot, List.max?_eq_none_iff, List.map_eq_nil_iff, List.filter_eq_nil_iff]
  simp

/-- **Recency.**  In a vault that the writers left, `list_chats` orders by recency exactly where none of
the conversations it lists, shown or cut off, contains a message. -/
theorem byRecency_iff (R : Runtime ρ) (I : Importer) (S : Stdlib) (C : Sealed.Primitives)
    (labels : List Label) (query : Option PyStr) (limit : Json) :
    ByRecency R (Run.final (step I S C) Ingest.start labels).vault.durable query limit ↔
      ∀ n pattern, clamp R limit = .ok n → chatPattern query = .ok pattern →
        ∀ c ∈ listed R pattern (Run.final (step I S C) Ingest.start labels).vault.durable,
          ∀ m ∈ (Run.final (step I S C) Ingest.start labels).vault.durable.evidence.messages,
            m.conversationId ≠ c.id := by
  have hrun := unprojected_run I S C labels
  generalize (Run.final (step I S C) Ingest.start labels).vault.durable = v at hrun ⊢
  have hnull : ∀ pattern, ∀ c ∈ listed R pattern v,
      c.lastMessageMs.elim ⊥ (fun ms => (ms : WithBot ℤ)) = ⊥ := by
    intro pattern c hc
    rw [hrun.lastMessageMs c (List.mem_of_mem_filter hc)]
    rfl
  constructor
  · intro hrecent n pattern hn hpattern c hc
    rw [← latestMs_eq_bot]
    obtain ⟨top, -, htop⟩ := hrecent _ (listChats_eq_ok.mpr ⟨n, pattern, hn, hpattern, rfl⟩) n pattern
      hn hpattern
    have hbot : ∀ c ∈ top, latestMs v c.id = ⊥ := by
      intro c hc
      rw [← htop.reported c hc]
      exact hnull pattern c (htop.leads.subset c hc)
    by_cases hshown : c ∈ top
    · exact hbot c hshown
    · -- A conversation that was cut off is no later than the first row, which has no message.
      have hsome : 0 < top.length := by
        rw [htop.filled]
        exact Nat.lt_min.mpr ⟨clamp_pos hn, List.length_pos_of_mem hc⟩
      have hfirst := List.getElem_mem hsome
      have hle := htop.leads.best c hc hshown _ hfirst
      simp only [latestFirst, OrderDual.toDual_le_toDual, hbot _ hfirst] at hle
      exact le_bot_iff.mp hle
  · intro hempty rows hrows n pattern hn hpattern
    obtain ⟨n', pattern', hn', hpattern', rfl⟩ := listChats_eq_ok.mp hrows
    obtain rfl := Except.ok.inj (hn.symm.trans hn')
    obtain rfl := Except.ok.inj (hpattern.symm.trans hpattern')
    have hbot : ∀ c ∈ listed R pattern v, latestMs v c.id = ⊥ := fun c hc =>
      latestMs_eq_bot.mpr (hempty n pattern hn hpattern c hc)
    have hleads := Ranking.leads_take recency (listed R pattern v) n
    have hsame : ∀ c ∈ listed R pattern v, latestFirst v c = recency c := by
      intro c hc
      rw [latestFirst, hbot c hc, recency, hnull pattern c hc]
    refine ⟨_, rfl, ⟨?_, hleads.subset, ?_⟩, ?_, ?_⟩
    · refine hleads.sorted.imp_of_mem fun {c c'} hc hc' hle => ?_
      rwa [hsame c (hleads.subset c hc), hsame c' (hleads.subset c' hc')]
    · intro c hc hleft c' hc'
      rw [hsame c hc, hsame c' (hleads.subset c' hc')]
      exact hleads.best c hc hleft c' hc'
    · rw [List.length_take, (Ranking.perm_sortBy _ _).length_eq]
    · intro c hc
      rw [hnull pattern c (hleads.subset c hc), hbot c (hleads.subset c hc)]

end Recency

/-! ## Two messages, one of them delivered -/

section Sample

open Ingest (field text)

/-- A text message from a sender. -/
def sampleSent (sender wamid timestamp : String) : Json :=
  .obj [field "from" (text sender), field "id" (text wamid), field "timestamp" (text timestamp),
    field "text" (.obj [field "body" (text "hello")]), field "type" (text "text")]

/-- The first message was delivered, and the second is ten seconds younger. -/
def samplePayload : Json :=
  .obj [field "entry" (.arr [.obj [field "changes" (.arr [.obj [field "value"
    (.obj [field "metadata" (.obj [field "phone_number_id" (text "PN1")]),
      field "messages" (.arr [sampleSent "61400" "wamid.X" "1700000000",
        sampleSent "61401" "wamid.Y" "1700000010"]),
      field "statuses" (.arr [.obj [field "id" (text "wamid.X"), field "status" (text "delivered"),
        field "timestamp" (text "1700000002"), field "recipient_id" (text "61400")]])])]])]])]

/-- The library functions where every plaintext is that payload. -/
def sampleStdlib : Stdlib := { Ingest.sampleStdlib with loads := fun _ => some samplePayload }

/-- The vault after that payload. -/
def sampleReceived : Vault :=
  (Run.final (step Importers.sampleImporter sampleStdlib Ingest.samplePrimitives) Ingest.start
    [.ingest (Ingest.sampleDrain [] {})]).vault.durable

/-- The message is shown with rank 0, and its status has rank 2. -/
theorem delivered_shown_unknown :
    ((getMessages sampleRuntime (.text "cnv_1") none none (.int 50) sampleReceived).map fun rows =>
      rows.map fun row => (row.messageId, row.deliveryRank)) = .ok [("msg_1", 0)] ∧
    ((getMessageStatus (.text "msg_1") sampleReceived).map fun r => r.map Ingest.Reduced.deliveryRank) =
      .ok (some 2) ∧
    ¬ DeliveryAgrees sampleRuntime sampleReceived := by
  -- one evaluation of the run for the three reads of its vault
  obtain ⟨hrows, hstatus, hmessages⟩ :
      ((getMessages sampleRuntime (.text "cnv_1") none none (.int 50) sampleReceived).map
        fun rows => rows.map fun row => (row.messageId, row.deliveryRank)) = .ok [("msg_1", 0)] ∧
      ((getMessageStatus (.text "msg_1") sampleReceived).map fun r =>
        r.map Ingest.Reduced.deliveryRank) = .ok (some 2) ∧
      (shownMessages sampleReceived).map (fun m => (m.id, m.wamid, m.deliveryRank)) =
        [("msg_1", some "wamid.X", 0), ("msg_11", some "wamid.Y", 0)] := by decide +kernel
  refine ⟨hrows, hstatus, fun hagrees => ?_⟩
  have hmem : ("msg_1", some "wamid.X", 0) ∈
      (shownMessages sampleReceived).map fun m => (m.id, m.wamid, m.deliveryRank) := by
    rw [hmessages]
    exact List.mem_cons_self
  obtain ⟨m, hm, hcolumns⟩ := List.mem_map.mp hmem
  simp only [Prod.mk.injEq] at hcolumns
  obtain ⟨hid, hwamid, hrank⟩ := hcolumns
  obtain ⟨r, hr, hsame⟩ := hagrees.rank m hm (by rw [hwamid]; exact Option.some_ne_none _)
  rw [hid] at hr
  rw [hr] at hstatus
  have htwo : r.deliveryRank = 2 := Option.some.inj (Except.ok.inj hstatus)
  have hzero : (view sampleRuntime sampleReceived m).deliveryRank = m.deliveryRank := rfl
  omega

/-- With a limit of one the older of two conversations is returned, without a time. -/
theorem older_chat_listed :
    (listChats sampleRuntime none (.int 1) sampleReceived).map (fun rows =>
      rows.map fun row => (row.conversationId, row.lastMessageMs)) = .ok [("cnv_1", none)] ∧
    latestMs sampleReceived "cnv_1" = (1700000000000 : ℤ) ∧
    latestMs sampleReceived "cnv_11" = (1700000010000 : ℤ) ∧
    ¬ ByRecency sampleRuntime sampleReceived none (.int 1) := by
  obtain ⟨hrows, hlatest, hyounger⟩ :
      (listChats sampleRuntime none (.int 1) sampleReceived).map (fun rows =>
        rows.map fun row => (row.conversationId, row.lastMessageMs)) = .ok [("cnv_1", none)] ∧
      latestMs sampleReceived "cnv_1" = (1700000000000 : ℤ) ∧
      latestMs sampleReceived "cnv_11" = (1700000010000 : ℤ) := by decide +kernel
  refine ⟨hrows, hlatest, hyounger, fun hrecent => ?_⟩
  cases hlisted : listChats sampleRuntime none (.int 1) sampleReceived with
  | error e =>
    rw [hlisted] at hrows
    cases hrows
  | ok rows =>
    rw [hlisted] at hrows
    obtain ⟨top, rfl, htop⟩ := hrecent rows hlisted 1 none rfl rfl
    have hcolumns : (top.map chatView).map (fun row => (row.conversationId, row.lastMessageMs)) =
        [("cnv_1", none)] := Except.ok.inj hrows
    rw [List.map_map] at hcolumns
    obtain ⟨c, hc, hrow⟩ := List.mem_map.mp (hcolumns ▸ List.mem_singleton_self ("cnv_1", none))
    simp only [Function.comp_apply, chatView, Prod.mk.injEq] at hrow
    have hreported := htop.reported c hc
    rw [hrow.1, hrow.2, hlatest] at hreported
    exact absurd hreported (by decide)

end Sample

end WhatsVault.Mcp.Projections
