import WhatsVault.Mcp.Fence

/-!
# What leaves in a response

The six read tools return trees of dictionaries and lists.  Here a string of such a tree says where
it comes from, and `bare` lists the strings that stand outside an untrusted wrapper.  The views of
messages and of chats put nothing bare but ids, words of the schema, handles and masked tails.  Two
tools hand strings of Meta through as they are: a delivery status that `reduce_status` does not know,
and every field of a template.  `responses_contained_iff` says that nothing else escapes.
-/

namespace WhatsVault.Mcp

open WhatsVault.Search (Raised Tier encoded)

/-! ## Trees -/

/-- Where a string of a response comes from. -/
inductive Source
  | internalId
  | vocabulary
  | handle
  | maskedTail
  | remote
  deriving DecidableEq

/-- What a tool returns, with ranks of type `ρ`. -/
inductive Value (ρ : Type)
  | null
  | bool (b : Bool)
  | int (n : ℤ)
  | rank (r : ρ)
  | str (source : Source) (text : String)
  | list (items : List (Value ρ))
  | dict (fields : List (String × Value ρ))

namespace Value

variable {ρ : Type}

/-- Whether a dictionary is `{"_wv_untrusted": True, "text": …}`. -/
def isWrapper : List (String × Value ρ) → Bool
  | [(mark, bool true), (key, str _ _)] => mark = "_wv_untrusted" ∧ key = "text"
  | _ => false

mutual
/-- The strings of a value outside its wrappers. -/
def bare : Value ρ → List (Source × String)
  | str source text => [(source, text)]
  | list items => bareItems items
  | dict fields => if isWrapper fields then [] else bareFields fields
  | _ => []

def bareItems : List (Value ρ) → List (Source × String)
  | [] => []
  | x :: xs => x.bare ++ bareItems xs

def bareFields : List (String × Value ρ) → List (Source × String)
  | [] => []
  | (_, x) :: fields => x.bare ++ bareFields fields
end

/-- A value, or `None`. -/
def opt {α : Type} (f : α → Value ρ) (x : Option α) : Value ρ := x.elim null f

/-- `untrusted(text)`. -/
def wrapped (u : Option Untrusted) : Value ρ :=
  opt (fun u => dict [("_wv_untrusted", bool true), ("text", str .remote u.text)]) u

lemma bareItems_eq (items : List (Value ρ)) : bareItems items = items.flatMap bare := by
  induction items with
  | nil => rfl
  | cons x xs ih => rw [bareItems, ih, List.flatMap_cons]

lemma mem_bareFields {fields : List (String × Value ρ)} {p : Source × String} :
    p ∈ bareFields fields ↔ ∃ field ∈ fields, p ∈ field.2.bare := by
  induction fields with
  | nil => simp [bareFields]
  | cons field fields ih =>
    obtain ⟨key, x⟩ := field
    rw [bareFields, List.mem_append, ih]
    simp only [List.mem_cons, exists_eq_or_imp]

lemma mem_bare_list {items : List (Value ρ)} {p : Source × String} :
    p ∈ (list items).bare ↔ ∃ x ∈ items, p ∈ x.bare := by
  rw [bare, bareItems_eq, List.mem_flatMap]

lemma mem_bare_dict {fields : List (String × Value ρ)} (h : isWrapper fields = false)
    {p : Source × String} : p ∈ (dict fields).bare ↔ ∃ field ∈ fields, p ∈ field.2.bare := by
  rw [bare, h, if_neg Bool.false_ne_true, mem_bareFields]

lemma bare_wrapped (u : Option Untrusted) : (wrapped u : Value ρ).bare = [] := by
  cases u with
  | none => rfl
  | some u => rfl

end Value

/-! ## The responses as trees -/

section Trees

open Value

variable {ρ : Type}

def ContactRef.tree (c : ContactRef) : Value ρ := dict
  [("contact_id", str .internalId c.contactId),
    ("display_name", wrapped c.displayName),
    ("push_name", wrapped c.pushName),
    ("wa_tail", opt (str .maskedTail) c.waTail)]

def MessageView.fields (m : MessageView) : List (String × Value ρ) :=
  [("message_id", str .internalId m.messageId),
    ("conversation_id", str .internalId m.conversationId),
    ("direction", str .vocabulary m.direction),
    ("ts_lower_ms", int m.tsLowerMs),
    ("ts_upper_ms_exclusive", int m.tsUpperMsExclusive),
    ("ts_precision", str .vocabulary m.tsPrecision),
    ("delivery_rank", int m.deliveryRank),
    ("reply_to_ref", opt (str .handle) m.replyToRef),
    ("body", wrapped m.body),
    ("contact", opt ContactRef.tree m.contact)]

def tierName : Tier → String
  | .lexical => "lexical"
  | .compact => "compact"

def Hit.tree (h : Hit ρ) : Value ρ :=
  dict (h.view.fields ++ [("rank", .rank h.rank), ("tier", str .vocabulary (tierName h.tier))])

def ChatView.tree (c : ChatView) : Value ρ := dict
  [("conversation_id", str .internalId c.conversationId),
    ("type", str .vocabulary c.type),
    ("subject", wrapped c.subject),
    ("last_message_ms", opt int c.lastMessageMs)]

def reducedTree (r : Ingest.Reduced) : Value ρ := dict
  [("delivery_rank", int r.deliveryRank),
    ("failed_at_ms", opt int r.failedAtMs),
    ("deleted_at_ms", opt int r.deletedAtMs),
    ("unknown_statuses", list (r.unknownStatuses.map (str .remote)))]

def WindowView.tree (w : WindowView) : Value ρ := dict
  [("open", bool w.isOpen), ("last_inbound_ms", int w.lastInboundMs),
    ("closes_at_ms", int w.closesAtMs)]

def Answer.tree : Answer ρ → Value ρ
  | hits rows => list (rows.map Hit.tree)
  | messages rows => list (rows.map fun m => dict m.fields)
  | chats rows => list (rows.map ChatView.tree)
  | status reduced => opt reducedTree reduced
  | window row => row.tree

/-- A row of `templates`, with the category no other reader looks at. -/
structure CatalogueRow extends Template where
  category : Option String

/-- The databases with the template catalogue, `none` where the table does not exist. -/
structure ReadState extends Databases where
  catalogue : Option (List CatalogueRow)
  catalogue_templates :
    (catalogue.getD []).map CatalogueRow.toTemplate = toDatabases.control.templates

/-- `dict(row)` of a template: all of it was synchronised from Meta but its own id. -/
def CatalogueRow.tree (row : CatalogueRow) : Value ρ := dict
  [("template_id", str .internalId row.templateId),
    ("name", str .remote row.name),
    ("language", str .remote row.language),
    ("category", opt (str .remote) row.category),
    ("status", str .remote row.status)]

/-- `list_templates`. -/
def listTemplates (s : ReadState) : Value ρ :=
  match s.catalogue with
  | none => dict [("status", str .vocabulary "FEATURE_NOT_INITIALISED"), ("templates", list [])]
  | some rows =>
    dict [("status", str .vocabulary "OK"), ("templates", list (rows.map CatalogueRow.tree))]

/-- A call of one of the six tools. -/
inductive Request
  | call (c : Call)
  | listTemplates

def respond [LinearOrder ρ] (R : Runtime ρ) (s : ReadState) : Request → Except Raised (Value ρ)
  | .call c => (answer R s.toDatabases c).map Answer.tree
  | .listTemplates => .ok (listTemplates s)

end Trees

/-! ## What may stand bare -/

/-- The values of the id columns. -/
def internalIds (s : ReadState) : List String :=
  s.vault.evidence.messages.map Message.id ++ s.vault.evidence.messages.map Message.conversationId ++
    s.vault.evidence.conversations.map Conversation.id ++ s.vault.evidence.contacts.map Contact.id ++
    s.control.templates.map Template.templateId

/-- The words a direction, a type, a precision, a tier and a status of the tools are written in. -/
def vocabulary : List String :=
  ["in", "out", "dm", "group", "ms", "s", "min", "day", "lexical", "compact", "OK",
    "FEATURE_NOT_INITIALISED"]

section Contained

variable {ρ : Type} (R : Runtime ρ) (s : ReadState)

/-- A string that may stand outside a wrapper: it is what it is said to be, and not remote. -/
def Allowed : Source → String → Prop
  | .internalId, text => text ∈ internalIds s
  | .vocabulary, text => text ∈ vocabulary
  | .handle, text => ∃ value, opaqueRef R.platform value = some text
  | .maskedTail, text => ∃ waId, maskWaId R.isDigit waId = some text
  | .remote, _ => False

/-- Nothing remote stands outside a wrapper. -/
def Contained (x : Value ρ) : Prop := ∀ p ∈ x.bare, Allowed R s p.1 p.2

variable {R s}

lemma contained_str {source : Source} {text : String} :
    Contained R s (.str source text) ↔ Allowed R s source text := by
  simp [Contained, Value.bare]

lemma contained_list {items : List (Value ρ)} :
    Contained R s (.list items) ↔ ∀ x ∈ items, Contained R s x := by
  simp only [Contained, Value.mem_bare_list]
  constructor
  · intro h x hx p hp
    exact h p ⟨x, hx, hp⟩
  · rintro h p ⟨x, hx, hp⟩
    exact h x hx p hp

lemma contained_dict {fields : List (String × Value ρ)} (hplain : Value.isWrapper fields = false) :
    Contained R s (.dict fields) ↔ ∀ field ∈ fields, Contained R s field.2 := by
  simp only [Contained, Value.mem_bare_dict hplain]
  constructor
  · intro h field hfield p hp
    exact h p ⟨field, hfield, hp⟩
  · rintro h p ⟨field, hfield, hp⟩
    exact h field hfield p hp

lemma contained_opt {α : Type} {f : α → Value ρ} {x : Option α}
    (h : ∀ a ∈ x, Contained R s (f a)) : Contained R s (Value.opt f x) := by
  cases x with
  | none => simp [Contained, Value.opt, Value.bare]
  | some a => exact h a rfl

lemma contained_int (n : ℤ) : Contained R s (.int n) := by simp [Contained, Value.bare]

lemma contained_bool (b : Bool) : Contained R s (.bool b) := by simp [Contained, Value.bare]

lemma contained_wrapped (u : Option Untrusted) : Contained R s (Value.wrapped u) := by
  intro p hp
  rw [Value.bare_wrapped] at hp
  cases hp

lemma allowed_direction (d : Direction) : Allowed R s .vocabulary d.name := by
  cases d <;> simp [Allowed, vocabulary, Direction.name]

lemma allowed_precision (p : Precision) : Allowed R s .vocabulary p.name := by
  cases p <;> simp [Allowed, vocabulary, Precision.name]

lemma allowed_type (t : ConversationType) : Allowed R s .vocabulary t.name := by
  cases t <;> simp [Allowed, vocabulary, ConversationType.name]

lemma allowed_tier (t : Tier) : Allowed R s .vocabulary (tierName t) := by
  cases t <;> simp [Allowed, vocabulary, tierName]

lemma contained_contact {c : Contact} (hc : c ∈ s.vault.evidence.contacts) :
    Contained R s (contactRef R.isDigit c).tree := by
  have hid : c.id ∈ internalIds s := by
    simp only [internalIds, List.mem_append, List.mem_map]
    exact .inl (.inr ⟨c, hc, rfl⟩)
  refine (contained_dict rfl).mpr ?_
  simp only [contactRef, List.forall_mem_cons]
  refine ⟨contained_str.mpr hid, contained_wrapped _, contained_wrapped _,
    contained_opt fun tail htail => contained_str.mpr ⟨c.waId, htail⟩, by simp⟩

/-- Every field of a message view is contained. -/
lemma contained_view {m : Message} (hm : m ∈ s.vault.evidence.messages) :
    ∀ field ∈ ((view R s.vault m).fields : List (String × Value ρ)), Contained R s field.2 := by
  have hid : m.id ∈ internalIds s := by
    simp only [internalIds, List.mem_append, List.mem_map]
    exact .inl (.inl (.inl (.inl ⟨m, hm, rfl⟩)))
  have hconversation : m.conversationId ∈ internalIds s := by
    simp only [internalIds, List.mem_append, List.mem_map]
    exact .inl (.inl (.inl (.inr ⟨m, hm, rfl⟩)))
  have hcontact : ∀ c ∈ (readContact s.vault m.senderContactId).map (contactRef R.isDigit),
      Contained R s c.tree := by
    intro c hc
    obtain ⟨row, hrow, rfl⟩ := Option.map_eq_some_iff.mp hc
    obtain ⟨id, -, hfound⟩ := Option.bind_eq_some_iff.mp hrow
    exact contained_contact (Table.mem_of_find_eq_some hfound).1
  simp only [view, messageView, MessageView.fields, List.forall_mem_cons]
  refine ⟨contained_str.mpr hid, contained_str.mpr hconversation,
    contained_str.mpr (allowed_direction _), contained_int _, contained_int _,
    contained_str.mpr (allowed_precision _), contained_int _,
    contained_opt fun ref href => contained_str.mpr ⟨m.replyToWamid, href⟩, contained_wrapped _,
    contained_opt hcontact, by simp⟩

lemma contained_hit {r : Search.Row ρ} {h : Hit ρ} (hh : toHit R s.vault r = some h) :
    Contained R s h.tree := by
  unfold toHit at hh
  split at hh
  · cases hh
  · obtain ⟨m, hm, rfl⟩ := Option.map_eq_some_iff.mp hh
    refine (contained_dict rfl).mpr ?_
    rw [List.forall_mem_append]
    refine ⟨contained_view (Table.mem_of_find_eq_some hm).1, ?_⟩
    simp only [List.forall_mem_cons]
    exact ⟨by simp [Contained, Value.bare], contained_str.mpr (allowed_tier _), by simp⟩

lemma contained_chat {c : Conversation} (hc : c ∈ s.vault.evidence.conversations) :
    Contained R s (chatView c).tree := by
  have hid : c.id ∈ internalIds s := by
    simp only [internalIds, List.mem_append, List.mem_map]
    exact .inl (.inl (.inr ⟨c, hc, rfl⟩))
  refine (contained_dict rfl).mpr ?_
  simp only [chatView, List.forall_mem_cons]
  exact ⟨contained_str.mpr hid, contained_str.mpr (allowed_type _), contained_wrapped _,
    contained_opt fun ms _ => contained_int ms, by simp⟩

lemma contained_window (w : WindowView) : Contained R s w.tree := by
  refine (contained_dict (by cases w.isOpen <;> rfl)).mpr ?_
  simp only [List.forall_mem_cons]
  exact ⟨contained_bool _, contained_int _, contained_int _, by simp⟩

end Contained

/-! ## What escapes -/

/-- A delivery status `reduce_status` has no place for. -/
def UnknownStatus (status : String) : Prop :=
  Ingest.statusRank status = none ∧ status ≠ "failed" ∧ status ≠ "deleted"

lemma mem_unknown_foldl {events : List StatusEvent} {r : Ingest.Reduced} {status : String} :
    status ∈ (events.foldl Ingest.Reduced.add r).unknownStatuses ↔
      status ∈ r.unknownStatuses ∨ UnknownStatus status ∧ ∃ e ∈ events, e.status = status := by
  induction events generalizing r with
  | nil => simp
  | cons e events ih =>
    rw [List.foldl_cons, ih]
    have hturn : status ∈ (r.add e).unknownStatuses ↔
        status ∈ r.unknownStatuses ∨ UnknownStatus status ∧ e.status = status := by
      unfold Ingest.Reduced.add
      split
      · rename_i rank hrank
        have hknown : ¬ (UnknownStatus status ∧ e.status = status) := by
          rintro ⟨hunknown, rfl⟩
          rw [hunknown.1] at hrank
          cases hrank
        simp [hknown]
      · rename_i hrank
        split_ifs with hfailed hdeleted
        · have hknown : ¬ (UnknownStatus status ∧ e.status = status) := by
            rintro ⟨hunknown, rfl⟩
            exact hunknown.2.1 hfailed
          simp [hknown]
        · have hknown : ¬ (UnknownStatus status ∧ e.status = status) := by
            rintro ⟨hunknown, rfl⟩
            exact hunknown.2.2 hdeleted
          simp [hknown]
        · rw [List.mem_insert_iff]
          constructor
          · rintro (rfl | hmem)
            · exact .inr ⟨⟨hrank, hfailed, hdeleted⟩, rfl⟩
            · exact .inl hmem
          · rintro (hmem | ⟨-, rfl⟩)
            · exact .inr hmem
            · exact .inl rfl
    rw [hturn]
    simp only [List.mem_cons, exists_eq_or_imp]
    tauto

/-- The unknown statuses reported are those of the events. -/
lemma mem_unknownStatuses {events : List StatusEvent} {status : String} :
    status ∈ (Ingest.reduceStatus events).unknownStatuses ↔
      UnknownStatus status ∧ ∃ e ∈ events, e.status = status := by
  simp only [Ingest.reduceStatus, Ranking.mem_sortBy, mem_unknown_foldl]
  simp [Ingest.Reduced.none]

/-- A request hands out remote text as it is: the status of a visible message with an event of
unknown status, or a catalogue that lists a template. -/
inductive Exposes (s : ReadState) : Request → Prop
  | status (messageId : PyStr) (id wamid : String) (m : Message) (e : StatusEvent)
      (hid : messageId.encode = some id) (hm : s.vault.message id = some m)
      (hshown : isShown s.vault m = true) (hwamid : nonempty m.wamid = some wamid)
      (he : e ∈ s.vault.evidence.statusEvents) (hof : e.wamid = wamid)
      (hunknown : UnknownStatus e.status) : Exposes s (.call (.getMessageStatus messageId))
  | templates (row : CatalogueRow) (rows : List CatalogueRow) (hrows : s.catalogue = some rows)
      (hrow : row ∈ rows) : Exposes s .listTemplates

section Responses

variable {ρ : Type} {R : Runtime ρ} {s : ReadState}

/-- What `get_message_status` returns is contained unless it reports a status. -/
lemma contained_reduced {r : Ingest.Reduced} :
    Contained R s (reducedTree r) ↔ r.unknownStatuses = [] := by
  have hstatuses : Contained R s (.list (r.unknownStatuses.map (.str .remote))) ↔
      r.unknownStatuses = [] := by
    simp [contained_list, contained_str, Allowed, List.eq_nil_iff_forall_not_mem]
  rw [reducedTree, contained_dict rfl]
  simp only [List.forall_mem_cons, hstatuses]
  constructor
  · rintro ⟨-, -, -, h, -⟩
    exact h
  · intro h
    exact ⟨contained_int _, contained_opt fun ms _ => contained_int ms,
      contained_opt fun ms _ => contained_int ms, h, by simp⟩

lemma unknownStatuses_statusOf {m : Message} :
    (statusOf s.vault m).unknownStatuses = [] ↔ ¬ ∃ wamid, nonempty m.wamid = some wamid ∧
      ∃ e ∈ s.vault.evidence.statusEvents, e.wamid = wamid ∧ UnknownStatus e.status := by
  unfold statusOf
  cases nonempty m.wamid with
  | none => simp [Ingest.Reduced.none]
  | some wamid =>
    rw [List.eq_nil_iff_forall_not_mem]
    simp only [mem_unknownStatuses, List.mem_filter, decide_eq_true_eq, Option.some.injEq,
      exists_eq_left']
    constructor
    · rintro h ⟨e, he, hof, hunknown⟩
      exact h e.status ⟨hunknown, e, ⟨he, hof⟩, rfl⟩
    · rintro h status ⟨hunknown, e, ⟨he, hof⟩, rfl⟩
      exact h ⟨e, he, hof, hunknown⟩

lemma contained_status {messageId : PyStr} :
    (∀ reduced, getMessageStatus messageId s.vault = .ok reduced →
      Contained R s (Value.opt reducedTree reduced)) ↔
      ¬ Exposes s (.call (.getMessageStatus messageId)) := by
  simp only [getMessageStatus_eq_map]
  constructor
  · intro h hexposes
    cases hexposes with
    | status _ id wamid m e hid hm hshown hwamid he hof hunknown =>
      have hencoded : encoded messageId = .ok id := Checks.orStop_eq_ok.mpr hid
      have hfound : (s.vault.message id).filter (isShown s.vault) = some m := by
        rw [hm, Option.filter_some, hshown, if_pos rfl]
      have hcontained := h (some (statusOf s.vault m)) (by rw [hencoded, Except.map, hfound]; rfl)
      exact unknownStatuses_statusOf.mp (contained_reduced.mp hcontained)
        ⟨wamid, hwamid, e, he, hof, hunknown⟩
  · intro hquiet reduced hreduced
    cases hencoded : encoded messageId with
    | error e => simp [hencoded, Except.map] at hreduced
    | ok id =>
      obtain rfl : _ = reduced := by simpa [hencoded, Except.map] using hreduced
      refine contained_opt fun r hr => ?_
      obtain ⟨m, hm, rfl⟩ := Option.map_eq_some_iff.mp hr
      obtain ⟨hm, hshown⟩ := Option.filter_eq_some_iff.mp hm
      refine contained_reduced.mpr (unknownStatuses_statusOf.mpr ?_)
      rintro ⟨wamid, hwamid, e, he, hof, hunknown⟩
      exact hquiet (.status messageId id wamid m e (Checks.orStop_eq_ok.mp hencoded) hm hshown
        hwamid he hof hunknown)

/-- A template row puts its name outside a wrapper. -/
lemma not_contained_row (row : CatalogueRow) : ¬ Contained R s row.tree := by
  rw [CatalogueRow.tree, contained_dict rfl]
  simp [contained_str, Allowed]

lemma contained_templates : Contained R s (listTemplates s) ↔ ¬ Exposes s .listTemplates := by
  have hstatus (text : String) (htext : text ∈ vocabulary) (rows : List CatalogueRow) :
      Contained R s (.dict [("status", .str .vocabulary text),
        ("templates", .list (rows.map CatalogueRow.tree))]) ↔ rows = [] := by
    rw [contained_dict rfl]
    simp [contained_str, Allowed, htext, contained_list, not_contained_row,
      List.eq_nil_iff_forall_not_mem]
  unfold listTemplates
  split
  · rename_i hnone
    refine iff_of_true ((hstatus _ (by decide) []).mpr rfl) fun hexposes => ?_
    cases hexposes with
    | templates row rows hrows hrow => simp [hnone] at hrows
  · rename_i rows hrows
    rw [hstatus _ (by decide)]
    constructor
    · rintro rfl hexposes
      cases hexposes with
      | templates row rows' hrows' hrow =>
        rw [hrows, Option.some.injEq] at hrows'
        rw [← hrows'] at hrow
        cases hrow
    · intro hquiet
      exact List.eq_nil_iff_forall_not_mem.mpr fun row hrow =>
        hquiet (.templates row rows hrows hrow)

lemma contained_messages {conversationId : PyStr} {fromMs toMs : Option ℤ} {limit : Json}
    {rows : List MessageView} (h : getMessages R conversationId fromMs toMs limit s.vault = .ok rows) :
    Contained R s (Answer.messages rows).tree := by
  have hrows : ∀ row ∈ rows, ∃ m ∈ s.vault.evidence.messages, row = view R s.vault m := by
    simp only [getMessages, Checks.bind_eq_ok] at h
    obtain ⟨id, -, h⟩ := h
    split at h
    · obtain rfl := Checks.pure_eq_ok.mp h
      simp
    · split at h
      · obtain rfl := Checks.pure_eq_ok.mp h
        simp
      · simp only [Checks.bind_eq_ok, Checks.pure_eq_ok] at h
        obtain ⟨n, -, fromMs', -, toMs', -, rfl⟩ := h
        intro row hrow
        obtain ⟨m, hm, rfl⟩ := List.mem_map.mp hrow
        have hsorted := (Ranking.mem_sortBy _).mp (List.mem_of_mem_take hm)
        exact ⟨m, List.mem_of_mem_filter hsorted, rfl⟩
  refine contained_list.mpr ?_
  rw [List.forall_mem_map]
  intro row hrow
  obtain ⟨m, hm, rfl⟩ := hrows row hrow
  exact (contained_dict rfl).mpr (contained_view hm)

lemma contained_chats {query : Option PyStr} {limit : Json} {rows : List ChatView}
    (h : listChats R query limit s.vault = .ok rows) :
    Contained R s (Answer.chats rows).tree := by
  simp only [listChats, Checks.bind_eq_ok, Checks.pure_eq_ok] at h
  obtain ⟨n, -, pattern, -, rfl⟩ := h
  refine contained_list.mpr ?_
  rw [List.forall_mem_map, List.forall_mem_map]
  intro c hc
  have hsorted := (Ranking.mem_sortBy _).mp (List.mem_of_mem_take hc)
  exact contained_chat (List.mem_of_mem_filter hsorted)

variable [LinearOrder ρ]

lemma contained_search {q : Search.SearchQuery} {hits : List (Hit ρ)}
    (h : search R q s.vault = .ok hits) : Contained R s (Answer.hits hits).tree := by
  simp only [search, Checks.bind_eq_ok, Checks.pure_eq_ok] at h
  obtain ⟨rows, -, rfl⟩ := h
  refine contained_list.mpr ?_
  rw [List.forall_mem_map]
  intro hit hhit
  obtain ⟨row, -, hrow⟩ := List.mem_filterMap.mp hhit
  exact contained_hit hrow

/-- **What escapes its wrapper.**  A response puts no remote text outside a wrapper, and nothing
there but ids, words of the schema, handles and masked tails, exactly when its request exposes
nothing. -/
theorem responses_contained_iff (R : Runtime ρ) (s : ReadState) (request : Request) :
    (∀ x, respond R s request = .ok x → Contained R s x) ↔ ¬ Exposes s request := by
  have hmap {α : Type} {x : Except Raised α} {f : α → Answer ρ} {y : Value ρ} :
      ((x.map f).map Answer.tree) = .ok y ↔ ∃ a, x = .ok a ∧ (f a).tree = y := by
    cases x <;> simp [Except.map]
  cases request with
  | listTemplates =>
    rw [← contained_templates (R := R)]
    simp [respond]
  | call c =>
    simp only [respond]
    cases c with
    | search q =>
      simp only [answer, hmap]
      refine iff_of_true ?_ (by rintro ⟨⟩)
      rintro x ⟨hits, hhits, rfl⟩
      exact contained_search hhits
    | getMessages conversationId fromMs toMs limit =>
      simp only [answer, hmap]
      refine iff_of_true ?_ (by rintro ⟨⟩)
      rintro x ⟨rows, hrows, rfl⟩
      exact contained_messages hrows
    | listChats query limit =>
      simp only [answer, hmap]
      refine iff_of_true ?_ (by rintro ⟨⟩)
      rintro x ⟨rows, hrows, rfl⟩
      exact contained_chats hrows
    | getMessageStatus messageId =>
      rw [← contained_status (R := R)]
      simp only [answer, hmap]
      constructor
      · intro h reduced hreduced
        exact h _ ⟨reduced, hreduced, rfl⟩
      · rintro h x ⟨reduced, hreduced, rfl⟩
        exact h reduced hreduced
    | getConversationWindow conversationId nowMs =>
      simp only [answer, hmap]
      refine iff_of_true ?_ (by rintro ⟨⟩)
      rintro x ⟨row, -, rfl⟩
      exact contained_window row

end Responses

/-- An approved template as Meta named it. -/
def sampleRow : CatalogueRow where
  templateId := "tpl_1"
  name := "order_update"
  language := "en"
  status := "APPROVED"
  definitionVersion := 1
  schema := .unconstrained
  category := some "UTILITY"

/-- Two databases with a catalogue of one template. -/
def sampleState : ReadState where
  toDatabases := { sampleDatabases "secret" with
    control := { Control.empty with templates := [sampleRow.toTemplate] } }
  catalogue := some [sampleRow]
  catalogue_templates := rfl

/-- `list_templates` hands out the name of a template as it came from Meta. -/
theorem template_name_escapes :
    ¬ ∀ (s : ReadState) (request : Request) (x : Value ℕ),
      respond sampleRuntime s request = .ok x → Contained sampleRuntime s x := by
  intro h
  have hcontained := h sampleState .listTemplates _ rfl
  exact contained_templates.mp hcontained
    (.templates sampleRow [sampleRow] rfl List.mem_cons_self)

end WhatsVault.Mcp
