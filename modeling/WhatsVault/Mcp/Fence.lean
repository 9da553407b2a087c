import WhatsVault.Ingest.Consumer
import WhatsVault.Mcp.Reads
import WhatsVault.Search.Tiers

/-!
# The LOCAL_ONLY fence between two states

`Agree` says that two states are the same outside the conversations marked LOCAL_ONLY.  Four of the
five read tools then give the same answer from both.  `search` puts the fence behind the limit:
`reads_agree_iff` says that it gives the same ids exactly where no visible match is pushed over the
limit in one of the two states alone, and then the same answer.  `hidden_matches_fill_the_limit`
has two states where a hidden match does push one.
-/

namespace WhatsVault.Mcp

open WhatsVault.Search (SearchQuery Tier Plan PhrasesParse encoded)

/-! ## What a read may see -/

def isShown (v : Vault) (m : Message) : Bool := m.conversationId ∉ localOnlyIds v

def shownMessages (v : Vault) : List Message := v.evidence.messages.filter (isShown v)

/-- The index documents of shown messages. -/
def shownDocuments (v : Vault) : List SearchDocument :=
  v.search.documents.filter fun d => (v.message d.messageId).any (isShown v)

/-- The two states differ in nothing but what belongs to conversations marked LOCAL_ONLY: messages,
index documents with their FTS entries, status events, windows. -/
structure Agree (s t : Databases) : Prop where
  contacts : s.vault.evidence.contacts = t.vault.evidence.contacts
  conversations : s.vault.evidence.conversations = t.vault.evidence.conversations
  messages : shownMessages s.vault = shownMessages t.vault
  documents : shownDocuments s.vault = shownDocuments t.vault
  texts : ∀ d ∈ shownDocuments s.vault, ∀ tier : Tier,
    tier.texts s.vault.search d.rowid = tier.texts t.vault.search d.rowid
  statusEvents : ∀ m ∈ shownMessages s.vault, ∀ wamid ∈ m.wamid,
    s.vault.evidence.statusEvents.filter (fun e => e.wamid = wamid) =
      t.vault.evidence.statusEvents.filter fun e => e.wamid = wamid
  windows : ∀ conversationId ∉ localOnlyIds s.vault,
    s.control.window conversationId = t.control.window conversationId

namespace Agree

variable {s t : Databases} (h : Agree s t)

include h

lemma symm : Agree t s where
  contacts := h.contacts.symm
  conversations := h.conversations.symm
  messages := h.messages.symm
  documents := h.documents.symm
  texts d hd tier := (h.texts d (h.documents ▸ hd) tier).symm
  statusEvents m hm wamid hwamid := (h.statusEvents m (h.messages ▸ hm) wamid hwamid).symm
  windows conversationId hvisible := by
    refine (h.windows conversationId ?_).symm
    rwa [localOnlyIds, h.conversations]

lemma localOnlyIds_eq : localOnlyIds s.vault = localOnlyIds t.vault := by
  rw [localOnlyIds, localOnlyIds, h.conversations]

lemma isShown_eq : isShown s.vault = isShown t.vault := by
  funext m
  rw [isShown, isShown, h.localOnlyIds_eq]

/-- A shown message is the same in both states. -/
lemma message_eq_some {id : String} {m : Message} (hm : s.vault.message id = some m)
    (hshown : isShown s.vault m = true) : t.vault.message id = some m := by
  obtain ⟨hmem, hid⟩ := s.messageIds.find_eq_some_iff.mp hm
  have hshared : m ∈ shownMessages t.vault := h.messages ▸ List.mem_filter.mpr ⟨hmem, hshown⟩
  exact t.messageIds.find_eq_some_iff.mpr ⟨List.mem_of_mem_filter hshared, hid⟩

lemma view_eq {ρ : Type} (R : Runtime ρ) (m : Message) : view R s.vault m = view R t.vault m := by
  unfold view readContact Vault.contact
  rw [h.contacts]

end Agree

/-! ## Search -/

section Search

variable {ρ : Type} (R : Runtime ρ)

def isVisible (v : Vault) (r : Search.Row ρ) : Bool := r.conversationId ∉ localOnlyIds v

/-- A row of the join is visible exactly where the message of its document is shown. -/
lemma filter_joinedRow (tier : Tier) (matchText : String) (f : Search.Filters) (v : Vault)
    (d : SearchDocument) :
    (Search.joinedRow R.fts tier matchText f v d).filter (isVisible v) =
      if (v.message d.messageId).any (isShown v) = true then
        Search.joinedRow R.fts tier matchText f v d
      else none := by
  unfold Search.joinedRow
  rcases v.message d.messageId with _ | m
  · rfl
  · dsimp only
    split
    · simp [isVisible, isShown, Option.filter]
    · simp

lemma Agree.joinedRow_eq {s t : Databases} (h : Agree s t) (tier : Tier) (matchText : String)
    (f : Search.Filters) {d : SearchDocument} (hd : d ∈ shownDocuments s.vault) :
    Search.joinedRow R.fts tier matchText f s.vault d =
      Search.joinedRow R.fts tier matchText f t.vault d := by
  have htexts := h.texts d hd tier
  have hfound : (s.vault.message d.messageId).any (isShown s.vault) = true :=
    (List.mem_filter.mp hd).2
  obtain ⟨m, hm, hshown⟩ := (Option.any_eq_true _ _).mp hfound
  unfold Search.joinedRow
  simp only [hm, h.message_eq_some hm hshown, htexts]

variable [LinearOrder ρ]

/-- The visible rows of a tier come from the shown documents. -/
lemma filter_tierRows (tier : Tier) (matchText : String) (f : Search.Filters) (v : Vault) :
    (Search.tierRows R.fts tier matchText f v).filter (isVisible v) =
      Ranking.sortBy Search.Row.rank
        ((shownDocuments v).filterMap (Search.joinedRow R.fts tier matchText f v)) := by
  unfold Search.tierRows shownDocuments
  rw [Ranking.filter_sortBy, List.filter_filterMap, List.filterMap_filter]
  simp only [filter_joinedRow]

lemma Agree.filter_tierRows_eq {s t : Databases} (h : Agree s t) (tier : Tier) (matchText : String)
    (f : Search.Filters) :
    (Search.tierRows R.fts tier matchText f s.vault).filter (isVisible s.vault) =
      (Search.tierRows R.fts tier matchText f t.vault).filter (isVisible t.vault) := by
  rw [filter_tierRows, filter_tierRows, ← h.documents]
  congr 1
  exact List.filterMap_congr fun d hd => h.joinedRow_eq R tier matchText f hd

lemma Agree.filter_plannedRows_eq {s t : Databases} (h : Agree s t) (tier : Tier)
    (p : Option Search.TierPlan) :
    (Search.plannedRows R.fts tier p s.vault).filter (isVisible s.vault) =
      (Search.plannedRows R.fts tier p t.vault).filter (isVisible t.vault) := by
  cases p with
  | none => rfl
  | some p => exact h.filter_tierRows_eq R tier p.matchText p.filters

lemma mem_plannedRows {tier : Tier} {p : Option Search.TierPlan} {v : Vault} {r : Search.Row ρ}
    (h : r ∈ Search.plannedRows R.fts tier p v) :
    ∃ m, v.message r.messageId = some m ∧ r.conversationId = m.conversationId := by
  cases p with
  | none => exact absurd h List.not_mem_nil
  | some p =>
    obtain ⟨d, -, hrow⟩ := (Search.mem_tierRows R.fts).mp h
    obtain ⟨hid, -, m, hm, hconversation⟩ := Search.joinedRow_eq_some R.fts hrow
    exact ⟨m, hid ▸ hm, hconversation⟩

lemma mem_ranking {p : Plan} {v : Vault} {r : Search.Row ρ}
    (h : r ∈ Search.ranking R.fts p v) :
    ∃ m, v.message r.messageId = some m ∧ r.conversationId = m.conversationId := by
  rcases List.mem_append.mp h with hlexical | hcompact
  · exact mem_plannedRows R hlexical
  · exact mem_plannedRows R (List.mem_of_mem_filter hcompact)

/-- The visible matches of a plan, in order, are the same in both states. -/
theorem Agree.filter_ranking_eq {s t : Databases} (h : Agree s t) (p : Plan) :
    (Search.ranking R.fts p s.vault).filter (isVisible s.vault) =
      (Search.ranking R.fts p t.vault).filter (isVisible t.vault) := by
  have hmerge : ∀ d : Databases, (Search.ranking R.fts p d.vault).filter (isVisible d.vault) =
      Ranking.merge Search.Row.messageId
        ((Search.plannedRows R.fts .lexical p.lexical d.vault).filter (isVisible d.vault))
        ((Search.plannedRows R.fts .compact p.compact d.vault).filter (isVisible d.vault)) := by
    intro d
    refine Ranking.filter_merge Search.Row.messageId fun x hx y hy heq => ?_
    obtain ⟨m, hm, hxm⟩ := mem_plannedRows R hx
    obtain ⟨m', hm', hym⟩ := mem_plannedRows R hy
    rw [heq, hm', Option.some.injEq] at hm
    rw [isVisible, isVisible, hxm, hym, hm]
  rw [hmerge, hmerge, h.filter_plannedRows_eq R, h.filter_plannedRows_eq R]

/-- The rows a search is left with after the loop. -/
def leftRows (p : Plan) (v : Vault) : List (Search.Row ρ) :=
  ((Search.ranking R.fts p v).take (Search.admitted R.fts p v)).filter (isVisible v)

omit [LinearOrder ρ] in
lemma filterMap_toHit (v : Vault) (rows : List (Search.Row ρ)) :
    rows.filterMap (toHit R v) = (rows.filter (isVisible v)).filterMap (toHit R v) := by
  rw [List.filterMap_filter]
  refine List.filterMap_congr fun r _ => ?_
  by_cases hlocal : r.conversationId ∈ localOnlyIds v
  · simp [toHit, isVisible, hlocal]
  · simp [isVisible, hlocal]

lemma search_eq (hparse : PhrasesParse R.normaliser R.fts) (s : Databases) (q : SearchQuery) :
    search R q s.vault =
      (Search.plan R.normaliser R.fts q).map fun p =>
        (leftRows R p s.vault).filterMap (toHit R s.vault) := by
  unfold search leftRows
  rw [Search.run_eq R.normaliser R.fts hparse s.documentIds q]
  rcases Search.plan R.normaliser R.fts q with e | p
  · rfl
  · simp only [Except.map, bind, Except.bind, pure, Except.pure]
    rw [filterMap_toHit]

lemma mem_leftRows {p : Plan} {v : Vault} {r : Search.Row ρ} (h : r ∈ leftRows R p v) :
    r.conversationId ∉ localOnlyIds v ∧
      ∃ m, v.message r.messageId = some m ∧ r.conversationId = m.conversationId := by
  obtain ⟨hmem, hvisible⟩ := List.mem_filter.mp h
  exact ⟨by simpa [isVisible] using hvisible, mem_ranking R (List.mem_of_mem_take hmem)⟩

/-- Each row that is left becomes a hit with its message's id. -/
lemma map_hits (p : Plan) (s : Databases) :
    ((leftRows R p s.vault).filterMap (toHit R s.vault)).map (fun hit => hit.view.messageId) =
      (leftRows R p s.vault).map Search.Row.messageId := by
  rw [List.map_filterMap, ← List.filterMap_eq_map]
  refine List.filterMap_congr fun r hr => ?_
  obtain ⟨hvisible, m, hm, -⟩ := mem_leftRows R hr
  have hid : m.id = r.messageId := (Table.mem_of_find_eq_some hm).2
  simp [toHit, hvisible, hm, view, messageView, hid]

/-- A row left in both states becomes the same hit. -/
lemma Agree.toHit_eq {s t : Databases} (h : Agree s t) {p : Plan} {r : Search.Row ρ}
    (hr : r ∈ leftRows R p s.vault) : toHit R s.vault r = toHit R t.vault r := by
  obtain ⟨hvisible, m, hm, hconversation⟩ := mem_leftRows R hr
  have hshown : isShown s.vault m = true := by simpa [isShown, ← hconversation] using hvisible
  have hvisible' : r.conversationId ∉ localOnlyIds t.vault := h.localOnlyIds_eq ▸ hvisible
  simp [toHit, hvisible, hvisible', hm, h.message_eq_some hm hshown, h.view_eq R m]

/-- No visible match of the query is pushed over the limit in one of the two states alone: the number
of matches ranked before it, hidden ones among them, is below the number of rows the limit admits in
both states or in neither. -/
def NoneDisplaced (q : SearchQuery) (s t : Databases) : Prop :=
  ∀ p, Search.plan R.normaliser R.fts q = .ok p →
    ∀ r ∈ (Search.ranking R.fts p s.vault).filter (isVisible s.vault),
      (Search.ranking R.fts p s.vault).idxOf r < Search.admitted R.fts p s.vault ↔
        (Search.ranking R.fts p t.vault).idxOf r < Search.admitted R.fts p t.vault

/-- What is left of a plan's rows is the same in both states exactly where its ids are, and exactly
where no visible match is displaced. -/
lemma Agree.leftRows_iff {s t : Databases} (h : Agree s t) (p : Plan) :
    ((leftRows R p s.vault).map Search.Row.messageId =
        (leftRows R p t.vault).map Search.Row.messageId ↔
      ∀ r ∈ (Search.ranking R.fts p s.vault).filter (isVisible s.vault),
        (Search.ranking R.fts p s.vault).idxOf r < Search.admitted R.fts p s.vault ↔
          (Search.ranking R.fts p t.vault).idxOf r < Search.admitted R.fts p t.vault) ∧
    ((leftRows R p s.vault).map Search.Row.messageId =
        (leftRows R p t.vault).map Search.Row.messageId →
      leftRows R p s.vault = leftRows R p t.vault) := by
  have hvisible : isVisible (ρ := ρ) s.vault = isVisible t.vault := by
    funext r
    rw [isVisible, isVisible, h.localOnlyIds_eq]
  have hranking := h.filter_ranking_eq R p
  rw [← hvisible] at hranking
  have hprefix : leftRows R p s.vault <+:
      (Search.ranking R.fts p s.vault).filter (isVisible s.vault) :=
    (List.take_prefix _ _).filter _
  have hprefix' : leftRows R p t.vault <+:
      (Search.ranking R.fts p s.vault).filter (isVisible s.vault) := by
    rw [hranking, hvisible]
    exact (List.take_prefix _ _).filter _
  have hrows : (leftRows R p s.vault).map Search.Row.messageId =
      (leftRows R p t.vault).map Search.Row.messageId ↔
        leftRows R p s.vault = leftRows R p t.vault :=
    ⟨Ranking.eq_of_prefix_of_map_eq hprefix hprefix', fun heq => by rw [heq]⟩
  refine ⟨hrows.trans ?_, hrows.mp⟩
  have hnodup : (Search.ranking R.fts p s.vault).Nodup :=
    (Search.nodup_ranking R.fts s.documentIds p).of_map Search.Row.messageId
  have hlimits := Ranking.filter_take_eq_iff hranking hnodup (Search.admitted R.fts p s.vault)
    (Search.admitted R.fts p t.vault)
  unfold leftRows
  rw [← hvisible]
  exact hlimits

theorem search_agrees_iff (hparse : PhrasesParse R.normaliser R.fts) {s t : Databases}
    (h : Agree s t) (q : SearchQuery) :
    ((search R q s.vault).map (fun hits => hits.map fun hit => hit.view.messageId) =
        (search R q t.vault).map (fun hits => hits.map fun hit => hit.view.messageId) ↔
      NoneDisplaced R q s t) ∧
    (NoneDisplaced R q s t → search R q s.vault = search R q t.vault) := by
  rw [search_eq R hparse, search_eq R hparse]
  unfold NoneDisplaced
  rcases Search.plan R.normaliser R.fts q with e | p
  · simp [Except.map]
  · obtain ⟨hiff, hrows⟩ := h.leftRows_iff R p
    simp only [Except.map, Except.ok.injEq, map_hits, forall_eq']
    refine ⟨hiff, fun hnone => ?_⟩
    have heq := hrows (hiff.mpr hnone)
    rw [← heq]
    exact List.filterMap_congr fun r hr => h.toHit_eq R hr

end Search

/-! ## The other tools -/

section Others

variable {ρ : Type} (R : Runtime ρ) {s t : Databases}

/-- A shown message is found in both states or in neither. -/
lemma Agree.filter_message_eq (h : Agree s t) (id : String) :
    (s.vault.message id).filter (isShown s.vault) =
      (t.vault.message id).filter (isShown t.vault) := by
  refine Option.ext fun m => ?_
  simp only [Option.filter_eq_some_iff]
  constructor
  · rintro ⟨hm, hshown⟩
    exact ⟨h.message_eq_some hm hshown, h.isShown_eq ▸ hshown⟩
  · rintro ⟨hm, hshown⟩
    exact ⟨h.symm.message_eq_some hm hshown, h.isShown_eq ▸ hshown⟩

/-- The messages of a conversation that is not marked LOCAL_ONLY are shown. -/
lemma filter_inConversation {v : Vault} {id : String} (hid : id ∉ localOnlyIds v)
    (fromMs toMs : Option ℤ) :
    v.evidence.messages.filter (inConversation id fromMs toMs) =
      (shownMessages v).filter (inConversation id fromMs toMs) := by
  unfold shownMessages
  rw [List.filter_filter]
  refine List.filter_congr fun m _ => ?_
  by_cases hm : m.conversationId = id
  · simp [isShown, hm, hid]
  · simp [inConversation, hm]

theorem Agree.getMessages_eq (h : Agree s t) (conversationId : PyStr) (fromMs toMs : Option ℤ)
    (limit : Json) :
    getMessages R conversationId fromMs toMs limit s.vault =
      getMessages R conversationId fromMs toMs limit t.vault := by
  have hconversation : ∀ id, s.vault.conversation id = t.vault.conversation id := fun id => by
    rw [Vault.conversation, Vault.conversation, h.conversations]
  have hview : view R s.vault = view R t.vault := funext (h.view_eq R)
  have hrows : ∀ id c fromMs toMs, s.vault.conversation id = some c → c.mcpVisibility ≠ .localOnly →
      s.vault.evidence.messages.filter (inConversation id fromMs toMs) =
        t.vault.evidence.messages.filter (inConversation id fromMs toMs) := by
    intro id c fromMs toMs hc hvisible
    have hid : id ∉ localOnlyIds s.vault := by
      intro hmem
      obtain ⟨c', hc', rfl⟩ := List.mem_map.mp hmem
      rw [List.mem_filter] at hc'
      obtain ⟨hfound, heq⟩ := s.conversationIds.find_eq_some_iff.mp hc
      have hsame := s.conversationIds.eq_of_key_eq hfound hc'.1 heq
      exact hvisible (hsame ▸ by simpa using hc'.2)
    rw [filter_inConversation hid, filter_inConversation (h.localOnlyIds_eq ▸ hid), h.messages]
  unfold getMessages
  rcases encoded conversationId with e | id
  · rfl
  · simp only [bind, Except.bind, ← hconversation, hview]
    rcases hc : s.vault.conversation id with _ | c
    · rfl
    · by_cases hvisible : c.mcpVisibility = .localOnly
      · simp [hvisible]
      · simp only [hvisible, if_false, hrows id c _ _ hc hvisible]

theorem Agree.listChats_eq (h : Agree s t) (query : Option PyStr) (limit : Json) :
    listChats R query limit s.vault = listChats R query limit t.vault := by
  unfold listChats
  rw [h.conversations]

/-- What `get_message_status` returns for a shown message. -/
def statusOf (v : Vault) (m : Message) : Ingest.Reduced :=
  match nonempty m.wamid with
  | none => .none
  | some wamid => Ingest.reduceStatus (v.evidence.statusEvents.filter fun e => e.wamid = wamid)

lemma getMessageStatus_eq_map (messageId : PyStr) (v : Vault) :
    getMessageStatus messageId v =
      (encoded messageId).map fun id => ((v.message id).filter (isShown v)).map (statusOf v) := by
  unfold getMessageStatus
  rcases encoded messageId with e | id
  · rfl
  · simp only [bind, Except.bind, Except.map]
    rcases v.message id with _ | m
    · rfl
    · by_cases hlocal : m.conversationId ∈ localOnlyIds v
      · simp [hlocal, isShown, Option.filter, pure, Except.pure]
      · have hshown : isShown v m = true := by simpa [isShown] using hlocal
        simp only [hlocal, if_false, Option.filter, hshown, if_true, Option.map_some, statusOf]
        rcases nonempty m.wamid with _ | wamid
        · rfl
        · rfl

theorem Agree.getMessageStatus_eq (h : Agree s t) (messageId : PyStr) :
    getMessageStatus messageId s.vault = getMessageStatus messageId t.vault := by
  rw [getMessageStatus_eq_map, getMessageStatus_eq_map]
  congr 1
  funext id
  rw [← h.filter_message_eq]
  refine Option.map_congr fun m hm => ?_
  obtain ⟨hfound, hshown⟩ := Option.filter_eq_some_iff.mp hm
  have hmem : m ∈ shownMessages s.vault :=
    List.mem_filter.mpr ⟨(Table.mem_of_find_eq_some hfound).1, hshown⟩
  unfold statusOf
  rcases hwamid : nonempty m.wamid with _ | wamid
  · rfl
  · have hof : wamid ∈ m.wamid := (Option.filter_eq_some_iff.mp hwamid).1
    simp only [h.statusEvents m hmem wamid hof]

theorem Agree.getConversationWindow_eq (h : Agree s t) (conversationId : PyStr) (nowMs : ℤ) :
    getConversationWindow conversationId nowMs s.vault s.control =
      getConversationWindow conversationId nowMs t.vault t.control := by
  unfold getConversationWindow
  rcases encoded conversationId with e | id
  · rfl
  · simp only [bind, Except.bind, ← h.localOnlyIds_eq]
    by_cases hlocal : id ∈ localOnlyIds s.vault
    · simp [hlocal]
    · have hlast : s.control.lastInboundMs id = t.control.lastInboundMs id := by
        rw [Control.lastInboundMs, Control.lastInboundMs, h.windows id hlocal]
      simp only [hlocal, if_false, hlast]

end Others

/-! ## Every tool -/

/-- The condition on a call of a read tool: a search displaces no visible match. -/
def Undisplaced {ρ : Type} [LinearOrder ρ] (R : Runtime ρ) (s t : Databases) : Call → Prop
  | .search q => NoneDisplaced R q s t
  | _ => True

/-- Between two states that agree outside the LOCAL_ONLY conversations, a call of a read tool gives
the same ids in the same order exactly where it displaces no visible match, and then it gives the
same answer. -/
theorem reads_agree_iff {ρ : Type} [LinearOrder ρ] (R : Runtime ρ)
    (hparse : PhrasesParse R.normaliser R.fts) (s t : Databases) (h : Agree s t) (call : Call) :
    ((answer R s call).map Answer.ids = (answer R t call).map Answer.ids ↔
      Undisplaced R s t call) ∧
    (Undisplaced R s t call → answer R s call = answer R t call) := by
  cases call with
  | search q =>
    obtain ⟨hiff, hsame⟩ := search_agrees_iff R hparse h q
    have hids : ∀ d : Databases, (answer R d (.search q)).map Answer.ids =
        (search R q d.vault).map fun hits => hits.map fun hit => hit.view.messageId := by
      intro d
      simp only [answer]
      rcases search R q d.vault with e | hits
      · rfl
      · rfl
    refine ⟨?_, fun hnone => ?_⟩
    · rw [hids, hids]
      exact hiff
    · simp only [answer, hsame hnone]
  | getMessages conversationId fromMs toMs limit =>
    simp [answer, Undisplaced, h.getMessages_eq R]
  | listChats query limit => simp [answer, Undisplaced, h.listChats_eq R]
  | getMessageStatus messageId => simp [answer, Undisplaced, h.getMessageStatus_eq]
  | getConversationWindow conversationId nowMs =>
    simp [answer, Undisplaced, h.getConversationWindow_eq]

/-! ## Two states apart in one hidden message -/

/-- FTS5 on one-word texts and one-word queries: a text matches its own phrase, and matches of equal
texts have equal ranks. -/
def sampleRuntime : Runtime ℕ where
  platform := Ingest.samplePlatform
  stdlib := Ingest.sampleStdlib
  normaliser := Ingest.sampleNormaliser
  fts _ := ⟨fun _ => true, fun matchText texts => (texts.map Search.quote).contains matchText,
    fun _ _ _ => 0⟩
  isDigit c := c.isDigit
  like _ _ := false

def sampleConversation (id : String) (visibility : Visibility) : Conversation :=
  ⟨id, "acc_1", .dm, none, some id, none, visibility⟩

def sampleMessage (id conversationId text : String) : Message where
  id := id
  accountId := "acc_1"
  conversationId := conversationId
  senderContactId := none
  direction := .inbound
  tsLowerMs := 1
  tsUpperMsExclusive := 60001
  tsPrecision := .min
  tzName := none
  type := "text"
  textOriginal := some text
  replyToWamid := none
  origin := .manualExport
  windowEligible := false
  wamid := none
  importFingerprint := none
  deliveryRank := 0
  interval := by decide

/-- The private conversation holds one indexed message, and the other conversation holds "secret". -/
def sampleVault (hiddenText : String) : Vault where
  evidence :=
    { accounts := [⟨"acc_1", "PN1"⟩]
      contacts := []
      conversations := [sampleConversation "cnv_1" .allowMcp, sampleConversation "cnv_2" .localOnly]
      messages := [sampleMessage "msg_1" "cnv_2" hiddenText, sampleMessage "msg_2" "cnv_1" "secret"]
      statusEvents := []
      ingestEvents := [] }
  imports := ⟨[], [], [], []⟩
  search :=
    { documents := [⟨1, "msg_1", 1, hiddenText, hiddenText⟩, ⟨2, "msg_2", 1, "secret", "secret"⟩]
      ftsLexical := [(1, hiddenText), (2, "secret")]
      ftsCompact := [(1, hiddenText), (2, "secret")] }
  ingestDlq := []
  circuit := .closed

def sampleDatabases (hiddenText : String) : Databases where
  vault := sampleVault hiddenText
  control := .empty
  conversationIds := by simp [Table.Unique, sampleVault, sampleConversation]
  messageIds := by simp [Table.Unique, sampleVault, sampleMessage]
  documentIds := by simp [Table.Unique, sampleVault]

lemma agree_sample (text text' : String) : Agree (sampleDatabases text) (sampleDatabases text') where
  contacts := rfl
  conversations := rfl
  messages := rfl
  documents := rfl
  texts d hd tier := by
    obtain rfl : d = ⟨2, "msg_2", 1, "secret", "secret"⟩ := List.mem_singleton.mp hd
    cases tier <;> rfl
  statusEvents _ _ _ _ := rfl
  windows _ _ := rfl

/-- `search` for "secret" with a limit. -/
def sampleSearch (limit : ℤ) : Call :=
  .search { SearchQuery.empty with terms := [.text "secret"], limit := some limit }

/-- With the default limit nothing is displaced, and the answers are the same. -/
theorem reads_agree_iff_sample :
    Agree (sampleDatabases "secret") (sampleDatabases "lunch") ∧
    ((answer sampleRuntime (sampleDatabases "secret") (sampleSearch 50)).map Answer.ids =
        (answer sampleRuntime (sampleDatabases "lunch") (sampleSearch 50)).map Answer.ids) ∧
    Undisplaced sampleRuntime (sampleDatabases "secret") (sampleDatabases "lunch")
      (sampleSearch 50) := by
  have hparse : PhrasesParse sampleRuntime.normaliser sampleRuntime.fts :=
    fun _ _ _ _ _ _ _ => rfl
  have hrule := reads_agree_iff sampleRuntime hparse (sampleDatabases "secret")
    (sampleDatabases "lunch") (agree_sample "secret" "lunch") (sampleSearch 50)
  have hids : (answer sampleRuntime (sampleDatabases "secret") (sampleSearch 50)).map Answer.ids =
      (answer sampleRuntime (sampleDatabases "lunch") (sampleSearch 50)).map Answer.ids := by
    decide
  exact ⟨agree_sample "secret" "lunch", hids, hrule.1.mp hids⟩

/-- Two states that differ in the text of one hidden message alone.  Where it matches, it takes the
one place under the limit, and the visible match behind it is not returned. -/
theorem hidden_matches_fill_the_limit :
    Agree (sampleDatabases "secret") (sampleDatabases "lunch") ∧
    (answer sampleRuntime (sampleDatabases "secret") (sampleSearch 1)).map Answer.ids = .ok [] ∧
    (answer sampleRuntime (sampleDatabases "lunch") (sampleSearch 1)).map Answer.ids =
      .ok ["msg_2"] :=
  ⟨agree_sample "secret" "lunch", by decide, by decide⟩

end WhatsVault.Mcp
