import WhatsVault.Library.FullText
import WhatsVault.Search.Coherence
import WhatsVault.Search.Syntax
import WhatsVault.Search.Tiers

/-!
# What a hit satisfies, and which hits are returned

A row of a search comes from one of the two tiers, and there its document is hit by the MATCH string
the query compiles to (`mem_run`).  FTS5 reads in that string what the query asks for, so the document
of a lexical row holds all of it, and the document of a compact row holds the compact form of every
term and of the phrase that is three characters or longer.  Shorter ones, the prefix and the NEAR
group the compact tier does not look at.

The two tiers are read through the same limit and the compact one loses rows to the lexical one,
but never so many that a row is missing (`run_merges_tiers`).
-/

namespace WhatsVault.Search

open MatchExpr (Operand Phrase)

variable {ρ : Type} {N : Normaliser} {F : Tier → Fts ρ} {q : SearchQuery} {v : Vault}

/-! ## FTS5 -/

/-- The MATCH strings that the compilers write. -/
def Emitted (N : Normaliser) (m : String) : Prop :=
  ∃ q, compileLexical N q = .ok m ∨ compileCompact N q = .ok m

/-- An FTS5 table on the strings it is given: it takes those that are expressions, and hits the texts
they hit.  `fts_compact` is tokenized by trigrams. -/
structure Fts5 (N : Normaliser) (F : Tier → Fts ρ) (T : Tier → FullText.Tokenizer)
    (fold : Char → Char) : Prop where
  accepts : ∀ tier m, Emitted N m → (F tier).accepts m = (MatchExpr.parse m).isSome
  hits : ∀ tier m ops text, MatchExpr.parse m = some ops →
    ((F tier).hits m [text] = true ↔ FullText.Hits (T tier) ops text.toList)
  trigram : T .compact = FullText.trigrams fold

/-! ## Where a row comes from -/

def compileTier (N : Normaliser) (q : SearchQuery) : Tier → Except Raised String
  | .lexical => compileLexical N q
  | .compact => compileCompact N q

lemma emitted_of_compileTier {tier : Tier} {m : String} (h : compileTier N q tier = .ok m) :
    Emitted N m := by
  cases tier with
  | lexical => exact ⟨q, .inl h⟩
  | compact => exact ⟨q, .inr h⟩

lemma mem_collect {results rows : List (Row ρ)} {r : Row ρ} (h : r ∈ collect results rows) :
    r ∈ results ∨ r ∈ rows := by
  unfold collect at h
  induction rows generalizing results with
  | nil => exact .inl h
  | cons x rows ih =>
    rw [List.foldl_cons] at h
    rcases ih h with hresult | hrow
    · split at hresult
      · exact .inl hresult
      · rcases List.mem_append.mp hresult with hresult | hx
        · exact .inl hresult
        · rw [List.mem_singleton.mp hx]
          exact .inr List.mem_cons_self
    · exact .inr (List.mem_cons_of_mem _ hrow)

lemma mem_limited {α : Type} {n : ℤ} {rows : List α} {r : α} (h : r ∈ limited n rows) : r ∈ rows := by
  unfold limited at h
  split at h
  · exact h
  · exact List.mem_of_mem_take h

variable [LinearOrder ρ]

/-- A row that a tier read gives. -/
structure TierRow (N : Normaliser) (F : Tier → Fts ρ) (q : SearchQuery) (v : Vault) (r : Row ρ)
    (m : String) (f : Filters) : Prop where
  compiled : compileTier N q r.tier = .ok m
  filters : bindFilters q = .ok f
  accepted : (F r.tier).accepts m = true
  row : r ∈ tierRows F r.tier m f v

lemma tierRow_of_read (tier : Tier) {m : String} {room : Prop} [Decidable room] {limit : ℤ}
    {rows : List (Row ρ)} {r : Row ρ} (hcompiled : compileTier N q tier = .ok m)
    (h : readTier F tier m room q limit v = .ok rows) (hr : r ∈ rows) :
    ∃ m f, TierRow N F q v r m f := by
  unfold readTier at h
  split at h
  · simp only [runTier, Checks.bind_eq_ok, Checks.require_eq_ok, Checks.pure_eq_ok] at h
    obtain ⟨f, hf, -, -, -, haccepts, rfl⟩ := h
    have hrow := mem_limited hr
    have htier : r.tier = tier := by
      obtain ⟨d, -, hd⟩ := (mem_tierRows F).mp hrow
      exact (joinedRow_eq_some F hd).2.1
    subst htier
    exact ⟨m, f, hcompiled, hf, haccepts, hrow⟩
  · rw [Checks.pure_eq_ok] at h
    subst h
    cases hr

/-- Every row of a search is a row of one of its tiers. -/
lemma mem_run {rows : List (Row ρ)} (h : run N F q v = .ok rows) {r : Row ρ} (hr : r ∈ rows) :
    ∃ m f, TierRow N F q v r m f := by
  simp only [run, Checks.bind_eq_ok, Checks.pure_eq_ok] at h
  obtain ⟨lex, hlex, found, hfound, comp, hcomp, more, hmore, rfl⟩ := h
  rcases mem_collect (List.mem_of_mem_take hr) with hresult | hmem
  · rcases mem_collect hresult with hnil | hmem
    · cases hnil
    · exact tierRow_of_read .lexical hlex hfound hmem
  · exact tierRow_of_read .compact hcomp hmore hmem

omit [LinearOrder ρ] in
/-- What is behind a row of the join. -/
lemma joinedRow_hits {tier : Tier} {matchText : String} {f : Filters} {d : SearchDocument}
    {r : Row ρ} (h : joinedRow F tier matchText f v d = some r) :
    r.messageId = d.messageId ∧
      (F tier).hits matchText (tier.texts v.search d.rowid) = true ∧
      ∃ m, v.message d.messageId = some m ∧ f.admits m = true := by
  unfold joinedRow at h
  split at h
  · rename_i m hm
    rw [Option.ite_none_right_eq_some, Option.some.injEq] at h
    obtain ⟨⟨-, hhits, hadmits⟩, rfl⟩ := h
    exact ⟨rfl, hhits, m, hm, hadmits⟩
  · cases h

/-! ## What the document of a row holds -/

def Tier.text (tier : Tier) (d : SearchDocument) : String :=
  match tier with
  | lexical => d.textSearch
  | compact => d.textCompact

/-- A coherent index has the text of the document under its row id, and no other. -/
lemma texts_eq (hv : Coherent v.search) (tier : Tier) {d : SearchDocument}
    (hd : d ∈ v.search.documents) : tier.texts v.search d.rowid = [tier.text d] := by
  cases tier with
  | lexical => exact hv.lexical.filter_key hv.rowids hd
  | compact => exact hv.compact.filter_key hv.rowids hd

/-- What a tier asks of a document. -/
def Satisfies (N : Normaliser) (T : Tier → FullText.Tokenizer) (fold : Char → Char)
    (q : SearchQuery) (d : SearchDocument) : Tier → Prop
  | .lexical => ∀ op ∈ intendedLexical N q, FullText.Holds (T .lexical) op d.textSearch.toList
  | .compact => ∀ s ∈ compactTexts N q, s.toList.map fold <:+: d.textCompact.toList.map fold

variable {T : Tier → FullText.Tokenizer} {fold : Char → Char}

omit [LinearOrder ρ] in
lemma satisfies_of_hits (hF : Fts5 N F T fold) {tier : Tier} {m : String} {ops : List Operand}
    (hcompiled : compileTier N q tier = .ok m) (hops : MatchExpr.parse m = some ops)
    {d : SearchDocument} (hhits : (F tier).hits m [tier.text d] = true) :
    Satisfies N T fold q d tier := by
  have hall := (hF.hits tier m ops _ hops).mp hhits
  cases tier with
  | lexical =>
    rw [(intended_of_parse_lexical hcompiled hops).2] at hall
    exact hall.2
  | compact =>
    rw [intended_of_parse_compact hcompiled hops] at hall
    intro s hs
    have hholds := hall.2 _ (List.mem_map_of_mem hs)
    have hlong : 3 ≤ s.toList.length := of_decide_eq_true (List.mem_filter.mp hs).2
    rw [hF.trigram] at hholds
    exact (FullText.holds_trigrams_iff fold hlong _).mp hholds

/-- **Every hit satisfies what its tier asks for, and every filter.** -/
theorem hits_satisfy_query (hF : Fts5 N F T fold) (hv : Coherent v.search) {rows : List (Row ρ)}
    (h : run N F q v = .ok rows) {r : Row ρ} (hr : r ∈ rows) :
    ∃ d ∈ v.search.documents, ∃ m f, r.messageId = d.messageId ∧
      v.message r.messageId = some m ∧ bindFilters q = .ok f ∧ f.admits m = true ∧
      Satisfies N T fold q d r.tier := by
  obtain ⟨m, f, hrow⟩ := mem_run h hr
  obtain ⟨d, hd, hjoined⟩ := (mem_tierRows F).mp hrow.row
  obtain ⟨hid, hhits, message, hmessage, hadmits⟩ := joinedRow_hits hjoined
  rw [texts_eq hv r.tier hd] at hhits
  obtain ⟨ops, hops⟩ : ∃ ops, MatchExpr.parse m = some ops := by
    have haccepts := hF.accepts r.tier m (emitted_of_compileTier hrow.compiled)
    rw [hrow.accepted] at haccepts
    exact Option.isSome_iff_exists.mp haccepts.symm
  exact ⟨d, hd, message, f, hid, hid ▸ hmessage, hrow.filters, hadmits,
    satisfies_of_hits hF hrow.compiled hops hhits⟩

/-! ## Which hits are returned -/

/-- The rows that a tier matches under the filters, in no order.  An empty MATCH string matches
none. -/
def matched (F : Tier → Fts ρ) (tier : Tier) (m : String) (f : Filters) (v : Vault) : List (Row ρ) :=
  if m = "" then [] else v.search.documents.filterMap (joinedRow F tier m f v)

/-- The rows of a search through a limit: the best rows of the lexical tier, then the best of what the
compact one has beside them. -/
structure MergesTiers (n : ℕ) (lexical compact best rest : List (Row ρ)) : Prop where
  fills : Ranking.Fills Row.rank Row.messageId n lexical compact best rest
  lexical_tagged : ∀ r ∈ best, r.tier = .lexical
  compact_tagged : ∀ r ∈ rest, r.tier = .compact

lemma sortBy_matched (tier : Tier) (m : String) (f : Filters) :
    Ranking.sortBy Row.rank (matched F tier m f v) = if m = "" then [] else tierRows F tier m f v := by
  unfold matched tierRows
  split
  · rfl
  · rfl

omit [LinearOrder ρ] in
lemma tier_of_mem_matched {tier : Tier} {m : String} {f : Filters} {r : Row ρ}
    (h : r ∈ matched F tier m f v) : r.tier = tier := by
  unfold matched at h
  split at h
  · cases h
  · obtain ⟨d, -, hd⟩ := List.mem_filterMap.mp h
    exact (joinedRow_eq_some F hd).2.1

omit [LinearOrder ρ] in
lemma nodup_matched (h : Table.Unique SearchDocument.messageId v.search.documents) (tier : Tier)
    (m : String) (f : Filters) : ((matched F tier m f v).map Row.messageId).Nodup := by
  unfold matched
  split
  · exact List.nodup_nil
  · exact nodup_joinedRows F h tier m f

/-- A read of a tier that is not refused. -/
lemma readTier_matched {tier : Tier} {m : String} {room : Prop} [Decidable room] {limit : ℤ}
    {f : Filters} (hf : bindFilters q = .ok f) (hlimit : fitsInt64 limit = true)
    (haccepts : (F tier).accepts m = true) :
    readTier F tier m room q limit v = .ok
      (if room then limited limit (Ranking.sortBy Row.rank (matched F tier m f v)) else []) := by
  have hcheck := (checkTier_eq_ok F).mpr ⟨hf, hlimit, haccepts⟩
  rw [sortBy_matched]
  unfold readTier
  rw [runTier_eq, hcheck]
  by_cases hempty : m = ""
  · simp [hempty, limited_nil, pure, Except.pure]
  · by_cases hroom : room
    · simp [hempty, hroom, Except.map]
    · simp [hroom, pure, Except.pure]

/-- **The tiers are merged without a loss.**  Where a query is not refused, its rows are the head of
the lexical ranking and then the head of what the compact one has beside it, and no row is missing. -/
theorem run_merges_tiers {K : CharTables} (hK : K.KeepsNulFree)
    (haccepts : ∀ tier m, Emitted K.normaliser m →
      (F tier).accepts m = (MatchExpr.parse m).isSome)
    (hv : Table.Unique SearchDocument.messageId v.search.documents) {n : ℕ}
    (hlimit : q.limit = some (n : ℤ)) (hpositive : 1 ≤ n) (hmax : n ≤ 200)
    (hq : q.NulFree) (hsigned : ¬ SignedNear K.normaliser q) {lex comp : String} {f : Filters}
    (hlex : compileLexical K.normaliser q = .ok lex)
    (hcomp : compileCompact K.normaliser q = .ok comp) (hf : bindFilters q = .ok f) :
    ∃ best rest, run K.normaliser F q v = .ok (best ++ rest) ∧
      MergesTiers n (matched F .lexical lex f v) (matched F .compact comp f v) best rest := by
  have heffective : effectiveLimit q = n := by
    have hsome : (q.limit.filter fun limit => limit ≠ 0) = some (n : ℤ) := by
      rw [hlimit, Option.filter_some, if_pos (by simpa using Nat.one_le_iff_ne_zero.mp hpositive)]
    rw [effectiveLimit, hsome, Option.getD_some]
    exact min_eq_left (Int.ofNat_le.mpr hmax)
  have hfits : fitsInt64 (n : ℤ) = true := by
    simp [fitsInt64]
    omega
  have hlexical : (F .lexical).accepts lex = true := by
    rw [haccepts _ _ ⟨q, .inl hlex⟩, parse_compileLexical hK hq hlex, if_neg hsigned]
    rfl
  have hcompact : (F .compact).accepts comp = true := by
    rw [haccepts _ _ ⟨q, .inr hcomp⟩, parse_compileCompact hK hq hcomp]
    rfl
  have hnodup (tier : Tier) (m : String) := nodup_matched (F := F) hv tier m f
  obtain ⟨best, rest, htake, hfills⟩ :=
    Ranking.fills_take_merge Row.rank Row.messageId (hnodup .lexical lex) (hnodup .compact comp) n
  refine ⟨best, rest, ?_, hfills, fun r hr => ?_, fun r hr => ?_⟩
  · have hslice := sliceTo_collect (n : ℤ) (Ranking.nodup_sortBy Row.rank _ (hnodup .lexical lex))
      (Ranking.nodup_sortBy Row.rank _ (hnodup .compact comp)) (fun hzero => absurd hzero (by omega))
    have hnatural (rows : List (Row ρ)) : sliceTo (n : ℤ) rows = rows.take n := by
      rw [sliceTo, if_neg (by omega), Int.toNat_natCast]
    simp only [run, heffective, hlex, hcomp, Checks.ok_bind, readTier_matched hf hfits hlexical,
      readTier_matched hf hfits hcompact, if_true]
    rw [hslice, hnatural, htake]
    rfl
  · exact tier_of_mem_matched (hfills.first.subset r hr)
  · exact tier_of_mem_matched (List.mem_of_mem_filter (hfills.second.subset r hr))

/-! ### One message that holds one of two terms -/

/-- The runs between blanks. -/
def sampleTokenizer : FullText.Tokenizer := fun text =>
  (text.splitOn ' ').filter fun token => token ≠ []

def sampleTokenizers : Tier → FullText.Tokenizer
  | .lexical => sampleTokenizer
  | .compact => FullText.trigrams id

def sampleFts (tier : Tier) : Fts ℕ where
  accepts m := (MatchExpr.parse m).isSome
  hits m texts :=
    match MatchExpr.parse m, texts with
    | some ops, [text] => FullText.Hits (sampleTokenizers tier) ops text.toList
    | _, _ => false
  bm25 _ _ _ := 0

lemma sampleFts_fts5 (N : Normaliser) : Fts5 N sampleFts sampleTokenizers id where
  accepts _ _ _ := rfl
  hits tier m ops text h := by simp [sampleFts, h]
  trigram := rfl

def sampleHello : Message where
  id := "m"
  accountId := "a"
  conversationId := "c"
  senderContactId := none
  direction := .inbound
  tsLowerMs := 0
  tsUpperMsExclusive := 1
  tsPrecision := .ms
  tzName := none
  type := "text"
  textOriginal := some "hello"
  replyToWamid := none
  origin := .cloudApi
  windowEligible := true
  wamid := none
  importFingerprint := none
  deliveryRank := 0
  interval := by decide

def sampleIndex : SearchTables :=
  stageMessage sampleTables.normaliser "m" "hello" ⟨[], [], []⟩

def sampleIndexed : Vault :=
  { Vault.empty with
    evidence := { Vault.empty.evidence with messages := [sampleHello] }, search := sampleIndex }

lemma sampleIndex_coherent : Coherent sampleIndex := Coherent.empty.stageMessage _ _

def sampleTerms (terms : List PyStr) : SearchQuery := { SearchQuery.empty with terms := terms }

theorem hits_satisfy_query_sample :
    ∃ d ∈ sampleIndexed.search.documents, ∃ m f, "m" = d.messageId ∧
      sampleIndexed.message "m" = some m ∧ bindFilters (sampleTerms [.text "hello"]) = .ok f ∧
      f.admits m = true ∧ Satisfies sampleTables.normaliser sampleTokenizers id
        (sampleTerms [.text "hello"]) d .lexical := by
  have hrun : run sampleTables.normaliser sampleFts (sampleTerms [.text "hello"]) sampleIndexed =
      .ok [⟨"m", some "hello", "c", 0, .lexical⟩] := by
    decide
  exact hits_satisfy_query (sampleFts_fts5 _) sampleIndex_coherent hrun (List.mem_singleton_self _)

/-- The compact tier returns a message for its long term alone.  The short one is nowhere in it. -/
theorem short_term_is_dropped :
    Fts5 sampleTables.normaliser sampleFts sampleTokenizers id ∧ Coherent sampleIndexed.search ∧
      run sampleTables.normaliser sampleFts (sampleTerms [.text "ab", .text "hello"]) sampleIndexed =
        .ok [⟨"m", some "hello", "c", 0, .compact⟩] ∧
      (∃ d ∈ sampleIndexed.search.documents, d.messageId = "m" ∧
        ¬ FullText.Holds (sampleTokenizers .lexical)
          (.phrase (plain (lexicalText sampleTables.normaliser "ab"))) d.textSearch.toList ∧
        ¬ (compactText sampleTables.normaliser "ab").toList <:+: d.textCompact.toList) := by
  refine ⟨sampleFts_fts5 _, sampleIndex_coherent, ?_, ?_⟩
  · decide
  · decide

theorem run_merges_tiers_sample :
    ∃ best rest, run sampleTables.normaliser sampleFts (sampleTerms [.text "hello"]) sampleIndexed =
        .ok (best ++ rest) ∧
      MergesTiers 50
        (matched sampleFts .lexical "\"hello\"" ⟨[], [], none, [], none, none⟩ sampleIndexed)
        (matched sampleFts .compact "\"hello\"" ⟨[], [], none, [], none, none⟩ sampleIndexed)
        best rest := by
  have hfree : (sampleTerms [.text "hello"]).NulFree :=
    ⟨by decide, by decide, by decide, by decide⟩
  exact run_merges_tiers sampleTables_keepsNulFree (fun _ _ _ => rfl) sampleIndex_coherent.messageIds
    rfl (by decide) (by decide) hfree (by decide) (by decide) (by decide)
    (by decide)

/-- No message is this late. -/
def sampleLate : SearchQuery := { sampleTerms [.text "hello"] with fromMs := some (2 ^ 63) }

/-- Nothing matches, and the search raises. -/
theorem late_search_raises :
    (∀ m ∈ sampleIndexed.evidence.messages, ¬ 2 ^ 63 < m.tsUpperMsExclusive) ∧
      compileLexical sampleTables.normaliser sampleLate = .ok "\"hello\"" ∧
      compileCompact sampleTables.normaliser sampleLate = .ok "\"hello\"" ∧
      sampleLate.limit = some 50 ∧
      run sampleTables.normaliser sampleFts sampleLate sampleIndexed = .error .overflowError := by
  decide

end WhatsVault.Search
