import WhatsVault.Search.Query

/-!
# What a search returns

`plan` is everything a search decides without looking at a row: the two compiled strings, the bound
filters and the limit, or the exception.  `ranking` is every match of a plan in order, the lexical
tier before the rest of the compact one.  `run_eq` says that a search returns the beginning of its
ranking.
-/

namespace WhatsVault.Search

variable (N : Normaliser) {ρ : Type} (F : Tier → Fts ρ)

/-! ## One tier -/

/-- What `_tier` does before it reads a row. -/
def checkTier (tier : Tier) (matchText : String) (q : SearchQuery) (limit : ℤ) :
    Except Raised Filters := do
  let f ← bindFilters q
  Checks.require (fitsInt64 limit = true) .overflowError
  Checks.require ((F tier).accepts matchText = true) .operationalError
  pure f

lemma checkTier_eq_ok {tier : Tier} {matchText : String} {q : SearchQuery} {limit : ℤ}
    {f : Filters} :
    checkTier F tier matchText q limit = .ok f ↔
      bindFilters q = .ok f ∧ fitsInt64 limit = true ∧ (F tier).accepts matchText = true := by
  unfold checkTier
  simp only [Checks.bind_eq_ok, Checks.require_eq_ok, Checks.pure_eq_ok]
  constructor
  · rintro ⟨f', hf, -, hlimit, -, haccepts, rfl⟩
    exact ⟨hf, hlimit, haccepts⟩
  · rintro ⟨hf, hlimit, haccepts⟩
    exact ⟨f, hf, (), hlimit, (), haccepts, rfl⟩

variable [LinearOrder ρ]

lemma runTier_eq (tier : Tier) (matchText : String) (q : SearchQuery) (limit : ℤ) (v : Vault) :
    runTier F tier matchText q limit v =
      (checkTier F tier matchText q limit).map fun f =>
        limited limit (tierRows F tier matchText f v) := by
  unfold runTier checkTier
  rcases bindFilters q with e | f
  · rfl
  · rcases Checks.require (fitsInt64 limit = true) Raised.overflowError with e | u
    · rfl
    · rcases Checks.require ((F tier).accepts matchText = true) Raised.operationalError with e | u
      · rfl
      · rfl

omit [LinearOrder ρ] in
lemma joinedRow_eq_some {tier : Tier} {matchText : String} {f : Filters} {v : Vault}
    {d : SearchDocument} {r : Row ρ} (h : joinedRow F tier matchText f v d = some r) :
    r.messageId = d.messageId ∧ r.tier = tier ∧
      ∃ m, v.message d.messageId = some m ∧ r.conversationId = m.conversationId := by
  unfold joinedRow at h
  split at h
  · rename_i m hm
    rw [Option.ite_none_right_eq_some, Option.some.injEq] at h
    obtain ⟨-, rfl⟩ := h
    exact ⟨rfl, rfl, m, hm, rfl⟩
  · cases h

lemma mem_tierRows {tier : Tier} {matchText : String} {f : Filters} {v : Vault} {r : Row ρ} :
    r ∈ tierRows F tier matchText f v ↔
      ∃ d ∈ v.search.documents, joinedRow F tier matchText f v d = some r := by
  unfold tierRows
  rw [Ranking.mem_sortBy, List.mem_filterMap]

omit [LinearOrder ρ] in
lemma nodup_joinedRows {v : Vault} (h : Table.Unique SearchDocument.messageId v.search.documents)
    (tier : Tier) (matchText : String) (f : Filters) :
    ((v.search.documents.filterMap (joinedRow F tier matchText f v)).map Row.messageId).Nodup := by
  have hrows : ((v.search.documents.filterMap (joinedRow F tier matchText f v)).map
      Row.messageId).Sublist (v.search.documents.map SearchDocument.messageId) := by
    induction v.search.documents with
    | nil => exact List.Sublist.refl _
    | cons d documents ih =>
      rcases hrow : joinedRow F tier matchText f v d with _ | r
      · rw [List.filterMap_cons_none hrow, List.map_cons]
        exact ih.cons _
      · rw [List.filterMap_cons_some hrow, List.map_cons, List.map_cons,
          (joinedRow_eq_some F hrow).1]
        exact ih.cons_cons _
  exact List.Nodup.sublist hrows h

/-- A tier names a message once. -/
lemma nodup_tierRows {v : Vault} (h : Table.Unique SearchDocument.messageId v.search.documents)
    (tier : Tier) (matchText : String) (f : Filters) :
    ((tierRows F tier matchText f v).map Row.messageId).Nodup :=
  Ranking.nodup_sortBy Row.rank Row.messageId (nodup_joinedRows F h tier matchText f)

omit [LinearOrder ρ] in
/-- The loop over a tier's rows appends those whose message is not among the results. -/
lemma collect_eq (results : List (Row ρ)) {rows : List (Row ρ)}
    (h : (rows.map Row.messageId).Nodup) :
    collect results rows = Ranking.merge Row.messageId results rows := by
  unfold collect Ranking.merge
  induction rows generalizing results with
  | nil => simp
  | cons r rows ih =>
    rw [List.map_cons, List.nodup_cons] at h
    rw [List.foldl_cons, ih _ h.2]
    by_cases hseen : r.messageId ∈ results.map Row.messageId
    · rw [if_pos hseen, List.filter_cons_of_neg (by simpa using hseen)]
    · rw [if_neg hseen, List.filter_cons_of_pos (by simpa using hseen), List.append_assoc,
        List.singleton_append]
      congr 2
      refine List.filter_congr fun y hy => ?_
      have hne : y.messageId ≠ r.messageId := fun heq => h.1 (heq ▸ List.mem_map_of_mem hy)
      simp [hne]

omit [LinearOrder ρ] in
@[simp] lemma collect_nil (results : List (Row ρ)) : collect results [] = results := rfl

/-! ## The plan and the ranking -/

/-- A tier's MATCH string with the filters bound for it. -/
structure TierPlan where
  matchText : String
  filters : Filters
  deriving DecidableEq

structure Plan where
  lexical : Option TierPlan
  compact : Option TierPlan
  limit : ℤ
  deriving DecidableEq

def planTier (tier : Tier) (matchText : String) (reads : Prop) [Decidable reads] (q : SearchQuery)
    (limit : ℤ) : Except Raised (Option TierPlan) :=
  if matchText ≠ "" ∧ reads then
    (checkTier F tier matchText q limit).map fun f => some ⟨matchText, f⟩
  else pure none

/-- What a search decides before it looks at a row. -/
def plan (q : SearchQuery) : Except Raised Plan := do
  let limit := effectiveLimit q
  let lex ← compileLexical N q
  let lexical ← planTier F .lexical lex True q limit
  let comp ← compileCompact N q
  let compact ← planTier F .compact comp (0 < limit) q limit
  pure ⟨lexical, compact, limit⟩

/-- The rows of a planned tier, none where it is not read. -/
def plannedRows (tier : Tier) (t : Option TierPlan) (v : Vault) : List (Row ρ) :=
  t.elim [] fun t => tierRows F tier t.matchText t.filters v

/-- Every match of a plan in order. -/
def ranking (p : Plan) (v : Vault) : List (Row ρ) :=
  Ranking.merge Row.messageId (plannedRows F .lexical p.lexical v)
    (plannedRows F .compact p.compact v)

/-- How many rows of the ranking a search returns. -/
def admitted (p : Plan) (v : Vault) : ℕ :=
  if p.limit < 0 then (ranking F p v).length - (-p.limit).toNat else p.limit.toNat

lemma nodup_plannedRows {v : Vault} (h : Table.Unique SearchDocument.messageId v.search.documents)
    (tier : Tier) (t : Option TierPlan) :
    ((plannedRows F tier t v).map Row.messageId).Nodup := by
  cases t with
  | none => exact List.nodup_nil
  | some t => exact nodup_tierRows F h tier t.matchText t.filters

lemma nodup_ranking {v : Vault} (h : Table.Unique SearchDocument.messageId v.search.documents)
    (p : Plan) : ((ranking F p v).map Row.messageId).Nodup :=
  Ranking.nodup_merge Row.messageId (nodup_plannedRows F h .lexical p.lexical)
    (nodup_plannedRows F h .compact p.compact)

/-- A compact MATCH string is made of phrases alone, and FTS5 parses it wherever it parses the
lexical one, which holds the same phrases. -/
def PhrasesParse : Prop :=
  ∀ q lex comp, compileLexical N q = .ok lex → lex ≠ "" → (F .lexical).accepts lex = true →
    compileCompact N q = .ok comp → (F .compact).accepts comp = true

omit [LinearOrder ρ] in
/-- What is left of the rows of two tiers after the limit of each, the loop and the last slice. -/
lemma sliceTo_collect {lexical compact : List (Row ρ)} (n : ℤ)
    (hlexical : (lexical.map Row.messageId).Nodup) (hcompact : (compact.map Row.messageId).Nodup)
    (hnegative : n ≤ 0 → compact = []) :
    sliceTo n (collect (collect [] (limited n lexical))
      (if ((collect [] (limited n lexical)).length : ℤ) < n then limited n compact else [])) =
    sliceTo n (Ranking.merge Row.messageId lexical compact) := by
  by_cases hn : n < 0
  · have hlimited : collect [] (limited n lexical) = lexical := by
      rw [limited, if_pos hn, collect_eq [] hlexical, Ranking.merge_nil_left]
    rw [hlimited, if_neg (by omega), hnegative hn.le, collect_nil, Ranking.merge_nil_right]
  · obtain ⟨k, rfl⟩ : ∃ k : ℕ, n = k := ⟨n.toNat, by omega⟩
    have htake : ∀ rows : List (Row ρ), limited (k : ℤ) rows = rows.take k := fun rows => by
      simp [limited]
    have hnodup : ∀ {rows : List (Row ρ)}, (rows.map Row.messageId).Nodup →
        ((rows.take k).map Row.messageId).Nodup := fun h =>
      h.sublist ((List.take_sublist k _).map Row.messageId)
    have hslice : ∀ rows : List (Row ρ), sliceTo (k : ℤ) rows = rows.take k := fun rows => by
      simp [sliceTo, hn]
    rw [htake, htake, collect_eq [] (hnodup hlexical), Ranking.merge_nil_left, hslice, hslice]
    by_cases hroom : lexical.length < k
    · rw [List.take_of_length_le hroom.le, if_pos (by omega), collect_eq _ (hnodup hcompact)]
      exact Ranking.take_merge_take Row.messageId k lexical hcompact
    · have hfull : k ≤ lexical.length := by omega
      rw [if_neg (by simp [hfull]), collect_nil, List.take_take, min_self,
        Ranking.take_merge_of_le Row.messageId compact hfull]

omit [LinearOrder ρ] in
lemma limited_nil (n : ℤ) : limited n ([] : List (Row ρ)) = [] := by simp [limited]

/-- A read, in terms of the plan.  A tier that is planned is left out where there is no room for it,
and then the plan must not raise for it. -/
lemma readTier_eq (tier : Tier) (matchText : String) {room reads : Prop} [Decidable room]
    [Decidable reads] (q : SearchQuery) (limit : ℤ) (hroom : room → reads)
    (hchecked : ¬room → matchText ≠ "" → reads →
      ∃ f, checkTier F tier matchText q limit = .ok f) (v : Vault) :
    readTier F tier matchText room q limit v =
      (planTier F tier matchText reads q limit).map fun t =>
        if room then limited limit (plannedRows F tier t v) else [] := by
  unfold readTier planTier
  by_cases hr : room
  · by_cases hempty : matchText = ""
    · simp [hempty, hr, plannedRows, limited_nil, pure, Except.pure, Except.map]
    · rw [if_pos ⟨hempty, hr⟩, if_pos ⟨hempty, hroom hr⟩, runTier_eq]
      rcases checkTier F tier matchText q limit with e | f
      · rfl
      · simp [Except.map, plannedRows, hr]
  · rw [if_neg fun hand => hr hand.2]
    by_cases hreads : matchText ≠ "" ∧ reads
    · obtain ⟨f, hf⟩ := hchecked hr hreads.1 hreads.2
      rw [if_pos hreads, hf]
      simp [Except.map, pure, Except.pure, hr]
    · rw [if_neg hreads]
      simp [Except.map, pure, Except.pure, hr]

/-- A tier that is planned under a condition is planned only where the condition holds. -/
lemma plannedRows_of_not {tier : Tier} {matchText : String} {reads : Prop} [Decidable reads]
    {q : SearchQuery} {limit : ℤ} {t : Option TierPlan} (hreads : ¬reads)
    (h : planTier F tier matchText reads q limit = .ok t) (v : Vault) :
    plannedRows F tier t v = [] := by
  unfold planTier at h
  rw [if_neg fun hand => hreads hand.2, Checks.pure_eq_ok] at h
  subst h
  rfl

/-- A search returns the beginning of its ranking. -/
theorem run_eq {v : Vault} (hparse : PhrasesParse N F)
    (h : Table.Unique SearchDocument.messageId v.search.documents) (q : SearchQuery) :
    run N F q v = (plan N F q).map fun p => (ranking F p v).take (admitted F p v) := by
  have hslice : ∀ p : Plan, (ranking F p v).take (admitted F p v) =
      sliceTo p.limit (ranking F p v) := fun _ => rfl
  simp only [hslice]
  unfold run plan
  rcases hlex : compileLexical N q with e | lex
  · rfl
  have hfirst := readTier_eq F .lexical lex q (effectiveLimit q) (fun hroom : True => hroom)
    (fun hroom => absurd trivial hroom) v
  simp only [bind, Except.bind, hfirst]
  rcases hlexical : planTier F .lexical lex True q (effectiveLimit q) with e | t
  · rfl
  simp only [Except.map, if_true]
  rcases hcomp : compileCompact N q with e | comp
  · rfl
  have hroom : ((collect [] (limited (effectiveLimit q) (plannedRows F .lexical t v))).length : ℤ) <
      effectiveLimit q → 0 < effectiveLimit q := fun hlt => by omega
  -- where the compact tier is not read for want of room, the lexical one was, and was not refused
  have hchecked : ¬((collect [] (limited (effectiveLimit q)
      (plannedRows F .lexical t v))).length : ℤ) < effectiveLimit q → comp ≠ "" →
      0 < effectiveLimit q → ∃ f, checkTier F .compact comp q (effectiveLimit q) = .ok f := by
    intro hfull _ hpositive
    unfold planTier at hlexical
    by_cases hempty : lex = ""
    · rw [if_neg fun hand => hand.1 hempty, Checks.pure_eq_ok] at hlexical
      subst hlexical
      simp [plannedRows, limited_nil] at hfull
      omega
    · rw [if_pos ⟨hempty, trivial⟩] at hlexical
      rcases hcheck : checkTier F .lexical lex q (effectiveLimit q) with e | f
      · rw [hcheck] at hlexical
        cases hlexical
      · obtain ⟨hbind, hfits, haccepts⟩ := (checkTier_eq_ok F).mp hcheck
        exact ⟨f, (checkTier_eq_ok F).mpr ⟨hbind, hfits, hparse q lex comp hlex hempty haccepts hcomp⟩⟩
  simp only [readTier_eq F .compact comp q (effectiveLimit q) hroom hchecked v]
  rcases hcompact : planTier F .compact comp (0 < effectiveLimit q) q (effectiveLimit q) with e | t'
  · rfl
  have hnone : effectiveLimit q ≤ 0 → plannedRows F .compact t' v = [] := fun hle =>
    plannedRows_of_not F hle.not_gt hcompact v
  have hend := sliceTo_collect (effectiveLimit q) (nodup_plannedRows F h .lexical t)
    (nodup_plannedRows F h .compact t') hnone
  simp only [Except.map, pure, Except.pure, ranking, hend]

end WhatsVault.Search
