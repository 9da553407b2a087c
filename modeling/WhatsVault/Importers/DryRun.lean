import WhatsVault.Importers.FirstImport

/-!
# The dry run

`dry_run` parses a text as `import_batch` does and counts what it would add.  It knows nothing of
the vault, so it foretells the import of a conversation the vault has no imported message of
(`import_follows_dryRun`): the same refusals, and otherwise one message added and one observation
made for each message of the text, for as many participants as there are senders.

What it leaves out is that the account and the conversation have to be in the vault, and that the
texts a fingerprint is made of have to fit their length prefixes.
-/

namespace WhatsVault.Importers

open Transaction

variable (I : Importer)

/-- What `dry_run` returns; a DST case is a `source_ordinal` with its class, a boundary its two
offsets. -/
structure Preview where
  wouldAdd : ℕ
  suggestedFamilies : List String
  formatDeclaredOk : Bool
  dstCases : List (ℕ × DstClass)
  unlinkedParticipants : List String
  systemLines : ℕ
  ambiguousBoundaries : List (ℕ × ℕ)
  selfResolved : Bool
  deriving DecidableEq

def previewOf (text dateFormat selfParticipantLabel : String) (records : List (Record × ℕ)) :
    Preview :=
  let msgs := messagesOf records
  let senders := sendersOf msgs
  let validating := if text ≠ "" then suggestFamilies I.unicode text else []
  let selfNorm := strip selfParticipantLabel
  { wouldAdd := msgs.length
    suggestedFamilies := validating
    formatDeclaredOk := dateFormat ≠ "" ∧ dateFormat ∈ validating
    dstCases := (msgs.filter fun r => r.time.dstClass ≠ .unambiguous).map fun r =>
      (r.sourceOrdinal, r.time.dstClass)
    unlinkedParticipants := senders
    systemLines := systemLines records
    ambiguousBoundaries := (records.filter fun r => r.1.kind = "ambiguous_boundary").map fun r =>
      (r.1.sourceStartOffset, r.1.sourceEndOffset)
    selfResolved := selfNorm ≠ "" ∧ senders.any fun s => strip s = selfNorm }

/-- `dry_run`; `none` where it raises. -/
def dryRun (text dateFormat tzName selfParticipantLabel : String) : Option Preview := do
  let records ← if dateFormat ≠ "" ∧ tzName ≠ "" then
      parseTranscript I.unicode (I.zone tzName) dateFormat text
    else some []
  pure (previewOf I text dateFormat selfParticipantLabel records)

variable {I} {args : ImportArgs} {ids : ImportIds}

/-! ## The two verdicts -/

/-- A call is refused with a code. -/
def RefusedWith (code : String) (result : Except Stop Summary) : Prop :=
  ∃ reason, result = .error (.refused reason) ∧ reason.code = code

lemma suggestFamilies_empty (U : Unicode) : suggestFamilies U "" = [] := by
  have hnone : headerDates U "" = [] := rfl
  simp [suggestFamilies, validateFamily, hnone]

/-- The families the dry run suggests are those the import validates. -/
lemma validating_eq (U : Unicode) (text : String) :
    (if text ≠ "" then suggestFamilies U text else []) = suggestFamilies U text := by
  split
  · rfl
  · rename_i hempty
    rw [not_not.mp hempty, suggestFamilies_empty]

section Gates

variable {records : List (Record × ℕ)}

/-- A text on which the dry run returns is parsed by the import. -/
lemma dryRun_eq_some (hformat : args.dateFormat ≠ "") (htz : args.tzName ≠ "") {p : Preview}
    (h : dryRun I args.text args.dateFormat args.tzName args.selfParticipantLabel = some p) :
    ∃ records, parseTranscript I.unicode (I.zone args.tzName) args.dateFormat args.text =
        some records ∧
      p = previewOf I args.text args.dateFormat args.selfParticipantLabel records := by
  unfold dryRun at h
  rw [if_pos ⟨hformat, htz⟩] at h
  obtain ⟨records, hrecords, hp⟩ := Option.bind_eq_some_iff.mp h
  exact ⟨records, hrecords, (Option.some.inj hp).symm⟩

lemma formatDeclaredOk_iff (hformat : args.dateFormat ≠ "") :
    (previewOf I args.text args.dateFormat args.selfParticipantLabel records).formatDeclaredOk =
      true ↔ args.dateFormat ∈ suggestFamilies I.unicode args.text := by
  have hok : (previewOf I args.text args.dateFormat args.selfParticipantLabel
      records).formatDeclaredOk = decide (args.dateFormat ≠ "" ∧ args.dateFormat ∈
        if args.text ≠ "" then suggestFamilies I.unicode args.text else []) := rfl
  rw [hok, validating_eq, decide_eq_true_iff, and_iff_right hformat]

lemma dstCases_eq_nil_iff :
    (previewOf I args.text args.dateFormat args.selfParticipantLabel records).dstCases = [] ↔
      ∀ r ∈ messagesOf records, r.time.dstClass = .unambiguous := by
  have hcases : (previewOf I args.text args.dateFormat args.selfParticipantLabel
      records).dstCases = ((messagesOf records).filter fun r => r.time.dstClass ≠ .unambiguous).map
        fun r => (r.sourceOrdinal, r.time.dstClass) := rfl
  rw [hcases, List.map_eq_nil_iff, List.filter_eq_nil_iff]
  simp

/-- The gates behind the three arguments that have to be there. -/
lemma gate_cases (hself : args.selfParticipantLabel ≠ "") (hformat : args.dateFormat ≠ "")
    (htz : args.tzName ≠ "") (hdst : args.dstResolutions = [])
    (h : parseTranscript I.unicode (I.zone args.tzName) args.dateFormat args.text = some records) :
    (args.dateFormat ∉ suggestFamilies I.unicode args.text ∧ gate I args =
        .error (.refused (formatMismatch args.dateFormat (suggestFamilies I.unicode args.text)))) ∨
      (args.dateFormat ∈ suggestFamilies I.unicode args.text ∧
        (∃ r ∈ messagesOf records, r.time.dstClass ≠ .unambiguous) ∧
        ∃ r, gate I args = .error (.refused (dstUnresolved r))) ∨
      (args.dateFormat ∈ suggestFamilies I.unicode args.text ∧
        (∀ r ∈ messagesOf records, r.time.dstClass = .unambiguous) ∧
        gate I args = .ok records) := by
  unfold gate
  simp only [Checks.require, hself, hformat, htz, ne_eq, not_false_eq_true, if_true, Checks.ok_bind,
    h, hdst, List.lookup_nil, Option.isNone_none, and_true, Checks.orStop, Option.elim_some]
  by_cases hfamily : args.dateFormat ∈ suggestFamilies I.unicode args.text
  · right
    rw [if_pos hfamily]
    rcases hfind : (messagesOf records).find? (fun r => r.time.dstClass ≠ .unambiguous) with _ | r
    · refine .inr ⟨hfamily, fun r hr => ?_, ?_⟩
      · have hplain := List.find?_eq_none.mp hfind r hr
        simpa using hplain
      · simp only [Checks.ok_bind]
        simp only [ne_eq] at hfind
        rw [hfind]
        rfl
    · refine .inl ⟨hfamily, ⟨r, List.mem_of_find?_eq_some hfind, ?_⟩, r, ?_⟩
      · have hclass := List.find?_some hfind
        simpa using hclass
      · simp only [Checks.ok_bind]
        simp only [ne_eq] at hfind
        rw [hfind]
  · left
    rw [if_neg hfamily]
    exact ⟨hfamily, rfl⟩

lemma importBatch_of_some {v v' : Vault} {summary : Summary} (hgate : gate I args = .ok records)
    (hbody : importBody I args ids records v = some (v', summary)) :
    importBatch I .ok args ids (.clean v) = (.clean v', .ok summary) := by
  have hrun : transact .ok (importBody I args ids records) (.clean v) =
      (.clean v', .done summary) := transact_ok_of_some hbody
  simp only [importBatch, hgate, hrun, ending]

lemma importBatch_of_none {v : Vault} (hgate : gate I args = .ok records)
    (hbody : importBody I args ids records v = none) :
    importBatch I .ok args ids (.clean v) = (.clean v, .error .raised) := by
  have hrun : transact .ok (importBody I args ids records) (.clean v) = (.clean v, .raised) :=
    transact_ok_of_none hbody
  simp only [importBatch, hgate, hrun, ending]

lemma not_refused {code : String} (summary : Summary) : ¬ RefusedWith code (.ok summary) := by
  rintro ⟨reason, hreason, -⟩
  cases hreason

lemma not_refused_raised {code : String} : ¬ RefusedWith code (.error .raised) := by
  rintro ⟨reason, hreason, -⟩
  cases hreason

end Gates

/-- The dry run tells what the import of an unimported conversation does.  Where the ids drawn are
fresh and the storage does not fail, the import refuses the format or an unresolved DST case exactly
where the dry run says so, and otherwise it goes through exactly where the vault admits it, with the
counts of the dry run and no two messages of one fingerprint or one key.  Where the vault does not
admit it, it raises and leaves the vault as it was. -/
theorem import_follows_dryRun (I : Importer) (hsha : Function.Injective I.platform.sha256)
    (hzone : I.DayOffsets) (args : ImportArgs) (hself : args.selfParticipantLabel ≠ "")
    (hformat : args.dateFormat ≠ "") (htz : args.tzName ≠ "") (hdst : args.dstResolutions = [])
    (p : Preview)
    (hdry : dryRun I args.text args.dateFormat args.tzName args.selfParticipantLabel = some p)
    (ids : ImportIds) (v : Vault) (hids : FreshIds ids v)
    (hnamed : Fingerprinted I.platform v.evidence.messages)
    (hother : Unimported args.conversationId v.evidence.messages) :
    (RefusedWith "FORMAT_MISMATCH" (importBatch I .ok args ids (.clean v)).2 ↔
      p.formatDeclaredOk = false) ∧
    (RefusedWith "DST_UNRESOLVED" (importBatch I .ok args ids (.clean v)).2 ↔
      p.formatDeclaredOk = true ∧ p.dstCases ≠ []) ∧
    (p.formatDeclaredOk = true → p.dstCases = [] →
      (Admits I args v → ∃ v', importBatch I .ok args ids (.clean v) =
        (.clean v', .ok ⟨ids.batch, p.wouldAdd, p.wouldAdd, p.unlinkedParticipants.length⟩) ∧
          AddsApart p.wouldAdd v v') ∧
      (¬ Admits I args v →
        importBatch I .ok args ids (.clean v) = (.clean v, .error .raised))) := by
  obtain ⟨records, hrecords, rfl⟩ := dryRun_eq_some hformat htz hdry
  rw [← Bool.not_eq_true, formatDeclaredOk_iff hformat, ne_eq, dstCases_eq_nil_iff]
  rcases gate_cases hself hformat htz hdst hrecords with
    ⟨hfamily, hgate⟩ | ⟨hfamily, hcase, r, hgate⟩ | ⟨hfamily, hplain, hgate⟩
  · have hrun : (importBatch I .ok args ids (.clean v)).2 = .error (.refused
        (formatMismatch args.dateFormat (suggestFamilies I.unicode args.text))) := by
      simp only [importBatch, hgate]
    rw [hrun]
    refine ⟨iff_of_true ⟨_, rfl, rfl⟩ hfamily, iff_of_false ?_ fun h => hfamily h.1,
      fun hok => absurd hok hfamily⟩
    rintro ⟨reason, hreason, hcode⟩
    obtain rfl := Stop.refused.inj (Except.error.inj hreason)
    change "FORMAT_MISMATCH" = "DST_UNRESOLVED" at hcode
    exact absurd hcode (by decide)
  · have hrun : (importBatch I .ok args ids (.clean v)).2 =
        .error (.refused (dstUnresolved r)) := by
      simp only [importBatch, hgate]
    rw [hrun]
    have hnot : ¬ ∀ r ∈ messagesOf records, r.time.dstClass = .unambiguous := by
      intro hplain
      obtain ⟨q, hq, hclass⟩ := hcase
      exact hclass (hplain q hq)
    refine ⟨iff_of_false ?_ (not_not.mpr hfamily), iff_of_true ⟨_, rfl, rfl⟩ ⟨hfamily, hnot⟩,
      fun _ hplain => absurd hplain hnot⟩
    rintro ⟨reason, hreason, hcode⟩
    obtain rfl := Stop.refused.inj (Except.error.inj hreason)
    change "DST_UNRESOLVED" = "FORMAT_MISMATCH" at hcode
    exact absurd hcode (by decide)
  · have hfamilies : args.dateFormat ∈ families := List.mem_of_mem_filter hfamily
    by_cases hadmits : Admits I args v
    · obtain ⟨v', hbody, happart⟩ := importBody_of_admits hsha hzone hrecords hfamilies hplain
        hadmits hids hnamed hother
      rw [importBatch_of_some hgate hbody]
      exact ⟨iff_of_false (not_refused _) (not_not.mpr hfamily),
        iff_of_false (not_refused _) fun h => h.2 hplain,
        fun _ _ => ⟨fun _ => ⟨v', rfl, happart⟩, fun hnot => absurd hadmits hnot⟩⟩
    · have hbody : importBody I args ids records v = none := by
        rw [Option.eq_none_iff_forall_ne_some]
        rintro ⟨v', summary⟩ hbody
        exact hadmits (admits_of_importBody hrecords hbody)
      rw [importBatch_of_none hgate hbody]
      exact ⟨iff_of_false not_refused_raised (not_not.mpr hfamily),
        iff_of_false not_refused_raised fun h => h.2 hplain,
        fun _ _ => ⟨fun hyes => absurd hyes hadmits, fun _ => rfl⟩⟩

/-! ## A sample -/

/-- The dry run of two like messages. -/
def samplePreview : Preview :=
  ⟨2, ["DMY", "MDY", "YMD"], true, [], ["M"], 0, [], false⟩

lemma dayOffsets_sampleImporter : sampleImporter.DayOffsets := by
  intro name z hz t fold
  change (if name = "UTC" then some Zone.utc else none) = some z at hz
  split at hz
  · obtain rfl := Option.some.inj hz
    show |(0 : ℤ)| < 86400
    decide
  · cases hz

lemma freshIds_sampleVault : FreshIds (sampleImportIds "a") sampleVault where
  batch := by decide
  observed := by decide
  participant := by intro p hp; cases hp
  participants := by
    intro n k h
    have hlength := congrArg (fun id => id.toList.length) h
    simpa [sampleImportIds] using hlength
  message := by intro m hm; cases hm
  messages := by
    intro n k h
    have hlength := congrArg (fun id => id.toList.length) h
    simpa [sampleImportIds] using hlength

lemma admits_sampleVault : Admits sampleImporter (sampleArgs sampleExports[0]) sampleVault := by
  have hlength : (bagOf sampleImporter (sampleArgs sampleExports[0])).length ≤ 256 ^ 4 := by
    decide
  exact ⟨by decide, by decide, by decide, by decide, by decide,
    fun b => List.count_le_length.trans hlength⟩

/-- Two like messages are two messages, as the dry run says. -/
theorem import_follows_dryRun_sample : ∃ v', importBatch sampleImporter .ok
    (sampleArgs sampleExports[0]) (sampleImportIds "a") (.clean sampleVault) =
      (.clean v', .ok ⟨"bat_a", 2, 2, 1⟩) ∧ AddsApart 2 sampleVault v' := by
  have hdry : dryRun sampleImporter (sampleArgs sampleExports[0]).text
      (sampleArgs sampleExports[0]).dateFormat (sampleArgs sampleExports[0]).tzName
      (sampleArgs sampleExports[0]).selfParticipantLabel = some samplePreview := by decide
  obtain ⟨-, -, hgoes⟩ := import_follows_dryRun sampleImporter (fun _ _ h => h)
    dayOffsets_sampleImporter (sampleArgs sampleExports[0]) (by decide) (by decide) (by decide) rfl
    samplePreview hdry (sampleImportIds "a") sampleVault freshIds_sampleVault
    (fun m hm => by cases hm) (fun m hm => by cases hm)
  exact (hgoes rfl rfl).1 admits_sampleVault

/-- One message, of a declared format or of none, for a conversation. -/
def oneMessage (dateFormat conversationId : String) : ImportArgs :=
  ⟨"1/4/26 1:02 M: h", "", dateFormat, "UTC", conversationId, "acc_1", "Me", [], none⟩

/-- A conversation id too long for a length prefix. -/
def longId : String := String.ofList (List.replicate (256 ^ 4) 'c')

/-- A vault with one conversation of a given id. -/
def vaultOf (conversationId : String) : Vault :=
  ⟨⟨[⟨"acc_1", "PN1"⟩], [], [⟨conversationId, "acc_1", .dm, none, none, none, .allowMcp⟩], [], [],
    []⟩, Vault.empty.imports, Vault.empty.search, Vault.empty.ingestDlq, Vault.empty.circuit⟩

lemma length_utf8_replicate (n : ℕ) :
    n ≤ (utf8 (String.ofList (List.replicate n 'c'))).length := by
  show n ≤ (String.ofList (List.replicate n 'c')).utf8ByteSize
  induction n with
  | zero => exact Nat.zero_le _
  | succ n ih =>
    have hsplit : List.replicate (n + 1) 'c' = ['c'] ++ List.replicate n 'c' := rfl
    have hone : (String.ofList ['c']).utf8ByteSize = 1 := by decide
    rw [hsplit, String.ofList_append, String.utf8ByteSize_append, hone]
    omega

lemma raised_of_not_admits {dateFormat conversationId : String} {v : Vault}
    (hgate : (gate sampleImporter (oneMessage dateFormat conversationId)).isOk = true)
    (hadmits : ¬ Admits sampleImporter (oneMessage dateFormat conversationId) v) :
    (importBatch sampleImporter .ok (oneMessage dateFormat conversationId) (sampleImportIds "a")
      (.clean v)).2 = .error .raised := by
  rcases hrun : gate sampleImporter (oneMessage dateFormat conversationId) with stop | records
  · rw [hrun] at hgate
    cases hgate
  · have hbody : importBody sampleImporter (oneMessage dateFormat conversationId)
        (sampleImportIds "a") records v = none := by
      rw [Option.eq_none_iff_forall_ne_some]
      rintro ⟨v', summary⟩ hbody
      exact hadmits (admits_of_importBody (gate_eq_ok hrun) hbody)
    rw [importBatch_of_none hrun hbody]

/-- What the dry run does not foresee: an empty format, a conversation that is not in the vault, and
one whose id cannot be fingerprinted. -/
theorem dry_run_foretells_too_much :
    (∃ p, dryRun sampleImporter "1/4/26 1:02 M: h" "" "UTC" "Me" = some p ∧
      p.formatDeclaredOk = false ∧
      RefusedWith "MISSING_FORMAT" (importBatch sampleImporter .ok (oneMessage "" "cnv_1")
        (sampleImportIds "a") (.clean (vaultOf "cnv_1"))).2) ∧
    ∃ p, dryRun sampleImporter "1/4/26 1:02 M: h" "DMY" "UTC" "Me" = some p ∧
      p.formatDeclaredOk = true ∧ p.dstCases = [] ∧ p.wouldAdd = 1 ∧
      (importBatch sampleImporter .ok (oneMessage "DMY" "cnv_1") (sampleImportIds "a")
        (.clean Vault.empty)).2 = .error .raised ∧
      (importBatch sampleImporter .ok (oneMessage "DMY" longId) (sampleImportIds "a")
        (.clean (vaultOf longId))).2 = .error .raised := by
  refine ⟨⟨⟨0, ["DMY", "MDY", "YMD"], false, [], [], 0, [], false⟩, by decide, rfl,
    missingFormat, by decide, rfl⟩,
    ⟨1, ["DMY", "MDY", "YMD"], true, [], ["M"], 0, [], false⟩, by decide, rfl, rfl, rfl,
    raised_of_not_admits (by decide) ?_, raised_of_not_admits (by decide) ?_⟩
  · rintro ⟨⟨⟨a, ha, -⟩, -⟩, -⟩
    cases ha
  · rintro ⟨-, hfits⟩
    obtain ⟨r, hr⟩ : ∃ r, r ∈ exportOf sampleImporter (oneMessage "DMY" longId) :=
      List.exists_mem_of_ne_nil _ (by decide)
    exact absurd (hfits.conversation r hr) (not_lt.mpr (length_utf8_replicate _))

end WhatsVault.Importers
