import WhatsVault.Crypto.AtRest
import WhatsVault.Importers.DryRun
import WhatsVault.Library.Program
import WhatsVault.Library.Run

/-!
# Source artefacts

`store_source_artifact` keeps the raw text of an import sealed in a file that is named after its
digest.  The file is written under another name first and then put in place, so it is there as a whole
or not at all, also when the call is killed or the disk is full; and a later call for the same text puts
another sealing of it in its place.  So the artefact a batch row names can be opened for as long as the
vault has its key, and `reparse` reads from it what the import read (`reparse_of_run`).

The directory maps names to contents.  A name that `mkstemp` makes is none of an artefact's.
-/

namespace WhatsVault.Importers.Artefacts

open Program

/-- The files of `dest_dir`. -/
abbrev Dir := String → Option Bytes

namespace Dir

def put (name : String) (contents : Bytes) (d : Dir) : Dir := Function.update d name (some contents)

/-- One more byte of a file. -/
def append (name : String) (b : UInt8) (d : Dir) : Dir :=
  Function.update d name (some ((d name).getD [] ++ [b]))

/-- `os.remove`, where there is a file. -/
def remove (name : String) (d : Dir) : Dir := Function.update d name none

/-- `os.replace`. -/
def replace (src dst : String) (d : Dir) : Dir :=
  Function.update (Function.update d dst (d src)) src none

end Dir

inductive Failure
  /-- `UnicodeEncodeError`. -/
  | encoding
  /-- What `seal_blob` raises. -/
  | sealing
  | os
  /-- `source artefact hash mismatch after write`. -/
  | mismatch
  deriving DecidableEq

/-- One `store_source_artifact` call, with the nonce and the name that are drawn for it and what the
system refuses. -/
structure StoreCall where
  sourceSha256 : String
  rawBytes : Bytes
  nonce : Bytes
  /-- What `mkstemp` calls the file. -/
  tmp : String
  mkstempFails : Bool
  /-- How many bytes are written before the write, or the `fsync`, fails. -/
  writeFails : Option ℕ
  replaceFails : Bool
  openFails : Bool

/-- `s.encode("ascii")`. -/
def encodeAscii (s : String) : Option Bytes :=
  if s.toList.all fun c => c.toNat < 128 then some (utf8 s) else none

/-- `_SRC_AAD_PREFIX + source_sha256.encode("ascii")`. -/
def srcAad (sourceSha256 : String) : Option Bytes :=
  (encodeAscii sourceSha256).map fun digest => utf8 "WHATSVAULT-IMPORT-SRC-V1\n" ++ digest

/-- `source_sha256 + ".wvblob"`. -/
def artefactName (sourceSha256 : String) : String := sourceSha256 ++ ".wvblob"

section Store

variable (C : AtRest.Primitives) (P : Platform) (key : Bytes)

/-- The bytes of a file, one after the other. -/
def writeBytes (name : String) (bytes : Bytes) : Program Dir Failure PUnit :=
  bytes.foldlM (fun _ b => change (Dir.append name b)) ⟨⟩

/-- The `try` block. -/
def land (call : StoreCall) (blob : Bytes) : Program Dir Failure PUnit := do
  writeBytes call.tmp (blob.take (call.writeFails.getD blob.length))
  refuseIf (call.writeFails ≠ none) .os
  refuseIf (call.replaceFails = true) .os
  change (Dir.replace call.tmp (artefactName call.sourceSha256))

/-- `store_source_artifact`. -/
def storeSourceArtifact (call : StoreCall) : Program Dir Failure (String × String) :=
  match srcAad call.sourceSha256 with
  | none => raise .encoding
  | some aad =>
    match AtRest.SealCall.seal C ⟨key, call.rawBytes, 0, aad, call.nonce⟩ with
    | none => raise .sealing
    | some blob => do
      let d ← now
      refuseIf (call.mkstempFails = true ∨ (d call.tmp).isSome) .os
      change (Dir.put call.tmp [])
      rescue (land call blob) fun e => do
        change (Dir.remove call.tmp)
        raise e
      refuseIf (call.openFails = true) .os
      let onDisk ← look fun (d : Dir) => (d (artefactName call.sourceSha256)).elim (.error .os) .ok
      refuseIf (P.hexdigest onDisk ≠ P.hexdigest blob) .mismatch
      pure (artefactName call.sourceSha256, P.hexdigest blob)

end Store

/-- `reparse`; `none` where it raises. -/
def reparse (I : Importer) (C : AtRest.Primitives) (d : Dir) (v : Vault) (batchId : String)
    (key : Bytes) : Option Preview := do
  let row ← Table.find ImportBatch.id batchId v.imports.batches
  let (path, _) ← row.sourceArtifact
  if path = "" then none
  else do
    let blob ← d path
    let aad ← srcAad row.sourceSha256
    match AtRest.openBlob C key blob aad with
    | .opened raw => do
      let text ← decodeUtf8 raw
      dryRun I text row.declaredDateFormat row.declaredTimezone row.selfParticipantLabel
    | _ => none

/-! ## One call -/

/-- The call as `seal_blob` sees it. -/
def StoreCall.sealCall (key : Bytes) (call : StoreCall) : Option AtRest.SealCall :=
  (srcAad call.sourceSha256).map fun aad => ⟨key, call.rawBytes, 0, aad, call.nonce⟩

lemma artefactName_injective : Function.Injective artefactName := by
  intro s t h
  have hchars := congrArg String.toList h
  simp only [artefactName, String.toList_append] at hchars
  exact String.toList_injective (List.append_cancel_right hchars)

variable {C : AtRest.Primitives} {P : Platform} {key : Bytes} {call : StoreCall}

lemma writeBytes_triple {I : Dir → Prop} {name : String}
    (hscratch : ∀ d contents, I d → I (Function.update d name contents)) (bytes : Bytes) :
    Triple I (fun d => d name = some []) (writeBytes name bytes) fun _ d => d name = some bytes := by
  have hloop := Triple.foldlM (I := I) (f := fun (_ : PUnit) b => change (Dir.append name b))
    (ε := Failure) (J := fun done _ d => d name = some done) [] bytes ?_ ⟨⟩
  · exact hloop
  intro before b rest _ _
  refine Triple.change (fun d hd _ => hscratch d _ hd) fun d _ hd => ?_
  simp [Dir.append, hd]

variable (C P key call) in
/-- What a call does to the directory: it writes a file of its own, and puts a whole blob in place.
When it returns, the blob is there. -/
lemma store_triple {I : Dir → Prop} (htmp : ∀ digest, call.tmp ≠ artefactName digest)
    (hscratch : ∀ d contents, I d → I (Function.update d call.tmp contents))
    (hland : ∀ d s blob, I d → call.sealCall key = some s → s.seal C = some blob →
      I (Function.update d (artefactName call.sourceSha256) (some blob))) :
    Triple I (fun _ => True) (storeSourceArtifact C P key call) fun r d =>
      r.1 = artefactName call.sourceSha256 ∧
        ∃ s blob, call.sealCall key = some s ∧ s.seal C = some blob ∧ d r.1 = some blob := by
  unfold storeSourceArtifact
  cases haad : srcAad call.sourceSha256 with
  | none => exact Triple.raise
  | some aad =>
    have hcall : call.sealCall key = some ⟨key, call.rawBytes, 0, aad, call.nonce⟩ := by
      simp [StoreCall.sealCall, haad]
    cases hseal : AtRest.SealCall.seal C ⟨key, call.rawBytes, 0, aad, call.nonce⟩ with
    | none => simpa only [hseal] using Triple.raise
    | some blob =>
      simp only [hseal]
      refine Triple.now_bind fun d _ _ => ?_
      refine Triple.refuseIf_bind fun _ => ?_
      refine Triple.bind (Q := fun _ d => d call.tmp = some []) ?_ fun _ => ?_
      · exact Triple.change (fun d hd _ => hscratch d _ hd) fun d _ _ => by simp [Dir.put]
      refine Triple.bind (Q := fun _ d => d (artefactName call.sourceSha256) = some blob) ?_ fun _ => ?_
      · refine Triple.rescue ?_ fun e => ?_
        · unfold land
          refine Triple.bind (writeBytes_triple hscratch _) fun _ => ?_
          refine Triple.refuseIf_bind fun hwhole => ?_
          refine Triple.refuseIf_bind fun _ => ?_
          have hnone : call.writeFails = none := not_not.mp hwhole
          refine Triple.change (fun d hd hwritten => ?_) fun d _ hwritten => ?_
          · refine hscratch _ none ?_
            rw [hwritten, hnone, Option.getD_none, List.take_length]
            exact hland d _ blob hd hcall hseal
          · rw [Dir.replace, Function.update_of_ne (htmp _).symm, Function.update_self, hwritten, hnone,
              Option.getD_none, List.take_length]
        · refine Triple.bind (Q := fun _ _ => True) ?_ fun _ => Triple.raise
          exact Triple.change (fun d hd _ => hscratch d _ hd) fun _ _ _ => trivial
      refine Triple.refuseIf_bind fun _ => ?_
      refine Triple.bind (Q := fun _ d => d (artefactName call.sourceSha256) = some blob) ?_ fun _ => ?_
      · exact Triple.look fun _ _ _ hd _ => hd
      refine Triple.refuseIf_bind fun _ => ?_
      exact Triple.pure fun d _ hd => ⟨rfl, _, blob, hcall, hseal, hd⟩

lemma writeBytes_returns {name : String} {d : Dir} {before : Bytes} (h : d name = some before)
    (bytes : Bytes) : Returns (writeBytes name bytes) d ⟨⟩
      (Function.update d name (some (before ++ bytes))) := by
  induction bytes generalizing d before with
  | nil =>
    have hsame : Function.update d name (some (before ++ [])) = d := by simp [← h]
    rw [hsame]
    exact Returns.pure
  | cons b bytes ih =>
    have hnext : Dir.append name b d name = some (before ++ [b]) := by simp [Dir.append, h]
    have hrest := ih hnext
    rw [Dir.append, Function.update_idem, List.append_assoc, List.singleton_append] at hrest
    exact Returns.change.bind hrest

/-- A call that nothing stops returns, and leaves one file more. -/
lemma store_returns {d : Dir} {s : AtRest.SealCall} {blob : Bytes}
    (hcall : call.sealCall key = some s) (hseal : s.seal C = some blob)
    (htmp : call.tmp ≠ artefactName call.sourceSha256) (hfree : d call.tmp = none)
    (hfine : call.mkstempFails = false ∧ call.writeFails = none ∧ call.replaceFails = false ∧
      call.openFails = false) :
    Returns (storeSourceArtifact C P key call) d
      (artefactName call.sourceSha256, P.hexdigest blob)
      (Function.update d (artefactName call.sourceSha256) (some blob)) := by
  obtain ⟨hmkstemp, hwrite, hreplace, hopen⟩ := hfine
  obtain ⟨aad, haad, rfl⟩ := Option.map_eq_some_iff.mp hcall
  have hrefuse {c : Prop} [Decidable c] {d : Dir} (e : Failure) (hc : ¬ c) :
      Returns (refuseIf c e) d ⟨⟩ d := by
    rw [refuseIf, if_neg hc]
    exact Returns.pure
  have hland : Returns (land call blob) (Dir.put call.tmp [] d) ⟨⟩
      (Function.update d (artefactName call.sourceSha256) (some blob)) := by
    have hempty : Dir.put call.tmp [] d call.tmp = some [] := by simp [Dir.put]
    have hbytes := writeBytes_returns hempty blob
    have hend : Dir.replace call.tmp (artefactName call.sourceSha256)
        (Function.update (Dir.put call.tmp [] d) call.tmp (some ([] ++ blob))) =
        Function.update d (artefactName call.sourceSha256) (some blob) := by
      funext name
      simp only [Dir.replace, Dir.put, Function.update_idem, Function.update_self, List.nil_append]
      by_cases hname : name = call.tmp
      · rw [hname, Function.update_self, Function.update_of_ne htmp, hfree]
      · rw [Function.update_of_ne hname]
        by_cases hfinal : name = artefactName call.sourceSha256
        · rw [hfinal, Function.update_self, Function.update_self]
        · rw [Function.update_of_ne hfinal, Function.update_of_ne hname, Function.update_of_ne hfinal]
    unfold land
    rw [hwrite, Option.getD_none, List.take_length, ← hend]
    exact hbytes.bind ((hrefuse _ (by simp)).bind ((hrefuse _ (by simp [hreplace])).bind
      Returns.change))
  have hread : Returns (look fun (d : Dir) =>
      (d (artefactName call.sourceSha256)).elim (.error Failure.os) .ok)
      (Function.update d (artefactName call.sourceSha256) (some blob)) blob
      (Function.update d (artefactName call.sourceSha256) (some blob)) :=
    Returns.look (by simp)
  unfold storeSourceArtifact
  simp only [haad, hseal]
  exact Returns.now_bind ((hrefuse _ (by simp [hmkstemp, hfree])).bind (Returns.change.bind
    (hland.rescue.bind ((hrefuse _ (by simp [hopen])).bind (hread.bind ((hrefuse _ (by simp)).bind
      Returns.pure))))))

/-! ## Runs -/

/-- A call, killed after some of its steps if it does not come to its end. -/
structure Event where
  call : StoreCall
  cut : Option ℕ

def step (C : AtRest.Primitives) (P : Platform) (key : Bytes) (d : Dir) (e : Event) :
    Dir × List Empty :=
  match e.cut with
  | none => (after d (storeSourceArtifact C P key e.call d).2, [])
  | some n => ((storeSourceArtifact C P key e.call).cutAt n d, [])

/-- What the callers see to: the digest is the digest of the bytes, and the cipher has been asked for
this seal. -/
structure Honest (P : Platform) (key : Bytes) (seals : List AtRest.SealCall) (call : StoreCall) :
    Prop where
  digest : call.sourceSha256 = P.hexdigest call.rawBytes
  tmp : ∀ digest, call.tmp ≠ artefactName digest
  asked : ∀ s, call.sealCall key = some s → s ∈ seals

/-- The artefact of a digest is there, and holds these bytes. -/
def Holds (C : AtRest.Primitives) (key : Bytes) (seals : List AtRest.SealCall) (digest : String)
    (raw : Bytes) (d : Dir) : Prop :=
  ∃ s ∈ seals, ∃ blob, d (artefactName digest) = some blob ∧ s.seal C = some blob ∧ s.key = key ∧
    srcAad digest = some s.aad ∧ s.plaintext = raw

lemma sealCall_eq_some {s : AtRest.SealCall} (h : call.sealCall key = some s) :
    s.key = key ∧ srcAad call.sourceSha256 = some s.aad ∧ s.plaintext = call.rawBytes := by
  obtain ⟨aad, haad, rfl⟩ := Option.map_eq_some_iff.mp h
  exact ⟨rfl, haad, rfl⟩

/-- A later call, however far it comes, leaves an artefact holding what it held. -/
lemma Holds.step {seals : List AtRest.SealCall} (hsha : Function.Injective P.sha256)
    {raw : Bytes} {d : Dir} (h : Holds C key seals (P.hexdigest raw) raw d) {e : Event}
    (he : Honest P key seals e.call) :
    Holds C key seals (P.hexdigest raw) raw (Artefacts.step C P key d e).1 := by
  have htriple := store_triple C P key e.call
    (I := Holds C key seals (P.hexdigest raw) raw) he.tmp ?_ ?_
  · obtain ⟨call, cut⟩ := e
    cases cut with
    | none => exact after_of_forall h fun t ht => (htriple d h trivial).1 t ht
    | some n => exact htriple.cutAt h trivial n
  · rintro d contents ⟨s, hs, blob, hblob, hrest⟩
    refine ⟨s, hs, blob, ?_, hrest⟩
    rwa [Function.update_of_ne (he.tmp _).symm]
  · rintro d s blob ⟨s₀, hs₀, blob₀, hblob₀, hrest₀⟩ hcall hseal
    obtain ⟨hkey, haad, hplain⟩ := sealCall_eq_some hcall
    by_cases hsame : e.call.sourceSha256 = P.hexdigest raw
    · have hraw : e.call.rawBytes = raw :=
        Platform.hexdigest_injective hsha (he.digest.symm.trans hsame)
      rw [hsame] at haad
      refine ⟨s, he.asked s hcall, blob, ?_, hseal, hkey, haad, hplain.trans hraw⟩
      rw [hsame, Function.update_self]
    · refine ⟨s₀, hs₀, blob₀, ?_, hrest₀⟩
      rwa [Function.update_of_ne]
      exact fun heq => hsame (artefactName_injective heq).symm

/-- Every artefact is all of a blob that was sealed for its digest. -/
def Whole (C : AtRest.Primitives) (seals : List AtRest.SealCall) (d : Dir) : Prop :=
  ∀ digest blob, d (artefactName digest) = some blob →
    ∃ s ∈ seals, s.seal C = some blob ∧ srcAad digest = some s.aad

lemma Whole.step {seals : List AtRest.SealCall} {d : Dir} (h : Whole C seals d) {e : Event}
    (he : Honest P key seals e.call) : Whole C seals (Artefacts.step C P key d e).1 := by
  have htriple := store_triple C P key e.call
    (I := Whole C seals) he.tmp ?_ ?_
  · obtain ⟨call, cut⟩ := e
    cases cut with
    | none => exact after_of_forall h fun t ht => (htriple d h trivial).1 t ht
    | some n => exact htriple.cutAt h trivial n
  · intro d contents hd digest blob hblob
    rw [Function.update_of_ne (he.tmp digest).symm] at hblob
    exact hd digest blob hblob
  · intro d s blob hd hcall hseal digest blob' hblob'
    by_cases hsame : e.call.sourceSha256 = digest
    · subst hsame
      rw [Function.update_self] at hblob'
      cases hblob'
      exact ⟨s, he.asked s hcall, hseal, (sealCall_eq_some hcall).2.1⟩
    · rw [Function.update_of_ne fun heq => hsame (artefactName_injective heq).symm] at hblob'
      exact hd digest blob' hblob'

/-- A call that returns leaves its artefact there. -/
lemma holds_of_returns {seals : List AtRest.SealCall} (hcall : Honest P key seals call)
    {d₀ d₁ : Dir} {path sealedSha : String}
    (hstore : Returns (storeSourceArtifact C P key call) d₀ (path, sealedSha) d₁) :
    path = artefactName call.sourceSha256 ∧
      Holds C key seals call.sourceSha256 call.rawBytes d₁ := by
  have htriple := store_triple C P key call (I := fun _ => True)
    hcall.tmp (fun _ _ _ => trivial) fun _ _ _ _ _ _ => trivial
  obtain ⟨-, hpath, s, blob, hseal, hblob, hthere⟩ := hstore.of_triple htriple trivial trivial
  obtain ⟨hkey, haad, hplain⟩ := sealCall_eq_some hseal
  simp only at hpath hthere
  rw [hpath] at hthere
  exact ⟨hpath, s, hcall.asked s hseal, blob, hthere, hblob, hkey, haad, hplain⟩

lemma decodeUtf8_utf8 (s : String) : decodeUtf8 (utf8 s) = some s := by
  have hbytes : (⟨(utf8 s).toArray⟩ : ByteArray) = s.toUTF8 := by
    unfold utf8
    rw [Array.toArray_toList]
  unfold decodeUtf8
  rw [hbytes]
  simp [String.fromUTF8?, String.fromUTF8, s.isValidUTF8]

/-- **An artefact that was stored can be read for good.**  Once a call has returned, any number of
later calls, killed or failing anywhere, leave a file from which `reparse` makes what `dry_run` makes of
the text that was stored. -/
theorem reparse_of_run (I : Importer) (hsha : Function.Injective I.platform.sha256)
    {seals : List AtRest.SealCall} (hideal : AtRest.Ideal C seals)
    (hcall : Honest I.platform key seals call) {text : String} (htext : call.rawBytes = utf8 text)
    {d₀ d₁ : Dir} {path sealedSha : String}
    (hstore : Returns (storeSourceArtifact C I.platform key call) d₀ (path, sealedSha) d₁)
    {es : List Event} (hes : ∀ e ∈ es, Honest I.platform key seals e.call) {v : Vault}
    {batchId : String} {row : ImportBatch}
    (hrow : Table.find ImportBatch.id batchId v.imports.batches = some row)
    (hartefact : row.sourceArtifact = some (path, sealedSha))
    (hdigest : row.sourceSha256 = call.sourceSha256) :
    reparse I C (Run.final (step C I.platform key) d₁ es) v batchId key =
      dryRun I text row.declaredDateFormat row.declaredTimezone row.selfParticipantLabel := by
  obtain ⟨hpath, hholds⟩ := holds_of_returns hcall hstore
  rw [hcall.digest] at hholds
  have hmeets : Run.Meets (step C I.platform key) (fun _ e => Honest I.platform key seals e.call)
      d₁ es := Run.meets_of_forall_mem hes d₁
  obtain ⟨s, hs, blob, hblob, hseal, hkey, haad, hplain⟩ :=
    Run.invariant_of_meets (fun _ _ h he => h.step hsha he) hholds hmeets
  have hopen := AtRest.openBlob_seal hideal hs hseal
  rw [hkey, hplain, htext] at hopen
  have hname : artefactName call.sourceSha256 ≠ "" := by
    intro hempty
    have hlength := congrArg String.length hempty
    simp [artefactName] at hlength
  rw [← hcall.digest] at hblob haad
  simp only [reparse, hrow, hartefact, hpath, hname, if_false, hdigest, haad, Option.bind_eq_bind,
    Option.bind_some, hblob, hopen, decodeUtf8_utf8]

/-- **No artefact is ever there in part.**  In every state of every run of calls, killed or failing
anywhere, what stands under an artefact's name is all that one call sealed for its digest. -/
theorem whole_of_run (C : AtRest.Primitives) (P : Platform) (key : Bytes)
    {seals : List AtRest.SealCall} {es : List Event}
    (hes : ∀ e ∈ es, Honest P key seals e.call) :
    Whole C seals (Run.final (step C P key) (fun _ => none) es) := by
  have hmeets : Run.Meets (step C P key) (fun _ e => Honest P key seals e.call)
      (fun _ => none) es := Run.meets_of_forall_mem hes _
  refine Run.invariant_of_meets (fun _ _ h he => h.step he) ?_ hmeets
  intro digest blob hblob
  cases hblob

/-! ## A sample run -/

def sampleStore : StoreCall where
  sourceSha256 := hex (utf8 "1/4/26 1:02 M: h")
  rawBytes := utf8 "1/4/26 1:02 M: h"
  nonce := List.replicate 12 2
  tmp := "tmp1"
  mkstempFails := false
  writeFails := none
  replaceFails := false
  openFails := false

/-- What is sealed in it. -/
def sampleSeal : AtRest.SealCall where
  key := List.replicate 32 1
  plaintext := utf8 "1/4/26 1:02 M: h"
  keyId := 0
  aad := utf8 "WHATSVAULT-IMPORT-SRC-V1\n" ++ utf8 (hex (utf8 "1/4/26 1:02 M: h"))
  nonce := List.replicate 12 2

lemma sealCall_sampleStore : sampleStore.sealCall (List.replicate 32 1) = some sampleSeal := by
  decide +kernel

lemma honest_sampleStore :
    Honest Ingest.samplePlatform (List.replicate 32 1) [sampleSeal] sampleStore where
  digest := rfl
  tmp := by
    intro digest h
    have hlast := congrArg (fun s => s.toList.getLast?) h
    simp [sampleStore, artefactName] at hlast
  asked := by
    intro s hs
    rw [sealCall_sampleStore] at hs
    simp [Option.some.inj hs]

/-- The batch of the stored text. -/
def sampleBatch (sealedSha : String) : ImportBatch :=
  batchRow { sampleArgs "1/4/26 1:02 M: h" with
    sourceSha256 := sampleStore.sourceSha256
    sourceArtifact := some (artefactName sampleStore.sourceSha256, sealedSha) } "bat_a" []

def sampleStored (sealedSha : String) : Vault :=
  { sampleVault with imports := { sampleVault.imports with batches := [sampleBatch sealedSha] } }

theorem whole_of_run_sampleStore : Whole (AtRest.oneBlob sampleSeal) [sampleSeal]
    (Run.final (step (AtRest.oneBlob sampleSeal) Ingest.samplePlatform (List.replicate 32 1))
      (fun _ => none) [⟨sampleStore, some 5⟩, ⟨sampleStore, none⟩]) :=
  whole_of_run _ _ _ fun e he => by
    simp only [List.mem_cons, List.not_mem_nil, or_false] at he
    rcases he with rfl | rfl <;> exact honest_sampleStore

/-- A text that was stored, and a second call for it that was killed. -/
theorem reparse_of_run_sampleStore : ∃ d₁ sealedSha,
    reparse sampleImporter (AtRest.oneBlob sampleSeal)
      (Run.final (step (AtRest.oneBlob sampleSeal) Ingest.samplePlatform (List.replicate 32 1)) d₁
        [⟨sampleStore, some 5⟩]) (sampleStored sealedSha) "bat_a" (List.replicate 32 1) =
    dryRun sampleImporter "1/4/26 1:02 M: h" "DMY" "UTC" "Me" := by
  obtain ⟨blob, hblob⟩ : ∃ blob, sampleSeal.seal (AtRest.oneBlob sampleSeal) = some blob :=
    Option.isSome_iff_exists.mp (by decide +kernel)
  have hstore : Returns (storeSourceArtifact (AtRest.oneBlob sampleSeal) Ingest.samplePlatform
      (List.replicate 32 1) sampleStore) (fun _ => none) _ _ :=
    store_returns sealCall_sampleStore hblob (honest_sampleStore.tmp _) rfl ⟨rfl, rfl, rfl, rfl⟩
  have hes : ∀ e ∈ [(⟨sampleStore, some 5⟩ : Event)],
      Honest Ingest.samplePlatform (List.replicate 32 1) [sampleSeal] e.call := by
    intro e he
    rw [List.mem_singleton.mp he]
    exact honest_sampleStore
  have hrow : Table.find ImportBatch.id "bat_a"
      (sampleStored (Ingest.samplePlatform.hexdigest blob)).imports.batches =
      some (sampleBatch (Ingest.samplePlatform.hexdigest blob)) := rfl
  exact ⟨_, _, reparse_of_run sampleImporter (fun _ _ h => h) (AtRest.ideal_oneBlob rfl)
    honest_sampleStore rfl hstore hes hrow rfl rfl⟩

end WhatsVault.Importers.Artefacts
