import WhatsVault.Ops.Bootstrap

/-!
# What a killed command leaves

`Move` is everything that one step of a command can do to the machine, and `run_triple` is that no
command does anything else: what every move keeps holds at each point of every command.

A move never writes an entry that is there, never writes the entry of a database that is there, and
never takes a database back, so a command that is killed anywhere leaves every database as readable as
it was (`kept_of_command`).
-/

namespace WhatsVault.Ops

open Program Relay

/-! ## Reading an entry -/

lemma digitValue_hexDigit : ∀ n < 16, digitValue (hexDigit n) = some n := by decide

lemma isSpace_hexDigit : ∀ n < 16, Relay.isSpace (hexDigit n) = false := by decide

/-- `bytes.fromhex(b.hex()) == b`. -/
lemma fromHexChars_hex (b : Bytes) : fromHexChars (hex b).toList = some b := by
  unfold hex
  rw [String.toList_ofList]
  induction b with
  | nil => rfl
  | cons x b ih =>
    have hx := x.toNat_lt
    have hhigh : x.toNat / 16 < 16 := by omega
    have hlow : x.toNat % 16 < 16 := by omega
    rw [List.flatMap_cons, List.cons_append, List.cons_append, List.nil_append, fromHexChars,
      if_neg (by simp [isSpace_hexDigit _ hhigh])]
    simp only [digitValue_hexDigit _ hhigh, digitValue_hexDigit _ hlow, ih, Option.bind_eq_bind,
      Option.bind_some, Option.pure_def, Nat.div_add_mod, UInt8.ofNat_toNat]

lemma require_congr {m m' : Machine} {name : String} (h : m'.passwords name = m.passwords name)
    (nbytes : ℕ) : require m' name nbytes = require m name nbytes := by
  unfold require
  rw [h]

lemma require_hex {m : Machine} {name : String} {key : Bytes}
    (h : m.passwords name = some (hex key)) : require m name key.length = .ok key := by
  unfold require
  simp only [h, fromHexChars_hex, if_true]

lemma passwords_of_require {m : Machine} {name : String} {nbytes : ℕ} {key : Bytes}
    (h : require m name nbytes = .ok key) : (m.passwords name).isSome := by
  unfold require at h
  split at h
  · cases h
  · rename_i hv
    simp [hv]

lemma hasKey_iff {m : Machine} {name : String} :
    hasKey m name = true ↔ ∃ key, require m name 32 = .ok key := by
  unfold hasKey
  cases require m name 32 with
  | error e => simp [Except.toBool]
  | ok key => simp [Except.toBool]

lemma keyName_injective : Function.Injective keyName := by
  intro k k' h
  cases k <;> cases k' <;> first | rfl | (simp [keyName] at h)

lemma serviceKey_ne {name : String} (h : name ∈ serviceKeys) (kind : Kind) : name ≠ keyName kind := by
  rintro rfl
  cases kind <;> simp [serviceKeys, tokenKeyName, auditKeyName, keyName] at h

/-! ## Moves -/

/-- What one step of a command does. -/
inductive Move (draw : Draws) (m : Machine) : Machine → Prop
  | stay : Move draw m m
  | dir (name : String) (mode : ℕ) : Move draw m (m.setDir name mode)
  | chmod (kind : Kind) : Move draw m (chmodDb kind m)
  /-- A key goes where there is no entry, and one for a database where there is no database but a
  directory for it. -/
  | provision (name : String) (hname : m.passwords name = none)
      (hdb : ∀ kind, name = keyName kind → m.db kind = none ∧ m.dirs "" ≠ none) :
      Move draw m (m.setPassword name (hex (draw.bytes name 32)))
  /-- A database is made where there is none, beside a key for it. -/
  | connect (kind : Kind) (key : Bytes) (hdb : m.db kind = none) (hhome : m.dirs "" ≠ none)
      (hkey : require m (keyName kind) 32 = .ok key) : Move draw m (connect kind m)
  | migrate (kind : Kind) (key : Bytes) (f : DbFile) (script : ℕ × List Statement) (schema : Schema)
      (hkey : require m (keyName kind) 32 = .ok key) (hdb : m.db kind = some f)
      (hopens : f.opens key = true) (hnext : Migration.IsNext (MIGRATIONS kind) f.version script)
      (hrun : runScript script.2 f.schema = some schema) :
      Move draw m ((store kind key).write script.1 schema m)

lemma Move.home {draw : Draws} {m m' : Machine} (h : Move draw m m') (hhome : m.dirs "" ≠ none) :
    m'.dirs "" ≠ none := by
  cases h with
  | dir name mode =>
    rcases eq_or_ne "" name with rfl | hne
    · simp
    · rwa [m.dirs_setDir_of_ne _ hne]
  | connect kind key hdb _ _ => rwa [connect_of_none hdb]
  | _ => exact hhome

section Commands

variable {draw : Draws} {I : Machine → Prop} (hI : ∀ m m', I m → Move draw m m' → I m')

lemma revealToken_triple (reveal : Bool) :
    Triple I (fun _ => True) (revealToken reveal) fun _ _ => True := by
  unfold revealToken
  split
  · exact Triple.look fun _ _ _ _ _ => trivial
  · exact Triple.pure fun _ _ _ => trivial

lemma keyringKeyStore_triple :
    Triple I (fun _ => True) keyringKeyStore fun _ _ => True :=
  Triple.look fun _ _ _ _ _ => trivial

include hI

lemma provision_triple (name : String) :
    Triple I (fun m => ∀ kind, name = keyName kind → m.db kind = none ∧ m.dirs "" ≠ none)
      (provision draw name 32) fun key m => require m name 32 = .ok key := by
  unfold provision
  refine Triple.now_bind fun m hm hdb => ?_
  refine Triple.refuseIf_bind fun hfree => ?_
  have hnone : m.passwords name = none := by simpa using hfree
  refine Triple.bind (Q := fun _ t => t = m.setPassword name (hex (draw.bytes name 32))) ?_ ?_
  · refine Triple.change ?_ ?_
    · rintro _ hs rfl
      exact hI _ _ hs (.provision name hnone hdb)
    · rintro _ _ rfl
      rfl
  · intro _
    refine Triple.pure ?_
    rintro _ _ rfl
    have hentry : (m.setPassword name (hex (draw.bytes name 32))).passwords name =
        some (hex (draw.bytes name 32)) := m.passwords_setPassword name _
    have hread := require_hex hentry
    rwa [draw.length_bytes] at hread

/-- What a connection can rely on. -/
def Connected (kind : Kind) (key : Bytes) (m : Machine) : Prop :=
  require m (keyName kind) 32 = .ok key ∧ ∃ f, m.db kind = some f ∧ f.opens key = true

lemma openDb_triple (kind : Kind) (key : Bytes) :
    Triple I (fun m => require m (keyName kind) 32 = .ok key) (openDb kind key)
      fun _ => Connected kind key := by
  unfold openDb
  refine Triple.now_bind fun m hm hkey => ?_
  refine Triple.refuseIf_bind fun hhome => ?_
  refine Triple.bind
    (Q := fun _ t => require t (keyName kind) 32 = .ok key ∧ t.db kind ≠ none) ?_ ?_
  · refine Triple.change ?_ ?_
    · rintro s hs rfl
      cases hdb : s.db kind with
      | none => exact hI _ _ hs (.connect kind key hdb (fun h => hhome ⟨hdb, h⟩) hkey)
      | some f => rwa [connect_of_some hdb]
    · rintro s _ rfl
      cases hdb : s.db kind with
      | none =>
        rw [connect_of_none hdb]
        exact ⟨(require_congr rfl 32).trans hkey, by simp⟩
      | some f =>
        rw [connect_of_some hdb]
        exact ⟨hkey, by simp [hdb]⟩
  · intro _
    refine Triple.look ?_
    rintro t _ _ ⟨hkey', hsome⟩ hopened
    obtain ⟨f, hf⟩ := Option.ne_none_iff_exists'.mp hsome
    refine ⟨hkey', f, hf, ?_⟩
    by_contra hopens
    simp [hf, hopens] at hopened

lemma openExisting_triple (kind : Kind) :
    Triple I (fun _ => True) (openExisting kind) (Connected kind) := by
  unfold openExisting
  refine Triple.bind (Q := fun key m => require m (keyName kind) 32 = .ok key) ?_ ?_
  · exact Triple.look fun m key _ _ h => h
  · intro key
    exact Triple.bind (openDb_triple hI kind key) fun _ => Triple.pure fun _ _ h => h

lemma provisionDb_triple (kind : Kind) :
    Triple I (fun m => m.db kind = none ∧ m.dirs "" ≠ none) (provisionDb draw kind)
      (Connected kind) := by
  unfold provisionDb
  refine Triple.bind ((provision_triple hI (keyName kind)).pre ?_) fun key => ?_
  · intro m _ hdb kind' hname
    rwa [← keyName_injective hname]
  · exact Triple.bind (openDb_triple hI kind key) fun _ => Triple.pure fun _ _ h => h

lemma migrate_triple (kind : Kind) (key : Bytes) :
    Triple I (Connected kind key) (migrate kind key) fun v m =>
      Connected kind key m ∧ v = userVersion kind m ∧ latest kind ≤ userVersion kind m := by
  have hspec := Migration.migrate_spec (store kind key) runScript (fun _ => Failure.script)
    (ordered kind) (I := fun m => I m ∧ Connected kind key m) ?_
  · unfold migrate
    refine Triple.bind (hspec.keep.pre fun m _ h => ⟨trivial, h⟩) fun _ => ?_
    refine Triple.now_bind fun m _ h => Triple.pure ?_
    rintro _ _ rfl
    obtain ⟨script, hscript⟩ := exists_latest kind
    exact ⟨h.2, rfl, h.1 _ hscript⟩
  · rintro m script schema ⟨hm, hkey, f, hf, hopens⟩ hnext hrun
    have hversion : (store kind key).version m = f.version := by simp [store, userVersion, hf]
    have hschema : (store kind key).contents m = f.schema := by simp [store, schemaOf, hf]
    rw [hversion] at hnext
    rw [hschema] at hrun
    refine ⟨hI _ _ hm (.migrate kind key f script schema hkey hf hopens hnext hrun), ?_, ?_⟩
    · exact (require_congr rfl 32).trans hkey
    · exact ⟨_, m.db_setDb kind _, by simp [DbFile.written, DbFile.opens]⟩

lemma ensureDatabase_triple (hhome : ∀ m, I m → m.dirs "" ≠ none) (kind : Kind) :
    Triple I (fun _ => True) (ensureDatabase draw kind) fun _ _ => True := by
  unfold ensureDatabase
  refine Triple.now_bind fun m _ _ => ?_
  have hopen : Triple I (fun t => t = m) (openExisting kind) (Connected kind) :=
    (openExisting_triple hI kind).pre fun _ _ _ => trivial
  split
  · refine Triple.bind hopen fun key => ?_
    refine Triple.now_bind fun opened _ hconnected => ?_
    refine Triple.bind ((migrate_triple hI kind key).pre ?_) fun _ => Triple.pure fun _ _ _ => trivial
    rintro _ _ rfl
    exact hconnected
  · rename_i habsent
    split
    · refine Triple.bind hopen fun key => ?_
      exact Triple.bind (migrate_triple hI kind key) fun _ => Triple.pure fun _ _ _ => trivial
    · refine Triple.bind ((provisionDb_triple hI kind).pre ?_) fun key => ?_
      · rintro _ hm rfl
        exact ⟨by simpa using habsent, hhome _ hm⟩
      · exact Triple.bind (migrate_triple hI kind key) fun _ => Triple.pure fun _ _ _ => trivial

lemma ensureDir_triple (name : String) :
    Triple I (fun _ => True) (ensureDir name) fun _ m => m.dirs name ≠ none := by
  unfold ensureDir
  refine Triple.bind (Q := fun _ _ => True) (Triple.change ?_ fun _ _ _ => trivial) fun _ => ?_
  · intro m hm _
    unfold makeDir
    split
    · exact hI _ _ hm (.dir name _)
    · exact hm
  · exact Triple.change (fun m hm _ => hI _ _ hm (.dir name _)) fun _ _ _ => by simp

/-- The invariant with the home directory in it, once there is one. -/
lemma home_closed (m m' : Machine) (h : I m ∧ m.dirs "" ≠ none) (hmove : Move draw m m') :
    I m' ∧ m'.dirs "" ≠ none := ⟨hI m m' h.1 hmove, hmove.home h.2⟩

lemma ensureDirs_triple :
    Triple I (fun _ => True) (allDirs.foldlM (fun _ name => ensureDir name) ⟨⟩)
      fun _ m => m.dirs "" ≠ none := by
  have hrest : Triple (fun m => I m ∧ m.dirs "" ≠ none) (fun _ => True)
      (["blobs", "run", "logs"].foldlM (fun _ name => ensureDir name) ⟨⟩) fun _ _ => True :=
    Triple.foldlM_of_forall (fun _ name _ =>
      (ensureDir_triple (home_closed hI) name).post fun _ _ _ _ => trivial) ⟨⟩
  rw [allDirs, List.foldlM_cons]
  refine Triple.bind (ensureDir_triple hI "") fun _ => ?_
  exact (hrest.keep.pre fun _ _ h => ⟨trivial, h⟩).post fun _ _ _ h => h.2

lemma ensureDatabases_triple :
    Triple I (fun m => m.dirs "" ≠ none) (ensureDatabases draw) fun _ _ => True := by
  have hall : Triple (fun m => I m ∧ m.dirs "" ≠ none) (fun _ => True) (ensureDatabases draw)
      fun _ _ => True := by
    refine Triple.foldlM_of_forall (fun r kind _ => ?_) _
    exact Triple.bind (ensureDatabase_triple (home_closed hI) (fun _ h => h.2) kind) fun _ =>
      Triple.pure fun _ _ _ => trivial
  exact (hall.keep.pre fun _ _ h => ⟨trivial, h⟩).post fun _ _ _ _ => trivial

lemma ensureServiceKeys_triple (r : Report) :
    Triple I (fun _ => True) (ensureServiceKeys draw r) fun _ _ => True := by
  refine Triple.foldlM_of_forall (fun r name hname => ?_) r
  refine Triple.now_bind fun m _ _ => ?_
  split
  · exact Triple.pure fun _ _ _ => trivial
  · refine Triple.bind ((provision_triple hI name).pre ?_) fun _ => Triple.pure fun _ _ _ => trivial
    intro _ _ _ kind heq
    exact absurd heq (serviceKey_ne hname kind)

lemma initVault_triple (reveal : Bool) :
    Triple I (fun _ => True) (initVault draw reveal) fun _ _ => True := by
  unfold initVault
  refine Triple.now_bind fun m _ _ => ?_
  split
  · exact Triple.pure fun _ _ _ => trivial
  refine Triple.bind ((ensureDirs_triple hI).pre fun _ _ _ => trivial) fun _ => ?_
  refine Triple.bind (ensureDatabases_triple hI) fun r => ?_
  refine Triple.bind (ensureServiceKeys_triple hI r) fun r => ?_
  refine Triple.bind (Triple.foldlM_of_forall (fun _ kind _ => ?_) _) fun _ => ?_
  · exact Triple.change (fun m hm _ => hI _ _ hm (.chmod kind)) fun _ _ _ => trivial
  exact Triple.bind (revealToken_triple reveal) fun _ => Triple.pure fun _ _ _ => trivial

lemma provisionKeys_triple {names : List String} (hnames : ∀ name ∈ names, name ∈ serviceKeys)
    (provisioned already : List String) :
    Triple I (fun _ => True) (provisionKeys draw names provisioned already) fun _ _ => True := by
  induction names generalizing provisioned already with
  | nil => exact Triple.pure fun _ _ _ => trivial
  | cons name names ih =>
    have hrest := ih fun n hn => hnames n (List.mem_cons_of_mem _ hn)
    rw [provisionKeys]
    refine Triple.now_bind fun m _ _ => ?_
    split
    · exact (hrest _ _).pre fun _ _ _ => trivial
    · refine Triple.bind ((provision_triple hI name).pre ?_) fun _ =>
        (hrest _ _).pre fun _ _ _ => trivial
      intro _ _ _ kind heq
      exact absurd heq (serviceKey_ne (hnames name List.mem_cons_self) kind)
    · exact Triple.pure fun _ _ _ => trivial

lemma mcpProvision_triple (reveal : Bool) :
    Triple I (fun _ => True) (mcpProvision draw reveal) fun _ _ => True := by
  unfold mcpProvision
  refine Triple.bind (provisionKeys_triple hI (fun _ h => h) [] []) fun result => ?_
  split
  · exact Triple.pure fun _ _ _ => trivial
  · exact Triple.bind (revealToken_triple reveal) fun _ => Triple.pure fun _ _ _ => trivial

lemma openBoth_triple : Triple I (fun _ => True) openBoth fun _ _ => True := by
  unfold openBoth
  refine Triple.bind ((openExisting_triple hI .vault).post fun _ _ _ _ => trivial) fun _ => ?_
  exact Triple.bind (openExisting_triple hI .control) fun _ => Triple.pure fun _ _ _ => trivial

/-- What every move keeps holds at each point of every command. -/
theorem run_triple (c : Command) : Triple I (fun _ => True) (c.run draw) fun _ _ => True := by
  have hend {α : Type} {p : Program Machine Failure α}
      (hp : Triple I (fun _ => True) p fun _ _ => True) :
      Triple I (fun _ => True) (do let _ ← p; pure (⟨⟩ : PUnit)) fun _ _ => True :=
    Triple.bind hp fun _ => Triple.pure fun _ _ _ => trivial
  cases c with
  | init reveal => exact Triple.bind keyringKeyStore_triple fun _ => hend (initVault_triple hI _)
  | mcpProvision reveal =>
    exact Triple.bind keyringKeyStore_triple fun _ => hend (mcpProvision_triple hI _)
  | other =>
    exact hend (Triple.bind keyringKeyStore_triple fun _ => openBoth_triple hI)

/-- However far a command comes. -/
lemma step_command (c : Command) (cut : Option ℕ) {m : Machine} (hm : I m) :
    I (step m (.command c draw cut)).1 := by
  have hrun := run_triple hI c
  cases cut with
  | none => exact after_of_forall hm fun t ht => (hrun m hm trivial).1 t ht
  | some n => exact hrun.cutAt hm trivial n

end Commands

/-! ## What is kept -/

/-- What a later state has of a database file. -/
structure DbFile.KeptBy (kind : Kind) (f f' : DbFile) : Prop where
  key : ∀ key, f.key = some key → f'.key = some key
  version : f.version ≤ f'.version
  current : latest kind ≤ f.version → f'.version = f.version ∧ f'.schema = f.schema

/-- What a later state has of the entries and the databases. -/
structure Kept (m m' : Machine) : Prop where
  entry : ∀ name v, m.passwords name = some v → m'.passwords name = some v
  beside : ∀ kind, m.db kind ≠ none → m'.passwords (keyName kind) = m.passwords (keyName kind)
  db : ∀ kind f, m.db kind = some f → ∃ f', m'.db kind = some f' ∧ f.KeptBy kind f'

lemma DbFile.KeptBy.refl (kind : Kind) (f : DbFile) : f.KeptBy kind f :=
  ⟨fun _ h => h, le_rfl, fun _ => ⟨rfl, rfl⟩⟩

lemma DbFile.KeptBy.trans {kind : Kind} {f f' f'' : DbFile} (h : f.KeptBy kind f')
    (h' : f'.KeptBy kind f'') : f.KeptBy kind f'' where
  key := fun key hkey => h'.key key (h.key key hkey)
  version := h.version.trans h'.version
  current := by
    intro hcurrent
    obtain ⟨hversion, hschema⟩ := h.current hcurrent
    obtain ⟨hversion', hschema'⟩ := h'.current (hversion ▸ hcurrent)
    exact ⟨hversion'.trans hversion, hschema'.trans hschema⟩

lemma Kept.refl (m : Machine) : Kept m m :=
  ⟨fun _ _ h => h, fun _ _ => rfl, fun kind f hf => ⟨f, hf, .refl kind f⟩⟩

lemma Kept.trans {m m' m'' : Machine} (h : Kept m m') (h' : Kept m' m'') : Kept m m'' where
  entry := fun name v hv => h'.entry name v (h.entry name v hv)
  beside := by
    intro kind hdb
    obtain ⟨f, hf⟩ := Option.ne_none_iff_exists'.mp hdb
    obtain ⟨f', hf', -⟩ := h.db kind f hf
    exact (h'.beside kind (by simp [hf'])).trans (h.beside kind hdb)
  db := by
    intro kind f hf
    obtain ⟨f', hf', hkept⟩ := h.db kind f hf
    obtain ⟨f'', hf'', hkept'⟩ := h'.db kind f' hf'
    exact ⟨f'', hf'', hkept.trans hkept'⟩

/-- A move that writes one database file and no entry. -/
lemma Kept.of_setDb {m : Machine} {kind : Kind} {file : Option DbFile}
    (h : ∀ f, m.db kind = some f → ∃ f', file = some f' ∧ f.KeptBy kind f') :
    Kept m (m.setDb kind file) where
  entry := fun _ _ hv => hv
  beside := fun _ _ => rfl
  db := by
    intro k f hf
    rcases eq_or_ne k kind with rfl | hne
    · obtain ⟨f', rfl, hkept⟩ := h f hf
      exact ⟨f', m.db_setDb k _, hkept⟩
    · exact ⟨f, by rwa [m.db_setDb_of_ne _ hne], .refl k f⟩

lemma Move.kept {draw : Draws} {m m' : Machine} (h : Move draw m m') : Kept m m' := by
  cases h with
  | stay => exact .refl m
  | dir name mode => exact ⟨fun _ _ hv => hv, fun _ _ => rfl, fun k f hf => ⟨f, hf, .refl k f⟩⟩
  | chmod kind =>
    refine .of_setDb fun f hf => ⟨_, by rw [hf]; rfl, ?_⟩
    exact ⟨fun _ h => h, le_rfl, fun _ => ⟨rfl, rfl⟩⟩
  | provision name hname hdb =>
    refine ⟨fun n v hv => ?_, fun kind hsome => ?_, fun k f hf => ⟨f, hf, .refl k f⟩⟩
    · rwa [m.passwords_setPassword_of_ne]
      rintro rfl
      rw [hname] at hv
      cases hv
    · rw [m.passwords_setPassword_of_ne]
      exact fun heq => hsome (hdb kind heq.symm).1
  | connect kind key hdb _ _ =>
    rw [connect_of_none hdb]
    refine .of_setDb fun f hf => ?_
    rw [hdb] at hf
    cases hf
  | migrate kind key f script schema hkey hdb hopens hnext _ =>
    refine .of_setDb fun f' hf' => ⟨_, rfl, ?_⟩
    obtain rfl : f = f' := Option.some.inj (hdb.symm.trans hf')
    have hsame : f.key = none ∨ f.key = some key := by simpa [DbFile.opens] using hopens
    refine ⟨fun k hk => ?_, hnext.above.le, fun hcurrent => ?_⟩
    · rcases hsame with hnone | hsome
      · rw [hnone] at hk
        cases hk
      · exact hsome.symm.trans hk
    · exact absurd (le_latest hnext.mem) (not_le.mpr (hcurrent.trans_lt hnext.above))

/-- Where there is a file, its entry opens it. -/
def Opens (kind : Kind) (m : Machine) : Prop :=
  ∀ f, m.db kind = some f → ∃ key, require m (keyName kind) 32 = .ok key ∧ f.opens key = true

lemma Opens.of_setDb {m : Machine} {kind kind' : Kind} {file : Option DbFile} (h : Opens kind m)
    (hfile : ∀ f, file = some f → kind = kind' →
      ∃ key, require m (keyName kind) 32 = .ok key ∧ f.opens key = true) :
    Opens kind (m.setDb kind' file) := by
  intro f hf
  rcases eq_or_ne kind kind' with rfl | hne
  · rw [m.db_setDb] at hf
    obtain ⟨key, hkey, hopens⟩ := hfile f hf rfl
    exact ⟨key, hkey, hopens⟩
  · rw [m.db_setDb_of_ne _ hne] at hf
    exact h f hf

lemma Move.opens {draw : Draws} {m m' : Machine} (h : Move draw m m') {kind : Kind}
    (hm : Opens kind m) : Opens kind m' := by
  cases h with
  | stay => exact hm
  | dir name mode => exact hm
  | chmod kind' =>
    refine hm.of_setDb fun f hf heq => ?_
    subst heq
    obtain ⟨f₀, hf₀, rfl⟩ := Option.map_eq_some_iff.mp hf
    exact hm f₀ hf₀
  | provision name hname hdb =>
    intro f hf
    obtain ⟨key, hkey, hopens⟩ := hm f hf
    refine ⟨key, ?_, hopens⟩
    rw [← hkey]
    refine require_congr ?_ 32
    rw [m.passwords_setPassword_of_ne]
    intro heq
    have hnone := (hdb kind heq.symm).1
    rw [show m.db kind = some f from hf] at hnone
    cases hnone
  | connect kind' key hdb _ hkey =>
    rw [connect_of_none hdb]
    refine hm.of_setDb fun f hf heq => ?_
    subst heq
    cases hf
    exact ⟨key, hkey, rfl⟩
  | migrate kind' key f script schema hkey hdb hopens _ _ =>
    refine hm.of_setDb fun f' hf' heq => ?_
    subst heq
    cases hf'
    exact ⟨key, hkey, by simp [DbFile.written, DbFile.opens]⟩

/-- No command, killed or not, overwrites an entry, writes the entry of a database that is there,
takes a database back or touches a current one, over any number of commands; and a database that its
entry opens stays so. -/
theorem kept_of_commands (m : Machine) {es : List Event}
    (hes : ∀ e ∈ es, ∃ c draw cut, e = .command c draw cut) :
    Kept m (Run.final step m es) ∧ ∀ kind, Opens kind m → Opens kind (Run.final step m es) := by
  have hmeets : Run.Meets step (fun _ e => ∃ c draw cut, e = .command c draw cut) m es :=
    Run.meets_of_forall_mem hes m
  constructor
  · refine Run.invariant_of_meets (I := Kept m) ?_ (.refl m) hmeets
    rintro s _ hs ⟨c, draw, cut, rfl⟩
    exact step_command (fun _ _ h hmove => h.trans hmove.kept) c cut hs
  · intro kind
    refine fun hm => Run.invariant_of_meets (I := Opens kind) ?_ hm hmeets
    rintro s _ hs ⟨c, draw, cut, rfl⟩
    exact step_command (fun _ _ h hmove => hmove.opens h) c cut hs

/-- An `init` that is killed, keys for the MCP daemon, and an `init` to the end. -/
def sampleCommands : List Event :=
  [.command (.init false) default (some 9), .command (.mcpProvision true) default (some 1),
    .command (.init true) default none]

theorem kept_of_sampleCommands :
    let m := Machine.fresh "keyring.backends.macOS"
    Kept m (Run.final step m sampleCommands) ∧
      ∀ kind, Opens kind m → Opens kind (Run.final step m sampleCommands) :=
  kept_of_commands _ fun e he => by
    simp only [sampleCommands, List.mem_cons, List.not_mem_nil, or_false] at he
    rcases he with rfl | rfl | rfl <;> exact ⟨_, _, _, rfl⟩

end WhatsVault.Ops
