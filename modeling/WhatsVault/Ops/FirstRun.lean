import WhatsVault.Ops.Interrupted

/-!
# What a finished `init` leaves

`Ready` is what every interrupted run from a fresh machine keeps, as long as the operator leaves the
entry of a database alone while the database is there (`ready_of_run`).  From a ready machine `init`
comes to its end: it leaves the machine that `initialised` describes, whatever was there before, and
its report says exactly what was missing (`initVault_returns`).
-/

namespace WhatsVault.Ops

open Program

/-- The four keys. -/
def keyNames : List String := kinds.map keyName ++ serviceKeys

lemma mem_keyNames_keyName (kind : Kind) : keyName kind ∈ keyNames := by
  cases kind <;> simp [keyNames, kinds]

/-- The schema is the one of the version. -/
def InStep (kind : Kind) (m : Machine) : Prop :=
  schemaAt kind (userVersion kind m) = some (schemaOf kind m)

/-! ## Ready machines -/

structure Ready (m : Machine) : Prop where
  entry : ∀ name ∈ keyNames, m.passwords name ≠ none → ∃ key, require m name 32 = .ok key
  opens : ∀ kind, Opens kind m
  inStep : ∀ kind, InStep kind m
  home : ∀ kind, m.passwords (keyName kind) ≠ none → m.dirs "" ≠ none

lemma schemaAt_zero (kind : Kind) : schemaAt kind 0 = some .empty := by
  cases kind <;> rfl

lemma InStep.of_setDb {m : Machine} {kind kind' : Kind} {file : Option DbFile}
    (h : InStep kind m)
    (hfile : kind = kind' → schemaAt kind ((file.map DbFile.version).getD 0) =
      some ((file.map DbFile.schema).getD .empty)) : InStep kind (m.setDb kind' file) := by
  unfold InStep userVersion schemaOf
  rcases eq_or_ne kind kind' with rfl | hne
  · rw [m.db_setDb]
    exact hfile rfl
  · rw [m.db_setDb_of_ne _ hne]
    exact h

lemma InStep.of_some {m : Machine} {kind : Kind} {f : DbFile} (h : InStep kind m)
    (hf : m.db kind = some f) : schemaAt kind f.version = some f.schema := by
  simpa [InStep, userVersion, schemaOf, hf] using h

lemma Move.inStep {draw : Draws} {m m' : Machine} (h : Move draw m m') {kind : Kind}
    (hm : InStep kind m) : InStep kind m' := by
  cases h with
  | stay => exact hm
  | dir name mode => exact hm
  | provision name hname hdb => exact hm
  | chmod kind' =>
    refine hm.of_setDb fun heq => ?_
    subst heq
    simpa [InStep, userVersion, schemaOf, Option.map_map, Function.comp_def] using hm
  | connect kind' key hdb _ _ =>
    rw [connect_of_none hdb]
    exact hm.of_setDb fun _ => schemaAt_zero kind
  | migrate kind' key f script schema hkey hdb hopens hnext hrun =>
    refine hm.of_setDb fun heq => ?_
    subst heq
    have hbuilt := hnext.build_eq runScript (ordered kind) Schema.empty
    have hbefore : Migration.build runScript .empty (MIGRATIONS kind) f.version = some f.schema :=
      hm.of_some hdb
    rw [hbefore, Option.bind_some, hrun] at hbuilt
    exact hbuilt

lemma Move.entry {draw : Draws} {m m' : Machine} (h : Move draw m m') {name : String}
    (hm : m.passwords name ≠ none → ∃ key, require m name 32 = .ok key) :
    m'.passwords name ≠ none → ∃ key, require m' name 32 = .ok key := by
  cases h with
  | provision name' hname hdb =>
    intro hsome
    rcases eq_or_ne name name' with rfl | hne
    · have hread := require_hex (m.passwords_setPassword name (hex (draw.bytes name 32)))
      rw [draw.length_bytes] at hread
      exact ⟨_, hread⟩
    · have hsame := m.passwords_setPassword_of_ne (hex (draw.bytes name' 32)) hne
      rw [hsame] at hsome
      obtain ⟨key, hkey⟩ := hm hsome
      exact ⟨key, (require_congr hsame 32).trans hkey⟩
  | connect kind key hdb _ _ =>
    rw [connect_of_none hdb]
    exact hm
  | _ => exact hm

lemma Move.ready {draw : Draws} {m m' : Machine} (h : Move draw m m') (hm : Ready m) : Ready m' where
  entry := fun name hname => h.entry (hm.entry name hname)
  opens := fun kind => h.opens (hm.opens kind)
  inStep := fun kind => h.inStep (hm.inStep kind)
  home := by
    intro kind hsome
    by_cases hbefore : m.passwords (keyName kind) = none
    · cases h with
      | provision name hname hdb =>
        by_cases heq : name = keyName kind
        · exact (hdb kind heq).2
        · rw [m.passwords_setPassword_of_ne _ (Ne.symm heq)] at hsome
          exact absurd hbefore hsome
      | connect kind' key hdb' _ _ =>
        rw [connect_of_none hdb'] at hsome
        exact absurd hbefore hsome
      | _ => exact absurd hbefore hsome
    · exact h.home (hm.home kind hbefore)

/-- The operator leaves the entry of a database that is there alone, and writes no entry that is not a
key. -/
def Careful (m : Machine) : Event → Prop
  | .setPassword name value =>
    (∀ kind, name = keyName kind → m.db kind = none ∧ (value ≠ none → m.dirs "" ≠ none)) ∧
      ∀ v, value = some v → ∃ key, Relay.fromHexChars v.toList = some key ∧ key.length = 32
  | _ => True

lemma ready_fresh (backend : String) : Ready (Machine.fresh backend) where
  entry := fun _ _ h => absurd rfl h
  opens := by
    intro kind f hf
    cases hf
  inStep := schemaAt_zero
  home := fun _ h => absurd rfl h

lemma ready_step {m : Machine} {e : Event} (hm : Ready m) (he : Careful m e) :
    Ready (step m e).1 := by
  cases e with
  | command c draw cut => exact step_command (fun _ _ h hmove => hmove.ready h) c cut hm
  | moveAside kind =>
    refine ⟨hm.entry, fun k => (hm.opens k).of_setDb ?_, fun k => (hm.inStep k).of_setDb ?_, hm.home⟩
    · intro f hf
      cases hf
    · exact fun _ => schemaAt_zero k
  | setPassword name value =>
    obtain ⟨hdb, hvalue⟩ := he
    have hother {n : String} (hn : n ≠ name) :
        (step m (.setPassword name value)).1.passwords n = m.passwords n :=
      Function.update_of_ne hn ..
    have hself : (step m (.setPassword name value)).1.passwords name = value :=
      Function.update_self ..
    refine ⟨fun n hn hsome => ?_, fun kind f hf => ?_, hm.inStep, fun kind hsome => ?_⟩
    · rcases eq_or_ne n name with rfl | hne
      · rw [hself] at hsome
        obtain ⟨v, rfl⟩ := Option.ne_none_iff_exists'.mp hsome
        obtain ⟨key, hread, hlength⟩ := hvalue v rfl
        refine ⟨key, ?_⟩
        unfold require
        simp only [hself, hread, hlength, if_true]
      · rw [hother hne] at hsome
        obtain ⟨key, hkey⟩ := hm.entry n hn hsome
        exact ⟨key, (require_congr (hother hne) 32).trans hkey⟩
    · obtain ⟨key, hkey, hopens⟩ := hm.opens kind f hf
      refine ⟨key, (require_congr (hother ?_) 32).trans hkey, hopens⟩
      rintro rfl
      have hnone := (hdb kind rfl).1
      rw [show m.db kind = some f from hf] at hnone
      cases hnone
    · rcases eq_or_ne (keyName kind) name with heq | hne
      · rw [heq, hself] at hsome
        exact (hdb kind heq.symm).2 hsome
      · rw [hother hne] at hsome
        exact hm.home kind hsome

/-- Every state of every run from a fresh machine, the commands killed anywhere, is ready. -/
lemma ready_of_run (backend : String) {es : List Event}
    (hes : Run.Meets step Careful (Machine.fresh backend) es) :
    Ready (Run.final step (Machine.fresh backend) es) :=
  Run.invariant_of_meets (fun _ _ => ready_step) (ready_fresh backend) hes

/-- In such a run no database is ever stranded, and none is ever between two schemas: its entry opens
it, and its tables are those that the scripts up to its version make. -/
theorem databases_sound (backend : String) {es : List Event}
    (hes : Run.Meets step Careful (Machine.fresh backend) es) (kind : Kind) :
    Opens kind (Run.final step (Machine.fresh backend) es) ∧
      InStep kind (Run.final step (Machine.fresh backend) es) :=
  ⟨(ready_of_run backend hes).opens kind, (ready_of_run backend hes).inStep kind⟩

/-- A run with a killed `init`, a vault moved aside and a service key deleted. -/
def sampleRun : List Event :=
  [.command (.init false) default (some 9), .moveAside .vault,
    .setPassword tokenKeyName none, .command .other default none]

lemma careful_sampleRun (backend : String) :
    Run.Meets step Careful (Machine.fresh backend) sampleRun := by
  refine ⟨trivial, trivial, ⟨fun kind heq => ?_, fun v hv => ?_⟩, trivial, trivial⟩
  · exact absurd heq (serviceKey_ne (by simp [serviceKeys]) kind)
  · cases hv

theorem databases_sound_sampleRun :
    Opens .control (Run.final step (Machine.fresh "keyring.backends.macOS") sampleRun) ∧
      InStep .control (Run.final step (Machine.fresh "keyring.backends.macOS") sampleRun) :=
  databases_sound _ (careful_sampleRun _) .control

/-! ## What `init` makes of a machine -/

section Parts

variable (draw : Draws)

/-- The key of a name, once it has one. -/
def keyAfter (name : String) (m : Machine) : Bytes :=
  match require m name 32 with
  | .ok key => key
  | .error _ => draw.bytes name 32

def keyed (name : String) (m : Machine) : Machine :=
  if m.passwords name = none then m.setPassword name (hex (draw.bytes name 32)) else m

/-- A database at its shipped schema, or at the newer one it has. -/
def upgraded (kind : Kind) (key : Bytes) (m : Machine) : DbFile :=
  .written key (max (userVersion kind m) (latest kind))
    ((schemaAt kind (max (userVersion kind m) (latest kind))).getD .empty)
    (((m.db kind).map DbFile.mode).getD 0o600)

def ensured (kind : Kind) (m : Machine) : Machine :=
  (keyed draw (keyName kind) m).setDb kind (some (upgraded kind (keyAfter draw (keyName kind) m) m))

/-- What `_ensure_database` says of it. -/
def outcomeOf (kind : Kind) (m : Machine) : DatabaseState × Option String :=
  if m.db kind = none then
    (.created, if m.passwords (keyName kind) = none then some (keyName kind) else none)
  else (if userVersion kind m < latest kind then .migrated else .current, none)

def withDirs (m : Machine) : Machine :=
  { m with dirs := fun name => if name ∈ allDirs then some 0o700 else m.dirs name }

/-- The machine after a finished `init`. -/
def initialised (m : Machine) : Machine where
  backend := m.backend
  passwords name :=
    if name ∈ keyNames ∧ m.passwords name = none then some (hex (draw.bytes name 32))
    else m.passwords name
  dirs := (withDirs m).dirs
  db kind := some { upgraded kind (keyAfter draw (keyName kind) m) m with mode := 0o600 }

/-- The report of a finished `init`: what was missing. -/
def reportOf (reveal : Bool) (m : Machine) : Report where
  created := kinds.filter fun kind => m.db kind = none
  alreadyPresent := kinds.filter fun kind => m.db kind ≠ none
  migrated := kinds.filter fun kind => m.db kind ≠ none ∧ userVersion kind m < latest kind
  keysProvisioned := keyNames.filter fun name => m.passwords name = none
  token := if reveal then some (hex (keyAfter draw tokenKeyName m)) else none

end Parts

/-- What the parts of `init` rely on, one database at a time. -/
structure ReadyFor (kind : Kind) (m : Machine) : Prop where
  entry : m.passwords (keyName kind) ≠ none → ∃ key, require m (keyName kind) 32 = .ok key
  opens : Opens kind m
  inStep : InStep kind m
  home : m.dirs "" ≠ none

variable {draw : Draws} {m : Machine}

lemma latest_pos (kind : Kind) : 0 < latest kind := by cases kind <;> decide

/-- `PRAGMA user_version` ends at the shipped number, or stays above it. -/
lemma migrate_returns {kind : Kind} {key : Bytes} {f : DbFile} (hdb : m.db kind = some f)
    (hopens : f.opens key = true) (hstep : InStep kind m) :
    Returns (migrate kind key) m (max (userVersion kind m) (latest kind))
      (m.setDb kind (some (upgraded kind key m))) := by
  have hbuilt : Migration.Built (store kind key) runScript .empty (MIGRATIONS kind) m := hstep
  obtain ⟨t, ht⟩ := Migration.migrate_returns (fun _ => Failure.script) (ordered kind) (built kind)
    hbuilt
  have hspec := Migration.migrate_spec (store kind key) runScript (fun _ => Failure.script)
    (ordered kind) (I := fun t => ∃ f', t = m.setDb kind (some f') ∧
      f'.mode = f.mode ∧ f.version ≤ f'.version ∧ f'.version ≤ max f.version (latest kind) ∧
      f'.opens key = true ∧ schemaAt kind f'.version = some f'.schema) ?_
  · obtain ⟨⟨f', rfl, hmode, hlow, hhigh, hopens', hschema⟩, hpast⟩ := ht.of_triple hspec
      ⟨f, by simp [Machine.setDb, ← hdb], rfl, le_rfl, le_max_left _ _, hopens,
        hstep.of_some hdb⟩ trivial
    obtain ⟨script, hscript⟩ := exists_latest kind
    have hlatest : latest kind ≤ f'.version := by
      simpa [store, userVersion] using hpast _ hscript
    have hversion : f'.version = max (userVersion kind m) (latest kind) := by
      simp only [userVersion, hdb, Option.map_some, Option.getD_some]
      omega
    have hkey : f'.key = some key := by
      rcases (by simpa [DbFile.opens] using hopens' : f'.key = none ∨ f'.key = some key) with
        hnone | hsome
      · have hzero := (f'.blank hnone).1
        have hpos := latest_pos kind
        omega
      · exact hsome
    have hfile : f' = upgraded kind key m := by
      refine DbFile.ext hkey hversion ?_ ?_
      · simp [upgraded, DbFile.written, ← hversion, hschema]
      · simp [upgraded, DbFile.written, hdb, hmode]
    rw [hfile] at ht
    refine ht.bind (Returns.now_bind ?_)
    have hresult : userVersion kind (m.setDb kind (some (upgraded kind key m))) =
        max (userVersion kind m) (latest kind) := by simp [userVersion, upgraded, DbFile.written]
    rw [hresult]
    exact Returns.pure
  · rintro _ script schema ⟨f', rfl, hmode, hlow, hhigh, hopens', hschema⟩ hnext hrun
    have hversion : (store kind key).version (m.setDb kind (some f')) = f'.version := by
      simp [store, userVersion]
    have hcontents : (store kind key).contents (m.setDb kind (some f')) = f'.schema := by
      simp [store, schemaOf]
    rw [hversion] at hnext
    rw [hcontents] at hrun
    have hnumber := le_latest hnext.mem
    have habove := hnext.above
    refine ⟨.written key script.1 schema f'.mode, ?_, hmode, ?_, ?_, by simp [DbFile.opens,
      DbFile.written], ?_⟩
    · simp [store, Machine.setDb]
    · exact (hlow.trans_lt habove).le
    · exact hnumber.trans (le_max_right _ _)
    · have hnew := hnext.build_eq runScript (ordered kind) Schema.empty
      have hold : Migration.build runScript .empty (MIGRATIONS kind) f'.version = some f'.schema :=
        hschema
      rw [hold, Option.bind_some, hrun] at hnew
      exact hnew

lemma openDb_returns {kind : Kind} {key : Bytes} (hhome : m.dirs "" ≠ none)
    (hopens : ∀ f, m.db kind = some f → f.opens key = true) :
    Returns (openDb kind key) m ⟨⟩ (connect kind m) := by
  refine Returns.now_bind (Returns.bind (t := m) (a := ⟨⟩) ?_ (Returns.change.bind ?_))
  · rw [refuseIf, if_neg fun h => hhome h.2]
    exact Returns.pure
  · refine Returns.look (if_pos ?_)
    cases hdb : m.db kind with
    | none => simp [connect_of_none hdb, DbFile.empty, DbFile.opens]
    | some f => simp [connect_of_some hdb, hdb, hopens f hdb]

lemma openExisting_returns {kind : Kind} {key : Bytes} (hkey : require m (keyName kind) 32 = .ok key)
    (hhome : m.dirs "" ≠ none) (hopens : ∀ f, m.db kind = some f → f.opens key = true) :
    Returns (openExisting kind) m key (connect kind m) := by
  have hread : Returns (look fun m => require m (keyName kind) 32) m key m := Returns.look hkey
  exact hread.bind ((openDb_returns hhome hopens).bind Returns.pure)

lemma provision_returns {name : String} (h : m.passwords name = none) :
    Returns (provision draw name 32) m (draw.bytes name 32)
      (m.setPassword name (hex (draw.bytes name 32))) := by
  refine Returns.now_bind (Returns.bind (t := m) (a := ⟨⟩) ?_ (Returns.change.bind Returns.pure))
  rw [refuseIf, if_neg (by simp [h])]
  exact Returns.pure

/-- The migrations of a file that was just made. -/
lemma migrate_connect_returns {kind : Kind} {key : Bytes} (hdb : m.db kind = none)
    (hstep : InStep kind m) :
    Returns (migrate kind key) (connect kind m) (latest kind)
      (m.setDb kind (some (upgraded kind key m))) := by
  rw [connect_of_none hdb]
  have hreturns : Returns (migrate kind key) (m.setDb kind (some (.empty 0o600))) _ _ :=
    migrate_returns (m.db_setDb kind _) rfl (hstep.of_setDb fun _ => schemaAt_zero kind)
  have hversion : userVersion kind (m.setDb kind (some (.empty 0o600))) = userVersion kind m := by
    simp [userVersion, hdb, DbFile.empty]
  have hfile : upgraded kind key (m.setDb kind (some (.empty 0o600))) = upgraded kind key m := by
    unfold upgraded
    rw [hversion]
    simp [hdb, DbFile.empty]
  have hzero : userVersion kind m = 0 := by simp [userVersion, hdb]
  have hagain : (m.setDb kind (some (.empty 0o600))).setDb kind (some (upgraded kind key m)) =
      m.setDb kind (some (upgraded kind key m)) := by simp [Machine.setDb]
  rw [hfile, hversion, hzero, Nat.zero_max, hagain] at hreturns
  exact hreturns

lemma keyAfter_of_require {name : String} {key : Bytes} (h : require m name 32 = .ok key) :
    keyAfter draw name m = key := by simp [keyAfter, h]

lemma keyAfter_of_none {name : String} (h : m.passwords name = none) :
    keyAfter draw name m = draw.bytes name 32 := by simp [keyAfter, require, h]

lemma keyed_of_none {name : String} (h : m.passwords name = none) :
    keyed draw name m = m.setPassword name (hex (draw.bytes name 32)) := if_pos h

lemma keyed_of_require {name : String} {key : Bytes} (h : require m name 32 = .ok key) :
    keyed draw name m = m := if_neg (Option.isSome_iff_ne_none.mp (passwords_of_require h))

lemma ensureDatabase_returns {kind : Kind} (h : ReadyFor kind m) :
    Returns (ensureDatabase draw kind) m (outcomeOf kind m) (ensured draw kind m) := by
  refine Returns.now_bind ?_
  unfold outcomeOf ensured
  cases hdb : m.db kind with
  | some f =>
    obtain ⟨key, hkey, hopens⟩ := h.opens f hdb
    have hopen := openExisting_returns hkey h.home fun f' hf' => by
      rwa [← Option.some.inj (hdb.symm.trans hf')]
    rw [connect_of_some hdb] at hopen
    have hsome : some f ≠ none := by simp
    rw [keyed_of_require hkey, keyAfter_of_require hkey, if_neg hsome,
      if_pos (show (some f).isSome = true from rfl)]
    refine hopen.bind (Returns.now_bind ((migrate_returns hdb hopens h.inStep).bind ?_))
    have hmoved : max (userVersion kind m) (latest kind) ≠ userVersion kind m ↔
        userVersion kind m < latest kind := by omega
    simp only [hmoved]
    exact Returns.pure
  | none =>
    rw [if_pos (show (none : Option DbFile) = none from rfl),
      if_neg (show ¬ (none : Option DbFile).isSome = true by simp)]
    by_cases hhas : hasKey m (keyName kind) = true
    · obtain ⟨key, hkey⟩ := hasKey_iff.mp hhas
      have hopen := openExisting_returns hkey h.home fun f hf => by
        rw [hdb] at hf
        cases hf
      rw [if_pos hhas, keyed_of_require hkey, keyAfter_of_require hkey,
        if_neg (Option.isSome_iff_ne_none.mp (passwords_of_require hkey))]
      exact hopen.bind ((migrate_connect_returns hdb h.inStep).bind Returns.pure)
    · have hnone : m.passwords (keyName kind) = none := by
        by_contra hsome
        exact hhas (hasKey_iff.mpr (h.entry hsome))
      rw [if_neg hhas, keyed_of_none hnone, keyAfter_of_none hnone, if_pos hnone]
      have hconnect : Returns (provisionDb draw kind) m (draw.bytes (keyName kind) 32)
          (connect kind (m.setPassword (keyName kind) (hex (draw.bytes (keyName kind) 32)))) := by
        refine (provision_returns hnone).bind (Returns.bind (openDb_returns h.home ?_) Returns.pure)
        intro f hf
        rw [Machine.db_setPassword, hdb] at hf
        cases hf
      exact hconnect.bind ((migrate_connect_returns (m := m.setPassword _ _) hdb h.inStep).bind
        Returns.pure)

/-! ## One part after the other -/

@[simp] lemma db_keyed (name : String) : (keyed draw name m).db = m.db := by
  unfold keyed
  split <;> rfl

@[simp] lemma dirs_keyed (name : String) : (keyed draw name m).dirs = m.dirs := by
  unfold keyed
  split <;> rfl

@[simp] lemma backend_keyed (name : String) : (keyed draw name m).backend = m.backend := by
  unfold keyed
  split <;> rfl

lemma passwords_keyed (name name' : String) : (keyed draw name m).passwords name' =
    if name' = name ∧ m.passwords name' = none then some (hex (draw.bytes name' 32))
    else m.passwords name' := by
  unfold keyed
  by_cases heq : name' = name
  · subst heq
    by_cases hnone : m.passwords name' = none
    · simp [hnone]
    · simp [hnone]
  · have hno : ¬ (name' = name ∧ m.passwords name' = none) := fun h => heq h.1
    rw [if_neg hno]
    split
    · exact m.passwords_setPassword_of_ne _ heq
    · rfl

lemma passwords_keyed_of_ne {name name' : String} (h : name' ≠ name) :
    (keyed draw name m).passwords name' = m.passwords name' := by
  rw [passwords_keyed, if_neg fun hboth => h hboth.1]

lemma passwords_ensured (kind : Kind) :
    (ensured draw kind m).passwords = (keyed draw (keyName kind) m).passwords := rfl

lemma db_ensured_of_ne {kind kind' : Kind} (h : kind' ≠ kind) :
    (ensured draw kind m).db kind' = m.db kind' := by
  unfold ensured
  rw [Machine.db_setDb_of_ne _ _ h, db_keyed]

lemma require_ensured {kind : Kind} {name : String} (h : name ≠ keyName kind) :
    require (ensured draw kind m) name 32 = require m name 32 :=
  require_congr (passwords_keyed_of_ne h) 32

lemma userVersion_congr {m' : Machine} {kind : Kind} (h : m'.db kind = m.db kind) :
    userVersion kind m' = userVersion kind m := by
  unfold userVersion
  rw [h]

lemma upgraded_congr {m' : Machine} {kind : Kind} (h : m'.db kind = m.db kind) (key : Bytes) :
    upgraded kind key m' = upgraded kind key m := by
  unfold upgraded
  rw [userVersion_congr h, h]

lemma keyAfter_congr {m' : Machine} {name : String} (h : m'.passwords name = m.passwords name) :
    keyAfter draw name m' = keyAfter draw name m := by
  unfold keyAfter
  rw [require_congr h]

lemma ReadyFor.ensured {kind kind' : Kind} (h : ReadyFor kind m) (hne : kind ≠ kind') :
    ReadyFor kind (ensured draw kind' m) := by
  have hname : keyName kind ≠ keyName kind' := fun heq => hne (keyName_injective heq)
  have hentry : (Ops.ensured draw kind' m).passwords (keyName kind) = m.passwords (keyName kind) :=
    passwords_keyed_of_ne hname
  have hdb : (Ops.ensured draw kind' m).db kind = m.db kind := db_ensured_of_ne hne
  constructor
  · intro hsome
    rw [hentry] at hsome
    rw [require_ensured hname]
    exact h.entry hsome
  · intro f hf
    rw [hdb] at hf
    rw [require_ensured hname]
    exact h.opens f hf
  · have hstep := h.inStep
    unfold InStep schemaOf at *
    rw [userVersion_congr hdb, hdb]
    exact hstep
  · simpa [Ops.ensured] using h.home

lemma outcomeOf_ensured {kind kind' : Kind} (hne : kind ≠ kind') :
    outcomeOf kind (ensured draw kind' m) = outcomeOf kind m := by
  have hname : keyName kind ≠ keyName kind' := fun heq => hne (keyName_injective heq)
  have hdb : (ensured draw kind' m).db kind = m.db kind := db_ensured_of_ne hne
  unfold outcomeOf
  rw [hdb, userVersion_congr hdb, passwords_ensured, passwords_keyed_of_ne hname]

lemma ensureDir_returns (name : String) :
    Returns (ensureDir name) m ⟨⟩ (m.setDir name 0o700) := by
  have hend : (makeDir name m).setDir name 0o700 = m.setDir name 0o700 := by
    unfold makeDir
    split
    · simp [Machine.setDir]
    · rfl
  rw [← hend]
  exact Returns.change.bind Returns.change

lemma ensureDirs_returns :
    Returns (allDirs.foldlM (fun _ name => ensureDir name) ⟨⟩) m ⟨⟩ (withDirs m) := by
  have hend : (((m.setDir "" 0o700).setDir "blobs" 0o700).setDir "run" 0o700).setDir "logs" 0o700 =
      withDirs m := by
    refine Machine.ext rfl rfl (funext fun name => ?_) rfl
    simp only [Machine.setDir, withDirs, allDirs, Function.update_apply, List.mem_cons,
      List.not_mem_nil, or_false]
    split_ifs <;> tauto
  rw [← hend]
  simp only [allDirs, List.foldlM_cons, List.foldlM_nil]
  exact (ensureDir_returns _).bind ((ensureDir_returns _).bind ((ensureDir_returns _).bind
    ((ensureDir_returns _).bind Returns.pure)))

lemma ensureDatabases_returns (h : ∀ kind, ReadyFor kind m) :
    Returns (ensureDatabases draw) m
      ((Report.empty.add .vault (outcomeOf .vault m)).add .control (outcomeOf .control m))
      (ensured draw .control (ensured draw .vault m)) := by
  have hround {m : Machine} (r : Report) {kind : Kind} (h : ReadyFor kind m) :
      Returns (do
        let outcome ← ensureDatabase draw kind
        pure (r.add kind outcome)) m (r.add kind (outcomeOf kind m)) (ensured draw kind m) :=
    (ensureDatabase_returns h).bind Returns.pure
  have hne : Kind.control ≠ Kind.vault := by decide
  have hcontrol : Returns (do
      let outcome ← ensureDatabase draw .control
      pure ((Report.empty.add .vault (outcomeOf .vault m)).add .control outcome))
      (ensured draw .vault m)
      ((Report.empty.add .vault (outcomeOf .vault m)).add .control (outcomeOf .control m))
      (ensured draw .control (ensured draw .vault m)) := by
    have hready : ReadyFor .control (ensured draw .vault m) := (h .control).ensured hne
    have hsecond := hround (Report.empty.add .vault (outcomeOf .vault m)) hready
    rwa [outcomeOf_ensured hne] at hsecond
  simp only [ensureDatabases, kinds, List.foldlM_cons, List.foldlM_nil]
  exact (hround .empty (h .vault)).bind (hcontrol.bind Returns.pure)

/-- The report after one service key more. -/
def Report.addKey (name : String) (m : Machine) (r : Report) : Report :=
  if m.passwords name = none then { r with keysProvisioned := r.keysProvisioned ++ [name] } else r

lemma ensureServiceKeys_returns (r : Report)
    (h : ∀ name ∈ serviceKeys, m.passwords name ≠ none → ∃ key, require m name 32 = .ok key) :
    Returns (ensureServiceKeys draw r) m ((r.addKey tokenKeyName m).addKey auditKeyName m)
      (keyed draw auditKeyName (keyed draw tokenKeyName m)) := by
  have hround {m : Machine} (r : Report) (name : String)
      (h : m.passwords name ≠ none → ∃ key, require m name 32 = .ok key) :
      Returns (do
        let m ← now
        if hasKey m name then pure r
        else
          let _ ← provision draw name 32
          pure { r with keysProvisioned := r.keysProvisioned ++ [name] } :
          Program Machine Failure Report) m (r.addKey name m) (keyed draw name m) := by
    refine Returns.now_bind ?_
    unfold Report.addKey
    by_cases hnone : m.passwords name = none
    · rw [if_neg (by simp [hasKey_iff, require, hnone]), if_pos hnone, keyed_of_none hnone]
      exact (provision_returns hnone).bind Returns.pure
    · obtain ⟨key, hkey⟩ := h hnone
      rw [if_pos (hasKey_iff.mpr ⟨key, hkey⟩), if_neg hnone, keyed_of_require hkey]
      exact Returns.pure
  have hne : auditKeyName ≠ tokenKeyName := by decide
  have haudit : (keyed draw tokenKeyName m).passwords auditKeyName = m.passwords auditKeyName :=
    passwords_keyed_of_ne hne
  have hsecond := hround (m := keyed draw tokenKeyName m) (r.addKey tokenKeyName m) auditKeyName
    fun hsome => by
      rw [require_congr haudit]
      exact h auditKeyName (by simp [serviceKeys]) (haudit ▸ hsome)
  have hreport : (r.addKey tokenKeyName m).addKey auditKeyName (keyed draw tokenKeyName m) =
      (r.addKey tokenKeyName m).addKey auditKeyName m := by
    unfold Report.addKey
    rw [haudit]
  rw [hreport] at hsecond
  simp only [ensureServiceKeys, serviceKeys, List.foldlM_cons, List.foldlM_nil]
  exact (hround r tokenKeyName (h tokenKeyName (by simp [serviceKeys]))).bind
    (hsecond.bind Returns.pure)

lemma revealToken_returns {key : Bytes} (h : require m tokenKeyName 32 = .ok key) (reveal : Bool) :
    Returns (revealToken reveal) m (if reveal then some (hex key) else none) m := by
  unfold revealToken
  split
  · refine Returns.look ?_
    rw [h]
    rfl
  · exact Returns.pure

lemma require_keyed {name : String}
    (h : m.passwords name ≠ none → ∃ key, require m name 32 = .ok key) :
    require (keyed draw name m) name 32 = .ok (keyAfter draw name m) := by
  by_cases hnone : m.passwords name = none
  · have hread := require_hex (m.passwords_setPassword name (hex (draw.bytes name 32)))
    rw [draw.length_bytes] at hread
    rw [keyed_of_none hnone, keyAfter_of_none hnone, hread]
  · obtain ⟨key, hkey⟩ := h hnone
    rw [keyed_of_require hkey, keyAfter_of_require hkey, hkey]

lemma Ready.not_stranded (h : Ready m) : stranded m = [] := by
  refine List.filter_eq_nil_iff.mpr fun kind _ => ?_
  simp only [decide_eq_true_eq, not_and, not_not]
  intro hdb
  obtain ⟨f, hf⟩ := Option.isSome_iff_exists.mp hdb
  obtain ⟨key, hkey, -⟩ := h.opens kind f hf
  exact hasKey_iff.mpr ⟨key, hkey⟩

lemma Ready.readyFor (h : Ready m) (kind : Kind) : ReadyFor kind (withDirs m) where
  entry := h.entry (keyName kind) (mem_keyNames_keyName kind)
  opens := h.opens kind
  inStep := h.inStep kind
  home := by simp [withDirs, allDirs]

/-- A file without its key is not there, so its key is minted exactly if it is missing. -/
lemma Ready.add_outcomeOf (h : Ready m) (r : Report) (kind : Kind) :
    r.add kind (outcomeOf kind m) =
      { r with
        created := r.created ++ [kind].filter fun kind => m.db kind = none
        alreadyPresent := r.alreadyPresent ++ [kind].filter fun kind => m.db kind ≠ none
        migrated := r.migrated ++
          [kind].filter fun kind => m.db kind ≠ none ∧ userVersion kind m < latest kind
        keysProvisioned := r.keysProvisioned ++
          [keyName kind].filter fun name => m.passwords name = none } := by
  unfold outcomeOf
  cases hdb : m.db kind with
  | none =>
    by_cases hnone : m.passwords (keyName kind) = none
    · simp [Report.add, hdb, hnone]
    · simp [Report.add, hdb, hnone]
  | some f =>
    obtain ⟨key, hkey, -⟩ := h.opens kind f hdb
    have hsome := Option.isSome_iff_ne_none.mp (passwords_of_require hkey)
    by_cases hold : userVersion kind m < latest kind
    · simp [Report.add, hdb, hsome, hold]
    · simp [Report.add, hdb, hsome, hold]

lemma Report.addKey_eq (name : String) (r : Report) :
    r.addKey name m = { r with
      keysProvisioned := r.keysProvisioned ++ [name].filter fun name => m.passwords name = none } := by
  unfold addKey
  by_cases hnone : m.passwords name = none
  · simp [hnone]
  · simp [hnone]

lemma Ready.report_eq (h : Ready m) (draw : Draws) :
    (((Report.empty.add .vault (outcomeOf .vault m)).add .control (outcomeOf .control m)).addKey
      tokenKeyName m).addKey auditKeyName m = reportOf draw false m := by
  rw [Report.addKey_eq, Report.addKey_eq, h.add_outcomeOf, h.add_outcomeOf]
  simp only [Report.empty, reportOf, kinds, keyNames, serviceKeys, List.map_cons, List.map_nil,
    List.nil_append, ← List.filter_append, List.cons_append, Bool.false_eq_true, if_false]

/-- The machine the parts of `init` leave. -/
def afterParts (draw : Draws) (m : Machine) : Machine :=
  chmodDb .control (chmodDb .vault (keyed draw auditKeyName (keyed draw tokenKeyName
    (ensured draw .control (ensured draw .vault (withDirs m))))))

lemma passwords_afterParts (draw : Draws) (m : Machine) (name : String) :
    (afterParts draw m).passwords name = (initialised draw m).passwords name := by
  change (keyed draw auditKeyName (keyed draw tokenKeyName
    (ensured draw .control (ensured draw .vault (withDirs m))))).passwords name = _
  have hkeyed (m : Machine) (name' : String) : (keyed draw name' m).passwords name =
      if name = name' ∧ m.passwords name = none then some (hex (draw.bytes name 32))
      else m.passwords name := passwords_keyed name' name
  have hwith : (withDirs m).passwords name = m.passwords name := rfl
  by_cases hnone : m.passwords name = none
  · have hmem : name ∈ keyNames ↔ name = keyName .vault ∨ name = keyName .control ∨
        name = tokenKeyName ∨ name = auditKeyName := by simp [keyNames, kinds, serviceKeys]
    simp only [hkeyed, passwords_ensured, hwith, hnone, initialised, hmem, and_true]
    split_ifs <;> simp_all
  · simp [hkeyed, passwords_ensured, hwith, hnone, initialised]

lemma afterParts_eq (draw : Draws) (m : Machine) : afterParts draw m = initialised draw m := by
  have hne : Kind.control ≠ Kind.vault := by decide
  have hname : keyName .control ≠ keyName .vault := by decide
  refine Machine.ext ?_ (funext (passwords_afterParts draw m)) ?_ ?_
  · simp [afterParts, chmodDb, ensured, Machine.setDb, withDirs, initialised]
  · simp [afterParts, chmodDb, ensured, initialised]
  · have hkey : keyAfter draw (keyName .control) (ensured draw .vault (withDirs m)) =
        keyAfter draw (keyName .control) m := keyAfter_congr (passwords_keyed_of_ne hname)
    have hfile (key : Bytes) : upgraded .control key (ensured draw .vault (withDirs m)) =
        upgraded .control key m := upgraded_congr (db_ensured_of_ne hne) key
    have hdb : (keyed draw auditKeyName (keyed draw tokenKeyName
        (ensured draw .control (ensured draw .vault (withDirs m))))).db =
        (ensured draw .control (ensured draw .vault (withDirs m))).db := by simp
    funext kind
    cases kind with
    | vault =>
      rw [afterParts, chmodDb, Machine.db_setDb_of_ne _ _ hne.symm, chmodDb, Machine.db_setDb, hdb,
        db_ensured_of_ne hne.symm, ensured, Machine.db_setDb]
      rfl
    | control =>
      rw [afterParts, chmodDb, Machine.db_setDb, chmodDb, Machine.db_setDb_of_ne _ _ hne, hdb, ensured,
        Machine.db_setDb, hkey, hfile]
      rfl

/-- The databases done, the service keys are as they were. -/
def afterDatabases (draw : Draws) (m : Machine) : Machine :=
  ensured draw .control (ensured draw .vault (withDirs m))

lemma passwords_afterDatabases (draw : Draws) (m : Machine) {name : String}
    (hservice : name ∈ serviceKeys) : (afterDatabases draw m).passwords name = m.passwords name := by
  unfold afterDatabases
  rw [passwords_ensured, passwords_keyed_of_ne (serviceKey_ne hservice _), passwords_ensured,
    passwords_keyed_of_ne (serviceKey_ne hservice _)]
  rfl

lemma addKey_afterDatabases (draw : Draws) (m : Machine) {name : String}
    (hservice : name ∈ serviceKeys) (r : Report) :
    r.addKey name (afterDatabases draw m) = r.addKey name m := by
  unfold Report.addKey
  rw [passwords_afterDatabases draw m hservice]

lemma Ready.entry_afterDatabases (h : Ready m) (draw : Draws) {name : String}
    (hservice : name ∈ serviceKeys) (hsome : (afterDatabases draw m).passwords name ≠ none) :
    ∃ key, require (afterDatabases draw m) name 32 = .ok key := by
  have hsame := passwords_afterDatabases draw m hservice
  rw [require_congr hsame]
  exact h.entry name (by simp [keyNames, hservice]) (hsame ▸ hsome)

lemma Ready.require_token (h : Ready m) (draw : Draws) :
    require (afterParts draw m) tokenKeyName 32 = .ok (keyAfter draw tokenKeyName m) := by
  have htoken : tokenKeyName ∈ serviceKeys := by simp [serviceKeys]
  have hne : tokenKeyName ≠ auditKeyName := by decide
  have hkeyed : require (keyed draw tokenKeyName (afterDatabases draw m)) tokenKeyName 32 = _ :=
    require_keyed (h.entry_afterDatabases draw htoken)
  rw [keyAfter_congr (passwords_afterDatabases draw m htoken)] at hkeyed
  exact (require_congr (passwords_keyed_of_ne hne) 32).trans hkeyed

/-- `init` from a ready machine comes to its end.  It leaves both databases at the shipped schema or a
newer one, all four keys and all directories, with what was there before untouched, and reports what
was missing. -/
theorem initVault_returns (draw : Draws) (reveal : Bool) (h : Ready m) :
    Returns (initVault draw reveal) m (.done (reportOf draw reveal m)) (initialised draw m) := by
  have htoken : tokenKeyName ∈ serviceKeys := by simp [serviceKeys]
  have haudit : auditKeyName ∈ serviceKeys := by simp [serviceKeys]
  have hdatabases : Returns (ensureDatabases draw) (withDirs m) _ (afterDatabases draw m) :=
    ensureDatabases_returns h.readyFor
  have hkeys : Returns (ensureServiceKeys draw
      ((Report.empty.add .vault (outcomeOf .vault m)).add .control (outcomeOf .control m)))
      (afterDatabases draw m) _ _ :=
    ensureServiceKeys_returns _ fun _ hname => h.entry_afterDatabases draw hname
  rw [addKey_afterDatabases draw m htoken, addKey_afterDatabases draw m haudit,
    h.report_eq draw] at hkeys
  have hmodes : Returns (kinds.foldlM (fun _ kind => change (chmodDb kind)) ⟨⟩ :
      Program Machine Failure PUnit) (keyed draw auditKeyName (keyed draw tokenKeyName
        (afterDatabases draw m))) ⟨⟩ (afterParts draw m) := by
    simp only [kinds, List.foldlM_cons, List.foldlM_nil]
    exact Returns.change.bind (Returns.change.bind Returns.pure)
  have hreveal := revealToken_returns (h.require_token draw) reveal
  rw [afterParts_eq] at hmodes hreveal
  refine Returns.now_bind ?_
  rw [h.not_stranded, if_neg (by simp)]
  refine ensureDirs_returns.bind (hdatabases.bind (hkeys.bind (hmodes.bind (hreveal.bind ?_))))
  exact Returns.pure

/-! ## After that -/

lemma Ready.initialised (h : Ready m) (draw : Draws) : Ready (initialised draw m) :=
  ((initVault_returns draw false h).of_triple
    (initVault_triple (fun _ _ hready hmove => hmove.ready hready) false) h trivial).1

lemma passwords_initialised (draw : Draws) (m : Machine) {name : String} (hname : name ∈ keyNames) :
    (initialised draw m).passwords name ≠ none := by
  unfold Ops.initialised
  by_cases hnone : m.passwords name = none
  · simp [hname, hnone]
  · simp [hnone]

/-- A key keeps its value, and a new one is the one that was drawn. -/
lemma Ready.require_initialised (h : Ready m) (draw : Draws) {name : String}
    (hname : name ∈ keyNames) :
    require (Ops.initialised draw m) name 32 = .ok (keyAfter draw name m) := by
  by_cases hnone : m.passwords name = none
  · have hentry : (Ops.initialised draw m).passwords name = some (hex (draw.bytes name 32)) := by
      simp [Ops.initialised, hname, hnone]
    have hread := require_hex hentry
    rwa [draw.length_bytes, ← keyAfter_of_none hnone] at hread
  · have hentry : (Ops.initialised draw m).passwords name = m.passwords name := by
      simp [Ops.initialised, hnone]
    obtain ⟨key, hkey⟩ := h.entry name hname hnone
    rw [require_congr hentry, hkey, keyAfter_of_require hkey]

lemma userVersion_initialised (draw : Draws) (m : Machine) (kind : Kind) :
    userVersion kind (initialised draw m) = max (userVersion kind m) (latest kind) := by
  simp [userVersion, Ops.initialised, upgraded, DbFile.written]

/-- A second `init` finds nothing to do. -/
lemma Ready.initialised_initialised (h : Ready m) (draw draw' : Draws) :
    Ops.initialised draw' (Ops.initialised draw m) = Ops.initialised draw m := by
  refine Machine.ext rfl (funext fun name => ?_) (funext fun name => ?_) (funext fun kind => ?_)
  · refine if_neg ?_
    rintro ⟨hname, hnone⟩
    exact passwords_initialised draw m hname hnone
  · by_cases hname : name ∈ allDirs
    · simp [Ops.initialised, withDirs, hname]
    · simp [Ops.initialised, withDirs, hname]
  · have hkey : keyAfter draw' (keyName kind) (Ops.initialised draw m) = keyAfter draw (keyName kind) m :=
      keyAfter_of_require (h.require_initialised draw (mem_keyNames_keyName kind))
    have hversion : max (userVersion kind (Ops.initialised draw m)) (latest kind) =
        max (userVersion kind m) (latest kind) := by
      rw [userVersion_initialised]
      omega
    have hfile : upgraded kind (keyAfter draw' (keyName kind) (Ops.initialised draw m))
        (Ops.initialised draw m) = { upgraded kind (keyAfter draw (keyName kind) m) m with
          mode := 0o600 } := by
      rw [hkey]
      unfold upgraded
      rw [hversion]
      rfl
    change some _ = some _
    rw [hfile]

lemma Ready.reportOf_initialised (h : Ready m) (draw draw' : Draws) (reveal : Bool) :
    reportOf draw' reveal (Ops.initialised draw m) =
      ⟨[], kinds, [], [], if reveal then some (hex (keyAfter draw tokenKeyName m)) else none⟩ := by
  have hdb (kind : Kind) : (Ops.initialised draw m).db kind ≠ none := by simp [Ops.initialised]
  have hversion (kind : Kind) : ¬ userVersion kind (Ops.initialised draw m) < latest kind := by
    rw [userVersion_initialised]
    omega
  have htoken : keyAfter draw' tokenKeyName (Ops.initialised draw m) = keyAfter draw tokenKeyName m :=
    keyAfter_of_require (h.require_initialised draw (by simp [keyNames, serviceKeys]))
  unfold reportOf
  rw [htoken, Report.mk.injEq]
  refine ⟨by simp [hdb], by simp [hdb], by simp [hversion], ?_, rfl⟩
  rw [List.filter_eq_nil_iff]
  intro name hname
  simpa using passwords_initialised draw m hname

/-- Whatever commands were killed before it, and wherever, an `init` that is left to run comes to its
end, with a report of what was still missing, and the next one changes nothing and reports nothing
new. -/
theorem init_completes (backend : String) {es : List Event}
    (hes : Run.Meets step Careful (Machine.fresh backend) es) (draw draw' : Draws)
    (reveal reveal' : Bool) :
    let m := Run.final step (Machine.fresh backend) es
    Returns (initVault draw reveal) m (.done (reportOf draw reveal m)) (initialised draw m) ∧
      Returns (initVault draw' reveal') (initialised draw m)
        (.done ⟨[], kinds, [], [],
          if reveal' then some (hex (keyAfter draw tokenKeyName m)) else none⟩)
        (initialised draw m) := by
  intro m
  have hready : Ready m := ready_of_run backend hes
  refine ⟨initVault_returns draw reveal hready, ?_⟩
  have hsecond := initVault_returns draw' reveal' (hready.initialised draw)
  rwa [hready.reportOf_initialised, hready.initialised_initialised] at hsecond

theorem init_completes_sampleRun :
    let m := Run.final step (Machine.fresh "keyring.backends.macOS") sampleRun
    Returns (initVault default false) m (.done (reportOf default false m)) (initialised default m) ∧
      Returns (initVault default true) (initialised default m)
        (.done ⟨[], kinds, [], [], some (hex (keyAfter default tokenKeyName m))⟩)
        (initialised default m) :=
  init_completes _ (careful_sampleRun _) default default false true

end WhatsVault.Ops
