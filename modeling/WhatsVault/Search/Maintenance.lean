import WhatsVault.Library.Run
import WhatsVault.Library.Transaction
import WhatsVault.Search.Coherence

/-!
# Runs of index maintenance

The entry points of `search/index.py` on a connection, in any order, each at the normaliser version of
its day, with other statements on the vault and the ends of transactions between them.  Both states of
the connection stay coherent (`index_mirrors_documents`).  What a rebuild finds in the index does not
matter: it leaves the messages with a text, each normalised at the version it ran with.
-/

namespace WhatsVault.Search

open Transaction

/-! ## The calls -/

inductive MaintenanceCall
  /-- `stage_message`, within the caller's transaction. -/
  | stageMessage (N : Normaliser) (messageId : String) (textOriginal : Option String)
  | indexMessage (N : Normaliser) (messageId : String) (textOriginal : Option String)
  | reindexStale (N : Normaliser)
  | rebuildAll (N : Normaliser)
  /-- A statement on tables that are not the index. -/
  | evidence (f : Evidence → Evidence)
  | commit
  | rollback

/-- How many documents are of another version. -/
def staleCount (N : Normaliser) (v : Vault) : ℕ :=
  (v.search.documents.filter fun d => d.normaliserVersion ≠ N.version).length

/-- One call, with the number it returns. -/
def maintain (c : Conn Vault) : MaintenanceCall → Conn Vault × List ℕ
  | .stageMessage N messageId text => (c.exec (stageIn N messageId (text.getD "")), [])
  | .indexMessage N messageId text => ((c.exec (stageIn N messageId (text.getD ""))).commit, [])
  | .reindexStale N => ((c.exec (reindexStale N)).commit, [staleCount N c.working])
  | .rebuildAll N => ((c.exec (rebuildAll N)).commit, [(indexable c.working).length])
  | .evidence f => (c.exec fun v => { v with evidence := f v.evidence }, [])
  | .commit => (c.commit, [])
  | .rollback => (c.rollback, [])

/-- The index of a vault is coherent. -/
def IndexCoherent (v : Vault) : Prop := Coherent v.search

lemma coherent_maintain (c : Conn Vault) (call : MaintenanceCall) (h : c.Holds IndexCoherent) :
    (maintain c call).1.Holds IndexCoherent := by
  cases call with
  | stageMessage N messageId text =>
    apply h.exec
    intro hv
    exact Coherent.stageMessage N _ hv
  | indexMessage N messageId text =>
    apply (h.exec _).commit
    intro hv
    exact Coherent.stageMessage N _ hv
  | reindexStale N =>
    apply (h.exec _).commit
    intro hv
    exact (staged_reindexStale N hv).coherent
  | rebuildAll N =>
    apply (h.exec _).commit
    intro _
    exact (rebuildAll_spec N c.working).2.1
  | evidence f => exact h.exec fun hv => hv
  | commit => exact h.commit
  | rollback => exact h.rollback

/-! ## What a rebuild leaves -/

/-- What a document says of its message. -/
def contents (d : SearchDocument) : String × ℤ × String × String :=
  (d.messageId, d.normaliserVersion, d.textSearch, d.textCompact)

/-- What a document of a message with this text says. -/
def contentsOf (N : Normaliser) (m : String × String) : String × ℤ × String × String :=
  (m.1, N.version, N.toSearch m.2, N.toCompact m.2)

variable {N : Normaliser} {v : Vault}

/-- Staging messages that have no document adds one for each, in order. -/
lemma contents_foldl_stageIn {items : List (String × String)} (hnodup : (items.map Prod.fst).Nodup)
    (hfresh : ∀ d ∈ v.search.documents, d.messageId ∉ items.map Prod.fst) :
    (items.foldl (fun v m => stageIn N m.1 m.2 v) v).search.documents.map contents =
      v.search.documents.map contents ++ items.map (contentsOf N) := by
  induction items generalizing v with
  | nil => simp
  | cons m items ih =>
    rw [List.map_cons, List.nodup_cons] at hnodup
    have hnone : document m.1 v.search = none := by
      apply Table.find_eq_none_iff.mpr
      intro d hd hsame
      exact hfresh d hd (hsame ▸ List.mem_cons_self)
    have hstaged : (stageIn N m.1 m.2 v).search.documents =
        v.search.documents ++ [documentRow N (nextRowid v.search) m.1 m.2] := by
      show (stageMessage N m.1 m.2 v.search).documents = _
      rw [stageMessage_of_none N m.2 hnone]
      rfl
    have hnext : ∀ d ∈ (stageIn N m.1 m.2 v).search.documents,
        d.messageId ∉ items.map Prod.fst := by
      intro d hd
      rw [hstaged] at hd
      rcases List.mem_append.mp hd with hold | hnew
      · intro hmem
        exact hfresh d hold (List.mem_cons_of_mem _ hmem)
      · rw [List.mem_singleton.mp hnew]
        exact hnodup.1
    rw [List.foldl_cons, ih hnodup.2 hnext, hstaged, List.map_append, List.append_assoc]
    rfl

lemma nodup_indexable (h : Table.Unique Message.id v.evidence.messages) :
    ((indexable v).map Prod.fst).Nodup := by
  refine List.Nodup.sublist ?_ h
  unfold indexable
  induction v.evidence.messages with
  | nil => exact List.Sublist.refl _
  | cons m messages ih =>
    rcases htext : m.textOriginal with _ | text
    · rw [List.filterMap_cons_none (by rw [htext]; rfl), List.map_cons]
      exact ih.cons _
    · rw [List.filterMap_cons_some (by rw [htext]; rfl), List.map_cons, List.map_cons]
      exact ih.cons_cons _

/-- The index of `v'` is that of the messages of `v` that have a text, at the version of `N`. -/
structure Rebuilt (N : Normaliser) (v v' : Vault) : Prop where
  frame : v' = { v with search := v'.search }
  coherent : Coherent v'.search
  contents : v'.search.documents.map contents = (indexable v).map (contentsOf N)

lemma rebuilt_rebuildAll (h : Table.Unique Message.id v.evidence.messages) :
    Rebuilt N v (rebuildAll N v) where
  frame := (rebuildAll_spec N v).1
  coherent := (rebuildAll_spec N v).2.1
  contents := by
    have hnone : ∀ d ∈ ({ v with search := ⟨[], [], []⟩ } : Vault).search.documents,
        d.messageId ∉ (indexable v).map Prod.fst := fun d hd => absurd hd List.not_mem_nil
    rw [rebuildAll, contents_foldl_stageIn (nodup_indexable h) hnone]
    rfl

/-- **The full-text indexes mirror the documents.**  A run of maintenance calls keeps both states of
the connection coherent, and a rebuild makes the index that of the messages with a text whatever it
was before. -/
theorem index_mirrors_documents {c : Conn Vault} (h : c.Holds IndexCoherent)
    (calls : List MaintenanceCall) :
    (Run.final maintain c calls).Holds IndexCoherent ∧
      ∀ (c' : Conn Vault) (N : Normaliser), Table.Unique Message.id c'.working.evidence.messages →
        (maintain c' (.rebuildAll N)).1.durable = (maintain c' (.rebuildAll N)).1.working ∧
          Rebuilt N c'.working (maintain c' (.rebuildAll N)).1.working := by
  refine ⟨Run.invariant coherent_maintain h calls, fun c' N hunique => ⟨rfl, ?_⟩⟩
  exact rebuilt_rebuildAll hunique

def sampleVersion (n : ℤ) : Normaliser := ⟨id, id, n⟩

/-- A message indexed twice, another one dropped, and a version that makes the first stale. -/
def sampleUpkeep : List MaintenanceCall :=
  [.indexMessage (sampleVersion 1) "m" (some "one"), .indexMessage (sampleVersion 1) "m" (some "two"),
    .stageMessage (sampleVersion 1) "n" none, .rollback, .reindexStale (sampleVersion 2)]

theorem index_mirrors_documents_sample :
    (Run.final maintain (.clean .empty) sampleUpkeep).Holds IndexCoherent ∧
      Rebuilt (sampleVersion 2) (Run.final maintain (.clean .empty) sampleUpkeep).working
        (maintain (Run.final maintain (.clean .empty) sampleUpkeep)
          (.rebuildAll (sampleVersion 2))).1.working := by
  have hempty : (Conn.clean Vault.empty).Holds IndexCoherent := ⟨Coherent.empty, Coherent.empty⟩
  have hall := index_mirrors_documents hempty sampleUpkeep
  have hnone : (Run.final maintain (.clean .empty) sampleUpkeep).working.evidence.messages = [] := by
    decide
  have hunique := Table.unique_nil Message.id
  rw [← hnone] at hunique
  exact ⟨hall.1, (hall.2 _ _ hunique).2⟩

end WhatsVault.Search
