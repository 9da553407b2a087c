import WhatsVault.Ingest.StatusLattice
import WhatsVault.Mcp.Reads

/-!
# The delivery state a client is shown

`get_message_status` reduces the status events of a message, so what it shows is a join: which
events there are decides it, and neither the order they came in nor how often each came does.
-/

namespace WhatsVault.Mcp

open Ingest

/-- The same vault with other rows in `message_status_events`. -/
def withStatusEvents (v : Vault) (events : List StatusEvent) : Vault :=
  { v with evidence := { v.evidence with statusEvents := events } }

/-- The events of a message are the same, up to order and repetition: so is what is shown. -/
lemma getMessageStatus_congr (messageId : PyStr) (v : Vault) {events : List StatusEvent}
    (h : events ⊆ v.evidence.statusEvents) (h' : v.evidence.statusEvents ⊆ events) :
    getMessageStatus messageId (withStatusEvents v events) = getMessageStatus messageId v := by
  have hreduce (wamid : String) : reduceStatus (events.filter fun e => e.wamid = wamid) =
      reduceStatus (v.evidence.statusEvents.filter fun e => e.wamid = wamid) :=
    reduceStatus_congr (List.filter_subset _ h) (List.filter_subset _ h')
  have hlocal : localOnlyIds (withStatusEvents v events) = localOnlyIds v := rfl
  have hmessage (id : String) : (withStatusEvents v events).message id = v.message id := rfl
  unfold getMessageStatus
  simp only [hlocal, hmessage]
  simp only [withStatusEvents, hreduce]

/-- `reduce_status` is a fold in a join-semilattice: the order of the events and their repetition do
not matter, events together reduce to the componentwise join, and further events lower no rank, move
no failure or deletion later and remove no unknown status.  So `get_message_status` depends on which
status events there are, not on how they arrived. -/
theorem deliveryStatus_is_a_join :
    (∀ xs ys : List StatusEvent, xs.Perm ys → reduceStatus xs = reduceStatus ys) ∧
    (∀ xs ys : List StatusEvent, xs ⊆ ys → ys ⊆ xs → reduceStatus xs = reduceStatus ys) ∧
    (∀ xs ys, reduceStatus (xs ++ ys) = (reduceStatus xs).join (reduceStatus ys)) ∧
    (∀ xs ys : List StatusEvent, xs ⊆ ys → (reduceStatus xs).AtMost (reduceStatus ys)) ∧
    ∀ messageId v events, events ⊆ v.evidence.statusEvents → v.evidence.statusEvents ⊆ events →
      getMessageStatus messageId (withStatusEvents v events) = getMessageStatus messageId v :=
  ⟨fun _ _ h => reduceStatus_congr h.subset h.symm.subset, fun _ _ => reduceStatus_congr,
    reduceStatus_append, fun _ _ => reduceStatus_atMost,
    fun messageId v _ => getMessageStatus_congr messageId v⟩

end WhatsVault.Mcp
