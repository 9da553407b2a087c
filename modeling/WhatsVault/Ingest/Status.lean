import Mathlib.Data.String.Basic
import WhatsVault.Library.Ranking
import WhatsVault.Vault.Schema

/-!
# The delivery-rank lattice

`reduce_status` folds the status events of a message: the rank is the highest any of them reached,
failure and deletion keep their earliest time, and a status it does not know is reported.
-/

namespace WhatsVault.Ingest

/-- What `reduce_status` returns. -/
structure Reduced where
  deliveryRank : ℕ
  failedAtMs : Option ℤ
  deletedAtMs : Option ℤ
  unknownStatuses : List String
  deriving DecidableEq

/-- `RANK`. -/
def statusRank (status : String) : Option ℕ :=
  [("sent", 1), ("delivered", 2), ("read", 3)].lookup status

/-- `ts if at is None else min(at, ts)`. -/
def earliest (old : Option ℤ) (ts : ℤ) : Option ℤ := some (old.elim ts fun ms => min ms ts)

/-- The state before the first event, and what is returned for a message without a wamid. -/
def Reduced.none : Reduced := ⟨0, .none, .none, []⟩

/-- One turn of the loop, with the unknown statuses as a set. -/
def Reduced.add (r : Reduced) (e : StatusEvent) : Reduced :=
  match statusRank e.status with
  | some rank => { r with deliveryRank := max r.deliveryRank rank }
  | .none =>
    if e.status = "failed" then { r with failedAtMs := earliest r.failedAtMs e.providerTsMs }
    else if e.status = "deleted" then { r with deletedAtMs := earliest r.deletedAtMs e.providerTsMs }
    else { r with unknownStatuses := r.unknownStatuses.insert e.status }

def reduceStatus (events : List StatusEvent) : Reduced :=
  let r := events.foldl Reduced.add .none
  { r with unknownStatuses := Ranking.sortBy id r.unknownStatuses }

end WhatsVault.Ingest
