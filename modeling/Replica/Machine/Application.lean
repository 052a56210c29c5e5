import Replica.Applied.Cursor
import Replica.Machine.Transaction

/-!
# Applications

What an application brings to a replicated state machine: the state that entries act on, answers to
read-only requests, and the storage of its snapshots. Every part has a default; the application
made of defaults applies nothing and gives every entry back.
-/

namespace Replica

/-! ### Snapshots -/

/-- The storage directory of a server. -/
structure StorageRoot where
  path : String
  deriving DecidableEq, Inhabited

instance : Wire StorageRoot where
  encode s := .obj [("root", Wire.encode s.path)]
  decode? j := do
    match ← j.record? ["root"] with
    | [path] => return ⟨← Wire.decode? path⟩
    | _ => none

/-- A snapshot: the last position in it, and its files. -/
structure Snapshot where
  position : LogPosition
  files : List String
  deriving DecidableEq, Inhabited

namespace Snapshot

def index (s : Snapshot) : Int64 := s.position.index

instance : Wire Snapshot where
  encode s := .obj [("term_index", Wire.encode s.position), ("files", Wire.encode s.files)]
  decode? j := do
    match ← j.record? ["term_index", "files"] with
    | [position, files] => return ⟨← Wire.decode? position, ← Wire.decode? files⟩
    | _ => none

end Snapshot

/-- How many of the latest snapshots are kept. -/
structure Retention where
  kept : UInt64 := 1
  deriving DecidableEq, Inhabited

namespace Retention

/-- The snapshots that are kept, out of those held from the oldest to the latest. -/
def prune (r : Retention) (snapshots : List Snapshot) : List Snapshot :=
  snapshots.drop (snapshots.length - r.kept.toNat)

instance : Wire Retention where
  encode r := .obj [("num_snapshots_retained", Wire.encode r.kept)]
  decode? j := do
    match ← j.record? ["num_snapshots_retained"] with
    | [kept] => return ⟨← Wire.decode? kept⟩
    | _ => none

end Retention

/-! ### Applications -/

/-- An application with states `σ`. -/
structure Application (σ : Type) where
  /-- Prepares the storage below the server's storage directory. -/
  openStorage : StorageRoot → σ → Except ServerError σ := fun _ s => .ok s
  /-- The transaction of a client's request. -/
  begin : ClientRequest → Transaction := Transaction.ofRequest
  /-- Changes a transaction before it is appended to the log, or refuses it. -/
  beforeAppend : Transaction → Except ServerError Transaction := .ok
  /-- Takes back a transaction that will not be appended. -/
  takeBack : Transaction → Except ServerError Transaction := .ok
  /-- Changes a committed transaction before it is applied, or refuses it. -/
  beforeApply : Transaction → Except ServerError Transaction := .ok
  /-- Hears that the server leads no more, with the transactions that are still pending. -/
  stepDown : List Transaction → Except ServerError Unit := fun _ => .ok ()
  /-- What is said of a transaction that has no entry to apply. -/
  missingEntry : String := "transaction has no log entry"
  /-- Acts on an entry: the new state and the reply, or a failure that changes nothing. -/
  consume : LogEntry → σ → Except ServerError (σ × Payload) := fun entry s => .ok (s, entry.data)
  /-- Answers a read-only request. -/
  query : Payload → σ → Payload := fun _ _ => .empty
  /-- Takes a snapshot at the applied position, and says which index it covers. -/
  snapshot : LogPosition → σ → σ × Int64 := fun _ s => (s, invalidIndex)
  /-- The latest snapshot. -/
  latestSnapshot : σ → Option Snapshot := fun _ => none
  /-- Erases all snapshots. -/
  format : σ → σ := id
  /-- Removes the snapshots beyond those to keep. -/
  cleanup : Retention → σ → σ := fun _ s => s

namespace Application

/-- The application made of defaults. It has no state of its own. -/
def plain : Application Unit := {}

end Application

end Replica
