import Replica.Machine.Basic
import Replica.Text.Digits

/-!
# A counter

A sample application. It adds the integer in the payload of every entry to a total, which wraps
around at 64 bits, answers every request with the total, and keeps its snapshots in memory.
-/

namespace Replica

/-- The state of a counter. -/
structure Counter where
  total : Int64 := 0
  /-- The snapshots, from the oldest to the latest. -/
  snapshots : List Snapshot := []
  /-- The storage directory, once prepared. -/
  root : Option StorageRoot := none
  /-- How the storage fails when it is prepared next, if it does. -/
  failure : Option ServerError := none
  deriving DecidableEq, Inhabited

namespace Counter

/-- What is said of a payload that spells no integer. -/
def notAnInteger : String := "payload is not an integer"

/-- The total in decimal digits. -/
def reply (c : Counter) : Payload := .ofString (toString c.total.toInt)

/-- Prepares the storage, unless it is set to fail. -/
def openStorage (root : StorageRoot) (c : Counter) : Except ServerError Counter :=
  match c.failure with
  | some e => .error e
  | none => .ok { c with root := some root }

/-- The transaction of a request, which fails beforehand if its payload spells no integer. -/
def begin (request : ClientRequest) : Transaction :=
  match Text.Integer.int64OfBytes? request.message.bytes with
  | some _ => .ofRequest request
  | none => (Transaction.ofRequest request).attach (.failure notAnInteger)

/-- Adds the integer of an entry. -/
def consume (entry : LogEntry) (c : Counter) : Except ServerError (Counter × Payload) :=
  match Text.Integer.int64OfBytes? entry.data.bytes with
  | none => .error (.stateMachine notAnInteger)
  | some delta =>
    let c := { c with total := c.total + delta }
    .ok (c, c.reply)

/-- Keeps a snapshot at the position, with one file named after it. -/
def snapshot (applied : LogPosition) (c : Counter) : Counter × Int64 :=
  let file := "snapshot." ++ toString applied.term.toInt ++ "_" ++ toString applied.index.toInt
  ({ c with snapshots := c.snapshots ++ [⟨applied, [file]⟩] }, applied.index)

def application : Application Counter where
  openStorage := openStorage
  begin := begin
  missingEntry := "no log entry"
  consume := consume
  query _ c := c.reply
  snapshot := snapshot
  latestSnapshot c := c.snapshots.getLast?
  format c := { c with snapshots := [] }
  cleanup retention c := { c with snapshots := retention.prune c.snapshots }

end Counter

end Replica
