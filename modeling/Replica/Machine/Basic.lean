import Replica.Applied.Reads
import Replica.Lifecycle.Basic
import Replica.Machine.Application

/-!
# Replicated state machines

A machine binds an application to a server and a group. It has a lifecycle, the cursor over the
applied log with the reads that wait at it, and the state of its application.

* `Machine.launch` starts it. The ids are recorded before the storage is prepared. If the storage
  fails for want of input or output the machine is `NEW` again and may be started again; any other
  failure leaves it in `EXCEPTION`.
* `Machine.apply` lets the application act on a committed entry and then moves the cursor. An entry
  behind the cursor is refused, but by then the application has acted on it.
* `Machine.queryStale` begins a read that is answered once an index has been applied.
-/

namespace Replica

/-- A state machine with application states `σ`. -/
structure Machine (σ : Type) where
  lifecycle : Lifecycle := { name := "StateMachine" }
  /-- The server and the group, once recorded. -/
  ids : Option (PeerId × GroupId) := none
  reads : Reads Payload Payload := {}
  state : σ
  /-- What has been reported, oldest first. -/
  log : List Diagnostic := []

namespace Machine

variable {σ : Type} (app : Application σ)

def applied (m : Machine σ) : LogPosition := m.reads.cursor.applied

def server? (m : Machine σ) : Option PeerId := m.ids.map (·.1)

def group? (m : Machine σ) : Option GroupId := m.ids.map (·.2)

/-- The machine with more reported. -/
def report (diagnostics : List Diagnostic) (m : Machine σ) : Machine σ :=
  { m with log := m.log ++ diagnostics }

/-! ### The lifecycle -/

def transition (target : Lifecycle.State) (m : Machine σ) : Machine σ × Except ServerError Unit :=
  match m.lifecycle.transition target with
  | .ok lifecycle => ({ m with lifecycle }, .ok ())
  | .error e => (m, .error (.core e))

/-- Moves the lifecycle through states in turn, and stops at the first move that is refused. -/
def transitions : List Lifecycle.State → Machine σ → Machine σ × Except ServerError Unit
  | [], m => (m, .ok ())
  | target :: rest, m =>
    match m.transition target with
    | (m, .ok ()) => transitions rest m
    | (m, .error e) => (m, .error e)

/-- Moves the lifecycle from `source` to `target` if it is in `source`. Answers whether it moved. -/
def compareAndTransition (source target : Lifecycle.State) (m : Machine σ) : Machine σ × Bool :=
  match m.lifecycle.compareAndTransition? source target with
  | some lifecycle => ({ m with lifecycle }, true)
  | none => (m, false)

/-- The state that a failure to prepare the storage leads to: another try is possible only if it was
a matter of input or output. -/
def stateAfterFailure : ServerError → Lifecycle.State
  | .io _ => .new
  | _ => .exception

/-- What is reported of a failure to prepare the storage. -/
def openFailure (server : PeerId) (group : GroupId) (e : ServerError) : List Diagnostic :=
  e.diagnostics ++
    [{ severity := .warning, message := "Failed to initialize state machine"
       details := [("server", server.name), ("group", group.display), ("error", e.message)] }]

/-- Binds the machine to a server and a group, and starts it. -/
def launch (server : PeerId) (group : GroupId) (root : StorageRoot) (m : Machine σ) :
    Machine σ × Except ServerError Unit :=
  match m.transition .starting with
  | (m, .error e) => (m, .error e)
  | (m, .ok ()) =>
    let m := { m with ids := some (server, group) }
    match app.openStorage root m.state with
    | .error e =>
      let (m, _) := m.compareAndTransition .starting (stateAfterFailure e)
      (m.report (openFailure server group e), .error e)
    | .ok state => { m with state }.transition .running

/-- Stops applying entries for a while. -/
def pause (m : Machine σ) : Machine σ × Except ServerError Unit := m.transitions [.pausing, .paused]

/-- Goes on after a pause. -/
def resume (m : Machine σ) : Machine σ × Except ServerError Unit :=
  m.transitions [.starting, .running]

/-- Closes the machine. A second close changes nothing. -/
def close (m : Machine σ) : Machine σ × Except ServerError Unit :=
  match m.lifecycle.beginClose? with
  | some lifecycle => ({ m with lifecycle := lifecycle.finishClose }, .ok ())
  | none => (m, .ok ())

/-! ### The log -/

/-- Moves the cursor, and releases the reads that it reaches. -/
def advance (next : LogPosition) (m : Machine σ) : Machine σ × Except ServerError Bool :=
  match m.reads.update next with
  | (reads, .ok changed) => ({ m with reads }, .ok changed)
  | (reads, .error e) => ({ m with reads }.report e.diagnostics, .error e)

/-- Records that a position was used up without a transaction. -/
def markApplied (next : LogPosition) (m : Machine σ) : Machine σ × Except ServerError Unit :=
  match m.advance next with
  | (m, .ok _) => (m, .ok ())
  | (m, .error e) => (m, .error e)

/-- Applies a committed transaction, and answers with the application's reply. -/
def apply (trx : Transaction) (m : Machine σ) : Machine σ × Except ServerError Payload :=
  match trx.entry with
  | none => (m, .error (.invalidArgument app.missingEntry))
  | some entry =>
    match app.consume entry m.state with
    | .error e => (m, .error e)
    | .ok (state, reply) =>
      match { m with state }.advance entry.position with
      | (m, .ok _) => (m, .ok reply)
      | (m, .error e) => (m, .error e)

/-- Applies a committed entry, after the application has had a look at its transaction. -/
def applyEntry (entry : LogEntry) (m : Machine σ) : Machine σ × Except ServerError Payload :=
  match app.beforeApply (.ofEntry entry) with
  | .ok trx => m.apply app trx
  | .error e => (m, .error e)

/-- Takes a snapshot, and answers with the index that it covers. -/
def takeSnapshot (m : Machine σ) : Machine σ × Int64 :=
  let (state, index) := app.snapshot m.applied m.state
  ({ m with state }, index)

/-! ### Reads -/

def query (request : Payload) (m : Machine σ) : Payload := app.query request m.state

/-- Begins a read that is answered once `index` has been applied. -/
def queryStale (request : Payload) (index : Int64) (m : Machine σ) : Machine σ :=
  { m with reads := m.reads.begin (fun request => app.query request m.state) index request }

/-- Gives up a read. Answers whether it was under way. -/
def cancel (t : TaskId) (m : Machine σ) : Machine σ × Bool :=
  let (reads, wasOpen) := m.reads.cancel t
  ({ m with reads }, wasOpen)

def schedule : Schedule (Machine σ) where
  size m := m.reads.reads.length
  isReady _ t m := m.reads.isReleased t
  turn _ t m := { m with reads := m.reads.turn (fun request => app.query request m.state) t }
  alarm? _ := none
  effort m := m.reads.reads.length

end Machine

end Replica
