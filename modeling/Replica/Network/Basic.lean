import Replica.Error.Exit
import Replica.Network.Mailbox
import Replica.Network.Settings
import Replica.Time.Polling

/-!
# Simulated networks

A network has one mailbox for each registered node. A node that is registered again gets a new
mailbox and the old one is closed; a mailbox that is closed lives on for those who still refer to
it.

A caller that waits for a reply holds one end of a slip. The other end is in the table of the
mailbox that it sent to, and goes away when an outcome is written on the slip or the mailbox is
closed.

The journal holds what happens in a network, as it happens. Warnings and errors are read off it.
-/

namespace Replica

/-! ### The journal -/

/-- Something that happened. -/
inductive Occurrence where
  /-- A request was put into a mailbox. -/
  | sent (box : MailboxId) (request : Request)
  /-- A request was taken out of a mailbox. -/
  | taken (box : MailboxId) (taker : TaskId) (request : Request)
  /-- A request was taken out of a mailbox and dropped, by its requestor's switch. -/
  | dropped (box : MailboxId) (taker : TaskId) (request : Request)
  /-- The requests of a mailbox went away when it was closed. -/
  | discarded (box : MailboxId) (requests : List Request)
  /-- The outcome of a request was handed over on a slip. -/
  | answered (box : MailboxId) (request : Request) (outcome : Outcome) (slip : SlipId)
  /-- A worker gave a request to its server. -/
  | handled (worker : TaskId) (request : Request)
  /-- An error was made and reported. -/
  | raised (error : ServerError)
  /-- A worker asked for the end of the process. -/
  | terminated (worker : TaskId) (record : ExitRecord) (cause : ServerError)
  deriving DecidableEq, Inhabited

/-- What is reported of an occurrence. -/
def Occurrence.diagnostics : Occurrence → List Diagnostic
  | raised error => error.diagnostics
  | terminated _ record cause => [record.diagnostic cause.message]
  | _ => []

/-- An occurrence and its time. -/
structure JournalEntry where
  time : Nat
  what : Occurrence
  deriving DecidableEq, Inhabited

/-! ### Slips, mailboxes and nodes -/

/-- What a caller finds on its slip. -/
inductive Slip where
  /-- Nothing yet. -/
  | blank
  /-- The outcome of its request. -/
  | filled (outcome : Outcome)
  /-- Nothing ever: the mailbox was closed. -/
  | void
  /-- The caller does not look any more. -/
  | abandoned
  deriving DecidableEq, Inhabited

/-- The slip when the mailbox is closed that it was entered in: nothing will be written on it. -/
def Slip.voided : Slip → Slip
  | .blank => .void
  | slip => slip

/-- The slip with the outcome, if the caller still looks. -/
def Slip.fill (outcome : Outcome) : Slip → Slip
  | .blank => .filled outcome
  | slip => slip

/-- The slip when the caller gives up. -/
def Slip.abandon : Slip → Slip
  | .blank => .abandoned
  | slip => slip

/-- A simulated network. -/
structure Network where
  settings : Settings := {}
  /-- The numbers that the random source yields, by the count of those before. -/
  dice : Nat → UInt64 := fun _ => 0
  /-- How many numbers have been taken from the random source. -/
  rolls : Nat := 0
  /-- All mailboxes, from the first to the last made. -/
  mailboxes : List Mailbox := []
  /-- The mailbox of each registered node. -/
  registry : Registry MailboxId := []
  /-- All slips, from the first to the last made. -/
  slips : List Slip := []
  /-- What has happened, oldest first. -/
  journal : List JournalEntry := []

/-- How far a task has come in one turn: it waits at a stage, or it has ended. -/
inductive Progress (σ α : Type) where
  | waiting (stage : σ)
  | ended (result : α)
  deriving DecidableEq, Inhabited

/-- The same progress in other terms. -/
def Progress.map {σ τ α β : Type} (stage : σ → τ) (result : α → β) : Progress σ α → Progress τ β
  | waiting s => waiting (stage s)
  | ended r => ended (result r)

namespace Network

/-! ### Views -/

def mailbox? (id : PeerId) (net : Network) : Option Mailbox :=
  (net.registry.get? id).bind fun box => net.mailboxes[box]?

def nodes (net : Network) : List PeerId := net.registry.ids

/-- The switches of a registered node; one that is not registered has none set. -/
def switchesOf (id : PeerId) (net : Network) : Switches :=
  ((net.mailbox? id).map (·.switches)).getD {}

def describe (net : Network) : String :=
  Text.structured "SimulatedRequestReply"
    [("config", net.settings.describe), ("nodes", toString net.registry.length)] false

/-! ### Changes of one place -/

def note (now : Nat) (what : Occurrence) (net : Network) : Network :=
  { net with journal := net.journal ++ [⟨now, what⟩] }

def modifyMailbox (box : MailboxId) (f : Mailbox → Mailbox) (net : Network) : Network :=
  { net with mailboxes := net.mailboxes.modify box f }

def modifySlip (slip : SlipId) (f : Slip → Slip) (net : Network) : Network :=
  { net with slips := net.slips.modify slip f }

def roll (net : Network) : UInt64 × Network :=
  (net.dice net.rolls, { net with rolls := net.rolls + 1 })

/-! ### Nodes -/

/-- Closes a mailbox: its requests are discarded, its takers are woken, and the callers in its table
find their slips void. -/
def closeMailbox (now : Nat) (box : MailboxId) (net : Network) : Network :=
  match net.mailboxes[box]? with
  | none => net
  | some b =>
    { net with
      mailboxes := net.mailboxes.set box b.close
      slips := b.slips.foldl (fun slips slip => slips.modify slip Slip.voided) net.slips }
      |>.note now (.discarded box b.requests)

/-- Registers a node with a new mailbox. The mailbox that it had is closed. -/
def register (now : Nat) (id : PeerId) (net : Network) : Network :=
  let old := net.registry.get? id
  let b : Mailbox := { id }
  let net :=
    { net with
      registry := net.registry.set id net.mailboxes.length
      mailboxes := net.mailboxes ++ [b] }
  match old with
  | some box => net.closeMailbox now box
  | none => net

/-- Removes a node. Its mailbox is closed. -/
def shutdown (now : Nat) (id : PeerId) (net : Network) : Network :=
  match net.registry.get? id with
  | some box => { net with registry := net.registry.remove id }.closeMailbox now box
  | none => net

def clear (now : Nat) (net : Network) : Network :=
  net.nodes.foldl (fun net id => net.shutdown now id) net

def setSwitches (box : MailboxId) (f : Switches → Switches) (net : Network) : Network :=
  net.modifyMailbox box fun b => { b with switches := f b.switches }

/-- Gives a detour to the requests in the mailboxes that were made for the task. -/
def divert (owner : TaskId) (other : PeerId) (net : Network) : Network :=
  { net with
    mailboxes := net.mailboxes.map fun b =>
      { b with requests := b.requests.map (Request.divert owner other) } }

end Network

end Replica
