import Replica.Cluster.Basic

/-!
# Calls on a cluster

What a task does in one turn, from one wait to the next, is one function here: `Cluster.undertake`
for the first turn of a call and `Cluster.resume` for the later turns of a job. Every order in which
tasks can take turns is an order of applying these functions.

A task that is cancelled stays where it is. It wakes nobody, apart from passing on a wake-up or a
lock that it can no longer use.
-/

namespace Replica

namespace Cluster

variable {σ : Type} (service : Service σ)

/-! ### Calls on the network -/

/-- Takes over the network and the progress of a turn on it. -/
def afterNetwork {τ α : Type} (stage : τ → Job) (answer : α → Answer)
    (result : Network × Progress τ α) (c : Cluster σ) : Cluster σ × JobProgress :=
  ({ c with network := result.1 }, result.2.map stage answer)

def work (now : Nat) (t : TaskId) (s : ServerId) (place : Nat) (stage : Working) (c : Cluster σ) :
    Cluster σ × JobProgress :=
  match c.servers[s]? with
  | none => (c, .waiting (.work s place stage))
  | some server =>
    let badge : Badge := { node := server.node, server := server.name, place, task := t }
    let desk : Desk σ := { network := c.network, state := server.state, exit := c.exit }
    let (desk, progress) := desk.turn service now badge stage
    ({ c with
        network := desk.network
        servers := c.servers.set s { server with state := desk.state }
        exit := desk.exit },
      progress.map (.work s place) .departed)

/-! ### Calls on directories -/

def modifyMap (d : DirectoryId) (f : ProxyMap → ProxyMap) (c : Cluster σ) : Cluster σ :=
  { c with directories := c.directories.modify d fun dir => { dir with map := f dir.map } }

def beginProxyCall (now : Nat) (d : DirectoryId) (call : ProxyCall) (c : Cluster σ) :
    Cluster σ × TaskId :=
  (c.modifyMap d (·.begin now c.network.factory call),
    (c.directories[d]?.map (·.map.tasks.length)).getD 0)

def turnProxyCall (now : Nat) (d : DirectoryId) (call : TaskId) (c : Cluster σ) : Cluster σ :=
  c.modifyMap d (·.turn now c.network.factory call)

def proxyStage? (d : DirectoryId) (call : TaskId) (c : Cluster σ) : Option ProxyStage :=
  c.directories[d]?.bind (·.map.stage? call)

def proxyAnswer? (d : DirectoryId) (call : TaskId) (c : Cluster σ) : Option ProxyAnswer :=
  (c.directories[d]?.bind (·.map.ended? call)).map (·.2)

def waitForProxyCall (d : DirectoryId) (call : TaskId) (c : Cluster σ) : Cluster σ × JobProgress :=
  match c.proxyAnswer? d call with
  | some answer => (c, .ended (.consulted d answer))
  | none => (c, .waiting (.consult d call))

/-! ### Relays -/

/-- A relay waits for the repair of its link. -/
def waitForRepair (d : DirectoryId) (via : PeerId) (call : TaskId) (sent : Outcome)
    (c : Cluster σ) : Cluster σ × JobProgress :=
  match c.proxyAnswer? d call with
  | some (.repaired reset) => (c, .ended (.relayed sent (some reset)))
  | _ => (c, .waiting (.relay d via (.repairing call sent)))

/-- A relay goes on with its request, and has the link repaired if that ends in an error of peer
bookkeeping. -/
def afterRelay (now : Nat) (d : DirectoryId) (via : PeerId)
    (result : Network × Network.SendProgress) (c : Cluster σ) : Cluster σ × JobProgress :=
  let c := { c with network := result.1 }
  match result.2 with
  | .waiting stage => (c, .waiting (.relay d via (.sending stage)))
  | .ended (.error (.core e)) =>
    let (c, call) := c.beginProxyCall now d (.repair via e false)
    c.waitForRepair d via call (.error (.core e))
  | .ended sent => (c, .ended (.relayed sent none))

/-- A relay waits for its link, and sends its request once it has it. -/
def waitForLink (now : Nat) (d : DirectoryId) (via : PeerId) (call : TaskId) (r : Request)
    (c : Cluster σ) : Cluster σ × JobProgress :=
  let wait := Progress.waiting (Job.relay d via (.connecting call r))
  match c.proxyAnswer? d call with
  | some (.proxy (.error e)) => (c, .ended (.unconnected e))
  | some (.proxy (.ok h)) =>
    match c.link? d h with
    | some l => c.afterRelay now d via (c.network.beginLinkSend now l (c.isShut l) r)
    | none => (c, wait)
  | _ => (c, wait)

/-- A later turn of a relay. -/
def resumeRelay (now : Nat) (d : DirectoryId) (via : PeerId) (stage : Relay) (c : Cluster σ) :
    Cluster σ × JobProgress :=
  match stage with
  | .connecting call r => (c.turnProxyCall now d call).waitForLink now d via call r
  | .sending stage => c.afterRelay now d via (c.network.turnLinkSend now stage)
  | .repairing call sent => (c.turnProxyCall now d call).waitForRepair d via call sent

/-! ### Turns -/

/-- The first turn of task `t`. -/
def undertake (now : Nat) (t : TaskId) (call : Call) (c : Cluster σ) : Cluster σ × JobProgress :=
  match call with
  | .send r => c.afterNetwork .send .outcome (c.network.beginSend now { r with owner := some t })
  | .take id => c.afterNetwork .take .request (c.network.beginTake now t id)
  | .reply r outcome =>
    c.afterNetwork .reply .replied (c.network.beginReply now { r with owner := some t } outcome)
  | .work s place => c.work service now t s place .idle
  | .linkSend l r =>
    let r := { r with owner := some t }
    c.afterNetwork .linkSend .outcome (c.network.beginLinkSend now l (c.isShut l) r)
  | .consult d call =>
    let (c, call) := c.beginProxyCall now d call
    c.waitForProxyCall d call
  | .relay d via r =>
    let (c, call) := c.beginProxyCall now d (.lookUp via)
    c.waitForLink now d via call { r with owner := some t }

/-- A later turn of task `t`. -/
def resume (now : Nat) (t : TaskId) (job : Job) (c : Cluster σ) : Cluster σ × JobProgress :=
  match job with
  | .send stage => c.afterNetwork .send .outcome (c.network.turnSend now stage)
  | .take stage => c.afterNetwork .take .request (c.network.turnTake now t stage)
  | .reply stage => c.afterNetwork .reply .replied (c.network.turnReply now stage)
  | .work s place stage => c.work service now t s place stage
  | .linkSend stage => c.afterNetwork .linkSend .outcome (c.network.turnLinkSend now stage)
  | .consult d call => (c.turnProxyCall now d call).waitForProxyCall d call
  | .relay d via stage => c.resumeRelay now d via stage

/-- Begins a call, which has its first turn. Its task is the next number. -/
def begin (now : Nat) (call : Call) (c : Cluster σ) : Cluster σ :=
  let (c, progress) := c.undertake service now c.tasks.length call
  { c with tasks := c.tasks ++ [.ofProgress now progress] }

def turn (now : Nat) (t : TaskId) (c : Cluster σ) : Cluster σ :=
  match c.tasks[t]? with
  | some (.running job) =>
    let (c, progress) := c.resume service now t job
    { c with tasks := c.tasks.set t (.ofProgress now progress) }
  | _ => c

def abandon (t : TaskId) (job : Job) (c : Cluster σ) : Cluster σ :=
  match job with
  | .send stage | .linkSend stage | .relay _ _ (.sending stage) => c.onNetwork (·.cancelSend stage)
  | .take stage => c.onNetwork (·.cancelTake t stage)
  | .reply _ => c
  | .work _ _ stage => c.onNetwork (·.cancelWork t stage)
  | .consult d call | .relay d _ (.connecting call _) | .relay d _ (.repairing call _) =>
    c.modifyMap d fun map => (map.cancel call).1

/-- Cancels a task where it stands, unless it has ended. Answers whether it was under way. -/
def cancel (t : TaskId) (c : Cluster σ) : Cluster σ × Bool :=
  match c.tasks[t]? with
  | some (.running job) =>
    let c := c.abandon t job
    ({ c with tasks := c.tasks.set t .cancelled }, true)
  | _ => (c, false)

/-! ### Workers of a server -/

/-- Starts the workers of a server: as many as the settings say, with places from zero. -/
def startWorkers (now : Nat) (s : ServerId) (c : Cluster σ) : Cluster σ :=
  (List.range c.network.settings.workers.toNat).foldl
    (fun (c : Cluster σ) place =>
      let t := c.tasks.length
      (c.begin service now (.work s place)).modifyServer s fun server =>
        { server with crew := server.crew ++ [t] })
    c

/-- Cancels the workers of a server, which has none from then on. -/
def dismissWorkers (s : ServerId) (c : Cluster σ) : Cluster σ :=
  match c.servers[s]? with
  | some server =>
    (server.crew.foldl (fun (c : Cluster σ) t => (c.cancel t).1) c).modifyServer s fun server =>
      { server with crew := [] }
  | none => c

/-! ### Scheduling -/

def proxyCallReady (now : Nat) (d : DirectoryId) (call : TaskId) (c : Cluster σ) : Bool :=
  c.directories[d]?.any (·.map.isReady now call)

def jobReady (now : Nat) (t : TaskId) (c : Cluster σ) : Job → Bool
  | .send stage | .linkSend stage | .relay _ _ (.sending stage) => c.network.sendReady now stage
  | .take stage => c.network.takeReady now t stage
  | .reply stage => stage.wake ≤ now
  | .work _ _ stage => c.network.workReady now t stage
  | .consult d call | .relay d _ (.connecting call _) | .relay d _ (.repairing call _) =>
    c.proxyCallReady now d call

/-- Whether a task can go on. -/
def isReady (now : Nat) (t : TaskId) (c : Cluster σ) : Bool :=
  match c.tasks[t]? with
  | some (.running job) => c.jobReady now t job
  | _ => false

/-- When a job wakes by itself. -/
def jobAlarm? (c : Cluster σ) : Job → Option Nat
  | .send stage | .linkSend stage | .relay _ _ (.sending stage) => c.network.sendAlarm? stage
  | .take stage => stage.alarm?
  | .reply stage => some stage.wake
  | .work _ _ stage => stage.alarm?
  | .consult d call | .relay d _ (.connecting call _) | .relay d _ (.repairing call _) =>
    (c.proxyStage? d call).bind ProxyStage.alarm?

/-- When a task wakes by itself. -/
def taskAlarm? (c : Cluster σ) : TaskState → Option Nat
  | .running job => c.jobAlarm? job
  | _ => none

def schedule : Schedule (Cluster σ) where
  size c := c.tasks.length
  isReady now t c := c.isReady now t
  turn now t c := c.turn service now t
  alarm? c := (c.tasks.filterMap c.taskAlarm?).min?
  effort c := 16 * (c.tasks.length + 1) + c.network.backlog

end Cluster

end Replica
