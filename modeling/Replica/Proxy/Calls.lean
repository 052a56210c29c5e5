import Replica.Proxy.Map

/-!
# What calls on a proxy map do

A proxy map makes the peer's proxy on first use through a factory, and closes it on a reset or when
the whole map is closed.

A call stops where it has to wait: for the create lock of an entry, for the factory, or for a proxy
to close. What a call does in one turn, from one stop to the next, is one function here, so every
order in which calls can take turns is an order of applying these functions.

* A look-up takes the cached proxy, or goes for the lock and, once it holds it, asks the factory.
* A reset swaps in a fresh entry at once and then retires the old one: it waits for the old entry's
  lock, empties the slot, and closes the proxy outside of the lock.
* A close bars further look-ups and retires every registered entry, all at the same time.

A call that is cancelled stays where it is and gives up its place at the lock; nothing else is
undone.
-/

namespace Replica

namespace ProxyMap

/-! ### Looking up -/

/-- A look-up that holds the lock of entry `e`: it takes the proxy that somebody else has made in
the meantime, or asks the factory and waits for it. -/
def create (now : Nat) (factory : Factory) (t : TaskId) (e : EntryId) (m : ProxyMap) : ProxyMap :=
  match m.entries[e]? with
  | none => m
  | some entry =>
    let ended (answer : Except PeerError Handle) :=
      (m.modifyEntry e .unlock).finish now t (.proxy answer)
    match entry.slot with
    | some h => ended (.ok h)
    | none =>
      if entry.lifecycle.state.isClosingOrClosed then
        let owner := m.name ++ ": proxy for " ++ entry.peer.display
        ended (.error (.alreadyClosed owner entry.lifecycle.state))
      else
        match entry.prepare with
        | .error err => ended (.error err)
        | .ok entry =>
          let creation : Creation :=
            { peer := entry.peer, entry := e, script := factory m.creations entry.peer,
              calledAt := now }
          { m with entries := m.entries.set e entry, creations := m.creations ++ [creation] }
            |>.setStage t (.creating e m.creations.length (now + creation.script.delay))

/-- A look-up whose factory call has come to its end. -/
def conclude (now : Nat) (t : TaskId) (e : EntryId) (h : Handle) (m : ProxyMap) : ProxyMap :=
  match m.entries[e]?, m.creations[h]? with
  | some entry, some creation =>
    match creation.script.failure with
    | none =>
      let (entry, answer) := entry.install h
      { m with entries := m.entries.set e entry.unlock }
        |>.modifyCreation h (fun c => { c with outcome := some .created })
        |>.finish now t (.proxy answer)
    | some err =>
      { m with entries := m.entries.set e entry.giveUp.unlock }
        |>.modifyCreation h (fun c => { c with outcome := some .failed })
        |>.finish now t (.proxy (.error err))
  | _, _ => m

/-- The first turn of a look-up, up to the lock. -/
def beginLookUp (now : Nat) (factory : Factory) (t : TaskId) (id : PeerId) (m : ProxyMap) :
    ProxyMap :=
  if m.closed then m.finish now t (.proxy (.error (.alreadyClosed m.name .closed)))
  else
    match m.registry.get? id with
    | none => m.finish now t (.proxy (.error (.notFound m.name id m.ids)))
    | some e =>
      match m.entries[e]?.bind (·.slot) with
      | some h => m.finish now t (.proxy (.ok h))
      | none =>
        let m := (m.modifyEntry e (.lock t)).setStage t (.locking e)
        if m.owns e t then m.create now factory t e else m

/-! ### Retiring entries -/

/-- A retirement that holds the lock of entry `e`: it closes the entry, gives up the lock, and asks
the proxy to close. -/
def retire (now : Nat) (e : EntryId) (m : ProxyMap) : ProxyMap × Retirement :=
  match m.entries[e]? with
  | none => (m, .finished e)
  | some entry =>
    let (entry, taken) := entry.retire
    let m := { m with entries := m.entries.set e entry.unlock }
    match taken with
    | none => (m, .finished e)
    | some h =>
      let delay := (m.creations[h]?.map (·.script.closeDelay)).getD 0
      (m.modifyCreation h fun c => { c with closeCalls := c.closeCalls ++ [now] },
        .closing e h (now + delay))

/-- What is reported of a proxy that failed to close. -/
def closeFailure (m : ProxyMap) (peer : Peer) (e : PeerError) : Diagnostic :=
  { severity := .warning, message := "Failed to close proxy"
    details := [("name", m.name), ("peer", peer.display), ("error", e.message)] }

/-- The proxy has closed; a failure is reported and otherwise ignored. -/
def concludeClose (now : Nat) (h : Handle) (m : ProxyMap) : ProxyMap :=
  let failures := match m.creations[h]? with
    | some c => (c.script.closeFailure.map (m.closeFailure c.peer)).toList
    | none => []
  { m.modifyCreation h fun c => { c with closedAt := some now } with log := m.log ++ failures }

/-- The turn of one retirement. -/
def turnRetirement (now : Nat) (t : TaskId) (job : Retirement) (m : ProxyMap) :
    ProxyMap × Retirement :=
  match job with
  | .locking e => if m.owns e t then m.retire now e else (m, job)
  | .closing e h wake => if wake ≤ now then (m.concludeClose now h, .finished e) else (m, job)
  | .finished _ => (m, job)

/-- The turns of several retirements, in order. -/
def turnRetirements (now : Nat) (t : TaskId) :
    List Retirement → ProxyMap → ProxyMap × List Retirement
  | [], m => (m, [])
  | job :: rest, m =>
    let (m, job) := m.turnRetirement now t job
    let (m, rest) := m.turnRetirements now t rest
    (m, job :: rest)

/-- Goes on with the retirements of a task, which ends once they are all over. -/
def continueRetiring (now : Nat) (t : TaskId) (jobs : List Retirement) (answer : ProxyAnswer)
    (m : ProxyMap) : ProxyMap :=
  let (m, jobs) := m.turnRetirements now t jobs
  if jobs.all Retirement.isFinished then m.finish now t answer
  else m.setStage t (.retiring jobs answer)

/-- Goes for the locks of entries, one after the other, and retires those that are free. -/
def beginRetiring (now : Nat) (t : TaskId) (targets : List EntryId) (answer : ProxyAnswer)
    (m : ProxyMap) : ProxyMap :=
  let m := targets.foldl (fun m e => m.modifyEntry e (.lock t)) m
  m.continueRetiring now t (targets.map .locking) answer

/-- Swaps in a fresh entry for the peer. Answers with the old one; there is none if the peer is not
registered or the map is closed, and then nothing changes. -/
def renew (id : PeerId) (m : ProxyMap) : ProxyMap × Option EntryId :=
  match m.registry.get? id with
  | none => (m, none)
  | some e =>
    if m.closed then (m, none)
    else
      match m.entries[e]? with
      | none => (m, none)
      | some old =>
        ({ m with
            registry := m.registry.set id m.entries.length
            entries := m.entries ++ [.fresh old.peer] }, some e)

/-- The first turn of a reset. -/
def beginReset (now : Nat) (t : TaskId) (id : PeerId) (answer : ProxyAnswer) (m : ProxyMap) :
    ProxyMap :=
  let (m, old) := m.renew id
  m.beginRetiring now t old.toList answer

/-! ### Calls -/

/-- Begins a call, which has its first turn. -/
def begin (now : Nat) (factory : Factory) (call : ProxyCall) (m : ProxyMap) : ProxyMap :=
  let t := m.tasks.length
  let task : ProxyTask := ⟨call, .retiring [] .done⟩
  let m := { m with tasks := m.tasks ++ [task] }
  match call with
  | .lookUp id => m.beginLookUp now factory t id
  | .reset id => m.beginReset now t id .done
  | .repair id error reconnect =>
    if reconnect || error.shouldReconnect then m.beginReset now t id (.repaired true)
    else m.finish now t (.repaired false)
  | .close =>
    if m.closed then m.finish now t .done
    else { m with closed := true }.beginRetiring now t m.registry.values .done

def turn (now : Nat) (factory : Factory) (t : TaskId) (m : ProxyMap) : ProxyMap :=
  match m.stage? t with
  | some (.locking e) => if m.owns e t then m.create now factory t e else m
  | some (.creating e h wake) => if wake ≤ now then m.conclude now t e h else m
  | some (.retiring jobs answer) => m.continueRetiring now t jobs answer
  | _ => m

/-- Gives up what one retirement waits for. -/
def abandonRetirement (t : TaskId) (m : ProxyMap) : Retirement → ProxyMap
  | .locking e => m.modifyEntry e (.leave t)
  | _ => m

/-- Cancels a call where it stands, unless it has ended. Answers whether it was under way. -/
def cancel (t : TaskId) (m : ProxyMap) : ProxyMap × Bool :=
  match m.stage? t with
  | some (.locking e) => ((m.modifyEntry e (.leave t)).setStage t .cancelled, true)
  | some (.creating e _ _) => ((m.modifyEntry e (.leave t)).setStage t .cancelled, true)
  | some (.retiring jobs _) => ((jobs.foldl (abandonRetirement t) m).setStage t .cancelled, true)
  | _ => (m, false)

/-! ### Scheduling -/

/-- Whether a retirement can go on. -/
def retirementReady (now : Nat) (t : TaskId) (m : ProxyMap) : Retirement → Bool
  | .locking e => m.owns e t
  | .closing _ _ wake => wake ≤ now
  | .finished _ => false

def isReady (now : Nat) (t : TaskId) (m : ProxyMap) : Bool :=
  match m.stage? t with
  | some (.locking e) => m.owns e t
  | some (.creating _ _ wake) => wake ≤ now
  | some (.retiring jobs _) => jobs.any (m.retirementReady now t)
  | _ => false

/-- The turns that calls can still take. -/
def effort (m : ProxyMap) : Nat := m.tasks.foldr (fun task turns => task.stage.effort + turns) 0

def schedule (factory : Factory) : Schedule ProxyMap where
  size m := m.tasks.length
  isReady now t m := m.isReady now t
  turn now t m := m.turn now factory t
  alarm? m := (m.tasks.filterMap (·.stage.alarm?)).min?
  effort m := m.effort

end ProxyMap

end Replica
