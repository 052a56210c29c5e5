import Replica.Proofs.Cluster.DeadLinks
import Replica.Proofs.Cluster.Senders

/-!
# What repairs come to

A relay whose request ends in an error of peer bookkeeping has its link repaired. The repair resets the link
if the error says that the connection is of no more use, and leaves it alone otherwise; nothing that happens
in the meantime changes what it answers (`KeepsTo.step`). So a relay that has ended says of its link exactly
what the error that it heard asks for (`repairsAsHeard_reached`).
-/

namespace Replica

/-- Whether a repair resets the link; there is none unless the request ends in an error of peer
bookkeeping. -/
def repairOf : Outcome → Option Bool
  | .error (.core e) => some e.shouldReconnect
  | _ => none

/-! ## Repairs on the map -/

namespace ProxyMap

variable {m : ProxyMap} {t : TaskId} {a : ProxyAnswer} {now : Nat} {factory : Factory}

theorem begin_promises (id : PeerId) (e : PeerError) (reconnect : Bool) :
    (m.begin now factory (.repair id e reconnect)).Promises m.tasks.length
      (.repaired (reconnect || e.shouldReconnect)) := by
  have hstage : (m.enter (.repair id e reconnect)).stage? m.tasks.length = some (.retiring [] .done) :=
    stage?_eq_some_iff.mpr ⟨_, tasks_enter _⟩
  unfold begin
  dsimp only
  split
  · next h =>
    rw [h]
    exact promises_beginRetiring (stage?_renew.trans hstage)
  · next h =>
    rw [Bool.eq_false_iff.mpr h]
    exact .inr ⟨now, stage?_setStage_self hstage⟩

/-- If the call is answered, then so. -/
def KeepsTo (t : TaskId) (a : ProxyAnswer) (m : ProxyMap) : Prop :=
  m.Promises t a ∨ m.stage? t = some .cancelled

theorem KeepsTo.step (h : m.KeepsTo t a) (hm : m.Consistent) (event : Event) :
    (m.step event).KeepsTo t a := by
  have hsame {m' : ProxyMap} (heq : m'.stage? t = m.stage? t) : m'.KeepsTo t a := by
    unfold KeepsTo Promises
    rw [heq]
    exact h
  by_cases hactor : t = event.actor m
  · cases event with
    | register peer => exact hsame (stage?_register peer)
    | begin now factory call =>
      -- a call that begins is new
      cases hactor
      rcases h with (⟨jobs, hs⟩ | ⟨time, hs⟩) | hs <;> cases stage?_length.symm.trans hs
    | turn now factory u =>
      obtain rfl : t = u := hactor
      rcases h with (⟨jobs, hs⟩ | ⟨time, hs⟩) | hs
      · have hturn : m.turn now factory t = m.continueRetiring now t jobs a := by simp only [turn, hs]
        rw [ProxyMap.step, hturn]
        exact .inl (promises_continueRetiring hs)
      · apply hsame
        simp only [ProxyMap.step, turn, hs]
      · apply hsame
        simp only [ProxyMap.step, turn, hs]
    | cancel u =>
      obtain rfl : t = u := hactor
      exact cancel_cases.elim hsame .inr
  · exact hsame (stage?_step_of_ne hm hactor)

theorem KeepsTo.run (h : m.KeepsTo t a) (hm : m.Consistent) (events : List Event) :
    (m.run events).KeepsTo t a := by
  induction events generalizing m with
  | nil => exact h
  | cons event events ih => exact ih (h.step hm event) (hm.step event)

theorem KeepsTo.answer {time : Nat} {b : ProxyAnswer} (h : m.KeepsTo t a)
    (hended : m.ended? t = some (time, b)) : b = a := by
  unfold ended? at hended
  rcases h with (⟨jobs, hs⟩ | ⟨now, hs⟩) | hs <;> rw [hs] at hended <;> cases hended
  rfl

end ProxyMap

namespace Cluster

variable {σ : Type} (service : Service σ) {c c' : Cluster σ} {now : Nat} {t k : TaskId} {event : Event σ}
variable {d : DirectoryId} {via : PeerId} {state : TaskState} {dealt : List ProxyMap.Event} {e : PeerError}

/-! ## Relays -/

/-- What a relay has heard of its request decides what becomes of its link. -/
def RepairsAsHeard (c : Cluster σ) : TaskState → Prop
  | .running (.relay d _ (.sending _)) => (c.office? d).isSome
  | .running (.relay d _ (.repairing k sent)) =>
    ∃ reset, repairOf sent = some reset ∧
      ∃ home m, c.office? d = some (home, m) ∧ m.KeepsTo k (.repaired reset)
  | .finished _ (.relayed sent reset) => reset = repairOf sent
  | _ => True

theorem RepairsAsHeard.congr (h : c.RepairsAsHeard state) (hsame : c'.directories = c.directories) :
    c'.RepairsAsHeard state := by
  unfold RepairsAsHeard office? at h ⊢
  rwa [hsame]

/-- Maps go through events of theirs, and none goes away. -/
theorem RepairsAsHeard.deals (h : c.RepairsAsHeard state) (hs : c.MapsConsistent)
    (hdeals : ∀ d office, c.office? d = some office → ∃ dealt, Deals d dealt c c') :
    c'.RepairsAsHeard state := by
  have hoffice {d : DirectoryId} {home : PeerId} {m : ProxyMap} (hm : c.office? d = some (home, m)) :
      ∃ dealt, c'.office? d = some (home, m.run dealt) := by
    obtain ⟨dealt, hdealt⟩ := hdeals d _ hm
    rw [Deals, hm] at hdealt
    exact ⟨dealt, hdealt⟩
  cases state with
  | running job =>
    cases job with
    | relay d via stage =>
      cases stage with
      | connecting k r => trivial
      | sending stage =>
        obtain ⟨⟨home, m⟩, hm⟩ := Option.isSome_iff_exists.mp h
        obtain ⟨dealt, hdealt⟩ := hoffice hm
        exact Option.isSome_iff_exists.mpr ⟨_, hdealt⟩
      | repairing k sent =>
        obtain ⟨reset, hreset, home, m, hm, hkeeps⟩ := h
        obtain ⟨dealt, hdealt⟩ := hoffice hm
        exact ⟨reset, hreset, home, _, hdealt, hkeeps.run (hs d home m hm) dealt⟩
    | _ => trivial
  | finished time answer => cases answer <;> exact h
  | cancelled => trivial

theorem waitForRepair_repairsAsHeard (now : Nat) {sent : Outcome} {reset : Bool} {home : PeerId} {m : ProxyMap}
    (hreset : repairOf sent = some reset) (hoffice : c.office? d = some (home, m))
    (hkeeps : m.KeepsTo k (.repaired reset)) :
    (c.waitForRepair d via k sent).1.RepairsAsHeard (.ofProgress now (c.waitForRepair d via k sent).2) := by
  unfold waitForRepair
  split
  · next reset' hanswer =>
    obtain ⟨⟨time, b⟩, hended, rfl⟩ := Option.map_eq_some_iff.mp hanswer
    obtain ⟨dir, found, hended⟩ := Option.bind_eq_some_iff.mp hended
    cases hoffice.symm.trans (office?_of_directory found)
    cases hkeeps.answer hended
    exact hreset.symm
  · exact ⟨reset, hreset, home, m, hoffice, hkeeps⟩

/-- A call that begins on a map that is there. -/
theorem beginProxyCall_office? {dir : Directory} (found : c.directories[d]? = some dir) (now : Nat)
    (call : ProxyCall) :
    (c.beginProxyCall now d call).2 = dir.map.tasks.length ∧
      (c.beginProxyCall now d call).1.office? d =
        some (dir.home, dir.map.begin now c.network.factory call) := by
  have hdeals := (modifyMap_deals d (.begin now c.network.factory call) c).own
  rw [Deals, office?_of_directory found] at hdeals
  refine ⟨?_, hdeals⟩
  rw [beginProxyCall, found]
  rfl

theorem afterRelay_repairsAsHeard (now : Nat) {result : Network × Network.SendProgress}
    (hoffice : (c.office? d).isSome) :
    (c.afterRelay now d via result).1.RepairsAsHeard (.ofProgress now (c.afterRelay now d via result).2) := by
  obtain ⟨net, progress⟩ := result
  cases progress with
  | waiting stage => exact hoffice
  | ended sent =>
    cases sent with
    | ok reply => rfl
    | error e =>
      cases e with
      | core e =>
        obtain ⟨office, hoffice⟩ := Option.isSome_iff_exists.mp hoffice
        obtain ⟨dir, found, -⟩ := Option.map_eq_some_iff.mp hoffice
        have hfound : ({ c with network := net } : Cluster σ).directories[d]? = some dir := found
        obtain ⟨hcall, hbegun⟩ := beginProxyCall_office? hfound now (.repair via e false)
        have hpromises : (dir.map.begin now net.factory (.repair via e false)).Promises _ _ :=
          ProxyMap.begin_promises via e false
        rw [Bool.false_or, ← hcall] at hpromises
        exact waitForRepair_repairsAsHeard now rfl hbegun (.inl hpromises)
      | _ => rfl

theorem waitForLink_repairsAsHeard (now : Nat) (k : TaskId) (r : Request) :
    (c.waitForLink now d via k r).1.RepairsAsHeard (.ofProgress now (c.waitForLink now d via k r).2) := by
  unfold waitForLink
  dsimp only
  split
  · trivial
  · split
    · next h _ l hl =>
      apply afterRelay_repairsAsHeard
      obtain ⟨dir, found, -⟩ := Option.bind_eq_some_iff.mp hl
      exact Option.isSome_iff_exists.mpr ⟨_, office?_of_directory found⟩
    · trivial
  · trivial

/-- A task that is no relay's. -/
theorem repairsAsHeard_map {τ α : Type} {stage : τ → Job} {answer : α → Answer} (progress : Progress τ α)
    (hstage : ∀ s, c.RepairsAsHeard (.running (stage s)))
    (hanswer : ∀ a, c.RepairsAsHeard (.finished now (answer a))) :
    c.RepairsAsHeard (.ofProgress now (progress.map stage answer)) := by
  cases progress with
  | waiting s => exact hstage s
  | ended a => exact hanswer a

theorem waitForProxyCall_repairsAsHeard (now : Nat) (d : DirectoryId) (k : TaskId) (c : Cluster σ) :
    (c.waitForProxyCall d k).1.RepairsAsHeard (.ofProgress now (c.waitForProxyCall d k).2) := by
  unfold waitForProxyCall
  split <;> trivial

theorem work_repairsAsHeard (c' : Cluster σ) (now : Nat) (t : TaskId) (s : ServerId) (place : Nat)
    (stage : Working) (c : Cluster σ) :
    c'.RepairsAsHeard (.ofProgress now (c.work service now t s place stage).2) := by
  unfold work
  split
  · trivial
  · exact repairsAsHeard_map _ (fun _ => trivial) fun _ => trivial

theorem undertake_repairsAsHeard (now : Nat) (t : TaskId) (call : Call) (c : Cluster σ) :
    (c.undertake service now t call).1.RepairsAsHeard (.ofProgress now (c.undertake service now t call).2) := by
  cases call with
  | work s place => exact work_repairsAsHeard service _ now t s place .idle c
  | consult d call => exact waitForProxyCall_repairsAsHeard now d _ _
  | relay d via r => exact waitForLink_repairsAsHeard now _ _
  | _ => exact repairsAsHeard_map _ (fun _ => trivial) fun _ => trivial

theorem resume_repairsAsHeard (now : Nat) (t : TaskId) (job : Job) (hs : c.MapsConsistent)
    (h : c.RepairsAsHeard (.running job)) :
    (c.resume service now t job).1.RepairsAsHeard (.ofProgress now (c.resume service now t job).2) := by
  cases job with
  | work s place stage => exact work_repairsAsHeard service _ now t s place stage c
  | consult d k => exact waitForProxyCall_repairsAsHeard now d _ _
  | relay d via stage =>
    cases stage with
    | connecting k r => exact waitForLink_repairsAsHeard now k r
    | sending stage => exact afterRelay_repairsAsHeard now h
    | repairing k sent =>
      obtain ⟨reset, hreset, home, m, hm, hkeeps⟩ := h
      have hturned : (c.turnProxyCall now d k).office? d =
          some (home, m.step (.turn now c.network.factory k)) := by
        have hdeals := (modifyMap_deals d (.turn now c.network.factory k) c).own
        rw [Deals, hm] at hdeals
        exact hdeals
      exact waitForRepair_repairsAsHeard now hreset hturned (hkeeps.step (hs d home m hm) _)
  | _ => exact repairsAsHeard_map _ (fun _ => trivial) fun _ => trivial

/-! ## Runs -/

variable {settings : Settings} {dice : Nat → UInt64} {events : List (Event σ)}

theorem RepairsAsHeard.divert (h : c.RepairsAsHeard state) (owner : TaskId) (other : PeerId) :
    c.RepairsAsHeard (state.divert owner other) := by
  cases state with
  | running job =>
    cases job with
    | relay d via stage => cases stage <;> exact h
    | _ => trivial
  | _ => exact h

theorem step_repairsAsHeard (hs : c.MapsConsistent)
    (h : ∀ (t : TaskId) (state : TaskState), c.tasks[t]? = some state → c.RepairsAsHeard state)
    (found : (c.step service event).tasks[t]? = some state) : (c.step service event).RepairsAsHeard state := by
  have hdeals (d : DirectoryId) (office : PeerId × ProxyMap) (hoffice : c.office? d = some office) :
      ∃ dealt, Deals d dealt c (c.step service event) :=
    ⟨_, step_deals service d c event (.inl (lt_length_of_office? hoffice))⟩
  cases hbefore : c.tasks[t]? with
  | some before =>
    obtain ⟨after, hafter, htaskChange⟩ := step_taskChange service hbefore event
    cases hafter.symm.trans found
    have hasHeard := (h t before hbefore).deals hs hdeals
    cases htaskChange with
    | same event state => exact hasHeard
    | diverted owner other state => exact hasHeard.divert owner other
    | turned now job hnetwork =>
      have hturn : (c.step service (.turn now t)).directories =
          (c.resume service now t job).1.directories := by
        rw [Cluster.step, Cluster.turn, hbefore]
      exact (resume_repairsAsHeard service now t job hs (h t _ hbefore)).congr hturn
    | cancelled event job => trivial
  | none =>
    cases step_taskBegins service hbefore found with
    | called now call ht => exact (undertake_repairsAsHeard service now t call c).congr (ht ▸ rfl)
    | hired event c' now s place => exact work_repairsAsHeard service _ now t s place .idle c'

theorem repairsAsHeard_reached (found : (reached service settings dice events).tasks[t]? = some state) :
    (reached service settings dice events).RepairsAsHeard state := by
  induction events using List.reverseRecOn generalizing t state with
  | nil => cases found
  | append_singleton events event ih =>
    rw [reached_concat] at found ⊢
    exact step_repairsAsHeard service (mapsConsistent_reached service) (fun t state => ih) found

end Cluster

end Replica
