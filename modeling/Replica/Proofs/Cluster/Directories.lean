import Mathlib.Data.List.Induction
import Replica.Proofs.Cluster.Events
import Replica.Proofs.Proxy.Events

/-!
# Directories of a cluster

Tasks call on the maps of directories, and nobody else changes these maps. So what an event of the cluster
is to a map is a sequence of events of the map (`dealingsOn`): a task that consults the directory begins a
call or gives it a turn, a relay may do both and have the link repaired in the same turn, and a task that is
cancelled cancels its call. Along a run of the cluster this makes a run of the map (`dealings`), from the
peers that the directory was made with on (`office?_reached`).
-/

namespace Replica

/-- The directory that the call is on, if it is on one. -/
def Call.directory? : Call → Option DirectoryId
  | .consult d _ | .relay d _ _ => some d
  | _ => none

/-- The directory that the job is on, if it is on one. -/
def Job.directory? : Job → Option DirectoryId
  | .consult d _ | .relay d _ _ => some d
  | _ => none

/-- A creation is for the same peer at all times, that of its entry. -/
theorem ProxyMap.Consistent.creation_peer {m m' : ProxyMap} (hm : m.Consistent) (hm' : m'.Consistent)
    (hgrows : Grows m m') {k : Handle} {creation : Creation} (h : m.creations[k]? = some creation) :
    ∃ creation', m'.creations[k]? = some creation' ∧ creation'.peer = creation.peer := by
  obtain ⟨creation', h', hentry, -⟩ := hgrows.creations k creation h
  obtain ⟨entry, found⟩ := hm.exists_entry_of_made h
  obtain ⟨entry', found', hpeer, -⟩ := hgrows.entries _ entry found
  refine ⟨creation', h', ?_⟩
  have hbefore := (hm.fits _ entry found).peer k creation (around_made_eq_some_iff.mpr ⟨h, rfl⟩)
  have hafter := (hm'.fits _ entry' found').peer k creation' (around_made_eq_some_iff.mpr ⟨h', hentry⟩)
  rw [hafter, hpeer, hbefore]

namespace Cluster

variable {σ : Type} (service : Service σ)

/-! ## What tasks do to maps -/

/-- The call with which a relay has its link repaired, if its request has come to an error of peer
bookkeeping. -/
def repairs (now : Nat) (via : PeerId) (result : Network × Network.SendProgress) :
    List ProxyMap.Event :=
  match result.2 with
  | .ended (.error (.core e)) => [.begin now result.1.factory (.repair via e false)]
  | _ => []

/-- What a relay does to the map when it looks whether it has its link. -/
def dealingsOnLink (now : Nat) (d : DirectoryId) (via : PeerId) (call : TaskId) (r : Request)
    (c : Cluster σ) : List ProxyMap.Event :=
  match c.proxyAnswer? d call with
  | some (.proxy (.ok h)) =>
    match c.link? d h with
    | some l => repairs now via (c.network.beginLinkSend now l (c.isShut l) r)
    | none => []
  | _ => []

/-- What a call of task `t` does to the map of its directory as it begins. -/
def dealingsOnCall (now : Nat) (t : TaskId) (c : Cluster σ) : Call → List ProxyMap.Event
  | .consult _ call => [.begin now c.network.factory call]
  | .relay d via r =>
    let begun := c.beginProxyCall now d (.lookUp via)
    .begin now c.network.factory (.lookUp via) ::
      begun.1.dealingsOnLink now d via begun.2 { r with owner := some t }
  | _ => []

/-- What a job does to the map of its directory in its turn. -/
def dealingsOnJob (now : Nat) (c : Cluster σ) : Job → List ProxyMap.Event
  | .consult _ call | .relay _ _ (.repairing call _) => [.turn now c.network.factory call]
  | .relay d via (.connecting call r) =>
    .turn now c.network.factory call :: (c.turnProxyCall now d call).dealingsOnLink now d via call r
  | .relay _ via (.sending stage) => repairs now via (c.network.turnLinkSend now stage)
  | _ => []

/-- What a job does to the map of its directory when it is cancelled. -/
def dealingsOnAbandon : Job → List ProxyMap.Event
  | .consult _ call | .relay _ _ (.connecting call _) | .relay _ _ (.repairing call _) => [.cancel call]
  | _ => []

def dealingsOnCancel (d : DirectoryId) (t : TaskId) (c : Cluster σ) : List ProxyMap.Event :=
  match c.tasks[t]? with
  | some (.running job) => if job.directory? = some d then dealingsOnAbandon job else []
  | _ => []

/-- What it does to the map when tasks are cancelled one after the other. -/
def dismissals (d : DirectoryId) : List TaskId → Cluster σ → List ProxyMap.Event
  | [], _ => []
  | t :: crew, c => c.dealingsOnCancel d t ++ dismissals d crew (c.cancel t).1

/-- What an event is to the map of a directory that is there. -/
def dealingsOn (d : DirectoryId) (c : Cluster σ) : Event σ → List ProxyMap.Event
  | .begin now call =>
    if call.directory? = some d then c.dealingsOnCall now c.tasks.length call else []
  | .turn now t =>
    match c.tasks[t]? with
    | some (.running job) => if job.directory? = some d then c.dealingsOnJob now job else []
    | _ => []
  | .cancel t => c.dealingsOnCancel d t
  | .dismissWorkers s =>
    match c.servers[s]? with
    | some server => dismissals d server.crew c
    | none => []
  | _ => []

/-- A directory is made with its peers registered. -/
def founding (d : DirectoryId) (c : Cluster σ) : Event σ → List ProxyMap.Event
  | .addDirectory _ _ peers => if d = c.directories.length then peers.map .register else []
  | _ => []

/-- The home of a directory and its map. -/
def office? (d : DirectoryId) (c : Cluster σ) : Option (PeerId × ProxyMap) :=
  c.directories[d]?.map fun dir => (dir.home, dir.map)

/-- What a sequence of events is to the map of a directory. -/
def dealings (d : DirectoryId) : List (Event σ) → Cluster σ → List ProxyMap.Event
  | [], _ => []
  | event :: events, c =>
    (if (c.office? d).isSome then c.dealingsOn d event else c.founding d event) ++
      dealings d events (c.step service event)

/-! ## The map of a directory -/

/-- The office after the map has gone through some events. -/
def afterDealings (events : List ProxyMap.Event) (office : PeerId × ProxyMap) : PeerId × ProxyMap :=
  (office.1, office.2.run events)

theorem map_afterDealings_nil (office : Option (PeerId × ProxyMap)) :
    office.map (afterDealings []) = office := by
  cases office <;> rfl

/-- Two lists of dealings, one after the other, are one. -/
theorem map_afterDealings_append (before after : List ProxyMap.Event)
    (office : Option (PeerId × ProxyMap)) :
    office.map (afterDealings (before ++ after)) =
      (office.map (afterDealings before)).map (afterDealings after) := by
  cases office with
  | none => rfl
  | some office => simp only [Option.map_some, afterDealings, ProxyMap.run_append]

variable {c c' c'' : Cluster σ} {d d' : DirectoryId} {now : Nat} {t : TaskId}
variable {events before after : List ProxyMap.Event}

/-- From one cluster to the other, the map of the directory goes through the events. -/
def Deals (d : DirectoryId) (events : List ProxyMap.Event) (c c' : Cluster σ) : Prop :=
  c'.office? d = (c.office? d).map (afterDealings events)

/-- If the directories are the same, there were no dealings. -/
theorem Deals.of_eq (h : c'.directories = c.directories) : Deals d [] c c' := by
  rw [Deals, map_afterDealings_nil, office?, h, office?]

/-- Dealings in two steps are the dealings of both. -/
theorem Deals.trans (h : Deals d before c c') (h' : Deals d after c' c'') :
    Deals d (before ++ after) c c'' := by
  rw [Deals, h', h, map_afterDealings_append]

/-- From one cluster to the other, the map of the directory goes through the events, and no other directory
is concerned. -/
structure DealsOnly (d : DirectoryId) (events : List ProxyMap.Event) (c c' : Cluster σ) : Prop where
  own : Deals d events c c'
  others : ∀ d', d' ≠ d → Deals d' [] c c'

/-- If the directories are the same, there were no dealings with any of them. -/
theorem DealsOnly.of_eq (h : c'.directories = c.directories) : DealsOnly d [] c c' :=
  ⟨.of_eq h, fun _ _ => .of_eq h⟩

/-- Dealings in two steps with one directory are the dealings of both. -/
theorem DealsOnly.trans (h : DealsOnly d before c c') (h' : DealsOnly d after c' c'') :
    DealsOnly d (before ++ after) c c'' :=
  ⟨h.own.trans h'.own, fun d' hne => (h.others d' hne).trans (h'.others d' hne)⟩

/-- An event of one map. -/
theorem modifyMap_deals (d : DirectoryId) (event : ProxyMap.Event) (c : Cluster σ) :
    DealsOnly d [event] c (c.modifyMap d (·.step event)) := by
  have hoffice (k : DirectoryId) : (c.modifyMap d (·.step event)).office? k =
      if d = k then (c.office? k).map (afterDealings [event]) else c.office? k := by
    unfold office? modifyMap
    dsimp only
    rw [List.getElem?_modify]
    cases c.directories[k]? with
    | none => simp
    | some dir => by_cases hk : d = k <;> simp [hk, afterDealings, ProxyMap.run]
  refine ⟨(hoffice d).trans (if_pos rfl), fun d' hne => ?_⟩
  rw [Deals, map_afterDealings_nil, hoffice, if_neg hne.symm]

/-- A dealing comes before those that follow it. -/
theorem DealsOnly.cons {event : ProxyMap.Event} (h : DealsOnly d events (c.modifyMap d (·.step event)) c') :
    DealsOnly d (event :: events) c c' :=
  (modifyMap_deals d event c).trans h

/-- Dealings with one directory are no dealings with any other. -/
theorem DealsOnly.on (h : DealsOnly d events c c') {chosen : Option DirectoryId} (hd : chosen = some d)
    (d' : DirectoryId) : Deals d' (if chosen = some d' then events else []) c c' := by
  subst hd
  by_cases hd' : d = d'
  · subst hd'
    exact (if_pos (c := some d = some d) rfl).symm ▸ h.own
  · rw [if_neg fun heq => hd' (Option.some.inj heq)]
    exact h.others d' (Ne.symm hd')

/-! ## Turns -/

/-- Waiting for a call on a map is no dealing with it. -/
theorem waitForProxyCall_deals (call : TaskId) : DealsOnly d [] c (c.waitForProxyCall d call).1 := by
  unfold waitForProxyCall
  split <;> exact .of_eq rfl

/-- Nor is waiting for a repair. -/
theorem waitForRepair_deals (via : PeerId) (call : TaskId) (sent : Outcome) :
    DealsOnly d [] c (c.waitForRepair d via call sent).1 := by
  unfold waitForRepair
  split <;> exact .of_eq rfl

/-- A relay that has heard of its request deals with its directory if it has the link repaired. -/
theorem afterRelay_deals (via : PeerId) (result : Network × Network.SendProgress) :
    DealsOnly d (repairs now via result) c (c.afterRelay now d via result).1 := by
  obtain ⟨net, progress⟩ := result
  have hnetwork : DealsOnly d [] c { c with network := net } := .of_eq rfl
  cases progress with
  | waiting stage => exact hnetwork
  | ended outcome =>
    cases outcome with
    | ok reply => exact hnetwork
    | error e =>
      cases e with
      | core e => exact hnetwork.trans (.cons (waitForRepair_deals via _ _))
      | _ => exact hnetwork

/-- A relay that waits for its link deals with its directory as far as it has the link repaired. -/
theorem waitForLink_deals (via : PeerId) (call : TaskId) (r : Request) :
    DealsOnly d (c.dealingsOnLink now d via call r) c (c.waitForLink now d via call r).1 := by
  unfold waitForLink dealingsOnLink
  cases c.proxyAnswer? d call with
  | none => exact .of_eq rfl
  | some answer =>
    match answer with
    | .done | .repaired _ | .proxy (.error _) => exact .of_eq rfl
    | .proxy (.ok h) =>
      dsimp only
      cases c.link? d h with
      | some l => exact afterRelay_deals via _
      | none => exact .of_eq rfl

/-- Workers have nothing to do with directories. -/
theorem work_directories (now : Nat) (t : TaskId) (s : ServerId) (place : Nat) (stage : Working)
    (c : Cluster σ) : (c.work service now t s place stage).1.directories = c.directories := by
  unfold work
  split <;> rfl

/-- A call that begins is no business of any other directory's than its own. -/
theorem undertake_deals (now : Nat) (t : TaskId) (call : Call) (c : Cluster σ) (d : DirectoryId) :
    Deals d (if call.directory? = some d then c.dealingsOnCall now t call else []) c
      (c.undertake service now t call).1 := by
  cases call with
  | send r => exact .of_eq rfl
  | take id => exact .of_eq rfl
  | reply r outcome => exact .of_eq rfl
  | work s place => exact .of_eq (work_directories service now t s place .idle c)
  | linkSend l r => exact .of_eq rfl
  | consult d' call => exact DealsOnly.on (.cons (waitForProxyCall_deals _)) rfl d
  | relay d' via r => exact DealsOnly.on (.cons (waitForLink_deals via _ _)) rfl d

/-- A job that goes on deals with its own directory only. -/
theorem resume_deals (now : Nat) (t : TaskId) (job : Job) (c : Cluster σ) (d : DirectoryId) :
    Deals d (if job.directory? = some d then c.dealingsOnJob now job else []) c
      (c.resume service now t job).1 := by
  cases job with
  | send stage => exact .of_eq rfl
  | take stage => exact .of_eq rfl
  | reply stage => exact .of_eq rfl
  | work s place stage => exact .of_eq (work_directories service now t s place stage c)
  | linkSend stage => exact .of_eq rfl
  | consult d' call => exact DealsOnly.on (.cons (waitForProxyCall_deals call)) rfl d
  | relay d' via stage =>
    cases stage with
    | connecting call r => exact DealsOnly.on (.cons (waitForLink_deals via call r)) rfl d
    | sending stage => exact DealsOnly.on (afterRelay_deals via _) rfl d
    | repairing call sent => exact DealsOnly.on (.cons (waitForRepair_deals via call sent)) rfl d

/-- A job that is abandoned cancels its call on the map of its own directory. -/
theorem abandon_deals (t : TaskId) (job : Job) (c : Cluster σ) (d : DirectoryId) :
    Deals d (if job.directory? = some d then dealingsOnAbandon job else []) c (c.abandon t job) := by
  have hcancel (d' : DirectoryId) (call : TaskId) :
      DealsOnly d' [.cancel call] c (c.modifyMap d' fun map => (map.cancel call).1) :=
    modifyMap_deals d' (.cancel call) c
  cases job with
  | send stage => exact .of_eq rfl
  | take stage => exact .of_eq rfl
  | reply stage => exact .of_eq rfl
  | work s place stage => exact .of_eq rfl
  | linkSend stage => exact .of_eq rfl
  | consult d' call => exact (hcancel d' call).on rfl d
  | relay d' via stage =>
    cases stage with
    | connecting call r => exact (hcancel d' call).on rfl d
    | sending stage => exact DealsOnly.on (d := d') (.of_eq rfl) rfl d
    | repairing call sent => exact (hcancel d' call).on rfl d

/-! ## Events -/

/-- A task that is cancelled deals with a directory as its job does. -/
theorem cancel_deals (d : DirectoryId) (t : TaskId) (c : Cluster σ) :
    Deals d (c.dealingsOnCancel d t) c (c.cancel t).1 := by
  cases found : c.tasks[t]? with
  | none =>
    rw [dealingsOnCancel, Cluster.cancel, found]
    exact .of_eq rfl
  | some state =>
    rw [dealingsOnCancel, Cluster.cancel, found]
    cases state with
    | running job => exact abandon_deals t job c d
    | finished time answer => exact .of_eq rfl
    | cancelled => exact .of_eq rfl

/-- Tasks that are cancelled one after the other deal one after the other. -/
theorem dismissals_deals (d : DirectoryId) (crew : List TaskId) (c : Cluster σ) :
    Deals d (dismissals d crew c) c (crew.foldl (fun (c : Cluster σ) t => (c.cancel t).1) c) := by
  induction crew generalizing c with
  | nil => exact .of_eq rfl
  | cons t crew ih => exact (cancel_deals d t c).trans (ih (c.cancel t).1)

/-- Starting workers is no dealing. -/
theorem startWorkers_deals (d : DirectoryId) (now : Nat) (s : ServerId) (c : Cluster σ) :
    Deals d [] c (c.startWorkers service now s) := by
  refine startWorkers_induct (P := Deals d [] c) service (.of_eq rfl) fun place c' hc' => ?_
  have hbegin : Deals d [] c' (c'.begin service now (.work s place)) :=
    undertake_deals service now c'.tasks.length (.work s place) c' d
  exact hc'.trans hbegin

/-- What an event is to the map of a directory. -/
theorem step_deals (d : DirectoryId) (c : Cluster σ) (event : Event σ)
    (hfounded : d < c.directories.length ∨ ∀ home name peers, event ≠ .addDirectory home name peers) :
    Deals d (c.dealingsOn d event) c (c.step service event) := by
  cases event with
  | startWorkers now s => exact startWorkers_deals service d now s c
  | dismissWorkers s =>
    show Deals d _ c (c.dismissWorkers s)
    dsimp only [dealingsOn, dismissWorkers]
    cases c.servers[s]? with
    | some server => exact dismissals_deals d server.crew c
    | none => exact .of_eq rfl
  | retire now s => exact shutdown_induct (P := Deals d [] c) (.of_eq rfl) fun _ _ => .of_eq rfl
  | addDirectory home name peers =>
    rcases hfounded with hlt | hother
    · show Deals d [] c (c.addDirectory home name peers)
      rw [Deals, map_afterDealings_nil, office?, office?]
      exact congrArg _ (List.getElem?_append_left hlt)
    · exact absurd rfl (hother home name peers)
  | shutLink l =>
    show Deals d [] c (c.shutLink l)
    rw [Deals, map_afterDealings_nil, office?, office?, shutLink]
    dsimp only
    rw [List.getElem?_modify]
    cases c.directories[d]? with
    | none => rfl
    | some dir => by_cases hd : l.directory = d <;> simp [hd, Directory.shutLink]
  | begin now call => exact undertake_deals service now c.tasks.length call c d
  | turn now t =>
    show Deals d _ c (c.turn service now t)
    dsimp only [dealingsOn, Cluster.turn]
    cases c.tasks[t]? with
    | none => exact .of_eq rfl
    | some state =>
      cases state with
      | running job => exact resume_deals service now t job c d
      | finished time answer => exact .of_eq rfl
      | cancelled => exact .of_eq rfl
  | cancel t => exact cancel_deals d t c
  | _ => exact .of_eq rfl

/-! ## Runs -/

variable {office : PeerId × ProxyMap} {home : PeerId} {m : ProxyMap}

/-- The office of a directory is its home with its map. -/
theorem office?_of_directory {dir : Directory} (h : c.directories[d]? = some dir) :
    c.office? d = some (dir.home, dir.map) := by
  rw [office?, h]
  rfl

/-- Only a directory that is there has an office. -/
theorem lt_length_of_office? (h : c.office? d = some office) : d < c.directories.length := by
  obtain ⟨dir, found, -⟩ := Option.map_eq_some_iff.mp h
  exact lt_length_of_getElem? found

/-- A map that is there goes through the events of the cluster. -/
theorem office?_run (events : List (Event σ)) (h : c.office? d = some (home, m)) :
    (c.run service events).office? d = some (home, m.run (dealings service d events c)) := by
  induction events generalizing c m with
  | nil => exact h
  | cons event events ih =>
    have hstep := step_deals service d c event (.inl (lt_length_of_office? h))
    rw [Deals, h, Option.map_some] at hstep
    have hrest := ih hstep
    rw [dealings, h, Option.isSome_some, if_pos rfl, ProxyMap.run_append]
    exact hrest

/-- Registering several peers is a run of registrations. -/
theorem registerAll_eq_run (peers : List Peer) (m : ProxyMap) :
    m.registerAll peers = m.run (peers.map .register) := by
  rw [ProxyMap.registerAll, ProxyMap.run, List.foldl_map]
  rfl

/-- A directory that is not there yet is made with its peers registered, or is not there yet after the
event. -/
theorem founding_cases (event : Event σ) (hnone : c.office? d = none) :
    ((c.step service event).office? d = none ∧ c.founding d event = []) ∨
      ∃ home name, (c.step service event).office? d =
        some (home, ProxyMap.reached name (c.founding d event)) := by
  have hge : c.directories.length ≤ d := List.getElem?_eq_none_iff.mp (Option.map_eq_none_iff.mp hnone)
  by_cases hadds : ∃ home name peers, event = .addDirectory home name peers
  · obtain ⟨home, name, peers, rfl⟩ := hadds
    by_cases hd : d = c.directories.length
    · subst hd
      refine .inr ⟨home, name, ?_⟩
      rw [founding, if_pos rfl, ProxyMap.reached, ← registerAll_eq_run]
      have hnew : (c.addDirectory home name peers).directories[c.directories.length]? =
          some { home, map := ProxyMap.registerAll peers { name } } := List.getElem?_concat_length
      exact office?_of_directory hnew
    · refine .inl ⟨?_, if_neg hd⟩
      have hlt : c.directories.length < d := Nat.lt_of_le_of_ne hge (Ne.symm hd)
      refine Option.map_eq_none_iff.mpr (List.getElem?_eq_none ?_)
      show (c.directories ++ [_]).length ≤ d
      rw [List.length_append]
      exact hlt
  · have hother : ∀ home name peers, event ≠ .addDirectory home name peers :=
      fun home name peers heq => hadds ⟨home, name, peers, heq⟩
    have hstep := step_deals service d c event (.inr hother)
    rw [Deals, hnone, Option.map_none] at hstep
    refine .inl ⟨hstep, ?_⟩
    unfold founding
    split
    · exact absurd rfl (hother _ _ _)
    · rfl

/-- The map of a directory is what its events in the run of the cluster lead to. -/
theorem office?_of_none (events : List (Event σ)) (hnone : c.office? d = none)
    (h : (c.run service events).office? d = some (home, m)) :
    ∃ name, m = ProxyMap.reached name (dealings service d events c) := by
  induction events generalizing c with
  | nil => cases hnone.symm.trans h
  | cons event events ih =>
    rw [dealings, hnone]
    rcases founding_cases service event hnone with ⟨hnext, hfounding⟩ | ⟨home', name, hnext⟩
    · rw [hfounding]
      exact ih hnext h
    · have hrun := office?_run service events hnext
      cases h.symm.trans hrun
      exact ⟨name, (ProxyMap.run_append _ _ _).symm⟩

variable {settings : Settings} {dice : Nat → UInt64} {events : List (Event σ)}

/-- What the events are to the map of a directory, on a new network. -/
abbrev dealingsOf (service : Service σ) (settings : Settings) (dice : Nat → UInt64) (d : DirectoryId)
    (events : List (Event σ)) : List ProxyMap.Event :=
  dealings service d events { network := { settings, dice } }

/-- The map of a directory is what its dealings along the events lead to. -/
theorem office?_reached (h : (reached service settings dice events).office? d = some (home, m)) :
    m = ProxyMap.reached m.name (dealingsOf service settings dice d events) := by
  obtain ⟨name, rfl⟩ := office?_of_none service events rfl h
  rw [ProxyMap.reached, ProxyMap.name_run (.empty name)]
  rfl

/-! ## Links -/

/-- The maps of the directories are consistent. -/
def MapsConsistent (c : Cluster σ) : Prop := ∀ d home m, c.office? d = some (home, m) → m.Consistent

/-- So the maps of all directories are consistent in every run. -/
theorem mapsConsistent_reached : (reached service settings dice events).MapsConsistent := by
  intro d home m h
  rw [office?_reached service h]
  exact ProxyMap.Consistent.reached m.name _

/-- A link is known by the creation of its proxy in the directory's map. -/
theorem link?_eq (d : DirectoryId) (k : Handle) (c : Cluster σ) :
    c.link? d k = (c.office? d).bind fun office => office.2.creations[k]?.map fun creation =>
      { home := office.1, peer := creation.peer, directory := d, handle := k } := by
  unfold Cluster.link? office?
  cases c.directories[d]? <;> rfl

/-- A link stays what it is. -/
theorem Deals.link? {dealt : List ProxyMap.Event} (h : Deals d dealt c c') (hc : c.MapsConsistent) {k : Handle}
    {l : Link} (hl : c.link? d k = some l) : c'.link? d k = some l := by
  rw [link?_eq] at hl ⊢
  obtain ⟨⟨home, m⟩, hoffice, hlink⟩ := Option.bind_eq_some_iff.mp hl
  obtain ⟨creation, hcreation, rfl⟩ := Option.map_eq_some_iff.mp hlink
  have hm := hc d home m hoffice
  obtain ⟨creation', hcreation', hpeer⟩ := hm.creation_peer (hm.run dealt)
    (ProxyMap.Grows.run hm dealt) hcreation
  rw [h, hoffice]
  simp only [Option.map_some, Option.bind_some, afterDealings, hcreation', hpeer]

end Cluster

end Replica
