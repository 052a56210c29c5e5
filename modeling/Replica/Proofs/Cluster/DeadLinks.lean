import Replica.Cluster.Echo
import Replica.Proofs.Cluster.Links
import Replica.Proofs.Proxy.Freshness

/-!
# Links that were closed are dead

A link that was closed refuses every request with the same error, before anything happens on the network
(`IsDead`). A directory closes its links by calls on its map, and the map goes through what the run of the
cluster is to it (`dealingsOf`). So what is known of maps tells which links are closed: those of an entry
when the reset that has replaced the entry has ended, and all links that there ever were when the close that
shuts the map has ended, and with it all resets from before. A task that consults a directory ends when its
call on the map has ended (`Consults`), so all this can be seen from outside.

`Severs` puts this together for one directory, and `closed_links_dead` shows it of all directories in every
run, together with what goes over links that are not closed.
-/

namespace Replica.Cluster

open Network

variable {σ : Type} (service : Service σ) {c c' : Cluster σ} {now : Nat} {t : TaskId} {call : Call}
variable {d : DirectoryId} {l : Link} {h : Handle} {state : TaskState} {event : Event σ} {dir : Directory}

/-! ## Dead links -/

/-- The link takes no request any more: it refuses all of them at once, and leaves the network alone. -/
structure IsDead (service : Service σ) (l : Link) (c : Cluster σ) : Prop where
  /-- This is so for everybody who sends over the link, relays included. -/
  refuses : ∀ now r, c.network.beginLinkSend now l (c.isShut l) r =
    (c.network, .ended (.error (.core (.alreadyClosed l.ends .closed))))
  quiet : ∀ now r, (c.begin service now (.linkSend l r)).network = c.network
  fails : ∀ now r, (c.begin service now (.linkSend l r)).ended? c.tasks.length =
    some (now, .outcome (.error (.core (.alreadyClosed l.ends .closed))))

theorem isDead_of_isShut (hshut : c.isShut l = true) : IsDead service l c := by
  have hrefuses (now : Nat) (r : Request) : c.network.beginLinkSend now l (c.isShut l) r =
      (c.network, .ended (.error (.core (.alreadyClosed l.ends .closed)))) := by
    unfold beginLinkSend Link.refusal?
    rw [if_pos hshut]
  refine ⟨hrefuses, fun now r => congrArg Prod.fst (hrefuses now _), fun now r => ?_⟩
  have hprogress : (c.undertake service now c.tasks.length (.linkSend l r)).2 =
      .ended (.outcome (.error (.core (.alreadyClosed l.ends .closed)))) :=
    congrArg (fun result : Network × SendProgress => result.2.map Job.linkSend Answer.outcome)
      (hrefuses now _)
  unfold Cluster.ended?
  rw [task_begun, hprogress]
  rfl

/-- A link is closed once the directory has asked it to close. -/
theorem isDead_of_asked (found : c.directories[d]? = some dir) {creation : Creation}
    (hcreation : dir.map.creations[h]? = some creation) (hasked : creation.closeCalls ≠ []) :
    ∃ l, c.link? d h = some l ∧ IsDead service l c := by
  refine ⟨{ home := dir.home, peer := creation.peer, directory := d, handle := h }, ?_,
    isDead_of_isShut service ?_⟩
  · rw [Cluster.link?, found]
    exact Option.map_eq_some_iff.mpr ⟨creation, hcreation, rfl⟩
  · have hcalls : creation.closeCalls.isEmpty = false := by
      rw [← Bool.not_eq_true, List.isEmpty_iff]
      exact hasked
    rw [isShut, found, Option.any_some, Directory.isShut, hcreation, Option.any_some, hcalls]
    exact Bool.or_true _

/-- A link that has been handed out goes from the home of the directory to the peer that it was made for. -/
theorem ends_of_link? (found : c.directories[d]? = some dir) (hl : c.link? d h = some l) :
    l.home = dir.home ∧ ∃ creation, dir.map.creations[h]? = some creation ∧ l.peer = creation.peer := by
  rw [Cluster.link?, found] at hl
  obtain ⟨creation, hcreation, rfl⟩ := Option.map_eq_some_iff.mp hl
  exact ⟨rfl, creation, hcreation, rfl⟩

/-! ## Consultations -/

/-- The task waits for the call on the map, or has ended as the call had. -/
def Consults (c : Cluster σ) (d : DirectoryId) (k : TaskId) : TaskState → Prop
  | .running job => job = .consult d k
  | .finished _ _ => ∃ home m, c.office? d = some (home, m) ∧ (m.ended? k).isSome
  | .cancelled => True

theorem Consults.deals {k : TaskId} (hk : Consults c d k state) (hs : c.MapsConsistent)
    {dealt : List ProxyMap.Event} (hdeals : Deals d dealt c c') : Consults c' d k state := by
  cases state with
  | running job => exact hk
  | finished time answer =>
    obtain ⟨home, m, hoffice, hended⟩ := hk
    obtain ⟨⟨time', a⟩, hended⟩ := Option.isSome_iff_exists.mp hended
    refine ⟨home, m.run dealt, ?_, ?_⟩
    · rw [hdeals, hoffice]
      rfl
    · rw [ProxyMap.ended?_run (hs d home m hoffice) hended]
      rfl
  | cancelled => trivial

theorem Consults.congr {k : TaskId} (hk : Consults c d k state) (h : c'.office? d = c.office? d) :
    Consults c' d k state := by
  cases state with
  | running job => exact hk
  | finished time answer =>
    obtain ⟨home, m, hoffice, hended⟩ := hk
    exact ⟨home, m, h.trans hoffice, hended⟩
  | cancelled => trivial

theorem waitForProxyCall_consults (now : Nat) (d : DirectoryId) (k : TaskId) (c : Cluster σ) :
    Consults (c.waitForProxyCall d k).1 d k (.ofProgress now (c.waitForProxyCall d k).2) := by
  unfold waitForProxyCall
  cases hanswer : c.proxyAnswer? d k with
  | none => rfl
  | some answer =>
    obtain ⟨⟨time, a⟩, hended, -⟩ := Option.map_eq_some_iff.mp hanswer
    obtain ⟨dir, found, hended⟩ := Option.bind_eq_some_iff.mp hended
    refine ⟨dir.home, dir.map, office?_of_directory found, ?_⟩
    rw [hended]
    rfl

theorem turn_consults {k : TaskId} (now : Nat) (found : c.tasks[t]? = some state)
    (hk : Consults c d k state) : ∃ state', (c.turn service now t).tasks[t]? = some state' ∧
      Consults (c.turn service now t) d k state' := by
  cases state with
  | running job =>
    obtain rfl : job = .consult d k := hk
    refine ⟨_, task_turned service found, ?_⟩
    have hconsults : Consults (c.resume service now t (.consult d k)).1 d k
        (.ofProgress now (c.resume service now t (.consult d k)).2) :=
      waitForProxyCall_consults now d k (c.turnProxyCall now d k)
    have hturn : (c.turn service now t).office? d =
        (c.resume service now t (.consult d k)).1.office? d := by
      rw [Cluster.turn, found]
      rfl
    exact hconsults.congr hturn
  | finished | cancelled =>
    rw [turn_of_not_running service (by simp [found])]
    exact ⟨_, found, hk⟩

theorem begin_consults (now : Nat) (request : ProxyCall) (found : c.directories[d]? = some dir) :
    ∃ state, (c.begin service now (.consult d request)).tasks[c.tasks.length]? = some state ∧
      Consults (c.begin service now (.consult d request)) d dir.map.tasks.length state := by
  have hcall : (c.beginProxyCall now d request).2 = dir.map.tasks.length := by
    rw [beginProxyCall, found]
    rfl
  have hconsults := waitForProxyCall_consults now d (c.beginProxyCall now d request).2
    (c.beginProxyCall now d request).1
  rw [hcall] at hconsults
  refine ⟨_, ?_, hconsults.congr ?_⟩
  · rw [task_begun, ← hcall]
    rfl
  · rw [← hcall]
    rfl

/-- A consultation goes on until its call on the map has ended. -/
theorem step_consults {k : TaskId} (hs : c.MapsConsistent) (found : c.tasks[t]? = some state)
    (hthere : d < c.directories.length) (hk : Consults c d k state) :
    ∃ state', (c.step service event).tasks[t]? = some state' ∧
      Consults (c.step service event) d k state' := by
  have hdeals := step_deals service d c event (.inl hthere)
  obtain ⟨state', found', htaskChange⟩ := step_taskChange service found event
  refine ⟨state', found', ?_⟩
  cases htaskChange with
  | same event state => exact hk.deals hs hdeals
  | diverted owner other state =>
    -- a detour is no business of a consultation's
    have hkept : Consults (c.step service (.divert owner other)) d k state := hk.deals hs hdeals
    cases state with
    | running job =>
      obtain rfl : job = .consult d k := hkept
      rfl
    | finished time answer => exact hkept
    | cancelled => trivial
  | turned now job hnetwork =>
    obtain ⟨state', htask, hconsults⟩ := turn_consults service now found hk
    cases found'.symm.trans htask
    exact hconsults
  | cancelled event job => trivial

/-! ## Runs -/

variable {settings : Settings} {dice : Nat → UInt64} {events before after : List (Event σ)}
variable {request : ProxyCall}

theorem dealings_append (d : DirectoryId) (before after : List (Event σ)) (c : Cluster σ) :
    dealings service d (before ++ after) c =
      dealings service d before c ++ dealings service d after (c.run service before) := by
  induction before generalizing c with
  | nil => rfl
  | cons event before ih => rw [List.cons_append, dealings, dealings, ih, List.append_assoc]; rfl

theorem consults_reached (found : (reached service settings dice before).directories[d]? = some dir)
    (now : Nat) (request : ProxyCall) (after : List (Event σ)) :
    ∃ state, (reached service settings dice (before ++ .begin now (.consult d request) :: after)).tasks[
        (reached service settings dice before).tasks.length]? = some state ∧
      Consults (reached service settings dice (before ++ .begin now (.consult d request) :: after)) d
        dir.map.tasks.length state := by
  induction after using List.reverseRecOn with
  | nil =>
    rw [reached_concat]
    exact begin_consults service now request found
  | append_singleton after event ih =>
    obtain ⟨state, found', hk⟩ := ih
    have hthere : d < (reached service settings dice
        (before ++ .begin now (.consult d request) :: after)).directories.length := by
      have hoffice := office?_run service (.begin now (.consult d request) :: after)
        (office?_of_directory found)
      rw [reached_append]
      exact lt_length_of_office? hoffice
    rw [← List.cons_append, ← List.append_assoc, reached_concat]
    exact step_consults service (mapsConsistent_reached service) found' hthere hk

/-- A consultation is a call on the map, and when the task has ended the call has ended. -/
theorem consultation_ended (found : (reached service settings dice before).directories[d]? = some dir)
    {office : PeerId × ProxyMap}
    (hoffice : (reached service settings dice
      (before ++ .begin now (.consult d request) :: after)).office? d = some office)
    (hended : ((reached service settings dice
      (before ++ .begin now (.consult d request) :: after)).ended?
        (reached service settings dice before).tasks.length).isSome) :
    (office.2.ended? dir.map.tasks.length).isSome := by
  obtain ⟨state, htask, hk⟩ := consults_reached service found now request after
  unfold Cluster.ended? at hended
  rw [htask] at hended
  cases state with
  | running job => cases hended
  | finished time answer =>
    obtain ⟨home, m, hoffice', hended'⟩ := hk
    cases hoffice.symm.trans hoffice'
    exact hended'
  | cancelled => cases hended

theorem dealings_consult (found : c.directories[d]? = some dir) (now : Nat) (request : ProxyCall)
    (after : List (Event σ)) :
    ∃ rest, dealings service d (.begin now (.consult d request) :: after) c =
      .begin now c.network.factory request :: rest := by
  refine ⟨dealings service d after (c.step service (.begin now (.consult d request))), ?_⟩
  have hd : (Call.consult d request).directory? = some d := rfl
  rw [dealings, office?_of_directory found, Option.isSome_some, if_pos rfl, dealingsOn, if_pos hd,
    dealingsOnCall, List.singleton_append]

/-! ## The main result -/

/-- What the calls on the map of a directory mean for its links, at the end of a run. -/
structure Severs (service : Service σ) (settings : Settings) (dice : Nat → UInt64)
    (events : List (Event σ)) (d : DirectoryId) (dir : Directory) : Prop where
  /-- The map has gone through what the run was to it. -/
  history : dir.map = ProxyMap.reached dir.map.name (dealingsOf service settings dice d events)
  /-- A task that consults the directory calls on the map as it begins, and when the task has ended the
  call has ended. -/
  consulted : ∀ before now request after, events = before ++ .begin now (.consult d request) :: after →
    d < (reached service settings dice before).directories.length →
    (∃ rest, dealingsOf service settings dice d events = dealingsOf service settings dice d before ++
      .begin now (reached service settings dice before).network.factory request :: rest) ∧
    (((reached service settings dice events).ended?
        (reached service settings dice before).tasks.length).isSome →
      (dir.map.ended? (ProxyMap.reached dir.map.name
        (dealingsOf service settings dice d before)).tasks.length).isSome)
  /-- All links go from the home of the directory to the peer that they were made for. -/
  ends : ∀ h l, (reached service settings dice events).link? d h = some l →
    l.home = dir.home ∧ ∃ creation, dir.map.creations[h]? = some creation ∧ l.peer = creation.peer
  /-- Whatever a look-up was answered with is a link that was made. -/
  handed : ∀ k time h, dir.map.ended? k = some (time, .proxy (.ok h)) → dir.map.Made h
  /-- When a reset has ended, all links of the entry that it has replaced are dead, whoever got them and
  when. -/
  reset : ∀ before now factory call after id e,
    dealingsOf service settings dice d events = before ++ .begin now factory call :: after →
    call.Renews id → (ProxyMap.reached dir.map.name before).closed = false →
    (ProxyMap.reached dir.map.name before).registry.get? id = some e →
    (dir.map.ended? (ProxyMap.reached dir.map.name before).tasks.length).isSome →
    ∀ h, dir.map.MadeFor e h → ∃ l, (reached service settings dice events).link? d h = some l ∧
      IsDead service l (reached service settings dice events)
  /-- When the close that shuts the map has ended, and with it all resets from before, all links are
  dead. -/
  close : ∀ before now factory after,
    dealingsOf service settings dice d events = before ++ .begin now factory .close :: after →
    (ProxyMap.reached dir.map.name before).closed = false →
    (dir.map.ended? (ProxyMap.reached dir.map.name before).tasks.length).isSome →
    (∀ u call s id, (ProxyMap.reached dir.map.name before).tasks[u]? = some ⟨call, s⟩ →
      call.Resets id → (dir.map.ended? u).isSome) →
    ∀ h, dir.map.Made h → ∃ l, (reached service settings dice events).link? d h = some l ∧
      IsDead service l (reached service settings dice events)

theorem severs_reached (found : (reached service settings dice events).directories[d]? = some dir) :
    Severs service settings dice events d dir := by
  have hoffice := office?_of_directory found
  have hhistory : dir.map = ProxyMap.reached dir.map.name (dealingsOf service settings dice d events) :=
    office?_reached service hoffice
  refine ⟨hhistory, ?_, fun h l => ends_of_link? found, ?_, ?_, ?_⟩
  · rintro before now request after rfl hthere
    obtain ⟨dir', found'⟩ : ∃ dir', (reached service settings dice before).directories[d]? = some dir' :=
      ⟨_, List.getElem?_eq_getElem hthere⟩
    have hoffice' := office?_of_directory found'
    have hname : dir.map.name = dir'.map.name := by
      have hrun := office?_run service (.begin now (.consult d request) :: after) hoffice'
      rw [reached_append] at hoffice
      have hmap : dir.map = dir'.map.run _ :=
        congrArg Prod.snd (Option.some.inj (hoffice.symm.trans hrun))
      rw [hmap, ProxyMap.name_run (mapsConsistent_reached service d _ _ hoffice')]
    refine ⟨?_, fun hended => ?_⟩
    · obtain ⟨rest, hrest⟩ := dealings_consult service found' now request after
      exact ⟨rest, (dealings_append service d before _ _).trans (congrArg (_ ++ ·) hrest)⟩
    · have hcall := consultation_ended service found' hoffice hended
      have hhistory' := office?_reached service hoffice'
      rw [hname, ← hhistory']
      exact hcall
  · intro k time h hended
    generalize dir.map.name = name at hhistory
    rw [hhistory] at hended ⊢
    exact ProxyMap.made_of_ended hended
  · intro before now factory call after id e heq hrenews hopen hget hended h hmade
    generalize dir.map.name = name at hhistory hopen hget hended
    rw [heq] at hhistory
    rw [hhistory] at hended hmade
    have hrefreshed := ProxyMap.resets_refresh name before after now factory call id e hrenews hopen hget
    obtain ⟨creation, hcreation, hcalls⟩ := (hrefreshed.closed hended).2 h hmade
    exact isDead_of_asked service found (hhistory ▸ hcreation)
      (List.length_pos_iff.mp (hcalls ▸ Nat.one_pos))
  · intro before now factory after heq hopen hended hresets h hmade
    generalize dir.map.name = name at hhistory hopen hended hresets
    rw [heq] at hhistory
    rw [hhistory] at hended hresets hmade
    obtain ⟨creation, hcreation, hcalls⟩ :=
      ProxyMap.closeCalls_of_close_ended hopen hended hresets hmade
    exact isDead_of_asked service found (hhistory ▸ hcreation) hcalls

/-- Along every run, whatever is cancelled: the links of a directory are dead once they have been closed by
a reset or by the close of the directory that has ended, whenever and by whom they were looked up. Where no
request is given a detour, what a task puts into mailboxes in its turn has gone over its link: it is a
request from the near end to the far end, and the mailbox is one of the far end. -/
theorem closed_links_dead (settings : Settings) (dice : Nat → UInt64) (events : List (Event σ)) :
    (∀ d dir, (reached service settings dice events).directories[d]? = some dir →
      Severs service settings dice events d dir) ∧
    ((∀ owner other, Event.divert owner other ∉ events) →
      ∀ before event after t call, events = before ++ event :: after →
        BegunWith service settings dice (before ++ [event]) t call →
        event.GivesTurn (reached service settings dice before) t →
        Posts (fun box r => Carried (reached service settings dice before).network
            (reached service settings dice (before ++ [event])) box r call)
          (reached service settings dice before).network
          (reached service settings dice (before ++ [event])).network) := by
  refine ⟨fun d dir => severs_reached service, ?_⟩
  rintro hstays before event after t call rfl hbegun hgivesTurn
  refine posted_over_links service (fun owner other hmem => hstays owner other ?_) hbegun hgivesTurn
  rw [List.append_cons]
  exact List.mem_append_left after hmem

section

/-- A request of `a` to `b`. -/
private def plea (number : UInt64) : Request where
  requestor := "a"
  target := "b"
  callId := number

/-- A relay makes a link. While it does so the link is reset, so that it is closed just after the relay has
got it and has sent its request. Another link is looked up while the directory is closed, and a request goes
over it just before it is closed. -/
private def severance : List (Event Echo) :=
  [.register 0 "a", .register 0 "b", .addDirectory "a" "links" [⟨"b", "b:1"⟩],
    .begin 1 (.relay 0 "b" (plea 0)), .begin 2 (.consult 0 (.reset "b")), .turn 2 0, .turn 2 1,
    .turn 2 1, .begin 3 (.consult 0 (.lookUp "b")), .begin 4 (.consult 0 .close), .turn 5 2,
    .begin 5 (.linkSend ⟨"a", ⟨"b", "b:1"⟩, 0, 1⟩ (plea 1)), .turn 6 3, .turn 6 3]

private abbrev severed (n : Nat) : Cluster Echo := reached Echo.service {} (fun _ => 0) (severance.take n)

/-- The first link is dead after the reset, the second one after the close, and both requests have gone over
their links before. -/
theorem closed_links_dead_in_severance :
    (∃ l, (severed 8).link? 0 0 = some l ∧ IsDead Echo.service l (severed 8)) ∧
      (∃ l, (severed 14).link? 0 1 = some l ∧ IsDead Echo.service l (severed 14)) ∧
      (∀ owner other, Event.divert owner other ∉ severance) ∧
      ((severed 14).network.contents 1).map (·.callId) = [0, 1] ∧
      Posts (fun box r => Carried (severed 5).network (severed 6) box r (.relay 0 "b" (plea 0)))
        (severed 5).network (severed 6).network := by
  have hreset := (closed_links_dead Echo.service {} (fun _ => 0) (severance.take 8)).1 0 _ rfl
  have hclose := (closed_links_dead Echo.service {} (fun _ => 0) severance).1 0 _ rfl
  have hstays : ∀ owner other, Event.divert owner other ∉ severance := by simp [severance]
  refine ⟨?_, ?_, hstays, by rfl, ?_⟩
  · obtain ⟨⟨rest, hdealings⟩, hended⟩ := hreset.consulted (severance.take 4) 2 (.reset "b")
      ((severance.take 8).drop 5) rfl (by decide)
    exact hreset.reset _ 2 _ (.reset "b") rest "b" 0 hdealings rfl rfl rfl (hended rfl) 0
      ⟨_, rfl, rfl, rfl⟩
  · obtain ⟨⟨rest, hdealings⟩, hended⟩ := hclose.consulted (severance.take 9) 4 .close
      (severance.drop 10) rfl (by decide)
    refine hclose.close _ 4 _ rest hdealings rfl (hended rfl) (fun u call s id htask hcall => ?_) 1
      ⟨_, rfl, rfl⟩
    -- the reset has ended before, and the other calls are look-ups
    match u with
    | 0 | 2 =>
      cases htask
      cases hcall
    | 1 => rfl
    | u + 3 => cases htask
  · exact (closed_links_dead Echo.service {} (fun _ => 0) severance).2 hstays (severance.take 5)
      (.turn 2 0) (severance.drop 6) 0 (.relay 0 "b" (plea 0)) rfl
      ⟨severance.take 3, 1, [.begin 2 (.consult 0 (.reset "b")), .turn 2 0], rfl, rfl⟩ rfl

end

end Replica.Cluster
