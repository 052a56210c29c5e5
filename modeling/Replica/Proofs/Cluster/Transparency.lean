import Replica.Proofs.Cluster.Tending
import Replica.Proofs.Time.Schedule

/-!
# The network is transparent

Turns keep the callers of a session in their two parts, and come to an end (`Cluster.Tended.turn`). When
nobody can go on any more, all callers are in the first part. Time passes only then, so that every caller has
its outcome at the instant of its call (`Cluster.network_transparent`). The patience of callers must not be
zero: those who wait for no time at all get no answer (`Cluster.impatience_spoils_transparency`).
-/

namespace Replica

open Network

namespace Cluster

variable {σ : Type} {service : Service σ} {s : σ} {node : PeerId} {box : MailboxId}
variable {settings : Settings} {now : Nat} {c : Cluster σ} {answered : List Outcome}
variable {done todo sent : List Errand} {takers : List TaskId}

/-! ## Everybody -/

/-- The callers are in two parts, and the worker is at one of its two places. -/
def IsTended (service : Service σ) (s : σ) (node : PeerId) (box : MailboxId) (settings : Settings)
    (now : Nat) (sent : List Errand) (c : Cluster σ) : Prop :=
  ∃ done todo answered takers, sent = done ++ todo ∧
    Tended service s node box settings now done todo answered takers c

/-- What can be left to be done before time passes: the worker has its turn if it was woken, and each
caller has a turn. -/
def left (service : Service σ) (now : Nat) (c : Cluster σ) : Nat :=
  c.tasks.countP TaskState.isRunning + if (schedule service).isReady now 0 c then 1 else 0

theorem Tended.isReady_worker
    (h : Tended service s node box settings now done todo answered takers c) :
    c.isReady now 0 = decide (0 ∉ takers) := by
  obtain ⟨place, hworker⟩ := h.worker
  rw [isReady, hworker]
  exact h.plain.isWoken_eq 0

/-- Turns keep the callers in two parts, and those of tasks that can go on leave less to be done. -/
theorem Tended.turn (hservice : service.Prompt s) (hlatency : settings.latency = 0)
    (htime : 0 < settings.replyTimeout.toNat)
    (h : Tended service s node box settings now done todo answered takers c) (t : TaskId) :
    IsTended service s node box settings now (done ++ todo) (c.turn service now t) ∧
      (c.isReady now t = true → t < c.tasks.length ∧
        (c.turn service now t).tasks.length = c.tasks.length ∧
        left service now (c.turn service now t) < left service now c) := by
  have hsame (hturn : c.turn service now t = c) (hready : c.isReady now t = false) :
      IsTended service s node box settings now (done ++ todo) (c.turn service now t) ∧
      (c.isReady now t = true → t < c.tasks.length ∧
        (c.turn service now t).tasks.length = c.tasks.length ∧
        left service now (c.turn service now t) < left service now c) := by
    rw [hturn, hready]
    exact ⟨⟨done, todo, answered, takers, rfl, h⟩, nofun⟩
  cases t with
  | zero =>
    rcases h.waits with rfl | ⟨rfl, rfl⟩
    · obtain ⟨answered', hafter, htasks⟩ := h.turn_worker hservice hlatency
      refine ⟨⟨done ++ todo, [], answered', [0], (List.append_nil _).symm, hafter⟩, fun _ => ⟨?_, ?_, ?_⟩⟩
      · rw [h.size]
        exact Nat.succ_pos _
      · rw [htasks]
      · have hbefore : c.isReady now 0 = true := h.isReady_worker
        have hthen : (c.turn service now 0).isReady now 0 = false := hafter.isReady_worker
        show _ + (if (c.turn service now 0).isReady now 0 = true then 1 else 0) <
          _ + if c.isReady now 0 = true then 1 else 0
        rw [hbefore, hthen, htasks]
        exact Nat.lt_succ_self _
    · exact hsame h.turn_waiting h.isReady_worker
  | succ k =>
    cases found : (done ++ todo)[k]? with
    | none =>
      have hnone : c.tasks[k + 1]? = none := by
        rw [List.getElem?_eq_none_iff] at found ⊢
        rw [h.size]
        exact Nat.succ_le_succ found
      apply hsame
      · rw [Cluster.turn, hnone]
      · rw [isReady, hnone]
    | some e =>
      rcases h.turn_caller htime found with ⟨hready, hturn⟩ | ⟨job, outcome, hjob, houtcome, hturn⟩
      · exact hsame hturn hready
      · rw [hturn]
        have hafter := h.answer found houtcome
        refine ⟨⟨done, todo, answered, takers, rfl, hafter⟩, fun _ => ⟨?_, List.length_set, ?_⟩⟩
        · exact lt_length_of_getElem? hjob
        · show _ + (if isReady now 0 _ = true then 1 else 0) <
            _ + if c.isReady now 0 = true then 1 else 0
          rw [hafter.isReady_worker, h.isReady_worker]
          apply Nat.add_lt_add_right
          have hset := set_eq_modify (fun _ => TaskState.finished e.time (.outcome outcome)) hjob
          show (c.tasks.set (k + 1) _).countP _ < _
          rw [hset]
          exact countP_modify_lt hjob rfl rfl

/-- When nobody can go on, every caller has its outcome. -/
theorem Tended.settled (h : Tended service s node box settings now done todo answered takers c)
    (hquiet : (schedule service).IsQuiet now c) :
    todo = [] ∧ ∀ k e, (done ++ todo)[k]? = some e → ∃ outcome, answered[k]? = some outcome ∧
      c.tasks[k + 1]? = some (.finished e.time (.outcome outcome)) := by
  have hworker : (0 : TaskId) ∈ takers := by
    have hready : c.isReady now 0 = false := hquiet 0
    rw [h.isReady_worker] at hready
    simpa using hready
  have htodo : todo = [] := by
    rcases h.waits with rfl | ⟨-, htodo⟩
    · cases hworker
    · exact htodo
  refine ⟨htodo, fun k e hk => ?_⟩
  rcases h.callers k e hk with ⟨-, hwaits⟩ | hended
  · -- the caller's slip is filled, so that it can go on
    have hanswered : k < answered.length := by
      rw [h.length_eq]
      rw [htodo, List.append_nil] at hk
      exact lt_length_of_getElem? hk
    have hready : c.isReady now (k + 1) = false := hquiet (k + 1)
    rw [isReady, hwaits] at hready
    change (decide (c.network.slips[k]? ≠ some .blank) || decide (_ ≤ now)) = false at hready
    rw [h.plain.slips, List.getElem?_append_left (by rwa [List.length_map]), List.getElem?_map,
      List.getElem?_eq_getElem hanswered] at hready
    cases hready
  · exact hended

/-- Time passes when everybody waits. -/
theorem Tended.pass (h : Tended service s node box settings now done todo answered takers c)
    (hquiet : (schedule service).IsQuiet now c) (later : Nat) :
    Tended service s node box settings later done todo answered takers c :=
  { h with callers := fun k e hk => .inr ((h.settled hquiet).2 k e hk) }

theorem IsTended.of_session {start : Cluster σ} (hservice : service.Prompt s)
    (hlatency : settings.latency = 0) (htime : 0 < settings.replyTimeout.toNat)
    (hstart : IsTended service s node box settings 0 [] start)
    (h : Session service node start now c sent) : IsTended service s node box settings now sent c := by
  induction h with
  | opens => exact hstart
  | call r hreplier hkey h ih =>
    obtain ⟨done, todo, answered, takers, rfl, htended⟩ := ih
    exact ⟨done, _, answered, _, List.append_assoc _ _ _, htended.call htime hreplier hkey⟩
  | turn t h ih =>
    obtain ⟨done, todo, answered, takers, rfl, htended⟩ := ih
    exact (htended.turn hservice hlatency htime t).1
  | pass hlater hquiet h ih =>
    obtain ⟨done, todo, answered, takers, rfl, htended⟩ := ih
    exact ⟨done, todo, answered, takers, rfl, htended.pass hquiet _⟩

/-- Turns come to an end. -/
theorem session_ends {start : Cluster σ} (hservice : service.Prompt s)
    (hlatency : settings.latency = 0) (htime : 0 < settings.replyTimeout.toNat)
    (hstart : IsTended service s node box settings 0 [] start) (now : Nat) (sent : List Errand) :
    (schedule service).Ends now (fun c => Session service node start now c sent)
      (left service now) := by
  have hturn (t : TaskId) (c : Cluster σ) (hc : Session service node start now c sent)
      (hready : c.isReady now t = true) :
      t < c.tasks.length ∧ (c.turn service now t).tasks.length = c.tasks.length ∧
        left service now (c.turn service now t) < left service now c := by
    obtain ⟨done, todo, answered, takers, rfl, htended⟩ :=
      IsTended.of_session hservice hlatency htime hstart hc
    exact (htended.turn hservice hlatency htime t).2 hready
  exact ⟨fun t c hc hready => (hturn t c hc hready).1, fun t c hc _ => .turn t hc,
    fun t c hc hready => (hturn t c hc hready).2.1, fun t c hc hready => (hturn t c hc hready).2.2⟩

theorem left_le_effort (service : Service σ) (now : Nat) (c : Cluster σ) :
    left service now c ≤ (schedule service).effort c := by
  have hcount : c.tasks.countP TaskState.isRunning ≤ c.tasks.length := List.countP_le_length
  show left service now c ≤ 16 * (c.tasks.length + 1) + c.network.backlog
  unfold left
  split <;> omega

theorem transparent_of_tended {start : Cluster σ} (hservice : service.Prompt s)
    (hlatency : settings.latency = 0) (htime : 0 < settings.replyTimeout.toNat)
    (hstart : IsTended service s node box settings 0 [] start) :
    Transparent service node start s := by
  have htended {now : Nat} {c : Cluster σ} {sent : List Errand}
      (h : Session service node start now c sent) : IsTended service s node box settings now sent c :=
    .of_session hservice hlatency htime hstart h
  constructor
  · intro now c sent h k e hk time answer hended
    obtain ⟨done, todo, answered, takers, rfl, hc⟩ := htended h
    rw [(hc.errands k e hk).1, ended?] at hended
    rcases hc.callers k e hk with ⟨-, hwaits⟩ | ⟨outcome, houtcome, hfinished⟩
    · rw [hwaits] at hended
      cases hended
    · rw [hfinished] at hended
      cases hended
      refine ⟨rfl, outcome, rfl, ?_⟩
      rw [List.map_append, service.outcomes_append, hc.outcomes, List.getElem?_append_left, List.getElem?_map,
        houtcome]
      · rfl
      · rw [List.length_map]
        exact lt_length_of_getElem? houtcome
  · intro now c sent h hquiet
    obtain ⟨done, todo, answered, takers, rfl, hc⟩ := htended h
    obtain ⟨rfl, hall⟩ := hc.settled hquiet
    constructor
    · intro e he
      obtain ⟨k, hk⟩ := List.getElem?_of_mem he
      obtain ⟨outcome, -, hfinished⟩ := hall k e hk
      rw [(hc.errands k e hk).1, ended?, hfinished]
      rfl
    · obtain ⟨wakeUp, found⟩ := hc.plain.mailbox
      refine ⟨{ id := node, takers, wakeUp }, ?_, rfl, rfl⟩
      rw [Network.mailbox?, hc.plain.registered]
      exact found
  · intro now c sent line h hline
    constructor
    · exact (schedule service).settle_induction
        (P := fun c => Session service node start now c sent) (fun t c _ hc => hc.turn t) h
    · apply Schedule.Ends.turns_isQuiet (session_ends hservice hlatency htime hstart now sent) _ rfl h
      · exact left_le_effort service now c
      · intro t ht
        exact List.mem_append_left _ (hline t ht)

/-! ## The opening -/

/-- Nothing has been sent, and no switch is set. -/
structure Vacant (settings : Settings) (net : Network) : Prop where
  set : net.settings = settings
  calm : ∀ b ∈ net.mailboxes, b.switches = {}
  slips : net.slips = []
  bounded : ∀ node box, net.registry.get? node = some box → box < net.mailboxes.length

theorem foldl_modify_nil (slips : List SlipId) :
    slips.foldl (fun (slips : List Slip) slip => slips.modify slip Slip.voided) [] = [] := by
  induction slips with
  | nil => rfl
  | cons slip slips ih => rw [List.foldl_cons, List.modify_nil, ih]

theorem Vacant.closeMailbox {net : Network} (h : Vacant settings net) (now : Nat) (box : MailboxId) :
    Vacant settings (net.closeMailbox now box) ∧
      ∀ k : MailboxId, k ≠ box → (net.closeMailbox now box).mailboxes[k]? = net.mailboxes[k]? := by
  cases found : net.mailboxes[box]? with
  | none =>
    rw [Network.closeMailbox, found]
    exact ⟨h, fun _ _ => rfl⟩
  | some b =>
    have hmailboxes := mailboxes_closeMailbox now found
    refine ⟨⟨?_, fun c hc => ?_, ?_, fun node k hk => ?_⟩, fun k hk => ?_⟩
    · rw [Network.closeMailbox, found]
      exact h.set
    · rw [hmailboxes] at hc
      obtain ⟨k, hk⟩ := List.getElem?_of_mem hc
      obtain ⟨c', found', rfl⟩ := getElem?_modify_eq_some_iff.mp hk
      have hcalm := h.calm c' (List.mem_of_getElem? found')
      split <;> exact hcalm
    · rw [Network.closeMailbox, found]
      show b.slips.foldl _ net.slips = []
      rw [h.slips, foldl_modify_nil]
    · rw [hmailboxes, List.length_modify]
      rw [registry_closeMailbox] at hk
      exact h.bounded node k hk
    · rw [hmailboxes, List.getElem?_modify_ne _ _ hk.symm]

/-- A node that joins has a new mailbox. -/
theorem Vacant.register {net : Network} (h : Vacant settings net) (now : Nat) (node : PeerId) :
    Vacant settings (net.register now node) ∧
      (net.register now node).registry.get? node = some net.mailboxes.length ∧
      (net.register now node).mailboxes[net.mailboxes.length]? = some { id := node } := by
  let enrolled : Network := { net with
    registry := net.registry.set node net.mailboxes.length
    mailboxes := net.mailboxes ++ [{ id := node }] }
  have henrolled : Vacant settings enrolled := by
    refine ⟨h.set, fun b hb => ?_, h.slips, fun node' box hbox => ?_⟩
    · rcases List.mem_append.mp hb with hb | hb
      · exact h.calm b hb
      · rw [List.mem_singleton.mp hb]
    · show box < (net.mailboxes ++ [_]).length
      rw [List.length_append]
      change (net.registry.set node net.mailboxes.length).get? node' = some box at hbox
      rw [Registry.get?_set] at hbox
      split at hbox
      · cases hbox
        exact Nat.lt_succ_self _
      · exact Nat.lt_succ_of_lt (h.bounded node' box hbox)
  have hregistered : enrolled.registry.get? node = some net.mailboxes.length := by
    show (net.registry.set node net.mailboxes.length).get? node = _
    rw [Registry.get?_set, if_pos rfl]
  have hmailbox : enrolled.mailboxes[net.mailboxes.length]? = some { id := node } :=
    List.getElem?_concat_length
  unfold Network.register
  cases hold : net.registry.get? node with
  | none => exact ⟨henrolled, hregistered, hmailbox⟩
  | some box =>
    have hne : net.mailboxes.length ≠ box := Nat.ne_of_gt (h.bounded node box hold)
    obtain ⟨hclosed, hothers⟩ := henrolled.closeMailbox now box
    refine ⟨hclosed, ?_, ?_⟩
    · show (enrolled.closeMailbox now box).registry.get? node = _
      rw [registry_closeMailbox, hregistered]
    · exact (hothers _ hne).trans hmailbox

theorem run_registers (service : Service σ) {net : Network} (h : Vacant settings net)
    (others : List PeerId) : ∃ net', Vacant settings net' ∧
      run service { network := net } (others.map (Event.register 0)) = { network := net' } := by
  induction others generalizing net with
  | nil => exact ⟨net, h, rfl⟩
  | cons other others ih => exact ih (h.register 0 other).1

theorem begin_of_work {i : ServerId} {place : Nat} {stage : Working} {server : Server σ} {desk' : Desk σ}
    (hserver : c.servers[i]? = some server)
    (hturn : (c.deskOf server).turn service now ⟨server.node, server.name, place, c.tasks.length⟩ .idle =
      (desk', .waiting stage)) :
    c.begin service now (.work i place) = { c with
      network := desk'.network
      servers := c.servers.set i { server with state := desk'.state }
      exit := desk'.exit
      tasks := c.tasks ++ [.running (.work i place stage)] } := by
  have hdesk : Desk.turn service now ⟨server.node, server.name, place, c.tasks.length⟩ .idle
      ⟨c.network, server.state, c.exit⟩ = (desk', .waiting stage) := hturn
  have hundertake : c.undertake service now c.tasks.length (.work i place) = ({ c with
      network := desk'.network
      servers := c.servers.set i { server with state := desk'.state }
      exit := desk'.exit }, .waiting (.work i place stage)) := by
    show c.work service now c.tasks.length i place .idle = _
    simp only [work, hserver, hdesk, Progress.map]
  simp only [Cluster.begin, hundertake, TaskState.ofProgress]

/-- When the server opens, its worker waits and nobody has called. -/
theorem opened_tended (hservice : service.Prompt s) (hlatency : settings.latency = 0)
    (hworkers : settings.workers = 1) (dice : Nat → UInt64) (others : List PeerId) (node : PeerId)
    (name : String) :
    ∃ box, IsTended service s node box settings 0 []
      (opened service settings dice others node name s) := by
  have hfresh : Vacant settings { settings, dice } := ⟨rfl, List.forall_mem_nil _, rfl, nofun⟩
  obtain ⟨net, hnet, hrun⟩ := run_registers service hfresh others
  obtain ⟨hjoined, hregistered, hmailbox⟩ := hnet.register 0 node
  let server : Server σ := { node, name, state := s }
  let c : Cluster σ := { network := net.register 0 node, servers := [server] }
  have hopened : opened service settings dice others node name s =
      c.startWorkers service 0 0 := by
    rw [opened, reached, run_append, hrun]
    rfl
  have hplain : Plain node net.mailboxes.length settings [] [] [] [] c.network :=
    ⟨hjoined.set, hregistered, hjoined.calm, ⟨false, hmailbox⟩, hjoined.slips⟩
  have hserves : (c.deskOf server).Serves service s node net.mailboxes.length settings [] [] [] [] :=
    ⟨hplain, rfl, rfl⟩
  obtain ⟨desk', outcomes, hdesk, hturn⟩ := Desk.goRound_serves ⟨node, name, 0, 0⟩ hservice hlatency
    hserves rfl (List.forall_mem_nil _) List.nodup_nil 0
    (Nat.zero_le ((c.deskOf server).network.backlog + 1))
  have hbegin : c.begin service 0 (.work 0 0) = { c with
      network := desk'.network
      servers := [{ server with state := desk'.state }]
      exit := desk'.exit
      tasks := [.running (.work 0 0 (.taking (.looking net.mailboxes.length)))] } :=
    begin_of_work rfl hturn
  have hstart : c.startWorkers service 0 0 = (c.begin service 0 (.work 0 0)).modifyServer 0 fun server =>
      { server with crew := server.crew ++ [0] } := by
    have hone : c.network.settings.workers.toNat = 1 := by
      show (net.register 0 node).settings.workers.toNat = 1
      rw [hjoined.set, hworkers]
      rfl
    rw [startWorkers, hone]
    rfl
  have houtcomes : outcomes = [] := by
    have hsome := hdesk.outcomes
    cases outcomes with
    | nil => rfl
    | cons outcome outcomes => cases hsome
  subst houtcomes
  refine ⟨net.mailboxes.length, [], [], [], [0], rfl, ?_⟩
  rw [hopened, hstart, hbegin]
  exact ⟨hdesk.plain, rfl, ⟨_, rfl, rfl, hdesk.state⟩, ⟨0, rfl⟩, rfl, nofun, List.nodup_nil, nofun,
    .inr ⟨rfl, rfl⟩⟩

/-- Without faults and latency, and with any patience at all, the network is transparent: whatever nodes
there are, whatever the callers of the node send under different keys and in whatever order tasks have their
turns. -/
theorem network_transparent (service : Service σ) (settings : Settings) (dice : Nat → UInt64)
    (others : List PeerId) (node : PeerId) (name : String) (s : σ) (hservice : service.Prompt s)
    (hlatency : settings.latency = 0) (hworkers : settings.workers = 1)
    (hpatient : settings.replyTimeout ≠ 0) :
    Transparent service node (opened service settings dice others node name s) s := by
  have htime : 0 < settings.replyTimeout.toNat := by
    apply Nat.pos_of_ne_zero
    intro hzero
    exact hpatient (UInt64.toNat_inj.mp hzero)
  obtain ⟨box, hstart⟩ := opened_tended hservice hlatency hworkers dice others node name
  exact transparent_of_tended hservice hlatency htime hstart

section

/-- Every other request is answered. -/
private def squawk (r : Request) (n : Nat) : Ending :=
  if n % 2 = 0 then .reply ⟨r.requestor, r.replier, r.callId, r.body⟩
  else .failure (.stateMachine "no answer")

/-- A service that counts its requests. -/
private def parrot : Service Nat where
  isAlive _ := true
  serve r n := (n + 1, { ending := squawk r n, crash_at_once := fun _ => rfl })

private theorem parrot_prompt : parrot.Prompt 0 where
  alive _ := rfl
  prompt _ _ := rfl
  answers served r := by
    show ∃ outcome, (squawk r _).Answers r outcome
    unfold squawk
    split
    · exact ⟨_, .reply _ rfl rfl⟩
    · exact ⟨_, .failure _ rfl⟩

private def question (client : PeerId) (number : UInt64) : Request where
  requestor := client
  target := "s"
  callId := number

/-- Two callers at one instant, who get their outcomes in their turns, and one a while later. -/
theorem network_transparent_to_three :
    parrot.Prompt 0 ∧ ({} : Settings).latency = 0 ∧ ({} : Settings).workers = 1 ∧
      ({} : Settings).replyTimeout ≠ 0 ∧
      Transparent parrot "s" (opened parrot {} (fun _ => 0) ["c"] "s" "w" 0) 0 ∧
      ∃ c sent, Session parrot "s" (opened parrot {} (fun _ => 0) ["c"] "s" "w" 0) 0 c sent ∧
        c.ended? 1 = some (0, .outcome (.ok ⟨"c", "s", 1, ""⟩)) ∧
        c.ended? 2 = some (0, .outcome (.error (.stateMachine "no answer"))) :=
  ⟨parrot_prompt, rfl, rfl, by decide,
    network_transparent parrot {} (fun _ => 0) ["c"] "s" "w" 0 parrot_prompt rfl rfl (by decide),
    _, _, .turn 2 (.turn 1 (.turn 0 (.call (question "d" 1) rfl (by decide)
      (.call (question "c" 1) rfl (List.forall_mem_nil _) .opens)))), by rfl, by rfl⟩

/-- Callers who have no patience are not answered, even though the service would answer at once. -/
theorem impatience_spoils_transparency :
    parrot.Prompt 0 ∧ ¬ ∀ settings : Settings, settings.latency = 0 → settings.workers = 1 →
      Transparent parrot "s" (opened parrot settings (fun _ => 0) [] "s" "w" 0) 0 := by
  refine ⟨parrot_prompt, fun htransparent => ?_⟩
  let start := opened parrot { replyTimeout := 0 } (fun _ => 0) [] "s" "w" 0
  have hsession : Session parrot "s" start 0 (start.begin parrot 0 (.send (question "c" 1))) _ :=
    .call (question "c" 1) rfl (List.forall_mem_nil _) .opens
  have hended : (start.begin parrot 0 (.send (question "c" 1))).ended? 1 =
      some (0, .outcome (.error (.timeout ("request " ++ (question "c" 1).key.display ++ " to " ++ "s") 0))) := by
    rfl
  obtain ⟨-, outcome, hanswer, houtcome⟩ :=
    (htransparent { replyTimeout := 0 } rfl rfl).sequential 0 _ _ hsession 0 _ rfl 0 _ hended
  cases hanswer
  cases houtcome

end

end Cluster

end Replica
