import Mathlib.Data.Nat.Find
import Replica.Proofs.Network.Latency
import Replica.Proofs.Traffic.Outcomes

/-!
# Replies take their latency

A call that replies draws its latency in its first turn, after the outcome has been found to answer the
request. If there is no latency it hands the outcome over in that turn. Otherwise it sleeps, and does
nothing before the time at which it wakes: whatever happens to the others and to the network, only a turn
of its own brings it further, and only then (`Sleeps.step`). A detour that its request is given changes
where the outcome goes, but not when.

The clock waits for replies: it passes no instant at which one can go on (`Unhurried`). So the outcome is
handed over at that very time (`Sleeps.run`), and a run can always go on until it is (`Slept.returns`).
Nothing else is asked of the clock: those who send and take requests, for whom `Timely` waits, do not matter
here.

Nobody sleeps for more than thirty years, so a latency that is longer is over sooner.
-/

namespace Replica

namespace Network

variable {net : Network} {r : Request} {outcome : Outcome}

/-- The latency of the next reply. -/
def nextLatency (net : Network) : UInt64 := Latency.sampleAny net.settings.latency net.roll.1

/-- A reply without latency is handed over in its first turn. -/
theorem beginReply_atOnce (now : Nat) (h : answers r outcome = true) (hzero : net.nextLatency = 0) :
    net.beginReply now r outcome = (net.roll.2.deliver now r outcome, .ended (.ok ())) := by
  rw [beginReply_of_answers h]
  exact if_pos hzero

/-- A reply with a latency has only drawn it in its first turn. -/
theorem beginReply_delayed (now : Nat) (h : answers r outcome = true) (hne : net.nextLatency ≠ 0) :
    net.beginReply now r outcome =
      (net.roll.2, .waiting ⟨r, outcome, Sleep.wake now net.nextLatency.toNat⟩) := by
  rw [beginReply_of_answers h]
  exact if_neg hne

end Network

open Network

namespace Traffic

variable {x : Traffic} {j : Nat} {r : Request} {outcome : Outcome}
variable {event : Event} {events after : List Event} {start time now later wake : Nat}

/-! ## The clock -/

/-- No reply that is under way can go on at the time. -/
def NoReplyDue (now : Nat) (x : Traffic) : Prop :=
  ∀ call ∈ x.replies, ∀ stage ∈ call.state.stage?, now < stage.wake

/-- The clock shows `start` when the events begin, and `now` when they are over. It moves on only over
instants at which no reply can go on. -/
inductive Unhurried (x : Traffic) (start : Nat) : List Event → Nat → Prop where
  | start : Unhurried x start [] start
  | happens {events : List Event} {now : Nat} {event : Event} (h : Unhurried x start events now)
    (hnow : event.time? = none ∨ event.time? = some now) : Unhurried x start (events ++ [event]) now
  | passes {events : List Event} {now later : Nat} (h : Unhurried x start events now)
    (hlater : now ≤ later)
    (hquiet : ∀ instant, now ≤ instant → instant < later → (x.run events).NoReplyDue instant) :
    Unhurried x start events later

/-- The next event may come before a reply wakes, or at that time. -/
theorem Unhurried.goOn (h : x.Unhurried start events now) (event : Event)
    (htime : event.time? = some later) (hlater : now ≤ later)
    (hwake : ∀ call ∈ (x.run events).replies, ∀ stage ∈ call.state.stage?, later ≤ stage.wake) :
    x.Unhurried start (events ++ [event]) later := by
  refine .happens (.passes h hlater fun instant _ hinstant call hcall stage hstage => ?_) (.inr htime)
  exact hinstant.trans_le (hwake call hcall stage hstage)

/-! ## Replies that sleep -/

/-- The call sleeps until the time `wake`, with the outcome of the request in hand. -/
def Sleeps (j : Nat) (r : Request) (outcome : Outcome) (wake : Nat) (x : Traffic) : Prop :=
  ∃ call, x.replies[j]? = some call ∧ call.state = .underWay ⟨r, outcome, wake⟩

/-- In the event the call hands the outcome over on the network, to whoever waits for it there, and ends. -/
structure Delivers (x : Traffic) (event : Event) (j : Nat) (r : Request) (outcome : Outcome) (now : Nat)
    (net : Network) : Prop where
  network : (x.step event).network = net.deliver now r outcome
  ended : ∃ call, (x.step event).replies[j]? = some call ∧
    call.state = .ended (ReplyEnd.of (net.caller? r) (.ok ()))

namespace Sleeps

theorem wake_unique {r' : Request} {outcome' : Outcome} {wake' : Nat}
    (h : Sleeps j r outcome wake x) (h' : Sleeps j r' outcome' wake' x) : wake = wake' := by
  obtain ⟨call, found, hstate⟩ := h
  obtain ⟨call', found', hstate'⟩ := h'
  obtain rfl := Option.some.inj (found.symm.trans found')
  cases hstate.symm.trans hstate'
  rfl

/-- A turn that comes too early. -/
theorem early (h : Sleeps j r outcome wake x) (hnow : now < wake) :
    Sleeps j r outcome wake (x.step (.turnReply now j)) := by
  obtain ⟨call, found, hstate⟩ := h
  rw [Traffic.step, turnReply_eq found hstate]
  refine ⟨_, getElem?_modify_eq_some_iff.mpr ⟨call, found, if_pos rfl⟩, ?_⟩
  rw [Network.turnReply, if_neg (Nat.not_le.mpr hnow)]
  rfl

/-- A turn that comes when it is time. -/
theorem step_turnReply (h : Sleeps j r outcome wake x) (hnow : wake ≤ now) :
    x.step (.turnReply now j) = { x with
      network := x.network.deliver now r outcome
      replies := x.replies.modify j fun call =>
        { call with state := .ended (ReplyEnd.of (x.network.caller? r) (.ok ())) } } := by
  have hturn : x.network.turnReply now ⟨r, outcome, wake⟩ =
      (x.network.deliver now r outcome, .ended (.ok ())) := if_pos hnow
  obtain ⟨call, found, hstate⟩ := h
  rw [Traffic.step, turnReply_eq found hstate, hturn]
  rfl

theorem delivers (h : Sleeps j r outcome wake x) (hnow : wake ≤ now) :
    x.Delivers (.turnReply now j) j r outcome now x.network := by
  have hstep := h.step_turnReply hnow
  obtain ⟨call, found, -⟩ := h
  refine ⟨?_, ?_⟩
  · rw [hstep]
  · rw [hstep]
    exact ⟨_, getElem?_modify_eq_some_iff.mpr ⟨call, found, if_pos rfl⟩, rfl⟩

/-- Whatever happens, the call sleeps on, unless it gets a turn when it is time, or is cancelled. -/
theorem step (h : Sleeps j r outcome wake x) (hearly : ∀ now, event = .turnReply now j → now < wake)
    (hcancel : event ≠ .cancelReply j) : ∃ r', Sleeps j r' outcome wake (x.step event) := by
  obtain ⟨call, found, hstate⟩ := h
  obtain ⟨call', found', hstep⟩ := exists_replyStep found event
  cases hstep with
  | stays _ => exact ⟨r, call, found', hstate⟩
  | diverts owner other =>
    refine ⟨r.divert owner other, _, found', ?_⟩
    simp only [ReplyCall.divert, hstate]
    rfl
  | turns now _ => exact ⟨r, early ⟨call, found, hstate⟩ (hearly now rfl)⟩
  | cancels _ => exact absurd rfl hcancel

end Sleeps

/-- A reply can go on at the time if and only if it sleeps until then at most. -/
theorem not_noReplyDue_iff :
    ¬ x.NoReplyDue now ↔ ∃ k r outcome wake, Sleeps k r outcome wake x ∧ wake ≤ now := by
  constructor
  · intro h
    simp only [NoReplyDue, not_forall, Nat.not_lt] at h
    obtain ⟨call, hcall, stage, hstage, hwake⟩ := h
    obtain ⟨k, found⟩ := List.getElem?_of_mem hcall
    exact ⟨k, stage.request, stage.outcome, stage.wake,
      ⟨call, found, CallState.eq_underWay_of_stage? hstage⟩, hwake⟩
  · rintro ⟨k, r, outcome, wake, ⟨call, found, hstate⟩, hwake⟩ hquiet
    refine Nat.not_le_of_lt (hquiet call (List.mem_of_getElem? found) ⟨r, outcome, wake⟩ ?_) hwake
    rw [hstate]
    rfl

/-- In the run the call sleeps until the time `wake`, and hands the outcome over then. -/
def HandedOver (x : Traffic) (events : List Event) (j : Nat) (outcome : Outcome) (wake : Nat) : Prop :=
  ∃ before rest r, events = before ++ .turnReply wake j :: rest ∧
    Sleeps j r outcome wake (x.run before) ∧
    (x.run before).Delivers (.turnReply wake j) j r outcome wake (x.run before).network

theorem Sleeps.handedOver (h : Sleeps j r outcome wake (x.run events)) :
    x.HandedOver (events ++ [.turnReply wake j]) j outcome wake :=
  ⟨events, [], r, rfl, h, h.delivers (Nat.le_refl _)⟩

theorem HandedOver.append (h : x.HandedOver events j outcome wake) (after : List Event) :
    x.HandedOver (events ++ after) j outcome wake := by
  obtain ⟨before, rest, r, rfl, hrest⟩ := h
  exact ⟨before, rest ++ after, r, by rw [List.append_assoc, List.cons_append], hrest⟩

/-- What has become by the time `now` of a call that sleeps until the time `wake`. -/
inductive Slept (x : Traffic) (events : List Event) (j : Nat) (outcome : Outcome) (wake now : Nat) :
    Prop where
  | asleep (r : Request) (hsleeps : Sleeps j r outcome wake (x.run events)) (hnow : now ≤ wake)
  | delivered (h : x.HandedOver events j outcome wake)

namespace Slept

theorem happens (h : x.Slept events j outcome wake now)
    (hnow : event.time? = none ∨ event.time? = some now) (hcancel : event ≠ .cancelReply j) :
    x.Slept (events ++ [event]) j outcome wake now := by
  cases h with
  | asleep r hsleeps hle =>
    by_cases hturn : event = .turnReply now j ∧ wake ≤ now
    · obtain ⟨rfl, hwake⟩ := hturn
      obtain rfl := Nat.le_antisymm hle hwake
      exact .delivered hsleeps.handedOver
    · have hearly (time : Nat) (heq : event = .turnReply time j) : time < wake := by
        subst heq
        obtain rfl := Option.some.inj (hnow.resolve_left nofun)
        exact Nat.lt_of_not_le fun hwake => hturn ⟨rfl, hwake⟩
      obtain ⟨r', hsleeps'⟩ := hsleeps.step hearly hcancel
      rw [← run_concat] at hsleeps'
      exact .asleep r' hsleeps' hle
  | delivered h => exact .delivered (h.append [event])

/-- The clock waits for a call that can go on. -/
theorem passes (h : x.Slept events j outcome wake now)
    (hquiet : ∀ instant, now ≤ instant → instant < later → (x.run events).NoReplyDue instant) :
    x.Slept events j outcome wake later := by
  cases h with
  | asleep r hsleeps hle =>
    refine .asleep r hsleeps (Nat.le_of_not_lt fun hlt => ?_)
    exact not_noReplyDue_iff.mpr ⟨j, r, outcome, wake, hsleeps, Nat.le_refl wake⟩ (hquiet wake hle hlt)
  | delivered h => exact .delivered h

end Slept

/-- Under the clock, a call that sleeps hands its outcome over exactly when it is time. -/
theorem Sleeps.run (h : Sleeps j r outcome wake x) (hstart : start ≤ wake)
    (hclock : x.Unhurried start events now) (hcancel : .cancelReply j ∉ events) :
    x.Slept events j outcome wake now := by
  induction hclock with
  | start => exact .asleep r h hstart
  | @happens events now event _ hnow ih =>
    have hlast : event ≠ .cancelReply j := by
      rintro rfl
      exact hcancel (List.mem_append_right _ (List.mem_singleton.mpr rfl))
    exact (ih fun hmem => hcancel (List.mem_append_left _ hmem)).happens hnow hlast
  | passes _ _ hquiet ih => exact (ih hcancel).passes hquiet

/-! ## Runs that go on -/

/-- While a call sleeps there is a first instant from now on at which some reply can go on. -/
theorem Sleeps.exists_first (h : Sleeps j r outcome wake x) (hnow : now ≤ wake) :
    ∃ instant k r' outcome' wake', now ≤ instant ∧ instant ≤ wake ∧
      (∀ i, now ≤ i → i < instant → x.NoReplyDue i) ∧ Sleeps k r' outcome' wake' x ∧
      wake' ≤ instant := by
  have hwake : ¬ x.NoReplyDue wake :=
    not_noReplyDue_iff.mpr ⟨j, r, outcome, wake, h, Nat.le_refl wake⟩
  have hsome : ∃ instant, now ≤ instant ∧ ¬ x.NoReplyDue instant := ⟨wake, hnow, hwake⟩
  classical
  obtain ⟨hle, hdue⟩ := Nat.find_spec hsome
  obtain ⟨k, r', outcome', wake', hsleeps, hwakes⟩ := not_noReplyDue_iff.mp hdue
  refine ⟨Nat.find hsome, k, r', outcome', wake', hle, ?_, fun i hi hlt => ?_, hsleeps, hwakes⟩
  · exact Nat.find_min' hsome ⟨hnow, hwake⟩
  · exact not_not.mp fun hnot => Nat.find_min hsome hlt ⟨hi, hnot⟩

/-- A reply that has had its turn when it was time is under way no more. -/
theorem Sleeps.countP_lt (h : Sleeps j r outcome wake x) (hnow : wake ≤ now) :
    (x.step (.turnReply now j)).replies.countP (·.state.stage?.isSome) <
      x.replies.countP (·.state.stage?.isSome) := by
  rw [h.step_turnReply hnow]
  obtain ⟨call, found, hstate⟩ := h
  refine countP_modify_lt found ?_ rfl
  rw [hstate]
  rfl

/-- The others that wake before a call can be given their turns, each as soon as it wakes, until it is time
for the call. -/
theorem Sleeps.exists_turns (h : Sleeps j r outcome wake (x.run events))
    (hclock : x.Unhurried start events now) (hnow : now ≤ wake) :
    ∃ turns r', (∀ k, .cancelReply k ∉ turns) ∧ Sleeps j r' outcome wake (x.run (events ++ turns)) ∧
      x.Unhurried start (events ++ turns) wake := by
  -- with every turn there is one reply fewer that is under way
  induction hcount : (x.run events).replies.countP (·.state.stage?.isSome) using Nat.strongRecOn
    generalizing events now r with
  | ind n ih =>
    obtain ⟨instant, k, r', outcome', wake', hle, hfirst, hquiet, hother, hwakes⟩ :=
      h.exists_first hnow
    have hclock := hclock.passes hle hquiet
    by_cases hself : k = j
    · -- it is time for the call itself
      subst hself
      obtain rfl := h.wake_unique hother
      obtain rfl := Nat.le_antisymm hfirst hwakes
      refine ⟨[], r, fun _ => List.not_mem_nil, ?_, ?_⟩
      · rwa [List.append_nil]
      · rwa [List.append_nil]
    · have hearly : ∀ time, Event.turnReply instant k = .turnReply time j → time < wake := by
        rintro time ⟨⟩
        exact absurd rfl hself
      obtain ⟨r'', hafter⟩ := h.step hearly nofun
      have hfewer := hother.countP_lt hwakes
      rw [← run_concat] at hafter hfewer
      obtain ⟨turns, r₀, hcancel, hsleeps, hclock⟩ :=
        ih _ (hcount ▸ hfewer) hafter (hclock.happens (.inr rfl)) hfirst rfl
      refine ⟨.turnReply instant k :: turns, r₀, fun i hmem => ?_, ?_, ?_⟩
      · exact hcancel i ((List.mem_cons.mp hmem).resolve_left nofun)
      · rwa [List.append_assoc] at hsleeps
      · rwa [List.append_assoc] at hclock

/-- The run can go on until the call has handed its outcome over. -/
theorem Slept.returns (h : x.Slept events j outcome wake now) (hclock : x.Unhurried start events now) :
    ∃ more later, (∀ k, .cancelReply k ∉ more) ∧ x.Unhurried start (events ++ more) later ∧
      x.HandedOver (events ++ more) j outcome wake := by
  cases h with
  | asleep r hsleeps hnow =>
    obtain ⟨turns, r', hcancel, hsleeps', hclock'⟩ := hsleeps.exists_turns hclock hnow
    refine ⟨turns ++ [.turnReply wake j], wake, fun k hmem => ?_, ?_, ?_⟩
    · rcases List.mem_append.mp hmem with hmem | hlast
      · exact hcancel k hmem
      · cases List.mem_singleton.mp hlast
    · rw [← List.append_assoc]
      exact hclock'.happens (.inr rfl)
    · rw [← List.append_assoc]
      exact hsleeps'.handedOver
  | delivered h =>
    refine ⟨[], now, fun _ => List.not_mem_nil, ?_, h.append []⟩
    rwa [List.append_nil]

/-! ## Replies that begin -/

theorem delivers_of_beginReply (start : Nat) (t : TaskId) (h : answers r outcome = true)
    (hzero : x.network.nextLatency = 0) :
    x.Delivers (.beginReply start t r outcome) x.replies.length r outcome start x.network.roll.2 := by
  have hturn := beginReply_atOnce start h hzero
  refine ⟨?_, _, List.getElem?_concat_length, ?_⟩
  · show (x.network.beginReply start r outcome).1 = _
    rw [hturn]
  · dsimp only
    rw [hturn]
    rfl

theorem sleeps_of_beginReply (start : Nat) (t : TaskId) (h : answers r outcome = true)
    (hne : x.network.nextLatency ≠ 0) :
    (x.step (.beginReply start t r outcome)).network = x.network.roll.2 ∧
      Sleeps x.replies.length r outcome (Sleep.wake start x.network.nextLatency.toNat)
        (x.step (.beginReply start t r outcome)) := by
  have hturn := beginReply_delayed start h hne
  refine ⟨?_, _, List.getElem?_concat_length, ?_⟩
  · show (x.network.beginReply start r outcome).1 = _
    rw [hturn]
  · dsimp only
    rw [hturn]
    rfl

/-- A reply that begins with the latency `ms`, and what has become of it by the time `now`. -/
structure TakesLatency (x : Traffic) (start : Nat) (t : TaskId) (r : Request) (outcome : Outcome)
    (ms : Nat) (after : List Event) (now : Nat) : Prop where
  /-- Without latency it hands the outcome over in its first turn. -/
  atOnce : ms = 0 →
    x.Delivers (.beginReply start t r outcome) x.replies.length r outcome start x.network.roll.2
  /-- Otherwise it has only drawn the latency in that turn, and hands the outcome over when the latency is
  over, or after thirty years. -/
  delayed : ms ≠ 0 → (x.step (.beginReply start t r outcome)).network = x.network.roll.2 ∧
    (x.step (.beginReply start t r outcome)).Slept after x.replies.length outcome
      (start + Sleep.span ms) now
  /-- And the run can always go on to that time. -/
  returns : ms ≠ 0 → ∃ more later, (∀ k, .cancelReply k ∉ more) ∧
    (x.step (.beginReply start t r outcome)).Unhurried start (after ++ more) later ∧
    (x.step (.beginReply start t r outcome)).HandedOver (after ++ more) x.replies.length outcome
      (start + Sleep.span ms)

theorem takesLatency (t : TaskId) (h : answers r outcome = true)
    (hclock : (x.step (.beginReply start t r outcome)).Unhurried start after now)
    (hcancel : .cancelReply x.replies.length ∉ after) :
    x.TakesLatency start t r outcome x.network.nextLatency.toNat after now := by
  have hlater (hne : x.network.nextLatency.toNat ≠ 0) :
      (x.step (.beginReply start t r outcome)).network = x.network.roll.2 ∧
        (x.step (.beginReply start t r outcome)).Slept after x.replies.length outcome
          (start + Sleep.span x.network.nextLatency.toNat) now := by
    have hlatency : x.network.nextLatency ≠ 0 := fun hzero => hne (congrArg UInt64.toNat hzero)
    obtain ⟨hnetwork, hsleeps⟩ := sleeps_of_beginReply start t h hlatency
    exact ⟨hnetwork, hsleeps.run (Nat.le_add_right _ _) hclock hcancel⟩
  constructor
  case atOnce => exact fun hzero => delivers_of_beginReply start t h (UInt64.toNat_inj.mp hzero)
  case delayed => exact hlater
  case returns => exact fun hne => (hlater hne).2.returns hclock

/-- The latencies are what they should be, with all settings. And in every run, a reply that answers its
request takes exactly the latency that is drawn for it, or thirty years if that is less, however the others
get their turns and whatever happens to the nodes. If the nominal latency is below ten it takes none. -/
theorem replies_take_their_latency (settings : Settings) (dice : Nat → UInt64) :
    Latency.Proper settings.latency ∧
      ∀ (before : List Event) (start : Nat) (t : TaskId) (r : Request) (outcome : Outcome),
        answers r outcome = true →
        (settings.latency.toNat < 10 →
          (reached settings dice before).Delivers (.beginReply start t r outcome)
            (reached settings dice before).replies.length r outcome start
            (reached settings dice before).network.roll.2) ∧
        ∀ (after : List Event) (now : Nat),
          ((reached settings dice before).step (.beginReply start t r outcome)).Unhurried start after now →
          .cancelReply (reached settings dice before).replies.length ∉ after →
          (reached settings dice before).TakesLatency start t r outcome
            (Latency.sampleAny settings.latency (reached settings dice before).network.roll.1).toNat
            after now := by
  refine ⟨Latency.proper settings.latency, fun before start t r outcome h => ?_⟩
  have hfresh : Lawful { network := { settings, dice } } := lawful_reached settings dice []
  have hsettings : (reached settings dice before).network.settings = settings := hfresh.settings before
  have hlatency : (reached settings dice before).network.nextLatency =
      Latency.sampleAny settings.latency (reached settings dice before).network.roll.1 := by
    rw [nextLatency, hsettings]
  rw [← hlatency]
  refine ⟨fun hlt => delivers_of_beginReply start t h ?_, fun after now => takesLatency t h⟩
  rw [hlatency]
  exact Latency.sampleAny_of_lt_ten hlt _

section

/-- A request of a client to the node. -/
private def query (number : UInt64) : Request where
  requestor := "c"
  target := "s"
  callId := number

/-- Two requests have been sent. -/
private def queries : List Event :=
  [.register 0 "s", .beginSend 0 0 (query 1), .beginSend 1 1 (query 2)]

/-- The reply to the first request. -/
private def firstResponse : Event := .beginReply 2 2 (query 1) (.ok ((query 1).answer "yes"))

/-- The nominal latency is 150, and the number that is drawn is 4, so a reply takes 14. -/
private def queried : Traffic := reached { latency := 150 } (fun _ => 4) queries

/-- The reply to the other request begins later, and both are handed over. -/
private def responses : List Event :=
  [.beginReply 9 3 (query 2) (.error (.internal "broken")), .turnReply 16 0, .turnSend 16 0,
    .turnReply 23 1, .turnSend 23 1]

theorem replies_take_their_latency_side_by_side :
    answers (query 1) (.ok ((query 1).answer "yes")) = true ∧
      (queried.step firstResponse).Unhurried 2 responses 23 ∧
      ((queried.step firstResponse).run responses).sends.map (·.state) =
        [.ended (.received (.ok ((query 1).answer "yes"))),
          .ended (.received (.error (.internal "broken")))] ∧
      queried.TakesLatency 2 2 (query 1) (.ok ((query 1).answer "yes")) 14 responses 23 := by
  have hstart : (queried.step firstResponse).Unhurried 2 [] 2 := .start
  have hbegun := hstart.goOn (.beginReply 9 3 (query 2) (.error (.internal "broken"))) rfl (by decide)
    (by decide +kernel)
  have hfirst := (hbegun.goOn (.turnReply 16 0) rfl (by decide) (by decide +kernel)).goOn
    (.turnSend 16 0) rfl (by decide) (by decide +kernel)
  have hclock : (queried.step firstResponse).Unhurried 2 responses 23 :=
    (hfirst.goOn (.turnReply 23 1) rfl (by decide) (by decide +kernel)).goOn
      (.turnSend 23 1) rfl (by decide) (by decide +kernel)
  refine ⟨by decide, hclock, by rfl, ?_⟩
  exact ((replies_take_their_latency { latency := 150 } fun _ => 4).2 queries 2 2 (query 1)
    (.ok ((query 1).answer "yes")) (by decide)).2 responses 23 hclock (by simp [responses])

/-- The nominal latency is a hundred thousand thousand million milliseconds. -/
private def remote : Settings := { latency := 100000000000000 }

/-- The first reply on a network that far away, as it begins. -/
private def remotely : Traffic := (reached remote (fun _ => 0) queries).step firstResponse

/-- Every latency is more than thirty years, and a reply is handed over after thirty years. -/
theorem latency_over_after_thirty_years :
    remotely.Unhurried 2 [.turnReply 946080000002 0] 946080000002 ∧
      remotely.HandedOver [.turnReply 946080000002 0] 0 (.ok ((query 1).answer "yes")) 946080000002 ∧
      ∀ number, 946080000002 ≠ 2 + (Latency.sampleAny remote.latency number).toNat := by
  have hsleeps : Sleeps 0 (query 1) (.ok ((query 1).answer "yes")) 946080000002 (remotely.run []) :=
    ⟨_, rfl, rfl⟩
  refine ⟨?_, hsleeps.handedOver, fun number hsame => ?_⟩
  · exact Unhurried.start.goOn (.turnReply 946080000002 0) rfl (by decide) (by decide +kernel)
  · have hlow := Latency.le_sampleAny remote.latency number
    rw [Latency.toNat_spread, Latency.toNat_middle] at hlow
    have hnominal : remote.latency.toNat = 100000000000000 := rfl
    omega

end

end Traffic

end Replica
