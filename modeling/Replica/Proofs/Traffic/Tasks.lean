import Replica.Proofs.Traffic.Steps

/-!
# What a task does on a network

A task begins calls, gives them their turns and cancels them, and leaves the calls of other tasks
alone (`Does`). `Leads` says of a network that some of this leads to it; there is one such statement
for each thing that a task can do, and they are put together with `Leads.bind`.
-/

namespace Replica

variable {t u : TaskId} {now : Nat}

/-- The stage, if the task waits at one, is as required. -/
def Progress.Waits {τ α : Type} (P : τ → Prop) : Progress τ α → Prop
  | waiting stage => P stage
  | ended _ => True

/-- The stage is as required in other terms. -/
theorem Progress.Waits.map {τ υ α β : Type} {P : υ → Prop} (stage : τ → υ) (result : α → β)
    {p : Progress τ α} (h : p.Waits fun s => P (stage s)) : (p.map stage result).Waits P := by
  cases p with
  | waiting s => exact h
  | ended a => trivial

/-! ## Calls of a task -/

section

variable {γ τ α : Type} {task : γ → TaskId} {state : γ → CallState τ α} {calls : List γ}
variable {stage : τ}

/-- A call of the task is under way at the stage. -/
def HasStage (task : γ → TaskId) (state : γ → CallState τ α) (calls : List γ) (t : TaskId)
    (stage : τ) : Prop :=
  ∃ (i : Nat) (call : γ), calls[i]? = some call ∧ task call = t ∧ state call = .underWay stage

/-- A call stays under way when another one begins. -/
theorem HasStage.concat (h : HasStage task state calls t stage) (call : γ) :
    HasStage task state (calls ++ [call]) t stage := by
  obtain ⟨i, held, found, hheld⟩ := h
  exact ⟨i, held, getElem?_concat_of_some call found, hheld⟩

/-- A call of the task is under way when it has begun. -/
theorem hasStage_concat {call : γ} (htask : task call = t) (hstate : state call = .underWay stage) :
    HasStage task state (calls ++ [call]) t stage :=
  ⟨calls.length, call, List.getElem?_concat_length, htask, hstate⟩

/-- A change of another task's call does not matter. -/
theorem HasStage.modify (h : HasStage task state calls u stage) {i : Nat} {call : γ} {f : γ → γ}
    (found : calls[i]? = some call) (hne : u ≠ task call) :
    HasStage task state (calls.modify i f) u stage := by
  obtain ⟨j, held, hj, htask, hstate⟩ := h
  refine ⟨j, held, getElem?_modify_eq_some_iff.mpr ⟨held, hj, if_neg ?_⟩, htask, hstate⟩
  rintro rfl
  obtain rfl := Option.some.inj (hj.symm.trans found)
  exact hne htask.symm

/-- A call of the task is under way at the stage that it has come to. -/
theorem hasStage_modify {i : Nat} {call : γ} {f : γ → γ} (found : calls[i]? = some call)
    (htask : task (f call) = t) (hstate : state (f call) = .underWay stage) :
    HasStage task state (calls.modify i f) t stage :=
  ⟨i, f call, getElem?_modify_eq_some_iff.mpr ⟨call, found, if_pos rfl⟩, htask, hstate⟩

/-- A call stays under way when all calls are changed, at the stage that it is changed to. -/
theorem HasStage.map {stage' : τ} (h : HasStage task state calls t stage) {f : γ → γ}
    (htask : ∀ call, task (f call) = task call)
    (hstate : ∀ call, state call = .underWay stage → state (f call) = .underWay stage') :
    HasStage task state (calls.map f) t stage' := by
  obtain ⟨i, call, found, hcall, hstage⟩ := h
  refine ⟨i, f call, ?_, (htask call).trans hcall, hstate call hstage⟩
  rw [List.getElem?_map, found]
  rfl

end

namespace Traffic

variable {x y z : Traffic} {net : Network} {P Q : Traffic → Prop}

abbrev SendsAt (x : Traffic) : TaskId → Sending → Prop :=
  HasStage SendCall.task SendCall.state x.sends

abbrev TakesAt (x : Traffic) : TaskId → Taking → Prop :=
  HasStage TakeCall.task TakeCall.state x.takes

abbrev RepliesAt (x : Traffic) : TaskId → Replying → Prop :=
  HasStage ReplyCall.task ReplyCall.state x.replies

/-- From `x` to `y` something happens that leaves the calls of tasks other than `t` alone. -/
structure Does (t : TaskId) (x y : Traffic) : Prop where
  run : ∃ events, y = x.run events
  sends : ∀ u stage, u ≠ t → x.SendsAt u stage → y.SendsAt u stage
  takes : ∀ u stage, u ≠ t → x.TakesAt u stage → y.TakesAt u stage
  replies : ∀ u stage, u ≠ t → x.RepliesAt u stage → y.RepliesAt u stage

/-- Nothing happens to anybody's calls if nothing happens. -/
theorem Does.refl (t : TaskId) (x : Traffic) : Does t x x :=
  ⟨⟨[], rfl⟩, fun _ _ _ => id, fun _ _ _ => id, fun _ _ _ => id⟩

/-- What leaves the calls of other tasks alone in two steps does so altogether. -/
theorem Does.trans (h : Does t x y) (h' : Does t y z) : Does t x z where
  run := by
    obtain ⟨events, rfl⟩ := h.run
    obtain ⟨events', rfl⟩ := h'.run
    exact ⟨events ++ events', (run_append x events events').symm⟩
  sends u stage hne hu := h'.sends u stage hne (h.sends u stage hne hu)
  takes u stage hne hu := h'.takes u stage hne (h.takes u stage hne hu)
  replies u stage hne hu := h'.replies u stage hne (h.replies u stage hne hu)

/-- What the task does leads to the network, and to traffic as required. -/
def Leads (t : TaskId) (x : Traffic) (net : Network) (P : Traffic → Prop) : Prop :=
  ∃ y, Does t x y ∧ y.network = net ∧ P y

/-- Where nothing happens, the network and the traffic are as they were. -/
theorem Leads.refl (hnet : x.network = net) (hP : P x) : Leads t x net P :=
  ⟨x, .refl t x, hnet, hP⟩

/-- What one step leads to is what the next begins with. -/
theorem Leads.bind {net' : Network} (h : Leads t x net P)
    (hnext : ∀ y, y.network = net → P y → Leads t y net' Q) : Leads t x net' Q := by
  obtain ⟨y, hdoes, hnet, hP⟩ := h
  obtain ⟨z, hdoes', hnet', hQ⟩ := hnext y hnet hP
  exact ⟨z, hdoes.trans hdoes', hnet', hQ⟩

/-- What leads to more leads to less. -/
theorem Leads.mono (h : Leads t x net P) (hPQ : ∀ y, P y → Q y) : Leads t x net Q := by
  obtain ⟨y, hdoes, hnet, hP⟩ := h
  exact ⟨y, hdoes, hnet, hPQ y hP⟩

/-- An event that changes the network only. -/
theorem leads_of_step (event : Event) (hstep : x.step event = { x with network := net })
    (hP : P { x with network := net }) : Leads t x net P :=
  ⟨{ x with network := net },
    ⟨⟨[event], hstep.symm⟩, fun _ _ _ => id, fun _ _ _ => id, fun _ _ _ => id⟩, rfl, hP⟩

/-- A note in the journal is no call's business. -/
theorem leads_note (now : Nat) (what : Occurrence) :
    Leads t x (x.network.note now what) fun _ => True :=
  leads_of_step (.note now what) rfl trivial

/-- Neither are several notes. -/
theorem leads_notes {α : Type} (now : Nat) (what : α → Occurrence) (l : List α) (x : Traffic) :
    Leads t x (l.foldl (fun net a => net.note now (what a)) x.network) fun _ => True := by
  induction l generalizing x with
  | nil => exact .refl rfl trivial
  | cons a l ih =>
    refine (leads_note now (what a)).bind fun y hnet _ => ?_
    rw [List.foldl_cons, ← hnet]
    exact ih y

/-! ### Sending -/

/-- A task that sends on the network makes a call that sends in the traffic, and both stand at one
stage. -/
theorem leads_beginSend (now : Nat) (t : TaskId) (r : Request) (x : Traffic) :
    Leads t x (x.network.beginSend now r).1
      fun y => (x.network.beginSend now r).2.Waits (y.SendsAt t) := by
  refine ⟨x.beginSend now t r, ⟨⟨[.beginSend now t r], rfl⟩, fun _ _ _ hu => hu.concat _,
    fun _ _ _ => id, fun _ _ _ => id⟩, rfl, ?_⟩
  unfold Traffic.beginSend
  cases hprogress : (x.network.beginSend now r).2 with
  | waiting stage =>
    refine hasStage_concat rfl ?_
    rw [SendCall.after, hprogress]
    rfl
  | ended outcome => trivial

/-- A task that goes on sending has its call go on. -/
theorem leads_turnSend (now : Nat) {stage : Sending} (h : x.SendsAt t stage) :
    Leads t x (x.network.turnSend now stage).1
      fun y => (x.network.turnSend now stage).2.Waits (y.SendsAt t) := by
  obtain ⟨i, call, found, htask, hstate⟩ := h
  refine ⟨_, ⟨⟨[.turnSend now i], (turnSend_eq found hstate now).symm⟩,
    fun u _ hne hu => hu.modify found (htask ▸ hne), fun _ _ _ => id, fun _ _ _ => id⟩, rfl, ?_⟩
  -- the call is where the network says that the sender waits
  cases hprogress : (x.network.turnSend now stage).2 with
  | waiting stage' =>
    refine hasStage_modify found htask ?_
    rw [SendCall.after, hprogress]
    rfl
  | ended outcome => trivial

/-- A task that gives up sending has its call cancelled. -/
theorem leads_cancelSend {stage : Sending} (h : x.SendsAt t stage) :
    Leads t x (x.network.cancelSend stage) fun _ => True := by
  obtain ⟨i, call, found, htask, hstate⟩ := h
  exact ⟨_, ⟨⟨[.cancelSend i], (cancelSend_eq found hstate).symm⟩,
    fun u _ hne hu => hu.modify found (htask ▸ hne), fun _ _ _ => id, fun _ _ _ => id⟩, rfl, trivial⟩

/-! ### Taking -/

/-- A task that takes on the network makes a call that takes in the traffic. -/
theorem leads_beginTake (now : Nat) (t : TaskId) (node : PeerId) (x : Traffic) :
    Leads t x (x.network.beginTake now t node).1
      fun y => (x.network.beginTake now t node).2.Waits (y.TakesAt t) := by
  refine ⟨x.beginTake now t node, ⟨⟨[.beginTake now t node], rfl⟩, fun _ _ _ => id,
    fun _ _ _ hu => hu.concat _, fun _ _ _ => id⟩, rfl, ?_⟩
  unfold Traffic.beginTake
  cases hprogress : (x.network.beginTake now t node).2 with
  | waiting stage => exact hasStage_concat rfl (congrArg (CallState.ofProgress id) hprogress)
  | ended result => trivial

/-- A task that goes on taking has its call go on. -/
theorem leads_turnTake (now : Nat) {stage : Taking} (h : x.TakesAt t stage) :
    Leads t x (x.network.turnTake now t stage).1
      fun y => (x.network.turnTake now t stage).2.Waits (y.TakesAt t) := by
  obtain ⟨i, call, found, rfl, hstate⟩ := h
  refine ⟨_, ⟨⟨[.turnTake now i], (turnTake_eq found hstate now).symm⟩, fun _ _ _ => id,
    fun u _ hne hu => hu.modify found hne, fun _ _ _ => id⟩, rfl, ?_⟩
  cases hprogress : (x.network.turnTake now call.task stage).2 with
  | waiting stage' => exact hasStage_modify found rfl rfl
  | ended result => trivial

/-- A task that gives up taking has its call cancelled. -/
theorem leads_cancelTake {stage : Taking} (h : x.TakesAt t stage) :
    Leads t x (x.network.cancelTake t stage) fun _ => True := by
  obtain ⟨i, call, found, rfl, hstate⟩ := h
  exact ⟨_, ⟨⟨[.cancelTake i], (cancelTake_eq found hstate).symm⟩, fun _ _ _ => id,
    fun u _ hne hu => hu.modify found hne, fun _ _ _ => id⟩, rfl, trivial⟩

/-! ### Replying -/

/-- A task that replies on the network makes a call that replies in the traffic. -/
theorem leads_beginReply (now : Nat) (t : TaskId) (r : Request) (outcome : Outcome) (x : Traffic) :
    Leads t x (x.network.beginReply now r outcome).1
      fun y => (x.network.beginReply now r outcome).2.Waits (y.RepliesAt t) := by
  refine ⟨x.beginReply now t r outcome, ⟨⟨[.beginReply now t r outcome], rfl⟩, fun _ _ _ => id,
    fun _ _ _ => id, fun _ _ _ hu => hu.concat _⟩, rfl, ?_⟩
  unfold Traffic.beginReply
  cases hprogress : (x.network.beginReply now r outcome).2 with
  | waiting stage =>
    exact hasStage_concat rfl
      (congrArg (CallState.ofProgress (ReplyEnd.of (x.network.caller? r))) hprogress)
  | ended result => trivial

/-- A task that goes on replying has its call go on. -/
theorem leads_turnReply (now : Nat) {stage : Replying} (h : x.RepliesAt t stage) :
    Leads t x (x.network.turnReply now stage).1
      fun y => (x.network.turnReply now stage).2.Waits (y.RepliesAt t) := by
  obtain ⟨j, call, found, htask, hstate⟩ := h
  refine ⟨_, ⟨⟨[.turnReply now j], (turnReply_eq found hstate now).symm⟩, fun _ _ _ => id,
    fun _ _ _ => id, fun u _ hne hu => hu.modify found (htask ▸ hne)⟩, rfl, ?_⟩
  cases hprogress : (x.network.turnReply now stage).2 with
  | waiting stage' => exact hasStage_modify found htask rfl
  | ended result => trivial

end Traffic

end Replica
