import Replica.Proofs.Proxy.Following

/-!
# Timed runs of a proxy map

A run at given times is a list of commands: peers are registered, calls begin and are cancelled, and in
between time passes. Which call is cancelled is told by its number among the calls on its peer, so the
command means the same call when there are fewer calls on other peers.

A command that is not about a peer does nothing to the peer's part, nor to the order in which the calls on
the peer get their turns (`Alike.skip`). Any other command does the same to the part whatever the rest of
the map is like (`Alike.carryOut`), and so does the passing of time (`Alike.wait`).
-/

namespace Replica.ProxyMap

/-- What is done to a proxy map. -/
inductive Command where
  | register (peer : Peer)
  | begin (call : ProxyCall)
  /-- Cancels the `n`-th call on the peer, or the `n`-th close. -/
  | cancel (target : Option PeerId) (n : Nat)
  | wait (ms : Nat)

/-- The peer that a command is about, if it is about calls on one peer. -/
def Command.target? : Command → Option PeerId
  | .begin call => call.target?
  | .cancel target _ => target
  | .register _ | .wait _ => none

/-- Whether a command may matter to the peer. -/
def Command.concerns (id : PeerId) (command : Command) : Bool := command.target?.all (· = id)

/-- Calls that begin at the same instant all begin before anybody gets a turn. Whoever is to get a turn in
between gets it with `wait 0`. -/
def carryOut (factory : Factory) (moment : Moment ProxyMap) : Command → Moment ProxyMap
  | .register peer => { moment with state := moment.state.register peer }
  | .begin call => { moment with state := moment.state.begin moment.now factory call }
  | .cancel target n => { moment with state := (moment.state.cancel (moment.state.nth target n)).1 }
  | .wait ms => (schedule factory).wait ms ((schedule factory).settle moment)

/-- The moment that the commands lead to from a new map. -/
def perform (name : String) (factory : Factory) (commands : List Command) : Moment ProxyMap :=
  commands.foldl (carryOut factory) { state := { name } }

/-- A call that begins and then everybody who can go on. -/
example (factory : Factory) (call : ProxyCall) (a : Moment ProxyMap) :
    carryOut factory (carryOut factory a (.begin call)) (.wait 0) =
      (schedule factory).act (fun now m => m.begin now factory call) a := rfl

variable {m m' : ProxyMap} {id k : PeerId} {t u : TaskId} {now n : Nat}
variable {factory factory' : Factory} {call : ProxyCall} {target : Option PeerId}
variable {a b : Moment ProxyMap} {command : Command}

/-! ## Cancellations by number -/

theorem cancel_of_none (hnone : m.stage? t = none) : (m.cancel t).1 = m := by
  simp only [cancel, hnone]

theorem cancelClosing_of_none (hnone : m.stage? t = none) : m.cancelClosing t = m := by
  simp only [cancelClosing, duties, hnone, Option.elim_none, List.foldl_nil, setStage_of_none hnone]

theorem stage?_of_calls_length (id : PeerId) (h : t = m.calls.length) : m.stage? t = none ∧
    (m.part id).stage? ((m.ranks id).call t) = none := by
  have hlength : t = m.tasks.length := by rw [h, calls, List.length_map]
  rw [hlength, ← length_part_tasks]
  exact ⟨stage?_length, stage?_length⟩

/-- A call on the peer is cancelled, if there are as many. -/
theorem part_cancel_nth (hm : m.Separate) (id : PeerId) (n : Nat) :
    (m.cancel (m.nth (some id) n)).1.part id = ((m.part id).cancel ((m.part id).nth (some id) n)).1 := by
  rw [nth_part (by simp)]
  rcases nth_cases (some id) n m with ⟨call, s, htask, hcall⟩ | hnone
  · exact part_cancel hm htask hcall
  · obtain ⟨hstage, hstage'⟩ := stage?_of_calls_length id hnone
    rw [cancel_of_none hstage, cancel_of_none hstage']

/-- A close is cancelled. -/
theorem part_cancel_nth_close (hm : m.Separate) (id : PeerId) (n : Nat) :
    (m.cancel (m.nth none n)).1.part id = (m.part id).cancelClosing ((m.part id).nth none n) := by
  rw [nth_part rfl]
  rcases nth_cases none n m with ⟨call, s, htask, hcall⟩ | hnone
  · cases target?_eq_none_iff.mp hcall
    exact part_cancel_close hm htask
  · obtain ⟨hstage, hstage'⟩ := stage?_of_calls_length id hnone
    rw [cancel_of_none hstage, cancelClosing_of_none hstage']

/-- A call on another peer is cancelled. -/
theorem part_cancel_nth_of_ne (hm : m.Separate) (hk : k ≠ id) (n : Nat) :
    (m.cancel (m.nth (some k) n)).1.part id = m.part id := by
  rcases nth_cases (some k) n m with ⟨call, s, htask, hcall⟩ | hnone
  · exact part_cancel_of_ne hm htask hcall hk
  · rw [cancel_of_none (stage?_of_calls_length id hnone).1]

/-! ## Moments of a run -/

/-- A moment at which a proxy map can be. -/
structure OfRun (factory : Factory) (a : Moment ProxyMap) : Prop where
  reached : a.state.IsReached
  inLine : (schedule factory).InLine a

theorem size_eq (factory : Factory) (m : ProxyMap) : (schedule factory).size m = m.calls.length :=
  (List.length_map ..).symm

theorem OfRun.new (name : String) (factory : Factory) : OfRun factory { state := { name } } :=
  ⟨⟨name, [], rfl⟩, Nat.zero_le _, fun _ ht => absurd ht (Nat.not_lt_zero _)⟩

/-- Something happens, and nobody has had a turn yet. -/
theorem OfRun.change (h : OfRun factory a) (hm' : m'.IsReached) {new : List ProxyCall}
    (hcalls : m'.calls = a.state.calls ++ new) : OfRun factory { a with state := m' } := by
  refine ⟨hm', Nat.le_trans h.inLine.length_le ?_, h.inLine.mem⟩
  rw [size_eq, size_eq, hcalls, List.length_append]
  exact Nat.le_add_right ..

/-- The calls on the peer, in the order in which those that can go on get their turns. -/
def turnOrder (factory : Factory) (id : PeerId) (a : Moment ProxyMap) : List TaskId :=
  Schedule.ownLine (isOn id a.state.calls) (numberFor id a.state.calls) ((schedule factory).enlist a).line

/-- Nothing changes in the order when no call begins. -/
theorem turnOrder_of_calls (hcalls : m'.calls = a.state.calls) :
    turnOrder factory id { a with state := m' } = turnOrder factory id a := by
  have hline : ((schedule factory).enlist { a with state := m' }).line =
      ((schedule factory).enlist a).line := by
    simp only [Schedule.enlist, size_eq, hcalls]
  simp only [turnOrder, hline, hcalls]

/-- A call that begins comes last. -/
theorem turnOrder_of_begun (h : OfRun factory a) (hcalls : m'.calls = a.state.calls ++ [call]) :
    turnOrder factory id { a with state := m' } = turnOrder factory id a ++
      if call.target? = some id then [(a.state.part id).calls.length] else [] := by
  have hle := h.inLine.length_le
  rw [size_eq] at hle
  have hline : ((schedule factory).enlist { a with state := m' }).line =
      ((schedule factory).enlist a).line ++ [a.state.calls.length] := by
    obtain ⟨k, hk⟩ := Nat.exists_eq_add_of_le hle
    simp only [Schedule.enlist, size_eq, hcalls, List.length_append, List.length_singleton, hk]
    rw [Nat.add_assoc, Nat.add_sub_cancel_left, Nat.add_sub_cancel_left, List.range'_concat,
      List.append_assoc, Nat.one_mul]
  have hold : ∀ t ∈ ((schedule factory).enlist a).line,
      isOn id m'.calls t = isOn id a.state.calls t ∧
        numberFor id m'.calls t = numberFor id a.state.calls t := by
    intro t ht
    have hlt := h.inLine.lt_of_mem_enlist ht
    rw [size_eq] at hlt
    rw [hcalls]
    refine ⟨?_, countPBefore_append (Nat.le_of_lt hlt)⟩
    simp only [isOn, List.getElem?_append_left hlt]
  have hnew : isOn id m'.calls a.state.calls.length = decide (call.target? = some id) := by
    simp [isOn, hcalls]
  have hnumber : numberFor id m'.calls a.state.calls.length = (a.state.part id).calls.length := by
    rw [numberFor, hcalls, countPBefore_append (Nat.le_refl _), countPBefore_length_eq, calls_part]
  simp only [turnOrder, Schedule.ownLine, hline, List.filter_append, List.map_append]
  congr 1
  · rw [List.filter_congr fun t ht => (hold t ht).1]
    exact List.map_congr_left fun t ht => (hold t (List.mem_filter.mp ht).1).2
  · by_cases hcall : call.target? = some id <;> simp [hnew, hcall, hnumber]

/-- Turns come to an end, and nobody wakes unannounced. -/
theorem punctual_reached (factory : Factory) : (schedule factory).Punctual IsReached :=
  (punctual factory).of_imp (fun _ hm => hm.separate) fun now t _ hm => hm.turn now factory t

theorem OfRun.settle (h : OfRun factory a) :
    (schedule factory).Rested IsReached ((schedule factory).settle a) :=
  (punctual_reached factory).settle_rested h.inLine h.reached

theorem OfRun.of_rested (h : (schedule factory).Rested IsReached a) : OfRun factory a :=
  ⟨h.holds, h.inLine⟩

theorem turnOrder_of_rested (h : (schedule factory).Rested IsReached a) : turnOrder factory id a =
    Schedule.ownLine (isOn id a.state.calls) (numberFor id a.state.calls) a.line := by
  rw [turnOrder, Schedule.enlist_of_length_eq h.length_eq]

/-- When everybody waits, the close does not go on if it is hastened. -/
theorem hasten_of_rested (h : (schedule factory).Rested IsReached a) (id : PeerId) :
    (a.state.part id).hasten a.now = a.state.part id :=
  h.holds.hasten_of_waiting id (h.quiet _)

/-! ## Moments that are alike for a peer -/

/-- At the two moments the peer's part is the same, and the calls on the peer are to get their turns in the
same order. -/
structure Alike (factory factory' : Factory) (id : PeerId) (a b : Moment ProxyMap) : Prop where
  ofRun : OfRun factory a
  ofRun' : OfRun factory' b
  now_eq : a.now = b.now
  part_eq : a.state.part id = b.state.part id
  order_eq : turnOrder factory id a = turnOrder factory' id b

namespace Alike

theorem new (name : String) (factory factory' : Factory) (id : PeerId) :
    Alike factory factory' id { state := { name } } { state := { name } } :=
  ⟨.new name factory, .new name factory', rfl, rfl, rfl⟩

/-- Something happens in both maps, and no call begins. -/
theorem change (h : Alike factory factory' id a b) {m₁ m₂ : ProxyMap} (hm₁ : m₁.IsReached)
    (hm₂ : m₂.IsReached) (hcalls₁ : m₁.calls = a.state.calls) (hcalls₂ : m₂.calls = b.state.calls)
    (hpart : m₁.part id = m₂.part id) :
    Alike factory factory' id { a with state := m₁ } { b with state := m₂ } where
  ofRun := h.ofRun.change hm₁ (hcalls₁.trans (List.append_nil _).symm)
  ofRun' := h.ofRun'.change hm₂ (hcalls₂.trans (List.append_nil _).symm)
  now_eq := h.now_eq
  part_eq := hpart
  order_eq := (turnOrder_of_calls hcalls₁).trans (h.order_eq.trans (turnOrder_of_calls hcalls₂).symm)

/-- What is not about the peer does not matter to it. -/
theorem skip (h : Alike factory factory' id a b) (hcommand : command.target? = some k) (hk : k ≠ id) :
    Alike factory factory' id (carryOut factory a command) b := by
  have hm := h.ofRun.reached
  cases command with
  | register | wait => cases hcommand
  | begin call =>
    have hcall : call.target? = some k := hcommand
    refine ⟨h.ofRun.change (hm.step (.begin a.now factory call)) calls_begin, h.ofRun', h.now_eq, ?_, ?_⟩
    · exact (part_begin_of_ne hm.separate hcall hk).trans h.part_eq
    · refine (turnOrder_of_begun h.ofRun calls_begin).trans ?_
      rw [hcall, if_neg (by simpa using hk), List.append_nil, h.order_eq]
  | cancel target n =>
    have htarget : target = some k := hcommand
    subst htarget
    refine h.change (hm.step (.cancel _)) h.ofRun'.reached calls_cancel rfl ?_
    exact (part_cancel_nth_of_ne hm.separate hk n).trans h.part_eq

/-! ## Time -/

/-- Once everybody who can go on has done so, the peer's part is the same again. -/
theorem settle (hfactory : Factory.AgreeOn id factory factory') (h : Alike factory factory' id a b) :
    Alike factory factory' id ((schedule factory).settle a) ((schedule factory').settle b) := by
  have hrested := h.ofRun.settle
  have hrested' := h.ofRun'.settle
  have hnow : ((schedule factory).settle a).now = a.now := Schedule.now_settle
  have hnow' : ((schedule factory').settle b).now = a.now := Schedule.now_settle.trans h.now_eq.symm
  have hquiet : (schedule factory).IsQuiet a.now ((schedule factory).turns ((schedule factory).effort a.state)
      ((schedule factory).enlist a)).state := hnow ▸ hrested.quiet
  have hquiet' : (schedule factory').IsQuiet a.now ((schedule factory').turns
      ((schedule factory').effort b.state) ((schedule factory').enlist b)).state := hnow' ▸ hrested'.quiet
  have hhere : ((schedule factory).enlist a).now = a.now := rfl
  have hhere' : ((schedule factory').enlist b).now = a.now := h.now_eq.symm
  obtain ⟨p, ⟨-, hcalls, hpart⟩, ⟨-, hcalls', hpart'⟩, hline⟩ :=
    (tracks hfactory a.state.calls a.now).settled_alike (tracks hfactory.right b.state.calls a.now)
      hhere hhere' ⟨h.ofRun.reached, rfl, rfl⟩ ⟨h.ofRun'.reached, rfl, h.part_eq ▸ rfl⟩
      h.order_eq hquiet hquiet'
  have hpart : (((schedule factory).settle a).state.part id).hasten a.now = p := hpart
  have hpart' : (((schedule factory').settle b).state.part id).hasten a.now = p := hpart'
  have hsame := hasten_of_rested hrested id
  have hsame' := hasten_of_rested hrested' id
  rw [hnow, hpart] at hsame
  rw [hnow', hpart'] at hsame'
  refine ⟨.of_rested hrested, .of_rested hrested', hnow.trans hnow'.symm, hsame.symm.trans hsame', ?_⟩
  have hcalls : ((schedule factory).settle a).state.calls = a.state.calls := hcalls
  have hcalls' : ((schedule factory').settle b).state.calls = b.state.calls := hcalls'
  rw [turnOrder_of_rested hrested, turnOrder_of_rested hrested', hcalls, hcalls']
  exact hline

/-- One millisecond passes. -/
theorem tick (hfactory : Factory.AgreeOn id factory factory') (h : Alike factory factory' id a b) :
    Alike factory factory' id ((schedule factory).tick a) ((schedule factory').tick b) := by
  have hlater : Alike factory factory' id { a with now := a.now + 1 } { b with now := b.now + 1 } :=
    ⟨⟨h.ofRun.reached, h.ofRun.inLine.length_le, h.ofRun.inLine.mem⟩,
      ⟨h.ofRun'.reached, h.ofRun'.inLine.length_le, h.ofRun'.inLine.mem⟩,
      congrArg (· + 1) h.now_eq, h.part_eq, h.order_eq⟩
  exact hlater.settle hfactory

theorem ticks (hfactory : Factory.AgreeOn id factory factory') (h : Alike factory factory' id a b) (ms : Nat) :
    Alike factory factory' id ((schedule factory).tick^[ms] a) ((schedule factory').tick^[ms] b) := by
  induction ms with
  | zero => exact h
  | succ ms ih =>
    rw [Function.iterate_succ_apply', Function.iterate_succ_apply']
    exact ih.tick hfactory

/-- Time passes in both maps, and who sleeps need not wake at the same stops. -/
theorem wait (hfactory : Factory.AgreeOn id factory factory') (h : Alike factory factory' id a b) (ms : Nat) :
    Alike factory factory' id ((schedule factory).wait ms ((schedule factory).settle a))
      ((schedule factory').wait ms ((schedule factory').settle b)) := by
  rw [(punctual_reached factory).wait_eq_ticks h.ofRun.settle,
    (punctual_reached factory').wait_eq_ticks h.ofRun'.settle]
  exact (h.settle hfactory).ticks hfactory ms

/-! ## Commands -/

/-- A call on the peer begins, or a close. -/
theorem begin (hfactory : Factory.AgreeOn id factory factory') (h : Alike factory factory' id a b)
    (hcall : call.target?.all (· = id)) :
    Alike factory factory' id (carryOut factory a (.begin call)) (carryOut factory' b (.begin call)) := by
  have hm := h.ofRun.reached
  have hm' := h.ofRun'.reached
  refine ⟨h.ofRun.change (hm.step (.begin a.now factory call)) calls_begin,
    h.ofRun'.change (hm'.step (.begin b.now factory' call)) calls_begin, h.now_eq, ?_, ?_⟩
  · show (a.state.begin a.now factory call).part id = (b.state.begin b.now factory' call).part id
    cases htarget : call.target? with
    | none =>
      cases target?_eq_none_iff.mp htarget
      rw [part_begin_close hm.separate, part_begin_close hm'.separate, h.part_eq, h.now_eq]
    | some k =>
      obtain rfl : k = id := by simpa [htarget] using hcall
      rw [part_begin hm.separate hfactory htarget, part_begin hm'.separate hfactory.right htarget, h.part_eq,
        h.now_eq]
  · refine (turnOrder_of_begun h.ofRun calls_begin).trans ?_
    rw [h.order_eq, h.part_eq]
    exact (turnOrder_of_begun h.ofRun' calls_begin).symm

/-- A call on the peer is cancelled, or a close. -/
theorem cancel (h : Alike factory factory' id a b) (htarget : target.all (· = id)) (n : Nat) :
    Alike factory factory' id (carryOut factory a (.cancel target n))
      (carryOut factory' b (.cancel target n)) := by
  have hm := h.ofRun.reached
  have hm' := h.ofRun'.reached
  refine h.change (hm.step (.cancel _)) (hm'.step (.cancel _)) calls_cancel calls_cancel ?_
  show (a.state.cancel (a.state.nth target n)).1.part id = (b.state.cancel (b.state.nth target n)).1.part id
  cases target with
  | none =>
    rw [part_cancel_nth_close hm.separate, part_cancel_nth_close hm'.separate, h.part_eq]
  | some k =>
    obtain rfl : k = id := by simpa using htarget
    rw [part_cancel_nth hm.separate, part_cancel_nth hm'.separate, h.part_eq]

theorem register (h : Alike factory factory' id a b) (peer : Peer) :
    Alike factory factory' id (carryOut factory a (.register peer)) (carryOut factory' b (.register peer)) := by
  have hm := h.ofRun.reached
  have hm' := h.ofRun'.reached
  have hcalls : ∀ m : ProxyMap, (m.register peer).calls = m.calls := by
    intro m
    unfold ProxyMap.register
    split <;> rfl
  exact h.change (hm.step (.register peer)) (hm'.step (.register peer)) (hcalls _) (hcalls _)
    (part_register hm.separate hm'.separate h.part_eq peer)

/-- Whatever may be about the peer does the same to it in both maps. -/
theorem carryOut (hfactory : Factory.AgreeOn id factory factory') (h : Alike factory factory' id a b)
    (hcommand : command.concerns id = true) :
    Alike factory factory' id (ProxyMap.carryOut factory a command) (ProxyMap.carryOut factory' b command) := by
  cases command with
  | register peer => exact h.register peer
  | begin call => exact h.begin hfactory hcommand
  | cancel target n => exact h.cancel hcommand n
  | wait ms => exact h.wait hfactory ms

/-- Commands come to the same for the peer without those that are about other peers. -/
theorem carryOut_all (hfactory : Factory.AgreeOn id factory factory') (h : Alike factory factory' id a b)
    (commands : List Command) : Alike factory factory' id (commands.foldl (ProxyMap.carryOut factory) a)
      ((commands.filter (·.concerns id)).foldl (ProxyMap.carryOut factory') b) := by
  induction commands generalizing a b with
  | nil => exact h
  | cons command commands ih =>
    rw [List.foldl_cons]
    by_cases hcommand : command.concerns id = true
    · rw [List.filter_cons_of_pos hcommand, List.foldl_cons]
      exact ih (h.carryOut hfactory hcommand)
    · rw [List.filter_cons_of_neg hcommand]
      cases htarget : command.target? with
      | none => simp [Command.concerns, htarget] at hcommand
      | some k => exact ih (h.skip htarget (by simpa [Command.concerns, htarget] using hcommand))

end Alike

end Replica.ProxyMap
