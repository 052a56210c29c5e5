import Replica.Proofs.Proxy.Commands

/-!
# Peers do not matter to each other

What there is of a peer in a proxy map (`view`): the calls on it and when and how they have ended, its
entries with their states and slots, and when the factory and its proxies were called. All of these are known
by their numbers among those of the peer.

It is the same without the calls on another peer, and whatever the factory does for the other peer
(`peers_isolated`): a creation or a closing that takes long for one peer, or longer than the run lasts, keeps
nobody waiting but the calls on that peer and the close of the whole map. A run may stop at any moment, so
the peer looks the same at every moment.
-/

namespace Replica

/-- What there is of a peer in a proxy map. -/
@[ext]
structure PeerView where
  /-- The calls on the peer, in the order in which they began, and where each stands: when and how it has
  ended, once it has. -/
  calls : List ProxyTask
  registered : Option ProxyEntry
  /-- All entries that were made for the peer, from the first to the last. -/
  entries : List ProxyEntry
  /-- All calls of the factory for the peer, and when each proxy was asked to close. -/
  creations : List Creation
  deriving DecidableEq

def ProxyTask.rename (ρ : Renaming) (task : ProxyTask) : ProxyTask :=
  { task with stage := task.stage.rename ρ }

namespace ProxyMap

/-- What there is of the peer, with its proxies, entries and calls numbered among themselves. -/
def view (id : PeerId) (m : ProxyMap) : PeerView where
  calls := (m.tasks.filter (·.call.target? = some id)).map (.rename (m.ranks id))
  registered := (m.entry? id).map (.rename (m.ranks id))
  entries := (m.entries.filter (·.peer.id = id)).map (.rename (m.ranks id))
  creations := (m.creations.filter (·.peer.id = id)).map (.rename (m.ranks id))

variable {m : ProxyMap} {id k : PeerId} {factory factory' : Factory}

/-! ## The view of the part -/

theorem view_calls : (m.view id).calls = (m.part id).tasks.filter (·.call.target? = some id) := by
  have hfilter : ((m.tasks.filter (·.call.concerns id)).map (m.partOfTask (m.ranks id) id)).filter
      (·.call.target? = some id) =
      (m.tasks.filter (·.call.target? = some id)).map (m.partOfTask (m.ranks id) id) := by
    rw [List.filter_map, List.filter_filter]
    congr 1
    refine List.filter_congr fun task _ => ?_
    simp only [Function.comp_apply, partOfTask]
    by_cases hcall : task.call.target? = some id
    · simp [hcall, ProxyCall.concerns_of_target? hcall]
    · simp [hcall]
  refine Eq.symm (hfilter.trans (List.map_congr_left fun task htask => ?_))
  have hcall : task.call.target? = some id := by simpa using (List.mem_filter.mp htask).2
  simp only [partOfTask, partOfStage, hcall]
  rfl

theorem view_registered (hm : m.Separate) : (m.view id).registered = ProxyMap.entry? id (m.part id) := by
  simp only [view]
  unfold entry?
  rw [part_get?]
  cases hget : m.registry.get? id with
  | none => rfl
  | some e =>
    obtain ⟨entry, found, hpeer⟩ := hm.registry _ (Registry.mem_of_get? hget)
    simp only at found hpeer
    simp [found, part_entry found hpeer]

/-- All that there is of a peer is in its part. -/
theorem view_eq_of_part {m' : ProxyMap} (hm : m.Separate) (hm' : m'.Separate)
    (hpart : m.part id = m'.part id) : m.view id = m'.view id := by
  apply PeerView.ext
  · rw [view_calls, view_calls, hpart]
  · rw [view_registered hm, view_registered hm', hpart]
  · exact congrArg entries hpart
  · exact congrArg creations hpart

/-- Without the calls on other peers, and whatever the factory does for these, a peer looks the same. -/
theorem view_of_concerns (hfactory : Factory.AgreeOn id factory factory') (name : String)
    (commands : List Command) :
    (perform name factory commands).state.view id =
      (perform name factory' (commands.filter (·.concerns id))).state.view id := by
  have halike : Alike factory factory' id (perform name factory commands) _ :=
    (Alike.new name factory factory' id).carryOut_all hfactory commands
  exact view_eq_of_part halike.ofRun.reached.separate halike.ofRun'.reached.separate halike.part_eq

/-- In every run, closes of the whole map included, deleting the calls on another peer with their
cancellations changes nothing about a peer. Neither does it matter how long the factory and the
proxies take for the other peer, and to what end they come. -/
theorem peers_isolated (hne : k ≠ id) (hfactory : Factory.AgreeOn id factory factory') (name : String)
    (commands : List Command) :
    (perform name factory' (commands.filter (·.target? ≠ some k))).state.view id =
        (perform name factory commands).state.view id ∧
      (perform name factory' commands).state.view id = (perform name factory commands).state.view id := by
  have hfilter : (commands.filter (·.target? ≠ some k)).filter (·.concerns id) =
      commands.filter (·.concerns id) := by
    rw [List.filter_filter]
    refine List.filter_congr fun command _ => ?_
    cases htarget : command.target? with
    | none => simp [Command.concerns, htarget]
    | some j =>
      by_cases hj : j = id
      · simp [Command.concerns, htarget, hj, hne.symm]
      · simp [Command.concerns, htarget, hj]
  rw [view_of_concerns hfactory name commands, view_of_concerns hfactory.right name commands,
    view_of_concerns hfactory.right name (commands.filter _), hfilter]
  exact ⟨rfl, rfl⟩

/-- The factory takes `delay` for the one peer, and little time for all others. -/
def takingFor (k : PeerId) (delay : Nat) : Factory := fun _ peer =>
  if peer.id = k then { delay, closeDelay := delay } else { delay := 3, closeDelay := 2 }

theorem agreeOn_takingFor (hne : k ≠ id) (delay delay' : Nat) :
    Factory.AgreeOn id (takingFor k delay) (takingFor k delay') := by
  intro creations creations' peer hid _
  simp [takingFor, hid, hne.symm]

def neighbours : List Command :=
  [.register ⟨⟨"a"⟩, "here"⟩, .register ⟨⟨"b"⟩, "there"⟩, .begin (.lookUp ⟨"a"⟩), .begin (.lookUp ⟨"b"⟩),
    .begin (.lookUp ⟨"a"⟩), .wait 1, .begin (.reset ⟨"b"⟩), .begin (.lookUp ⟨"b"⟩), .cancel (some ⟨"a"⟩) 1,
    .wait 5, .begin .close, .wait 4]

/-- While the factory goes on and on for `a`, the calls on `b` end at their times. -/
theorem peers_isolated_among_neighbours :
    (⟨"a"⟩ : PeerId) ≠ ⟨"b"⟩ ∧
      Factory.AgreeOn ⟨"b"⟩ (takingFor ⟨"a"⟩ 1000000) (takingFor ⟨"a"⟩ 0) ∧
      ((perform "m" (takingFor ⟨"a"⟩ 0) (neighbours.filter (·.target? ≠ some ⟨"a"⟩))).state.view ⟨"b"⟩ =
          (perform "m" (takingFor ⟨"a"⟩ 1000000) neighbours).state.view ⟨"b"⟩ ∧
        (perform "m" (takingFor ⟨"a"⟩ 0) neighbours).state.view ⟨"b"⟩ =
          (perform "m" (takingFor ⟨"a"⟩ 1000000) neighbours).state.view ⟨"b"⟩) ∧
      ((perform "m" (takingFor ⟨"a"⟩ 1000000) neighbours).state.view ⟨"a"⟩).calls =
        [⟨.lookUp ⟨"a"⟩, .creating 0 0 1000000⟩, ⟨.lookUp ⟨"a"⟩, .cancelled⟩] ∧
      ((perform "m" (takingFor ⟨"a"⟩ 1000000) neighbours).state.view ⟨"b"⟩).calls =
        [⟨.lookUp ⟨"b"⟩, .finished 3 (.proxy (.ok 0))⟩, ⟨.reset ⟨"b"⟩, .finished 5 .done⟩,
          ⟨.lookUp ⟨"b"⟩, .finished 4 (.proxy (.ok 1))⟩] :=
  ⟨by decide, agreeOn_takingFor (by decide) _ _,
    peers_isolated (by decide) (agreeOn_takingFor (by decide) _ _) "m" neighbours, by decide, by decide⟩

end ProxyMap

end Replica
