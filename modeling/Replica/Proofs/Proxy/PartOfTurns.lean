import Replica.Proofs.Proxy.Part

/-!
# What turns do to a peer's part

The turn of a call on the peer does to the peer's part of the map what it does to the map (`part_turn`), if
the factory treats the peer the same in both, and the turn of a call on another peer does nothing to it
(`part_turn_of_ne`). The turn of a close goes on with what the close still has to retire of the peer
(`part_turn_close`).
-/

namespace Replica

/-- What a factory may know of an earlier call of it. -/
def Creation.known (c : Creation) : Peer × Script × Nat × Option CreationOutcome :=
  (c.peer, c.script, c.calledAt, c.outcome)

/-- What a factory may know of the earlier calls of it for a peer. -/
def knownOf (id : PeerId) (creations : List Creation) :
    List (Peer × Script × Nat × Option CreationOutcome) :=
  (creations.filter (·.peer.id = id)).map Creation.known

/-- The factories do the same when they are called for the peer, as long as they were called for it alike:
what else they were called for does not matter. -/
def Factory.AgreeOn (id : PeerId) (factory factory' : Factory) : Prop :=
  ∀ creations creations' peer, peer.id = id → knownOf id creations = knownOf id creations' →
    factory creations peer = factory' creations' peer

namespace ProxyMap

variable {m : ProxyMap} {id k : PeerId} {e : EntryId} {h : Handle} {t : TaskId} {now : Nat}
variable {factory factory' : Factory} {entry : ProxyEntry} {s : ProxyStage} {call : ProxyCall}
variable {job : Retirement} {jobs : List Retirement} {a : ProxyAnswer}

/-- The map with nothing reported. -/
def hush (m : ProxyMap) : ProxyMap := { m with log := [] }

/-- The peer's calls know of the same creations in the part. -/
theorem knownOf_part : knownOf id (m.part id).creations = knownOf id m.creations := by
  have hall : (m.part id).creations.filter (·.peer.id = id) = (m.part id).creations := by
    refine List.filter_eq_self.mpr fun c hc => ?_
    obtain ⟨d, hd, rfl⟩ := List.mem_map.mp hc
    exact (List.mem_filter.mp hd).2
  rw [knownOf, hall]
  exact List.map_map

/-! ## The lock -/

/-- Two calls on the peer have different numbers. -/
theorem call_inj {u : TaskId} (ht : m.HasCall id t) (hu : m.HasCall id u)
    (heq : (m.ranks id).call u = (m.ranks id).call t) : u = t := by
  obtain ⟨task, htask, hc⟩ := ht
  obtain ⟨task', htask', hc'⟩ := hu
  exact countPBefore_inj (p := fun task : ProxyTask => task.call.concerns id) htask' hc' htask hc heq

/-- A call on the peer holds the lock in the part exactly if it does in the map. -/
theorem part_owns (hm : m.Separate) (he : m.HasEntry id e) (ht : m.HasCall id t) :
    (m.part id).owns ((m.ranks id).entry e) ((m.ranks id).call t) = m.owns e t := by
  obtain ⟨entry, found, hid⟩ := he
  have hwithin := hm.entries e entry found
  simp only [owns, found, part_entry found hid, Option.bind_some]
  cases ho : entry.owner with
  | none => simp [ProxyEntry.rename, ho]
  | some u =>
    have hu := hwithin.queue u (ProxyEntry.mem_queue_iff.mpr (.inl ho))
    rw [hid] at hu
    have hiff : (m.ranks id).call u = (m.ranks id).call t ↔ u = t :=
      ⟨call_inj ht hu, fun heq => congrArg _ heq⟩
    simp [ProxyEntry.rename, ho, Bool.beq_eq_decide_eq, hiff]

/-! ## Look-ups -/

/-- A call on the peer ends in the part with its answer. -/
theorem part_finish (htask : m.tasks[t]? = some ⟨call, s⟩) (hcall : call.target? = some id) :
    (m.finish now t a).part id = (m.part id).finish now ((m.ranks id).call t) (a.rename (m.ranks id)) := by
  rw [finish, part_setStage htask (ProxyCall.concerns_of_target? hcall)]
  simp only [partOfStage, hcall]
  rfl

/-- The end of a call that does not concern the peer is not seen in the part. -/
theorem part_finish_of_ne (htask : m.tasks[t]? = some ⟨call, s⟩) (hcall : call.concerns id = false) :
    (m.finish now t a).part id = m.part id :=
  part_setStage_of_ne fun task htask' => by cases htask.symm.trans htask'; exact hcall

/-- A look-up that ends hands over the lock. -/
theorem part_unlock_finish (htask : m.tasks[t]? = some ⟨call, s⟩) (hcall : call.target? = some id)
    (he : m.HasEntry id e) : ((m.modifyEntry e .unlock).finish now t a).part id =
      ((m.part id).modifyEntry ((m.ranks id).entry e) .unlock).finish now ((m.ranks id).call t)
        (a.rename (m.ranks id)) := by
  obtain ⟨entry, found, hid⟩ := he
  have hpeers : ∀ y : ProxyEntry, y.unlock.peer = y.peer := fun _ => ProxyEntry.unlock_peer
  rw [part_finish (m := m.modifyEntry e .unlock) htask hcall, ranks_modifyEntry hpeers,
    part_modifyEntry hpeers found hid ProxyEntry.rename_unlock]

/-- A look-up calls the factory. -/
theorem part_start {c : Creation} {f : ProxyEntry → ProxyEntry} {wake : Nat} (hm : m.Separate)
    (htask : m.tasks[t]? = some ⟨call, s⟩) (hcall : call.target? = some id)
    (found : m.entries[e]? = some entry) (hid : entry.peer.id = id) (hc : c.peer.id = id)
    (hpeers : ∀ y, (f y).peer = y.peer)
    (hrename : ∀ ρ : Renaming, (f entry).rename ρ = f (entry.rename ρ)) :
    (((m.addCreation c).modifyEntry e f).setStage t (.creating e m.creations.length wake)).part id =
      (((m.part id).addCreation (c.rename (m.ranks id))).modifyEntry ((m.ranks id).entry e) f).setStage
        ((m.ranks id).call t)
        (.creating ((m.ranks id).entry e) (m.part id).creations.length wake) := by
  have hlength : ((m.addCreation c).ranks id).proxy m.creations.length = (m.part id).creations.length :=
    (countPBefore_append (Nat.le_refl _)).trans length_part_creations.symm
  rw [part_setStage (m := (m.addCreation c).modifyEntry e f) htask (ProxyCall.concerns_of_target? hcall),
    ranks_modifyEntry hpeers, part_modifyEntry (m := m.addCreation c) hpeers found hid (hrename _),
    part_addCreation hm hc]
  simp only [partOfStage, hcall, ProxyStage.rename, hlength]
  rfl

/-- A try for the peer begins in the part as it does in the map, with a factory that does the same for
the peer. -/
theorem part_create (hm : m.Separate) (hfactory : Factory.AgreeOn id factory factory')
    (htask : m.tasks[t]? = some ⟨call, s⟩) (hcall : call.target? = some id) (he : m.HasEntry id e) :
    (m.create now factory t e).part id =
      (m.part id).create now factory' ((m.ranks id).call t) ((m.ranks id).entry e) := by
  obtain ⟨entry, found, hid⟩ := he
  have found' := part_entry found hid
  have hended : ∀ a, ((m.modifyEntry e .unlock).finish now t a).part id = _ := fun a =>
    part_unlock_finish htask hcall ⟨entry, found, hid⟩
  unfold create
  simp only [found, found', ProxyEntry.rename_slot, ProxyEntry.rename_lifecycle,
    ProxyEntry.rename_prepare]
  cases hslot : entry.slot with
  | some h => exact hended (.proxy (.ok h))
  | none =>
    simp only [Option.map_none]
    split
    · exact hended (.proxy (.error _))
    · rcases prepare_cases entry with ⟨err, hprepare⟩ | ⟨lifecycle, hprepare⟩
      · rw [hprepare]
        exact hended (.proxy (.error err))
      · -- both call the factory, which does the same, and both wait for the proxy that it makes
        have hscript : factory m.creations entry.peer = factory' (m.part id).creations entry.peer :=
          hfactory _ _ entry.peer hid knownOf_part.symm
        rw [hprepare]
        simp only [Except.map, ProxyEntry.rename_peer, ← hscript]
        rw [set_eq_modify (fun y : ProxyEntry => { y with lifecycle }) found,
          show ({ entry with lifecycle } : ProxyEntry).rename (m.ranks id) =
            { entry.rename (m.ranks id) with lifecycle } from rfl,
          set_eq_modify (fun y : ProxyEntry => { y with lifecycle }) found']
        exact part_start hm htask hcall found hid hid (fun _ => rfl) fun _ => rfl

/-- A look-up of another peer. -/
theorem part_create_of_ne (hm : m.Separate) (htask : m.tasks[t]? = some ⟨call, s⟩)
    (hcall : call.concerns id = false) (he : m.HasEntry k e) (hk : k ≠ id) :
    (m.create now factory t e).part id = m.part id := by
  obtain ⟨entry, found, rfl⟩ := he
  have hother : ∀ entry', m.entries[e]? = some entry' → entry'.peer.id ≠ id := fun entry' found' => by
    cases found.symm.trans found'
    exact hk
  rcases create_cases found with ⟨answer, -, heq⟩ | ⟨lifecycle, script, heq⟩
  · rw [heq, part_finish_of_ne (m := m.modifyEntry e .unlock) htask hcall,
      part_modifyEntry_of_ne (fun _ => ProxyEntry.unlock_peer) hother]
  · rw [heq, part_setStage_of_ne]
    · refine (part_modifyEntry_of_ne (m := m.addCreation _) ?_ hother).trans (part_addCreation_of_ne hm hk)
      exact fun _ => rfl
    · intro task htask'
      cases htask.symm.trans htask'
      exact hcall

/-- The factory is done with a proxy of the peer, and the look-up that has waited for it ends. -/
theorem part_done {c : Creation} {f f' : ProxyEntry → ProxyEntry} {g : Creation → Creation}
    (htask : m.tasks[t]? = some ⟨call, s⟩) (hcall : call.target? = some id)
    (found : m.entries[e]? = some entry) (hid : entry.peer.id = id)
    (made : m.creations[h]? = some c) (hc : c.peer.id = id) (hpeers : ∀ y, (f y).peer = y.peer)
    (hpeers' : ∀ c, (g c).peer = c.peer)
    (hrename : (f entry).rename (m.ranks id) = f' (entry.rename (m.ranks id)))
    (hrename' : (g c).rename (m.ranks id) = g (c.rename (m.ranks id))) :
    (((m.modifyEntry e f).modifyCreation h g).finish now t a).part id =
      (((m.part id).modifyEntry ((m.ranks id).entry e) f').modifyCreation ((m.ranks id).proxy h) g).finish
        now ((m.ranks id).call t) (a.rename (m.ranks id)) := by
  have hranks : ((m.modifyEntry e f).modifyCreation h g).ranks id = m.ranks id :=
    (ranks_modifyCreation hpeers').trans (ranks_modifyEntry hpeers)
  have hcreation : ((m.modifyEntry e f).modifyCreation h g).part id =
      ((m.modifyEntry e f).part id).modifyCreation ((m.ranks id).proxy h) g := by
    rw [← ranks_modifyEntry hpeers] at hrename' ⊢
    exact part_modifyCreation hpeers' made hc hrename'
  rw [part_finish (m := (m.modifyEntry e f).modifyCreation h g) htask hcall, hranks, hcreation,
    part_modifyEntry hpeers found hid hrename]

/-- A creation for the peer ends in the part as it does in the map. -/
theorem part_conclude (htask : m.tasks[t]? = some ⟨call, s⟩) (hcall : call.target? = some id)
    (he : m.HasEntry id e) (hh : m.HasProxy id h) : (m.conclude now t e h).part id =
      (m.part id).conclude now ((m.ranks id).call t) ((m.ranks id).entry e) ((m.ranks id).proxy h) := by
  obtain ⟨entry, found, hid⟩ := he
  obtain ⟨c, made, hc⟩ := hh
  have found' := part_entry found hid
  have made' := part_creation made hc
  have hscript : (c.rename (m.ranks id)).script = c.script := rfl
  cases hfailure : c.script.failure with
  | some err =>
    rw [conclude_of_failed found made hfailure, conclude_of_failed found' made' (hscript ▸ hfailure)]
    refine part_done htask hcall found hid made hc (fun _ => ProxyEntry.unlock_peer) (fun _ => rfl) ?_ rfl
    rw [ProxyEntry.rename_unlock, ProxyEntry.rename_giveUp]
  | none =>
    rw [conclude_of_made found made hfailure, conclude_of_made found' made' (hscript ▸ hfailure),
      ProxyEntry.rename_install]
    refine part_done htask hcall found hid made hc (fun y => by simp) (fun _ => rfl) ?_ rfl
    rw [ProxyEntry.rename_unlock, ProxyEntry.rename_install]

/-- A creation for another peer ends without being seen in the part. -/
theorem part_conclude_of_ne (htask : m.tasks[t]? = some ⟨call, s⟩) (hcall : call.concerns id = false)
    (he : m.HasEntry k e) (hh : m.HasProxy k h) (hk : k ≠ id) :
    (m.conclude now t e h).part id = m.part id := by
  obtain ⟨entry, found, rfl⟩ := he
  obtain ⟨c, made, hc⟩ := hh
  have hother : ∀ entry', m.entries[e]? = some entry' → entry'.peer.id ≠ id := fun entry' found' => by
    cases found.symm.trans found'
    exact hk
  have hother' : ∀ c', m.creations[h]? = some c' → c'.peer.id ≠ id := fun c' made' => by
    cases made.symm.trans made'
    exact hc ▸ hk
  have hdone : ∀ (f : ProxyEntry → ProxyEntry) (g : Creation → Creation) a, (∀ y, (f y).peer = y.peer) →
      (∀ c, (g c).peer = c.peer) →
      (((m.modifyEntry e f).modifyCreation h g).finish now t a).part id = m.part id := by
    intro f g a hpeers hpeers'
    rw [part_finish_of_ne (m := (m.modifyEntry e f).modifyCreation h g) htask hcall,
      part_modifyCreation_of_ne (m := m.modifyEntry e f) hpeers' hother',
      part_modifyEntry_of_ne hpeers hother]
  cases hfailure : c.script.failure with
  | some err =>
    rw [conclude_of_failed found made hfailure]
    exact hdone _ _ _ (fun _ => ProxyEntry.unlock_peer) fun _ => rfl
  | none =>
    rw [conclude_of_made found made hfailure]
    exact hdone _ _ _ (fun y => by simp) fun _ => rfl

/-! ## Retirements -/

/-- The entry of the peer is retired in the part as it is in the map. -/
theorem part_retire (hm : m.Separate) (he : m.HasEntry id e) :
    (m.part id).retire now ((m.ranks id).entry e) =
      ((m.retire now e).1.part id, (m.retire now e).2.rename (m.ranks id)) := by
  obtain ⟨entry, found, hid⟩ := he
  have found' := part_entry found hid
  have hpeers : ∀ y : ProxyEntry, y.retire.1.unlock.peer = y.peer := fun y => by simp
  have hentry : (m.modifyEntry e fun y => y.retire.1.unlock).part id =
      (m.part id).modifyEntry ((m.ranks id).entry e) fun y => y.retire.1.unlock :=
    part_modifyEntry hpeers found hid (by rw [ProxyEntry.rename_unlock, ProxyEntry.rename_retire])
  rw [retire_eq_match found, retire_eq_match found', ProxyEntry.rename_retire]
  cases htaken : entry.retire.2 with
  | none => exact Prod.ext hentry.symm rfl
  | some h =>
    obtain ⟨c, made, hc⟩ := (hm.entries e entry found).slot h (retire_taken htaken)
    rw [hid] at hc
    have hasked : ((m.modifyEntry e fun y => y.retire.1.unlock).modifyCreation h
        (Creation.askToClose now)).part id = ((m.modifyEntry e fun y => y.retire.1.unlock).part id).modifyCreation
          ((m.ranks id).proxy h) (Creation.askToClose now) := by
      rw [← ranks_modifyEntry hpeers]
      exact part_modifyCreation (fun _ => rfl) made hc rfl
    simp only [Option.map_some, made, part_creation made hc]
    refine Prod.ext ?_ rfl
    rw [hasked, hentry]

/-- The retirement of another peer's entry is not seen in the part. -/
theorem part_retire_of_ne (hm : m.Separate) (he : m.HasEntry k e) (hk : k ≠ id) :
    (m.retire now e).1.part id = m.part id := by
  obtain ⟨entry, found, rfl⟩ := he
  have hother : ∀ entry', m.entries[e]? = some entry' → entry'.peer.id ≠ id := fun entry' found' => by
    cases found.symm.trans found'
    exact hk
  have hentry : (m.modifyEntry e fun y => y.retire.1.unlock).part id = m.part id :=
    part_modifyEntry_of_ne (fun y => by simp) hother
  rw [retire_eq_match found]
  cases htaken : entry.retire.2 with
  | none => exact hentry
  | some h =>
    obtain ⟨c, made, hc⟩ := (hm.entries e entry found).slot h (retire_taken htaken)
    refine (part_modifyCreation_of_ne (m := m.modifyEntry e fun y => y.retire.1.unlock)
      (g := Creation.askToClose now) (fun _ => rfl) fun c' made' => ?_).trans hentry
    cases made.symm.trans made'
    exact hc ▸ hk

/-- Numbers stay when an entry is retired. -/
theorem ranks_retire : (m.retire now e).1.ranks id = m.ranks id := by
  cases found : m.entries[e]? with
  | none => simp only [retire, found]
  | some entry =>
    have hentry : (m.modifyEntry e fun y => y.retire.1.unlock).ranks id = m.ranks id :=
      ranks_modifyEntry fun y => by simp
    rw [retire_eq_match found]
    cases entry.retire.2 with
    | none => exact hentry
    | some h => exact (ranks_modifyCreation (g := Creation.askToClose now) fun _ => rfl).trans hentry

/-- A proxy has closed; what is reported of it does not matter. -/
theorem part_concludeClose :
    (m.concludeClose now h).part id = (m.modifyCreation h (Creation.hasClosed now)).part id := rfl

/-- Numbers stay when a proxy has closed. -/
theorem ranks_concludeClose : (m.concludeClose now h).ranks id = m.ranks id := by
  have hranks : (m.modifyCreation h (Creation.hasClosed now)).ranks id = m.ranks id :=
    ranks_modifyCreation fun _ => rfl
  exact hranks

/-- Numbers stay in a turn of a retirement. -/
theorem ranks_turnRetirement : (m.turnRetirement now t job).1.ranks id = m.ranks id := by
  cases job with
  | locking e =>
    simp only [turnRetirement]
    split
    · exact ranks_retire
    · rfl
  | closing e h wake =>
    simp only [turnRetirement]
    split
    · exact ranks_concludeClose
    · rfl
  | finished e => rfl

/-- Numbers stay in the turns of several. -/
theorem ranks_turnRetirements : (m.turnRetirements now t jobs).1.ranks id = m.ranks id := by
  induction jobs generalizing m with
  | nil => rfl
  | cons job jobs ih => exact ih.trans ranks_turnRetirement

/-! What is reported does not matter. -/

/-- A part has no log. -/
theorem hush_part : (m.part id).hush = m.part id := rfl

/-- A retirement does the same with or without a log. -/
theorem hush_retire : m.hush.retire now e = ((m.retire now e).1.hush, (m.retire now e).2) := by
  unfold retire
  simp only [hush]
  cases m.entries[e]? with
  | none => rfl
  | some entry =>
    dsimp only
    cases entry.retire.2 <;> rfl

/-- A turn of a retirement does the same with or without a log. -/
theorem hush_turnRetirement (now : Nat) (t : TaskId) (job : Retirement) :
    (m.hush.turnRetirement now t job).1.hush = (m.turnRetirement now t job).1.hush ∧
      (m.hush.turnRetirement now t job).2 = (m.turnRetirement now t job).2 := by
  cases job with
  | locking e =>
    have howns : m.hush.owns e t = m.owns e t := rfl
    simp only [turnRetirement, howns, hush_retire]
    split <;> exact ⟨rfl, rfl⟩
  | closing e h wake =>
    simp only [turnRetirement]
    split <;> exact ⟨rfl, rfl⟩
  | finished e => exact ⟨rfl, rfl⟩

/-- So do the turns of several. -/
theorem hush_turnRetirements (now : Nat) (t : TaskId) (jobs : List Retirement) :
    (m.hush.turnRetirements now t jobs).1.hush = (m.turnRetirements now t jobs).1.hush ∧
      (m.hush.turnRetirements now t jobs).2 = (m.turnRetirements now t jobs).2 := by
  induction jobs generalizing m with
  | nil => exact ⟨rfl, rfl⟩
  | cons job jobs ih =>
    obtain ⟨hfirst, hjob⟩ := hush_turnRetirement (m := m) now t job
    obtain ⟨hrest, hjobs⟩ := ih (m := (m.turnRetirement now t job).1)
    obtain ⟨hrest', hjobs'⟩ := ih (m := (m.hush.turnRetirement now t job).1)
    simp only [turnRetirements]
    rw [hjob]
    rw [hfirst] at hrest' hjobs'
    exact ⟨hrest'.symm.trans hrest, by rw [← hjobs', hjobs]⟩

/-- The turn of a retirement of the peer. -/
theorem part_turnRetirement (hm : m.Separate) (now : Nat) (ht : m.HasCall id t)
    (hjob : job.Within id m) :
    ((m.part id).turnRetirement now ((m.ranks id).call t) (job.rename (m.ranks id))).1.hush =
        (m.turnRetirement now t job).1.part id ∧
      ((m.part id).turnRetirement now ((m.ranks id).call t) (job.rename (m.ranks id))).2 =
        (m.turnRetirement now t job).2.rename (m.ranks id) := by
  cases job with
  | locking e =>
    simp only [Retirement.rename, turnRetirement, part_owns hm hjob ht, part_retire hm hjob]
    split <;> exact ⟨rfl, rfl⟩
  | closing e h wake =>
    obtain ⟨c, made, hc⟩ := hjob.2
    have hclosed : (m.concludeClose now h).part id =
        (m.part id).modifyCreation ((m.ranks id).proxy h) (Creation.hasClosed now) :=
      part_concludeClose.trans (part_modifyCreation (g := Creation.hasClosed now) (fun _ => rfl) made hc rfl)
    simp only [Retirement.rename, turnRetirement]
    split
    · exact ⟨hclosed.symm, rfl⟩
    · exact ⟨rfl, rfl⟩
  | finished e => exact ⟨rfl, rfl⟩

/-- The turn of a retirement of another peer. -/
theorem part_turnRetirement_of_ne (hm : m.Separate) (hjob : job.Within k m) (hk : k ≠ id) :
    (m.turnRetirement now t job).1.part id = m.part id := by
  cases job with
  | locking e =>
    simp only [turnRetirement]
    split
    · exact part_retire_of_ne hm hjob hk
    · rfl
  | closing e h wake =>
    obtain ⟨c, made, hc⟩ := hjob.2
    simp only [turnRetirement]
    split
    · refine part_concludeClose.trans (part_modifyCreation_of_ne (fun _ => rfl) fun c' made' => ?_)
      cases made.symm.trans made'
      exact hc ▸ hk
    · rfl
  | finished e => rfl

/-- Retirements go alike in maps that differ in what was reported only. -/
theorem turnRetirements_of_hush {m' : ProxyMap} (heq : m.hush = m'.hush) (now : Nat) (t : TaskId)
    (jobs : List Retirement) :
    (m.turnRetirements now t jobs).1.hush = (m'.turnRetirements now t jobs).1.hush ∧
      (m.turnRetirements now t jobs).2 = (m'.turnRetirements now t jobs).2 := by
  obtain ⟨hstate, hjobs⟩ := m.hush_turnRetirements now t jobs
  obtain ⟨hstate', hjobs'⟩ := m'.hush_turnRetirements now t jobs
  rw [heq] at hstate hjobs
  exact ⟨hstate.symm.trans hstate', hjobs.symm.trans hjobs'⟩

/-- The turns of retirements of the peer. -/
theorem part_turnRetirements (now : Nat) (hm : m.Separate) (ht : m.HasCall id t)
    (hjobs : ∀ job ∈ jobs, job.Within id m) :
    ((m.part id).turnRetirements now ((m.ranks id).call t) (jobs.map (.rename (m.ranks id)))).1.hush =
        (m.turnRetirements now t jobs).1.part id ∧
      ((m.part id).turnRetirements now ((m.ranks id).call t) (jobs.map (.rename (m.ranks id)))).2 =
        (m.turnRetirements now t jobs).2.map (.rename (m.ranks id)) := by
  induction jobs generalizing m with
  | nil => exact ⟨rfl, rfl⟩
  | cons job jobs ih =>
    have hfirst := part_turnRetirement hm now ht (hjobs job List.mem_cons_self)
    obtain ⟨hm', hkeeps, -⟩ := hm.turnRetirement now t job
    have hrest := ih hm' (hkeeps.call id t ht) fun job' hjob' =>
      hkeeps.retirement (hjobs job' (List.mem_cons_of_mem _ hjob'))
    rw [ranks_turnRetirement] at hrest
    have hsame := turnRetirements_of_hush (hfirst.1.trans hush_part.symm) now ((m.ranks id).call t)
      (jobs.map (.rename (m.ranks id)))
    simp only [List.map_cons, turnRetirements]
    exact ⟨hsame.1.trans hrest.1, by rw [hfirst.2, hsame.2, hrest.2]⟩

/-- The turns of retirements of another peer. -/
theorem part_turnRetirements_of_ne (hm : m.Separate) (hjobs : ∀ job ∈ jobs, job.Within k m)
    (hk : k ≠ id) : (m.turnRetirements now t jobs).1.part id = m.part id := by
  induction jobs generalizing m with
  | nil => rfl
  | cons job jobs ih =>
    obtain ⟨hm', hkeeps, -⟩ := hm.turnRetirement now t job
    have hrest := ih hm' fun job' hjob' =>
      hkeeps.retirement (hjobs job' (List.mem_cons_of_mem _ hjob'))
    exact hrest.trans (part_turnRetirement_of_ne hm (hjobs job List.mem_cons_self) hk)

/-- Whether a retirement is finished is all that the peer sees of it, and nothing of others. -/
theorem regards_of_within (id : PeerId) (hjob : job.Within k m) :
    m.regards id job = (!job.isFinished && decide (k = id)) := by
  obtain ⟨entry, found, rfl⟩ := hjob.hasEntry
  simp [regards, found]

/-- Whose entries they are does not change in the turn of another one. -/
theorem filter_regards_turnRetirement (id : PeerId) (now : Nat) (t : TaskId) (job : Retirement)
    (hm : m.Separate) (hjobs : ∀ job' ∈ jobs, ∃ k, job'.Within k m) :
    jobs.filter ((m.turnRetirement now t job).1.regards id) = jobs.filter (m.regards id) := by
  obtain ⟨-, hkeeps, -⟩ := hm.turnRetirement now t job
  apply List.filter_congr
  intro job' hjob'
  obtain ⟨k, hk⟩ := hjobs job' hjob'
  rw [regards_of_within id hk, regards_of_within id (hkeeps.retirement hk)]

/-- A retirement that is over is over for its entry. -/
theorem exists_finished (hfinished : job.isFinished = true) : ∃ e, job = .finished e := by
  cases job with
  | finished e => exact ⟨e, rfl⟩
  | locking | closing => cases hfinished

/-- The turns of the retirements of a close. -/
theorem part_turnRetirements_close (id : PeerId) (now : Nat) (hm : m.Separate) (ht : m.HasCall id t)
    (hjobs : ∀ job ∈ jobs, ∃ k, job.Within k m) :
    ((m.part id).turnRetirements now ((m.ranks id).call t)
        ((jobs.filter (m.regards id)).map (.rename (m.ranks id)))).1.hush =
        (m.turnRetirements now t jobs).1.part id ∧
      ((m.part id).turnRetirements now ((m.ranks id).call t)
        ((jobs.filter (m.regards id)).map (.rename (m.ranks id)))).2.filter (!·.isFinished) =
        ((m.turnRetirements now t jobs).2.filter
          ((m.turnRetirements now t jobs).1.regards id)).map (.rename (m.ranks id)) := by
  induction jobs generalizing m with
  | nil => exact ⟨rfl, rfl⟩
  | cons job jobs ih =>
    obtain ⟨hm', hkeeps, hstays⟩ := hm.turnRetirement now t job
    obtain ⟨-, hkeeps', -⟩ := hm'.turnRetirements now t jobs
    have hjobs' := fun job' hjob' => hjobs job' (List.mem_cons_of_mem _ hjob')
    obtain ⟨k, hjob⟩ := hjobs job List.mem_cons_self
    have hrest := ih hm' (hkeeps.call id t ht) fun job' hjob' => by
      obtain ⟨k', hk'⟩ := hjobs' job' hjob'
      exact ⟨k', hkeeps.retirement hk'⟩
    rw [ranks_turnRetirement, filter_regards_turnRetirement id now t job hm hjobs'] at hrest
    have hlast : (m.turnRetirements now t (job :: jobs)).1.regards id (m.turnRetirement now t job).2 =
        (!(m.turnRetirement now t job).2.isFinished && decide (k = id)) :=
      regards_of_within id (hkeeps'.retirement (hstays k hjob))
    have hregards := regards_of_within id hjob
    by_cases hk : k = id
    · subst hk
      cases hfinished : job.isFinished with
      | true =>
        -- a finished retirement does nothing, and stays finished
        obtain ⟨e, rfl⟩ := exists_finished hfinished
        have hskip : m.regards k (.finished e) = false := by simp [hregards, Retirement.isFinished]
        have hskip' : (m.turnRetirements now t (.finished e :: jobs)).1.regards k (.finished e) = false := by
          simpa [turnRetirement, Retirement.isFinished] using hlast
        rw [List.filter_cons_of_neg (by simp [hskip])]
        simp only [turnRetirements, turnRetirement] at hrest hskip' ⊢
        rw [List.filter_cons_of_neg (by simp [hskip'])]
        exact hrest
      | false =>
        have hkept : m.regards k job = true := by simp [hregards, hfinished]
        have hfirst := part_turnRetirement hm now ht hjob
        have hsame := turnRetirements_of_hush (hfirst.1.trans hush_part.symm) now ((m.ranks k).call t)
          ((jobs.filter (m.regards k)).map (.rename (m.ranks k)))
        rw [List.filter_cons_of_pos hkept]
        simp only [List.map_cons, turnRetirements] at hlast ⊢
        refine ⟨hsame.1.trans hrest.1, ?_⟩
        rw [hfirst.2, hsame.2]
        simp only [List.filter_cons, hlast, Retirement.isFinished_rename, decide_true, Bool.and_true]
        split
        · rw [List.map_cons, hrest.2]
        · exact hrest.2
    · have hskip : m.regards id job = false := by simp [hregards, hk]
      have hskip' : (m.turnRetirements now t (job :: jobs)).1.regards id
          (m.turnRetirement now t job).2 = false := by simp [hlast, hk]
      rw [List.filter_cons_of_neg (by simp [hskip])]
      simp only [turnRetirements] at hskip' ⊢
      rw [List.filter_cons_of_neg (by simp [hskip'])]
      rwa [part_turnRetirement_of_ne hm hjob hk] at hrest

/-! ## Turns -/

/-- What a call still has to retire. -/
def duties (t : TaskId) (m : ProxyMap) : List Retirement := (m.stage? t).elim [] ProxyStage.jobs

/-- The close goes on, with nothing reported and nothing kept of what it is done with. -/
def goOnClosing (now : Nat) (c : TaskId) (m : ProxyMap) : ProxyMap :=
  let (after, left) := m.turnRetirements now c (m.duties c)
  (after.setStage c (.retiring (left.filter (!·.isFinished)) .done)).hush

/-- A reset of the peer goes on. -/
theorem part_continueRetiring (now : Nat) (jobs : List Retirement) (a : ProxyAnswer) (hm : m.Separate)
    (htask : m.tasks[t]? = some ⟨call, s⟩) (hcall : call.target? = some id)
    (hjobs : ∀ job ∈ jobs, job.Within id m) :
    (m.continueRetiring now t jobs a).part id =
      ((m.part id).continueRetiring now ((m.ranks id).call t) (jobs.map (.rename (m.ranks id)))
        (a.rename (m.ranks id))).hush := by
  have hc := ProxyCall.concerns_of_target? hcall
  obtain ⟨hstate, hleft⟩ := part_turnRetirements now hm ⟨_, htask, hc⟩ hjobs
  have htask' : (m.turnRetirements now t jobs).1.tasks[t]? = some ⟨call, s⟩ := by
    rw [tasks_turnRetirements]
    exact htask
  have hall : ((m.turnRetirements now t jobs).2.map (.rename (m.ranks id))).all Retirement.isFinished =
      (m.turnRetirements now t jobs).2.all Retirement.isFinished := by
    simp [List.all_map, Function.comp_def]
  unfold continueRetiring
  simp only [hleft, hall]
  split
  · rw [part_finish htask' hcall, ranks_turnRetirements, ← hstate]
    rfl
  · rw [part_setStage htask' hc, ranks_turnRetirements, ← hstate]
    simp only [partOfStage, hcall]
    rfl

/-- The turn of a call on the peer. -/
theorem part_turn (hm : m.Separate) (hfactory : Factory.AgreeOn id factory factory')
    (htask : m.tasks[t]? = some ⟨call, s⟩) (hcall : call.target? = some id) :
    (m.turn now factory t).part id = ((m.part id).turn now factory' ((m.ranks id).call t)).hush := by
  have hc : m.HasCall id t := ⟨_, htask, ProxyCall.concerns_of_target? hcall⟩
  have hstage : m.stage? t = some s := stage?_eq_some_iff.mpr ⟨call, htask⟩
  have hwithin := hm.tasks t _ htask
  simp only [ProxyTask.Within, hcall] at hwithin
  unfold turn
  rw [hstage, part_stage? htask hcall]
  cases s with
  | locking e =>
    simp only [ProxyStage.rename, part_owns hm hwithin hc]
    split
    · rw [← part_create hm hfactory htask hcall hwithin]
      rfl
    · rfl
  | creating e h wake =>
    simp only [ProxyStage.rename]
    split
    · rw [← part_conclude htask hcall hwithin.1 hwithin.2]
      rfl
    · rfl
  | retiring jobs a => exact part_continueRetiring now jobs a hm htask hcall hwithin.1
  | finished time a => rfl
  | cancelled => rfl

/-- The turn of a call on another peer. -/
theorem part_turn_of_ne (hm : m.Separate) (htask : m.tasks[t]? = some ⟨call, s⟩)
    (hcall : call.target? = some k) (hk : k ≠ id) : (m.turn now factory t).part id = m.part id := by
  have hc : call.concerns id = false := by simp [ProxyCall.concerns, hcall, hk]
  have hstage : m.stage? t = some s := stage?_eq_some_iff.mpr ⟨call, htask⟩
  have hwithin := hm.tasks t _ htask
  simp only [ProxyTask.Within, hcall] at hwithin
  unfold turn
  rw [hstage]
  cases s with
  | locking e =>
    dsimp only
    split
    · exact part_create_of_ne hm htask hc hwithin hk
    · rfl
  | creating e h wake =>
    dsimp only
    split
    · exact part_conclude_of_ne htask hc hwithin.1 hwithin.2 hk
    · rfl
  | retiring jobs a =>
    have htask' : (m.turnRetirements now t jobs).1.tasks[t]? = some ⟨call, .retiring jobs a⟩ := by
      rw [tasks_turnRetirements]
      exact htask
    have hturned : (m.turnRetirements now t jobs).1.part id = m.part id :=
      part_turnRetirements_of_ne hm hwithin.1 hk
    dsimp only [continueRetiring]
    split
    · exact (part_finish_of_ne htask' hc).trans hturned
    · refine (part_setStage_of_ne fun task htask'' => ?_).trans hturned
      cases htask'.symm.trans htask''
      exact hc
  | finished time a => rfl
  | cancelled => rfl

/-- A close stands where it stands, with what it still has to retire of the peer. -/
theorem part_stage?_close (id : PeerId) (htask : m.tasks[t]? = some ⟨.close, s⟩) :
    (m.part id).stage? ((m.ranks id).call t) =
      some (.retiring ((s.jobs.filter (m.regards id)).map (.rename (m.ranks id))) .done) :=
  stage?_eq_some_iff.mpr ⟨.close, part_task htask rfl⟩

/-- In the part, a close has to do what it has to do for the peer in the map. -/
theorem part_duties_close (id : PeerId) (htask : m.tasks[t]? = some ⟨.close, s⟩) :
    (m.part id).duties ((m.ranks id).call t) =
      (s.jobs.filter (m.regards id)).map (.rename (m.ranks id)) := by
  rw [duties, part_stage?_close id htask]
  rfl

/-- The turn of a close. -/
theorem part_turn_close (id : PeerId) (now : Nat) (factory : Factory) (hm : m.Separate)
    (htask : m.tasks[t]? = some ⟨.close, s⟩) :
    (m.turn now factory t).part id = (m.part id).goOnClosing now ((m.ranks id).call t) := by
  have hstage : m.stage? t = some s := stage?_eq_some_iff.mpr ⟨.close, htask⟩
  have hwithin : s.Retires m := hm.tasks t _ htask
  -- a close that is over leaves everything as it is
  have hover : s.jobs = [] → m.part id = (m.part id).goOnClosing now ((m.ranks id).call t) := by
    intro hnone
    have hpart := part_stage?_close id htask
    have hjobs := part_duties_close id htask
    rw [hnone] at hpart hjobs
    unfold goOnClosing
    rw [hjobs]
    exact (congrArg hush (setStage_self hpart)).symm
  unfold turn
  rw [hstage]
  cases s with
  | locking e => exact hwithin.elim
  | creating e h wake => exact hwithin.elim
  | finished time a => exact hover rfl
  | cancelled => exact hover rfl
  | retiring jobs a =>
    obtain ⟨hstate, hleft⟩ := part_turnRetirements_close id now hm
      ⟨_, htask, rfl⟩ hwithin
    have htask' : (m.turnRetirements now t jobs).1.tasks[t]? = some ⟨.close, .retiring jobs a⟩ := by
      rw [tasks_turnRetirements]
      exact htask
    have hgoal : ∀ s' : ProxyStage, s'.jobs.filter ((m.turnRetirements now t jobs).1.regards id) =
        (m.turnRetirements now t jobs).2.filter ((m.turnRetirements now t jobs).1.regards id) →
        ((m.turnRetirements now t jobs).1.setStage t s').part id =
          (m.part id).goOnClosing now ((m.ranks id).call t) := by
      intro s' hs'
      unfold goOnClosing
      rw [part_setStage htask' rfl, ranks_turnRetirements, ← hstate, part_duties_close id htask]
      simp only [partOfStage, ProxyCall.target?, hs', ← hleft]
      rfl
    dsimp only [continueRetiring]
    split
    · next hall =>
      refine hgoal _ (List.filter_eq_nil_iff.mpr fun job hjob => ?_).symm
      simp [regards, List.all_eq_true.mp hall job hjob]
    · exact hgoal _ rfl

/-! ## Who can go on -/

/-- A retirement of the peer can go on in the part exactly if it can in the map. -/
theorem part_retirementReady (now : Nat) (hm : m.Separate) (ht : m.HasCall id t) (hjob : job.Within id m) :
    (m.part id).retirementReady now ((m.ranks id).call t) (job.rename (m.ranks id)) =
      m.retirementReady now t job := by
  cases job with
  | locking e => exact part_owns hm hjob ht
  | closing e h wake => rfl
  | finished e => rfl

/-- A call on the peer can go on when it can in the part. -/
theorem part_isReady (hm : m.Separate) (htask : m.tasks[t]? = some ⟨call, s⟩)
    (hcall : call.target? = some id) :
    (m.part id).isReady now ((m.ranks id).call t) = m.isReady now t := by
  have hc : m.HasCall id t := ⟨_, htask, ProxyCall.concerns_of_target? hcall⟩
  have hstage : m.stage? t = some s := stage?_eq_some_iff.mpr ⟨call, htask⟩
  have hwithin := hm.tasks t _ htask
  simp only [ProxyTask.Within, hcall] at hwithin
  unfold isReady
  rw [hstage, part_stage? htask hcall]
  cases s with
  | locking e => exact part_owns hm hwithin hc
  | creating e h wake => rfl
  | retiring jobs a =>
    simp only [ProxyStage.rename, List.any_map]
    apply Bool.eq_iff_iff.mpr
    simp only [List.any_eq_true, Function.comp_apply]
    refine exists_congr fun job => and_congr_right fun hjob => ?_
    rw [part_retirementReady now hm hc (hwithin.1 job hjob)]
  | finished time a => rfl
  | cancelled => rfl

/-- A retirement that cannot go on stays where it is. -/
theorem turnRetirement_of_idle (hidle : m.retirementReady now t job = false) :
    m.turnRetirement now t job = (m, job) := by
  cases job with
  | locking e =>
    simp only [retirementReady] at hidle
    simp [turnRetirement, hidle]
  | closing e h wake =>
    simp only [retirementReady, decide_eq_false_iff_not] at hidle
    simp [turnRetirement, hidle]
  | finished e => rfl

/-- Retirements that cannot go on do nothing in their turns. -/
theorem turnRetirements_of_idle (hidle : ∀ job ∈ jobs, m.retirementReady now t job = false) :
    m.turnRetirements now t jobs = (m, jobs) := by
  induction jobs with
  | nil => rfl
  | cons job jobs ih =>
    simp only [turnRetirements, turnRetirement_of_idle (hidle job List.mem_cons_self),
      ih fun job' hjob' => hidle job' (List.mem_cons_of_mem _ hjob')]

/-- A close that cannot go on has nothing that could go on in the part. -/
theorem goOnClosing_of_not_ready (hm : m.Separate) (htask : m.tasks[t]? = some ⟨.close, s⟩)
    (hready : m.isReady now t = false) :
    (m.part id).goOnClosing now ((m.ranks id).call t) = m.part id := by
  have hstage : m.stage? t = some s := stage?_eq_some_iff.mpr ⟨.close, htask⟩
  have hwithin : s.Retires m := hm.tasks t _ htask
  have hc : m.HasCall id t := ⟨_, htask, rfl⟩
  have hidle : ∀ job ∈ (m.part id).duties ((m.ranks id).call t),
      (m.part id).retirementReady now ((m.ranks id).call t) job = false := by
    intro job' hjob'
    rw [part_duties_close id htask] at hjob'
    obtain ⟨job, hjob, rfl⟩ := List.mem_map.mp hjob'
    obtain ⟨hmem, hr⟩ := List.mem_filter.mp hjob
    cases s with
    | retiring jobs a =>
      rw [part_retirementReady now hm hc (within_of_regards (hwithin job hmem) hr)]
      simp only [isReady, hstage, List.any_eq_false] at hready
      simpa using hready job hmem
    | locking | creating | finished | cancelled => cases hmem
  have hkept : ((m.part id).duties ((m.ranks id).call t)).filter (!·.isFinished) =
      (m.part id).duties ((m.ranks id).call t) := by
    refine List.filter_eq_self.mpr fun job' hjob' => ?_
    rw [part_duties_close id htask] at hjob'
    obtain ⟨job, hjob, rfl⟩ := List.mem_map.mp hjob'
    have hr := (List.mem_filter.mp hjob).2
    simpa using (regards_iff.mp hr).1
  unfold goOnClosing
  rw [turnRetirements_of_idle hidle]
  dsimp only
  rw [hkept, part_duties_close id htask, setStage_self (part_stage?_close id htask)]
  rfl

end ProxyMap

end Replica
