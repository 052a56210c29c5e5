import Mathlib.Data.List.Forall2
import Replica.Proofs.Proxy.Separation
import Replica.Proofs.Proxy.Tries

/-!
# Look-ups take turns

Look-ups at an entry without a proxy go for it one after the other. At any moment they are in one of three
situations (`InTurn`): nobody is making a proxy, and those who have had their turn have had the errors of
their own tries; the next one in line is making a proxy; or a try has succeeded, and everybody after it is
answered with that proxy. This is kept by everything that happens, as long as nobody resets the peer,
closes the map or gives up waiting.
-/

namespace Replica.ProxyMap

variable {t u : TaskId} {m m' : ProxyMap} {e : EntryId} {h k : Handle} {id : PeerId} {entry : ProxyEntry}
variable {first : Handle} {callers : List TaskId} {now wake : Nat} {factory : Factory}

/-! ## What has ended -/

/-- The try has failed, and the call was answered with its error. -/
def Refused (e : EntryId) (m : ProxyMap) (t : TaskId) (h : Handle) : Prop :=
  ∃ err now, m.attempt? e h = some (some err, some .failed) ∧
    m.stage? t = some (.finished now (.proxy (.error err)))

/-- The call was answered with the proxy. -/
def Supplied (h : Handle) (m : ProxyMap) (t : TaskId) : Prop :=
  ∃ now, m.stage? t = some (.finished now (.proxy (.ok h)))

/-- Calls and tries that have ended are as they were. -/
structure Lasting (e : EntryId) (m m' : ProxyMap) : Prop where
  stage : ∀ t now a, m.stage? t = some (.finished now a) → m'.stage? t = some (.finished now a)
  attempt : ∀ h failure outcome, m.attempt? e h = some (failure, some outcome) →
    m'.attempt? e h = some (failure, some outcome)

/-- Whoever was refused stays refused while tries and answers last. -/
theorem Refused.lasts (hr : m.Refused e t h) (hlast : Lasting e m m') : m'.Refused e t h := by
  obtain ⟨err, now, hattempt, hs⟩ := hr
  exact ⟨err, now, hlast.attempt _ _ _ hattempt, hlast.stage _ _ _ hs⟩

/-- Whoever was supplied stays supplied while answers last. -/
theorem Supplied.lasts (hs : m.Supplied h t) (hlast : Lasting e m m') : m'.Supplied h t := by
  obtain ⟨now, hs⟩ := hs
  exact ⟨now, hlast.stage _ _ _ hs⟩

/-- Where the entry stays the same and answers stay, tries and answers last. -/
theorem SameAt.lasting (h : SameAt e m m')
    (hstage : ∀ t now a, m.stage? t = some (.finished now a) → m'.stage? t = some (.finished now a)) :
    Lasting e m m' :=
  ⟨hstage, fun k _ _ hk => (h.attempt k).trans hk⟩

/-! ## In turn -/

/-- How the callers of an entry stand, when nobody comes between them. -/
inductive InTurn (first : Handle) (e : EntryId) (callers : List TaskId) (m : ProxyMap) : Prop
  /-- Nobody is making a proxy. Those who have had their turn had the errors of their own tries. -/
  | idle {past waiting : List TaskId} {done : List Handle} {entry : ProxyEntry}
      (found : m.entries[e]? = some entry) (empty : entry.slot = none)
      (split : callers = past ++ waiting) (tries : m.tries first e = done)
      (refused : List.Forall₂ (m.Refused e) past done) (queue : entry.queue = waiting)
      (locking : ∀ t ∈ waiting, m.stage? t = some (.locking e))
      (renewed : done ≠ [] → entry.lifecycle.state = .new)
  /-- The next one in line is making a proxy. -/
  | trying {past rest : List TaskId} {t : TaskId} {done : List Handle} {h : Handle} {wake : Nat}
      {failure : Option PeerError} {entry : ProxyEntry}
      (found : m.entries[e]? = some entry) (empty : entry.slot = none)
      (split : callers = past ++ t :: rest) (tries : m.tries first e = done ++ [h])
      (refused : List.Forall₂ (m.Refused e) past done) (queue : entry.queue = t :: rest)
      (creating : m.stage? t = some (.creating e h wake))
      (attempt : m.attempt? e h = some (failure, none))
      (locking : ∀ u ∈ rest, m.stage? u = some (.locking e))
  /-- A try has succeeded, and whoever comes after it is answered with its proxy. -/
  | made {past rest : List TaskId} {t : TaskId} {done : List Handle} {h : Handle} {entry : ProxyEntry}
      (found : m.entries[e]? = some entry) (cached : entry.slot = some h)
      (split : callers = past ++ t :: rest) (tries : m.tries first e = done ++ [h])
      (refused : List.Forall₂ (m.Refused e) past done)
      (attempt : m.attempt? e h = some (none, some .created)) (supplied : m.Supplied h t)
      (others : ∀ u ∈ rest, m.stage? u = some (.locking e) ∨ m.Supplied h u)

/-- Whatever leaves the entry and its callers alone keeps them in turn. -/
theorem InTurn.of_same (hin : m.InTurn first e callers) (hsame : SameAt e m m')
    (hlooks : ∀ t, m.LooksAt t e → m'.stage? t = m.stage? t)
    (hended : ∀ t now a, m.stage? t = some (.finished now a) → m'.stage? t = some (.finished now a)) :
    m'.InTurn first e callers := by
  have hlast := hsame.lasting hended
  have hlocking : ∀ {t}, m.stage? t = some (.locking e) → m'.stage? t = some (.locking e) :=
    fun hs => (hlooks _ (.inl hs)).trans hs
  cases hin with
  | idle found empty split tries refused queue locking renewed =>
    exact .idle (hsame.entry.trans found) empty split (hsame.tries.trans tries)
      (refused.imp fun _ _ hr => hr.lasts hlast) queue (fun t ht => hlocking (locking t ht)) renewed
  | trying found empty split tries refused queue creating attempt locking =>
    exact .trying (hsame.entry.trans found) empty split (hsame.tries.trans tries)
      (refused.imp fun _ _ hr => hr.lasts hlast) queue
      ((hlooks _ (.inr ⟨_, _, creating⟩)).trans creating) ((hsame.attempt _).trans attempt)
      fun u hu => hlocking (locking u hu)
  | made found cached split tries refused attempt supplied others =>
    exact .made (hsame.entry.trans found) cached split (hsame.tries.trans tries)
      (refused.imp fun _ _ hr => hr.lasts hlast) ((hsame.attempt _).trans attempt)
      (supplied.lasts hlast) fun u hu => (others u hu).imp hlocking fun hs => hs.lasts hlast

/-! ## The head of the line -/

/-- A call at the head of the line does not stand in it again. -/
theorem Consistent.head_not_mem (hm : m.Consistent) (found : m.entries[e]? = some entry)
    {rest : List TaskId} (hqueue : entry.queue = t :: rest) (hl : m.LooksAt t e) : t ∉ rest := by
  have hcount := (hm.fits e entry found).demand t
  have hone : (m.around e).demand t = 1 := by
    rcases hl with hs | ⟨h, wake, hs⟩ <;> simp [demand_of_stage? hs]
  rw [hone, hqueue, List.count_cons_self, Nat.add_eq_right] at hcount
  exact List.count_eq_zero.mp hcount

/-- Whoever makes a proxy is at the head of the line of an entry that has none. -/
theorem Consistent.head_of_creating (hm : m.Consistent) (found : m.entries[e]? = some entry)
    (hs : m.stage? t = some (.creating e h wake)) :
    entry.queue = t :: entry.line ∧ entry.slot = none ∧ entry.lifecycle.state = .starting := by
  have hfits := hm.fits e entry found
  obtain ⟨howner, hstate, -⟩ := hfits.making t h ⟨wake, hs⟩
  exact ⟨ProxyEntry.queue_of_owner howner, hfits.slot_of_starting hstate, hstate⟩

/-- What happens at an entry changes the stage of the one call that it happens to. -/
theorem stage?_act_of_ne {x : EntryId} {f : ProxyEntry → ProxyEntry} {creations : List Creation}
    {s s₀ : ProxyStage} (hs : m.stage? t = some s₀) (hu : u ≠ t) :
    (m.act x f creations t s).stage? u = m.stage? u :=
  (stage?_act hs).trans (if_neg (Ne.symm hu))

/-- That call is at the new stage. -/
theorem stage?_act_self {x : EntryId} {f : ProxyEntry → ProxyEntry} {creations : List Creation}
    {s s₀ : ProxyStage} (hs : m.stage? t = some s₀) : (m.act x f creations t s).stage? t = some s :=
  (stage?_act hs).trans (if_pos rfl)

/-- The entry changes as it is said. -/
theorem entry_act {f : ProxyEntry → ProxyEntry} {creations : List Creation} {s : ProxyStage}
    (found : m.entries[e]? = some entry) : (m.act e f creations t s).entries[e]? = some (f entry) :=
  getElem?_modify_eq_some_iff.mpr ⟨entry, found, if_pos rfl⟩

/-- What has ended lasts when a call goes on that has not. -/
theorem lasting_act {f : ProxyEntry → ProxyEntry} {creations : List Creation} {s s₀ : ProxyStage}
    (hs : m.stage? t = some s₀) (hopen : ∀ now a, s₀ ≠ .finished now a)
    (hattempt : ∀ h failure outcome, m.attempt? e h = some (failure, some outcome) →
      (m.act e f creations t s).attempt? e h = some (failure, some outcome)) :
    Lasting e m (m.act e f creations t s) := by
  refine ⟨fun u now a hu => ?_, hattempt⟩
  have hne : u ≠ t := by
    rintro rfl
    exact hopen now a (Option.some.inj (hs.symm.trans hu))
  rwa [stage?_act_of_ne hs hne]

/-- What is noted of a try that has not ended says nothing of the others. -/
theorem lasting_act_ended {f : ProxyEntry → ProxyEntry} {s s₀ : ProxyStage} {outcome : CreationOutcome}
    {failure : Option PeerError} (hs : m.stage? t = some s₀) (hopen : ∀ now a, s₀ ≠ .finished now a)
    (attempt : m.attempt? e k = some (failure, none)) :
    Lasting e m (m.act e f (m.creations.modify k (Creation.ended outcome)) t s) := by
  refine lasting_act hs hopen fun j failure' outcome' hj => ?_
  rw [attempt?_act_ended, if_neg, hj]
  rintro rfl
  cases attempt.symm.trans hj

/-! ## Steps of the callers -/

/-- A call that has the lock and finds a proxy is answered with it, and hands the lock on. -/
theorem create_of_slot (found : m.entries[e]? = some entry) (hslot : entry.slot = some h) :
    m.create now factory t e = m.act e .unlock m.creations t (.finished now (.proxy (.ok h))) := by
  unfold create
  rw [found]
  simp only [hslot]
  rfl

/-- A call that has the lock and finds none begins a new creation, unless the entry is closed. -/
theorem create_of_empty (now : Nat) (factory : Factory) (t : TaskId) (hm : m.Consistent)
    (found : m.entries[e]? = some entry) (hslot : entry.slot = none) (hopen : ¬ m.IsClosed e) :
    ∃ c wake, c.entry = e ∧ c.outcome = none ∧ m.create now factory t e =
      m.act e (fun y => { y with lifecycle := y.lifecycle.withState .starting }) (m.creations ++ [c]) t
        (.creating e m.creations.length wake) := by
  have hfits := hm.fits e entry found
  have hstate : entry.lifecycle.state ≠ .closed := fun hs => hopen ⟨entry, found, hs⟩
  have hnot : ¬ entry.lifecycle.state.isClosingOrClosed = true :=
    fun hs => hstate (hfits.isClosingOrClosed_iff.mp hs)
  let c : Creation :=
    { peer := entry.peer, entry := e, script := factory m.creations entry.peer, calledAt := now }
  refine ⟨c, now + c.script.delay, rfl, rfl, ?_⟩
  unfold create
  rw [found]
  dsimp only
  split
  · next h hs => cases hslot.symm.trans hs
  · rw [if_neg hnot, hfits.prepare_eq_ok hslot hstate]
    dsimp only
    rw [set_eq_modify (fun y => { y with lifecycle := y.lifecycle.withState .starting }) found]
    rfl

/-- The holder of the lock tries, or takes the proxy that there is. -/
theorem InTurn.create (hin : m.InTurn first e callers) (hm : m.Consistent) (hopen : ¬ m.IsClosed e)
    (hfirst : first ≤ m.creations.length) (hs : m.stage? t = some (.locking e))
    (howns : m.owns e t = true) : (m.create now factory t e).InTurn first e callers := by
  have hhead : ∀ {entry : ProxyEntry}, m.entries[e]? = some entry → entry.queue = t :: entry.line := by
    intro entry found
    exact ProxyEntry.queue_of_owner (by simpa [owns, found] using howns)
  cases hin with
  | @idle past waiting done entry found empty split tries refused queue locking renewed =>
    obtain ⟨c, wake, hentry, houtcome, hcreate⟩ := create_of_empty now factory t hm found empty hopen
    have hqueue := hhead found
    have hnot := hm.head_not_mem found hqueue (.inl hs)
    rw [queue] at hqueue
    have hold : ∀ h, h ≠ m.creations.length → (m.create now factory t e).attempt? e h =
        m.attempt? e h := by
      intro h hh
      rw [hcreate, attempt?_act_concat hentry, if_neg hh]
    have hnew : (m.create now factory t e).attempt? e m.creations.length =
        some (c.script.failure, none) := by
      rw [hcreate, attempt?_act_concat hentry, if_pos rfl, houtcome]
    have hlast : Lasting e m (m.create now factory t e) := by
      rw [hcreate] at hold ⊢
      refine lasting_act hs (by rintro _ _ ⟨⟩) fun h failure outcome hh => ?_
      rw [hold h, hh]
      rintro rfl
      rw [attempt?_of_length_le (Nat.le_refl _)] at hh
      cases hh
    have found' : (m.create now factory t e).entries[e]? =
        some { entry with lifecycle := entry.lifecycle.withState .starting } := by
      rw [hcreate]
      exact entry_act found
    have htries : (m.create now factory t e).tries first e = done ++ [m.creations.length] := by
      rw [tries_concat hfirst (by simp [hcreate]) hold (by simp [hnew]), tries]
    refine .trying found' empty (split.trans (by rw [hqueue])) htries
      (refused.imp fun _ _ hr => hr.lasts hlast) (queue.trans hqueue) (hcreate ▸ stage?_act_self hs)
      hnew fun u hu => ?_
    · have hne : u ≠ t := fun heq => hnot (heq ▸ hu)
      rw [hcreate, stage?_act_of_ne hs hne]
      exact locking u (hqueue ▸ List.mem_cons_of_mem _ hu)
  | trying found empty split tries refused queue creating attempt locking =>
    obtain ⟨rfl, -⟩ := List.cons.inj ((hhead found).symm.trans queue)
    cases hs.symm.trans creating
  | @made past rest u done h entry found cached split tries refused attempt supplied others =>
    rw [create_of_slot found cached]
    have hlast : Lasting e m (m.act e .unlock m.creations t (.finished now (.proxy (.ok h)))) :=
      lasting_act hs (by rintro _ _ ⟨⟩) fun _ _ _ hh => hh
    refine .made (entry_act found) (ProxyEntry.unlock_slot.trans cached) split tries
      (refused.imp fun _ _ hr => hr.lasts hlast) attempt (supplied.lasts hlast) fun u hu => ?_
    rcases eq_or_ne u t with rfl | hne
    · exact .inr ⟨now, stage?_act_self hs⟩
    · exact (others u hu).imp (stage?_act_of_ne hs hne).trans fun hsup => hsup.lasts hlast

/-- Whoever has tried is answered with the outcome, and the next one in line holds the lock. -/
theorem InTurn.conclude (hin : m.InTurn first e callers) (hm : m.Consistent)
    (hs : m.stage? t = some (.creating e k wake)) : (m.conclude now t e k).InTurn first e callers := by
  cases hin with
  | idle found empty split tries refused queue locking renewed =>
    obtain ⟨hqueue, -⟩ := hm.head_of_creating found hs
    cases hs.symm.trans (locking t (queue ▸ hqueue ▸ List.mem_cons_self))
  | @trying past rest u done h wake' failure entry found empty split tries refused queue creating attempt
      locking =>
    obtain ⟨hqueue, -, hstate⟩ := hm.head_of_creating found hs
    obtain ⟨rfl, rfl⟩ := List.cons.inj (hqueue.symm.trans queue)
    cases hs.symm.trans creating
    obtain ⟨c, hc, hentry, hattempt⟩ := attempt?_eq_some_iff.mp attempt
    obtain ⟨hfailure, houtcome⟩ := Prod.mk.inj hattempt
    have hnot := hm.head_not_mem found hqueue (.inr ⟨_, _, hs⟩)
    have hstays : ∀ {f creations s} {v : TaskId}, v ∈ entry.line →
        (m.act e f creations t s).stage? v = some (.locking e) := fun hv =>
      (stage?_act_of_ne hs fun heq => hnot (heq ▸ hv)).trans (locking _ hv)
    -- the tries from before have ended, so what is noted is noted of this one
    have hended : ∀ {f s} {outcome : CreationOutcome}, Lasting e m
        (m.act e f (m.creations.modify k (Creation.ended outcome)) t s) :=
      lasting_act_ended hs (by rintro _ _ ⟨⟩) attempt
    have htries : ∀ {f s} {outcome : CreationOutcome},
        (m.act e f (m.creations.modify k (Creation.ended outcome)) t s).tries first e = done ++ [k] :=
      tries_act_ended.trans tries
    have hnoted : ∀ {f s} {outcome : CreationOutcome},
        (m.act e f (m.creations.modify k (Creation.ended outcome)) t s).attempt? e k =
          some (failure, some outcome) := by
      intro f s outcome
      rw [attempt?_act_ended, if_pos rfl, attempt]
      rfl
    cases failure with
    | none =>
      rw [conclude_of_made found hc hfailure, ProxyEntry.install_eq hstate]
      refine .made (entry_act found) ?_ split htries (refused.imp fun _ _ hr => hr.lasts hended) hnoted
        ⟨now, stage?_act_self hs⟩ fun v hv => .inl (hstays hv)
      rw [ProxyEntry.unlock_slot, ProxyEntry.install_slot]
    | some err =>
      rw [conclude_of_failed found hc hfailure]
      have hstep : List.Forall₂ (Refused e (m.act e (fun y => y.giveUp.unlock)
          (m.creations.modify k (Creation.ended .failed)) t (.finished now (.proxy (.error err)))))
          (past ++ [t]) (done ++ [k]) :=
        List.rel_append (refused.imp fun _ _ hr => hr.lasts hended)
          (.cons ⟨err, now, hnoted, stage?_act_self hs⟩ .nil)
      refine .idle (entry_act found) ?_ (split.trans (by simp)) htries hstep ?_ (fun v hv => hstays hv) ?_
      · rw [ProxyEntry.unlock_slot, ProxyEntry.giveUp_eq hstate]
        exact empty
      · rw [ProxyEntry.queue_unlock]
        rfl
      · intro _
        rw [ProxyEntry.unlock_lifecycle, ProxyEntry.giveUp_eq hstate]
        rfl
  | made found cached split tries refused attempt supplied others =>
    obtain ⟨-, hslot, -⟩ := hm.head_of_creating found hs
    cases cached.symm.trans hslot

/-! ## Arrivals -/

/-- A new call comes after all that have a stage, and leaves their stages as they are. -/
theorem stage?_enter_of_some {s : ProxyStage} (call : ProxyCall) (hs : m.stage? u = some s) :
    u ≠ m.tasks.length ∧ (m.enter call).stage? u = some s := by
  have hne : u ≠ m.tasks.length := by
    rintro rfl
    cases stage?_length.symm.trans hs
  exact ⟨hne, (stage?_call.trans (if_neg hne)).trans hs⟩

/-- A look-up that queues leaves the stages of the others as they are. -/
theorem stage?_queued_of_some {s : ProxyStage} (hs : m.stage? u = some s) :
    (m.queued id e).stage? u = some s := by
  obtain ⟨hne, hentered⟩ := stage?_enter_of_some (.lookUp id) hs
  have hnew : (m.enter (.lookUp id)).stage? m.tasks.length = some (.retiring [] .done) :=
    stage?_eq_some_iff.mpr ⟨_, tasks_enter _⟩
  exact (stage?_act_of_ne hnew hne).trans hentered

/-- It asks for the lock of the entry. -/
theorem found_queued (found : m.entries[e]? = some entry) :
    (m.queued id e).entries[e]? = some (entry.lock m.tasks.length) :=
  entry_act (m := m.enter (.lookUp id)) found

/-- A look-up that finds no proxy stands behind all others. -/
theorem InTurn.queued (id : PeerId) (hin : m.InTurn first e callers) (hm : m.Consistent)
    (found : m.entries[e]? = some entry) (hslot : entry.slot = none) :
    (m.queued id e).InTurn first e (callers ++ [m.tasks.length]) := by
  have hlast : Lasting e m (m.queued id e) :=
    ⟨fun _ _ _ hs => stage?_queued_of_some hs, fun _ _ _ hh => hh⟩
  have hempty : (entry.lock m.tasks.length).slot = none := ProxyEntry.lock_slot.trans hslot
  have hqueue := (hm.fits e entry found).noLineIfFree.queue_lock (t := m.tasks.length)
  have hlocking : ∀ {waiting : List TaskId}, (∀ t ∈ waiting, m.stage? t = some (.locking e)) →
      ∀ t ∈ waiting ++ [m.tasks.length], (m.queued id e).stage? t = some (.locking e) := by
    intro waiting hwaiting t ht
    rcases List.mem_append.mp ht with ht | ht
    · exact stage?_queued_of_some (hwaiting t ht)
    · rw [List.mem_singleton.mp ht]
      exact stage?_queued
  cases hin with
  | idle found' empty split tries refused queue locking renewed =>
    cases found.symm.trans found'
    refine .idle (found_queued found) hempty (by rw [split, List.append_assoc]) tries
      (refused.imp fun _ _ hr => hr.lasts hlast) (by rw [hqueue, queue]) (hlocking locking) fun hdone => ?_
    rw [ProxyEntry.lock_lifecycle]
    exact renewed hdone
  | trying found' empty split tries refused queue creating attempt locking =>
    cases found.symm.trans found'
    exact .trying (found_queued found) hempty (by rw [split, List.append_assoc, List.cons_append]) tries
      (refused.imp fun _ _ hr => hr.lasts hlast) (by rw [hqueue, queue, List.cons_append])
      (stage?_queued_of_some creating) attempt (hlocking locking)
  | made found' cached =>
    cases found.symm.trans found'
    cases hslot.symm.trans cached

/-- A look-up that queues does not close the entry. -/
theorem isClosed_queued (found : m.entries[e]? = some entry) (hclosed : (m.queued id e).IsClosed e) :
    m.IsClosed e :=
  isClosed_of_act (m := m.enter (.lookUp id)) found ProxyEntry.lock_lifecycle hclosed

/-- A look-up that arrives is the last one of the callers. -/
theorem InTurn.arrive (hin : m.InTurn first e callers) (hm : m.Consistent) (hopen : m.closed = false)
    (hget : m.registry.get? id = some e) (hlive : ¬ m.IsClosed e) (hfirst : first ≤ m.creations.length)
    (now : Nat) (factory : Factory) :
    (m.begin now factory (.lookUp id)).InTurn first e (callers ++ [m.tasks.length]) := by
  obtain ⟨entry, found, -⟩ := hm.registered id e hget
  cases hslot : entry.slot with
  | none =>
    have hqueued := hin.queued id hm found hslot
    rw [begin_lookUp_of_empty hopen hget found hslot]
    split
    · next howns =>
      exact hqueued.create (hm.queued hopen hget) (fun hc => hlive (isClosed_queued found hc)) hfirst
        stage?_queued howns
    · exact hqueued
  | some h =>
    rw [begin_lookUp_of_slot hopen hget found hslot]
    have hnew : (m.enter (.lookUp id)).stage? m.tasks.length = some (.retiring [] .done) :=
      stage?_eq_some_iff.mpr ⟨_, tasks_enter _⟩
    have hold : ∀ {u s}, m.stage? u = some s →
        ((m.enter (.lookUp id)).finish now m.tasks.length (.proxy (.ok h))).stage? u = some s := by
      intro u s hs
      obtain ⟨hne, hentered⟩ := stage?_enter_of_some (.lookUp id) hs
      exact (stage?_setStage hnew).trans ((if_neg (Ne.symm hne)).trans hentered)
    have hlast : Lasting e m ((m.enter (.lookUp id)).finish now m.tasks.length (.proxy (.ok h))) :=
      ⟨fun _ _ _ => hold, fun _ _ _ hh => hh⟩
    cases hin with
    | idle found' empty | trying found' empty =>
      cases found.symm.trans found'
      cases hslot.symm.trans empty
    | made found' cached split tries refused attempt supplied others =>
      cases found.symm.trans found'
      cases hslot.symm.trans cached
      refine .made found hslot (by rw [split, List.append_assoc, List.cons_append]) tries
        (refused.imp fun _ _ hr => hr.lasts hlast) attempt (supplied.lasts hlast) fun u hu => ?_
      rcases List.mem_append.mp hu with hu | hu
      · exact (others u hu).imp hold fun hs => hs.lasts hlast
      · rw [List.mem_singleton.mp hu]
        exact .inr ⟨now, stage?_setStage_self hnew⟩

/-! ## Turns -/

/-- A call that neither looks at the entry nor retires it does not want its lock. -/
theorem not_wanted (hlooks : ¬ m.LooksAt t e) (hretires : ¬ m.Retires t e) : e ∉ m.wanted t :=
  fun hmem => (looksAt_or_retires hmem).elim hlooks hretires

/-- Whoever does not look at the entry leaves the callers where they are, in a turn and when it is
cancelled. -/
theorem stays_of_actor (event : Event) (hm : m.Consistent) (hother : ¬ m.LooksAt (event.actor m) e)
    (hidle : ∀ now a, m.stage? (event.actor m) = some (.finished now a) → m.step event = m) :
    (∀ t, m.LooksAt t e → (m.step event).stage? t = m.stage? t) ∧
      ∀ t now a, m.stage? t = some (.finished now a) →
        (m.step event).stage? t = some (.finished now a) := by
  refine ⟨fun t hl => stage?_step_of_ne hm fun heq => hother (heq ▸ hl), fun t now a hs => ?_⟩
  by_cases ht : t = event.actor m
  · rw [hidle now a (ht ▸ hs), hs]
  · rw [stage?_step_of_ne hm ht, hs]

/-- Every turn keeps the callers in turn. -/
theorem InTurn.turn (hin : m.InTurn first e callers) (hm : m.Consistent) (hlive : ¬ m.IsClosed e)
    (hspared : ∀ t, ¬ m.Retires t e) (hfirst : first ≤ m.creations.length) (now : Nat)
    (factory : Factory) (t : TaskId) : (m.turn now factory t).InTurn first e callers := by
  by_cases hl : m.LooksAt t e
  · rcases hl with hs | ⟨k, wake, hs⟩
    · rw [ProxyMap.turn, hs]
      dsimp only
      split
      · next howns => exact hin.create hm hlive hfirst hs howns
      · exact hin
    · rw [ProxyMap.turn, hs]
      dsimp only
      split
      · exact hin.conclude hm hs
      · exact hin
  · obtain ⟨hlooks, hended⟩ := stays_of_actor (.turn now factory t) hm hl
      fun now' a hs => turn_of_idle hs (.inr ⟨now', a, rfl⟩)
    exact hin.of_same (sameAt_turn hm (not_wanted hl (hspared t))) hlooks hended

/-- Somebody else is cancelled. -/
theorem InTurn.cancel (hin : m.InTurn first e callers) (hm : m.Consistent)
    (hspared : ∀ t, ¬ m.Retires t e) (hl : ¬ m.LooksAt t e) : (m.cancel t).1.InTurn first e callers := by
  obtain ⟨hlooks, hended⟩ := stays_of_actor (.cancel t) hm hl
    fun now' a hs => cancel_of_idle hs (.inr ⟨now', a, rfl⟩)
  exact hin.of_same (sameAt_cancel hm (not_wanted hl (hspared t))) hlooks hended

/-! ## Runs -/

/-- Somebody comes between the callers of the entry: the map is closed, the peer is reset, or one of the
callers gives up. -/
def Disturbs (id : PeerId) (e : EntryId) (m : ProxyMap) : Event → Prop
  | .begin _ _ call => call = .close ∨ call.Renews id
  | .cancel t => m.LooksAt t e
  | .register _ | .turn _ _ _ => False

/-- Nobody comes between the callers of the entry. -/
def Undisturbed (id : PeerId) (e : EntryId) (m : ProxyMap) (events : List Event) : Prop :=
  ∀ before event after, events = before ++ event :: after → ¬ (m.run before).Disturbs id e event

/-- Nothing disturbs where nothing happens. -/
theorem undisturbed_nil : m.Undisturbed id e [] := by
  intro before event after heq
  simp at heq

/-- A run is undisturbed if its first event does not disturb and the others do not either. -/
theorem undisturbed_cons {event : Event} {events : List Event} (hevent : ¬ m.Disturbs id e event)
    (hevents : (m.step event).Undisturbed id e events) : m.Undisturbed id e (event :: events) := by
  intro before event' after heq
  cases before with
  | nil =>
    cases heq
    exact hevent
  | cons head before =>
    obtain ⟨rfl, rfl⟩ := List.cons.inj heq
    exact hevents before event' after rfl

/-- The call that the event begins, if it looks the peer up. -/
def arrival? (id : PeerId) (m : ProxyMap) : Event → Option TaskId
  | .begin _ _ (.lookUp id') => if id' = id then some m.tasks.length else none
  | _ => none

/-- The calls that look the peer up, in the order in which they come. -/
def arrivals (id : PeerId) (m : ProxyMap) : List Event → List TaskId
  | [] => []
  | event :: events => (m.arrival? id event).toList ++ (m.step event).arrivals id events

/-- The last event adds whoever arrives with it to those who have arrived. -/
theorem arrivals_concat (id : PeerId) (m : ProxyMap) (events : List Event) (event : Event) :
    m.arrivals id (events ++ [event]) =
      m.arrivals id events ++ ((m.run events).arrival? id event).toList := by
  induction events generalizing m with
  | nil => simp [arrivals]
  | cons head events ih =>
    rw [List.cons_append, arrivals, arrivals, ih, List.append_assoc]
    rfl

/-- Creations are only added. -/
theorem CreationsGrow.length_le {cs cs' : List Creation} (h : CreationsGrow cs cs') :
    cs.length ≤ cs'.length := by
  by_contra hlt
  obtain ⟨c, hc, -⟩ := h cs'.length _ (List.getElem?_eq_getElem (Nat.not_le.mp hlt))
  simp at hc

/-- A map in which the callers of an entry are in turn, and the entry is still registered. -/
structure Attended (first : Handle) (id : PeerId) (e : EntryId) (callers : List TaskId) (m : ProxyMap) :
    Prop where
  isOpen : m.closed = false
  registered : m.registry.get? id = some e
  first_le : first ≤ m.creations.length
  inTurn : m.InTurn first e callers

/-- A look-up of a registered peer leaves the peer with its entry. -/
theorem get?_begin_lookUp (hm : m.Consistent) (hopen : m.closed = false)
    (hget : m.registry.get? id = some e) (now : Nat) (factory : Factory) :
    (m.begin now factory (.lookUp id)).registry.get? id = some e := by
  obtain ⟨entry, found, -⟩ := hm.registered id e hget
  cases hslot : entry.slot with
  | some h =>
    rw [begin_lookUp_of_slot hopen hget found hslot]
    exact hget
  | none =>
    rw [begin_lookUp_of_empty hopen hget found hslot]
    split
    · next howns =>
      have hcreate : Advances (fun _ => False) m.tasks.length (m.queued id e)
          ((m.queued id e).create now factory m.tasks.length e) :=
        create_advances (hm.queued hopen hget) stage?_queued howns
      exact hcreate.registry_eq ▸ hget
    · exact hget

/-- Whatever happens, the callers stay in turn, and whoever looks the peer up is one of them. -/
theorem Attended.step (ha : m.Attended first id e callers) (hm : m.Consistent) (hlive : m.Live)
    {event : Event} (hcalm : ¬ m.Disturbs id e event) :
    (m.step event).Attended first id e (callers ++ (m.arrival? id event).toList) := by
  obtain ⟨hopen, hget, hfirst, hin⟩ := ha
  obtain ⟨entry, found, -⟩ := hm.registered id e hget
  obtain ⟨hclosed, hspared⟩ := hlive hopen id e hget
  have hlength := Nat.le_trans hfirst
    (CreationsGrow.length_le (Grows.run hm [event]).creations)
  cases event with
  | register peer =>
    obtain ⟨hsame, hget'⟩ := sameAt_register hget found peer
    have hstage : ∀ t, (m.register peer).stage? t = m.stage? t := fun t => stage?_register peer
    refine ⟨?_, hget', hlength, ?_⟩
    · show (m.register peer).closed = false
      unfold register
      split <;> exact hopen
    · show (m.register peer).InTurn first e (callers ++ [])
      rw [List.append_nil]
      exact hin.of_same hsame (fun t _ => hstage t) fun t _ _ hs => (hstage t).trans hs
  | begin now factory call =>
    have hclose : call ≠ .close := fun heq => hcalm (.inl heq)
    have hrenews : ¬ call.Renews id := fun hr => hcalm (.inr hr)
    have hopen' : (m.begin now factory call).closed = false := (closed_begin hclose).trans hopen
    by_cases hlooks : call = .lookUp id
    · subst hlooks
      refine ⟨hopen', get?_begin_lookUp hm hopen hget now factory, hlength, ?_⟩
      rw [arrival?, if_pos rfl]
      exact hin.arrive hm hopen hget hclosed hfirst now factory
    · have hnone : m.arrival? id (.begin now factory call) = none := by
        cases call with
        | lookUp id' => exact if_neg fun heq => hlooks (congrArg ProxyCall.lookUp heq)
        | _ => rfl
      obtain ⟨hsame, hget'⟩ := sameAt_begin now factory hm hget hlooks hclose hrenews
      have hnew : ∀ s, m.stage? m.tasks.length ≠ some s := fun s hs => by
        cases stage?_length.symm.trans hs
      have hother : ¬ m.LooksAt m.tasks.length e := by
        rintro (hs | ⟨h, wake, hs⟩) <;> exact hnew _ hs
      obtain ⟨hlooks', hended⟩ := stays_of_actor (.begin now factory call) hm hother
        fun now' a hs => absurd hs (hnew _)
      refine ⟨hopen', hget', hlength, ?_⟩
      rw [hnone, Option.toList_none, List.append_nil]
      exact hin.of_same hsame hlooks' hended
  | turn now factory t =>
    have hturn : Advances (fun _ => False) t m (m.turn now factory t) := turn_advances hm
    refine ⟨hturn.closed_eq.trans hopen, hturn.registry_eq ▸ hget, hlength, ?_⟩
    show (m.turn now factory t).InTurn first e (callers ++ [])
    rw [List.append_nil]
    exact hin.turn hm hclosed hspared hfirst now factory t
  | cancel t =>
    have hcancel : Advances (fun _ => True) t m (m.cancel t).1 :=
      cancel_advances hm (fun _ _ => trivial) fun _ _ => trivial
    refine ⟨hcancel.closed_eq.trans hopen, hcancel.registry_eq ▸ hget, hlength, ?_⟩
    show (m.cancel t).1.InTurn first e (callers ++ [])
    rw [List.append_nil]
    exact hin.cancel hm hspared hcalm

/-- The first part of an undisturbed run is undisturbed. -/
theorem Undisturbed.of_append {before after : List Event} (h : m.Undisturbed id e (before ++ after)) :
    m.Undisturbed id e before := by
  intro before' event after' heq
  exact h before' event (after' ++ after) (by rw [heq, List.append_assoc, List.cons_append])

/-- Along an undisturbed run those who look the peer up take turns, in the order in which they have
come. -/
theorem Attended.run {name : String} {before events : List Event}
    (ha : (reached name before).Attended first id e callers)
    (hcalm : (reached name before).Undisturbed id e events) :
    ((reached name before).run events).Attended first id e
      (callers ++ (reached name before).arrivals id events) := by
  induction events using List.reverseRecOn with
  | nil => simpa [arrivals] using ha
  | append_singleton events event ih =>
    have hreached : (reached name before).run events = reached name (before ++ events) :=
      (run_append _ _ _).symm
    rw [run_concat, arrivals_concat, ← List.append_assoc]
    exact (ih hcalm.of_append).step (hreached ▸ Consistent.reached name _)
      (hreached ▸ Live.reached name _) (hcalm events event [] rfl)

/-! ## The beginning -/

/-- While somebody makes a proxy for the entry, the first try to come is the one under way. -/
theorem firstTry_of_creating (found : m.entries[e]? = some entry) (howner : entry.owner = some t)
    (hs : m.stage? t = some (.creating e h wake)) : m.firstTry e = h := by
  simp [firstTry, found, howner, hs]

/-- While nobody makes a proxy for the entry, the first try to come is the next creation. -/
theorem firstTry_of_locking (found : m.entries[e]? = some entry)
    (hlocking : ∀ t, entry.owner = some t → m.stage? t = some (.locking e)) :
    m.firstTry e = m.creations.length := by
  cases howner : entry.owner with
  | none => simp [firstTry, found, howner]
  | some t => simp [firstTry, found, howner, hlocking t howner]

/-- A call of the factory that is under way is the only one from its number on. -/
theorem tries_of_latest (hattempt : (m.attempt? e h).isSome)
    (hlatest : ∀ k, (m.attempt? e k).isSome → k ≤ h) : m.tries h e = [h] := by
  have hnodup : (m.tries h e).Nodup := List.nodup_range.filter _
  refine List.perm_singleton.mp ((List.perm_ext_iff_of_nodup hnodup (List.pairwise_singleton _ h)).mpr ?_)
  intro k
  rw [mem_tries_iff, List.mem_singleton]
  constructor
  · rintro ⟨hle, hsome⟩
    exact Nat.le_antisymm (hlatest k hsome) hle
  · rintro rfl
    exact ⟨Nat.le_refl _, hattempt⟩

/-- No tries come after all creations. -/
theorem tries_length : m.tries m.creations.length e = [] := by
  refine List.eq_nil_iff_forall_not_mem.mpr fun h hh => ?_
  obtain ⟨hle, hsome⟩ := mem_tries_iff.mp hh
  simp [attempt?_of_length_le hle] at hsome

/-- While there is no proxy, those who are in line are in turn. -/
theorem InTurn.start (hm : m.Consistent) (hspared : ∀ t, ¬ m.Retires t e)
    (found : m.entries[e]? = some entry) (hslot : entry.slot = none) :
    m.InTurn (m.firstTry e) e entry.queue ∧ m.firstTry e ≤ m.creations.length := by
  have hfits := hm.fits e entry found
  have hlooks : ∀ t ∈ entry.queue, m.LooksAt t e := fun t ht =>
    ((hm.mem_queue_iff found).mp ht).resolve_right (hspared t)
  by_cases hmaking : ∃ t h wake, m.stage? t = some (.creating e h wake)
  · obtain ⟨t, h, wake, hs⟩ := hmaking
    obtain ⟨howner, -, ⟨c, hc, houtcome⟩, hlatest⟩ := hfits.making t h ⟨wake, hs⟩
    have hqueue := ProxyEntry.queue_of_owner howner
    have hattempt : m.attempt? e h = some (c.script.failure, none) := by
      rw [attempt?, hc, Option.map_some, houtcome]
    have htries : m.tries h e = [] ++ [h] := by
      refine tries_of_latest (by rw [hattempt]; rfl) fun k hk => ?_
      rw [attempt?, Option.isSome_map] at hk
      obtain ⟨d, hd⟩ := Option.isSome_iff_exists.mp hk
      exact hlatest k d hd
    rw [firstTry_of_creating found howner hs]
    refine ⟨.trying found hslot (hqueue.trans (List.nil_append _).symm) htries .nil hqueue hs hattempt
      fun u hu => ?_, Nat.le_of_lt (lt_length_of_getElem? (around_made_eq_some_iff.mp hc).1)⟩
    -- only the holder of the lock makes a proxy, and it does not stand in line again
    rcases hlooks u (hqueue ▸ List.mem_cons_of_mem _ hu) with hu' | ⟨k, wake', hu'⟩
    · exact hu'
    · obtain rfl := hfits.eq_of_making howner ⟨wake', hu'⟩
      exact absurd hu (hm.head_not_mem found hqueue (.inr ⟨h, wake, hs⟩))
  · have hlocking : ∀ t ∈ entry.queue, m.stage? t = some (.locking e) := by
      intro t ht
      rcases hlooks t ht with hs | ⟨h, wake, hs⟩
      · exact hs
      · exact absurd ⟨t, h, wake, hs⟩ hmaking
    have howner : ∀ t, entry.owner = some t → m.stage? t = some (.locking e) := fun t ht =>
      hlocking t (ProxyEntry.queue_of_owner ht ▸ List.mem_cons_self)
    rw [firstTry_of_locking found howner]
    exact ⟨.idle found hslot (List.nil_append _).symm tries_length .nil rfl hlocking
      fun hne => absurd rfl hne, Nat.le_refl _⟩

/-- From any moment at which the entry is registered in an open map and there is no proxy, its callers are
in turn as long as nobody comes between them: those who are in line by then and those who come. -/
theorem attended_run {name : String} {before events : List Event}
    (hopen : (reached name before).closed = false)
    (hget : (reached name before).registry.get? id = some e)
    (found : (reached name before).entries[e]? = some entry) (hslot : entry.slot = none)
    (hcalm : (reached name before).Undisturbed id e events) :
    ((reached name before).run events).Attended ((reached name before).firstTry e) id e
      (entry.queue ++ (reached name before).arrivals id events) := by
  obtain ⟨-, hspared⟩ := Live.reached name before hopen id e hget
  obtain ⟨hin, hfirst⟩ := InTurn.start (Consistent.reached name before) hspared found hslot
  exact Attended.run ⟨hopen, hget, hfirst, hin⟩ hcalm

end Replica.ProxyMap
