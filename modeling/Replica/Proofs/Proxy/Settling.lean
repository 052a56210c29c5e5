import Replica.Proofs.Proxy.PartOfTurns
import Replica.Proofs.Time.Ticks

/-!
# Proxy maps settle

Every turn of a call that can go on brings the call further, so there is an end to turns, and who sleeps
wakes at the time that was announced (`punctual`). Turns neither begin calls nor change what they are about
(`calls_turn`).
-/

namespace Replica.ProxyMap

variable {m : ProxyMap} {id : PeerId} {e : EntryId} {h : Handle} {t : TaskId} {now : Nat}
variable {factory : Factory} {entry : ProxyEntry} {s : ProxyStage}
variable {job : Retirement} {jobs : List Retirement} {a : ProxyAnswer}

/-! ## One turn -/

/-- The call goes on to a stage with less left to do, and no other call goes on. -/
def Progresses (t : TaskId) (m m' : ProxyMap) : Prop :=
  ∃ call s s', m.tasks[t]? = some ⟨call, s⟩ ∧ s'.effort < s.effort ∧ m'.tasks = m.tasks.set t ⟨call, s'⟩

theorem progresses_setStage {call : ProxyCall} {s' : ProxyStage} (m' : ProxyMap) (htasks : m'.tasks = m.tasks)
    (htask : m.tasks[t]? = some ⟨call, s⟩) (hless : s'.effort < s.effort) :
    Progresses t m (m'.setStage t s') := by
  refine ⟨call, s, s', htask, hless, ?_⟩
  rw [← htasks] at htask ⊢
  exact (set_eq_modify (fun task : ProxyTask => { task with stage := s' }) htask).symm

theorem create_progresses (hm : m.Separate) (hstage : m.stage? t = some (.locking e)) :
    Progresses t m (m.create now factory t e) := by
  obtain ⟨call, id, htask, -, entry, found, -⟩ := hm.of_locking hstage
  rcases create_cases found with ⟨answer, -, heq⟩ | ⟨lifecycle, script, heq⟩
  · rw [heq]
    exact progresses_setStage (m.modifyEntry e .unlock) rfl htask (Nat.zero_lt_two)
  · rw [heq]
    exact progresses_setStage ((m.addCreation _).modifyEntry e _) rfl htask (Nat.one_lt_two)

theorem conclude_progresses {wake : Nat} (hm : m.Separate)
    (hstage : m.stage? t = some (.creating e h wake)) : Progresses t m (m.conclude now t e h) := by
  obtain ⟨call, id, htask, -, ⟨entry, found, -⟩, c, made, -⟩ := hm.of_creating hstage
  cases hfailure : c.script.failure with
  | some err =>
    rw [conclude_of_failed found made hfailure]
    exact progresses_setStage ((m.modifyEntry e _).modifyCreation h _) rfl htask Nat.one_pos
  | none =>
    rw [conclude_of_made found made hfailure]
    exact progresses_setStage ((m.modifyEntry e _).modifyCreation h _) rfl htask Nat.one_pos

/-- A retirement that gets the lock has at most the closing of the proxy ahead of it. -/
theorem effort_retire (m : ProxyMap) (now : Nat) (e : EntryId) : (m.retire now e).2.effort ≤ 1 := by
  cases found : m.entries[e]? with
  | none => simp [retire, found, Retirement.effort]
  | some entry =>
    rw [retire_eq_match found]
    cases entry.retire.2 <;> simp [Retirement.effort]

theorem effort_turnRetirement (hready : m.retirementReady now t job = true) :
    (m.turnRetirement now t job).2.effort < job.effort := by
  cases job with
  | locking e =>
    have hretire := effort_retire m now e
    simp only [retirementReady] at hready
    simp only [turnRetirement, hready, if_true]
    exact Nat.lt_succ_of_le hretire
  | closing e h wake =>
    simp only [retirementReady, decide_eq_true_eq] at hready
    simp [turnRetirement, hready, Retirement.effort]
  | finished e => cases hready

theorem effort_turnRetirement_le : (m.turnRetirement now t job).2.effort ≤ job.effort := by
  cases hready : m.retirementReady now t job with
  | true => exact Nat.le_of_lt (effort_turnRetirement hready)
  | false => rw [turnRetirement_of_idle hready]

theorem effort_turnRetirements_le :
    (ProxyStage.retiring (m.turnRetirements now t jobs).2 a).effort ≤ (ProxyStage.retiring jobs a).effort := by
  induction jobs generalizing m with
  | nil => exact Nat.le_refl _
  | cons job jobs ih =>
    simp only [turnRetirements, ProxyStage.effort, List.foldr_cons]
    exact Nat.add_le_add effort_turnRetirement_le ih

theorem effort_turnRetirements (hready : jobs.any (m.retirementReady now t) = true) :
    (ProxyStage.retiring (m.turnRetirements now t jobs).2 a).effort < (ProxyStage.retiring jobs a).effort := by
  induction jobs with
  | nil => cases hready
  | cons job jobs ih =>
    simp only [turnRetirements, ProxyStage.effort, List.foldr_cons]
    cases hfirst : m.retirementReady now t job with
    | true =>
      exact Nat.add_lt_add_of_lt_of_le (effort_turnRetirement hfirst) (effort_turnRetirements_le (a := a))
    | false =>
      rw [List.any_cons, hfirst, Bool.false_or] at hready
      rw [turnRetirement_of_idle hfirst]
      exact Nat.add_lt_add_left (ih hready) _

/-- A call that can go on comes further. -/
theorem turn_progresses (factory : Factory) (hm : m.Separate) (hready : m.isReady now t = true) :
    Progresses t m (m.turn now factory t) := by
  unfold isReady at hready
  unfold turn
  cases hstage : m.stage? t with
  | none => simp [hstage] at hready
  | some s =>
    rw [hstage] at hready
    cases s with
    | locking e =>
      simp only [hready, if_true]
      exact create_progresses hm hstage
    | creating e h wake =>
      have hwake : wake ≤ now := by simpa using hready
      simp only [hwake, if_true]
      exact conclude_progresses hm hstage
    | retiring jobs a =>
      obtain ⟨call, htask⟩ := stage?_eq_some_iff.mp hstage
      have hless := effort_turnRetirements (a := a) hready
      dsimp only [continueRetiring]
      split
      · exact progresses_setStage _ tasks_turnRetirements htask (Nat.zero_lt_of_lt hless)
      · exact progresses_setStage _ tasks_turnRetirements htask hless
    | finished time a => cases hready
    | cancelled => cases hready

/-! ## Calls -/

/-- What the calls on the map were. -/
def calls (m : ProxyMap) : List ProxyCall := m.tasks.map (·.call)

theorem calls_setStage : (m.setStage t s).calls = m.calls := by
  apply List.ext_getElem?
  intro u
  simp only [calls, setStage, List.getElem?_map, List.getElem?_modify]
  split <;> cases m.tasks[u]? <;> rfl

theorem calls_create : (m.create now factory t e).calls = m.calls := by
  cases found : m.entries[e]? with
  | none => simp only [create, found]
  | some entry =>
    rcases create_cases found with ⟨answer, -, heq⟩ | ⟨lifecycle, script, heq⟩
    · exact (congrArg calls heq).trans (calls_setStage (m := m.modifyEntry e .unlock))
    · exact (congrArg calls heq).trans (calls_setStage (m := (m.addCreation _).modifyEntry e _))

theorem calls_conclude : (m.conclude now t e h).calls = m.calls := by
  unfold conclude
  split
  · split
    · exact calls_setStage
    · exact calls_setStage
  · rfl

theorem calls_continueRetiring : (m.continueRetiring now t jobs a).calls = m.calls := by
  have htasks : (m.turnRetirements now t jobs).1.calls = m.calls := by
    rw [calls, tasks_turnRetirements, calls]
  dsimp only [continueRetiring]
  split
  · exact calls_setStage.trans htasks
  · exact calls_setStage.trans htasks

/-- Turns neither begin calls nor change what they are about. -/
theorem calls_turn : (m.turn now factory t).calls = m.calls := by
  unfold turn
  split
  · split
    · exact calls_create
    · rfl
  · split
    · exact calls_conclude
    · rfl
  · exact calls_continueRetiring
  · rfl

/-! ## Sleep -/

theorem lt_alarm_of_not_ready {instant : Nat} (hstage : m.stage? t = some s)
    (hready : m.isReady now t = false) (halarm : s.alarm? = some instant) : now < instant := by
  simp only [isReady, hstage] at hready
  cases s with
  | creating e h wake =>
    cases halarm
    simpa using hready
  | retiring jobs a =>
    obtain ⟨job, hjob, hwake⟩ := List.mem_filterMap.mp (List.min?_mem halarm)
    simp only [List.any_eq_false] at hready
    have hidle := hready job hjob
    cases job with
    | closing e h wake =>
      cases hwake
      simpa [retirementReady] using hidle
    | locking | finished => cases hwake
  | locking | finished | cancelled => cases halarm

/-- Who waits goes on waiting until the alarm. -/
theorem not_ready_of_lt_alarm {later : Nat} (hstage : m.stage? t = some s)
    (hready : m.isReady now t = false) (halarm : ∀ instant, s.alarm? = some instant → later < instant) :
    m.isReady later t = false := by
  simp only [isReady, hstage] at hready ⊢
  cases s with
  | locking e => exact hready
  | creating e h wake =>
    have hlater := halarm wake rfl
    simpa using hlater
  | retiring jobs a =>
    simp only [List.any_eq_false] at hready ⊢
    intro job hjob
    cases job with
    | locking e => exact hready (.locking e) hjob
    | closing e h wake =>
      obtain ⟨instant, hmin⟩ : ∃ instant, (jobs.filterMap Retirement.alarm?).min? = some instant :=
        Option.isSome_iff_exists.mp
          (List.isSome_min?_of_mem (List.mem_filterMap.mpr ⟨.closing e h wake, hjob, rfl⟩))
      have hle : instant ≤ wake :=
        (List.min?_eq_some_iff.mp hmin).2 wake (List.mem_filterMap.mpr ⟨.closing e h wake, hjob, rfl⟩)
      have hlater := halarm instant hmin
      simp only [retirementReady, decide_eq_true_eq]
      omega
    | finished e => simp [retirementReady]
  | finished | cancelled => rfl

/-- Turns come to an end, and nobody wakes unannounced. -/
theorem punctual (factory : Factory) : (schedule factory).Punctual Separate where
  ends now :=
    { begun := by
        intro t m _ hready
        by_contra hge
        have hnone : m.tasks[t]? = none := List.getElem?_eq_none (Nat.not_lt.mp hge)
        simp [schedule, isReady, stage?, hnone] at hready
      kept := fun t m hm _ => hm.turn
      size_turn := fun t m _ _ => by
        have hcalls : (m.turn now factory t).calls.length = m.calls.length := congrArg _ calls_turn
        simp only [calls, List.length_map] at hcalls
        exact hcalls
      left_turn := by
        intro t m hm hready
        obtain ⟨call, s, s', htask, hless, htasks⟩ := turn_progresses factory hm hready
        have hsum := foldr_add_set (fun task : ProxyTask => task.stage.effort) ⟨call, s'⟩ htask
        simp only [schedule, effort, htasks]
        simp only at hsum
        omega }
  later now m instant hquiet halarm := by
    obtain ⟨task, htask, hwake⟩ := List.mem_filterMap.mp (List.min?_mem halarm)
    obtain ⟨t, ht⟩ := List.getElem?_of_mem htask
    exact lt_alarm_of_not_ready (stage?_eq_some_iff.mpr ⟨task.call, ht⟩) (hquiet t) hwake
  asleep now later m hquiet _ halarm t := by
    show m.isReady later t = false
    cases htask : m.tasks[t]? with
    | none => simp [isReady, stage?, htask]
    | some task =>
      refine not_ready_of_lt_alarm (stage?_eq_some_iff.mpr ⟨task.call, htask⟩) (hquiet t) fun instant hwake => ?_
      have hmem : instant ∈ m.tasks.filterMap (·.stage.alarm?) :=
        List.mem_filterMap.mpr ⟨task, List.mem_of_getElem? htask, hwake⟩
      obtain ⟨first, hmin⟩ := Option.isSome_iff_exists.mp (List.isSome_min?_of_mem hmem)
      exact Nat.lt_of_lt_of_le (halarm first hmin) ((List.min?_eq_some_iff.mp hmin).2 instant hmem)

end Replica.ProxyMap
