import Replica.Proofs.Machine.Starts

/-!
# Starts that fail

A start records its ids and moves the lifecycle before the storage is prepared, so a failure has
something to take back. What is left after a failure of input or output is a machine that may be
started (`Alike.of_io`), and a start overwrites all the rest: the next one ends as if none had been
tried before it (`Alike.launch`). Any other failure leaves a machine that is stuck (`Stuck`): it takes
nothing but its close.

Both together, with a start that the lifecycle refuses, are `failed_starts_leave_no_trace`.
-/

namespace Replica.Machine

variable {σ : Type} {m m' : Machine σ}

/-! ## Attempts -/

/-- An attempt to start a machine, with the application as it is by then. -/
structure Attempt (σ : Type) where
  app : Application σ
  server : PeerId
  group : GroupId
  root : StorageRoot

namespace Attempt

/-- The machine after the attempt, and the result of it. -/
def launch (a : Attempt σ) (m : Machine σ) : Machine σ × Except ServerError Unit :=
  m.launch a.app a.server a.group a.root

/-- What comes of preparing the storage. -/
def storage (a : Attempt σ) (state : σ) : Except ServerError σ := a.app.openStorage a.root state

/-- The machine after a list of attempts. -/
def launchAll (attempts : List (Attempt σ)) (m : Machine σ) : Machine σ :=
  attempts.foldl (fun m a => (a.launch m).1) m

theorem launchAll_cons (a : Attempt σ) (attempts : List (Attempt σ)) (m : Machine σ) :
    launchAll (a :: attempts) m = launchAll attempts (a.launch m).1 := rfl

/-- A start that the lifecycle refuses changes nothing, and its result says nothing of the storage. -/
theorem launch_refused (a : Attempt σ) (hmay : m.lifecycle.state.mayMoveTo .starting = false) :
    a.launch m =
      (m, .error (.core (.invalidTransition m.lifecycle.name m.lifecycle.state .starting))) := by
  rw [launch, Machine.launch, transition_eq, if_neg (by simp [hmay])]

/-- A start that the lifecycle admits, and whose storage fails. -/
theorem launch_failed {a : Attempt σ} {e : ServerError}
    (hmay : m.lifecycle.state.mayMoveTo .starting = true) (hstorage : a.storage m.state = .error e) :
    a.launch m =
      ({ m with
          lifecycle := m.lifecycle.withState (stateAfterFailure e)
          ids := some (a.server, a.group)
          log := m.log ++ openFailure a.server a.group e },
        .error e) := by
  rw [launch, Machine.launch, transition_eq, if_pos hmay]
  dsimp only [withState]
  rw [storage] at hstorage
  rw [hstorage]
  cases e <;> rfl

/-- A start that the lifecycle and the storage admit. -/
theorem launch_succeeded {a : Attempt σ} {state : σ}
    (hmay : m.lifecycle.state.mayMoveTo .starting = true) (hstorage : a.storage m.state = .ok state) :
    a.launch m =
      ({ m with lifecycle := m.lifecycle.withState .running, ids := some (a.server, a.group), state },
        .ok ()) := by
  rw [launch, Machine.launch, transition_eq, if_pos hmay]
  dsimp only [withState]
  rw [storage] at hstorage
  rw [hstorage]
  rfl

end Attempt

/-! ## Failures of input or output -/

/-- The two machines differ in nothing but what they have reported. -/
structure Matches (m m' : Machine σ) : Prop where
  lifecycle : m'.lifecycle = m.lifecycle
  ids : m'.ids = m.ids
  reads : m'.reads = m.reads
  state : m'.state = m.state

/-- The two machines may differ in what a start overwrites, if they may be started, and in what they
have reported. -/
structure Alike (m m' : Machine σ) : Prop where
  name : m'.lifecycle.name = m.lifecycle.name
  reads : m'.reads = m.reads
  state : m'.state = m.state
  admits : m'.lifecycle.state.mayMoveTo .starting = m.lifecycle.state.mayMoveTo .starting
  refuses : m.lifecycle.state.mayMoveTo .starting = false → m' = m

theorem Alike.refl (m : Machine σ) : m.Alike m := ⟨rfl, rfl, rfl, rfl, fun _ => rfl⟩

/-- The same attempt ends alike on both. -/
theorem Alike.launch (h : m.Alike m') (a : Attempt σ) :
    (a.launch m').2 = (a.launch m).2 ∧ (a.launch m).1.Matches (a.launch m').1 := by
  by_cases hmay : m.lifecycle.state.mayMoveTo .starting = true
  · have hmay' := h.admits.trans hmay
    have hlifecycle : ∀ target, m'.lifecycle.withState target = m.lifecycle.withState target :=
      fun target => congrArg (fun name => (⟨name, target⟩ : Lifecycle)) h.name
    cases hstorage : a.storage m.state with
    | error e =>
      rw [Attempt.launch_failed hmay hstorage, Attempt.launch_failed hmay' (h.state ▸ hstorage)]
      exact ⟨rfl, hlifecycle _, rfl, h.reads, h.state⟩
    | ok state =>
      rw [Attempt.launch_succeeded hmay hstorage,
        Attempt.launch_succeeded hmay' (h.state ▸ hstorage)]
      exact ⟨rfl, hlifecycle _, rfl, h.reads, rfl⟩
  · obtain rfl := h.refuses (Bool.eq_false_iff.mpr hmay)
    exact ⟨rfl, rfl, rfl, rfl, rfl⟩

/-- A failure of input or output takes the machine back to where it may be started. -/
theorem Alike.of_io {a : Attempt σ} {e : IoError} (h : m.Alike m')
    (hstorage : a.storage m.state = .error (.io e)) : m.Alike (a.launch m').1 := by
  by_cases hmay : m.lifecycle.state.mayMoveTo .starting = true
  · rw [Attempt.launch_failed (h.admits.trans hmay) (h.state ▸ hstorage)]
    exact ⟨h.name, h.reads, h.state, hmay.symm, fun hnot => absurd hmay (by simp [hnot])⟩
  · have hnot := Bool.eq_false_iff.mpr hmay
    obtain rfl := h.refuses hnot
    rw [a.launch_refused hnot]
    exact h

theorem Alike.launchAll {attempts : List (Attempt σ)} (h : m.Alike m')
    (hio : ∀ a ∈ attempts, ∃ e, a.storage m.state = .error (.io e)) :
    m.Alike (Attempt.launchAll attempts m') := by
  induction attempts generalizing m' with
  | nil => exact h
  | cons a attempts ih =>
    obtain ⟨e, hstorage⟩ := hio a List.mem_cons_self
    rw [Attempt.launchAll_cons]
    exact ih (h.of_io hstorage) fun a ha => hio a (List.mem_cons_of_mem _ ha)

/-! ## Any other failure -/

theorem pause_refused (h : m.lifecycle.state.mayMoveTo .pausing = false) : m.pause =
    (m, .error (.core (.invalidTransition m.lifecycle.name m.lifecycle.state .pausing))) := by
  rw [pause, transitions, transition_eq, if_neg (by simp [h])]

theorem resume_refused (h : m.lifecycle.state.mayMoveTo .starting = false) : m.resume =
    (m, .error (.core (.invalidTransition m.lifecycle.name m.lifecycle.state .starting))) := by
  rw [resume, transitions, transition_eq, if_neg (by simp [h])]

theorem close_open (h : m.lifecycle.state.isClosingOrClosed = false) :
    m.close = (m.withState .closed, .ok ()) := by
  rw [close, Lifecycle.beginClose?, if_neg (by simp [h])]
  rfl

/-- Nothing that is asked of the lifecycle is granted or changes anything, the close apart. -/
structure Stuck (m : Machine σ) : Prop where
  exception : m.lifecycle.state = .exception
  launch : ∀ a : Attempt σ, a.launch m =
    (m, .error (.core (.invalidTransition m.lifecycle.name .exception .starting)))
  pause : m.pause = (m, .error (.core (.invalidTransition m.lifecycle.name .exception .pausing)))
  resume : m.resume = (m, .error (.core (.invalidTransition m.lifecycle.name .exception .starting)))
  close : m.close = (m.withState .closed, .ok ())

theorem stuck_iff : m.Stuck ↔ m.lifecycle.state = .exception := by
  refine ⟨Stuck.exception, fun h => ⟨h, fun a => ?_, ?_, ?_, ?_⟩⟩
  · rw [a.launch_refused (by rw [h]; rfl), h]
  · rw [pause_refused (by rw [h]; rfl), h]
  · rw [resume_refused (by rw [h]; rfl), h]
  · exact close_open (by rw [h]; rfl)

theorem Attempt.stuck_of_not_io {a : Attempt σ} {e : ServerError}
    (hmay : m.lifecycle.state.mayMoveTo .starting = true) (hstorage : a.storage m.state = .error e)
    (hother : ∀ io, e ≠ .io io) : (a.launch m).1.Stuck := by
  rw [Attempt.launch_failed hmay hstorage, stuck_iff]
  cases e with
  | io io => exact absurd rfl (hother io)
  | _ => rfl

/-- A machine that is stuck keeps its lifecycle and its ids through every call but the close. -/
theorem Stuck.step {event : Event σ} (h : m.Stuck) (hclose : event ≠ .close) :
    (m.step event).lifecycle = m.lifecycle ∧ (m.step event).ids = m.ids := by
  cases event with
  | launch app server group root =>
    have hsame : (m.step (.launch app server group root)) = m :=
      congrArg Prod.fst (h.launch ⟨app, server, group, root⟩)
    rw [hsame]
    exact ⟨rfl, rfl⟩
  | pause =>
    rw [Machine.step, h.pause]
    exact ⟨rfl, rfl⟩
  | resume =>
    rw [Machine.step, h.resume]
    exact ⟨rfl, rfl⟩
  | close => exact absurd rfl hclose
  | markApplied next => exact markApplied_lifecycle next m
  | apply app trx => exact apply_lifecycle app trx m

theorem Stuck.run {events : List (Event σ)} (h : m.Stuck) (hclose : .close ∉ events) :
    (m.run events).lifecycle = m.lifecycle ∧ (m.run events).ids = m.ids := by
  induction events using List.reverseRecOn with
  | nil => exact ⟨rfl, rfl⟩
  | append_singleton events event ih =>
    rw [List.mem_append, not_or] at hclose
    obtain ⟨hlifecycle, hids⟩ := ih hclose.1
    have hstuck : (m.run events).Stuck := stuck_iff.mpr (by rw [hlifecycle, h.exception])
    have hother : event ≠ .close := fun heq => hclose.2 (List.mem_singleton.mpr heq.symm)
    rw [run_concat, (hstuck.step hother).1, (hstuck.step hother).2]
    exact ⟨hlifecycle, hids⟩

/-! ## All starts that fail -/

/-- Starts that fail for want of input or output, however many and with whatever ids, leave no trace
but what they report: the next start has the result that it has without them, and so have the
lifecycle, the ids, the cursor, the waiting reads and the state of the application.

After any other failure of the storage the machine is stuck until it is closed. A start that the
lifecycle refuses changes nothing, and the storage has no part in it. -/
theorem failed_starts_leave_no_trace (m : Machine σ) :
    (∀ (attempts : List (Attempt σ)) (last : Attempt σ),
      (∀ a ∈ attempts, ∃ e, a.storage m.state = .error (.io e)) →
      (last.launch (Attempt.launchAll attempts m)).2 = (last.launch m).2 ∧
        (last.launch m).1.Matches (last.launch (Attempt.launchAll attempts m)).1) ∧
    (∀ (a : Attempt σ) (e : ServerError), m.lifecycle.state.mayMoveTo .starting = true →
      a.storage m.state = .error e → (∀ io, e ≠ .io io) →
      (a.launch m).2 = .error e ∧
        ∀ later, .close ∉ later → ((a.launch m).1.run later).Stuck ∧
          ((a.launch m).1.run later).lifecycle = (a.launch m).1.lifecycle ∧
          ((a.launch m).1.run later).ids = (a.launch m).1.ids) ∧
    ∀ a : Attempt σ, m.lifecycle.state.mayMoveTo .starting = false → a.launch m =
      (m, .error (.core (.invalidTransition m.lifecycle.name m.lifecycle.state .starting))) := by
  refine ⟨fun attempts last hio => ?_, fun a e hmay hstorage hother => ?_, fun a => a.launch_refused⟩
  · exact ((Alike.refl m).launchAll hio).launch last
  · have hstuck := Attempt.stuck_of_not_io hmay hstorage hother
    refine ⟨by rw [Attempt.launch_failed hmay hstorage], fun later hclose => ?_⟩
    obtain ⟨hlifecycle, hids⟩ := hstuck.run hclose
    exact ⟨stuck_iff.mpr (by rw [hlifecycle, hstuck.exception]), hlifecycle, hids⟩

section

/-- An attempt whose storage fails. -/
private def failingWith (e : ServerError) (server : PeerId) : Attempt Unit where
  app := { openStorage := fun _ _ => .error e }
  server := server
  group := ⟨7⟩
  root := ⟨"/failing"⟩

private def denied : ServerError := .io { kind := .permissionDenied, message := "denied" }

/-- A paused machine with a read that waits at its cursor. -/
private def pausedAtThree : Machine Unit :=
  (run { state := () }
    [.launch .plain "s1" ⟨1⟩ ⟨"/a"⟩, .markApplied ⟨1, 3⟩, .pause]).queryStale .plain .empty 5

/-- Two starts from a pause fail for want of input or output, and a third succeeds. From the same
pause a start fails for another reason, and the machine is stuck although entries go on being
applied. On a machine that runs, a start is refused. -/
theorem failed_starts_leave_no_trace_after_pause :
    (let attempts := [failingWith denied "s2", failingWith denied "s3"]
     let last : Attempt Unit := ⟨.plain, "s4", ⟨4⟩, ⟨"/b"⟩⟩
     (Attempt.launchAll attempts pausedAtThree).lifecycle.state = .new ∧
     (last.launch (Attempt.launchAll attempts pausedAtThree)).2 = .ok () ∧
     (last.launch pausedAtThree).1.Matches
       (last.launch (Attempt.launchAll attempts pausedAtThree)).1) ∧
    (let failing := failingWith (.stateMachine "corrupt") "s2"
     pausedAtThree.lifecycle.state.mayMoveTo .starting = true ∧
     ((failing.launch pausedAtThree).1.run [.resume, .markApplied ⟨1, 4⟩]).Stuck) ∧
    pausedAtThree.resume.1.lifecycle.state.mayMoveTo .starting = false ∧
    ((failingWith denied "s2").launch pausedAtThree.resume.1).1 = pausedAtThree.resume.1 := by
  obtain ⟨hretried, hstuck, -⟩ := failed_starts_leave_no_trace pausedAtThree
  have hio : ∀ a ∈ [failingWith denied "s2", failingWith denied "s3"],
      ∃ e, a.storage pausedAtThree.state = .error (.io e) := by
    intro a ha
    simp only [List.mem_cons, List.not_mem_nil, or_false] at ha
    rcases ha with rfl | rfl <;> exact ⟨_, rfl⟩
  obtain ⟨hsame, hmatches⟩ := hretried _ ⟨.plain, "s4", ⟨4⟩, ⟨"/b"⟩⟩ hio
  refine ⟨⟨rfl, hsame.trans rfl, hmatches⟩, ⟨rfl, ?_⟩, rfl, ?_⟩
  · exact ((hstuck (failingWith (.stateMachine "corrupt") "s2") _ rfl rfl (by rintro _ ⟨⟩)).2 _ (by simp)).1
  · rw [(failed_starts_leave_no_trace pausedAtThree.resume.1).2.2 _ rfl]

end

end Replica.Machine
