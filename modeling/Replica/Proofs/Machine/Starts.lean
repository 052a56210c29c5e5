import Mathlib.Data.List.Induction
import Replica.Machine.Basic

/-!
# How a machine comes to run

A machine is up from its start to its end or its close, pauses included. It gets there by a start
that succeeds, and then it has the ids of that start (`ids_of_isUp`). There is one other way: going
on after a pause asks for no pause, so a machine that is `NEW` can go on as well, with no ids or with
those of a start that failed (`up_without_start`).
-/

namespace Replica.Machine

variable {σ : Type} {m : Machine σ}

/-! ## Events -/

/-- A call on a machine. Each start and each transaction meets the application as it is by then, so
the storage may take or refuse a start for any reason. -/
inductive Event (σ : Type) where
  | launch (app : Application σ) (server : PeerId) (group : GroupId) (root : StorageRoot)
  | pause
  | resume
  | close
  | markApplied (next : LogPosition)
  | apply (app : Application σ) (trx : Transaction)

/-- The machine after a call. -/
def step (m : Machine σ) : Event σ → Machine σ
  | .launch app server group root => (m.launch app server group root).1
  | .pause => m.pause.1
  | .resume => m.resume.1
  | .close => m.close.1
  | .markApplied next => (m.markApplied next).1
  | .apply app trx => (m.apply app trx).1

/-- The machine after a sequence of calls. -/
def run (m : Machine σ) (events : List (Event σ)) : Machine σ := events.foldl step m

theorem run_concat (m : Machine σ) (events : List (Event σ)) (event : Event σ) :
    m.run (events ++ [event]) = (m.run events).step event :=
  List.foldl_append

/-- The ids of the start, if the call is one that succeeds. -/
def started? (m : Machine σ) : Event σ → Option (PeerId × GroupId)
  | .launch app server group root =>
    if (m.launch app server group root).2.isOk then some (server, group) else none
  | _ => none

/-- The ids of the last start that succeeded. -/
def lastStarted? (m : Machine σ) : List (Event σ) → Option (PeerId × GroupId)
  | [] => none
  | event :: events => ((m.step event).lastStarted? events).or (m.started? event)

theorem lastStarted?_concat (m : Machine σ) (events : List (Event σ)) (event : Event σ) :
    m.lastStarted? (events ++ [event]) =
      ((m.run events).started? event).or (m.lastStarted? events) := by
  induction events generalizing m with
  | nil => exact (Option.or_none (o := m.started? event)).symm
  | cons first events ih =>
    show ((m.step first).lastStarted? (events ++ [event])).or (m.started? first) =
      (((m.step first).run events).started? event).or
        (((m.step first).lastStarted? events).or (m.started? first))
    rw [ih, Option.or_assoc]

/-! ## One call -/

/-- The machine has been started and has not ended. -/
def IsUp (m : Machine σ) : Prop :=
  m.lifecycle.state = .running ∨ m.lifecycle.state.isPausingOrPaused = true

instance (m : Machine σ) : Decidable m.IsUp := by
  unfold IsUp
  infer_instance

/-- The machine in another state. -/
def withState (target : Lifecycle.State) (m : Machine σ) : Machine σ :=
  { m with lifecycle := m.lifecycle.withState target }

theorem transition_eq (target : Lifecycle.State) (m : Machine σ) :
    m.transition target = if m.lifecycle.state.mayMoveTo target then (m.withState target, .ok ())
      else (m, .error (.core (.invalidTransition m.lifecycle.name m.lifecycle.state target))) := by
  unfold transition Lifecycle.transition
  cases m.lifecycle.state.mayMoveTo target <;> rfl

/-- A start is refused, or fails for the storage, or succeeds and leaves the ids. -/
theorem launch_cases (app : Application σ) (server : PeerId) (group : GroupId) (root : StorageRoot)
    (m : Machine σ) :
    ((m.launch app server group root).2.isOk = false ∧ (m.launch app server group root).1 = m) ∨
    ((m.launch app server group root).2.isOk = false ∧
      ∃ e, (m.launch app server group root).1.lifecycle.state = stateAfterFailure e) ∨
    ((m.launch app server group root).2.isOk = true ∧
      (m.launch app server group root).1.ids = some (server, group)) := by
  rw [launch, transition_eq]
  by_cases hmay : m.lifecycle.state.mayMoveTo .starting = true
  · right
    rw [if_pos hmay]
    dsimp only
    cases app.openStorage root (m.withState .starting).state with
    | ok inner => exact .inr ⟨rfl, rfl⟩
    | error e =>
      left
      refine ⟨rfl, e, ?_⟩
      cases e <;> rfl
  · rw [if_neg hmay]
    exact .inl ⟨rfl, rfl⟩

theorem pause_eq (m : Machine σ) :
    m.pause.1 = if m.lifecycle.state = .running then m.withState .paused else m := by
  obtain ⟨⟨name, state⟩, ids, reads, inner, log⟩ := m
  cases state <;> rfl

theorem resume_eq (m : Machine σ) :
    m.resume.1 = if m.lifecycle.state = .new ∨ m.lifecycle.state = .paused then m.withState .running
      else m := by
  obtain ⟨⟨name, state⟩, ids, reads, inner, log⟩ := m
  cases state <;> rfl

theorem close_eq (m : Machine σ) :
    m.close.1 = if m.lifecycle.state.isClosingOrClosed then m else m.withState .closed := by
  obtain ⟨⟨name, state⟩, ids, reads, inner, log⟩ := m
  cases state <;> rfl

theorem advance_lifecycle (next : LogPosition) (m : Machine σ) :
    (m.advance next).1.lifecycle = m.lifecycle ∧ (m.advance next).1.ids = m.ids := by
  unfold advance
  split <;> exact ⟨rfl, rfl⟩

theorem markApplied_lifecycle (next : LogPosition) (m : Machine σ) :
    (m.markApplied next).1.lifecycle = m.lifecycle ∧ (m.markApplied next).1.ids = m.ids := by
  have hadvance := advance_lifecycle next m
  unfold markApplied
  split <;> next heq => rwa [heq] at hadvance

theorem apply_lifecycle (app : Application σ) (trx : Transaction) (m : Machine σ) :
    (m.apply app trx).1.lifecycle = m.lifecycle ∧ (m.apply app trx).1.ids = m.ids := by
  unfold apply
  split
  · exact ⟨rfl, rfl⟩
  · next entry _ =>
    split
    · exact ⟨rfl, rfl⟩
    · next inner _ _ =>
      have hadvance := advance_lifecycle entry.position { m with state := inner }
      split <;> next heq => rwa [heq] at hadvance

theorem not_isUp_stateAfterFailure {e : ServerError} (h : m.lifecycle.state = stateAfterFailure e) :
    ¬ m.IsUp := by
  unfold IsUp
  rw [h]
  cases e <;> simp [stateAfterFailure, Lifecycle.State.isPausingOrPaused]

/-- A machine that is up was up before, with the same ids, or has been started by the call, or has
gone on without a pause. -/
theorem isUp_step (event : Event σ) (h : (m.step event).IsUp) :
    (m.started? event = none ∧ m.IsUp ∧ (m.step event).ids = m.ids) ∨
    (∃ ids, m.started? event = some ids ∧ (m.step event).ids = some ids) ∨
    (event = .resume ∧ m.lifecycle.state = .new) := by
  cases event with
  | launch app server group root =>
    rw [started?]
    rcases launch_cases app server group root m with ⟨hok, hsame⟩ | ⟨-, e, hstate⟩ | ⟨hok, hids⟩
    · left
      rw [step, hsame] at h ⊢
      exact ⟨by simp [hok], h, rfl⟩
    · exact absurd h (not_isUp_stateAfterFailure hstate)
    · exact .inr (.inl ⟨(server, group), if_pos hok, hids⟩)
  | pause =>
    left
    rw [step, pause_eq] at h ⊢
    split at h
    · next hrunning =>
      rw [if_pos hrunning]
      exact ⟨rfl, .inl hrunning, rfl⟩
    · next hnot =>
      rw [if_neg hnot]
      exact ⟨rfl, h, rfl⟩
  | resume =>
    rw [step, resume_eq] at h ⊢
    split at h
    · next hmoves =>
      rw [if_pos hmoves]
      rcases hmoves with hnew | hpaused
      · exact .inr (.inr ⟨rfl, hnew⟩)
      · exact .inl ⟨rfl, .inr (by rw [hpaused]; rfl), rfl⟩
    · next hnot =>
      rw [if_neg hnot]
      exact .inl ⟨rfl, h, rfl⟩
  | close =>
    left
    rw [step, close_eq] at h ⊢
    split at h
    · next hclosed =>
      rw [if_pos hclosed]
      exact ⟨rfl, h, rfl⟩
    · rcases h with h | h <;> cases h
  | markApplied next =>
    obtain ⟨hlifecycle, hids⟩ := markApplied_lifecycle next m
    rw [IsUp, step, hlifecycle] at h
    exact .inl ⟨rfl, h, hids⟩
  | apply app trx =>
    obtain ⟨hlifecycle, hids⟩ := apply_lifecycle app trx m
    rw [IsUp, step, hlifecycle] at h
    exact .inl ⟨rfl, h, hids⟩

/-! ## Sequences of calls -/

/-- Nobody goes on with a machine that is `NEW`. -/
def ResumesOnlyPaused (m : Machine σ) (events : List (Event σ)) : Prop :=
  ∀ before after, events = before ++ .resume :: after → (m.run before).lifecycle.state ≠ .new

theorem ResumesOnlyPaused.of_append {before after : List (Event σ)}
    (h : m.ResumesOnlyPaused (before ++ after)) : m.ResumesOnlyPaused before := by
  intro before' after' heq
  exact h before' (after' ++ after) (by rw [heq, List.append_assoc, List.cons_append])

/-- After any sequence of calls on a new machine, whatever the storage did, in which nobody goes on
with a machine that is `NEW`: if the machine is up, then a start has succeeded, and its ids are those
of the last start that did. -/
theorem ids_of_isUp (state : σ) (events : List (Event σ))
    (hresumes : ResumesOnlyPaused { state } events) (hup : (run { state } events).IsUp) :
    ∃ server group, lastStarted? { state } events = some (server, group) ∧
      (run { state } events).server? = some server ∧
      (run { state } events).group? = some group := by
  suffices hids : ∃ ids, lastStarted? { state } events = some ids ∧
      (run { state } events).ids = some ids by
    obtain ⟨⟨server, group⟩, hlast, hids⟩ := hids
    refine ⟨server, group, hlast, ?_, ?_⟩
    · rw [server?, hids, Option.map_some]
    · rw [group?, hids, Option.map_some]
  induction events using List.reverseRecOn with
  | nil => rcases hup with hup | hup <;> cases hup
  | append_singleton events event ih =>
    rw [run_concat, lastStarted?_concat]
    rw [run_concat] at hup
    rcases isUp_step event hup with ⟨hnone, hup, hsame⟩ | ⟨ids, hsome, hids⟩ | ⟨rfl, hnew⟩
    · rw [hnone, hsame, Option.none_or]
      exact ih hresumes.of_append hup
    · rw [hsome]
      exact ⟨ids, rfl, hids⟩
    · exact absurd hnew (hresumes events [] rfl)

section

/-- An application whose storage cannot be read. -/
private def unreadable : Application Unit :=
  { openStorage := fun _ _ => .error (.io { kind := .permissionDenied, message := "denied" }) }

/-- A start that fails and is tried again under other ids, and a pause. -/
private def secondTry : List (Event Unit) :=
  [.launch unreadable "s1" ⟨1⟩ ⟨"/a"⟩, .launch .plain "s2" ⟨2⟩ ⟨"/b"⟩, .pause, .resume]

theorem ids_of_isUp_at_second_try :
    ResumesOnlyPaused { state := () } secondTry ∧ (run { state := () } secondTry).IsUp ∧
      ∃ server group, lastStarted? { state := () } secondTry = some (server, group) ∧
        (run { state := () } secondTry).server? = some server ∧
        (run { state := () } secondTry).group? = some group := by
  have hresumes : ResumesOnlyPaused { state := () } secondTry := by
    intro before after heq
    rcases before with - | ⟨_, - | ⟨_, - | ⟨_, - | ⟨_, before⟩⟩⟩⟩
    · cases heq
    · cases heq
    · cases heq
    · cases heq
      decide
    · exact absurd (congrArg List.length heq) (by simp [secondTry])
  exact ⟨hresumes, by decide, ids_of_isUp () secondTry hresumes (by decide)⟩

/-- A machine goes on that was never started, or whose only start has failed. -/
theorem up_without_start :
    (run { state := () } [.resume] : Machine Unit).lifecycle.state = .running ∧
      (run { state := () } [.resume] : Machine Unit).ids = none ∧
      let tried : List (Event Unit) := [.launch unreadable "s1" ⟨1⟩ ⟨"/a"⟩, .resume]
      (run { state := () } tried).lifecycle.state = .running ∧
        lastStarted? { state := () } tried = none ∧
        (run { state := () } tried).server? = some "s1" := by
  decide

end

end Replica.Machine
