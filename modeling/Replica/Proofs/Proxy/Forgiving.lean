import Replica.Proofs.Proxy.Clock

/-!
# Proxies that fail to close

That a proxy fails to close is reported, and has no other consequence. A map is `forgiving` if it is taken to
be one in which no proxy fails to close, and in which nothing was reported therefore. What happens in a map
happens in the forgiving one in the same way, as long as the factory makes the same proxies there but for
their failures (`run_forgiving`): every call stands at the same place and ends at the same time with the same
answer, and every proxy is made, asked to close and closed at the same time.
-/

namespace Replica

/-- The same script, but for a failure to close. -/
def Script.forgiving (script : Script) : Script := { script with closeFailure := none }

/-- The same creation, but for a failure to close. -/
def Creation.forgiving (c : Creation) : Creation := { c with script := c.script.forgiving }

namespace ProxyMap

variable {m : ProxyMap} {t : TaskId} {e : EntryId} {h : Handle} {now : Nat} {factory : Factory}
variable {id : PeerId} {a : ProxyAnswer} {jobs : List Retirement} {targets : List EntryId}

/-- The same map, but for failures to close. -/
def forgiving (m : ProxyMap) : ProxyMap :=
  { m with creations := m.creations.map Creation.forgiving, log := [] }

/-- What the factory does in this map, but for failures to close. -/
def harmless (factory : Factory) (m : ProxyMap) : Factory :=
  fun _ peer => (factory m.creations peer).forgiving

/-- The same event, but for failures to close. -/
def Event.forgiving (m : ProxyMap) : Event → Event
  | .register peer => .register peer
  | .begin now factory call => .begin now (m.harmless factory) call
  | .turn now factory t => .turn now (m.harmless factory) t
  | .cancel t => .cancel t

/-- The same events from here on, but for failures to close. -/
def forgivingAll (m : ProxyMap) : List Event → List Event
  | [] => []
  | event :: events => event.forgiving m :: (m.step event).forgivingAll events

/-! ## What stays the same -/

@[simp] theorem forgiving_closed : m.forgiving.closed = m.closed := rfl

@[simp] theorem forgiving_registry : m.forgiving.registry = m.registry := rfl

@[simp] theorem forgiving_entries : m.forgiving.entries = m.entries := rfl

/-- Calls are at the same stages. -/
@[simp] theorem forgiving_stage? : m.forgiving.stage? t = m.stage? t := rfl

/-- The same calls hold the locks. -/
@[simp] theorem forgiving_owns : m.forgiving.owns e t = m.owns e t := rfl

/-- The same proxies were made, by scripts that never fail to close. -/
theorem forgiving_creation : m.forgiving.creations[h]? = m.creations[h]?.map Creation.forgiving :=
  List.getElem?_map

/-- A creation may be modified before or after, if the modification does not look at how closing fails.
-/
theorem forgiving_modifyCreation {g : Creation → Creation} (hg : ∀ c, (g c).forgiving = g c.forgiving) :
    (m.modifyCreation h g).forgiving = m.forgiving.modifyCreation h g := by
  suffices hmap : (m.creations.modify h g).map Creation.forgiving =
      (m.creations.map Creation.forgiving).modify h g by
    simp only [forgiving, modifyCreation, hmap]
  apply List.ext_getElem?
  intro k
  simp only [List.getElem?_map, List.getElem?_modify]
  cases m.creations[k]? with
  | none => rfl
  | some c => by_cases hk : h = k <;> simp [hk, hg]

/-! ## Look-ups -/

/-- A try begins in the same way with the harmless factory. -/
theorem forgiving_create : (m.create now factory t e).forgiving =
    m.forgiving.create now (m.harmless factory) t e := by
  unfold create
  rw [forgiving_entries]
  cases m.entries[e]? with
  | none => rfl
  | some entry =>
    dsimp only
    cases entry.slot with
    | some h => rfl
    | none =>
      dsimp only
      split
      · rfl
      · cases entry.prepare with
        | error err => rfl
        | ok entry =>
          simp [forgiving, setStage, harmless, Creation.forgiving, Script.forgiving]

/-- A creation ends in the same way. -/
theorem forgiving_conclude :
    (m.conclude now t e h).forgiving = m.forgiving.conclude now t e h := by
  have hended : ∀ outcome : CreationOutcome, ∀ m : ProxyMap,
      (m.modifyCreation h fun c => { c with outcome := some outcome }).forgiving =
        m.forgiving.modifyCreation h fun c => { c with outcome := some outcome } :=
    fun _ _ => forgiving_modifyCreation fun _ => rfl
  unfold conclude
  rw [forgiving_entries, forgiving_creation]
  cases m.entries[e]? with
  | none => rfl
  | some entry =>
    cases m.creations[h]? with
    | none => rfl
    | some c =>
      have hscript : c.forgiving.script.failure = c.script.failure := rfl
      dsimp only [Option.map_some]
      rw [hscript]
      cases c.script.failure with
      | none => exact congrArg (finish now t _) (hended _ _)
      | some err => exact congrArg (finish now t _) (hended _ _)

/-- A look-up begins in the same way. -/
theorem forgiving_beginLookUp : (m.beginLookUp now factory t id).forgiving =
    m.forgiving.beginLookUp now (m.harmless factory) t id := by
  unfold beginLookUp
  rw [forgiving_closed, forgiving_registry, forgiving_entries]
  split
  · rfl
  · cases m.registry.get? id with
    | none => rfl
    | some e =>
      dsimp only
      cases m.entries[e]?.bind (·.slot) with
      | some h => rfl
      | none =>
        dsimp only
        rw [apply_ite forgiving, forgiving_create]
        rfl

/-! ## Retirements -/

/-- A retirement takes the same proxy. -/
theorem forgiving_retire : m.forgiving.retire now e =
    ((m.retire now e).1.forgiving, (m.retire now e).2) := by
  unfold retire
  rw [forgiving_entries]
  cases m.entries[e]? with
  | none => rfl
  | some entry =>
    dsimp only
    cases entry.retire.2 with
    | none => rfl
    | some h =>
      have hdelay : (m.forgiving.creations[h]?.map (·.script.closeDelay)) =
          m.creations[h]?.map (·.script.closeDelay) := by
        rw [forgiving_creation, Option.map_map]
        rfl
      refine Prod.ext ?_ ?_
      · exact (forgiving_modifyCreation (m := { m with entries := m.entries.set e entry.retire.1.unlock })
          (g := Creation.askToClose now) fun _ => rfl).symm
      · exact congrArg (fun delay : Option Nat => Retirement.closing e h (now + delay.getD 0)) hdelay

/-- Whether a proxy has failed to close is seen in what is reported, and nowhere else. -/
theorem forgiving_concludeClose :
    (m.concludeClose now h).forgiving = m.forgiving.concludeClose now h := by
  have hreport : (m.forgiving.concludeClose now h).log = [] := by
    simp only [concludeClose, forgiving_creation]
    cases m.creations[h]? <;> rfl
  have hnoted := forgiving_modifyCreation (m := m) (h := h)
    (g := fun c => { c with closedAt := some now }) fun _ => rfl
  calc (m.concludeClose now h).forgiving
      = (m.modifyCreation h fun c => { c with closedAt := some now }).forgiving := rfl
    _ = { m.forgiving.modifyCreation h (fun c => { c with closedAt := some now }) with log := [] } := hnoted
    _ = m.forgiving.concludeClose now h := by
      rw [← hreport]
      rfl

/-- A retirement has its turn in the same way, whether its proxy fails to close or not. -/
theorem forgiving_turnRetirement {job : Retirement} : m.forgiving.turnRetirement now t job =
    ((m.turnRetirement now t job).1.forgiving, (m.turnRetirement now t job).2) := by
  cases job with
  | locking e =>
    simp only [turnRetirement, forgiving_owns, forgiving_retire]
    split <;> rfl
  | closing e h wake =>
    simp only [turnRetirement, ← forgiving_concludeClose]
    split <;> rfl
  | finished e => rfl

/-- So have several. -/
theorem forgiving_turnRetirements : m.forgiving.turnRetirements now t jobs =
    ((m.turnRetirements now t jobs).1.forgiving, (m.turnRetirements now t jobs).2) := by
  induction jobs generalizing m with
  | nil => rfl
  | cons job jobs ih => simp only [turnRetirements, forgiving_turnRetirement, ih]

/-- A call goes on retiring in the same way. -/
theorem forgiving_continueRetiring : (m.continueRetiring now t jobs a).forgiving =
    m.forgiving.continueRetiring now t jobs a := by
  simp only [continueRetiring, forgiving_turnRetirements]
  split <;> rfl

/-- It begins to in the same way. -/
theorem forgiving_beginRetiring : (m.beginRetiring now t targets a).forgiving =
    m.forgiving.beginRetiring now t targets a := by
  have hlocks : (targets.foldl (fun m e => m.modifyEntry e (.lock t)) m).forgiving =
      targets.foldl (fun m e => m.modifyEntry e (.lock t)) m.forgiving := by
    induction targets generalizing m with
    | nil => rfl
    | cons e targets ih => exact ih
  rw [beginRetiring, beginRetiring, forgiving_continueRetiring, hlocks]

/-- An entry is renewed in the same way. -/
theorem forgiving_renew : m.forgiving.renew id = ((m.renew id).1.forgiving, (m.renew id).2) := by
  unfold renew
  rw [forgiving_registry, forgiving_closed]
  cases m.registry.get? id with
  | none => rfl
  | some e =>
    dsimp only
    split
    · rfl
    · rw [forgiving_entries]
      cases m.entries[e]? <;> rfl

/-- A reset begins in the same way. -/
theorem forgiving_beginReset : (m.beginReset now t id a).forgiving =
    m.forgiving.beginReset now t id a := by
  simp only [beginReset, forgiving_renew, forgiving_beginRetiring]

/-! ## Events -/

/-- So does any call. -/
theorem forgiving_begin {call : ProxyCall} : (m.begin now factory call).forgiving =
    m.forgiving.begin now (m.harmless factory) call := by
  cases call with
  | lookUp id => exact forgiving_beginLookUp (m := m.enter (.lookUp id))
  | reset id => exact forgiving_beginReset (m := m.enter (.reset id))
  | repair id error reconnect =>
    show forgiving (if _ then (m.enter _).beginReset _ _ _ _ else _) = _
    rw [apply_ite forgiving, forgiving_beginReset]
    rfl
  | close =>
    show forgiving (if m.closed then _ else m.bar.beginRetiring _ _ _ _) = _
    rw [apply_ite forgiving, forgiving_beginRetiring]
    rfl

/-- Every turn comes to the same. -/
theorem forgiving_turn : (m.turn now factory t).forgiving =
    m.forgiving.turn now (m.harmless factory) t := by
  unfold turn
  rw [forgiving_stage?]
  cases m.stage? t with
  | none => rfl
  | some s =>
    cases s with
    | locking e =>
      dsimp only
      rw [apply_ite forgiving, forgiving_create]
      rfl
    | creating e h wake =>
      dsimp only
      rw [apply_ite forgiving, forgiving_conclude]
    | retiring jobs a => exact forgiving_continueRetiring
    | finished | cancelled => rfl

/-- So does every cancellation. -/
theorem forgiving_cancel : (m.cancel t).1.forgiving = (m.forgiving.cancel t).1 := by
  have habandon : ∀ jobs m, (List.foldl (abandonRetirement t) m jobs).forgiving =
      List.foldl (abandonRetirement t) m.forgiving jobs := by
    intro jobs
    induction jobs with
    | nil => exact fun _ => rfl
    | cons job jobs ih =>
      intro m
      have hjob : (abandonRetirement t m job).forgiving = abandonRetirement t m.forgiving job := by
        cases job <;> rfl
      rw [List.foldl_cons, List.foldl_cons, ih, hjob]
  unfold cancel
  rw [forgiving_stage?]
  cases m.stage? t with
  | none => rfl
  | some s =>
    cases s with
    | locking | creating | finished | cancelled => rfl
    | retiring jobs a => exact congrArg (setStage t .cancelled) (habandon jobs m)

/-- And every registration. -/
theorem forgiving_register {peer : Peer} : (m.register peer).forgiving = m.forgiving.register peer := by
  unfold register
  rw [apply_ite forgiving]
  rfl

/-- So it makes no difference in any event whether proxies fail to close. -/
theorem step_forgiving (m : ProxyMap) (event : Event) :
    m.forgiving.step (event.forgiving m) = (m.step event).forgiving := by
  cases event with
  | register peer => exact forgiving_register.symm
  | begin now factory call => exact forgiving_begin.symm
  | turn now factory t => exact forgiving_turn.symm
  | cancel t => exact forgiving_cancel.symm

/-- Whatever happens comes to the same in a map in which no proxy fails to close, but for what is reported. -/
theorem run_forgiving (m : ProxyMap) (events : List Event) :
    m.forgiving.run (m.forgivingAll events) = (m.run events).forgiving := by
  induction events generalizing m with
  | nil => rfl
  | cons event events ih =>
    show (m.forgiving.step (event.forgiving m)).run ((m.step event).forgivingAll events) = _
    rw [step_forgiving, ih]
    rfl

end ProxyMap

end Replica
