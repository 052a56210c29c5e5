import Replica.Proofs.Proxy.Pursuing
import Replica.Proofs.Proxy.Replacing
import Replica.Proofs.Proxy.Serving

/-!
# Tries at an entry

The calls of the factory for one entry, in order (`tries`), and what is to be seen of each of them
(`attempt?`). A call that does not want the lock of the entry leaves the entry and its tries alone
(`SameAt`), as long as it neither looks the peer up, nor resets it, nor closes the map: that is so of each
move (`Move.sameAt`), and of whole turns and beginnings (`sameAt_turn`, `sameAt_begin`).
-/

namespace Replica.ProxyMap

variable {may : Loss → Prop} {t u : TaskId} {m m' : ProxyMap} {e x : EntryId} {h k : Handle}
variable {id : PeerId} {call : ProxyCall} {entry : ProxyEntry} {s s₀ : ProxyStage} {first : Handle}
variable {now : Nat} {factory : Factory} {f : ProxyEntry → ProxyEntry} {creations : List Creation}

/-! ## Tries -/

/-- What is to be seen of a call of the factory for the entry: how it fails, if it does, and how it has
ended. -/
def attempt? (e : EntryId) (h : Handle) (m : ProxyMap) :
    Option (Option PeerError × Option CreationOutcome) :=
  ((m.around e).made h).map fun c => (c.script.failure, c.outcome)

/-- The calls of the factory for the entry, from the one with the number `first` on. -/
def tries (first : Handle) (e : EntryId) (m : ProxyMap) : List Handle :=
  (List.range m.creations.length).filter fun h => first ≤ h ∧ (m.attempt? e h).isSome

/-- The number of the call of the factory that is under way for the entry, or of the next one that there
will be. -/
def firstTry (e : EntryId) (m : ProxyMap) : Handle :=
  match (m.entries[e]?.bind (·.owner)).bind (m.stage? ·) with
  | some (.creating _ h _) => h
  | _ => m.creations.length

/-- A try is a creation for the entry, with what its script says and what has come of it. -/
theorem attempt?_eq_some_iff {attempt : Option PeerError × Option CreationOutcome} :
    m.attempt? e h = some attempt ↔ ∃ c, m.creations[h]? = some c ∧ c.entry = e ∧
      (c.script.failure, c.outcome) = attempt := by
  rw [attempt?, Option.map_eq_some_iff]
  simp only [around_made_eq_some_iff, and_assoc]

/-- The tries are the creations for the entry from the first one on. -/
theorem mem_tries_iff : h ∈ m.tries first e ↔ first ≤ h ∧ (m.attempt? e h).isSome := by
  rw [tries, List.mem_filter, List.mem_range, decide_eq_true_iff, and_iff_right_iff_imp]
  rintro ⟨-, hsome⟩
  obtain ⟨attempt, hattempt⟩ := Option.isSome_iff_exists.mp hsome
  obtain ⟨c, hc, -⟩ := attempt?_eq_some_iff.mp hattempt
  exact lt_length_of_getElem? hc

/-- There are no tries at calls of the factory that there are not. -/
theorem attempt?_of_length_le (hle : m.creations.length ≤ h) : m.attempt? e h = none := by
  refine Option.eq_none_iff_forall_ne_some.mpr fun attempt hattempt => ?_
  obtain ⟨c, hc, -⟩ := attempt?_eq_some_iff.mp hattempt
  exact absurd (lt_length_of_getElem? hc) (Nat.not_lt.mpr hle)

/-- Calls of the factory for other entries do not matter. -/
theorem tries_eq_of_length_le {n : Nat} (hle : m.creations.length ≤ n) :
    m.tries first e = (List.range n).filter fun h => first ≤ h ∧ (m.attempt? e h).isSome := by
  obtain ⟨extra, rfl⟩ := Nat.exists_eq_add_of_le hle
  rw [List.range_add, List.filter_append, ← tries, List.self_eq_append_right, List.filter_eq_nil_iff]
  intro h hh
  obtain ⟨k, -, rfl⟩ := List.mem_map.mp hh
  simp [attempt?_of_length_le (Nat.le_add_right _ _)]

/-- The tries are the same if the same creations were made for the entry. -/
theorem tries_congr (hle : m.creations.length ≤ m'.creations.length)
    (hsame : ∀ h, (m'.attempt? e h).isSome = (m.attempt? e h).isSome) :
    m'.tries first e = m.tries first e := by
  rw [tries_eq_of_length_le hle, tries]
  simp only [hsame]

/-- One more call of the factory for the entry. -/
theorem tries_concat (hfirst : first ≤ m.creations.length)
    (hlength : m'.creations.length = m.creations.length + 1)
    (hold : ∀ h, h ≠ m.creations.length → m'.attempt? e h = m.attempt? e h)
    (hnew : (m'.attempt? e m.creations.length).isSome) :
    m'.tries first e = m.tries first e ++ [m.creations.length] := by
  rw [tries, hlength, List.range_succ, List.filter_append, tries]
  congr 1
  · refine List.filter_congr fun h hh => ?_
    rw [hold h (Nat.ne_of_lt (List.mem_range.mp hh))]
  · simp [hfirst, hnew]

/-- A new creation for the entry is a new try. -/
theorem attempt?_act_concat {c : Creation} (hentry : c.entry = e) :
    (m.act x f (m.creations ++ [c]) t s).attempt? e h =
      if h = m.creations.length then some (c.script.failure, c.outcome) else m.attempt? e h := by
  rw [attempt?, around_act_made, made_concat, attempt?]
  by_cases hh : h = m.creations.length <;> simp [hh, hentry]

/-- When a creation has ended, its try has the outcome. -/
theorem attempt?_act_ended {outcome : CreationOutcome} :
    (m.act x f (m.creations.modify k (Creation.ended outcome)) t s).attempt? e h =
      if h = k then (m.attempt? e h).map fun a => (a.1, some outcome) else m.attempt? e h := by
  rw [attempt?, around_act_made, made_modify (Creation.entry_ended _), attempt?]
  split
  · rw [Option.map_map, Option.map_map]
    rfl
  · rfl

/-- That a try has ended does not make it another one. -/
theorem tries_act_ended {outcome : CreationOutcome} :
    (m.act x f (m.creations.modify k (Creation.ended outcome)) t s).tries first e = m.tries first e := by
  refine tries_congr (by simp) fun j => ?_
  rw [attempt?_act_ended]
  split
  · exact Option.isSome_map
  · rfl

/-! ## Calls apart from an entry -/

/-- The entry and its tries are the same. -/
structure SameAt (e : EntryId) (m m' : ProxyMap) : Prop where
  entry : m'.entries[e]? = m.entries[e]?
  attempt : ∀ h, m'.attempt? e h = m.attempt? e h
  length_le : m.creations.length ≤ m'.creations.length

theorem SameAt.refl (e : EntryId) (m : ProxyMap) : SameAt e m m :=
  ⟨rfl, fun _ => rfl, Nat.le_refl _⟩

/-- What is the same at an entry in two steps is the same altogether. -/
theorem SameAt.trans {m'' : ProxyMap} (h : SameAt e m m') (h' : SameAt e m' m'') : SameAt e m m'' :=
  ⟨h'.entry.trans h.entry, fun k => (h'.attempt k).trans (h.attempt k),
    Nat.le_trans h.length_le h'.length_le⟩

/-- The tries at an entry are the same if the entry is seen the same. -/
theorem SameAt.tries (h : SameAt e m m') : m'.tries first e = m.tries first e :=
  tries_congr h.length_le fun k => by rw [h.attempt]

/-- What happens at another entry, if it changes no creation for this one. -/
theorem sameAt_act (hx : x ≠ e)
    (hmade : ∀ h, creations[h]?.filter (fun c => c.entry = e) = (m.around e).made h)
    (hlength : m.creations.length ≤ creations.length) : SameAt e m (m.act x f creations t s) where
  entry := by simp [act_entries, hx]
  attempt h := congrArg (Option.map _) (hmade h)
  length_le := hlength

/-- What is noted in a creation beside how it fails and ends. -/
theorem attempt?_note {g : Creation → Creation} (hentry : ∀ c, (g c).entry = c.entry)
    (hkept : ∀ c, ((g c).script.failure, (g c).outcome) = (c.script.failure, c.outcome)) :
    ({ m with creations := m.creations.modify k g } : ProxyMap).attempt? e h = m.attempt? e h := by
  have hmade : (({ m with creations := m.creations.modify k g } : ProxyMap).around e).made h =
      if h = k then ((m.around e).made h).map g else (m.around e).made h := made_modify hentry
  rw [attempt?, hmade, attempt?]
  split
  · rw [Option.map_map]
    exact congrArg (fun g' => ((m.around e).made h).map g') (funext hkept)
  · rfl

/-- A call that goes on leaves alone every entry whose lock it does not want. -/
theorem Advance.sameAt (h : Advance may t m m') (hm : m.Consistent) (hfree : e ∉ m.wanted t) :
    SameAt e m m' ∧ e ∉ m'.wanted t := by
  have hother : ∀ {x : EntryId} {s : ProxyStage}, m.stage? t = some s → x ∈ s.locks → x ≠ e := by
    rintro x s hs hx rfl
    exact hfree (by rwa [wanted_eq hs])
  have hact : ∀ {x : EntryId} {s₀ s : ProxyStage} {f : ProxyEntry → ProxyEntry} {cs : List Creation},
      m.stage? t = some s₀ → x ∈ s₀.locks → (∀ y ∈ s.locks, y ∈ s₀.locks) →
      (x ≠ e → ∀ h, cs[h]?.filter (fun c => c.entry = e) = (m.around e).made h) →
      m.creations.length ≤ cs.length →
      SameAt e m (m.act x f cs t s) ∧ e ∉ (m.act x f cs t s).wanted t := by
    intro x s₀ s f cs hs hx hlocks hmade hlength
    have hne := hother hs hx
    refine ⟨sameAt_act hne (hmade hne) hlength, fun hmem => ?_⟩
    rw [wanted_eq ((stage?_act hs).trans (if_pos rfl))] at hmem
    exact hother hs (hlocks e hmem) rfl
  cases h with
  | @start x entry script now wake stage found owner empty isOpen =>
    refine hact stage List.mem_cons_self (fun y hy => hy) (fun hne h => ?_) (by simp)
    rw [made_concat, if_neg fun hh => hne hh.2]
  | answer stage => exact hact stage List.mem_cons_self nofun (fun _ _ => rfl) (Nat.le_refl _)
  | @succeed x k now wake entry c stage found made =>
    obtain ⟨-, -, hmade⟩ := hm.made_of_creating stage found made
    exact hact stage List.mem_cons_self nofun
      (fun hne h => Consistent.made_of_modify_ne (Creation.entry_ended _) hmade (Ne.symm hne)) (by simp)
  | @fail x k now wake entry c err stage found made failure =>
    obtain ⟨-, -, hmade⟩ := hm.made_of_creating stage found made
    exact hact stage List.mem_cons_self nofun
      (fun hne h => Consistent.made_of_modify_ne (Creation.entry_ended _) hmade (Ne.symm hne)) (by simp)
  | @leave x entry s loses stage looking found =>
    have hmem : x ∈ s.locks := by
      rcases looking with rfl | ⟨k, wake, rfl⟩ <;> exact List.mem_cons_self
    exact hact stage hmem nofun (fun _ _ => rfl) (Nat.le_refl _)
  | @retire x entry pre post job a now stage found owner done =>
    refine hact stage (by simp) (fun y hy => ?_) (fun hne h => ?_) ?_
    · simp only [ProxyStage.locks_retiring, List.filterMap_append, List.filterMap_cons, done,
        Retirement.lock?_locking, List.mem_append, List.mem_cons] at hy ⊢
      exact hy.imp_right .inr
    · cases hslot : entry.slot with
      | none => rfl
      | some k =>
        obtain ⟨c, hc, -⟩ := (hm.fits x entry found).cached k hslot
        exact Consistent.made_of_modify_ne (Creation.entry_askToClose now) hc (Ne.symm hne)
    · cases entry.slot <;> simp [askToClose]
  | @closed x k now wake pre post a stage =>
    refine ⟨⟨rfl, fun h => ?_, by simp [concludeClose, modifyCreation, setStage]⟩, fun hmem => ?_⟩
    · exact attempt?_note (g := Creation.hasClosed now) (Creation.entry_hasClosed now) fun _ => rfl
    · rw [wanted_eq (stage?_setStage_self (m := m.concludeClose now k) stage)] at hmem
      rw [wanted_eq stage] at hfree
      simp only [ProxyStage.locks_retiring, List.filterMap_append, List.filterMap_cons,
        Retirement.lock?_finished, Retirement.lock?_closing] at hmem hfree
      exact hfree hmem
  | @finish jobs a s stage free ended =>
    refine ⟨⟨rfl, fun _ => rfl, Nat.le_refl _⟩, fun hmem => ?_⟩
    rw [wanted_eq (stage?_setStage_self stage), (isCalm_of_ended ended).2] at hmem
    cases hmem
  | @abandon x entry pre post a loses stage found =>
    refine hact stage (by simp) (fun y hy => ?_) (fun _ _ => rfl) (Nat.le_refl _)
    simp only [ProxyStage.locks_retiring, List.filterMap_append, List.filterMap_cons,
      Retirement.lock?_locking, Retirement.lock?_finished, List.mem_append, List.mem_cons] at hy ⊢
    exact hy.imp_right .inr

/-- A call that does not want the lock of an entry leaves it the same, however it advances. -/
theorem Advances.sameAt (h : Advances may t m m') (hm : m.Consistent) (hfree : e ∉ m.wanted t) :
    SameAt e m m' ∧ e ∉ m'.wanted t := by
  induction h with
  | refl => exact ⟨.refl e m, hfree⟩
  | tail hinit hlast ih =>
    obtain ⟨hsame, hfree'⟩ := ih
    obtain ⟨hsame', hfree''⟩ := hlast.sameAt ((Advances.moves hinit).consistent hm) hfree'
    exact ⟨hsame.trans hsame', hfree''⟩

/-- A new entry leaves all others the same. -/
theorem sameAt_enrol (found : m.entries[e]? = some entry) (peer : Peer) :
    SameAt e m (m.enrol peer) where
  entry := (getElem?_concat_of_some _ found).trans found.symm
  attempt _ := rfl
  length_le := Nat.le_refl _

/-- A new entry is registered for its own peer only. -/
theorem get?_enrol {peer : Peer} (hget : m.registry.get? id = some e) (hne : peer.id ≠ id) :
    (m.enrol peer).registry.get? id = some e :=
  Registry.get?_set.trans ((if_neg hne).trans hget)

/-- A call that begins leaves alone the entry of every peer that it neither looks up nor resets. -/
theorem Move.sameAt (h : Move may t m m') (hm : m.Consistent) (hget : m.registry.get? id = some e)
    (htask : ∃ s, m.tasks[t]? = some ⟨call, s⟩) (hlooks : call ≠ .lookUp id) (hclose : call ≠ .close)
    (hresets : ¬ call.Resets id) (hfree : e ∉ m.wanted t) :
    SameAt e m m' ∧ e ∉ m'.wanted t ∧ m'.registry.get? id = some e := by
  obtain ⟨s, htask⟩ := htask
  obtain ⟨own, hown, hid⟩ := hm.registered id e hget
  -- whoever comes to the lock of another entry wants no other
  have hlock : ∀ {x : EntryId} {s₀ : ProxyStage} (s' : ProxyStage), m.stage? t = some s₀ → x ≠ e →
      (∀ y ∈ s'.locks, y = x ∨ y ∈ s₀.locks) →
      SameAt e m (m.act x (.lock t) m.creations t s') ∧
        e ∉ (m.act x (.lock t) m.creations t s').wanted t := by
    intro x s₀ s' hs hne hlocks
    refine ⟨sameAt_act hne (fun _ => rfl) (Nat.le_refl _), fun hmem => ?_⟩
    rw [wanted_eq ((stage?_act hs).trans (if_pos rfl))] at hmem
    rcases hlocks e hmem with heq | hmem
    · exact hne heq.symm
    · exact hfree (by rwa [wanted_eq hs])
  cases h with
  | advance h =>
    obtain ⟨hsame, hfree'⟩ := h.sameAt hm hfree
    exact ⟨hsame, hfree', h.registry_eq ▸ hget⟩
  | @enrol peer absent =>
    refine ⟨sameAt_enrol hown peer, hfree, get?_enrol hget ?_⟩
    rintro rfl
    cases absent.symm.trans hget
  | call call' new =>
    subst new
    simp at htask
  | shut => exact ⟨⟨rfl, fun _ => rfl, Nat.le_refl _⟩, hfree, hget⟩
  | @join id' x entry a task isOpen registered found =>
    cases htask.symm.trans task
    have hne : x ≠ e := by
      rintro rfl
      exact hlooks (congrArg ProxyCall.lookUp (hm.id_unique registered hget))
    obtain ⟨hsame, hfree'⟩ := hlock (.locking x) (stage?_eq_some_iff.mpr ⟨_, task⟩) hne
      fun y hy => .inl (List.mem_singleton.mp hy)
    exact ⟨hsame, hfree', hget⟩
  | await task =>
    cases htask.symm.trans task
    exact absurd rfl hclose
  | @renew call' id' x entry a b task resets isOpen registered found =>
    cases htask.symm.trans task
    have hid' : id' ≠ id := fun heq => hresets (heq ▸ resets)
    have hne : x ≠ e := by
      rintro rfl
      exact hid' (hm.id_unique registered hget)
    obtain ⟨hsame, hfree'⟩ := hlock (.retiring [.locking x] b)
      (stage?_eq_some_iff.mpr ⟨_, task⟩) hne fun y hy => .inl (by simpa using hy)
    obtain ⟨entry', found', hpeer⟩ := hm.registered id' x registered
    cases found.symm.trans found'
    refine ⟨hsame.trans (sameAt_enrol (hsame.entry.trans hown) _), hfree', get?_enrol hget ?_⟩
    rwa [hpeer]

/-- A turn of a call that does not want the lock of the entry. -/
theorem sameAt_turn (hm : m.Consistent) (hfree : e ∉ m.wanted t) :
    SameAt e m (m.turn now factory t) :=
  ((turn_advances hm : Advances (fun _ => False) t m _).sameAt hm hfree).1

/-- A call that does not want the lock of an entry leaves it the same when it is cancelled. -/
theorem sameAt_cancel (hm : m.Consistent) (hfree : e ∉ m.wanted t) : SameAt e m (m.cancel t).1 :=
  ((cancel_advances hm (fun _ _ => trivial) fun _ _ => trivial :
    Advances (fun _ => True) t m _).sameAt hm hfree).1

/-- A call begins that neither looks the peer up, nor replaces its entry, nor closes the map. -/
theorem sameAt_begin (now : Nat) (factory : Factory) (hm : m.Consistent) (hget : m.registry.get? id = some e)
    (hlooks : call ≠ .lookUp id) (hclose : call ≠ .close) (hrenews : ¬ call.Renews id) :
    SameAt e m (m.begin now factory call) ∧
      (m.begin now factory call).registry.get? id = some e := by
  have henter : SameAt e m (m.enter call) := ⟨rfl, fun _ => rfl, Nat.le_refl _⟩
  by_cases hresets : call.Resets id
  -- a repair that does not ask for a new connection ends at once
  · cases call with
    | lookUp | close => exact hresets.elim
    | reset id' => exact absurd hresets hrenews
    | repair id' error reconnect =>
      have hasks : ¬ (reconnect || error.shouldReconnect) = true := fun hasks => hrenews ⟨hresets, hasks⟩
      have hbegin : m.begin now factory (.repair id' error reconnect) =
          (m.enter (.repair id' error reconnect)).finish now m.tasks.length (.repaired false) := by
        simp only [begin, if_neg hasks]
        rfl
      rw [hbegin]
      exact ⟨⟨rfl, fun _ => rfl, Nat.le_refl _⟩, hget⟩
  · have hcall : Move (fun _ => False) m.tasks.length m (m.enter call) := .call call rfl
    have hmoves : Moves (fun _ => False) m.tasks.length (m.enter call) (m.begin now factory call) :=
      enter_moves hm
    have hstage : (m.enter call).stage? m.tasks.length = some (.retiring [] .done) :=
      stage?_eq_some_iff.mpr ⟨_, tasks_enter call⟩
    have hall := hmoves.induct
      (P := fun m' => (SameAt e m m' ∧ e ∉ m'.wanted m.tasks.length ∧ m'.registry.get? id = some e) ∧
        ∃ s, m'.tasks[m.tasks.length]? = some ⟨call, s⟩)
      (fun m₁ m₂ hm₁ hmove hP => ?_) (hcall.consistent hm)
      ⟨⟨henter, by simp [wanted_eq hstage], hget⟩, ⟨_, tasks_enter call⟩⟩
    · exact ⟨hall.1.1, hall.1.2.2⟩
    · obtain ⟨⟨hsame, hfree, hget⟩, s, htask⟩ := hP
      obtain ⟨hsame', hfree', hget'⟩ := hmove.sameAt hm₁ hget ⟨s, htask⟩ hlooks hclose hresets hfree
      exact ⟨⟨hsame.trans hsame', hfree', hget'⟩, (hmove.grows hm₁).tasks _ _ s htask⟩

/-- A peer is registered, unless it is registered already. -/
theorem sameAt_register (hget : m.registry.get? id = some e) (found : m.entries[e]? = some entry)
    (peer : Peer) : SameAt e m (m.register peer) ∧ (m.register peer).registry.get? id = some e := by
  unfold register
  split
  · exact ⟨.refl e m, hget⟩
  · next habsent =>
    refine ⟨sameAt_enrol found peer, get?_enrol hget ?_⟩
    rintro rfl
    simp [contains, hget] at habsent

/-! ## Maps that stay open -/

/-- Advances neither close the map nor open it. -/
theorem Advances.closed_eq (h : Advances may t m m') : m'.closed = m.closed := by
  induction h with
  | refl => rfl
  | tail _ hlast ih => exact hlast.closed_eq.trans ih

/-- Neither does a try. -/
theorem closed_create : (m.create now factory t e).closed = m.closed := by
  unfold create
  split
  · rfl
  · dsimp only
    split
    · rfl
    · split
      · rfl
      · split <;> rfl

/-- Neither does retiring an entry. -/
theorem closed_retire : (m.retire now e).1.closed = m.closed := by
  unfold retire
  split
  · rfl
  · dsimp only
    split <;> rfl

/-- Nor a turn of a retirement. -/
theorem closed_turnRetirement {job : Retirement} :
    (m.turnRetirement now t job).1.closed = m.closed := by
  cases job with
  | locking x =>
    simp only [turnRetirement]
    split
    · exact closed_retire
    · rfl
  | closing x k wake =>
    simp only [turnRetirement]
    split <;> rfl
  | finished x => rfl

/-- Nor the turns of several. -/
theorem closed_turnRetirements {jobs : List Retirement} :
    (m.turnRetirements now t jobs).1.closed = m.closed := by
  induction jobs generalizing m with
  | nil => rfl
  | cons job jobs ih => exact ih.trans closed_turnRetirement

/-- Nor a call that begins to retire. -/
theorem closed_beginRetiring {targets : List EntryId} {a : ProxyAnswer} :
    (m.beginRetiring now t targets a).closed = m.closed := by
  have hlocks : (targets.foldl (fun m e => m.modifyEntry e (.lock t)) m).closed = m.closed := by
    induction targets generalizing m with
    | nil => rfl
    | cons x targets ih => exact ih
  unfold beginRetiring continueRetiring
  dsimp only
  split <;> exact closed_turnRetirements.trans hlocks

/-- Nor a reset that begins. -/
theorem closed_beginReset {a : ProxyAnswer} : (m.beginReset now t id a).closed = m.closed := by
  refine closed_beginRetiring.trans ?_
  show (m.renew id).1.closed = m.closed
  unfold renew
  split
  · rfl
  · split
    · rfl
    · split <;> rfl

/-- Only a close bars the map. -/
theorem closed_begin (hclose : call ≠ .close) : (m.begin now factory call).closed = m.closed := by
  cases call with
  | lookUp id' =>
    unfold begin beginLookUp
    dsimp only
    split
    · rfl
    · split
      · rfl
      · split
        · rfl
        · split
          · exact closed_create
          · rfl
  | reset id' => exact closed_beginReset
  | repair id' error reconnect =>
    unfold begin
    dsimp only
    split
    · exact closed_beginReset
    · rfl
  | close => exact absurd rfl hclose

end Replica.ProxyMap
