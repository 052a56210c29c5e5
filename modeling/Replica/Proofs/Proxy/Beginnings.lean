import Replica.Proofs.Proxy.Turns

/-!
# Beginnings as moves

A call that begins joins the tasks and goes as far as it can at once, by some moves of its own
(`begin_moves`).
-/

namespace Replica.ProxyMap

variable {may : Loss → Prop} {t u : TaskId} {m m' : ProxyMap} {e x : EntryId} {s : ProxyStage}
variable {a b : ProxyAnswer} {now : Nat} {factory : Factory}

/-! ## Beginnings -/

/-- A look-up goes for the lock, or ends at once. -/
theorem beginLookUp_moves {id : PeerId} (hm : m.Consistent)
    (htask : m.tasks[t]? = some ⟨.lookUp id, .retiring [] a⟩) :
    Moves may t m (m.beginLookUp now factory t id) := by
  have hstage := stage?_eq_some_iff.mpr ⟨_, htask⟩
  have hfinish : ∀ answer, Moves may t m (m.finish now t answer) := fun answer =>
    .single (.advance (.finish hstage rfl (.inr ⟨now, answer, rfl⟩)))
  unfold beginLookUp
  split
  · exact hfinish _
  · next hopen =>
    split
    · exact hfinish _
    · next e registered =>
      obtain ⟨entry, found, -⟩ := hm.registered id e registered
      split
      · exact hfinish _
      · have hjoin : Move may t m (m.act e (.lock t) m.creations t (.locking e)) :=
          .join htask (Bool.eq_false_iff.mpr hopen) registered found
        simp only
        split
        · next howns =>
          exact .trans (.single hjoin)
            (create_advances (hjoin.consistent hm) (stage?_setStage_self hstage) howns).moves
        · exact .single hjoin

theorem foldl_lock_setStage {targets : List EntryId} :
    targets.foldl (fun m e => m.modifyEntry e (.lock t)) (m.setStage t s) =
      (targets.foldl (fun m e => m.modifyEntry e (.lock t)) m).setStage t s := by
  induction targets generalizing m with
  | nil => rfl
  | cons e rest ih =>
    have he : (m.setStage t s).modifyEntry e (.lock t) = (m.modifyEntry e (.lock t)).setStage t s := rfl
    rw [List.foldl_cons, List.foldl_cons, he, ih]

theorem stage?_foldl_lock {targets : List EntryId} :
    (targets.foldl (fun m e => m.modifyEntry e (.lock t)) m).stage? u = m.stage? u := by
  induction targets generalizing m with
  | nil => rfl
  | cons e rest ih => exact ih

/-- A close goes for one lock after the other. -/
theorem await_moves {targets : List EntryId} :
    ∀ {jobs : List Retirement} {m : ProxyMap}, m.Consistent → m.closed = true →
      (∀ e ∈ targets, e ∈ m.registry.values ∧ ∃ entry, m.entries[e]? = some entry) →
      m.tasks[t]? = some ⟨.close, .retiring jobs a⟩ →
      Moves may t m ((targets.foldl (fun m e => m.modifyEntry e (.lock t)) m).setStage t
        (.retiring (jobs ++ targets.map .locking) a)) := by
  induction targets with
  | nil =>
    intro jobs m hm hclosed hfound htask
    rw [List.map_nil, List.append_nil, List.foldl_nil, setStage_self (stage?_eq_some_iff.mpr ⟨_, htask⟩)]
  | cons e rest ih =>
    intro jobs m hm hclosed hfound htask
    obtain ⟨hlisted, entry, found⟩ := hfound e List.mem_cons_self
    have hfirst : Move may t m (m.act e (.lock t) m.creations t
        (.retiring (jobs ++ [.locking e]) a)) := .await htask hclosed found hlisted
    have hfound' : ∀ x ∈ rest, x ∈ (m.act e (.lock t) m.creations t
        (.retiring (jobs ++ [.locking e]) a)).registry.values ∧ ∃ entry, (m.act e (.lock t) m.creations t
        (.retiring (jobs ++ [.locking e]) a)).entries[x]? = some entry := by
      intro x hx
      obtain ⟨hlisted, old, hold⟩ := hfound x (List.mem_cons_of_mem _ hx)
      exact ⟨hlisted, _, getElem?_modify_eq_some_iff.mpr ⟨old, hold, rfl⟩⟩
    have htask' : (m.act e (.lock t) m.creations t
        (.retiring (jobs ++ [.locking e]) a)).tasks[t]? = some ⟨.close, _⟩ :=
      getElem?_modify_eq_some_iff.mpr ⟨_, htask, if_pos rfl⟩
    -- the other locks are asked for in the state that the first one has left
    have hrest := ih (hfirst.consistent hm) hclosed hfound' htask'
    have hpath := Relation.ReflTransGen.head hfirst hrest
    have hact : m.act e (.lock t) m.creations t (.retiring (jobs ++ [.locking e]) a) =
        (m.modifyEntry e (.lock t)).setStage t (.retiring (jobs ++ [.locking e]) a) := rfl
    simp only [hact, foldl_lock_setStage, setStage_setStage, List.append_assoc,
      List.singleton_append] at hpath
    exact hpath

/-- The map after a reset has swapped in a fresh entry for the peer of entry `e` and has gone for the
lock of the old one. -/
def renewed (t : TaskId) (e : EntryId) (entry : ProxyEntry) (b : ProxyAnswer) (m : ProxyMap) :
    ProxyMap :=
  (m.act e (.lock t) m.creations t (.retiring [.locking e] b)).enrol entry.peer

/-- A reset that finds the map open and the peer registered swaps in a fresh entry, and has the old one to
retire. -/
theorem beginReset_eq {id : PeerId} {entry : ProxyEntry} (hid : entry.peer.id = id)
    (hopen : m.closed = false) (registered : m.registry.get? id = some e)
    (found : m.entries[e]? = some entry) :
    m.beginReset now t id b = (m.renewed t e entry b).continueRetiring now t [.locking e] b := by
  have hrenew : m.renew id = ({ m with
      registry := m.registry.set id m.entries.length
      entries := m.entries ++ [.fresh entry.peer] }, some e) := by
    simp [renew, registered, hopen, found]
  -- the old entry may be locked before or after the fresh one is there
  have hswap : m.renewed t e entry b =
      (({ m with
          registry := m.registry.set id m.entries.length
          entries := m.entries ++ [.fresh entry.peer] } : ProxyMap).modifyEntry e
        (.lock t)).setStage t (.retiring [.locking e] b) := by
    simp only [renewed, act, enrol, modifyEntry, setStage, List.length_modify, hid,
      modify_concat _ _ (lt_length_of_getElem? found)]
  rw [hswap, continueRetiring_setStage, beginReset, hrenew]
  rfl

/-- A reset that finds the map open and the peer registered swaps in a fresh entry, and goes on from
there. -/
theorem beginReset_path {call : ProxyCall} {id : PeerId} {entry : ProxyEntry} (hm : m.Consistent)
    (task : m.tasks[t]? = some ⟨call, .retiring [] a⟩) (resets : call.Resets id)
    (hopen : m.closed = false) (registered : m.registry.get? id = some e)
    (found : m.entries[e]? = some entry) :
    Move may t m (m.renewed t e entry b) ∧
      Advances may t (m.renewed t e entry b) (m.beginReset now t id b) := by
  have hstage := stage?_eq_some_iff.mpr ⟨call, task⟩
  obtain ⟨entry', found', hid⟩ := hm.registered id e registered
  cases found.symm.trans found'
  have hmove : Move may t m (m.renewed t e entry b) := .renew task resets hopen registered found
  refine ⟨hmove, ?_⟩
  rw [beginReset_eq hid hopen registered found]
  exact continueRetiring_advances may now (hmove.consistent hm)
    (stage?_setStage_self (m := { m.modifyEntry e (.lock t) with creations := m.creations }) hstage)

/-- A reset swaps in a fresh entry, or ends at once. -/
theorem beginReset_moves {call : ProxyCall} {id : PeerId} (hm : m.Consistent)
    (task : m.tasks[t]? = some ⟨call, .retiring [] a⟩) (resets : call.Resets id) :
    Moves may t m (m.beginReset now t id b) := by
  have hstage := stage?_eq_some_iff.mpr ⟨call, task⟩
  have hnone : Moves may t m (m.beginRetiring now t [] b) :=
    .single (.advance (.finish hstage rfl (.inr ⟨now, b, rfl⟩)))
  cases registered : m.registry.get? id with
  | none =>
    have hrenew : m.renew id = (m, none) := by simp only [renew, registered]
    rw [beginReset, hrenew]
    exact hnone
  | some e =>
    cases hopen : m.closed with
    | true =>
      have hrenew : m.renew id = (m, none) := by simp only [renew, registered, hopen, if_true]
      rw [beginReset, hrenew]
      exact hnone
    | false =>
      obtain ⟨entry, found, -⟩ := hm.registered id e registered
      obtain ⟨hmove, hrest⟩ := beginReset_path hm task resets hopen registered found
      exact .trans (.single hmove) hrest.moves

/-- The map with one more call. -/
def enter (call : ProxyCall) (m : ProxyMap) : ProxyMap :=
  { m with tasks := m.tasks ++ [⟨call, .retiring [] .done⟩] }

theorem tasks_enter (call : ProxyCall) :
    (m.enter call).tasks[m.tasks.length]? = some ⟨call, .retiring [] .done⟩ := by
  simp [enter]

/-- The map closed to look-ups and resets, with one more call that is about to close its entries. -/
def bar (m : ProxyMap) : ProxyMap := { m.enter .close with closed := true }

theorem bar_moves (may : Loss → Prop) (m : ProxyMap) : Moves may m.tasks.length m m.bar :=
  .tail (.single (.call .close rfl)) .shut

/-- The map after a close has gone for the lock of every registered entry. -/
def awaiting (m : ProxyMap) : ProxyMap :=
  (m.registry.values.foldl (fun m' e => m'.modifyEntry e (.lock m.tasks.length)) m.bar).setStage
    m.tasks.length (.retiring (m.registry.values.map .locking) .done)

theorem stage?_awaiting : m.awaiting.stage? m.tasks.length =
    some (.retiring (m.registry.values.map .locking) .done) :=
  stage?_setStage_self (stage?_foldl_lock.trans (stage?_eq_some_iff.mpr ⟨.close, tasks_enter .close⟩))

theorem awaiting_moves (may : Loss → Prop) (hm : m.Consistent) :
    Moves may m.tasks.length m.bar m.awaiting := by
  refine await_moves ((bar_moves may m).consistent hm) rfl (fun e he => ?_) (tasks_enter .close)
  obtain ⟨id, hid⟩ := hm.sorted.mem_values_iff.mp he
  obtain ⟨entry, found, -⟩ := hm.registered id e hid
  exact ⟨he, entry, found⟩

/-- A close that finds the map open takes its turn once it is in every line. -/
theorem begin_close_eq (now : Nat) (factory : Factory) (hopen : m.closed = false) :
    m.begin now factory .close = m.awaiting.continueRetiring now m.tasks.length
      (m.registry.values.map .locking) .done := by
  have hbegin : m.begin now factory .close =
      m.bar.beginRetiring now m.tasks.length m.registry.values .done := by
    simp [begin, bar, enter, hopen]
  rw [hbegin, awaiting, continueRetiring_setStage]
  rfl

/-- A close that finds the map open goes for the lock of every registered entry. -/
theorem begin_close_moves (may : Loss → Prop) (now : Nat) (factory : Factory) (hm : m.Consistent)
    (hopen : m.closed = false) :
    ∃ mid : ProxyMap, Moves may m.tasks.length m.bar mid ∧
      (∀ id e, m.registry.get? id = some e → mid.Retires m.tasks.length e) ∧
      Advances may m.tasks.length mid (m.begin now factory .close) := by
  have hawait := awaiting_moves may hm
  refine ⟨m.awaiting, hawait, fun id e h => ?_, ?_⟩
  · refine ⟨_, _, stage?_awaiting, List.mem_map.mpr ⟨e, ?_, rfl⟩⟩
    exact hm.sorted.mem_values_iff.mpr ⟨id, h⟩
  · rw [begin_close_eq now factory hopen]
    exact continueRetiring_advances may now (hawait.consistent ((bar_moves may m).consistent hm)) stage?_awaiting

/-- The first turn of a call. -/
theorem enter_moves (hm : m.Consistent) {call : ProxyCall} :
    Moves may m.tasks.length (m.enter call) (m.begin now factory call) := by
  have hcall : Move may m.tasks.length m (m.enter call) := .call call rfl
  have hconsistent := hcall.consistent hm
  have htask := tasks_enter (m := m) call
  have hstage := stage?_eq_some_iff.mpr ⟨call, htask⟩
  have hfinish : ∀ answer, Moves may m.tasks.length (m.enter call)
      ((m.enter call).finish now m.tasks.length answer) := fun answer =>
    .single (.advance (.finish hstage rfl (.inr ⟨now, answer, rfl⟩)))
  cases call with
  | lookUp id => exact beginLookUp_moves hconsistent htask
  | reset id => exact beginReset_moves hconsistent htask rfl
  | repair id error reconnect =>
    unfold begin
    simp only
    split
    · exact beginReset_moves hconsistent htask rfl
    · exact hfinish _
  | close =>
    cases hopen : m.closed with
    | true =>
      have hbegin : m.begin now factory .close =
          (m.enter .close).finish now m.tasks.length .done := by
        simp [begin, enter, hopen]
      rw [hbegin]
      exact hfinish _
    | false =>
      obtain ⟨mid, hmid, -, hrest⟩ := begin_close_moves may now factory hm hopen
      exact .head .shut (hmid.trans hrest.moves)

/-- A call begins. -/
theorem begin_moves (hm : m.Consistent) {call : ProxyCall} :
    Moves may m.tasks.length m (m.begin now factory call) :=
  .head (.call call rfl) (enter_moves hm)

end Replica.ProxyMap
