import Replica.Proofs.Proxy.Settling

/-!
# Turns that do not see each other

What one call does at an entry that another call does not hold, and to a proxy, of which nothing is read
but the script, does not matter to the other call, which does the same afterwards as before
(`Amendment.Apart.turn`). So the two can take their turns in either order.
-/

namespace Replica

/-- The two changes can be made in either order, if they are at different places or go well together. -/
theorem modify_comm {α : Type} {f g : α → α} {i j : Nat} (l : List α)
    (h : i = j → ∀ a, g (f a) = f (g a)) : (l.modify i f).modify j g = (l.modify j g).modify i f := by
  by_cases hij : i = j
  · subst hij
    rw [List.modify_modify_eq, List.modify_modify_eq]
    exact congrArg (l.modify i) (funext (h rfl))
  · exact List.modify_modify_ne f g l hij

/-- A note about a proxy of which the factory does not know, and which goes well with what other calls note
at the same instant. -/
structure Creation.Note (now : Nat) (g : Creation → Creation) : Prop where
  known : ∀ c, (g c).known = c.known
  ended : ∀ outcome c, g (c.ended outcome) = (g c).ended outcome
  asked : ∀ c, g (c.askToClose now) = (g c).askToClose now
  closed : ∀ c, g (c.hasClosed now) = (g c).hasClosed now

theorem Creation.Note.nothing (now : Nat) : Note now id :=
  ⟨fun _ => rfl, fun _ _ => rfl, fun _ => rfl, fun _ => rfl⟩

theorem Creation.Note.askToClose (now : Nat) : Note now (Creation.askToClose now) :=
  ⟨fun _ => rfl, fun _ _ => rfl, fun _ => rfl, fun _ => rfl⟩

theorem Creation.Note.hasClosed (now : Nat) : Note now (Creation.hasClosed now) :=
  ⟨fun _ => rfl, fun _ _ => rfl, fun _ => rfl, fun _ => rfl⟩

/-- A note on a creation leaves its script as it is. -/
theorem Creation.Note.script {now : Nat} {g : Creation → Creation} (hg : Note now g) (c : Creation) :
    (g c).script = c.script :=
  congrArg (fun k => k.2.1) (hg.known c)

/-- A note on a creation leaves its peer as it is. -/
theorem Creation.Note.peer {now : Nat} {g : Creation → Creation} (hg : Note now g) (c : Creation) :
    (g c).peer = c.peer :=
  congrArg (fun k => k.1) (hg.known c)

/-- What a peer's calls know of the creations is the same with or without the note. -/
theorem knownOf_modify {now : Nat} {g : Creation → Creation} (hg : Creation.Note now g) (id : PeerId)
    (h : Handle) (creations : List Creation) :
    knownOf id (creations.modify h g) = knownOf id creations := by
  induction creations generalizing h with
  | nil => simp
  | cons c creations ih =>
    cases h with
    | zero => simp [knownOf, List.filter_cons, hg.peer, hg.known, apply_ite]
    | succ h =>
      have hrest := ih h
      simp only [knownOf] at hrest
      simp [knownOf, List.filter_cons, apply_ite, hrest]

/-- What a call does at an entry and to a proxy. -/
structure Amendment where
  entry : EntryId
  onEntry : ProxyEntry → ProxyEntry
  proxy : Handle
  onProxy : Creation → Creation
  call : TaskId
  stage : ProxyStage

namespace ProxyMap

variable {m : ProxyMap} {x : Amendment} {e : EntryId} {h : Handle} {t : TaskId} {now : Nat}
variable {f : ProxyEntry → ProxyEntry} {g : Creation → Creation} {s : ProxyStage} {entry : ProxyEntry}

def amend (x : Amendment) (m : ProxyMap) : ProxyMap :=
  ((m.modifyEntry x.entry x.onEntry).modifyCreation x.proxy x.onProxy).setStage x.call x.stage

/-! ## Changes of one place -/

/-- The entry is another one, or it is left as it is. -/
def Spares (x : Amendment) (e : EntryId) : Prop := x.entry = e → x.onEntry = id

/-- An entry that is spared is not amended. -/
theorem amend_entry (he : Spares x e) : (m.amend x).entries[e]? = m.entries[e]? := by
  show (m.entries.modify x.entry x.onEntry)[e]? = m.entries[e]?
  rw [List.getElem?_modify]
  split
  · next heq =>
    rw [he heq]
    simp
  · simp

/-- Of the creations only the one is amended. -/
theorem amend_creation : (m.amend x).creations[h]? =
    m.creations[h]?.map fun c => if x.proxy = h then x.onProxy c else c :=
  List.getElem?_modify ..

/-- An entry that is spared may be modified before or after. -/
theorem amend_modifyEntry (he : Spares x e) :
    (m.amend x).modifyEntry e f = (m.modifyEntry e f).amend x := by
  have hcomm : (m.entries.modify x.entry x.onEntry).modify e f =
      (m.entries.modify e f).modify x.entry x.onEntry :=
    modify_comm m.entries fun heq a => by rw [he heq]; rfl
  exact congrArg (fun entries => { m.amend x with entries }) hcomm

/-- A creation may be modified before or after, if the note does not see the modification. -/
theorem amend_modifyCreation (hg : ∀ c, x.onProxy (g c) = g (x.onProxy c)) :
    (m.amend x).modifyCreation h g = (m.modifyCreation h g).amend x := by
  have hcomm : (m.creations.modify x.proxy x.onProxy).modify h g =
      (m.creations.modify h g).modify x.proxy x.onProxy :=
    modify_comm m.creations fun _ c => (hg c).symm
  exact congrArg (fun creations => { m.amend x with creations }) hcomm

/-- A creation may be added before or after. -/
theorem amend_addCreation {c : Creation} (hx : x.onProxy = id ∨ x.proxy < m.creations.length) :
    (m.amend x).addCreation c = (m.addCreation c).amend x := by
  have hcomm : m.creations.modify x.proxy x.onProxy ++ [c] =
      (m.creations ++ [c]).modify x.proxy x.onProxy := by
    rcases hx with hx | hx
    · rw [hx, List.modify_id, List.modify_id]
    · exact (modify_concat x.onProxy c hx).symm
  exact congrArg (fun creations => { m.amend x with creations }) hcomm

/-- The stage of another call may be set before or after. -/
theorem amend_setStage (ht : x.call ≠ t) : (m.amend x).setStage t s = (m.setStage t s).amend x := by
  have hcomm : (m.tasks.modify x.call fun task => { task with stage := x.stage }).modify t
      (fun task => { task with stage := s }) =
      (m.tasks.modify t fun task => { task with stage := s }).modify x.call
        fun task => { task with stage := x.stage } :=
    modify_comm m.tasks fun heq => absurd heq ht
  exact congrArg (fun tasks => { m.amend x with tasks }) hcomm

/-- The stage of another call is not amended. -/
theorem amend_stage? (ht : x.call ≠ t) : (m.amend x).stage? t = m.stage? t := by
  show ((m.tasks.modify x.call fun task => { task with stage := x.stage })[t]?).map ProxyTask.stage = _
  simp [ht, stage?]

/-- What is reported when the proxy has closed. -/
def failuresOf (h : Handle) (m : ProxyMap) : List Diagnostic :=
  match m.creations[h]? with
  | some c => (c.script.closeFailure.map (m.closeFailure c.peer)).toList
  | none => []

/-! ## Who does not see it -/

end ProxyMap

/-- The call does not see the change, which is the same before and after its turn: of the proxy it reads the
script at most, and the entry, which is as given, it does not hold, neither before the change nor
afterwards. -/
structure Amendment.Apart (x : Amendment) (now : Nat) (t : TaskId) (y : ProxyEntry) (script : Script)
    (m : ProxyMap) : Prop where
  call : x.call ≠ t
  note : Creation.Note now x.onProxy
  entry : x.onEntry = id ∨
    m.entries[x.entry]? = some y ∧ y.owner ≠ some t ∧ (x.onEntry y).owner ≠ some t
  proxy : x.onProxy = id ∨ m.creations[x.proxy]?.map (·.script) = some script

namespace Amendment.Apart

open ProxyMap

variable {m : ProxyMap} {x : Amendment} {e : EntryId} {h : Handle} {t : TaskId} {now : Nat}
variable {y entry : ProxyEntry} {script : Script} {f : ProxyEntry → ProxyEntry} {g : Creation → Creation}
variable {s : ProxyStage} {k : PeerId} {factory : Factory} {c : Creation}
variable {job : Retirement} {jobs : List Retirement} {a : ProxyAnswer}

/-- The owner of the lock sees no amendment of the entry. -/
theorem spares (hx : x.Apart now t y script m) (found : m.entries[e]? = some entry)
    (howner : entry.owner = some t) : Spares x e := by
  intro heq
  rcases hx.entry with hid | ⟨found', hy, -⟩
  · exact hid
  · rw [heq] at found'
    cases found.symm.trans found'
    exact absurd howner hy

/-- An amendment is of a creation that has begun, or of none. -/
theorem proxy_lt (hx : x.Apart now t y script m) : x.onProxy = id ∨ x.proxy < m.creations.length := by
  refine hx.proxy.imp_right fun hscript => ?_
  obtain ⟨c, hc, -⟩ := Option.map_eq_some_iff.mp hscript
  exact lt_length_of_getElem? hc

/-- A call holds a lock with or without the amendment. -/
theorem owns (hx : x.Apart now t y script m) : (m.amend x).owns e t = m.owns e t := by
  by_cases he : Spares x e
  · simp only [ProxyMap.owns, amend_entry he]
  · obtain ⟨rfl, hne⟩ := Classical.not_imp.mp he
    obtain ⟨found, hy, hy'⟩ := hx.entry.resolve_left hne
    have found' : (m.amend x).entries[x.entry]? = some (x.onEntry y) := by
      show (m.entries.modify x.entry x.onEntry)[x.entry]? = _
      simp [found]
    simp only [ProxyMap.owns, found, found', Option.bind_some]
    simp [hy, hy']

/-! ### It is the same after changes elsewhere -/

/-- An amendment that is not seen is not seen after an entry that it spares was modified. -/
theorem modifyEntry (hx : x.Apart now t y script m) (he : Spares x e) :
    x.Apart now t y script (m.modifyEntry e f) := by
  refine ⟨hx.call, hx.note, ?_, hx.proxy⟩
  by_cases hid : x.onEntry = id
  · exact .inl hid
  · obtain ⟨found, hy⟩ := hx.entry.resolve_left hid
    have hne : e ≠ x.entry := fun heq => hid (he heq.symm)
    refine .inr ⟨?_, hy⟩
    show (m.entries.modify e f)[x.entry]? = _
    simp [hne, found]

/-- Nor after a creation was modified. -/
theorem modifyCreation (hx : x.Apart now t y script m) (hg : ∀ c, (g c).script = c.script) :
    x.Apart now t y script (m.modifyCreation h g) := by
  refine ⟨hx.call, hx.note, hx.entry, hx.proxy.imp_right fun hscript => ?_⟩
  obtain ⟨c, hc, hs⟩ := Option.map_eq_some_iff.mp hscript
  show ((m.creations.modify h g)[x.proxy]?).map (·.script) = _
  rw [List.getElem?_modify, hc]
  by_cases hh : h = x.proxy <;> simp [hh, hg, hs]

/-- Nor after one was added. -/
theorem addCreation (hx : x.Apart now t y script m) : x.Apart now t y script (m.addCreation c) := by
  refine ⟨hx.call, hx.note, hx.entry, hx.proxy.imp_right fun hscript => ?_⟩
  obtain ⟨d, hd, hs⟩ := Option.map_eq_some_iff.mp hscript
  show ((m.creations ++ [c])[x.proxy]?).map (·.script) = _
  rw [getElem?_concat_of_some c hd, Option.map_some, hs]

/-- Nor after a stage was set. -/
theorem setStage (hx : x.Apart now t y script m) : x.Apart now t y script (m.setStage t s) :=
  ⟨hx.call, hx.note, hx.entry, hx.proxy⟩

/-! ### Turns -/

/-- What a look-up does that holds the lock of an entry. -/
theorem create (hx : x.Apart now t y script m) (hfactory : Factory.AgreeOn k factory factory)
    (found : m.entries[e]? = some entry) (howner : entry.owner = some t) (hk : entry.peer.id = k) :
    (m.amend x).create now factory t e = (m.create now factory t e).amend x ∧
      x.Apart now t y script (m.create now factory t e) := by
  have he := hx.spares found howner
  have found' : (m.amend x).entries[e]? = some entry := (amend_entry he).trans found
  rcases create_alike m.name entry with ⟨answer, -, hcreate⟩ | ⟨lifecycle, hcreate⟩
  · rw [hcreate m now factory t e rfl found, hcreate (m.amend x) now factory t e rfl found']
    refine ⟨?_, (hx.modifyEntry he).setStage⟩
    rw [amend_modifyEntry he]
    exact amend_setStage hx.call
  · have hscript : factory (m.amend x).creations entry.peer = factory m.creations entry.peer :=
      hfactory _ _ entry.peer hk (knownOf_modify hx.note k x.proxy m.creations)
    have hlength : (m.amend x).creations.length = m.creations.length := List.length_modify ..
    rw [hcreate m now factory t e rfl found, hcreate (m.amend x) now factory t e rfl found', hscript, hlength]
    refine ⟨?_, (hx.addCreation.modifyEntry he).setStage⟩
    rw [amend_addCreation hx.proxy_lt, amend_modifyEntry he, amend_setStage hx.call]

/-- What a look-up does that holds the lock of an entry and has waited for the factory. -/
theorem conclude (hx : x.Apart now t y script m) (found : m.entries[e]? = some entry)
    (howner : entry.owner = some t) (made : m.creations[h]? = some c) :
    (m.amend x).conclude now t e h = (m.conclude now t e h).amend x ∧
      x.Apart now t y script (m.conclude now t e h) := by
  have he := hx.spares found howner
  have found' : (m.amend x).entries[e]? = some entry := (amend_entry he).trans found
  obtain ⟨c', made', hscript⟩ : ∃ c', (m.amend x).creations[h]? = some c' ∧ c'.script = c.script := by
    rw [amend_creation, made]
    refine ⟨_, rfl, ?_⟩
    split
    · exact hx.note.script c
    · rfl
  have hdone : ∀ (f : ProxyEntry → ProxyEntry) outcome a,
      (((m.amend x).modifyEntry e f).modifyCreation h (Creation.ended outcome)).finish now t a =
        (((m.modifyEntry e f).modifyCreation h (Creation.ended outcome)).finish now t a).amend x ∧
      x.Apart now t y script
        (((m.modifyEntry e f).modifyCreation h (Creation.ended outcome)).finish now t a) := by
    intro f outcome a
    refine ⟨?_, ((hx.modifyEntry he).modifyCreation (g := Creation.ended outcome) fun _ => rfl).setStage⟩
    rw [amend_modifyEntry he, amend_modifyCreation (hx.note.ended outcome)]
    exact amend_setStage hx.call
  cases hfailure : c.script.failure with
  | some err =>
    rw [conclude_of_failed found made hfailure, conclude_of_failed found' made' (hscript ▸ hfailure)]
    exact hdone _ _ _
  | none =>
    rw [conclude_of_made found made hfailure, conclude_of_made found' made' (hscript ▸ hfailure)]
    exact hdone _ _ _

/-- What a reset does that holds the lock of an entry. -/
theorem retire (hx : x.Apart now t y script m) (found : m.entries[e]? = some entry)
    (howner : entry.owner = some t) :
    (m.amend x).retire now e = ((m.retire now e).1.amend x, (m.retire now e).2) ∧
      x.Apart now t y script (m.retire now e).1 := by
  have he := hx.spares found howner
  have found' : (m.amend x).entries[e]? = some entry := (amend_entry he).trans found
  have hdelay : ∀ h : Handle, (m.amend x).creations[h]?.map (·.script.closeDelay) =
      m.creations[h]?.map (·.script.closeDelay) := by
    intro h
    rw [amend_creation, Option.map_map]
    congr 1
    funext c
    simp only [Function.comp_apply]
    split
    · rw [hx.note.script]
    · rfl
  rw [retire_eq_match found, retire_eq_match found']
  cases entry.retire.2 with
  | none => exact ⟨Prod.ext (amend_modifyEntry he) rfl, hx.modifyEntry he⟩
  | some h =>
    dsimp only
    refine ⟨Prod.ext ?_ (by rw [hdelay]), (hx.modifyEntry he).modifyCreation fun _ => rfl⟩
    rw [amend_modifyEntry he]
    exact amend_modifyCreation hx.note.asked

/-- The end of a close may be noted before or after the amendment. -/
theorem concludeClose (hx : x.Apart now t y script m) :
    (m.amend x).concludeClose now h = (m.concludeClose now h).amend x ∧
      x.Apart now t y script (m.concludeClose now h) := by
  have hnoted : x.Apart now t y script (m.modifyCreation h (Creation.hasClosed now)) :=
    hx.modifyCreation fun _ => rfl
  refine ⟨?_, hnoted.call, hnoted.note, hnoted.entry, hnoted.proxy⟩
  have hcreation : (m.amend x).modifyCreation h (Creation.hasClosed now) =
      (m.modifyCreation h (Creation.hasClosed now)).amend x := amend_modifyCreation hx.note.closed
  have hreported : (m.amend x).failuresOf h = m.failuresOf h := by
    unfold failuresOf
    rw [amend_creation]
    cases m.creations[h]? with
    | none => rfl
    | some c =>
      simp only [Option.map_some]
      split
      · rw [hx.note.script, hx.note.peer]
        rfl
      · rfl
  show { (m.amend x).modifyCreation h (Creation.hasClosed now) with
    log := m.log ++ (m.amend x).failuresOf h } = _
  rw [hreported, hcreation]
  rfl

/-- A retirement may have its turn before or after. -/
theorem turnRetirement (hx : x.Apart now t y script m) (job : Retirement) :
    (m.amend x).turnRetirement now t job =
        ((m.turnRetirement now t job).1.amend x, (m.turnRetirement now t job).2) ∧
      x.Apart now t y script (m.turnRetirement now t job).1 := by
  cases job with
  | locking e =>
    simp only [ProxyMap.turnRetirement, hx.owns]
    split
    · next howns =>
      cases found : m.entries[e]? with
      | none => simp [ProxyMap.owns, found] at howns
      | some entry => exact hx.retire found (by simpa [ProxyMap.owns, found] using howns)
    · exact ⟨rfl, hx⟩
  | closing e h wake =>
    simp only [ProxyMap.turnRetirement]
    split
    · exact ⟨Prod.ext hx.concludeClose.1 rfl, hx.concludeClose.2⟩
    · exact ⟨rfl, hx⟩
  | finished e => exact ⟨rfl, hx⟩

/-- So may several. -/
theorem turnRetirements (hx : x.Apart now t y script m) (jobs : List Retirement) :
    (m.amend x).turnRetirements now t jobs =
        ((m.turnRetirements now t jobs).1.amend x, (m.turnRetirements now t jobs).2) ∧
      x.Apart now t y script (m.turnRetirements now t jobs).1 := by
  induction jobs generalizing m with
  | nil => exact ⟨rfl, hx⟩
  | cons job jobs ih =>
    obtain ⟨hfirst, hx'⟩ := hx.turnRetirement job
    obtain ⟨hrest, hx''⟩ := ih hx'
    refine ⟨?_, hx''⟩
    simp only [ProxyMap.turnRetirements, hfirst, hrest]

/-- A call may go on retiring before or after. -/
theorem continueRetiring (hx : x.Apart now t y script m) :
    (m.amend x).continueRetiring now t jobs a = (m.continueRetiring now t jobs a).amend x ∧
      x.Apart now t y script (m.continueRetiring now t jobs a) := by
  obtain ⟨hturned, hx'⟩ := hx.turnRetirements jobs
  unfold ProxyMap.continueRetiring
  simp only [hturned]
  split
  · exact ⟨amend_setStage hx.call, hx'.setStage⟩
  · exact ⟨amend_setStage hx.call, hx'.setStage⟩

/-- The turn of a call does the same after the change as before. -/
theorem turn (hx : x.Apart now t y script m) (hfactory : Factory.AgreeOn k factory factory)
    (hpeers : ∀ (e : EntryId) (entry : ProxyEntry), m.entries[e]? = some entry → entry.peer.id = k)
    (hcreating : ∀ e h wake, m.stage? t = some (.creating e h wake) →
      (∃ entry, m.entries[e]? = some entry ∧ entry.owner = some t) ∧ ∃ c, m.creations[h]? = some c) :
    (m.amend x).turn now factory t = (m.turn now factory t).amend x ∧
      x.Apart now t y script (m.turn now factory t) := by
  unfold ProxyMap.turn
  rw [amend_stage? hx.call]
  cases hstage : m.stage? t with
  | none => exact ⟨rfl, hx⟩
  | some s =>
    cases s with
    | locking e =>
      simp only [hx.owns]
      split
      · next howns =>
        cases found : m.entries[e]? with
        | none => simp [ProxyMap.owns, found] at howns
        | some entry =>
          exact hx.create hfactory found (by simpa [ProxyMap.owns, found] using howns) (hpeers e entry found)
      · exact ⟨rfl, hx⟩
    | creating e h wake =>
      dsimp only
      split
      · obtain ⟨⟨entry, found, howner⟩, c, made⟩ := hcreating e h wake hstage
        exact hx.conclude found howner made
      · exact ⟨rfl, hx⟩
    | retiring jobs a => exact hx.continueRetiring
    | finished | cancelled => exact ⟨rfl, hx⟩

/-- A call can go on exactly if it can without the amendment. -/
theorem isReady (hx : x.Apart now t y script m) (later : Nat) :
    (m.amend x).isReady later t = m.isReady later t := by
  have hjob : ∀ job, (m.amend x).retirementReady later t job = m.retirementReady later t job := by
    intro job
    cases job with
    | locking e => exact hx.owns
    | closing | finished => rfl
  unfold ProxyMap.isReady
  rw [amend_stage? hx.call]
  simp only [hx.owns, funext hjob]

end Amendment.Apart

end Replica
