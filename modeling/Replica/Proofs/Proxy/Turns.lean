import Replica.Proofs.Proxy.Moves

/-!
# Turns as moves

What a task does in its turn, and what cancelling it does, comes down to some moves of its call
(`turn_advances`, `cancel_advances`). Retirements take several moves in one turn, one for each entry
that comes on; in between the job list of the task is not what is stored in the map, so the lemmas
on retirements say first what does not depend on the stored stage.
-/

namespace Replica.ProxyMap

variable {may : Loss → Prop} {t u : TaskId} {m m' : ProxyMap} {e : EntryId} {s : ProxyStage}
variable {a : ProxyAnswer} {now : Nat} {factory : Factory}

/-- Some moves of a call that is under way. -/
abbrev Advances (may : Loss → Prop) (t : TaskId) : ProxyMap → ProxyMap → Prop :=
  Relation.ReflTransGen (Advance may t)

/-- Some moves of a call. -/
abbrev Moves (may : Loss → Prop) (t : TaskId) : ProxyMap → ProxyMap → Prop :=
  Relation.ReflTransGen (Move may t)

/-- Advances are moves. -/
theorem Advances.moves (h : Advances may t m m') : Moves may t m m' :=
  Relation.ReflTransGen.mono (fun _ _ => Move.advance) m m' h

/-- What each move keeps, moves keep. -/
theorem Moves.induct {P : ProxyMap → Prop}
    (hmove : ∀ m m', m.Consistent → Move may t m m' → P m → P m') (h : Moves may t m m')
    (hm : m.Consistent) (hP : P m) : P m' := by
  suffices hboth : m'.Consistent ∧ P m' from hboth.2
  induction h with
  | refl => exact ⟨hm, hP⟩
  | tail _ hlast ih => exact ⟨hlast.consistent ih.1, hmove _ _ ih.1 hlast ih.2⟩

/-- Moves keep the map consistent. -/
theorem Moves.consistent (h : Moves may t m m') (hm : m.Consistent) : m'.Consistent :=
  h.induct (fun _ _ hm hmove _ => hmove.consistent hm) hm hm

/-- Entries and creations are never lost in moves. -/
theorem Moves.grows (h : Moves may t m m') (hm : m.Consistent) : Grows m m' :=
  h.induct (P := Grows m) (fun _ _ hm hmove hP => hP.trans (hmove.grows hm)) hm (.refl m)

/-- Moves of one call leave the stages of the others alone. -/
theorem Moves.stage?_of_ne (h : Moves may t m m') (hm : m.Consistent) (hu : u ≠ t) :
    m'.stage? u = m.stage? u :=
  h.induct (P := fun m' => m'.stage? u = m.stage? u)
    (fun _ _ _ hmove hP => (hmove.stage?_of_ne hu).trans hP) hm rfl

/-! ## Look-ups -/

/-- A look-up that holds the lock answers or calls the factory. -/
theorem create_advances (hm : m.Consistent) (hstage : m.stage? t = some (.locking e))
    (howns : m.owns e t = true) : Advances may t m (m.create now factory t e) := by
  unfold create
  split
  · exact .refl
  · next entry found =>
    have howner : entry.owner = some t := by simpa [owns, found] using howns
    have hfits := hm.fits e entry found
    simp only
    split
    · next h hslot =>
      exact .single (.answer hstage found howner fun k hk => by cases hk; exact hslot)
    · next hslot =>
      split
      · exact .single (.answer hstage found howner nofun)
      · next hopen =>
        have hopen : entry.lifecycle.state ≠ .closed := fun hs =>
          hopen (hfits.isClosingOrClosed_iff.mpr hs)
        rw [hfits.prepare_eq_ok hslot hopen]
        simp only
        rw [set_eq_modify (fun y => { y with lifecycle := y.lifecycle.withState .starting }) found]
        exact .single (.start hstage found howner hslot hopen)

/-- A look-up that waits for the factory goes on when the factory is done. -/
theorem conclude_advances {h : Handle} {wake : Nat} (hm : m.Consistent)
    (hstage : m.stage? t = some (.creating e h wake)) :
    Advances may t m (m.conclude now t e h) := by
  unfold conclude
  split
  · next entry c found made =>
    -- the entry is starting while its proxy is made, so the new one can be installed
    obtain ⟨hmaking, -, -⟩ := hm.made_of_creating hstage found made
    obtain ⟨-, hstate, -⟩ := (hm.fits e entry found).making t h hmaking
    split
    · have hset := set_eq_modify (fun y => (y.install h).1.unlock) found
      rw [ProxyEntry.install_eq hstate] at hset ⊢
      simp only at hset ⊢
      rw [hset]
      exact .single (.succeed hstage found made)
    · next err hfailure =>
      rw [set_eq_modify (fun y => y.giveUp.unlock) found]
      exact .single (.fail hstage found made hfailure)
  · exact .refl

/-! ## Retirements -/

/-- Retiring an entry takes it out of service, hands its lock on and asks its proxy to close, if it has
one. -/
theorem retire_eq (now : Nat) (hm : m.Consistent) {entry : ProxyEntry} (found : m.entries[e]? = some entry) :
    ∃ job : Retirement, job.lock? = none ∧ m.retire now e =
      ({ m.modifyEntry e (fun y => y.retire.1.unlock) with
          creations := askToClose now entry.slot m.creations }, job) := by
  have hset := set_eq_modify (fun y : ProxyEntry => y.retire.1.unlock) found
  obtain ⟨-, -, htaken⟩ := (hm.fits e entry found).retire_eq
  unfold retire
  rw [found]
  simp only [hset, htaken]
  cases entry.slot with
  | none => exact ⟨.finished e, rfl, rfl⟩
  | some h => exact ⟨.closing e h _, rfl, rfl⟩

/-- Retiring an entry does not look at the stage of any call. -/
theorem retire_setStage : (m.setStage t s).retire now e =
    ((m.retire now e).1.setStage t s, (m.retire now e).2) := by
  unfold retire
  have hentries : (m.setStage t s).entries = m.entries := rfl
  rw [hentries]
  cases m.entries[e]? with
  | none => rfl
  | some entry =>
    simp only
    cases entry.retire.2 <;> rfl

/-- Retirements do not look at where calls stand. -/
theorem turnRetirement_setStage {job : Retirement} : (m.setStage t s).turnRetirement now u job =
    ((m.turnRetirement now u job).1.setStage t s, (m.turnRetirement now u job).2) := by
  cases job with
  | locking e =>
    simp only [turnRetirement]
    have howns : (m.setStage t s).owns e u = m.owns e u := rfl
    rw [howns, retire_setStage]
    split <;> rfl
  | closing e h wake =>
    simp only [turnRetirement]
    split <;> rfl
  | finished e => rfl

/-- Neither do the turns of retirements. -/
theorem turnRetirements_setStage {jobs : List Retirement} :
    (m.setStage t s).turnRetirements now u jobs =
      ((m.turnRetirements now u jobs).1.setStage t s, (m.turnRetirements now u jobs).2) := by
  induction jobs generalizing m with
  | nil => rfl
  | cons job rest ih => simp only [turnRetirements, turnRetirement_setStage, ih]

/-- A call that goes on retiring forgets the stage that it had. -/
theorem continueRetiring_setStage {jobs : List Retirement} :
    (m.setStage t s).continueRetiring now t jobs a = m.continueRetiring now t jobs a := by
  simp only [continueRetiring, turnRetirements_setStage, finish, setStage_setStage]

/-- Retiring an entry changes nobody's stage. -/
theorem stage?_retire : (m.retire now e).1.stage? u = m.stage? u := by
  unfold retire
  split
  · rfl
  · simp only
    split <;> rfl

/-- A turn of a retirement changes nobody's stage. -/
theorem stage?_turnRetirement {job : Retirement} :
    (m.turnRetirement now t job).1.stage? u = m.stage? u := by
  cases job with
  | locking e =>
    simp only [turnRetirement]
    split
    · exact stage?_retire
    · rfl
  | closing e h wake =>
    simp only [turnRetirement]
    split <;> rfl
  | finished e => rfl

/-- Neither do the turns of several. -/
theorem stage?_turnRetirements {jobs : List Retirement} :
    (m.turnRetirements now t jobs).1.stage? u = m.stage? u := by
  induction jobs generalizing m with
  | nil => rfl
  | cons job rest ih => exact ih.trans stage?_turnRetirement

/-- A turn of one retirement of a call is an advance of the call. -/
theorem turnRetirement_advances {pre post : List Retirement} {job : Retirement}
    (hm : m.Consistent) (hstage : m.stage? t = some (.retiring (pre ++ job :: post) a)) :
    Advances may t m ((m.turnRetirement now t job).1.setStage t
      (.retiring (pre ++ (m.turnRetirement now t job).2 :: post) a)) := by
  cases job with
  | locking e =>
    simp only [turnRetirement]
    split
    · next howns =>
      have hmem : e ∈ (ProxyStage.retiring (pre ++ .locking e :: post) a).locks := by simp
      obtain ⟨entry, found⟩ := hm.exists_entry hstage hmem
      have howner : entry.owner = some t := by simpa [owns, found] using howns
      obtain ⟨job, hdone, heq⟩ := retire_eq now hm found
      rw [heq]
      exact .single (.retire hstage found howner hdone)
    · rw [setStage_self hstage]
  | closing e h wake =>
    simp only [turnRetirement]
    split
    · exact .single (.closed hstage)
    · rw [setStage_self hstage]
  | finished e =>
    simp only [turnRetirement]
    rw [setStage_self hstage]

/-- So are the turns of all its retirements, one after the other. -/
theorem turnRetirements_advances {jobs : List Retirement} :
    ∀ (pre : List Retirement) {m : ProxyMap}, m.Consistent →
      m.stage? t = some (.retiring (pre ++ jobs) a) →
      Advances may t m ((m.turnRetirements now t jobs).1.setStage t
        (.retiring (pre ++ (m.turnRetirements now t jobs).2) a)) := by
  induction jobs with
  | nil =>
    intro pre m hm hstage
    rw [turnRetirements, setStage_self hstage]
  | cons job rest ih =>
    intro pre m hm hstage
    have hfirst : Advances may t m ((m.turnRetirement now t job).1.setStage t
        (.retiring (pre ++ (m.turnRetirement now t job).2 :: rest) a)) :=
      turnRetirement_advances hm hstage
    -- the list is put back after every single turn, which is the same as once at the end
    have hkept : (m.turnRetirement now t job).1.stage? t = _ := stage?_turnRetirement.trans hstage
    rw [List.append_cons] at hfirst
    have hrest := ih _ (hfirst.moves.consistent hm) (stage?_setStage_self hkept)
    have hpath := hfirst.trans hrest
    simp only [turnRetirements_setStage, setStage_setStage, List.append_assoc,
      List.singleton_append] at hpath
    exact hpath

/-- Retirements that are over want no lock. -/
theorem filterMap_lock?_of_all {jobs : List Retirement} (h : jobs.all Retirement.isFinished = true) :
    jobs.filterMap Retirement.lock? = [] :=
  List.filterMap_eq_nil_iff.mpr fun job hjob =>
    Retirement.lock?_of_isFinished (List.all_eq_true.mp h job hjob)

/-- A reset or close goes on with what it retires, and ends when it is done. -/
theorem continueRetiring_advances (may : Loss → Prop) (now : Nat) {jobs : List Retirement} (hm : m.Consistent)
    (hstage : m.stage? t = some (.retiring jobs a)) :
    Advances may t m (m.continueRetiring now t jobs a) := by
  have hpath : Advances may t m ((m.turnRetirements now t jobs).1.setStage t
      (.retiring (m.turnRetirements now t jobs).2 a)) := turnRetirements_advances [] hm hstage
  unfold continueRetiring
  simp only
  split
  · next hall =>
    have hkept : (m.turnRetirements now t jobs).1.stage? t = _ := stage?_turnRetirements.trans hstage
    have hlast := hpath.tail (.finish (stage?_setStage_self hkept) (filterMap_lock?_of_all hall)
      (.inr ⟨now, a, rfl⟩))
    rwa [setStage_setStage] at hlast
  · exact hpath

/-! ## Turns and cancellations -/

/-- Whatever a call does in its turn, it advances. -/
theorem turn_advances (hm : m.Consistent) : Advances may t m (m.turn now factory t) := by
  unfold turn
  split
  · next e hstage =>
    split
    · next howns => exact create_advances hm hstage howns
    · exact .refl
  · next e h wake hstage =>
    split
    · exact conclude_advances hm hstage
    · exact .refl
  · next jobs a hstage => exact continueRetiring_advances _ now hm hstage
  · exact .refl

/-- What is left of a retirement that is given up. -/
def givenUp : Retirement → Retirement
  | .locking e => .finished e
  | job => job

/-- A retirement that was given up wants no lock. -/
theorem lock?_givenUp (job : Retirement) : (givenUp job).lock? = none := by
  cases job <;> rfl

/-- Abandoning a retirement changes nobody's stage. -/
theorem stage?_abandonRetirement {job : Retirement} :
    (abandonRetirement t m job).stage? u = m.stage? u := by
  cases job <;> rfl

/-- Neither does abandoning several. -/
theorem stage?_foldl_abandon {jobs : List Retirement} :
    (jobs.foldl (abandonRetirement t) m).stage? u = m.stage? u := by
  induction jobs generalizing m with
  | nil => rfl
  | cons job rest ih => exact ih.trans stage?_abandonRetirement

/-- Retirements are abandoned in the same way whatever the stage of the call is. -/
theorem foldl_abandon_setStage {jobs : List Retirement} :
    jobs.foldl (abandonRetirement t) (m.setStage t s) =
      (jobs.foldl (abandonRetirement t) m).setStage t s := by
  induction jobs generalizing m with
  | nil => rfl
  | cons job rest ih =>
    have hjob : abandonRetirement t (m.setStage t s) job =
        (abandonRetirement t m job).setStage t s := by
      cases job <;> rfl
    rw [List.foldl_cons, List.foldl_cons, hjob, ih]

/-- Abandoning the retirements of a call is an advance of the call, in which entries may be lost. -/
theorem abandon_advances {jobs : List Retirement} :
    ∀ (pre : List Retirement) {m : ProxyMap}, m.Consistent → (∀ e, .locking e ∈ jobs → may .entry) →
      m.stage? t = some (.retiring (pre ++ jobs) a) →
      Advances may t m ((jobs.foldl (abandonRetirement t) m).setStage t
        (.retiring (pre ++ jobs.map givenUp) a)) := by
  induction jobs with
  | nil =>
    intro pre m hm hloses hstage
    rw [List.map_nil, List.foldl_nil, setStage_self hstage]
  | cons job rest ih =>
    intro pre m hm hloses hstage
    have hfirst : Advances may t m
        ((abandonRetirement t m job).setStage t (.retiring (pre ++ givenUp job :: rest) a)) := by
      cases job with
      | locking e =>
        have hmem : e ∈ (ProxyStage.retiring (pre ++ .locking e :: rest) a).locks := by simp
        obtain ⟨entry, found⟩ := hm.exists_entry hstage hmem
        exact .single (.abandon (hloses e List.mem_cons_self) hstage found)
      | closing | finished =>
        simp only [abandonRetirement, givenUp]
        rw [setStage_self hstage]
    rw [List.append_cons] at hfirst
    have hrest := ih _ (hfirst.moves.consistent hm)
      (fun e he => hloses e (List.mem_cons_of_mem _ he))
      (stage?_setStage_self (stage?_abandonRetirement.trans hstage))
    have hpath := hfirst.trans hrest
    simp only [foldl_abandon_setStage, setStage_setStage, List.append_assoc, List.singleton_append] at hpath
    exact hpath

/-- A cancelled call gives up its places at locks. Nothing is lost if it was not going to retire an
entry. -/
theorem cancel_advances (hm : m.Consistent) (hquits : ∀ e, m.LooksAt t e → may .lookUp)
    (hloses : ∀ e, m.Retires t e → may .entry) :
    Advances may t m (m.cancel t).1 := by
  unfold cancel
  split
  · next e hstage =>
    obtain ⟨entry, found⟩ := hm.exists_entry (e := e) hstage (by simp)
    exact .single (.leave (hquits e (.inl hstage)) hstage (.inl rfl) found)
  · next e h wake hstage =>
    obtain ⟨entry, found⟩ := hm.exists_entry (e := e) hstage (by simp)
    exact .single (.leave (hquits e (.inr ⟨h, wake, hstage⟩)) hstage (.inr ⟨h, wake, rfl⟩) found)
  · next jobs a hstage =>
    have hpath := abandon_advances [] hm
      (fun e he => hloses e ⟨jobs, a, hstage, he⟩) hstage
    have hkept : (jobs.foldl (abandonRetirement t) m).stage? t = _ :=
      stage?_foldl_abandon.trans hstage
    have hfree : (jobs.map givenUp).filterMap Retirement.lock? = [] := by
      simp [List.filterMap_map, lock?_givenUp]
    have hlast := hpath.tail (.finish (stage?_setStage_self hkept) hfree (.inl rfl))
    rwa [setStage_setStage] at hlast
  · exact .refl

end Replica.ProxyMap
