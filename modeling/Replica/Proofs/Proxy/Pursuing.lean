import Replica.Proofs.Proxy.Ownership
import Replica.Proofs.Proxy.Serving

/-!
# Calls that have ended have closed what they went for

A reset or a close that has gone for an entry pursues it until the entry is closed, unless it is cancelled
(`PursuedBy`). A call that was cancelled never ends, so a call that has ended has closed whatever it went
for, whichever other calls were cancelled.

Every entry that was replaced is pursued by the reset that has replaced it (`Succeeded`). So once the close
that shuts a map has ended, and with it all resets from before, every proxy was asked to close
(`closeCalls_of_close_ended`).
-/

namespace Replica.ProxyMap

variable {may : Loss → Prop} {t u : TaskId} {m m' : ProxyMap} {e x : EntryId} {h : Handle}
variable {now : Nat} {factory : Factory} {event : Event}

/-! ## Pursuit -/

/-- The entry is closed, or the call is going to retire it, or the call was cancelled. -/
def PursuedBy (t : TaskId) (e : EntryId) (m : ProxyMap) : Prop :=
  m.RetiredBy t e ∨ m.stage? t = some .cancelled

theorem Advance.stage?_of_over {s : ProxyStage} (h : Advance may t m m') (hs : m.stage? u = some s)
    (hover : s = .cancelled ∨ ∃ now a, s = .finished now a) : m'.stage? u = some s := by
  rcases eq_or_ne u t with rfl | hne
  · cases h with
    | start stage | answer stage | succeed stage | fail stage | retire stage | closed stage | finish stage
    | abandon _ stage =>
      cases hs.symm.trans stage
      rcases hover with heq | ⟨now, a, heq⟩ <;> cases heq
    | leave _ stage looking =>
      cases hs.symm.trans stage
      rcases hover with rfl | ⟨now, a, rfl⟩ <;> rcases looking with heq | ⟨h, wake, heq⟩ <;> cases heq
  · exact (h.stage?_of_ne hne).trans hs

/-- A call that has ended or was cancelled stays so. -/
theorem Move.stage?_of_over {s : ProxyStage} (h : Move may t m m') (hs : m.stage? u = some s)
    (hover : s = .cancelled ∨ ∃ now a, s = .finished now a) : m'.stage? u = some s := by
  rcases eq_or_ne u t with rfl | hne
  · cases h with
    | advance h => exact h.stage?_of_over hs hover
    | enrol | shut => exact hs
    | call call new =>
      rw [new, stage?_length] at hs
      cases hs
    | join task | await task | renew task =>
      cases hs.symm.trans (stage?_eq_some_iff.mpr ⟨_, task⟩)
      rcases hover with heq | ⟨now, a, heq⟩ <;> cases heq
  · exact (h.stage?_of_ne hne).trans hs

/-- What a call was answered with does not change. -/
theorem ended?_run {time : Nat} {a : ProxyAnswer} (hm : m.Consistent) (hended : m.ended? t = some (time, a))
    (events : List Event) : (m.run events).ended? t = some (time, a) := by
  rw [ended?_eq_some_iff] at hended ⊢
  exact hm.run_induct (P := fun m => m.stage? t = some (.finished time a))
    (fun hm hmoves hs => hmoves.induct
      (fun _ _ _ hmove hs => hmove.stage?_of_over hs (.inr ⟨time, a, rfl⟩)) hm hs) hended

theorem Move.pursuedBy (h : Move (· = .lookUp) u m m') (hm : m.Consistent) (hp : m.PursuedBy t e) :
    m'.PursuedBy t e :=
  hp.imp (h.retiredBy hm) fun hs => h.stage?_of_over hs (.inl rfl)

/-- The call that is cancelled gives everything up, and the others go on with what they pursue. -/
theorem PursuedBy.cancel (hm : m.Consistent) (hp : m.PursuedBy t e) (u : TaskId) :
    (m.cancel u).1.PursuedBy t e := by
  have hadvances : Advances (fun _ => True) u m (m.cancel u).1 :=
    cancel_advances hm (fun _ _ => trivial) fun _ _ => trivial
  rcases hp with (hclosed | ⟨jobs, a, hs, hmem⟩) | hs
  · exact .inl (.inl (hclosed.grows (hadvances.moves.grows hm)))
  · rcases eq_or_ne t u with rfl | hne
    · refine .inr ?_
      rw [ProxyMap.cancel, hs]
      exact stage?_setStage_self (stage?_foldl_abandon.trans hs)
    · exact .inl (.inr ⟨jobs, a, (hadvances.moves.stage?_of_ne hm hne).trans hs, hmem⟩)
  · exact .inr (hadvances.moves.induct (fun _ _ _ hmove hs => hmove.stage?_of_over hs (.inl rfl)) hm hs)

/-- An event gives nothing up unless it cancels a call. -/
theorem step_moves_of_not_cancel (hm : m.Consistent) (hevent : ∀ u, event ≠ .cancel u) :
    Moves (· = .lookUp) (event.actor m) m (m.step event) :=
  step_moves _ hm event fun loss hloss => (not_loses hevent loss hloss).elim

theorem PursuedBy.step (hm : m.Consistent) (hp : m.PursuedBy t e) (event : Event) :
    (m.step event).PursuedBy t e := by
  by_cases hcancel : ∃ u, event = .cancel u
  · obtain ⟨u, rfl⟩ := hcancel
    exact hp.cancel hm u
  · have hmoves := step_moves_of_not_cancel hm fun u heq => hcancel ⟨u, heq⟩
    exact hmoves.induct (fun _ _ hm hmove hp => hmove.pursuedBy hm hp) hm hp

theorem PursuedBy.run (hm : m.Consistent) (hp : m.PursuedBy t e) (events : List Event) :
    (m.run events).PursuedBy t e := by
  induction events generalizing m with
  | nil => exact hp
  | cons event events ih => exact ih (hm.step event) (hp.step hm event)

theorem PursuedBy.isClosed (hp : m.PursuedBy t e) (hended : (m.ended? t).isSome) : m.IsClosed e := by
  rcases hp with hr | hs
  · exact hr.isClosed hended
  · simp [ended?, hs] at hended

/-! ## Entries that were replaced -/

/-- Every entry is registered, or a reset of its peer pursues it. -/
def Succeeded (m : ProxyMap) : Prop :=
  ∀ e entry, m.entries[e]? = some entry → m.registry.get? entry.peer.id = some e ∨
    ∃ t call s, m.tasks[t]? = some ⟨call, s⟩ ∧ call.Resets entry.peer.id ∧ m.PursuedBy t e

theorem Succeeded.empty (name : String) : Succeeded { name := name } := by
  intro e entry found
  cases found

theorem Move.succeeded (h : Move (· = .lookUp) t m m') (hm : m.Consistent) (hs : m.Succeeded) :
    m'.Succeeded := by
  have hgrows := h.grows hm
  intro x entry' found'
  rcases h.old_or_registered found' with ⟨entry, found⟩ | hregistered
  · obtain ⟨entry'', found'', hpeer, -⟩ := hgrows.entries x entry found
    cases found'.symm.trans found''
    rw [hpeer]
    rcases hs x entry found with hregistered | ⟨u, call, s, htask, hresets, hp⟩
    · rcases h.registered_or_owed hm hregistered with hkept | ⟨u, call, s, htask, hresets, hr⟩
      · exact .inl hkept
      · exact .inr ⟨u, call, s, htask, hresets, .inl (.inr hr)⟩
    · obtain ⟨s', htask'⟩ := hgrows.tasks u call s htask
      exact .inr ⟨u, call, s', htask', hresets, h.pursuedBy hm hp⟩
  · exact .inl hregistered

theorem Advances.old (h : Advances may t m m') {entry' : ProxyEntry} (found' : m'.entries[x]? = some entry') :
    ∃ entry, m.entries[x]? = some entry := by
  induction h generalizing entry' with
  | refl => exact ⟨entry', found'⟩
  | tail _ hlast ih =>
    obtain ⟨entry, found⟩ := hlast.old found'
    exact ih found

theorem Advances.registry_eq (h : Advances may t m m') : m'.registry = m.registry := by
  induction h with
  | refl => rfl
  | tail _ hlast ih => exact hlast.registry_eq.trans ih

theorem Succeeded.step (hm : m.Consistent) (hs : m.Succeeded) (event : Event) : (m.step event).Succeeded := by
  by_cases hcancel : ∃ u, event = .cancel u
  · obtain ⟨u, rfl⟩ := hcancel
    have hadvances : Advances (fun _ => True) u m (m.cancel u).1 :=
      cancel_advances hm (fun _ _ => trivial) fun _ _ => trivial
    have hgrows := hadvances.moves.grows hm
    intro x entry' found'
    obtain ⟨entry, found⟩ := hadvances.old found'
    obtain ⟨entry'', found'', hpeer, -⟩ := hgrows.entries x entry found
    cases found'.symm.trans found''
    rw [hpeer]
    rcases hs x entry found with hregistered | ⟨v, call, s, htask, hresets, hp⟩
    · exact .inl (hadvances.registry_eq ▸ hregistered)
    · obtain ⟨s', htask'⟩ := hgrows.tasks v call s htask
      exact .inr ⟨v, call, s', htask', hresets, hp.cancel hm u⟩
  · have hmoves := step_moves_of_not_cancel hm fun u heq => hcancel ⟨u, heq⟩
    exact hmoves.induct (fun _ _ hm hmove hs => hmove.succeeded hm hs) hm hs

theorem Succeeded.reached (name : String) (events : List Event) : (reached name events).Succeeded := by
  induction events using List.reverseRecOn with
  | nil => exact .empty name
  | append_singleton events event ih =>
    rw [reached_concat]
    exact ih.step (Consistent.reached name events) event

/-! ## After a close -/

/-- A close that finds the map open goes for every registered entry. -/
theorem begin_close_retiredBy {id : PeerId} (hm : m.Consistent) (hopen : m.closed = false)
    (hget : m.registry.get? id = some e) :
    (m.begin now factory .close).RetiredBy m.tasks.length e := by
  obtain ⟨mid, hmid, hretires, hrest⟩ := begin_close_moves (· = .lookUp) now factory hm hopen
  have hbar := (bar_moves (· = .lookUp) m).consistent hm
  exact hrest.moves.retiredBy (hmid.consistent hbar) (.inr (hretires id e hget))

/-- Nobody ever looks at an entry that is not there when the map is closed. -/
theorem begin_close_untouched (hm : m.Consistent) (hopen : m.closed = false)
    (hnone : m.entries[e]? = none) (events : List Event) :
    ((m.begin now factory .close).run events).Untouched e := by
  obtain ⟨mid, hmid, -, hrest⟩ := begin_close_moves (fun _ => True) now factory hm hopen
  have hcall : Move (fun _ => True) m.tasks.length m (m.enter .close) := .call .close rfl
  have hshut : Move (fun _ => True) m.tasks.length (m.enter .close) m.bar := .shut
  have hbar := hshut.consistent (hcall.consistent hm)
  have habsent : m.closed = false → ∀ id, m.registry.get? id ≠ some e := by
    intro _ id hget
    obtain ⟨entry, found, -⟩ := hm.registered id e hget
    cases hnone.symm.trans found
  have hbarred : m.bar.Untouched e :=
    hshut.untouched habsent (hcall.untouched habsent (hm.untouched hnone))
  have hafter : Moves (fun _ => True) m.tasks.length m.bar (m.begin now factory .close) :=
    hmid.trans hrest.moves
  have hrun : ((m.begin now factory .close).run events).closed = true ∧
      ((m.begin now factory .close).run events).Untouched e :=
    (hm.step (.begin now factory .close)).run_induct (P := fun m => m.closed = true ∧ m.Untouched e)
    (fun hm hmoves hP => ⟨(hmoves.grows hm).closed hP.1, hmoves.untouched hm hP.1 hP.2⟩)
    ⟨(hafter.grows hbar).closed rfl, hafter.untouched hbar rfl hbarred⟩
  exact hrun.2

/-- A proxy that was made for a closed entry was asked to close. -/
theorem IsClosed.closeCalls_ne_nil (hx : m.IsClosed e) (hm : m.Consistent) {c : Creation}
    (hc : m.creations[h]? = some c) (hce : c.entry = e) (houtcome : c.outcome = some .created) :
    c.closeCalls ≠ [] := by
  obtain ⟨entry, found, hstate⟩ := hx
  have hfits := hm.fits e entry found
  rcases hfits.created h c (around_made_eq_some_iff.mpr ⟨hc, hce⟩) houtcome with ⟨hslot, -⟩ | ⟨-, hcalls⟩
  · rw [hfits.slot_of_closed hstate] at hslot
    cases hslot
  · exact hcalls

/-- After the close that shuts the map has ended, and all resets from before it, every proxy that was made
was asked to close, whatever was cancelled. -/
theorem closeCalls_of_close_ended {name : String} {before after : List Event}
    (hopen : (reached name before).closed = false)
    (hended : ((reached name (before ++ .begin now factory .close :: after)).ended?
      (reached name before).tasks.length).isSome)
    (hresets : ∀ u call s id, (reached name before).tasks[u]? = some ⟨call, s⟩ → call.Resets id →
      ((reached name (before ++ .begin now factory .close :: after)).ended? u).isSome)
    (hmade : (reached name (before ++ .begin now factory .close :: after)).Made h) :
    Custody.closed.Holds h (reached name (before ++ .begin now factory .close :: after)) := by
  have hm := Consistent.reached name before
  have hbegun : ((reached name before).begin now factory .close).Consistent :=
    hm.step (.begin now factory .close)
  have hend := Consistent.reached name (before ++ .begin now factory .close :: after)
  have hrun : reached name (before ++ .begin now factory .close :: after) =
      ((reached name before).begin now factory .close).run after := run_append _ _ _
  obtain ⟨c, hc, houtcome⟩ := hmade
  refine ⟨c, hc, ?_⟩
  cases found : (reached name before).entries[c.entry]? with
  | none =>
    have huntouched : (((reached name before).begin now factory .close).run after).Untouched c.entry :=
      begin_close_untouched hm hopen found after
    rw [← hrun] at huntouched
    exact absurd rfl (huntouched.2 h c hc)
  | some entry =>
    have hclosed : (reached name (before ++ .begin now factory .close :: after)).IsClosed c.entry := by
      rw [hrun] at hended hresets ⊢
      rcases Succeeded.reached name before c.entry entry found with hget | ⟨u, call, s, htask, hcall, hp⟩
      · have hr : ((reached name before).begin now factory .close).RetiredBy
            (reached name before).tasks.length c.entry := begin_close_retiredBy hm hopen hget
        exact (PursuedBy.run hbegun (.inl hr) after).isClosed hended
      · exact (hp.run hm (.begin now factory .close :: after)).isClosed (hresets u call s _ htask hcall)
    exact hclosed.closeCalls_ne_nil hend hc rfl houtcome

end Replica.ProxyMap
