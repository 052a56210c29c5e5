import Replica.Proofs.Applied.Reads

/-!
# What becomes of a read

An event changes a read in one of three ways: it releases it, answers it or gives it up
(`Consistent.change`), and otherwise leaves it alone. A read never changes its index or its request,
and what has been answered keeps its answer (`Consistent.answer?_step`).

A read is answered by the event that begins it or by its own turn, and in both cases the cursor has
its index at that time, as long as no update lowers the index of the cursor
(`Consistent.answered_cases`, `Due.step`).
-/

namespace Replica.Reads

variable {ρ α : Type} {answer : Reads ρ α → ρ → α} {rs : Reads ρ α} {event : Event ρ} {t : TaskId}
  {r : Read ρ α} {a : α}

/-! ## One event -/

/-- What an event does to the read `t`. -/
inductive Change (answer : Reads ρ α → ρ → α) (rs : Reads ρ α) (event : Event ρ) (t : TaskId) :
    Read ρ α → Read ρ α → Prop where
  | same (r : Read ρ α) : Change answer rs event t r r
  | released {index : Int64} {request : ρ}
      (reached : index ≤ (step answer rs event).cursor.applied.index) :
      Change answer rs event t ⟨index, request, .waiting⟩ ⟨index, request, .released⟩
  | answered {index : Int64} {request : ρ} (turn : event = .turn t) :
      Change answer rs event t ⟨index, request, .released⟩
        ⟨index, request, .answered (answer rs request)⟩
  | cancelled {r : Read ρ α} (cancel : event = .cancel t) (isOpen : r.stage.isOpen = true) :
      Change answer rs event t r { r with stage := .cancelled }

theorem Change.index_eq {r' : Read ρ α} (h : Change answer rs event t r r') :
    r'.index = r.index := by
  cases h <;> rfl

theorem Change.request_eq {r' : Read ρ α} (h : Change answer rs event t r r') :
    r'.request = r.request := by
  cases h <;> rfl

/-- The change that an update makes to a read, if it makes any. -/
theorem change_release {next : LogPosition} {changed : Bool}
    (hok : (rs.update next).2 = .ok changed) (r : Read ρ α) :
    Change answer rs (.update next) t r (if r.index ≤ next.index then release r else r) := by
  obtain ⟨index, request, stage⟩ := r
  split
  · next hle =>
    cases stage with
    | waiting =>
      refine .released ?_
      show index ≤ (rs.update next).1.cursor.applied.index
      rwa [update_applied_of_ok hok]
    | released => exact .same _
    | answered a => exact .same _
    | cancelled => exact .same _
  · exact .same _

theorem Consistent.change (hc : Consistent rs) (answer : Reads ρ α → ρ → α) (event : Event ρ)
    (hr : rs.reads[t]? = some r) :
    ∃ r', (Reads.step answer rs event).reads[t]? = some r' ∧ Change answer rs event t r r' := by
  cases event with
  | update next =>
    show ∃ r', (rs.update next).1.reads[t]? = some r' ∧ _
    cases hres : (rs.update next).2 with
    | error e =>
      rw [update_eq_of_error hres]
      exact ⟨r, hr, .same r⟩
    | ok changed =>
      rw [hc.reads_update hres, List.getElem?_map, hr]
      exact ⟨_, rfl, change_release hres r⟩
  | begin index request =>
    show ∃ r', (rs.begin (answer rs) index request).reads[t]? = some r' ∧ _
    refine ⟨r, ?_, .same r⟩
    unfold Reads.begin
    split <;> exact getElem?_concat_of_some _ hr
  | turn u =>
    refine ⟨_, getElem?_modify_eq_some_iff.mpr ⟨r, hr, rfl⟩, ?_⟩
    split
    · next heq =>
      obtain ⟨index, request, stage⟩ := r
      cases stage with
      | released => exact .answered (heq ▸ rfl)
      | waiting => exact .same _
      | answered a => exact .same _
      | cancelled => exact .same _
    · exact .same r
  | cancel u =>
    show ∃ r', (rs.cancel u).1.reads[t]? = some r' ∧ _
    unfold Reads.cancel
    split
    · next found hfound =>
      split
      · next hopen =>
        refine ⟨_, getElem?_modify_eq_some_iff.mpr ⟨r, hr, rfl⟩, ?_⟩
        split
        · next heq =>
          subst heq
          cases hr.symm.trans hfound
          exact .cancelled rfl hopen
        · exact .same r
      · exact ⟨r, hr, .same r⟩
    · exact ⟨r, hr, .same r⟩

/-- A new read is made by the event that begins it, and stands at the end. -/
theorem begun_of_new (hc : Consistent rs) (hnew : rs.reads[t]? = none)
    (hr : (step answer rs event).reads[t]? = some r) :
    t = rs.reads.length ∧ ∃ index request, event = .begin index request ∧
      ((index ≤ rs.cursor.applied.index ∧ r = ⟨index, request, .answered (answer rs request)⟩) ∨
        r = ⟨index, request, .waiting⟩) := by
  cases event with
  | update next =>
    change (rs.update next).1.reads[t]? = some r at hr
    cases hres : (rs.update next).2 with
    | error e =>
      rw [update_eq_of_error hres, hnew] at hr
      cases hr
    | ok changed =>
      rw [hc.reads_update hres, List.getElem?_map, hnew] at hr
      cases hr
  | begin index request =>
    change (rs.begin (answer rs) index request).reads[t]? = some r at hr
    unfold Reads.begin at hr
    split at hr
    · next hreached =>
      rcases getElem?_concat_eq_some_iff.mp hr with hr | ⟨rfl, rfl⟩
      · cases hnew.symm.trans hr
      · exact ⟨rfl, index, request, rfl, .inl ⟨of_decide_eq_true hreached, rfl⟩⟩
    · rcases getElem?_concat_eq_some_iff.mp hr with hr | ⟨rfl, rfl⟩
      · cases hnew.symm.trans hr
      · exact ⟨rfl, index, request, rfl, .inr rfl⟩
  | turn u =>
    obtain ⟨r₀, hr₀, -⟩ := getElem?_modify_eq_some_iff.mp hr
    cases hnew.symm.trans hr₀
  | cancel u =>
    change (rs.cancel u).1.reads[t]? = some r at hr
    unfold Reads.cancel at hr
    split at hr
    · split at hr
      · obtain ⟨r₀, hr₀, -⟩ := getElem?_modify_eq_some_iff.mp hr
        cases hnew.symm.trans hr₀
      · cases hnew.symm.trans hr
    · cases hnew.symm.trans hr

/-! ## Answers -/

theorem answer?_eq_some_iff : rs.answer? t = some a ↔
    ∃ r, rs.reads[t]? = some r ∧ r.stage = .answered a := by
  unfold answer?
  split
  · next index request given hr =>
    rw [hr]
    constructor
    · intro heq
      cases heq
      exact ⟨_, rfl, rfl⟩
    · rintro ⟨r, heq, hstage⟩
      cases heq
      cases hstage
      rfl
  · next hnot =>
    refine ⟨nofun, ?_⟩
    rintro ⟨⟨index, request, stage⟩, hr, rfl⟩
    exact absurd hr (hnot index request a)

/-- An answer stays as it is. -/
theorem Consistent.answer?_step (hc : Consistent rs) (answer : Reads ρ α → ρ → α)
    (event : Event ρ) (ha : rs.answer? t = some a) :
    (Reads.step answer rs event).answer? t = some a := by
  obtain ⟨⟨index, request, stage⟩, hr, rfl⟩ := answer?_eq_some_iff.mp ha
  obtain ⟨r', hr', hchange⟩ := hc.change answer event hr
  refine answer?_eq_some_iff.mpr ⟨r', hr', ?_⟩
  cases hchange with
  | same => rfl
  | cancelled _ hopen => cases hopen

/-- The cursor has the index of every read that has been released and waits for its turn. -/
def Due (rs : Reads ρ α) : Prop :=
  ∀ (t : TaskId) (r : Read ρ α), rs.reads[t]? = some r → r.stage = .released → r.index ≤ rs.cursor.applied.index

theorem Due.step (hc : Consistent rs) (h : Due rs)
    (hle : rs.cursor.applied.index ≤ (Reads.step answer rs event).cursor.applied.index) :
    Due (Reads.step answer rs event) := by
  intro t r' hr' hstage
  cases hr : rs.reads[t]? with
  | none =>
    obtain ⟨-, index, request, -, ⟨-, rfl⟩ | rfl⟩ := begun_of_new hc hr hr' <;> cases hstage
  | some r =>
    obtain ⟨r'', hr'', hchange⟩ := hc.change answer event hr
    cases hr'.symm.trans hr''
    cases hchange with
    | same => exact Int64.le_trans (h t r' hr hstage) hle
    | released hreached => exact hreached
    | answered => cases hstage
    | cancelled => cases hstage

/-- A read is answered when it begins or at its turn, from the state at that time, and the cursor
has its index by then. -/
theorem Consistent.answered_cases (hc : Consistent rs) (hdue : Due rs)
    (hbefore : rs.answer? t = none) (hafter : (Reads.step answer rs event).answer? t = some a) :
    ∃ r, (Reads.step answer rs event).reads[t]? = some r ∧ r.index ≤ rs.cursor.applied.index ∧
      a = answer rs r.request ∧
      (event = .turn t ∨ t = rs.reads.length ∧ event = .begin r.index r.request) := by
  obtain ⟨r', hr', hstage⟩ := answer?_eq_some_iff.mp hafter
  refine ⟨r', hr', ?_⟩
  cases hr : rs.reads[t]? with
  | none =>
    obtain ⟨hlen, index, request, hevent, ⟨hle, rfl⟩ | rfl⟩ := begun_of_new hc hr hr'
    · cases hstage
      exact ⟨hle, rfl, .inr ⟨hlen, hevent⟩⟩
    · cases hstage
  | some r =>
    obtain ⟨r'', hr'', hchange⟩ := hc.change answer event hr
    cases hr'.symm.trans hr''
    cases hchange with
    | same =>
      rw [answer?_eq_some_iff.mpr ⟨r', hr, hstage⟩] at hbefore
      cases hbefore
    | released => cases hstage
    | answered hturn =>
      cases hstage
      have hreached := hdue t _ hr rfl
      exact ⟨hreached, rfl, .inl hturn⟩
    | cancelled => cases hstage

end Replica.Reads
