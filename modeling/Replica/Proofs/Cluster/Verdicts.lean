import Replica.Proofs.Cluster.Custody

/-!
# How work ends, and what the worker does then

Each time that work on a request ends there is a verdict: the worker, the request, the ending, and what
is on the worker's desk at that time (`Desk.verdict?`). An ending may be a defect (`Ending.defect?`). A
worker leaves after a defect, and asks for the end of the process if the service is alive (`Verdict.plea?`).
It also leaves after a crash, and asks for nothing. After every other ending it goes on (`Judged`,
`goRound_judged`).
-/

namespace Replica

open Network

/-- The defect that the ending amounts to, if it is one: a broken invariant, an internal error, a panic, or
a reply that does not answer the request. A crash is no defect, since there is no error that anybody is told
of. -/
def Ending.defect? (r : Request) : Ending → Option ServerError
  | .reply answer =>
    if answer.requestor = r.requestor ∧ answer.replier = r.replier then none
    else some (mismatched r answer)
  | .silence => none
  | .failure (.invariantViolation what) => some (.invariantViolation what)
  | .failure (.internal what) => some (.internal what)
  | .failure _ => none
  | .panic message => some (panicError message)
  | .crash => none

/-- Whether the worker leaves after the ending, without a reply to the request. -/
def Ending.spoils (r : Request) : Ending → Bool
  | .crash => true
  | ending => (ending.defect? r).isSome

/-- An ending spoils its request exactly if it is a crash or comes to a defect. -/
theorem Ending.spoils_iff {r : Request} {ending : Ending} :
    ending.spoils r = true ↔ ending = .crash ∨ ∃ e, ending.defect? r = some e := by
  cases ending with
  | crash => simp [spoils]
  | _ => simp [spoils, Option.isSome_iff_exists]

/-- The end of work on a request. -/
structure Verdict (σ : Type) where
  badge : Badge
  request : Request
  ending : Ending
  /-- What was on the worker's desk then. -/
  desk : Desk σ

/-- That a worker asked for the end of the process, and why. -/
structure Plea where
  worker : TaskId
  record : ExitRecord
  cause : ServerError
  deriving DecidableEq

/-- The worker's asking for the end of the process. -/
def Occurrence.plea? : Occurrence → Option Plea
  | .terminated worker record cause => some ⟨worker, record, cause⟩
  | _ => none

/-- All that asked for the end of the process, in order. -/
def Network.pleas (story : List Occurrence) : List Plea := story.filterMap (·.plea?)

/-- The network after some entries were added to its journal. -/
def Network.report (entries : List JournalEntry) (net : Network) : Network :=
  { net with journal := net.journal ++ entries }

namespace Verdict

variable {σ : Type} (service : Service σ)

def defect? (v : Verdict σ) : Option ServerError := v.ending.defect? v.request

def IsAlive (v : Verdict σ) : Prop := service.isAlive v.desk.state = true

instance (v : Verdict σ) : Decidable (v.IsAlive service) := inferInstanceAs (Decidable (_ = true))

/-- The plea of a worker whose service is alive and has a defect. -/
def plea? (v : Verdict σ) : Option Plea :=
  if v.IsAlive service then
    v.defect?.map fun e => ⟨v.badge.task, ⟨1, v.badge.display ++ " is terminating"⟩, e⟩
  else none

/-- Why the worker leaves after the verdict, if it does. -/
def departure? (v : Verdict σ) : Option Departure :=
  if v.ending = .crash then some .crashed
  else v.defect?.map fun e => if v.IsAlive service then .terminated e else .silent e

variable {service} {v : Verdict σ} {e : ServerError}

/-- After a defect the worker departs: it terminates the process if the service is alive, and is silent
otherwise. -/
theorem departure?_of_defect (h : v.defect? = some e) :
    v.departure? service = some (if v.IsAlive service then .terminated e else .silent e) := by
  have hending : v.ending ≠ .crash := by
    intro hcrash
    rw [defect?, hcrash] at h
    cases h
  rw [departure?, if_neg hending, h, Option.map_some]

/-- After a crash the worker is gone, whether the service is alive or not. -/
theorem departure?_of_crash (h : v.ending = .crash) : v.departure? service = some .crashed := if_pos h

/-- After anything else the worker goes on. -/
theorem departure?_eq_none (hending : v.ending ≠ .crash) (hdefect : v.defect? = none) :
    v.departure? service = none := by
  rw [departure?, if_neg hending, hdefect, Option.map_none]

end Verdict

namespace Desk

variable {σ : Type} (service : Service σ) {now : Nat} {badge : Badge} {desk desk' : Desk σ}

/-- The verdict on a request on which the service has just begun to work, if that takes no time. -/
def judge? (now : Nat) (badge : Badge) (r : Request) (desk : Desk σ) : Option (Verdict σ) :=
  if (service.serve r desk.state).2.duration = 0 then
    some ⟨badge, r, (service.serve r desk.state).2.ending, desk.engage service now badge r⟩
  else none

/-- The verdict after a taker has had its turn. -/
def verdictOnTaken? (now : Nat) (badge : Badge) (result : Network × TakeProgress) (desk : Desk σ) :
    Option (Verdict σ) :=
  match result.2 with
  | .ended (.ok r) => (desk.withNetwork result.1).judge? service now badge r
  | _ => none

/-- The verdict on the request on which work ends when the worker goes on. -/
def verdict? (now : Nat) (badge : Badge) (stage : Working) (desk : Desk σ) : Option (Verdict σ) :=
  match stage with
  | .idle =>
    if service.isAlive desk.state then
      desk.verdictOnTaken? service now badge (desk.network.beginTake now badge.task badge.node)
    else none
  | .taking stage =>
    desk.verdictOnTaken? service now badge (desk.network.turnTake now badge.task stage)
  | .handling r ending wake => if wake ≤ now then some ⟨badge, r, ending, desk⟩ else none
  | .replying _ => none

/-- The verdicts of one turn, in which the worker goes round at most `fuel` times more. -/
def verdicts (now : Nat) (badge : Badge) : (fuel : Nat) → Working → Desk σ → List (Verdict σ)
  | fuel, stage, desk =>
    (desk.verdict? service now badge stage).toList ++
      match desk.advance service now badge stage with
      | (desk, .again) =>
        match fuel with
        | 0 => []
        | fuel + 1 => verdicts now badge fuel .idle desk
      | _ => []

end Desk

/-! ## What the verdicts say of a turn -/

/-- The request that the service works on. -/
def Working.atWork : Working → List Request
  | .handling r _ _ => [r]
  | _ => []

/-- The request that the service works on while the worker waits. -/
def Pace.atWork : Pace → List Request
  | .waits stage => stage.atWork
  | _ => []

def Pace.departure? : Pace → Option Departure
  | .leaves why => some why
  | _ => none

/-- Why a worker has left: its service was not alive when it went round, its mailbox was shut down, or
the last verdict is a defect or a crash. Only after a defect, and if the service was alive, it has asked for
the end of the process. -/
def Departure.ExplainedBy {σ : Type} (service : Service σ) (vs : List (Verdict σ)) (final : Desk σ) :
    Departure → Prop
  | .stopped => service.isAlive final.state = false
  | .interrupted e => ∃ node, e = .shutdown node
  | .silent e => ∃ v, vs.getLast? = some v ∧ v.defect? = some e ∧ ¬ v.IsAlive service
  | .terminated e => ∃ v, vs.getLast? = some v ∧ v.defect? = some e ∧ v.IsAlive service
  | .crashed => ∃ v, vs.getLast? = some v ∧ v.ending = .crash

/-- What happens to a worker that leaves after the verdict. -/
structure Verdict.Ends {σ : Type} (v : Verdict σ) (why : Departure) (result : Desk σ × Pace) : Prop where
  departs : result.2.departure? = some why
  /-- Something may be reported, and nobody is sent anything. -/
  hushed : ∃ entries, result.1.network = v.desk.network.report entries

/-- What a worker does that works on `start` at first is as the verdicts say. -/
structure Judged {σ : Type} (service : Service σ) (badge : Badge) (start : List Request) (desk : Desk σ)
    (vs : List (Verdict σ)) (result : Desk σ × Pace) : Prop where
  own : ∀ v ∈ vs, v.badge = badge
  /-- It asks for the end of the process when a verdict says so, and at no other time. -/
  pleas : pleas result.1.network.story = pleas desk.network.story ++ vs.filterMap (·.plea? service)
  exit : result.1.exit = desk.exit.or ((vs.filterMap (·.plea? service)).head?.map (·.record))
  /-- On every request that the service gets there is one verdict, unless it is still at work. -/
  work : ∃ given,
    hands badge.task result.1.network.story = hands badge.task desk.network.story ++ given ∧
      start.map Request.plain ++ given =
        vs.map (·.request.plain) ++ result.2.atWork.map Request.plain
  explained : ∀ why, result.2.departure? = some why → why.ExplainedBy service vs result.1
  /-- A verdict after which it leaves is the last. -/
  ends : ∀ v ∈ vs, ∀ why, v.departure? service = some why → vs.getLast? = some v ∧ v.Ends why result

namespace Network

variable {net net' : Network}

/-- Nobody asks for the end in traffic. -/
theorem WritesTraffic.pleas (h : WritesTraffic net net') : pleas net'.story = pleas net.story := by
  obtain ⟨written, hstory, hwritten⟩ := h
  have hnone : written.filterMap (·.plea?) = [] := by
    refine List.filterMap_eq_nil_iff.mpr fun what hmem => ?_
    cases hwritten what hmem <;> rfl
  rw [hstory, Network.pleas, List.filterMap_append, hnone, List.append_nil, Network.pleas]

/-- Nothing is given to a server in traffic. -/
theorem WritesTraffic.hands (h : WritesTraffic net net') (t : TaskId) :
    hands t net'.story = hands t net.story := by
  obtain ⟨written, hstory, hwritten⟩ := h
  have hnone : written.filterMap (·.handed? t) = [] := by
    refine List.filterMap_eq_nil_iff.mpr fun what hmem => ?_
    cases hwritten what hmem <;> rfl
  rw [hstory, hands_append, Network.hands, Network.hands, hnone, List.map_nil, List.append_nil]

theorem report_nil (net : Network) : net.report [] = net := by
  rw [report, List.append_nil]

/-- A report writes traffic if its entries are traffic. -/
theorem writesTraffic_report {entries : List JournalEntry} (h : ∀ entry ∈ entries, entry.what.IsTraffic)
    (net : Network) : WritesTraffic net (net.report entries) := by
  have hstory : (net.report entries).story = net.story ++ entries.map (·.what) := List.map_append
  exact ⟨_, hstory, List.forall_mem_map.mpr h⟩

end Network

namespace Desk

variable {σ : Type} (service : Service σ) {now : Nat} {badge : Badge} {desk desk' : Desk σ}
variable {net net' : Network}

/-! ## Work ends -/

/-- A failure is a defect exactly if it is fatal. -/
theorem defect?_failure (r : Request) (e : ServerError) :
    (Ending.failure e).defect? r = if e.isFatal then some e else none := by
  cases e <;> rfl

/-- So it spoils its request exactly then. -/
theorem spoils_failure (r : Request) (e : ServerError) : (Ending.failure e).spoils r = e.isFatal := by
  cases e <;> rfl

/-- No defect means that a mailbox is shut down. -/
theorem isShutdown_of_defect {r : Request} {ending : Ending} {e : ServerError}
    (h : ending.defect? r = some e) : e.isShutdown = false := by
  cases ending with
  | reply answer =>
    rw [Ending.defect?] at h
    split at h
    · cases h
    · cases h
      rfl
  | silence => cases h
  | failure cause =>
    rw [defect?_failure] at h
    split at h
    · next hfatal =>
      cases h
      cases e with
      | core e => cases hfatal
      | shutdown node => cases hfatal
      | _ => rfl
    · cases h
  | panic message =>
    cases h
    cases message <;> rfl
  | crash => cases h

/-- The worker goes on: it has sent something, or will, and does not leave. -/
structure GoesOn (desk : Desk σ) (result : Desk σ × Pace) : Prop where
  writesTraffic : WritesTraffic desk.network result.1.network
  exit : result.1.exit = desk.exit
  stays : result.2.departure? = none
  rests : result.2.atWork = []

/-- A worker that is back from its reply goes on, unless the reply has failed. -/
theorem afterReply_goesOn {result : Network × ReplyProgress} (h : WritesTraffic desk.network result.1)
    (hsent : ∀ e, result.2 ≠ .ended (.error e)) :
    desk.GoesOn (desk.afterReply service now badge result) := by
  obtain ⟨net, progress⟩ := result
  match progress with
  | .waiting stage => exact ⟨h, rfl, rfl, rfl⟩
  | .ended (.ok ()) => exact ⟨h, rfl, rfl, rfl⟩
  | .ended (.error e) => exact absurd rfl (hsent e)

/-- A reply does not fail by being delayed. -/
theorem delay_ne_error (now : Nat) (r : Request) (outcome : Outcome) (net : Network) (e : ServerError) :
    (beginReply.delay now r outcome net).2 ≠ .ended (.error e) := by
  unfold beginReply.delay
  dsimp only
  split <;> nofun

/-- An outcome that may be sent is sent, now or later. -/
theorem reply_goesOn {r : Request} {outcome : Outcome} (h : answers r outcome = true) :
    desk.GoesOn (desk.afterReply service now badge (desk.network.beginReply now r outcome)) := by
  refine afterReply_goesOn service (beginReply_writesTraffic now r outcome desk.network) fun e => ?_
  rw [beginReply_of_answers h]
  exact delay_ne_error now r outcome desk.network e

/-- A worker goes on after an ending that is neither a crash nor a defect: it replies, or reports the
failure. -/
theorem conclude_goesOn (now : Nat) (badge : Badge) {r : Request} {ending : Ending} (desk : Desk σ)
    (hending : ending ≠ .crash) (h : ending.defect? r = none) :
    desk.GoesOn (desk.conclude service now badge r ending) := by
  cases ending with
  | reply answer =>
    refine reply_goesOn service ?_
    rw [Ending.defect?] at h
    split at h
    · next hanswers => simp [answers, hanswers]
    · cases h
  | silence => exact ⟨.refl _, rfl, rfl, rfl⟩
  | failure e =>
    rw [defect?_failure] at h
    rw [conclude]
    split
    · next hfatal =>
      rw [if_pos hfatal] at h
      cases h
    · exact reply_goesOn service rfl
  | panic message => cases h
  | crash => exact absurd rfl hending

/-- The worker leaves with a defect, which may have been reported. -/
theorem conclude_leaves (now : Nat) (badge : Badge) {r : Request} {ending : Ending} {e : ServerError}
    (desk : Desk σ) (h : ending.defect? r = some e) :
    ∃ entries, (∀ entry ∈ entries, entry.what.IsTraffic) ∧
      desk.conclude service now badge r ending =
        (desk.withNetwork (desk.network.report entries)).leave service now badge e := by
  have hsilent : desk.withNetwork (desk.network.report []) = desk := by
    rw [report_nil]
    rfl
  cases ending with
  | reply answer =>
    rw [Ending.defect?] at h
    split at h
    · cases h
    · next hanswers =>
      cases h
      refine ⟨[⟨now, .raised (mismatched r answer)⟩], List.forall_mem_singleton.mpr (.raised _), ?_⟩
      have hrefused : ¬ answers r (.ok answer) = true := by simpa [answers] using hanswers
      rw [conclude, beginReply, if_neg hrefused]
      rfl
  | silence => cases h
  | failure cause =>
    rw [defect?_failure] at h
    split at h
    · next hfatal =>
      cases h
      exact ⟨[], List.forall_mem_nil _, by rw [hsilent, conclude, if_pos hfatal]⟩
    · cases h
  | panic message =>
    cases h
    exact ⟨[], List.forall_mem_nil _, by rw [hsilent, conclude]⟩
  | crash => cases h

/-- A worker whose service is alive asks for the end of the process; otherwise it leaves silently. -/
theorem leave_of_defect (now : Nat) (badge : Badge) {e : ServerError} (desk : Desk σ)
    (inside : e.isShutdown = false) :
    desk.leave service now badge e =
      if service.isAlive desk.state then (desk.terminate now badge e, .leaves (.terminated e))
      else (desk, .leaves (.silent e)) := by
  rw [leave, if_neg (Bool.eq_false_iff.mp inside)]
  cases service.isAlive desk.state <;> rfl

/-- The worker asks for the end of the process. -/
theorem judged_terminate (now : Nat) (badge : Badge) {r : Request} {ending : Ending} {e : ServerError}
    {desk : Desk σ} {entries : List JournalEntry} (hdefect : ending.defect? r = some e)
    (halive : service.isAlive desk.state = true)
    (htraffic : WritesTraffic desk.network (desk.network.report entries)) :
    Judged service badge [r] desk [⟨badge, r, ending, desk⟩]
      ((desk.withNetwork (desk.network.report entries)).terminate now badge e,
        .leaves (.terminated e)) := by
  let v : Verdict σ := ⟨badge, r, ending, desk⟩
  let plea : Plea := ⟨badge.task, ⟨1, badge.display ++ " is terminating"⟩, e⟩
  have hplea : [v].filterMap (·.plea? service) = [plea] := by
    simp [v, plea, Verdict.plea?, Verdict.defect?, Verdict.IsAlive, hdefect, halive]
  constructor
  · exact List.forall_mem_singleton.mpr rfl
  · show Network.pleas ((desk.network.report entries).note now _).story = _
    rw [story_note, Network.pleas, List.filterMap_append, hplea]
    exact congrArg (· ++ [plea]) htraffic.pleas
  · rw [hplea]
    cases hexit : desk.exit <;> simp [plea, terminate, withNetwork, ExitRecord.keepFirst, hexit]
  · refine ⟨[], ?_, rfl⟩
    show hands badge.task ((desk.network.report entries).note now _).story = _
    rw [story_note, hands_append, htraffic.hands]
    rfl
  · intro why hwhy
    cases hwhy
    exact ⟨v, rfl, hdefect, halive⟩
  · refine List.forall_mem_singleton.mpr fun why hwhy => ⟨rfl, ?_, ?_⟩
    · have hdeparture : v.departure? service = some (.terminated e) :=
        (Verdict.departure?_of_defect (v := v) hdefect).trans (congrArg some (if_pos halive))
      exact hdeparture.symm.trans hwhy
    · exact ⟨_, congrArg (fun journal => { desk.network with journal }) (List.append_assoc _ _ _)⟩

/-- The worker leaves silently. -/
theorem judged_silent {r : Request} {ending : Ending} {e : ServerError} {desk : Desk σ}
    {entries : List JournalEntry} (hdefect : ending.defect? r = some e)
    (hdead : ¬ service.isAlive desk.state = true)
    (htraffic : WritesTraffic desk.network (desk.network.report entries)) :
    Judged service badge [r] desk [⟨badge, r, ending, desk⟩]
      (desk.withNetwork (desk.network.report entries), .leaves (.silent e)) := by
  let v : Verdict σ := ⟨badge, r, ending, desk⟩
  have hplea : [v].filterMap (·.plea? service) = [] := by
    simp [v, Verdict.plea?, Verdict.IsAlive, hdead]
  constructor
  · exact List.forall_mem_singleton.mpr rfl
  · rw [hplea, List.append_nil]
    exact htraffic.pleas
  · rw [hplea]
    exact Option.or_none.symm
  · refine ⟨[], ?_, rfl⟩
    rw [List.append_nil]
    exact htraffic.hands badge.task
  · intro why hwhy
    cases hwhy
    exact ⟨v, rfl, hdefect, hdead⟩
  · refine List.forall_mem_singleton.mpr fun why hwhy => ⟨rfl, ?_, entries, rfl⟩
    have hdeparture : v.departure? service = some (.silent e) :=
      (Verdict.departure?_of_defect (v := v) hdefect).trans (congrArg some (if_neg hdead))
    exact hdeparture.symm.trans hwhy

/-- The worker is gone after a crash, and nobody is told. -/
theorem judged_crash (badge : Badge) (r : Request) (desk : Desk σ) :
    Judged service badge [r] desk [⟨badge, r, .crash, desk⟩] (desk, .leaves .crashed) := by
  let v : Verdict σ := ⟨badge, r, .crash, desk⟩
  have hplea : [v].filterMap (·.plea? service) = [] := by
    simp [v, Verdict.plea?, Verdict.defect?, Ending.defect?]
  constructor
  · exact List.forall_mem_singleton.mpr rfl
  · rw [hplea, List.append_nil]
  · rw [hplea]
    exact Option.or_none.symm
  · exact ⟨[], (List.append_nil _).symm, rfl⟩
  · intro why hwhy
    cases hwhy
    exact ⟨v, rfl, rfl⟩
  · refine List.forall_mem_singleton.mpr fun why hwhy => ⟨rfl, hwhy, [], ?_⟩
    exact (report_nil desk.network).symm

/-- The worker goes on after an ending that is neither a defect nor a crash. -/
theorem judged_goesOn {r : Request} {ending : Ending} {desk : Desk σ} {result : Desk σ × Pace}
    (hending : ending ≠ .crash) (hdefect : ending.defect? r = none) (hgoes : desk.GoesOn result) :
    Judged service badge [r] desk [⟨badge, r, ending, desk⟩] result := by
  let v : Verdict σ := ⟨badge, r, ending, desk⟩
  have hplea : [v].filterMap (·.plea? service) = [] := by
    simp [v, Verdict.plea?, Verdict.defect?, hdefect]
  constructor
  · exact List.forall_mem_singleton.mpr rfl
  · rw [hgoes.writesTraffic.pleas, hplea, List.append_nil]
  · rw [hgoes.exit, hplea]
    exact Option.or_none.symm
  · refine ⟨[], ?_, ?_⟩
    · rw [hgoes.writesTraffic.hands, List.append_nil]
    · rw [hgoes.rests]
      rfl
  · intro why hwhy
    rw [hgoes.stays] at hwhy
    cases hwhy
  · refine List.forall_mem_singleton.mpr fun why hwhy => ?_
    have hdeparture : v.departure? service = none := Verdict.departure?_eq_none hending hdefect
    cases hdeparture.symm.trans hwhy

/-- The end of work on a request is judged by the one verdict on it. -/
theorem conclude_judged (now : Nat) (badge : Badge) (r : Request) (ending : Ending) (desk : Desk σ) :
    Judged service badge [r] desk [⟨badge, r, ending, desk⟩]
      (desk.conclude service now badge r ending) := by
  cases hdefect : ending.defect? r with
  | none =>
    by_cases hending : ending = .crash
    · rw [hending]
      exact judged_crash service badge r desk
    · exact judged_goesOn service hending hdefect (conclude_goesOn service now badge desk hending hdefect)
  | some e =>
    obtain ⟨entries, hentries, hleaves⟩ := conclude_leaves service now badge desk hdefect
    have htraffic := writesTraffic_report hentries desk.network
    rw [hleaves, leave_of_defect service now badge _ (isShutdown_of_defect hdefect)]
    by_cases halive : service.isAlive desk.state = true
    · rw [if_pos (show service.isAlive (desk.withNetwork (desk.network.report entries)).state = true
        from halive)]
      exact judged_terminate service now badge hdefect halive htraffic
    · rw [if_neg (show ¬ service.isAlive (desk.withNetwork (desk.network.report entries)).state = true
        from halive)]
      exact judged_silent service hdefect halive htraffic

end Desk

/-! ## Turns -/

section

open Network

variable {σ : Type} {service : Service σ} {badge : Badge} {desk mid : Desk σ}
variable {result : Desk σ × Pace} {start : List Request} {vs vs' : List (Verdict σ)}
variable {net : Network} {now : Nat} {t : TaskId} {node : PeerId} {e : ServerError}

/-- Calls are made before. -/
theorem Judged.of_writesTraffic (h : WritesTraffic desk.network net)
    (hj : Judged service badge start (desk.withNetwork net) vs result) :
    Judged service badge start desk vs result where
  own := hj.own
  pleas := hj.pleas.trans (congrArg (· ++ _) h.pleas)
  exit := hj.exit
  work := by
    obtain ⟨given, hgiven, hwork⟩ := hj.work
    exact ⟨given, hgiven.trans (congrArg (· ++ _) (h.hands badge.task)), hwork⟩
  explained := hj.explained
  ends := hj.ends

/-- Work on nothing ends, and the worker does not leave. -/
theorem Judged.of_goesOn (h : desk.GoesOn result) : Judged service badge [] desk [] result where
  own := List.forall_mem_nil _
  pleas := by
    rw [h.writesTraffic.pleas]
    exact (List.append_nil _).symm
  exit := h.exit.trans Option.or_none.symm
  work := by
    refine ⟨[], ?_, ?_⟩
    · rw [h.writesTraffic.hands, List.append_nil]
    · rw [h.rests]
      rfl
  explained why hwhy := by
    rw [h.stays] at hwhy
    cases hwhy
  ends := List.forall_mem_nil _

/-- More verdicts before do not change why the worker has departed. -/
theorem Departure.ExplainedBy.append {why : Departure} (h : why.ExplainedBy service vs' desk)
    (vs : List (Verdict σ)) : why.ExplainedBy service (vs ++ vs') desk := by
  have hlast {v : Verdict σ} (hv : vs'.getLast? = some v) : (vs ++ vs').getLast? = some v := by
    rw [List.getLast?_append, hv]
    rfl
  cases why with
  | stopped => exact h
  | interrupted e => exact h
  | silent e =>
    obtain ⟨v, hv, hdefect⟩ := h
    exact ⟨v, hlast hv, hdefect⟩
  | terminated e =>
    obtain ⟨v, hv, hdefect⟩ := h
    exact ⟨v, hlast hv, hdefect⟩
  | crashed =>
    obtain ⟨v, hv, hending⟩ := h
    exact ⟨v, hlast hv, hending⟩

/-- The worker goes round again. -/
theorem Judged.trans (h : Judged service badge start desk vs (mid, .again))
    (h' : Judged service badge [] mid vs' result) :
    Judged service badge start desk (vs ++ vs') result where
  own := List.forall_mem_append.mpr ⟨h.own, h'.own⟩
  pleas := by rw [h'.pleas, h.pleas, List.filterMap_append, List.append_assoc]
  exit := by
    rw [h'.exit, h.exit, List.filterMap_append, List.head?_append, Option.map_or, Option.or_assoc]
  work := by
    obtain ⟨given, hgiven, hwork⟩ := h.work
    obtain ⟨given', hgiven', hwork'⟩ := h'.work
    refine ⟨given ++ given', ?_, ?_⟩
    · rw [hgiven', hgiven, List.append_assoc]
    · have hdone : start.map Request.plain ++ given = vs.map (·.request.plain) :=
        hwork.trans (List.append_nil _)
      have hrest : given' = vs'.map (·.request.plain) ++ result.2.atWork.map Request.plain := hwork'
      rw [← List.append_assoc, hdone, hrest, List.map_append, List.append_assoc]
  explained why hwhy := (h'.explained why hwhy).append vs
  ends v hv why hwhy := by
    rcases List.mem_append.mp hv with hv | hv
    · -- whoever leaves does not go round again
      cases (h.ends v hv why hwhy).2.departs
    · obtain ⟨hlast, hends⟩ := h'.ends v hv why hwhy
      refine ⟨?_, hends⟩
      rw [List.getLast?_append, hlast]
      rfl

/-- The worker stays where it is, or leaves for a reason that is no verdict. -/
theorem Judged.rest (desk : Desk σ) (pace : Pace)
    (h : ∀ why, pace.departure? = some why → why.ExplainedBy service [] desk) :
    Judged service badge pace.atWork desk [] (desk, pace) where
  own := List.forall_mem_nil _
  pleas := (List.append_nil _).symm
  exit := Option.or_none.symm
  work := ⟨[], (List.append_nil _).symm, List.append_nil _⟩
  explained := h
  ends := List.forall_mem_nil _

/-- The service begins to work on a request. -/
theorem Judged.of_engage (now : Nat) (r : Request)
    (h : Judged service badge [r] (desk.engage service now badge r) vs result) :
    Judged service badge [] desk vs result := by
  have hraised (errors : List ServerError) (net : Network) :
      WritesTraffic net (errors.foldl (fun net e => net.note now (.raised e)) net) := by
    induction errors generalizing net with
    | nil => exact .refl net
    | cons e errors ih => exact (WritesTraffic.note net now (.raised e)).trans (ih _)
  have htraffic : WritesTraffic (desk.network.note now (.handled badge.task r))
      (desk.engage service now badge r).network :=
    hraised (service.serve r desk.state).2.raised _
  have hpleas : Network.pleas (desk.network.note now (.handled badge.task r)).story =
      Network.pleas desk.network.story := by
    rw [story_note, Network.pleas, List.filterMap_append]
    exact List.append_nil _
  have hhands : hands badge.task (desk.network.note now (.handled badge.task r)).story =
      hands badge.task desk.network.story ++ [r.plain] := by
    rw [story_note, hands_append]
    simp [hands, Occurrence.handed?]
  refine { h with pleas := ?_, work := ?_ }
  · rw [h.pleas, htraffic.pleas, hpleas]
  · obtain ⟨given, hgiven, hwork⟩ := h.work
    refine ⟨r.plain :: given, ?_, hwork⟩
    rw [hgiven, htraffic.hands, hhands, List.append_assoc]
    rfl

/-- A worker that handles a request is judged by the verdict on it, if there is one at once. -/
theorem handle_judged (now : Nat) (badge : Badge) (r : Request) (desk : Desk σ) :
    Judged service badge [] desk (desk.judge? service now badge r).toList
      (desk.handle service now badge r) := by
  refine .of_engage now r ?_
  unfold Desk.judge? Desk.handle
  dsimp only
  split
  · exact Desk.conclude_judged service now badge r _ (desk.engage service now badge r)
  · exact .rest (desk.engage service now badge r) (.waits (.handling r _ _)) nofun

/-- A taker fails only because its mailbox is shut down. -/
theorem takeFrom_error (now : Nat) (t : TaskId) (box : MailboxId) (hnet : net.Routed)
    (h : (net.takeFrom now t box).2 = .ended (.error e)) : ∃ node, e = .shutdown node := by
  have hglance := takeFrom_glance now t box net
  generalize net.takeFrom now t box = result at hglance h
  cases hglance with
  | nowhere hnone => cases h
  | @shut b found hclosed =>
    cases h
    exact ⟨b.id, rfl⟩
  | waits found hopen hdropped => cases h
  | @takes b dropped rest r found hopen hsplit hdropped hkept =>
    -- the request is addressed to the node of the mailbox
    have haddress : r.replier = b.id :=
      hnet.queued box b found r (hsplit ▸ List.mem_append_right dropped List.mem_cons_self)
    rcases receive_cases now box { b with wakeUp := false, requests := rest } r _ with
      ⟨hne, -⟩ | ⟨-, heq⟩ | ⟨-, wake, heq⟩
    · exact absurd haddress hne
    · rw [heq] at h
      cases h
    · rw [heq] at h
      cases h

/-- A taker for a node fails to begin only if the node is shut down. -/
theorem beginTake_error (now : Nat) (t : TaskId) (node : PeerId) (hnet : net.Routed)
    (h : (net.beginTake now t node).2 = .ended (.error e)) : ∃ node, e = .shutdown node := by
  unfold beginTake at h
  split at h
  · cases h
    exact ⟨node, rfl⟩
  · next box _ =>
    dsimp only at h
    split at h
    · exact takeFrom_error now t box hnet h
    · cases h

/-- It fails later only if the node is shut down. -/
theorem turnTake_error (now : Nat) (t : TaskId) (stage : Taking) (hnet : net.Routed)
    (h : (net.turnTake now t stage).2 = .ended (.error e)) : ∃ node, e = .shutdown node := by
  cases stage with
  | delayed box wake =>
    rw [turnTake] at h
    split at h
    · exact takeFrom_error now t box hnet h
    · cases h
  | looking box =>
    rw [turnTake] at h
    split at h
    · exact takeFrom_error now t box hnet h
    · cases h
  | holding box r wake =>
    rw [turnTake] at h
    split at h <;> cases h

/-- A worker that comes back from its mailbox is judged by what it does with the request, if it has one.
-/
theorem afterTake_judged (now : Nat) (badge : Badge) (desk : Desk σ) {result : Network × TakeProgress}
    (htraffic : WritesTraffic desk.network result.1)
    (herror : ∀ e, result.2 = .ended (.error e) → ∃ node, e = .shutdown node) :
    Judged service badge [] desk (desk.verdictOnTaken? service now badge result).toList
      (desk.afterTake service now badge result) := by
  obtain ⟨net, progress⟩ := result
  refine .of_writesTraffic htraffic ?_
  match progress with
  | .waiting stage => exact .rest (desk.withNetwork net) (.waits (.taking stage)) nofun
  | .ended (.ok r) => exact handle_judged now badge r (desk.withNetwork net)
  | .ended (.error e) =>
    obtain ⟨node, rfl⟩ := herror e rfl
    refine .rest (desk.withNetwork net) (.leaves (.interrupted (.shutdown node))) fun why hwhy => ?_
    cases hwhy
    exact ⟨node, rfl⟩

/-- A reply that goes on does not fail. -/
theorem turnReply_ne_error (now : Nat) (stage : Replying) (net : Network) (e : ServerError) :
    (net.turnReply now stage).2 ≠ .ended (.error e) := by
  unfold turnReply
  split <;> nofun

/-- The worker goes on as the verdict says, if there is one. -/
theorem advance_judged (now : Nat) (badge : Badge) (stage : Working) (desk : Desk σ)
    (hnet : desk.network.Routed) :
    Judged service badge stage.atWork desk (desk.verdict? service now badge stage).toList
      (desk.advance service now badge stage) := by
  cases stage with
  | idle =>
    rw [Desk.verdict?, Desk.advance]
    split
    · exact afterTake_judged now badge desk (beginTake_writesTraffic now badge.task badge.node desk.network)
        fun e => beginTake_error now badge.task badge.node hnet
    · next hdead =>
      refine .rest desk (.leaves .stopped) fun why hwhy => ?_
      cases hwhy
      exact Bool.eq_false_iff.mpr hdead
  | taking stage =>
    exact afterTake_judged now badge desk (turnTake_writesTraffic now badge.task stage desk.network)
      fun e => turnTake_error now badge.task stage hnet
  | handling r ending wake =>
    rw [Desk.verdict?, Desk.advance]
    split
    · exact Desk.conclude_judged service now badge r ending desk
    · exact .rest desk (.waits (.handling r ending wake)) (by rintro _ ⟨⟩)
  | replying stage =>
    exact .of_goesOn (Desk.afterReply_goesOn service (turnReply_writesTraffic now stage desk.network)
      (turnReply_ne_error now stage desk.network))

/-- What a worker does next when its turn has ended so. -/
def Pace.ofProgress : Progress Working Departure → Pace
  | .waiting stage => .waits stage
  | .ended why => .leaves why

/-- All the rounds of a worker in one turn are judged by the verdicts in them. -/
theorem goRound_judged (now : Nat) (badge : Badge) (fuel : Nat) (stage : Working) (desk : Desk σ)
    (hnet : desk.network.Routed) :
    Judged service badge stage.atWork desk (desk.verdicts service now badge fuel stage)
      ((desk.goRound service now badge fuel stage).1,
        .ofProgress (desk.goRound service now badge fuel stage).2) := by
  have hjudged : Judged service badge stage.atWork desk _ _ := advance_judged now badge stage desk hnet
  have hrouted := ((Desk.advance_strides service now badge stage desk).passes service).routed hnet
  fun_induction Desk.goRound service now badge fuel stage desk with
  | case1 fuel stage desk desk' stage' waits =>
    rw [waits] at hjudged
    rw [Desk.verdicts, waits]
    exact (List.append_nil _).symm ▸ hjudged
  | case2 fuel stage desk desk' why leaves =>
    rw [leaves] at hjudged
    rw [Desk.verdicts, leaves]
    exact (List.append_nil _).symm ▸ hjudged
  | case3 stage desk desk' again =>
    rw [again] at hjudged
    rw [Desk.verdicts, again]
    exact hjudged.trans (.rest desk' (.waits .idle) (by rintro _ ⟨⟩))
  | case4 stage desk desk' again fuel ih =>
    rw [again] at hjudged hrouted
    rw [Desk.verdicts, again]
    exact hjudged.trans (ih hrouted (advance_judged now badge .idle desk' hrouted)
      (((Desk.advance_strides service now badge .idle desk').passes service).routed hrouted))

end

end Replica
