import Replica.Proofs.Proxy.InTurn
import Replica.Proofs.Proxy.Settling

/-!
# Look-ups as a plain loop

A plain loop serves callers one by one: it takes the proxy that there is, or tries to make one and hands
on what comes of it (`RetryLoop`). Look-ups at an entry without a proxy are answered as if this loop served
them in the order in which they came, whenever they come and however their turns fall
(`look_ups_are_served_one_by_one`): the failure of a try is reported to the caller whose turn it was, and to
nobody else, and leaves the entry to be tried again.
-/

namespace Replica

/-- What comes of a call of the factory. -/
def Creation.result (h : Handle) (c : Creation) : Except PeerError Handle :=
  c.script.failure.elim (.ok h) .error

/-- A plain loop over callers: how often it has tried, and the proxy, once there is one. -/
structure RetryLoop where
  tried : Nat := 0
  made : Option Handle := none

namespace RetryLoop

/-- Serves one caller. What comes of each try is given. -/
def serve (attempts : Nat → Except PeerError Handle) (l : RetryLoop) :
    RetryLoop × Except PeerError Handle :=
  match l.made with
  | some h => (l, .ok h)
  | none =>
    match attempts l.tried with
    | .ok h => (⟨l.tried + 1, some h⟩, .ok h)
    | .error err => (⟨l.tried + 1, none⟩, .error err)

/-- The loop after a number of callers. -/
def after (attempts : Nat → Except PeerError Handle) : Nat → RetryLoop
  | 0 => {}
  | n + 1 => ((after attempts n).serve attempts).1

/-- What the caller is answered that has a number of others before it. -/
def answer (attempts : Nat → Except PeerError Handle) (n : Nat) : Except PeerError Handle :=
  ((after attempts n).serve attempts).2

variable {attempts : Nat → Except PeerError Handle} {h : Handle} {j k n : Nat}

/-- As long as all tries fail, there is one try for each caller. -/
theorem after_of_failed (hfailed : ∀ i < n, ∃ err, attempts i = .error err) :
    after attempts n = ⟨n, none⟩ := by
  induction n with
  | zero => rfl
  | succ n ih =>
    obtain ⟨err, herr⟩ := hfailed n (Nat.lt_succ_self n)
    rw [after, ih fun i hi => hfailed i (Nat.lt_succ_of_lt hi)]
    simp only [serve, herr]

/-- The caller after those whose tries have failed has what its own try comes to. -/
theorem answer_of_failed (hfailed : ∀ i < n, ∃ err, attempts i = .error err) :
    answer attempts n = attempts n := by
  rw [answer, after_of_failed hfailed]
  dsimp only [serve]
  cases attempts n <;> rfl

/-- The caller after those whose tries have failed tries as well. -/
theorem tried_of_failed (hfailed : ∀ i < n, ∃ err, attempts i = .error err) :
    (after attempts (n + 1)).tried = n + 1 := by
  rw [after, after_of_failed hfailed]
  dsimp only [serve]
  cases attempts n <;> rfl

/-- After a try that succeeds there are no others. -/
theorem after_of_made (hfailed : ∀ i < j, ∃ err, attempts i = .error err) (hmade : attempts j = .ok h)
    (hn : j < n) : after attempts n = ⟨j + 1, some h⟩ := by
  induction n with
  | zero => cases hn
  | succ n ih =>
    rw [after]
    rcases Nat.lt_succ_iff_lt_or_eq.mp hn with hlt | rfl
    · rw [ih hlt]
      rfl
    · rw [after_of_failed hfailed]
      simp only [serve, hmade]

/-- From the try that succeeds on everybody has the proxy that it has made. -/
theorem answer_of_made (hfailed : ∀ i < j, ∃ err, attempts i = .error err) (hmade : attempts j = .ok h)
    (hk : j ≤ k) : answer attempts k = .ok h := by
  rcases Nat.lt_or_eq_of_le hk with hlt | rfl
  · rw [answer, after_of_made hfailed hmade hlt]
    rfl
  · rw [answer_of_failed hfailed, hmade]

/-- More callers never mean fewer tries. -/
theorem tried_mono (hle : k ≤ n) : (after attempts k).tried ≤ (after attempts n).tried := by
  induction hle with
  | refl => exact Nat.le_refl _
  | @step n hle ih =>
    refine Nat.le_trans ih ?_
    rw [after, serve]
    split
    · exact Nat.le_refl _
    · split <;> exact Nat.le_succ _

/-- If the first try that succeeds has the number `j`, the callers before it have the errors of their own
tries, all others have its proxy, and there is no other try. -/
theorem served_of_made (hfailed : ∀ i < j, ∃ err, attempts i = .error err) (hmade : attempts j = .ok h) :
    (∀ i < j, answer attempts i = attempts i) ∧ (∀ i, j ≤ i → answer attempts i = .ok h) ∧
      ∀ n, (after attempts n).tried = min (j + 1) n := by
  refine ⟨fun i hi => ?_, fun i hi => answer_of_made hfailed hmade hi, fun n => ?_⟩
  · exact answer_of_failed fun i' hi' => hfailed i' (Nat.lt_trans hi' hi)
  · rcases Nat.lt_or_ge j n with hlt | hge
    · rw [after_of_made hfailed hmade hlt, Nat.min_eq_left hlt]
    · rw [after_of_failed fun i hi => hfailed i (Nat.lt_of_lt_of_le hi hge),
        Nat.min_eq_right (Nat.le_succ_of_le hge)]

/-- If all tries fail, everybody tries and has the error of the own try. -/
theorem served_of_failed (hfailed : ∀ i < n, ∃ err, attempts i = .error err) :
    (∀ i < n, answer attempts i = attempts i) ∧ (after attempts n).tried = n := by
  refine ⟨fun i hi => answer_of_failed fun i' hi' => hfailed i' (Nat.lt_trans hi' hi), ?_⟩
  rw [after_of_failed hfailed]

/-- What callers have of the loop. -/
structure Serves (attempts : Nat → Except PeerError Handle) : Prop where
  /-- If the first try that succeeds has the number `j`, the callers before it have the errors of their own
  tries, all others have its proxy, and there is no other try. -/
  made : ∀ j h, (∀ i < j, ∃ err, attempts i = .error err) → attempts j = .ok h →
    (∀ i < j, answer attempts i = attempts i) ∧ (∀ i, j ≤ i → answer attempts i = .ok h) ∧
      ∀ n, (after attempts n).tried = min (j + 1) n
  /-- If all tries fail, everybody tries and has the error of the own try. -/
  failed : ∀ n, (∀ i < n, ∃ err, attempts i = .error err) →
    (∀ i < n, answer attempts i = attempts i) ∧ (after attempts n).tried = n

/-- The loop serves its callers like this, whatever comes of the tries. -/
theorem serves (attempts : Nat → Except PeerError Handle) : Serves attempts where
  made _ _ := served_of_made
  failed _ := served_of_failed

end RetryLoop

namespace ProxyMap

variable {t u : TaskId} {m m' : ProxyMap} {e : EntryId} {h k : Handle} {id : PeerId} {entry : ProxyEntry}
variable {first : Handle} {callers : List TaskId} {wake : Nat}
variable {attempts : Nat → Except PeerError Handle}

/-! ## The callers of an entry -/

/-- What came of each try so far is as given. -/
def Yields (first : Handle) (e : EntryId) (attempts : Nat → Except PeerError Handle) (m : ProxyMap) :
    Prop :=
  ∀ k h c, (m.tries first e)[k]? = some h → m.creations[h]? = some c → attempts k = c.result h

/-- What came of a try is read off the creation. -/
theorem Yields.of_attempt (hy : m.Yields first e attempts) {i : Nat}
    (htry : (m.tries first e)[i]? = some h) {failure : Option PeerError}
    {outcome : Option CreationOutcome} (hattempt : m.attempt? e h = some (failure, outcome)) :
    attempts i = failure.elim (.ok h) .error := by
  obtain ⟨c, hc, -, heq⟩ := attempt?_eq_some_iff.mp hattempt
  obtain ⟨rfl, -⟩ := Prod.mk.inj heq
  exact hy i h c htry hc

/-- Each caller that was refused has had the error of its own try. -/
theorem refused_at {past : List TaskId} {done : List Handle}
    (refused : List.Forall₂ (m.Refused e) past done) {i : Nat} (hi : i < past.length) :
    ∃ t h, past[i]? = some t ∧ done[i]? = some h ∧ m.Refused e t h := by
  obtain ⟨hlength, hall⟩ := List.forall₂_iff_get.mp refused
  have hi' : i < done.length := hlength ▸ hi
  exact ⟨_, _, List.getElem?_eq_getElem hi, List.getElem?_eq_getElem hi', hall i hi hi'⟩

/-- The tries of the callers that were refused have failed. -/
theorem Yields.of_refused (hy : m.Yields first e attempts) {past : List TaskId} {done more : List Handle}
    (tries : m.tries first e = done ++ more) (refused : List.Forall₂ (m.Refused e) past done) {i : Nat}
    (hi : i < past.length) : ∃ err, attempts i = .error err ∧
      ∀ t, past[i]? = some t → ∃ time, m.stage? t = some (.finished time (.proxy (.error err))) := by
  obtain ⟨t, h, ht, hh, err, time, hattempt, hs⟩ := refused_at refused hi
  have htry : (m.tries first e)[i]? = some h := by
    rw [tries, List.getElem?_append_left (lt_length_of_getElem? hh), hh]
  refine ⟨err, hy.of_attempt htry hattempt, fun t' ht' => ?_⟩
  cases ht.symm.trans ht'
  exact ⟨time, hs⟩

/-- All tries of callers that were refused have failed. -/
theorem Yields.error_of_refused (hy : m.Yields first e attempts) {past : List TaskId}
    {done more : List Handle} (tries : m.tries first e = done ++ more)
    (refused : List.Forall₂ (m.Refused e) past done) : ∀ i < past.length, ∃ err, attempts i = .error err :=
  fun _ hi => (hy.of_refused tries refused hi).imp fun _ => And.left

/-- The try after those of the callers that were refused has made the proxy. -/
theorem Yields.ok_of_made (hy : m.Yields first e attempts) {past : List TaskId} {done : List Handle}
    (tries : m.tries first e = done ++ [h]) (refused : List.Forall₂ (m.Refused e) past done)
    (attempt : m.attempt? e h = some (none, some .created)) : attempts past.length = .ok h := by
  refine hy.of_attempt ?_ attempt
  rw [tries, refused.length_eq, List.getElem?_concat_length]

/-- How the callers of an entry are served. They are numbered in the order in which they came, and so are
the tries. -/
structure OneByOne (first : Handle) (e : EntryId) (callers : List TaskId)
    (attempts : Nat → Except PeerError Handle) (m : ProxyMap) : Prop where
  /-- Whoever has been answered has the answer of the plain loop. -/
  answered : ∀ k t time a, callers[k]? = some t → m.ended? t = some (time, a) →
    a = .proxy (RetryLoop.answer attempts k)
  standing : ∀ t ∈ callers, m.LooksAt t e ∨ ∃ time a, m.ended? t = some (time, a)
  tried_le : (m.tries first e).length ≤ (RetryLoop.after attempts callers.length).tried
  /-- Once everybody has been answered, there were as many tries as in the plain loop. -/
  tried : (∀ t ∈ callers, (m.ended? t).isSome) →
    (m.tries first e).length = (RetryLoop.after attempts callers.length).tried
  /-- A try begins after the ones before it have failed. -/
  successive : ∀ k h, (m.tries first e)[k]? = some h → k + 1 < (m.tries first e).length →
    ∃ c, m.creations[h]? = some c ∧ c.outcome = some .failed
  /-- After tries that have all failed the entry is new, and nothing is left of them in it once everybody
  has been answered. -/
  renewed : m.tries first e ≠ [] →
    (∀ h ∈ m.tries first e, ∃ c, m.creations[h]? = some c ∧ c.outcome = some .failed) →
    ∃ entry, m.entries[e]? = some entry ∧ entry.lifecycle.state = .new ∧ entry.slot = none ∧
      ((∀ t ∈ callers, (m.ended? t).isSome) → entry = .fresh entry.peer)
  /-- When nobody can go on, everybody has been answered, or one of the callers waits for the factory. -/
  onward : ∀ now, (∀ t, m.isReady now t = false) → (∀ t ∈ callers, (m.ended? t).isSome) ∨
    ∃ t ∈ callers, ∃ h wake, m.stage? t = some (.creating e h wake) ∧ now < wake

/-- Whoever looks at the entry has not been answered. -/
theorem LooksAt.ended?_eq_none (hl : m.LooksAt t e) : m.ended? t = none := by
  rcases hl with hs | ⟨h, wake, hs⟩ <;> simp [ended?, hs]

/-- Of callers that have all been answered, none is on its way to the proxy. -/
theorem eq_nil_of_ended {waiting : List TaskId} (hlooks : ∀ t ∈ waiting, m.LooksAt t e)
    (hall : ∀ t ∈ waiting, (m.ended? t).isSome) : waiting = [] := by
  refine List.eq_nil_iff_forall_not_mem.mpr fun t ht => ?_
  have hended := hall t ht
  rw [(hlooks t ht).ended?_eq_none] at hended
  cases hended

/-- The call at a place among the callers: one that was refused, or one of the others. -/
theorem getElem?_callers {past others : List TaskId} {i : Nat} (ht : (past ++ others)[i]? = some t) :
    (i < past.length ∧ past[i]? = some t) ∨
      (past.length ≤ i ∧ others[i - past.length]? = some t) := by
  rcases Nat.lt_or_ge i past.length with hlt | hge
  · exact .inl ⟨hlt, by rwa [List.getElem?_append_left hlt] at ht⟩
  · exact .inr ⟨hge, by rwa [List.getElem?_append_right hge] at ht⟩

/-- Callers who take turns are answered as the plain loop answers them. -/
theorem InTurn.answered (hin : m.InTurn first e callers) (hy : m.Yields first e attempts) {i time : Nat}
    {a : ProxyAnswer} (ht : callers[i]? = some t) (hended : m.ended? t = some (time, a)) :
    a = .proxy (RetryLoop.answer attempts i) := by
  have hs := ended?_eq_some_iff.mp hended
  have hlooks : ¬ m.LooksAt t e := fun hl => by cases hl.ended?_eq_none.symm.trans hended
  have hpast : ∀ {past done more}, m.tries first e = done ++ more →
      List.Forall₂ (m.Refused e) past done → i < past.length → past[i]? = some t →
      a = .proxy (RetryLoop.answer attempts i) := by
    intro past done more tries refused hlt ht
    obtain ⟨err, herr, hanswer⟩ := hy.of_refused tries refused hlt
    obtain ⟨time', hs'⟩ := hanswer t ht
    cases hs.symm.trans hs'
    rw [RetryLoop.answer_of_failed fun i' hi' =>
      hy.error_of_refused tries refused i' (Nat.lt_trans hi' hlt), herr]
  cases hin with
  | idle found empty split tries refused queue locking renewed =>
    rcases getElem?_callers (split ▸ ht) with ⟨hlt, ht⟩ | ⟨-, ht⟩
    · exact hpast (tries.trans (List.append_nil _).symm) refused hlt ht
    · exact absurd (.inl (locking t (List.mem_of_getElem? ht))) hlooks
  | @trying past rest u done h wake failure entry found empty split tries refused queue creating attempt
      locking =>
    rcases getElem?_callers (split ▸ ht) with ⟨hlt, ht⟩ | ⟨-, ht⟩
    · exact hpast tries refused hlt ht
    · rcases List.mem_cons.mp (List.mem_of_getElem? ht) with rfl | hmem
      · exact absurd (.inr ⟨_, _, creating⟩) hlooks
      · exact absurd (.inl (locking t hmem)) hlooks
  | @made past rest u done h entry found cached split tries refused attempt supplied others =>
    rcases getElem?_callers (split ▸ ht) with ⟨hlt, ht⟩ | ⟨hge, ht⟩
    · exact hpast tries refused hlt ht
    · rw [RetryLoop.answer_of_made (hy.error_of_refused tries refused)
        (hy.ok_of_made tries refused attempt) hge]
      suffices hsup : m.Supplied h t by
        obtain ⟨time', hs'⟩ := hsup
        cases hs.symm.trans hs'
        rfl
      rcases List.mem_cons.mp (List.mem_of_getElem? ht) with rfl | hmem
      · exact supplied
      · exact (others t hmem).resolve_left fun hs => hlooks (.inl hs)

/-! ## Tries -/

/-- Whoever was refused has been answered. -/
theorem ended_of_refused {past : List TaskId} {done : List Handle}
    (refused : List.Forall₂ (m.Refused e) past done) (ht : t ∈ past) :
    ∃ time a, m.ended? t = some (time, a) := by
  obtain ⟨i, hi⟩ := List.getElem?_of_mem ht
  obtain ⟨u, h, hu, -, err, time, -, hs⟩ := refused_at refused (lt_length_of_getElem? hi)
  cases hi.symm.trans hu
  exact ⟨time, _, ended?_eq_some_iff.mpr hs⟩

/-- Every caller is on its way to the proxy, or has been answered. -/
theorem InTurn.standing (hin : m.InTurn first e callers) (ht : t ∈ callers) :
    m.LooksAt t e ∨ ∃ time a, m.ended? t = some (time, a) := by
  cases hin with
  | idle found empty split tries refused queue locking renewed =>
    rcases List.mem_append.mp (split ▸ ht) with ht | ht
    · exact .inr (ended_of_refused refused ht)
    · exact .inl (.inl (locking t ht))
  | trying found empty split tries refused queue creating attempt locking =>
    rcases List.mem_append.mp (split ▸ ht) with ht | ht
    · exact .inr (ended_of_refused refused ht)
    · rcases List.mem_cons.mp ht with rfl | ht
      · exact .inl (.inr ⟨_, _, creating⟩)
      · exact .inl (.inl (locking t ht))
  | @made past rest u done h entry found cached split tries refused attempt supplied others =>
    have hsupplied : ∀ {v}, m.Supplied h v → ∃ time a, m.ended? v = some (time, a) :=
      fun ⟨time, hs⟩ => ⟨time, _, ended?_eq_some_iff.mpr hs⟩
    rcases List.mem_append.mp (split ▸ ht) with ht | ht
    · exact .inr (ended_of_refused refused ht)
    · rcases List.mem_cons.mp ht with rfl | ht
      · exact .inr (hsupplied supplied)
      · exact (others t ht).imp .inl hsupplied

/-- There are no more tries than in the plain loop, and as many once everybody has been answered. -/
theorem InTurn.tried (hin : m.InTurn first e callers) (hy : m.Yields first e attempts) :
    (m.tries first e).length ≤ (RetryLoop.after attempts callers.length).tried ∧
      ((∀ t ∈ callers, (m.ended? t).isSome) →
        (m.tries first e).length = (RetryLoop.after attempts callers.length).tried) := by
  cases hin with
  | @idle past waiting done entry found empty split tries refused queue locking renewed =>
    have hlength : (m.tries first e).length = (RetryLoop.after attempts past.length).tried := by
      rw [RetryLoop.after_of_failed
        (hy.error_of_refused (tries.trans (List.append_nil _).symm) refused), tries, refused.length_eq]
    refine ⟨hlength ▸ RetryLoop.tried_mono (by simp [split]), fun hall => ?_⟩
    have hnobody : waiting = [] := eq_nil_of_ended (fun t ht => .inl (locking t ht))
      fun t ht => hall t (split ▸ List.mem_append_right _ ht)
    rw [hlength, split, hnobody, List.append_nil]
  | @trying past rest t done h wake failure entry found empty split tries refused queue creating attempt
      locking =>
    have hlength : (m.tries first e).length = (RetryLoop.after attempts (past.length + 1)).tried := by
      rw [RetryLoop.tried_of_failed (hy.error_of_refused tries refused), tries, List.length_append,
        refused.length_eq, List.length_singleton]
    refine ⟨hlength ▸ RetryLoop.tried_mono (by simp [split]), fun hall => ?_⟩
    have hended := hall t (by simp [split])
    rw [LooksAt.ended?_eq_none (.inr ⟨_, _, creating⟩)] at hended
    cases hended
  | @made past rest t done h entry found cached split tries refused attempt supplied others =>
    have hlength : (m.tries first e).length = (RetryLoop.after attempts callers.length).tried := by
      rw [RetryLoop.after_of_made (hy.error_of_refused tries refused)
        (hy.ok_of_made tries refused attempt) (by simp [split]), tries, List.length_append,
        refused.length_eq, List.length_singleton]
    exact ⟨Nat.le_of_eq hlength, fun _ => hlength⟩

/-- The tries of the callers that were refused have ended. -/
theorem failed_of_refused {past : List TaskId} {done more : List Handle}
    (tries : m.tries first e = done ++ more) (refused : List.Forall₂ (m.Refused e) past done)
    (hk : k < done.length) (htry : (m.tries first e)[k]? = some h) :
    ∃ c, m.creations[h]? = some c ∧ c.outcome = some .failed := by
  obtain ⟨t, h', -, hh', err, time, hattempt, -⟩ := refused_at refused (refused.length_eq ▸ hk)
  rw [tries, List.getElem?_append_left hk, hh'] at htry
  cases htry
  obtain ⟨c, hc, -, heq⟩ := attempt?_eq_some_iff.mp hattempt
  exact ⟨c, hc, (Prod.mk.inj heq).2⟩

/-- A try begins after the ones before it have failed. -/
theorem InTurn.successive (hin : m.InTurn first e callers) (htry : (m.tries first e)[k]? = some h)
    (hk : k + 1 < (m.tries first e).length) :
    ∃ c, m.creations[h]? = some c ∧ c.outcome = some .failed := by
  cases hin with
  | idle found empty split tries refused =>
    exact failed_of_refused (tries.trans (List.append_nil _).symm) refused
      (tries ▸ Nat.lt_of_succ_lt hk) htry
  | trying found empty split tries refused | made found cached split tries refused =>
    rw [tries, List.length_append, List.length_singleton] at hk
    exact failed_of_refused tries refused (Nat.lt_of_succ_lt_succ hk) htry

/-! ## What failures leave behind -/

/-- The lifecycle of every entry goes by the name of the entry's peer. -/
def NamedAfterPeers (m : ProxyMap) : Prop :=
  ∀ (x : EntryId) (entry : ProxyEntry), m.entries[x]? = some entry →
    entry.lifecycle.name = entry.peer.display

/-- What happens at an entry keeps the names of lifecycles, if it leaves both names alone. -/
theorem NamedAfterPeers.act {x : EntryId} {f : ProxyEntry → ProxyEntry} {creations : List Creation}
    {s : ProxyStage} (hm : m.NamedAfterPeers) (hpeer : ∀ y : ProxyEntry, (f y).peer = y.peer)
    (hname : ∀ y : ProxyEntry, (f y).lifecycle.name = y.lifecycle.name) :
    (m.act x f creations t s).NamedAfterPeers := by
  intro y entry hy
  obtain ⟨old, hold, rfl⟩ := getElem?_modify_eq_some_iff.mp hy
  split
  · rw [hname, hpeer]
    exact hm y old hold
  · exact hm y old hold

theorem name_giveUp (y : ProxyEntry) : y.giveUp.lifecycle.name = y.lifecycle.name := by
  unfold ProxyEntry.giveUp Lifecycle.compareAndTransition?
  split <;> rfl

theorem name_install (h : Handle) (y : ProxyEntry) :
    (y.install h).1.lifecycle.name = y.lifecycle.name := by
  unfold ProxyEntry.install Lifecycle.transition
  dsimp only
  split
  · next lifecycle hl =>
    split at hl
    · cases hl
      rfl
    · cases hl
  · rfl

theorem name_retire (y : ProxyEntry) : y.retire.1.lifecycle.name = y.lifecycle.name := by
  unfold ProxyEntry.retire Lifecycle.beginClose?
  split
  · rfl
  · next lifecycle hl =>
    split at hl
    · cases hl
    · cases hl
      rfl

/-- Advances leave the names of lifecycles alone. -/
theorem Advance.namedAfterPeers {may : Loss → Prop} (h : Advance may t m m')
    (hm : m.NamedAfterPeers) : m'.NamedAfterPeers := by
  cases h with
  | start => exact hm.act (fun _ => rfl) fun _ => rfl
  | answer => exact hm.act (fun _ => ProxyEntry.unlock_peer) (by simp)
  | succeed => exact hm.act (by simp) (by simp [name_install])
  | fail => exact hm.act (by simp) (by simp [name_giveUp])
  | leave | abandon => exact hm.act (by simp) (by simp)
  | retire => exact hm.act (by simp) (by simp [name_retire])
  | closed | finish => exact fun x entry found => hm x entry found

/-- The lifecycle of a new entry has the name of its peer. -/
theorem NamedAfterPeers.enrol (hm : m.NamedAfterPeers) (peer : Peer) :
    (m.enrol peer).NamedAfterPeers := by
  intro (x : EntryId) (entry : ProxyEntry) found
  rcases getElem?_concat_eq_some_iff.mp found with found | ⟨-, rfl⟩
  · exact hm x entry found
  · rfl

/-- Moves leave the names of lifecycles alone. -/
theorem Move.namedAfterPeers {may : Loss → Prop} (h : Move may t m m')
    (hm : m.NamedAfterPeers) : m'.NamedAfterPeers := by
  cases h with
  | advance h => exact h.namedAfterPeers hm
  | enrol => exact hm.enrol _
  | call | shut => exact fun x entry found => hm x entry found
  | join | await => exact hm.act (by simp) (by simp)
  | renew => exact NamedAfterPeers.enrol (hm.act (by simp) (by simp)) _

/-- So lifecycles go by the names of their peers at every moment. -/
theorem NamedAfterPeers.reached (name : String) (events : List Event) :
    (reached name events).NamedAfterPeers := by
  refine (Consistent.empty name).run_induct (P := NamedAfterPeers) (fun _ hmoves hP => ?_) ?_
  · induction hmoves with
    | refl => exact hP
    | tail _ hlast ih => exact hlast.namedAfterPeers ih
  · intro x entry found
    simp at found

/-- A new entry without a proxy, at whose lock nobody is, is as it was made. -/
theorem NamedAfterPeers.eq_fresh (hm : m.NamedAfterPeers) (found : m.entries[e]? = some entry)
    (hslot : entry.slot = none) (hstate : entry.lifecycle.state = .new) (hqueue : entry.queue = []) :
    entry = .fresh entry.peer := by
  obtain ⟨howner, hline⟩ := List.append_eq_nil_iff.mp hqueue
  have hname := hm e entry found
  obtain ⟨peer, slot, ⟨name, state⟩, owner, line⟩ := entry
  cases owner with
  | some u => cases howner
  | none =>
    subst hslot hline
    obtain rfl : name = peer.display := hname
    cases hstate
    rfl

/-- After tries that have all failed, the entry is ready for another one. -/
theorem InTurn.renewed (hin : m.InTurn first e callers) (hnamed : m.NamedAfterPeers)
    (htries : m.tries first e ≠ [])
    (hfailed : ∀ h ∈ m.tries first e, ∃ c, m.creations[h]? = some c ∧ c.outcome = some .failed) :
    ∃ entry, m.entries[e]? = some entry ∧ entry.lifecycle.state = .new ∧ entry.slot = none ∧
      ((∀ t ∈ callers, (m.ended? t).isSome) → entry = .fresh entry.peer) := by
  have hlast : ∀ {done h failure outcome}, m.tries first e = done ++ [h] →
      m.attempt? e h = some (failure, outcome) → outcome = some .failed := by
    intro done h failure outcome tries hattempt
    obtain ⟨c, hc, houtcome⟩ := hfailed h (tries ▸ List.mem_append_right _ List.mem_cons_self)
    obtain ⟨c', hc', -, heq⟩ := attempt?_eq_some_iff.mp hattempt
    cases hc.symm.trans hc'
    exact (Prod.mk.inj heq).2.symm.trans houtcome
  cases hin with
  | @idle past waiting done entry found empty split tries refused queue locking renewed =>
    have hstate := renewed (tries ▸ htries)
    refine ⟨entry, found, hstate, empty, fun hall => hnamed.eq_fresh found empty hstate ?_⟩
    rw [queue]
    exact eq_nil_of_ended (fun t ht => .inl (locking t ht))
      fun t ht => hall t (split ▸ List.mem_append_right _ ht)
  | trying found empty split tries refused queue creating attempt => cases hlast tries attempt
  | made found cached split tries refused attempt => cases hlast tries attempt

/-! ## Answers for everybody -/

/-- Whoever makes a proxy is one of the callers. -/
theorem InTurn.mem_of_creating (hin : m.InTurn first e callers) (hm : m.Consistent)
    (hs : m.stage? t = some (.creating e h wake)) : t ∈ callers := by
  cases hin with
  | idle found empty split tries refused queue locking =>
    obtain ⟨hqueue, -⟩ := hm.head_of_creating found hs
    rw [split, ← queue, hqueue]
    exact List.mem_append_right _ List.mem_cons_self
  | trying found empty split tries refused queue =>
    obtain ⟨hqueue, -⟩ := hm.head_of_creating found hs
    rw [split, ← queue, hqueue]
    exact List.mem_append_right _ List.mem_cons_self
  | made found cached =>
    obtain ⟨-, hslot, -⟩ := hm.head_of_creating found hs
    cases cached.symm.trans hslot

/-- Nobody is kept waiting but by the factory. -/
theorem InTurn.onward (hin : m.InTurn first e callers) (hm : m.Consistent) {now : Nat}
    (hquiet : ∀ t, m.isReady now t = false) : (∀ t ∈ callers, (m.ended? t).isSome) ∨
      ∃ t ∈ callers, ∃ h wake, m.stage? t = some (.creating e h wake) ∧ now < wake := by
  by_cases hall : ∀ t ∈ callers, (m.ended? t).isSome
  · exact .inl hall
  · push Not at hall
    obtain ⟨t, ht, hnot⟩ := hall
    rcases hin.standing ht with hl | ⟨time, a, hended⟩
    · obtain ⟨u, h, wake, hs, hlater⟩ := hm.awaits_creation hquiet hl
      exact .inr ⟨u, hin.mem_of_creating hm hs, h, wake, hs, hlater⟩
    · exact absurd (by rw [hended]; rfl) hnot

/-- Whoever can go on has fewer turns left after its turn. -/
theorem effort_turn (factory : Factory) {now : Nat} (hm : m.Separate) (hready : m.isReady now t = true) :
    (m.turn now factory t).effort < m.effort :=
  ((punctual factory).ends now).left_turn t m hm hready

/-- From any moment on, everybody can be brought an answer by turns alone, whatever the factory does. -/
theorem Attended.returns {name : String} {events : List Event}
    (ha : (reached name events).Attended first id e callers) (factory : Factory) :
    ∃ turns : List (Nat × TaskId), ∀ t ∈ callers, (((reached name events).run
      (turns.map fun x => .turn x.1 factory x.2)).ended? t).isSome := by
  induction heffort : (reached name events).effort using Nat.strongRecOn generalizing events with
  | ind n ih =>
    have hm := Consistent.reached name events
    by_cases hall : ∀ t ∈ callers, ((reached name events).ended? t).isSome
    · exact ⟨[], hall⟩
    -- somebody can go on, at least once the factory is done
    have hready : ∃ now t, (reached name events).isReady now t = true := by
      by_contra hnone
      push Not at hnone
      rcases ha.inTurn.onward hm fun t => Bool.eq_false_iff.mpr (hnone 0 t) with hall' | hcreating
      · exact hall hall'
      · obtain ⟨t, -, h, wake, hs, -⟩ := hcreating
        refine hnone wake t ?_
        simp [isReady, hs]
    obtain ⟨now, t, hready⟩ := hready
    have hstep : reached name (events ++ [.turn now factory t]) =
        (reached name events).turn now factory t := reached_concat _
    have hcalm : ¬ (reached name events).Disturbs id e (.turn now factory t) := fun h => h
    have ha' : ((reached name events).turn now factory t).Attended first id e (callers ++ []) :=
      ha.step hm (Live.reached name events) hcalm
    rw [List.append_nil] at ha'
    have hless := effort_turn factory (Separate.reached name events) hready
    obtain ⟨turns, hturns⟩ := ih _ (heffort ▸ hless) (hstep ▸ ha') (congrArg effort hstep)
    refine ⟨(now, t) :: turns, ?_⟩
    rw [hstep] at hturns
    exact hturns

/-- Look-ups that take turns are served one by one. -/
theorem InTurn.oneByOne (hin : m.InTurn first e callers) (hm : m.Consistent) (hnamed : m.NamedAfterPeers)
    (hy : m.Yields first e attempts) : m.OneByOne first e callers attempts where
  answered _ _ _ _ ht hended := hin.answered hy ht hended
  standing _ ht := hin.standing ht
  tried_le := (hin.tried hy).1
  tried := (hin.tried hy).2
  successive _ _ htry hk := hin.successive htry hk
  renewed := hin.renewed hnamed
  onward _ hquiet := hin.onward hm hquiet

/-- From any moment on at which a peer is registered in an open map and has no proxy, those who look it up
are served one by one, as a plain loop would serve them, as long as nobody resets the peer, closes the map
or gives up waiting, whatever else happens. So if a try succeeds, the callers before it have the errors of
their own tries, the others have its proxy, and there is no other try; if none does, everybody tries, and has
the error of the own try. Everybody can be brought an answer. -/
theorem look_ups_are_served_one_by_one (name : String) (before events : List Event) (id : PeerId)
    (e : EntryId) (entry : ProxyEntry) (attempts : Nat → Except PeerError Handle)
    (isOpen : (reached name before).closed = false)
    (registered : (reached name before).registry.get? id = some e)
    (found : (reached name before).entries[e]? = some entry) (empty : entry.slot = none)
    (undisturbed : (reached name before).Undisturbed id e events)
    (yields : ((reached name before).run events).Yields ((reached name before).firstTry e) e attempts) :
    ((reached name before).run events).OneByOne ((reached name before).firstTry e) e
      (entry.queue ++ (reached name before).arrivals id events) attempts ∧
    RetryLoop.Serves attempts ∧
    ∀ factory, ∃ turns : List (Nat × TaskId),
      ∀ t ∈ entry.queue ++ (reached name before).arrivals id events,
        ((((reached name before).run events).run
          (turns.map fun x => .turn x.1 factory x.2)).ended? t).isSome := by
  have hattended := attended_run isOpen registered found empty undisturbed
  have hreached : (reached name before).run events = reached name (before ++ events) :=
    (run_append _ _ _).symm
  refine ⟨?_, RetryLoop.serves attempts, ?_⟩
  · exact hattended.inTurn.oneByOne (hreached ▸ Consistent.reached name _)
      (hreached ▸ NamedAfterPeers.reached name _) yields
  · rw [hreached] at hattended ⊢
    exact hattended.returns

/-- A factory that fails the first time it is called, and the third time. -/
def faltering : Factory := fun creations _ =>
  { delay := 5, failure := [some (.timeout 7), none, some (.timeout 9)].getD creations.length none }

/-- Four look-ups of a peer, and one of another peer between them. -/
def rush : List Event :=
  [.begin 0 faltering (.lookUp ⟨"a"⟩), .begin 1 faltering (.lookUp ⟨"a"⟩),
    .begin 1 faltering (.lookUp ⟨"b"⟩), .begin 2 faltering (.lookUp ⟨"a"⟩),
    .begin 2 faltering (.lookUp ⟨"a"⟩), .turn 5 faltering 0, .turn 5 faltering 1,
    .turn 10 faltering 1, .turn 10 faltering 3, .turn 15 faltering 3, .turn 15 faltering 4]

/-- The first two callers have the errors of their own tries, and the other two have the proxy that the
third one has made. -/
theorem look_ups_are_served_one_by_one_in_rush :
    let before := [Event.register ⟨⟨"a"⟩, "x"⟩, .register ⟨⟨"b"⟩, "y"⟩]
    let attempts : Nat → Except PeerError Handle := fun k =>
      [.error (.timeout 7), .error (.timeout 9)].getD k (.ok 3)
    (reached "m" before).Undisturbed ⟨"a"⟩ 0 rush ∧
    ((reached "m" before).run rush).Yields 0 0 attempts ∧
    ((reached "m" before).run rush).OneByOne 0 0 [0, 1, 3, 4] attempts ∧
    ((reached "m" before).run rush).tries 0 0 = [0, 2, 3] ∧
    ((reached "m" before).run rush).ended? 1 = some (10, .proxy (.error (.timeout 9))) ∧
    ((reached "m" before).run rush).ended? 4 = some (15, .proxy (.ok 3)) := by
  intro before attempts
  have hcalm : (reached "m" before).Undisturbed ⟨"a"⟩ 0 rush := by
    unfold rush
    repeat refine undisturbed_cons (by simp [Disturbs, ProxyCall.Renews]) ?_
    exact undisturbed_nil
  have hyields : ((reached "m" before).run rush).Yields 0 0 attempts := by
    have htries : ((reached "m" before).run rush).tries 0 0 = [0, 2, 3] := by decide
    have hresults : ∀ x ∈ [(0, 0), (1, 2), (2, 3)],
        ((reached "m" before).run rush).creations[x.2]?.map (Creation.result x.2) =
          some (attempts x.1) := by decide
    intro k h c hk hc
    rw [htries] at hk
    have hresult := hresults (k, h) (by
      match k with
      | 0 | 1 | 2 =>
        cases hk
        decide
      | _ + 3 => cases hk)
    rw [hc, Option.map_some] at hresult
    exact (Option.some.inj hresult).symm
  have hfirst : (reached "m" before).firstTry 0 = 0 := by decide
  have hcallers : (ProxyEntry.fresh ⟨⟨"a"⟩, "x"⟩).queue ++
      (reached "m" before).arrivals ⟨"a"⟩ rush = [0, 1, 3, 4] := by decide
  have htheorem := look_ups_are_served_one_by_one "m" before rush ⟨"a"⟩ 0 (.fresh ⟨⟨"a"⟩, "x"⟩) attempts
    (by decide) (by decide) (by decide) rfl hcalm (hfirst.symm ▸ hyields)
  rw [hfirst, hcallers] at htheorem
  exact ⟨hcalm, hyields, htheorem.1, by decide, by decide, by decide⟩

end ProxyMap

end Replica
