import Replica.Proofs.Cluster.Custody

/-!
# How often a worker goes round

A worker goes round again at once only if it has taken a request, and whatever else it does leaves no more
to be taken (`Desk.Stride.backlog`). So it never stops between two rounds: after its turn a worker takes,
has a request worked on, replies, or has left (`Desk.turn_ne_idle`).
-/

namespace Replica

open Network

namespace Network

variable {net net' : Network} {box : MailboxId} {b : Mailbox} {now : Nat} {t : TaskId}

/-! ## What can be taken -/

theorem backlog_of_requests
    (h : ∀ k : MailboxId, net'.mailboxes[k]?.map (·.requests) = net.mailboxes[k]?.map (·.requests)) :
    net'.backlog = net.backlog := by
  have hmap : net'.mailboxes.map (·.requests) = net.mailboxes.map (·.requests) :=
    List.ext_getElem? fun k => by rw [List.getElem?_map, List.getElem?_map, h k]
  have hlength (net : Network) :
      net.backlog = (net.mailboxes.map (·.requests)).foldr (fun q waiting => q.length + waiting) 0 := by
    rw [List.foldr_map]
    rfl
  rw [hlength, hlength, hmap]

theorem backlog_modifyMailbox (net : Network) (box : MailboxId) {f : Mailbox → Mailbox}
    (hf : ∀ b, (f b).requests = b.requests) : (net.modifyMailbox box f).backlog = net.backlog := by
  refine backlog_of_requests fun k => ?_
  show (net.mailboxes.modify box f)[k]?.map _ = _
  rw [List.getElem?_modify]
  cases net.mailboxes[k]? with
  | none => rfl
  | some b => by_cases hk : box = k <;> simp [hk, hf]

/-- Whoever replies leaves all that can be taken. -/
theorem Effects.backlog (h : Effects (fun _ _ => False) net net') : net'.backlog = net.backlog := by
  induction h with
  | refl => rfl
  | @tail mid last _ hlast ih =>
    rw [← ih]
    cases hlast with
    | put now hputs found hfree hpush => exact hputs.elim
    | strike box key => exact backlog_modifyMailbox mid box fun _ => rfl
    | mark slip f => rfl
    | roll => rfl
    | remark now h => rfl
    | leave t box => exact backlog_modifyMailbox mid box fun b => (leave_requests t b).1

theorem handBack_backlog (now : Nat) (b' : Mailbox) (written : List Occurrence)
    (found : net.mailboxes[box]? = some b) :
    (net.handBack now box b' written).backlog + b.requests.length =
      net.backlog + b'.requests.length :=
  foldr_add_set (fun b => b.requests.length) b' found

theorem receive_backlog (now : Nat) (box : MailboxId) (b : Mailbox) (r : Request) (net : Network) :
    (net.receive now box b r).1.backlog = net.backlog := by
  rcases receive_cases now box b r net with ⟨-, h⟩ | ⟨-, h⟩ | ⟨-, wake, h⟩ <;>
    exact congrArg (fun result => result.1.backlog) h

/-- A taker that has a look leaves less to be taken if it gets something. -/
theorem takeFrom_backlog (now : Nat) (t : TaskId) (box : MailboxId) (net : Network) :
    (net.takeFrom now t box).1.backlog ≤ net.backlog ∧
      ∀ r, (net.takeFrom now t box).2 = .ended (.ok r) →
        (net.takeFrom now t box).1.backlog < net.backlog := by
  have hglance := takeFrom_glance now t box net
  generalize net.takeFrom now t box = result at hglance ⊢
  cases hglance with
  | nowhere hnone => exact ⟨Nat.le_refl _, nofun⟩
  | @shut b found hclosed =>
    have hback := handBack_backlog now { b with wakeUp := false } [] found
    exact ⟨Nat.le_of_eq (Nat.add_right_cancel hback), nofun⟩
  | @waits b found hopen hdropped =>
    have hback := handBack_backlog now ({ b with wakeUp := false, requests := [] }.join t)
      (b.requests.map (.dropped box t)) found
    exact ⟨Nat.le_of_add_right_le (Nat.le_of_eq hback), nofun⟩
  | @takes b dropped rest r found hopen hsplit hdropped hkept =>
    let kept : Mailbox := { b with wakeUp := false, requests := rest }
    have hback := handBack_backlog now kept (dropped.map (.dropped box t) ++ [.taken box t r]) found
    have hfewer : rest.length < b.requests.length := by
      rw [hsplit, List.length_append, List.length_cons]
      omega
    have hlt : ((net.handBack now box kept
        (dropped.map (.dropped box t) ++ [.taken box t r])).receive now box kept r).1.backlog <
          net.backlog := by
      rw [receive_backlog]
      change _ = net.backlog + rest.length at hback
      omega
    exact ⟨Nat.le_of_lt hlt, fun _ _ => hlt⟩

theorem beginTake_backlog (now : Nat) (t : TaskId) (node : PeerId) (net : Network) :
    (net.beginTake now t node).1.backlog ≤ net.backlog ∧
      ∀ r, (net.beginTake now t node).2 = .ended (.ok r) →
        (net.beginTake now t node).1.backlog < net.backlog := by
  unfold beginTake
  split
  · exact ⟨Nat.le_refl _, nofun⟩
  · next box _ =>
    dsimp only
    split
    · exact takeFrom_backlog now t box net
    · exact ⟨Nat.le_refl _, nofun⟩

theorem turnTake_backlog (now : Nat) (t : TaskId) (stage : Taking) (net : Network) :
    (net.turnTake now t stage).1.backlog ≤ net.backlog := by
  cases stage with
  | delayed box wake =>
    rw [turnTake]
    split
    · exact (takeFrom_backlog now t box net).1
    · exact Nat.le_refl _
  | looking box =>
    rw [turnTake]
    split
    · exact (takeFrom_backlog now t box net).1
    · exact Nat.le_refl _
  | holding box r wake =>
    rw [turnTake]
    split <;> exact Nat.le_refl _

end Network

namespace Desk

variable {σ : Type} (service : Service σ) {now : Nat} {badge : Badge}
variable {start finish : Poise × Desk σ}

theorem engage_backlog (now : Nat) (badge : Badge) (r : Request) (desk : Desk σ) :
    (desk.engage service now badge r).network.backlog = desk.network.backlog := by
  unfold engage
  rw [foldl_note]
  rfl

theorem Stride.backlog (h : Stride service now badge start finish) :
    finish.2.network.backlog ≤ start.2.network.backlog := by
  cases h with
  | @begin desk alive => exact (beginTake_backlog now badge.task badge.node desk.network).1
  | @take desk stage => exact turnTake_backlog now badge.task stage desk.network
  | @engage desk r => exact Nat.le_of_eq (engage_backlog service now badge r desk)
  | @reply desk r reply =>
    exact Nat.le_of_eq (Effects.backlog (beginReply_effects now r (.ok reply) desk.network))
  | @fail desk r e harmless =>
    exact Nat.le_of_eq (Effects.backlog (beginReply_effects now r (.error e) desk.network))
  | @answer desk stage => exact Nat.le_of_eq (Effects.backlog (turnReply_effects now stage desk.network))
  | terminate inside alive => exact Nat.le_refl _
  | stop dead => exact Nat.le_refl _
  | wake time => exact Nat.le_refl _
  | silence r => exact Nat.le_refl _
  | falter r fatal => exact Nat.le_refl _
  | panic r message => exact Nat.le_refl _
  | crash r => exact Nat.le_refl _
  | interrupt shutdown => exact Nat.le_refl _
  | hush inside dead => exact Nat.le_refl _

theorem Strides.backlog (h : Strides service now badge start finish) :
    finish.2.network.backlog ≤ start.2.network.backlog := by
  induction h with
  | refl => exact Nat.le_refl _
  | tail _ hlast ih => exact Nat.le_trans (hlast.backlog service) ih

/-! ## Rounds -/

theorem leave_leaves (now : Nat) (badge : Badge) (e : ServerError) (desk : Desk σ) :
    ∃ why, (desk.leave service now badge e).2 = .leaves why := by
  unfold leave
  split
  · exact ⟨_, rfl⟩
  · split <;> exact ⟨_, rfl⟩

theorem afterReply_ne_idle (result : Network × ReplyProgress) (desk : Desk σ) :
    (desk.afterReply service now badge result).2 ≠ .waits .idle := by
  obtain ⟨net, progress⟩ := result
  match progress with
  | .waiting stage => nofun
  | .ended (.ok ()) => nofun
  | .ended (.error e) =>
    obtain ⟨why, hwhy⟩ := leave_leaves service now badge e (desk.withNetwork net)
    intro hidle
    cases hwhy.symm.trans hidle

theorem conclude_ne_idle (r : Request) (ending : Ending) (desk : Desk σ) :
    (desk.conclude service now badge r ending).2 ≠ .waits .idle := by
  have hleaves (e : ServerError) : (desk.leave service now badge e).2 ≠ .waits .idle := by
    obtain ⟨why, hwhy⟩ := leave_leaves service now badge e desk
    rw [hwhy]
    nofun
  cases ending with
  | reply answer => exact afterReply_ne_idle service _ desk
  | silence =>
    intro hidle
    cases hidle
  | failure e =>
    rw [conclude]
    split
    · exact hleaves e
    · exact afterReply_ne_idle service _ desk
  | panic message => exact hleaves _
  | crash =>
    intro hidle
    cases hidle

/-- After a look into its mailbox a worker waits for something, or it goes round again because it got a
request. -/
theorem afterTake_ne_idle (result : Network × TakeProgress) (desk : Desk σ) :
    (desk.afterTake service now badge result).2 ≠ .waits .idle ∧
      ((desk.afterTake service now badge result).2 = .again → ∃ r, result.2 = .ended (.ok r)) := by
  obtain ⟨net, progress⟩ := result
  match progress with
  | .waiting stage => exact ⟨nofun, nofun⟩
  | .ended (.ok r) =>
    refine ⟨?_, fun _ => ⟨r, rfl⟩⟩
    unfold afterTake handle
    dsimp only
    split
    · exact conclude_ne_idle service r _ _
    · nofun
  | .ended (.error e) =>
    obtain ⟨why, hwhy⟩ := leave_leaves service now badge e (desk.withNetwork net)
    change (leave service now badge e (desk.withNetwork net)).2 ≠ _ ∧
      ((leave service now badge e (desk.withNetwork net)).2 = _ → _)
    rw [hwhy]
    exact ⟨nofun, nofun⟩

theorem advance_ne_idle (now : Nat) (badge : Badge) (stage : Working) (desk : Desk σ) :
    (desk.advance service now badge stage).2 ≠ .waits .idle := by
  cases stage with
  | idle =>
    rw [advance]
    split
    · exact (afterTake_ne_idle service _ desk).1
    · rintro ⟨⟩
  | taking stage => exact (afterTake_ne_idle service _ desk).1
  | handling r ending wake =>
    rw [advance]
    split
    · exact conclude_ne_idle service r ending desk
    · rintro ⟨⟩
  | replying stage => exact afterReply_ne_idle service _ desk

theorem advance_backlog (now : Nat) (badge : Badge) (stage : Working) (desk : Desk σ) :
    (desk.advance service now badge stage).1.network.backlog ≤ desk.network.backlog :=
  (advance_strides service now badge stage desk).backlog service

/-- A worker that goes round again has taken a request. -/
theorem advance_again (now : Nat) (badge : Badge) (desk : Desk σ)
    (h : (desk.advance service now badge .idle).2 = .again) :
    (desk.advance service now badge .idle).1.network.backlog < desk.network.backlog := by
  rw [advance] at h ⊢
  split at h
  · next halive =>
    rw [if_pos halive]
    obtain ⟨r, hr⟩ := (afterTake_ne_idle service _ desk).2 h
    have hfewer := (beginTake_backlog now badge.task badge.node desk.network).2 r hr
    exact Nat.lt_of_le_of_lt ((afterTake_strides service _ desk).backlog service) hfewer
  · cases h

/-- A worker that may go round as often as there is something to take does not stop short. -/
theorem goRound_ne_idle (now : Nat) (badge : Badge) (fuel : Nat) (desk : Desk σ)
    (h : desk.network.backlog ≤ fuel) :
    (desk.goRound service now badge fuel .idle).2 ≠ .waiting .idle := by
  have hidle := advance_ne_idle service now badge .idle desk
  have hagain := advance_again service now badge desk
  induction fuel generalizing desk with
  | zero =>
    rw [goRound]
    generalize desk.advance service now badge .idle = result at hidle hagain
    obtain ⟨desk', pace⟩ := result
    cases pace with
    | waits stage =>
      intro heq
      cases heq
      exact hidle rfl
    | leaves why => rintro ⟨⟩
    | again =>
      have hfewer : desk'.network.backlog < desk.network.backlog := hagain rfl
      omega
  | succ fuel ih =>
    rw [goRound]
    generalize desk.advance service now badge .idle = result at hidle hagain
    obtain ⟨desk', pace⟩ := result
    cases pace with
    | waits stage =>
      intro heq
      cases heq
      exact hidle rfl
    | leaves why => rintro ⟨⟩
    | again =>
      have hfewer : desk'.network.backlog < desk.network.backlog := hagain rfl
      exact ih desk' (by omega) (advance_ne_idle service now badge .idle desk')
        (advance_again service now badge desk')

/-- After its turn a worker takes, has a request worked on, replies, or has left. -/
theorem turn_ne_idle (now : Nat) (badge : Badge) (stage : Working) (desk : Desk σ) :
    (desk.turn service now badge stage).2 ≠ .waiting .idle := by
  have hidle := advance_ne_idle service now badge stage desk
  have hbacklog := advance_backlog service now badge stage desk
  rw [turn, goRound]
  generalize desk.advance service now badge stage = result at hidle hbacklog
  obtain ⟨desk', pace⟩ := result
  cases pace with
  | waits stage =>
    intro heq
    cases heq
    exact hidle rfl
  | leaves why => rintro ⟨⟩
  | again => exact goRound_ne_idle service now badge _ desk' hbacklog

end Desk

end Replica
