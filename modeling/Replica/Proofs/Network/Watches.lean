import Mathlib.Data.List.Nodup
import Mathlib.Logic.Function.Basic
import Replica.Proofs.Network.Effects

/-!
# Takers and their wake-ups

A mailbox keeps at most one wake-up, however many requests come in, so one cannot see from the mailbox alone
that every request finds its taker. It can be seen from the takers. A taker that looks for a request stands in
line at the mailbox, or it has been woken and has not had its turn yet. As long as anybody stands in line,
there are at least as many woken takers as requests (`Mailbox.Watched`): a request that comes in wakes the
first in line, a woken taker that gives up passes its wake-up on, and whoever has its turn takes a request
away or finds that none is left. Whether a wake-up is kept does not matter.

Who looks where is a function from tasks to mailboxes here. What a task does changes its value at that task
only.
-/

namespace Replica

/-- Where a taker looks for a request. -/
def Taking.looking? : Taking → Option MailboxId
  | .looking box => some box
  | _ => none

def Progress.looking? {α : Type} : Progress Taking α → Option MailboxId
  | .waiting stage => stage.looking?
  | .ended _ => none

/-! ## Mailboxes -/

namespace Mailbox

variable {looks looks' : TaskId → Prop} {b b' : Mailbox} {t : TaskId} {requests : List Request}

/-- The tasks that look for a request in the mailbox stand in line, or they have been woken. If anybody
stands in line, as many have been woken as there are requests. -/
structure Watched (looks : TaskId → Prop) (b : Mailbox) : Prop where
  nodup : b.takers.Nodup
  looking : ∀ t ∈ b.takers, looks t
  closed : b.closed = true → b.takers = []
  woken : b.takers = [] ∨ ∃ woken : List TaskId, woken.Nodup ∧
    (∀ t ∈ woken, looks t ∧ t ∉ b.takers) ∧ b.requests.length ≤ woken.length

namespace Watched

/-- A mailbox without a line is watched, whoever looks there. -/
theorem of_idle (h : b.takers = []) : b.Watched looks where
  nodup := h ▸ List.nodup_nil
  looking := h ▸ List.forall_mem_nil _
  closed _ := h
  woken := .inl h

/-- A mailbox stays watched if more tasks look there. -/
theorem mono (h : b.Watched looks) (hlooks : ∀ t, looks t → looks' t) : b.Watched looks' where
  nodup := h.nodup
  looking t ht := hlooks t (h.looking t ht)
  closed := h.closed
  woken := h.woken.imp_right fun ⟨woken, hnodup, hwoken, hle⟩ =>
    ⟨woken, hnodup, fun t ht => ⟨hlooks t (hwoken t ht).1, (hwoken t ht).2⟩, hle⟩

/-- Takers and requests stay as they are. -/
theorem of_same (h : b.Watched looks) (htakers : b'.takers = b.takers) (hclosed : b'.closed = b.closed)
    (hrequests : b'.requests.length = b.requests.length) : b'.Watched looks where
  nodup := htakers ▸ h.nodup
  looking := htakers ▸ h.looking
  closed hshut := htakers ▸ h.closed (hclosed ▸ hshut)
  woken := htakers ▸ hrequests ▸ h.woken

/-- One taker is woken, which makes good for one request. -/
theorem wakeOne (h : b.Watched looks) (htakers : b'.takers = b.takers) (hclosed : b'.closed = b.closed)
    (hrequests : b'.requests.length ≤ b.requests.length + 1) : b'.wakeOne.Watched looks := by
  unfold Mailbox.wakeOne
  split
  · next hnil => exact .of_idle hnil
  · next t rest hcons =>
    rw [htakers] at hcons
    have hnodup := h.nodup
    rw [hcons, List.nodup_cons] at hnodup
    refine ⟨hnodup.2, fun u hu => h.looking u (hcons ▸ List.mem_cons_of_mem t hu), fun hshut => ?_,
      .inr ?_⟩
    · rw [h.closed (hclosed ▸ hshut)] at hcons
      cases hcons
    · rcases h.woken with hnil | ⟨woken, hwoken, hlooks, hle⟩
      · rw [hnil] at hcons
        cases hcons
      · rw [hcons] at hlooks
        refine ⟨t :: woken, List.nodup_cons.mpr ⟨fun ht => ?_, hwoken⟩, ?_, ?_⟩
        · exact (hlooks t ht).2 List.mem_cons_self
        · rintro u (_ | ⟨_, hu⟩)
          · exact ⟨h.looking t (hcons ▸ List.mem_cons_self), hnodup.1⟩
          · exact ⟨(hlooks u hu).1, fun hrest => (hlooks u hu).2 (List.mem_cons_of_mem t hrest)⟩
        · exact hrequests.trans (Nat.succ_le_succ hle)

/-- A request that is pushed wakes the first in line, so as many are awake as there are requests. -/
theorem push? {r : Request} (h : b.Watched looks) (hpush : b.push? r = some b') : b'.Watched looks := by
  unfold Mailbox.push? at hpush
  split at hpush
  · cases hpush
  · cases hpush
    exact h.wakeOne rfl rfl (List.length_append).le

/-- A woken taker looks no more, and so there is one request that needs none. -/
theorem quit (h : b.Watched looks) (ht : t ∉ b.takers) (htakers : b'.takers = b.takers)
    (hclosed : b'.closed = b.closed) (hrequests : b'.requests.length ≤ b.requests.length - 1) :
    b'.Watched fun u => looks u ∧ u ≠ t where
  nodup := htakers ▸ h.nodup
  looking u hu := ⟨h.looking u (htakers ▸ hu), fun heq => ht (heq ▸ htakers ▸ hu)⟩
  closed hshut := htakers ▸ h.closed (hclosed ▸ hshut)
  woken := by
    rw [htakers]
    refine h.woken.imp_right fun ⟨woken, hnodup, hlooks, hle⟩ => ⟨woken.erase t, hnodup.erase t, ?_, ?_⟩
    · intro u hu
      obtain ⟨hne, hmem⟩ := (List.Nodup.mem_erase_iff hnodup).mp hu
      exact ⟨⟨(hlooks u hmem).1, hne⟩, (hlooks u hmem).2⟩
    · have hlength : woken.length - 1 ≤ (woken.erase t).length := List.le_length_erase
      omega

/-- A taker gives up. If it had been woken, it passes its wake-up on. -/
theorem leave (h : b.Watched looks) (t : TaskId) : (b.leave t).Watched fun u => looks u ∧ u ≠ t := by
  unfold Mailbox.leave
  split
  · next ht =>
    have hmem (u : TaskId) : u ∈ b.takers.erase t ↔ u ≠ t ∧ u ∈ b.takers :=
      List.Nodup.mem_erase_iff h.nodup
    refine ⟨h.nodup.erase t, fun u hu => ?_, fun hshut => ?_, .inr ?_⟩
    · exact ⟨h.looking u ((hmem u).mp hu).2, ((hmem u).mp hu).1⟩
    · exact absurd ht (h.closed hshut ▸ List.not_mem_nil)
    · rcases h.woken with hnil | ⟨woken, hnodup, hlooks, hle⟩
      · exact absurd ht (hnil ▸ List.not_mem_nil)
      · refine ⟨woken, hnodup, fun u hu => ⟨⟨(hlooks u hu).1, ?_⟩, fun hrest => ?_⟩, hle⟩
        · rintro rfl
          exact (hlooks u hu).2 ht
        · exact (hlooks u hu).2 ((hmem u).mp hrest).2
  · next ht =>
    have hquit : ({ b with requests := b.requests.tail } : Mailbox).Watched fun u => looks u ∧ u ≠ t :=
      h.quit ht rfl rfl (by rw [List.length_tail])
    refine hquit.wakeOne rfl rfl ?_
    rw [List.length_tail]
    omega

/-- A taker that has found nothing goes to the end of the line. -/
theorem join (h : b.Watched looks) (ht : t ∉ b.takers) (hopen : b.closed = false) :
    ({ b with wakeUp := false, requests := [] }.join t).Watched fun u => looks u ∨ u = t where
  nodup := by
    rw [Mailbox.join, List.nodup_append]
    refine ⟨h.nodup, List.nodup_singleton t, ?_⟩
    rintro u hu v hv rfl
    exact ht (List.mem_singleton.mp hv ▸ hu)
  looking u hu := by
    rcases List.mem_append.mp hu with hu | hu
    · exact .inl (h.looking u hu)
    · exact .inr (List.mem_singleton.mp hu)
  closed hshut := absurd (hopen.symm.trans hshut) nofun
  woken := .inr ⟨[], List.nodup_nil, List.forall_mem_nil _, Nat.le_refl 0⟩

end Watched

end Mailbox

/-! ## Networks -/

namespace Network

variable {net net' : Network} {place place' : TaskId → Option MailboxId} {box : MailboxId} {b : Mailbox}
variable {t : TaskId} {now : Nat} {puts : MailboxId → Request → Prop}

/-- All mailboxes are watched by the tasks that look there. -/
def Watched (place : TaskId → Option MailboxId) (net : Network) : Prop :=
  ∀ (box : MailboxId) (b : Mailbox), net.mailboxes[box]? = some b → b.Watched fun t => place t = some box

namespace Watched

/-- If the mailboxes are the same, they are watched by the same tasks. -/
theorem of_eq (h : net.Watched place) (hmailboxes : net'.mailboxes = net.mailboxes) :
    net'.Watched place := by
  rw [Watched, hmailboxes]
  exact h

/-- All mailboxes stay watched if more tasks look there. -/
theorem mono (h : net.Watched place) (hplace : ∀ t box, place t = some box → place' t = some box) :
    net.Watched place' :=
  fun box b found => (h box b found).mono fun t => hplace t box

/-- One mailbox is put back, and no other one is concerned. -/
theorem putBack {b' : Mailbox} (h : net.Watched place) (hb : b'.Watched fun t => place' t = some box)
    (hothers : ∀ t other, other ≠ box → place t = some other → place' t = some other)
    (hmailboxes : net'.mailboxes = net.mailboxes.set box b') : net'.Watched place' := by
  intro other c found
  rw [hmailboxes, List.getElem?_set] at found
  split at found
  · next heq =>
    subst heq
    split at found
    · cases found
      exact hb
    · cases found
  · next hne => exact (h other c found).mono fun t => hothers t other (Ne.symm hne)

/-- A mailbox may be changed in any way that keeps it watched. -/
theorem modifyMailbox {f : Mailbox → Mailbox} (h : net.Watched place)
    (hf : ∀ b looks, b.Watched looks → (f b).Watched looks) (box : MailboxId) :
    (net.modifyMailbox box f).Watched place := by
  intro other b' found
  obtain ⟨b, hb, rfl⟩ := getElem?_modify_eq_some_iff.mp found
  split
  · exact hf b _ (h other b hb)
  · exact h other b hb

end Watched

/-! ### Senders and repliers -/

/-- A request is put into a mailbox by a push, which wakes somebody; all other effects leave the lines
alone. -/
theorem Effect.watched (h : Effect puts net net') (hnet : net.Watched place) : net'.Watched place := by
  cases h with
  | @put now box b b' r hputs found hfree hpush =>
    have hentered : (b.enter r.key net.slips.length).Watched fun t => place t = some box :=
      (hnet box b found).of_same rfl rfl rfl
    exact hnet.putBack (hentered.push? hpush) (fun _ _ _ => id) rfl
  | strike box key =>
    have hstrike (b : Mailbox) (looks : TaskId → Prop) (hb : b.Watched looks) :
        (b.strike key).Watched looks := hb.of_same rfl rfl rfl
    exact hnet.modifyMailbox hstrike box
  | mark slip f hf => exact hnet.of_eq rfl
  | roll => exact hnet.of_eq rfl
  | remark now h => exact hnet.of_eq rfl
  | leave t box =>
    exact hnet.modifyMailbox (fun b looks hb => (hb.leave t).mono fun _ => And.left) box

/-- So no call of a sender or a replier loses a wake-up. -/
theorem Effects.watched (h : Effects puts net net') (hnet : net.Watched place) : net'.Watched place := by
  induction h with
  | refl => exact hnet
  | tail _ hlast ih => exact hlast.watched ih

/-- A sender that begins loses no wake-up. -/
theorem beginSend_watched (now : Nat) (r : Request) (h : net.Watched place) :
    (net.beginSend now r).1.Watched place := by
  have heffects : Effects (fun _ _ => True) net (net.beginSend now r).1 :=
    beginSend_effects now fun _ _ => trivial
  exact heffects.watched h

/-- A sender that goes on loses none. -/
theorem turnSend_watched (now : Nat) (stage : Sending) (h : net.Watched place) :
    (net.turnSend now stage).1.Watched place := by
  have heffects : Effects (fun _ _ => True) net (net.turnSend now stage).1 :=
    turnSend_effects now fun _ _ _ _ => trivial
  exact heffects.watched h

/-- A sender that is cancelled has nothing to do with the lines. -/
theorem cancelSend_watched (stage : Sending) (h : net.Watched place) :
    (net.cancelSend stage).Watched place := by
  have heffects : Effects (fun _ _ => True) net (net.cancelSend stage) := cancelSend_effects stage net
  exact heffects.watched h

/-- A reply that begins has nothing to do with the lines. -/
theorem beginReply_watched (now : Nat) (r : Request) (outcome : Outcome) (h : net.Watched place) :
    (net.beginReply now r outcome).1.Watched place := by
  have heffects : Effects (fun _ _ => True) net (net.beginReply now r outcome).1 :=
    beginReply_effects now r outcome net
  exact heffects.watched h

/-- Nor has a reply that goes on. -/
theorem turnReply_watched (now : Nat) (stage : Replying) (h : net.Watched place) :
    (net.turnReply now stage).1.Watched place := by
  have heffects : Effects (fun _ _ => True) net (net.turnReply now stage).1 :=
    turnReply_effects now stage net
  exact heffects.watched h

/-! ### Nodes -/

/-- Everybody in line is woken when a mailbox is closed. -/
theorem closeMailbox_watched (now : Nat) (box : MailboxId) (h : net.Watched place) :
    (net.closeMailbox now box).Watched place := by
  unfold closeMailbox
  split
  · exact h
  · exact h.putBack (.of_idle rfl) (fun _ _ _ => id) rfl

/-- A node that is registered again has its old line woken, and a new mailbox without a line. -/
theorem register_watched (now : Nat) (node : PeerId) (h : net.Watched place) :
    (net.register now node).Watched place := by
  have henroll : Watched place { net with
      registry := net.registry.set node net.mailboxes.length
      mailboxes := net.mailboxes ++ [{ id := node }] } := by
    intro box b found
    rcases getElem?_concat_eq_some_iff.mp found with hold | ⟨-, rfl⟩
    · exact h box b hold
    · exact .of_idle rfl
  unfold register
  dsimp only
  split
  · exact closeMailbox_watched now _ henroll
  · exact henroll

/-- A shut down wakes the whole line of the node. -/
theorem shutdown_watched (now : Nat) (node : PeerId) (h : net.Watched place) :
    (net.shutdown now node).Watched place := by
  unfold Network.shutdown
  split
  · exact closeMailbox_watched now _ (h.of_eq rfl)
  · exact h

/-- A clear wakes everybody. -/
theorem clear_watched (now : Nat) (h : net.Watched place) : (net.clear now).Watched place := by
  unfold clear
  generalize net.nodes = nodes
  induction nodes generalizing net with
  | nil => exact h
  | cons node nodes ih => exact ih (shutdown_watched now node h)

/-- Switches wake nobody, and nobody waits for them. -/
theorem setSwitches_watched (box : MailboxId) (f : Switches → Switches) (h : net.Watched place) :
    (net.setSwitches box f).Watched place := by
  have hset (b : Mailbox) (looks : TaskId → Prop) (hb : b.Watched looks) :
      ({ b with switches := f b.switches } : Mailbox).Watched looks := hb.of_same rfl rfl rfl
  exact h.modifyMailbox hset box

/-- A detour changes requests where they are, so as many are awake as before. -/
theorem divert_watched (owner : TaskId) (other : PeerId) (h : net.Watched place) :
    (net.divert owner other).Watched place := by
  intro box b' found
  have found' : (net.mailboxes.map _)[box]? = some b' := found
  rw [List.getElem?_map] at found'
  obtain ⟨b, hb, rfl⟩ := Option.map_eq_some_iff.mp found'
  exact (h box b hb).of_same rfl rfl (List.length_map _)

/-! ### Takers -/

/-- A task that looks nowhere, or that has been woken, stands in no line. -/
theorem Watched.not_mem_takers (h : net.Watched place) (found : net.mailboxes[box]? = some b)
    (hidle : place t = none ∨ net.isWoken t box = true) : t ∉ b.takers := by
  rcases hidle with hnone | hwoken
  · intro ht
    rw [(h box b found).looking t ht] at hnone
    cases hnone
  · rw [isWoken, found] at hwoken
    exact of_decide_eq_true hwoken

/-- A taker that looks into its mailbox goes to the end of the line, or looks no more. -/
theorem takeFrom_watched (now : Nat) (h : net.Watched place) (hidle : place t = none ∨ place t = some box)
    (hwoken : place t = none ∨ net.isWoken t box = true) :
    (net.takeFrom now t box).1.Watched
      (Function.update place t (net.takeFrom now t box).2.looking?) := by
  have hothers (here : Option MailboxId) (u : TaskId) (other : MailboxId) (hne : other ≠ box)
      (hu : place u = some other) : Function.update place t here u = some other := by
    rcases eq_or_ne u t with rfl | hut
    · rcases hidle with hnone | hhere
      · cases hnone.symm.trans hu
      · cases hhere.symm.trans hu
        exact absurd rfl hne
    · rw [Function.update_of_ne hut]
      exact hu
  have hquits (u : TaskId) (hu : place u = some box ∧ u ≠ t) :
      Function.update place t none u = some box := by
    rw [Function.update_of_ne hu.2]
    exact hu.1
  have hglance := takeFrom_glance now t box net
  generalize net.takeFrom now t box = result at hglance ⊢
  cases hglance with
  | nowhere hnone =>
    intro other b found
    refine (h other b found).mono fun u hu => hothers _ u other ?_ hu
    rintro rfl
    cases hnone.symm.trans found
  | @shut b found hclosed =>
    have hidle : ({ b with wakeUp := false } : Mailbox).takers = [] := (h box b found).closed hclosed
    exact h.putBack (.of_idle hidle) (hothers none) rfl
  | @waits b found hopen hdropped =>
    have ht := h.not_mem_takers found hwoken
    refine h.putBack (((h box b found).join ht hopen).mono fun u hu => ?_) (hothers (some box)) rfl
    rcases hu with hu | rfl
    · rcases eq_or_ne u t with rfl | hut
      · exact Function.update_self ..
      · rw [Function.update_of_ne hut]
        exact hu
    · exact Function.update_self ..
  | @takes b dropped rest r found hopen hsplit hdropped hkept =>
    have ht := h.not_mem_takers found hwoken
    have hrest : rest.length ≤ b.requests.length - 1 := by
      rw [hsplit, List.length_append, List.length_cons]
      omega
    have hquit : ({ b with wakeUp := false, requests := rest } : Mailbox).Watched
        fun u => place u = some box ∧ u ≠ t := (h box b found).quit ht rfl rfl hrest
    have htaken : (net.handBack now box { b with wakeUp := false, requests := rest }
        (dropped.map (.dropped box t) ++ [.taken box t r])).Watched (Function.update place t none) :=
      h.putBack (hquit.mono hquits) (hothers none) rfl
    rcases receive_cases now box { b with wakeUp := false, requests := rest } r
        (net.handBack now box { b with wakeUp := false, requests := rest }
          (dropped.map (.dropped box t) ++ [.taken box t r])) with
      ⟨-, heq⟩ | ⟨-, heq⟩ | ⟨-, wake, heq⟩
    · rw [heq]
      exact htaken.of_eq rfl
    · rw [heq]
      exact htaken
    · rw [heq]
      exact htaken

/-- A taker that begins is in line where it looks, or has found what it looked for. -/
theorem beginTake_watched (now : Nat) (node : PeerId) (h : net.Watched place) (hidle : place t = none) :
    (net.beginTake now t node).1.Watched
      (Function.update place t (net.beginTake now t node).2.looking?) := by
  have hkept : net.Watched (Function.update place t none) := by
    rw [← hidle, Function.update_eq_self]
    exact h
  unfold beginTake
  split
  · exact hkept
  · dsimp only
    split
    · exact takeFrom_watched now h (.inl hidle) (.inl hidle)
    · exact hkept

/-- A taker that goes on leaves the line, or is back in it. -/
theorem turnTake_watched (now : Nat) {stage : Taking} (h : net.Watched place)
    (hplace : place t = stage.looking?) :
    (net.turnTake now t stage).1.Watched
      (Function.update place t (net.turnTake now t stage).2.looking?) := by
  have hkept : net.Watched (Function.update place t stage.looking?) := by
    rw [← hplace, Function.update_eq_self]
    exact h
  cases stage with
  | delayed box wake =>
    rw [turnTake]
    split
    · exact takeFrom_watched now h (.inl hplace) (.inl hplace)
    · exact hkept
  | looking box =>
    rw [turnTake]
    split
    · next hwoken => exact takeFrom_watched now h (.inr hplace) (.inr hwoken)
    · exact hkept
  | holding box r wake =>
    rw [turnTake]
    split <;> exact hkept

/-- A taker that is cancelled leaves the line, and passes on a wake-up that it has had. -/
theorem cancelTake_watched {stage : Taking} (h : net.Watched place) (hplace : place t = stage.looking?) :
    (net.cancelTake t stage).Watched (Function.update place t none) := by
  cases stage with
  | looking box =>
    intro other b' found
    obtain ⟨b, hb, rfl⟩ := getElem?_modify_eq_some_iff.mp found
    split
    · next heq =>
      subst heq
      refine ((h box b hb).leave t).mono fun u hu => ?_
      rw [Function.update_of_ne hu.2]
      exact hu.1
    · next hne =>
      refine (h other b hb).mono fun u hu => ?_
      have hut : u ≠ t := by
        rintro rfl
        exact hne (Option.some.inj (hplace.symm.trans hu))
      rw [Function.update_of_ne hut]
      exact hu
  | delayed box wake | holding box r wake =>
    have hnone : place t = none := hplace
    rw [← hnone, Function.update_eq_self]
    exact h

end Network

end Replica
