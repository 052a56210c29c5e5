import Mathlib.Data.List.Perm.Subperm
import Replica.Proofs.Network.Custody

/-!
# Counting requests

The story of a network tells of each request under which mailbox it was put in and taken out, and under
which task it was kept and given to a server. If the accounts of every mailbox and of every task are in
order, then no more requests were given to servers than were put into mailboxes
(`handedOver_subperm_posted`).
-/

namespace Replica

namespace Occurrence

/-- The request that was put into a mailbox, with the mailbox. -/
def posting? : Occurrence → Option (MailboxId × Request)
  | sent box r => some (box, r.plain)
  | _ => none

/-- The request that was taken out of a mailbox, with the mailbox. -/
def popping? : Occurrence → Option (MailboxId × Request)
  | taken box _ r | dropped box _ r => some (box, r.plain)
  | _ => none

/-- The request that was taken to be kept, with the task that took it. -/
def grasping? : Occurrence → Option (TaskId × Request)
  | taken _ t r => some (t, r.plain)
  | _ => none

/-- The request that was given to a server, with the worker that gave it. -/
def handing? : Occurrence → Option (TaskId × Request)
  | handled t r => some (t, r.plain)
  | _ => none

end Occurrence

namespace Network

variable {story : List Occurrence} {κ : Type} [DecidableEq κ]

/-- The requests that were put into mailboxes. -/
def posted (story : List Occurrence) : List Request := (story.filterMap (·.posting?)).map (·.2)

/-- The requests that tasks took to keep them. -/
def grasped (story : List Occurrence) : List Request := (story.filterMap (·.grasping?)).map (·.2)

/-- The requests that workers gave to their servers. -/
def handedOver (story : List Occurrence) : List Request := (story.filterMap (·.handing?)).map (·.2)

/-- If under every key there are no more values in one list than in another, there are no more at
all. -/
theorem subperm_of_keyed {α : Type} [DecidableEq α] {l l' : List (κ × α)}
    (h : ∀ k, ((l.filter (·.1 = k)).map (·.2)).Subperm ((l'.filter (·.1 = k)).map (·.2))) :
    (l.map (·.2)).Subperm (l'.map (·.2)) := by
  have hcount (l : List (κ × α)) (k : κ) (a : α) :
      ((l.filter (·.1 = k)).map (·.2)).count a = l.count (k, a) := by
    induction l with
    | nil => rfl
    | cons p l ih =>
      obtain ⟨k', a'⟩ := p
      by_cases hk : k' = k <;> by_cases ha : a' = a <;> simp [hk, ha, ih]
  have hpairs : l.Subperm l' := by
    refine List.subperm_ext_iff.mpr fun p _ => ?_
    rw [← hcount, ← hcount]
    exact (h p.1).count_le p.2
  obtain ⟨l₁, hperm, hsub⟩ := hpairs
  exact ⟨l₁.map (·.2), hperm.map _, hsub.map _⟩

/-- What is found under a key in one view of the story is what another view shows. -/
theorem filter_keyed {f : Occurrence → Option (κ × Request)} {g : Occurrence → Option Request} {k : κ}
    (h : ∀ what, ((f what).filter (·.1 = k)).map (·.2) = (g what).map Request.plain)
    (story : List Occurrence) :
    ((story.filterMap f).filter (·.1 = k)).map (·.2) = (story.filterMap g).map Request.plain := by
  rw [List.filter_filterMap, List.map_filterMap, List.map_filterMap]
  exact congrArg (story.filterMap ·) (funext h)

theorem hands_eq (t : TaskId) (story : List Occurrence) :
    hands t story = ((story.filterMap (·.handing?)).filter (·.1 = t)).map (·.2) := by
  refine (filter_keyed (fun what => ?_) story).symm
  cases what with
  | handled t' r => by_cases ht : t' = t <;> simp [Occurrence.handing?, Occurrence.handed?, ht]
  | _ => rfl

theorem grasps_eq (t : TaskId) (story : List Occurrence) :
    grasps t story = ((story.filterMap (·.grasping?)).filter (·.1 = t)).map (·.2) := by
  refine (filter_keyed (fun what => ?_) story).symm
  cases what with
  | taken box t' r => by_cases ht : t' = t <;> simp [Occurrence.grasping?, Occurrence.grasped?, ht]
  | _ => rfl

theorem pops_eq (box : MailboxId) (story : List Occurrence) :
    pops box story = ((story.filterMap (·.popping?)).filter (·.1 = box)).map (·.2) := by
  refine (filter_keyed (fun what => ?_) story).symm
  cases what with
  | taken box' t r =>
    by_cases hbox : box' = box <;> simp [Occurrence.popping?, Occurrence.popped?, hbox]
  | dropped box' t r =>
    by_cases hbox : box' = box <;> simp [Occurrence.popping?, Occurrence.popped?, hbox]
  | _ => rfl

theorem pushes_eq (box : MailboxId) (story : List Occurrence) :
    pushes box story = ((story.filterMap (·.posting?)).filter (·.1 = box)).map (·.2) := by
  refine (filter_keyed (fun what => ?_) story).symm
  cases what with
  | sent box' r => by_cases hbox : box' = box <;> simp [Occurrence.posting?, Occurrence.pushed?, hbox]
  | _ => rfl

/-- What was taken to be kept was taken out of a mailbox. -/
theorem grasped_sublist_popped (story : List Occurrence) :
    (grasped story).Sublist ((story.filterMap (·.popping?)).map (·.2)) := by
  induction story with
  | nil => exact .slnil
  | cons what story ih =>
    cases what with
    | taken box t r => exact ih.cons_cons r.plain
    | dropped box t r => exact ih.cons r.plain
    | _ => exact ih

/-- What was taken to be kept was put into mailboxes before, and nothing of it twice. -/
theorem grasped_subperm_posted (hpops : ∀ box, (pops box story).Subperm (pushes box story)) :
    (grasped story).Subperm (posted story) := by
  have hpopped : ((story.filterMap (·.popping?)).map (·.2)).Subperm (posted story) :=
    subperm_of_keyed fun box => pops_eq box story ▸ pushes_eq box story ▸ hpops box
  exact (grasped_sublist_popped story).subperm.trans hpopped

/-- What workers gave to their servers was put into mailboxes before, and nothing of it twice. -/
theorem handedOver_subperm_posted (hhands : ∀ t, (hands t story).Subperm (grasps t story))
    (hpops : ∀ box, (pops box story).Subperm (pushes box story)) :
    (handedOver story).Subperm (posted story) := by
  have hhanded : (handedOver story).Subperm (grasped story) :=
    subperm_of_keyed fun t => hands_eq t story ▸ grasps_eq t story ▸ hhands t
  exact hhanded.trans (grasped_subperm_posted hpops)

end Network

end Replica
