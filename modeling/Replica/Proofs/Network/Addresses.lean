import Replica.Proofs.Network.Balance
import Replica.Proofs.Network.Custody

/-!
# Whose requests are taken

A taker keeps to one mailbox of its node. As long as every request in a mailbox is addressed to the node
of the mailbox, whatever the taker comes to have is addressed to its own node (`takeFrom_isFor`): it never
has a request in hand that it would refuse, and the only error that it can end with is that its mailbox is
shut down. The journal shows it: each request was taken out of a mailbox of the node that it is addressed to
(`takeFrom_notes`).
-/

namespace Replica

open Network

variable {net net' net'' : Network} {box : MailboxId} {node : PeerId} {now : Nat} {t : TaskId}
variable {acts acts' : TaskId → PeerId → Prop} {written : List Occurrence} {what : Occurrence}

/-! ## What is written -/

/-- The entry says that a request was taken out of a mailbox of the node that it is addressed to, or that
it was given to a server by somebody who acts for that node. -/
def Occurrence.Addressed (net : Network) (acts : TaskId → PeerId → Prop) : Occurrence → Prop
  | .taken box _ r => net.Serves box r.replier
  | .handled t r => acts t r.replier
  | _ => True

theorem Occurrence.Addressed.mono (h : what.Addressed net acts)
    (hserves : ∀ box node, net.Serves box node → net'.Serves box node)
    (hacts : ∀ t node, acts t node → acts' t node) : what.Addressed net' acts' := by
  cases what with
  | taken box t r => exact hserves _ _ h
  | handled t r => exact hacts _ _ h
  | _ => trivial

theorem Occurrence.IsOutward.addressed (h : what.IsOutward) : what.Addressed net acts := by
  cases h <;> trivial

namespace Network

/-- Requests were taken out of mailboxes of the nodes that they are addressed to, and given to servers by
those who act for these nodes. -/
def Notes (acts : TaskId → PeerId → Prop) (net net' : Network) : Prop :=
  ∃ written, net'.story = net.story ++ written ∧ ∀ what ∈ written, what.Addressed net' acts

namespace Notes

theorem of_eq (h : net'.journal = net.journal) : Notes acts net net' :=
  ⟨[], by rw [story, story, h, List.append_nil], List.forall_mem_nil _⟩

theorem of_outward (hstory : net'.story = net.story ++ written) (h : ∀ what ∈ written, what.IsOutward) :
    Notes acts net net' :=
  ⟨written, hstory, fun what hmem => (h what hmem).addressed⟩

theorem mono (h : Notes acts net net') (hacts : ∀ t node, acts t node → acts' t node) :
    Notes acts' net net' := by
  obtain ⟨written, hstory, hwritten⟩ := h
  exact ⟨written, hstory, fun what hmem => (hwritten what hmem).mono (fun _ _ => id) hacts⟩

theorem trans (h : Notes acts net net') (h' : Notes acts net' net'')
    (hserves : ∀ box node, net'.Serves box node → net''.Serves box node) : Notes acts net net'' := by
  obtain ⟨written, hstory, hwritten⟩ := h
  obtain ⟨written', hstory', hwritten'⟩ := h'
  refine ⟨written ++ written', by rw [hstory', hstory, List.append_assoc], ?_⟩
  exact List.forall_mem_append.mpr
    ⟨fun what hmem => (hwritten what hmem).mono hserves fun _ _ => id, hwritten'⟩

end Notes

theorem Effects.notes {puts : MailboxId → Request → Prop} (h : Effects puts net net') :
    Notes acts net net' := by
  obtain ⟨written, hstory, hwritten⟩ := h.outward
  exact .of_outward hstory hwritten

/-- Whoever changes nodes and switches takes nothing. -/
theorem Resets.notes (h : Resets written net net') : Notes acts net net' := by
  refine ⟨written, h.story, fun what hmem => ?_⟩
  obtain ⟨box, requests, rfl⟩ := h.discards what hmem
  trivial

end Network

/-! ## Takers -/

/-- The taker keeps to a mailbox of the node, and the request that it holds back is addressed to the
node. -/
def Taking.Keeps (net : Network) (node : PeerId) : Taking → Prop
  | .delayed box _ | .looking box => net.Serves box node
  | .holding box r _ => net.Serves box node ∧ r.replier = node

theorem Taking.Keeps.mono {stage : Taking} (h : stage.Keeps net node)
    (hserves : ∀ box node, net.Serves box node → net'.Serves box node) : stage.Keeps net' node := by
  cases stage with
  | delayed box wake | looking box => exact hserves _ _ h
  | holding box r wake => exact ⟨hserves _ _ h.1, h.2⟩

namespace Network

/-- A taker for the node goes on, has got a request that is addressed to the node, or has found the mailbox
shut down. -/
def IsFor (net : Network) (node : PeerId) : TakeProgress → Prop
  | .waiting stage => stage.Keeps net node
  | .ended (.ok r) => r.replier = node
  | .ended (.error e) => e = .shutdown node

/-- A request for the node of the mailbox is not refused. -/
theorem receive_of_addressed (now : Nat) (box : MailboxId) {b : Mailbox} {r : Request} (net : Network)
    (h : r.replier = b.id) : ∃ progress, net.receive now box b r = (net, progress) ∧
      (progress = .ended (.ok r) ∨ ∃ wake, progress = .waiting (.holding box r wake)) := by
  rcases receive_cases now box b r net with ⟨hrefused, -⟩ | ⟨-, heq⟩ | ⟨-, wake, heq⟩
  · exact absurd h hrefused
  · exact ⟨_, heq, .inl rfl⟩
  · exact ⟨_, heq, .inr ⟨wake, rfl⟩⟩

theorem takeFrom_isFor (now : Nat) (t : TaskId) (hnet : net.Routed) (hbox : net.Serves box node) :
    IsFor (net.takeFrom now t box).1 node (net.takeFrom now t box).2 := by
  have hglance := takeFrom_glance now t box net
  have hserves : (net.takeFrom now t box).1.Serves box node := hglance.steady.serves hbox
  obtain ⟨b, found', rfl⟩ := hbox
  generalize net.takeFrom now t box = result at hglance hserves ⊢
  cases hglance with
  | nowhere hnone => exact hserves
  | shut found hclosed =>
    cases found.symm.trans found'
    rfl
  | waits found hopen hdropped => exact hserves
  | @takes _ dropped rest r found hopen hsplit hdropped hkept =>
    cases found.symm.trans found'
    have haddress : r.replier = b.id := hnet.queued box b found r (by simp [hsplit])
    obtain ⟨progress, heq, rfl | ⟨wake, rfl⟩⟩ := receive_of_addressed now box
      (b := { b with wakeUp := false, requests := rest })
      (net.handBack now box { b with wakeUp := false, requests := rest }
        (dropped.map (.dropped box t) ++ [.taken box t r])) haddress
    · rw [heq]
      exact haddress
    · rw [heq] at hserves ⊢
      exact ⟨hserves, haddress⟩

theorem takeFrom_notes (now : Nat) (t : TaskId) (box : MailboxId) (hnet : net.Routed) :
    Notes acts net (net.takeFrom now t box).1 := by
  have hglance := takeFrom_glance now t box net
  have hsteady := hglance.steady
  generalize net.takeFrom now t box = result at hglance hsteady ⊢
  have hdrops (net : Network) (requests : List Request) :
      ∀ what ∈ requests.map (Occurrence.dropped box t), what.Addressed net acts :=
    List.forall_mem_map.mpr fun _ _ => trivial
  cases hglance with
  | nowhere hnone => exact .of_eq rfl
  | shut found hclosed => exact ⟨[], handBack_story now box _ [] net, List.forall_mem_nil _⟩
  | waits found hopen hdropped => exact ⟨_, handBack_story now box _ _ net, hdrops _ _⟩
  | @takes b dropped rest r found hopen hsplit hdropped hkept =>
    have haddress : r.replier = b.id := hnet.queued box b found r (by simp [hsplit])
    obtain ⟨progress, heq, -⟩ := receive_of_addressed now box
      (b := { b with wakeUp := false, requests := rest })
      (net.handBack now box { b with wakeUp := false, requests := rest }
        (dropped.map (.dropped box t) ++ [.taken box t r])) haddress
    rw [heq] at hsteady ⊢
    refine ⟨_, handBack_story now box _ _ net, List.forall_mem_append.mpr ⟨hdrops _ dropped, ?_⟩⟩
    exact List.forall_mem_singleton.mpr (hsteady.serves ⟨b, found, haddress.symm⟩)

theorem beginTake_isFor (now : Nat) (t : TaskId) (node : PeerId) (hnet : net.Routed) :
    IsFor (net.beginTake now t node).1 node (net.beginTake now t node).2 := by
  unfold beginTake
  split
  · rfl
  · next box hbox =>
    have hserves := hnet.registered _ _ (Registry.mem_of_get? hbox)
    dsimp only
    split
    · exact takeFrom_isFor now t hnet hserves
    · exact hserves

theorem turnTake_isFor (now : Nat) (t : TaskId) {stage : Taking} (hnet : net.Routed)
    (h : stage.Keeps net node) : IsFor (net.turnTake now t stage).1 node (net.turnTake now t stage).2 := by
  cases stage with
  | delayed box wake =>
    rw [turnTake]
    split
    · exact takeFrom_isFor now t hnet h
    · exact h
  | looking box =>
    rw [turnTake]
    split
    · exact takeFrom_isFor now t hnet h
    · exact h
  | holding box r wake =>
    rw [turnTake]
    split
    · exact h.2
    · exact h

theorem beginTake_notes (now : Nat) (t : TaskId) (node : PeerId) (hnet : net.Routed) :
    Notes acts net (net.beginTake now t node).1 := by
  unfold beginTake
  split
  · exact .of_eq rfl
  · dsimp only
    split
    · exact takeFrom_notes now t _ hnet
    · exact .of_eq rfl

theorem turnTake_notes (now : Nat) (t : TaskId) (stage : Taking) (hnet : net.Routed) :
    Notes acts net (net.turnTake now t stage).1 := by
  cases stage with
  | delayed box wake | looking box =>
    rw [turnTake]
    split
    · exact takeFrom_notes now t box hnet
    · exact .of_eq rfl
  | holding box r wake =>
    rw [turnTake]
    split <;> exact .of_eq rfl

end Network

end Replica
