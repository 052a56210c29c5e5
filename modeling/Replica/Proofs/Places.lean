import Mathlib.Data.List.Basic
import Mathlib.Data.List.Forall2
import Replica.Time.Schedule

/-!
# Lists whose elements are known by their places

Reads, entries, calls and slips are kept in lists that only grow at the end, and are known by their
places in them. What is at a place after something was added at the end, or changed at one place.
-/

namespace Replica

variable {α : Type}

/-- After adding at the end: what was there before, and the new element at the new place. -/
theorem getElem?_concat_eq_some_iff {l : List α} {a b : α} {i : Nat} :
    (l ++ [a])[i]? = some b ↔ l[i]? = some b ∨ (i = l.length ∧ a = b) := by
  rw [List.getElem?_append]
  split
  · next hlt => simp [Nat.ne_of_lt hlt]
  · next hge =>
    have hnone : l[i]? = none := List.getElem?_eq_none (Nat.not_lt.mp hge)
    rw [hnone, List.getElem?_singleton]
    have hiff : i - l.length = 0 ↔ i = l.length := by omega
    simp [hiff]

/-- Whatever has a place keeps it when something is added at the end. -/
theorem getElem?_concat_of_some {l : List α} {a : α} (b : α) {i : Nat} (h : l[i]? = some a) :
    (l ++ [b])[i]? = some a :=
  getElem?_concat_eq_some_iff.mpr (.inl h)

/-- After a change at one place. -/
theorem getElem?_modify_eq_some_iff {l : List α} {f : α → α} {i j : Nat} {b : α} :
    (l.modify i f)[j]? = some b ↔ ∃ a, l[j]? = some a ∧ (if i = j then f a else a) = b := by
  rw [List.getElem?_modify, Option.map_eq_map, Option.map_eq_some_iff]

/-- What holds of all elements still holds when the one at a place is changed into one of which it
holds. -/
theorem forall_getElem?_modify {P : α → Prop} {l : List α} {f : α → α} {i : Nat} {a : α}
    (hl : ∀ (j : Nat) (b : α), l[j]? = some b → P b) (h : l[i]? = some a) (hf : P (f a)) (j : Nat)
    (b : α) (hb : (l.modify i f)[j]? = some b) : P b := by
  obtain ⟨c, hc, rfl⟩ := getElem?_modify_eq_some_iff.mp hb
  split
  · next heq =>
    subst heq
    exact Option.some.inj (hc.symm.trans h) ▸ hf
  · exact hl j c hc

theorem lt_length_of_getElem? {l : List α} {i : Nat} {a : α} (h : l[i]? = some a) :
    i < l.length :=
  (List.getElem?_eq_some_iff.mp h).1

theorem modify_concat {l : List α} {i : Nat} (f : α → α) (a : α) (h : i < l.length) :
    (l ++ [a]).modify i f = l.modify i f ++ [a] := by
  induction l generalizing i with
  | nil => cases h
  | cons b l ih =>
    cases i with
    | zero => rfl
    | succ i =>
      rw [List.cons_append, List.modify_succ_cons, List.modify_succ_cons, List.cons_append,
        ih (Nat.lt_of_succ_lt_succ h)]

/-- Adding a changed element is adding it and changing it then. -/
theorem concat_eq_modify {l : List α} (f : α → α) (a : α) :
    l ++ [f a] = (l ++ [a]).modify l.length f := by
  induction l with
  | nil => rfl
  | cons b l ih =>
    rw [List.cons_append, List.cons_append, List.length_cons, List.modify_succ_cons, ih]

/-- Putting a changed element back in its place is a change at that place. -/
theorem set_eq_modify {l : List α} {i : Nat} {a : α} (f : α → α) (h : l[i]? = some a) :
    l.set i (f a) = l.modify i f := by
  rw [List.modify_eq_set_getElem?, h]
  rfl

/-- Changing the elements at several places, one after the other, is changing each of them, if a
change that is made twice is made once. -/
theorem getElem?_foldl_modify {f : α → α} (hf : ∀ a, f (f a) = f a) (places : List Nat) (l : List α)
    (i : Nat) :
    (places.foldl (fun l k => l.modify k f) l)[i]? =
      if i ∈ places then l[i]?.map f else l[i]? := by
  induction places generalizing l with
  | nil => simp
  | cons k places ih =>
    rw [List.foldl_cons, ih, List.getElem?_modify]
    by_cases hk : k = i
    · subst hk
      simp [hf, Function.comp_def]
    · simp [hk, Ne.symm hk]

/-- Fewer elements have a property when the one at a place loses it. -/
theorem countP_modify_lt {p : α → Bool} {l : List α} {f : α → α} {i : Nat} {a : α}
    (h : l[i]? = some a) (hp : p a = true) (hf : p (f a) = false) :
    (l.modify i f).countP p < l.countP p := by
  induction l generalizing i with
  | nil => cases h
  | cons b l ih =>
    cases i with
    | zero =>
      cases h
      simp [hp, hf]
    | succ i =>
      have := ih (i := i) h
      simp only [List.modify_succ_cons, List.countP_cons]
      omega

/-- A sum after one summand has changed. -/
theorem foldr_add_set (f : α → Nat) {l : List α} {i : Nat} {a : α} (b : α) (found : l[i]? = some a) :
    (l.set i b).foldr (fun c n => f c + n) 0 + f a = l.foldr (fun c n => f c + n) 0 + f b := by
  induction l generalizing i with
  | nil => cases found
  | cons c l ih =>
    cases i with
    | zero =>
      cases found
      simp only [List.set_cons_zero, List.foldr_cons]
      omega
    | succ i =>
      have hrest := ih (i := i) found
      simp only [List.set_cons_succ, List.foldr_cons]
      omega

/-! ## Lists that are related place by place -/

section

variable {β : Type} {R : α → β → Prop} {l : List α} {l' : List β} {a : α} {b : β}

theorem exists_of_mem_left (h : List.Forall₂ R l l') (ha : a ∈ l) : ∃ b ∈ l', R a b := by
  induction h with
  | nil => cases ha
  | @cons _ b _ _ hR _ ih =>
    rcases List.mem_cons.mp ha with rfl | ha
    · exact ⟨b, List.mem_cons_self, hR⟩
    · obtain ⟨b, hb, hR⟩ := ih ha
      exact ⟨b, List.mem_cons_of_mem _ hb, hR⟩

theorem exists_of_mem_right (h : List.Forall₂ R l l') (hb : b ∈ l') : ∃ a ∈ l, R a b :=
  exists_of_mem_left h.flip hb

/-- What is known of all elements of the two lists may be used place by place. -/
theorem forall₂_mem (h : List.Forall₂ R l l') :
    List.Forall₂ (fun a b => (a ∈ l ∧ b ∈ l') ∧ R a b) l l' := by
  induction h with
  | nil => exact .nil
  | cons hR _ ih =>
    refine .cons ⟨⟨List.mem_cons_self, List.mem_cons_self⟩, hR⟩ (ih.imp fun a b hab => ⟨?_, hab.2⟩)
    exact ⟨List.mem_cons_of_mem _ hab.1.1, List.mem_cons_of_mem _ hab.1.2⟩

end

end Replica
