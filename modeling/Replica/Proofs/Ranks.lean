import Mathlib.Algebra.BigOperators.Group.List.Defs
import Replica.Proofs.Places

/-!
# Ranks

When a list is filtered, what is at a place goes to the rank of the place: to the number of those before
it that are kept (`List.countPBefore`). Ranks do not change when something is added at the end
(`countPBefore_append`), or when a change at some place leaves alone who is kept (`countPBefore_modify`),
and a change at a place is a change at its rank (`filter_modify_of_pos`).
-/

namespace Replica

variable {α β : Type} {p q : α → Bool} {l : List α} {i j : Nat} {a : α}

/-! ## Ranks -/

theorem countPBefore_append {l' : List α} (h : i ≤ l.length) :
    (l ++ l').countPBefore p i = l.countPBefore p i := by
  rw [List.countPBefore_eq_countP_take, List.countPBefore_eq_countP_take,
    List.take_append_of_le_length h]

theorem countPBefore_map {f : β → α} {l : List β} :
    (l.map f).countPBefore p i = l.countPBefore (p ∘ f) i := by
  rw [List.countPBefore_eq_countP_take, List.countPBefore_eq_countP_take, ← List.map_take,
    List.countP_map]

theorem countPBefore_modify {f : α → α} (hf : ∀ a, p (f a) = p a) :
    (l.modify j f).countPBefore p i = l.countPBefore p i := by
  induction l generalizing i j with
  | nil => simp
  | cons b l ih => cases i <;> cases j <;> simp [hf, ih]

/-- The place of what is kept last of all is their number. -/
theorem countPBefore_length_eq : l.countPBefore p l.length = (l.filter p).length := by
  rw [List.countPBefore_length, List.countP_eq_length_filter]

/-- What is kept goes to its rank. -/
theorem getElem?_filter_countPBefore (h : l[i]? = some a) (hp : p a = true) :
    (l.filter p)[l.countPBefore p i]? = some a := by
  induction l generalizing i with
  | nil => cases h
  | cons b l ih =>
    cases i with
    | zero =>
      cases h
      simp [hp]
    | succ i =>
      have hrest := ih (i := i) h
      by_cases hb : p b = true <;> simp [hb, hrest]

/-- Of those that are kept, no two have the same rank. -/
theorem countPBefore_inj {b : α} (hi : l[i]? = some a) (ha : p a = true) (hj : l[j]? = some b)
    (hb : p b = true) (h : l.countPBefore p i = l.countPBefore p j) : i = j := by
  obtain ⟨hlt, rfl⟩ := List.getElem?_eq_some_iff.mp hi
  obtain ⟨hlt', rfl⟩ := List.getElem?_eq_some_iff.mp hj
  rw [← List.findIdxNth_countPBefore_of_lt_length_of_pos ha, h,
    List.findIdxNth_countPBefore_of_lt_length_of_pos hb]

/-- Of those that are kept, the first with a property is the first of all with it, and so on. -/
theorem findIdxNth_filter (hq : ∀ a, q a = true → p a = true) (n : Nat) :
    (l.filter p).findIdxNth q n = l.countPBefore p (l.findIdxNth q n) := by
  induction l generalizing n with
  | nil => rfl
  | cons b l ih =>
    by_cases hqb : q b = true
    · have hpb := hq b hqb
      cases n <;> simp [hpb, hqb, ih]
    · by_cases hpb : p b = true <;> cases n <;> simp [hpb, hqb, ih]

/-! ## Changes -/

/-- A change of one that is kept is a change at its rank. -/
theorem filter_modify_of_pos {f : α → α} (hf : ∀ a, p (f a) = p a) (h : l[i]? = some a)
    (hp : p a = true) : (l.modify i f).filter p = (l.filter p).modify (l.countPBefore p i) f := by
  induction l generalizing i with
  | nil => cases h
  | cons b l ih =>
    cases i with
    | zero =>
      cases h
      simp [hf, hp]
    | succ i =>
      have hrest := ih (i := i) h
      by_cases hb : p b = true <;> simp [hb, hrest]

/-- A change of one that is not kept does not matter. -/
theorem filter_modify_of_neg {f : α → α} (hf : ∀ a, p (f a) = p a) (hp : ∀ a, l[i]? = some a → p a = false) :
    (l.modify i f).filter p = l.filter p := by
  induction l generalizing i with
  | nil => simp
  | cons b l ih =>
    cases i with
    | zero =>
      have hb := hp b rfl
      simp [hf, hb]
    | succ i =>
      have hrest := ih (i := i) hp
      by_cases hb : p b = true <;> simp [hb, hrest]

/-- Changes at one place and at the same place after a map, when the map turns one into the other. -/
theorem map_modify {f : α → β} {g : α → α} {g' : β → β} (h : l[i]? = some a)
    (hg : f (g a) = g' (f a)) : (l.modify i g).map f = (l.map f).modify i g' := by
  induction l generalizing i with
  | nil => cases h
  | cons b l ih =>
    cases i with
    | zero =>
      cases h
      simp [hg]
    | succ i =>
      have hrest := ih (i := i) h
      simp [hrest]

end Replica
