import Mathlib.Data.List.Forall2
import Replica.Json.Basic

/-!
# Fields of records

What the fields of a record are in a JSON value, when some of them may be absent (`Sparse`) and when all of
them have to be there (`Record`). In an object each field is looked up by its name, wherever it stands and
whatever else is there (`lookup_of_mem`); in an array the fields stand in order.
-/

namespace Replica.Json

variable {names : List String} {j : Json} {fields : List Json} {found : List (Option Json)}
variable {members : List (String × Json)}

/-- The fields of the given names, some of which may be absent. -/
inductive Sparse (names : List String) : Json → List (Option Json) → Prop where
  | object (members : List (String × Json)) :
    Sparse names (.obj members) (names.map fun name => members.lookup name)
  | array (items : List Json) (missing : Nat) (h : items.length + missing = names.length) :
    Sparse names (.arr items) (items.map some ++ List.replicate missing none)

/-- The fields of the given names, all of which are there. -/
inductive Record (names : List String) : Json → List Json → Prop where
  | object (members : List (String × Json)) (fields : List Json)
    (h : List.Forall₂ (fun name field => members.lookup name = some field) names fields) :
    Record names (.obj members) fields
  | array (fields : List Json) (h : fields.length = names.length) : Record names (.arr fields) fields

theorem sparse?_eq_some_iff : j.sparse? names = some found ↔ Sparse names j found := by
  constructor
  · intro h
    unfold sparse? at h
    split at h
    · next members =>
      cases h
      exact .object members
    · next items =>
      split at h
      · next hlength =>
        cases h
        exact .array items _ (Nat.add_sub_cancel' hlength)
      · cases h
    · cases h
  · rintro (⟨members⟩ | ⟨items, missing, h⟩)
    · rfl
    · rw [sparse?, if_pos (Nat.le_of_add_right_le (Nat.le_of_eq h)), ← h, Nat.add_sub_cancel_left]

/-- All elements are there, and nothing else. -/
theorem mapM_eq_some_iff {α β : Type} {f : α → Option β} {as : List α} {bs : List β} :
    as.mapM f = some bs ↔ List.Forall₂ (fun a b => f a = some b) as bs := by
  induction as generalizing bs with
  | nil => cases bs <;> simp
  | cons a as ih => cases bs <;> simp [Option.bind_eq_some_iff, ih]

theorem record?_eq_some_iff : j.record? names = some fields ↔ Record names j fields := by
  rw [record?, Option.bind_eq_some_iff]
  simp only [sparse?_eq_some_iff, mapM_eq_some_iff]
  constructor
  · rintro ⟨all, hsparse, hall⟩
    cases hsparse with
    | object members => exact .object members fields (List.forall₂_map_left_iff.mp hall)
    | array items missing h =>
      have heq : items.map some ++ List.replicate missing none = fields.map some :=
        List.forall₂_eq_eq_eq ▸ List.forall₂_map_right_iff.mpr hall
      -- no field is missing
      have hnone : missing = 0 := by
        by_contra hmissing
        have hmem : none ∈ fields.map some :=
          heq ▸ List.mem_append_right _ (List.mem_replicate.mpr ⟨hmissing, rfl⟩)
        simp at hmem
      rw [hnone, Nat.add_zero] at h
      rw [hnone, List.replicate_zero, List.append_nil] at heq
      rw [← List.map_injective_iff.mpr (fun _ _ => Option.some.inj) heq]
      exact .array items h
  · intro h
    cases h with
    | object members fields h => exact ⟨_, .object members, List.forall₂_map_left_iff.mpr h⟩
    | array fields h =>
      have hsparse : Sparse names (.arr fields) (fields.map some ++ []) := .array fields 0 h
      rw [List.append_nil] at hsparse
      exact ⟨_, hsparse, List.forall₂_map_left_iff.mpr (List.forall₂_same.mpr fun _ _ => rfl)⟩

theorem Sparse.length_eq (h : Sparse names j found) : found.length = names.length := by
  cases h with
  | object members => rw [List.length_map]
  | array items missing h => rw [List.length_append, List.length_map, List.length_replicate, h]

theorem Record.length_eq (h : Record names j fields) :
    fields.length = names.length := by
  cases h with
  | object members fields h => exact h.length_eq.symm
  | array fields h => exact h

/-- In an object without repeated names, every member is found by its name. -/
theorem lookup_of_mem {name : String} {field : Json} (distinct : (members.map (·.1)).Nodup)
    (hmem : (name, field) ∈ members) : members.lookup name = some field := by
  induction members with
  | nil => cases hmem
  | cons m members ih =>
    rw [List.map_cons, List.nodup_cons] at distinct
    rcases List.mem_cons.mp hmem with rfl | hmem
    · exact List.lookup_cons_self
    · have hne : (name == m.1) = false := by
        rw [beq_eq_false_iff_ne]
        rintro rfl
        exact distinct.1 (List.mem_map.mpr ⟨_, hmem, rfl⟩)
      rw [List.lookup_cons, hne]
      exact ih distinct.2 hmem

end Replica.Json
