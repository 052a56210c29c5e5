import Mathlib
import Replica.Text.Digits

/-!
# Numbers in hexadecimal digits

A text is read as a number just if it is, in lower case, what is written for that number
(`number?_eq_some_iff`). So digits that are written are read back as the number (`number?_padded`).
-/

namespace Replica.Text.Hex

variable {c : Char} {cs : List Char} {k n width : Nat}

/-! ## One digit -/

/-- The letters from `A` to `Z` are moved to those from `a` to `z`, and nothing else is. -/
theorem toNat_toLower (c : Char) :
    c.toLower.toNat = if 65 ≤ c.toNat ∧ c.toNat ≤ 90 then c.toNat + 32 else c.toNat := by
  simp only [Char.toLower, Char.toNat, ge_iff_le, UInt32.le_iff_toNat_le]
  split
  · next h =>
    have hupper : c.val.toNat ≤ 90 := h.2
    have hmoved : (c.val + ('a'.val - 'A'.val)).toNat = c.val.toNat + 32 := by
      rw [UInt32.toNat_add, Nat.mod_eq_of_lt]
      · rfl
      · exact Nat.lt_of_le_of_lt (Nat.add_le_add_right hupper _) (by decide)
    rw [hmoved]
    exact (if_pos h).symm
  · next h => exact (if_neg h).symm

theorem toNat_digit (h : k < 16) : (digit k).toNat = if k < 10 then 48 + k else 87 + k := by
  have hall : ∀ k < 16, (digit k).toNat = if k < 10 then 48 + k else 87 + k := by decide
  exact hall k h

theorem value?_eq (c : Char) :
    value? c = if 48 ≤ c.toNat ∧ c.toNat ≤ 57 then some (c.toNat - 48)
      else if 97 ≤ c.toNat ∧ c.toNat ≤ 102 then some (c.toNat - 97 + 10)
      else if 65 ≤ c.toNat ∧ c.toNat ≤ 70 then some (c.toNat - 65 + 10)
      else none := by
  have hle (a b : Char) : a ≤ b ↔ a.toNat ≤ b.toNat := UInt32.le_iff_toNat_le
  simp only [value?, hle]
  rfl

/-- A digit is read in either case. -/
theorem value?_eq_some_iff : value? c = some k ↔ k < 16 ∧ c.toLower = digit k := by
  have hcode (hk : k < 16) : c.toLower = digit k ↔
      (if 65 ≤ c.toNat ∧ c.toNat ≤ 90 then c.toNat + 32 else c.toNat) =
        if k < 10 then 48 + k else 87 + k := by
    rw [← toNat_toLower, ← toNat_digit hk, Char.toNat_inj]
  rw [value?_eq]
  constructor
  · intro h
    have hk : k < 16 := by
      split_ifs at h <;> cases h <;> omega
    refine ⟨hk, (hcode hk).mpr ?_⟩
    split_ifs at h <;> cases h <;> split_ifs <;> omega
  · rintro ⟨hk, h⟩
    have hsame := (hcode hk).mp h
    split_ifs at hsame ⊢ <;> first | omega | exact congrArg some (by omega)

/-! ## Numbers -/

theorem number?_concat (cs : List Char) (c : Char) :
    number? (cs ++ [c]) = (number? cs).bind fun n => (value? c).map (16 * n + ·) := by
  simp [number?, List.foldlM_append]

@[simp] theorem length_padded (width n : Nat) : (padded width n).length = width := by
  induction width generalizing n with
  | zero => rfl
  | succ width ih => simp [padded, ih]

/-- A text is read as a number just if it is, in lower case, what is written for the number. -/
theorem number?_eq_some_iff :
    number? cs = some n ↔ n < 16 ^ cs.length ∧ cs.map Char.toLower = padded cs.length n := by
  induction cs using List.reverseRecOn generalizing n with
  | nil => simp [number?, padded, eq_comm]
  | append_singleton cs c ih =>
    have hlast : (cs ++ [c]).map Char.toLower = padded (cs ++ [c]).length n ↔
        cs.map Char.toLower = padded cs.length (n / 16) ∧ c.toLower = digit (n % 16) := by
      rw [List.map_append, List.length_append, List.length_singleton, padded, List.map_singleton]
      exact List.append_singleton_inj
    have hbound : n < 16 ^ (cs ++ [c]).length ↔ n / 16 < 16 ^ cs.length := by
      rw [List.length_append, List.length_singleton, Nat.pow_succ, Nat.div_lt_iff_lt_mul (by omega)]
    rw [number?_concat, Option.bind_eq_some_iff, hlast, hbound]
    simp only [Option.map_eq_some_iff, ih, value?_eq_some_iff]
    constructor
    · rintro ⟨m, ⟨hm, hcs⟩, k, ⟨hk, hc⟩, rfl⟩
      have hdiv : (16 * m + k) / 16 = m := by omega
      have hmod : (16 * m + k) % 16 = k := by omega
      rw [hdiv, hmod]
      exact ⟨hm, hcs, hc⟩
    · rintro ⟨hm, hcs, hc⟩
      exact ⟨n / 16, ⟨hm, hcs⟩, n % 16, ⟨Nat.mod_lt n (by omega), hc⟩, Nat.div_add_mod n 16⟩

theorem toLower_padded (width n : Nat) : (padded width n).map Char.toLower = padded width n := by
  have hdigit : ∀ k < 16, (digit k).toLower = digit k := by decide
  induction width generalizing n with
  | zero => rfl
  | succ width ih => simp [padded, ih, hdigit (n % 16) (Nat.mod_lt n (by omega))]

/-- What is written is read back. -/
theorem number?_padded (h : n < 16 ^ width) : number? (padded width n) = some n := by
  rw [number?_eq_some_iff, length_padded]
  exact ⟨h, toLower_padded width n⟩

end Replica.Text.Hex
