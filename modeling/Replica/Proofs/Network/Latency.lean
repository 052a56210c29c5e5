import Replica.Network.Settings

/-!
# What latencies there are

The middle of the range is a tenth of the nominal latency, and the spread is a third of that, which is a
thirtieth of the nominal latency. So twice the spread is a word, the sum of a draw and the middle is a word,
and the spread is not more than the sum: all steps can be carried out (`sampleAny?_eq`). Nothing is drawn
where the spread is nothing.

From `middle - spread` on there are as many latencies as there are draws, one for each draw in their order
(`toNat_sample`), so the latencies are those of the range, and each of them is met (`exists_sample_iff`).
-/

namespace Replica.Latency

variable {nominal draw : UInt64}

/-! ## The range -/

theorem toNat_middle (nominal : UInt64) : (middle nominal).toNat = nominal.toNat / 10 :=
  UInt64.toNat_div nominal 10

theorem toNat_spread_eq_third (nominal : UInt64) :
    (spread nominal).toNat = (middle nominal).toNat / 3 :=
  UInt64.toNat_div (middle nominal) 3

theorem toNat_spread (nominal : UInt64) : (spread nominal).toNat = nominal.toNat / 30 := by
  rw [toNat_spread_eq_third, toNat_middle]
  exact Nat.div_div_eq_div_mul _ _ _

theorem spread_eq_zero_iff : spread nominal = 0 ↔ nominal.toNat < 30 := by
  rw [← UInt64.toNat_inj, toNat_spread]
  show nominal.toNat / 30 = 0 ↔ nominal.toNat < 30
  omega

theorem middle_eq_zero (h : nominal.toNat < 10) : middle nominal = 0 := by
  rw [← UInt64.toNat_inj, toNat_middle]
  exact Nat.div_eq_of_lt h

/-- Twice the spread is a word. -/
theorem two_mul_spread_lt (nominal : UInt64) : 2 * (spread nominal).toNat < UInt64.size := by
  have hlt : nominal.toNat < UInt64.size := nominal.toNat_lt_size
  rw [toNat_spread]
  omega

theorem toNat_choices (nominal : UInt64) : (choices nominal).toNat = 2 * (spread nominal).toNat := by
  rw [choices, UInt64.toNat_mul]
  exact Nat.mod_eq_of_lt (two_mul_spread_lt nominal)

/-- There is something to draw from where there is a spread, and only there. -/
theorem choices_eq_zero_iff : choices nominal = 0 ↔ spread nominal = 0 := by
  rw [← UInt64.toNat_inj, ← UInt64.toNat_inj, toNat_choices]
  show 2 * (spread nominal).toNat = 0 ↔ (spread nominal).toNat = 0
  omega

theorem mod_choices_lt (h : spread nominal ≠ 0) (number : UInt64) :
    number % choices nominal < choices nominal :=
  UInt64.mod_lt number (UInt64.pos_iff_ne_zero.mpr (mt choices_eq_zero_iff.mp h))

theorem spread_ne_zero_of_lt (h : draw < choices nominal) : spread nominal ≠ 0 := by
  intro hzero
  rw [choices_eq_zero_iff.mpr hzero] at h
  exact UInt64.not_lt_zero h

/-! ## Latencies -/

theorem sample_of_narrow (h : spread nominal = 0) (draw : UInt64) :
    sample nominal draw = middle nominal := by
  by_cases hzero : nominal = 0
  · subst hzero
    rfl
  · rw [sample, if_neg hzero, if_pos h]

theorem sample_of_wide (h : spread nominal ≠ 0) (draw : UInt64) :
    sample nominal draw = draw + middle nominal - spread nominal := by
  have hne : nominal ≠ 0 := by
    rintro rfl
    exact h rfl
  rw [sample, if_neg hne, if_neg h]

/-- The sum of a draw and the middle is a word. -/
theorem draw_add_middle_lt (h : draw < choices nominal) :
    draw.toNat + (middle nominal).toNat < UInt64.size := by
  have hlt : nominal.toNat < UInt64.size := nominal.toNat_lt_size
  have hdraw := UInt64.lt_iff_toNat_lt.mp h
  rw [toNat_choices, toNat_spread] at hdraw
  rw [toNat_middle]
  omega

theorem toNat_draw_add_middle (h : draw < choices nominal) :
    (draw + middle nominal).toNat = draw.toNat + (middle nominal).toNat := by
  rw [UInt64.toNat_add]
  exact Nat.mod_eq_of_lt (draw_add_middle_lt h)

/-- The spread is not more than the sum of a draw and the middle. -/
theorem spread_le (h : draw < choices nominal) : spread nominal ≤ draw + middle nominal := by
  rw [UInt64.le_iff_toNat_le, toNat_draw_add_middle h, toNat_spread_eq_third]
  omega

theorem toNat_sample (h : draw < choices nominal) :
    (sample nominal draw).toNat = (middle nominal).toNat - (spread nominal).toNat + draw.toNat := by
  have hthird := toNat_spread_eq_third nominal
  rw [sample_of_wide (spread_ne_zero_of_lt h), UInt64.toNat_sub_of_le _ _ (spread_le h),
    toNat_draw_add_middle h]
  omega

/-- The latencies are those from `middle - spread` on that come before `middle + spread`. -/
theorem exists_sample_iff (ms : Nat) :
    (∃ draw, draw < choices nominal ∧ (sample nominal draw).toNat = ms) ↔
      (middle nominal).toNat - (spread nominal).toNat ≤ ms ∧
        ms < (middle nominal).toNat + (spread nominal).toNat := by
  have hthird := toNat_spread_eq_third nominal
  have hchoices := toNat_choices nominal
  constructor
  · rintro ⟨draw, hdraw, rfl⟩
    have hlt := UInt64.lt_iff_toNat_lt.mp hdraw
    rw [toNat_sample hdraw]
    omega
  · rintro ⟨hlow, hhigh⟩
    -- the draw is how far the latency is from the lowest one
    let draw := UInt64.ofNat (ms - ((middle nominal).toNat - (spread nominal).toNat))
    have hword := two_mul_spread_lt nominal
    have hdraw : draw.toNat = ms - ((middle nominal).toNat - (spread nominal).toNat) :=
      UInt64.toNat_ofNat_of_lt' (by omega)
    have hlt : draw < choices nominal := by
      rw [UInt64.lt_iff_toNat_lt]
      omega
    refine ⟨draw, hlt, ?_⟩
    rw [toNat_sample hlt]
    omega

/-- A number below `choices` is the draw itself. -/
theorem sampleAny_of_lt (h : draw < choices nominal) : sampleAny nominal draw = sample nominal draw := by
  have hlt := UInt64.lt_iff_toNat_lt.mp h
  have hmod : draw % choices nominal = draw := by
    rw [← UInt64.toNat_inj, UInt64.toNat_mod]
    exact Nat.mod_eq_of_lt hlt
  rw [sampleAny, hmod]

theorem le_sampleAny (nominal number : UInt64) :
    (middle nominal).toNat - (spread nominal).toNat ≤ (sampleAny nominal number).toNat := by
  rw [sampleAny]
  by_cases h : spread nominal = 0
  · rw [sample_of_narrow h]
    exact Nat.sub_le _ _
  · rw [toNat_sample (mod_choices_lt h number)]
    exact Nat.le_add_right _ _

/-- The latencies that are admitted are those that some number leads to. -/
theorem admits_iff (nominal : UInt64) (ms : Nat) :
    admits nominal ms = true ↔ ∃ number, (sampleAny nominal number).toNat = ms := by
  have hmiddle := toNat_middle nominal
  have hthird := toNat_spread_eq_third nominal
  by_cases h : spread nominal = 0
  · have hzero : nominal.toNat / 10 / 3 = 0 := by
      rw [← hmiddle, ← hthird, h]
      rfl
    simp only [admits, hzero, if_true, beq_iff_eq, sampleAny, sample_of_narrow h, hmiddle, exists_const]
    exact eq_comm
  · have hne : nominal.toNat / 10 / 3 ≠ 0 := by
      rw [← hmiddle, ← hthird]
      exact fun hzero => h (UInt64.toNat_inj.mp hzero)
    simp only [admits, if_neg hne, decide_eq_true_eq]
    rw [← hmiddle, ← hthird, ← exists_sample_iff]
    constructor
    · rintro ⟨draw, hdraw, rfl⟩
      exact ⟨draw, congrArg _ (sampleAny_of_lt hdraw)⟩
    · rintro ⟨number, rfl⟩
      exact ⟨_, mod_choices_lt h number, rfl⟩

/-! ## Step by step -/

/-- The sum, if it is not too large for a word. -/
def add? (a b : UInt64) : Option UInt64 :=
  if a.toNat + b.toNat < UInt64.size then some (a + b) else none

/-- The difference, if it is not negative. -/
def sub? (a b : UInt64) : Option UInt64 := if b ≤ a then some (a - b) else none

/-- The product, if it is not too large for a word. -/
def mul? (a b : UInt64) : Option UInt64 :=
  if a.toNat * b.toNat < UInt64.size then some (a * b) else none

/-- A draw below `width`, if there is anything to draw from. -/
def below? (width number : UInt64) : Option UInt64 :=
  if width = 0 then none else some (number % width)

/-- The latency for a number, step by step, if every step can be carried out. -/
def sampleAny? (nominal number : UInt64) : Option UInt64 :=
  if nominal = 0 then some 0
  else if spread nominal = 0 then some (middle nominal)
  else do
    let width ← mul? 2 (spread nominal)
    let draw ← below? width number
    let sum ← add? draw (middle nominal)
    sub? sum (spread nominal)

/-- Every step can be carried out. -/
theorem sampleAny?_eq (nominal number : UInt64) :
    sampleAny? nominal number = some (sampleAny nominal number) := by
  by_cases hzero : nominal = 0
  · subst hzero
    rfl
  by_cases hnarrow : spread nominal = 0
  · rw [sampleAny?, if_neg hzero, if_pos hnarrow, sampleAny, sample_of_narrow hnarrow]
  have hdraw := mod_choices_lt hnarrow number
  have hmul : mul? 2 (spread nominal) = some (choices nominal) := if_pos (two_mul_spread_lt nominal)
  have hbelow : below? (choices nominal) number = some (number % choices nominal) :=
    if_neg (mt choices_eq_zero_iff.mp hnarrow)
  have hadd : add? (number % choices nominal) (middle nominal) =
      some (number % choices nominal + middle nominal) := if_pos (draw_add_middle_lt hdraw)
  have hsub : sub? (number % choices nominal + middle nominal) (spread nominal) =
      some (number % choices nominal + middle nominal - spread nominal) := if_pos (spread_le hdraw)
  rw [sampleAny?, if_neg hzero, if_neg hnarrow, sampleAny, sample_of_wide hnarrow]
  simp only [Option.bind_eq_bind, hmul, hbelow, hadd, hsub, Option.bind_some]

/-- What the latencies are, whatever the random source yields. -/
structure Proper (nominal : UInt64) : Prop where
  /-- Every step can be carried out: nothing is too large for a word or negative, and nothing is drawn from
  nothing. -/
  steps : ∀ number, sampleAny? nominal number = some (sampleAny nominal number)
  /-- What may be drawn is drawn. -/
  drawn : ∀ draw, draw < choices nominal → sampleAny nominal draw = sample nominal draw
  tenth : (middle nominal).toNat = nominal.toNat / 10
  third : (spread nominal).toNat = (middle nominal).toNat / 3
  thirtieth : (spread nominal).toNat = nominal.toNat / 30
  /-- Where the spread is nothing there is one latency. -/
  narrow : spread nominal = 0 → ∀ number, sampleAny nominal number = middle nominal
  /-- Elsewhere the latencies are those of the range, each of which is met. -/
  wide : spread nominal ≠ 0 → ∀ ms,
    (∃ draw, draw < choices nominal ∧ (sample nominal draw).toNat = ms) ↔
      (middle nominal).toNat - (spread nominal).toNat ≤ ms ∧
        ms < (middle nominal).toNat + (spread nominal).toNat
  /-- And they are those that are admitted. -/
  admitted : ∀ ms, admits nominal ms = true ↔ ∃ number, (sampleAny nominal number).toNat = ms

theorem proper (nominal : UInt64) : Proper nominal where
  steps := sampleAny?_eq nominal
  drawn _ := sampleAny_of_lt
  tenth := toNat_middle nominal
  third := toNat_spread_eq_third nominal
  thirtieth := toNat_spread nominal
  narrow h _ := sample_of_narrow h _
  wide _ := exists_sample_iff
  admitted := admits_iff nominal

/-- Below ten there is no latency. -/
theorem sampleAny_of_lt_ten (h : nominal.toNat < 10) (number : UInt64) : sampleAny nominal number = 0 := by
  have hnarrow : spread nominal = 0 := spread_eq_zero_iff.mpr (by omega)
  exact (sample_of_narrow hnarrow _).trans (middle_eq_zero h)

end Replica.Latency
