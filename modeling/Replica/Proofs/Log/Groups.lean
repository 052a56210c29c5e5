import Replica.Log.Group
import Replica.Proofs.Text.Hex

/-!
# Spellings of group identifiers

A text spells a group identifier if it is one of the four forms of 32 digits, in letters of either case,
that are written for the identifier (`GroupId.SpelledBy`). Those and no other texts are accepted
(`ofText?_eq_some_iff`), and one of them is the text that is written (`spelledBy_text`).
-/

namespace Replica.GroupId

open Text

variable {g : GroupId} {cs ds : List Char} {ns : List Nat} {text : String}

/-- The forms in which 32 digits are accepted. -/
inductive Form (ds : List Char) : List Char → Prop where
  | plain : Form ds ds
  | hyphenated : Form ds (hyphenate runs ds)
  | braced : Form ds ('\x7b' :: (hyphenate runs ds ++ ['\x7d']))
  | named (mark : List Char) (h : mark.map Char.toLower = urnMark) : Form ds (mark ++ hyphenate runs ds)

/-- The text is a form of the identifier's digits, in letters of either case. -/
def SpelledBy (text : String) (g : GroupId) : Prop :=
  ∃ ds, ds.map Char.toLower = g.digits ∧ Form ds text.toList

/-! ## Hyphens -/

/-- Hyphens are taken out where they are put in. -/
theorem unhyphenate?_eq_some_iff :
    unhyphenate? ns cs = some ds ↔ ds.length = ns.sum ∧ cs = hyphenate ns ds := by
  induction ns generalizing cs ds with
  | nil =>
    rw [unhyphenate?, hyphenate]
    cases cs <;> simp [eq_comm]
  | cons n ns ih =>
    cases ns with
    | nil =>
      rw [unhyphenate?, hyphenate, List.sum_singleton]
      constructor
      · intro h
        split at h
        · next hlength =>
          cases h
          exact ⟨hlength, (List.take_of_length_le (Nat.le_of_eq hlength)).symm⟩
        · cases h
      · rintro ⟨hlength, rfl⟩
        rw [List.take_of_length_le (Nat.le_of_eq hlength), if_pos hlength]
    | cons m ns =>
      have hwritten : hyphenate (n :: m :: ns) ds = ds.take n ++ '-' :: hyphenate (m :: ns) (ds.drop n) := rfl
      rw [hwritten, List.sum_cons]
      simp only [unhyphenate?]
      constructor
      · intro h
        split at h
        · next after hafter =>
          obtain ⟨rest, hrest, rfl⟩ := Option.map_eq_some_iff.mp h
          obtain ⟨hlength, rfl⟩ := ih.mp hrest
          have htake : (cs.take n).length = n := by
            have hlong := congrArg List.length hafter
            rw [List.length_drop, List.length_cons] at hlong
            rw [List.length_take]
            omega
          refine ⟨by rw [List.length_append, htake, hlength], ?_⟩
          rw [List.take_left' htake, List.drop_left' htake, ← hafter, List.take_append_drop]
        · cases h
      · rintro ⟨hlength, rfl⟩
        have htake : (ds.take n).length = n := by
          rw [List.length_take, Nat.min_eq_left (by omega)]
        have hrest : unhyphenate? (m :: ns) (hyphenate (m :: ns) (ds.drop n)) = some (ds.drop n) :=
          ih.mpr ⟨by rw [List.length_drop]; omega, rfl⟩
        rw [List.drop_left' htake, List.take_left' htake]
        simp only [hrest, Option.map_some, List.take_append_drop]

theorem length_hyphenate (h : ds.length = 32) : (hyphenate runs ds).length = 36 := by
  simp [runs, hyphenate, h]

/-! ## Digits -/

theorem ofDigits?_eq_some_iff : ofDigits? cs = some g ↔ cs.map Char.toLower = g.digits := by
  have hread (n : Nat) (hlength : cs.length = 32) : Hex.number? cs = some n ↔
      n < 2 ^ 128 ∧ cs.map Char.toLower = Hex.padded 32 n := by
    have hbound : (16 : Nat) ^ 32 = 2 ^ 128 := by decide
    rw [Hex.number?_eq_some_iff, hlength, hbound]
  rw [ofDigits?, digits]
  split
  · next hlength =>
    simp only [Option.map_eq_some_iff, hread _ hlength]
    constructor
    · rintro ⟨n, ⟨hn, htext⟩, rfl⟩
      rw [htext, BitVec.toNat_ofNat, Nat.mod_eq_of_lt hn]
    · intro htext
      refine ⟨g.bits.toNat, ⟨g.bits.isLt, htext⟩, ?_⟩
      rw [BitVec.ofNat_toNat, BitVec.setWidth_eq]
  · next hlength =>
    refine iff_of_false nofun fun htext => hlength ?_
    rw [← List.length_map Char.toLower, htext, Hex.length_padded]

theorem length_of_digits (h : ds.map Char.toLower = g.digits) : ds.length = 32 := by
  rw [← List.length_map Char.toLower, h, digits, Hex.length_padded]

theorem ofHyphenated?_eq_some_iff : ofHyphenated? cs = some g ↔
    ∃ ds, ds.map Char.toLower = g.digits ∧ cs = hyphenate runs ds := by
  rw [ofHyphenated?, Option.bind_eq_some_iff]
  simp only [unhyphenate?_eq_some_iff, ofDigits?_eq_some_iff]
  constructor
  · rintro ⟨ds, ⟨-, hcs⟩, hds⟩
    exact ⟨ds, hds, hcs⟩
  · rintro ⟨ds, hds, hcs⟩
    exact ⟨ds, ⟨length_of_digits hds, hcs⟩, hds⟩

/-! ## Forms -/

theorem unbrace?_eq_some_iff : unbrace? cs = some ds ↔ cs = '\x7b' :: (ds ++ ['\x7d']) := by
  unfold unbrace?
  split
  · next rest =>
    constructor
    · intro h
      split at h
      · next hlast =>
        cases h
        obtain ⟨init, rfl⟩ := List.getLast?_eq_some_iff.mp hlast
        rw [List.dropLast_concat]
      · cases h
    · intro h
      cases h
      simp
  · next hother =>
    refine iff_of_false nofun ?_
    rintro rfl
    exact hother _ rfl

theorem afterMark?_eq_some_iff : afterMark? cs = some ds ↔
    ∃ mark, mark.map Char.toLower = urnMark ∧ cs = mark ++ ds := by
  rw [afterMark?, List.splitAt_eq]
  dsimp only
  constructor
  · intro h
    split at h
    · next hmark =>
      cases h
      exact ⟨_, hmark, (List.take_append_drop _ cs).symm⟩
    · cases h
  · rintro ⟨mark, hmark, rfl⟩
    have hlength : mark.length = urnMark.length := by rw [← hmark, List.length_map]
    rw [List.take_left' hlength, List.drop_left' hlength, if_pos hmark]

/-- Exactly the spellings of an identifier are accepted. -/
theorem ofText?_eq_some_iff : ofText? text = some g ↔ g.SpelledBy text := by
  rw [ofText?]
  constructor
  · intro h
    split at h
    · exact ⟨_, ofDigits?_eq_some_iff.mp h, .plain⟩
    · obtain ⟨ds, hds, hform⟩ := ofHyphenated?_eq_some_iff.mp h
      exact ⟨ds, hds, hform ▸ .hyphenated⟩
    · obtain ⟨inner, hinner, h⟩ := Option.bind_eq_some_iff.mp h
      obtain ⟨ds, hds, rfl⟩ := ofHyphenated?_eq_some_iff.mp h
      exact ⟨ds, hds, unbrace?_eq_some_iff.mp hinner ▸ .braced⟩
    · obtain ⟨inner, hinner, h⟩ := Option.bind_eq_some_iff.mp h
      obtain ⟨ds, hds, rfl⟩ := ofHyphenated?_eq_some_iff.mp h
      obtain ⟨mark, hmark, hform⟩ := afterMark?_eq_some_iff.mp hinner
      exact ⟨ds, hds, hform ▸ .named mark hmark⟩
    · cases h
  · rintro ⟨ds, hds, hform⟩
    have hlength := length_hyphenate (length_of_digits hds)
    have hread : ofHyphenated? (hyphenate runs ds) = some g := ofHyphenated?_eq_some_iff.mpr ⟨ds, hds, rfl⟩
    generalize text.toList = cs at hform ⊢
    cases hform with
    | plain =>
      simp only [length_of_digits hds]
      exact ofDigits?_eq_some_iff.mpr hds
    | hyphenated =>
      simp only [hlength]
      exact hread
    | braced =>
      simp only [List.length_cons, List.length_append, List.length_nil, hlength,
        unbrace?_eq_some_iff.mpr rfl]
      exact hread
    | named mark hmark =>
      have hmarked : mark.length = 9 := by
        rw [← List.length_map Char.toLower, hmark]
        rfl
      simp only [List.length_append, hmarked, hlength, afterMark?_eq_some_iff.mpr ⟨mark, hmark, rfl⟩]
      exact hread

/-- The written text is a spelling. -/
theorem spelledBy_text (g : GroupId) : g.SpelledBy g.text := by
  refine ⟨g.digits, Hex.toLower_padded 32 _, ?_⟩
  rw [text, String.toList_ofList]
  exact .hyphenated

end Replica.GroupId
