import Mathlib.Data.List.Induction
import Replica.Json.Reader
import Replica.Json.Writer
import Replica.Proofs.Text.Hex

/-!
# JSON text is read back

The text that is written for a value is read as that value, whatever strings and integers are in it
(`parse?_compact`). This holds of plain values: those without numbers that have fractions, and in which no
object repeats a name.

A value is read off the front of its text, and what follows is left alone. The reader needs fuel for every
value and for every place in a list; each of them is at least one character, which the recursion over the
value keeps count of (`Reads`).
-/

namespace Replica.Json

open Reader Writer

/-- The value has no fractions, and its objects have no name twice. -/
inductive Plain : Json → Prop where
  | null : Plain null
  | bool (b : Bool) : Plain (bool b)
  | int (n : Int) : Plain (int n)
  | str (s : String) : Plain (str s)
  | arr (items : List Json) (h : ∀ j ∈ items, Plain j) : Plain (arr items)
  | obj (members : List (String × Json)) (distinct : (members.map (·.1)).Nodup)
    (h : ∀ m ∈ members, Plain m.2) : Plain (obj members)

variable {rest cs : List Char} {j : Json} {c : Char} {fuel : Nat}

/-- What is no blank is not skipped. -/
theorem skipBlanks_cons (h : isBlank c = false) : skipBlanks (c :: cs) = c :: cs := by
  rw [skipBlanks, List.dropWhile_cons_of_neg (by simp [h])]

/-! ## Numbers -/

/-- No number goes on here. -/
def Stops (rest : List Char) : Prop :=
  ∀ c, rest.head? = some c → c.isDigit = false ∧ c ≠ '.' ∧ c ≠ 'e' ∧ c ≠ 'E'

theorem Stops.nil : Stops [] := nofun

/-- A number stops before what is neither a digit nor a mark of a fraction or an exponent. -/
theorem Stops.cons (hdigit : c.isDigit = false) (hmark : c ≠ '.' ∧ c ≠ 'e' ∧ c ≠ 'E') :
    Stops (c :: rest) := by
  rintro _ ⟨⟩
  exact ⟨hdigit, hmark⟩

/-- The digits in front are read, up to where the number stops. -/
theorem digits_append {ds : List Char} (hds : ∀ d ∈ ds, d.isDigit = true) (hrest : Stops rest) :
    digits (ds ++ rest) = (ds, rest) := by
  have hnone : rest.takeWhile Char.isDigit = [] ∧ rest.dropWhile Char.isDigit = rest := by
    cases rest with
    | nil => exact ⟨rfl, rfl⟩
    | cons c rest =>
      have hc := (hrest c rfl).1
      simp [hc]
  rw [digits, List.takeWhile_append_of_pos hds, List.dropWhile_append_of_pos hds, hnone.1, hnone.2,
    List.append_nil]

/-- There is no fraction where a number stops. -/
theorem fraction?_of_stops (hrest : Stops rest) : fraction? rest = some ([], rest) := by
  unfold fraction?
  split
  · exact absurd rfl (hrest _ rfl).2.1
  · rfl

/-- There is no exponent where a number stops. -/
theorem exponent?_of_stops (hrest : Stops rest) : exponent? rest = some ([], rest) := by
  cases rest with
  | nil => rfl
  | cons c rest =>
    have hmark := (hrest c rfl).2.2
    simp [exponent?, hmark.1, hmark.2]

/-- The first digit of a number is not zero, unless the number is. -/
theorem head?_toDigits {n : Nat} (h : 0 < n) : (Nat.toDigits 10 n).head? ≠ some '0' := by
  induction n using Nat.strongRecOn with
  | ind n ih =>
    by_cases hsmall : n < 10
    · have hall : ∀ n < 10, 0 < n → (Nat.toDigits 10 n).head? ≠ some '0' := by decide
      exact hall n hsmall h
    · have hlast : Nat.toDigits 10 n = Nat.toDigits 10 (n / 10) ++ [(n % 10).digitChar] :=
        Nat.toDigits_of_base_le (by decide) (Nat.le_of_not_lt hsmall)
      have hfirst := ih (n / 10) (by omega) (by omega)
      obtain ⟨d, ds, hds⟩ := List.exists_cons_of_ne_nil (Nat.toDigits_ne_nil : Nat.toDigits 10 (n / 10) ≠ [])
      rw [hds] at hfirst hlast
      rw [hlast]
      exact hfirst

/-- A number that is written in digits is read back, with its sign. -/
theorem number?_digits (negative : Bool) {n : Nat} (hn : negative = true → 0 < n) (hrest : Stops rest) :
    number? ((if negative then ['-'] else []) ++ (Nat.toDigits 10 n ++ rest)) =
      some (.int (if negative then -(n : Int) else n), rest) := by
  have hall : ∀ d ∈ Nat.toDigits 10 n, d.isDigit = true :=
    fun d hd => Nat.isDigit_of_mem_toDigits (by decide) (by decide) hd
  have hvalue : natOfDigits (Nat.toDigits 10 n) = n := Nat.ofDigitChars_toDigits (by decide) (by decide)
  have hlead : ((Nat.toDigits 10 n).length > 1 && (Nat.toDigits 10 n).head? == some '0') = false := by
    rcases Nat.eq_zero_or_pos n with rfl | hpos
    · rfl
    · simp [head?_toDigits hpos]
  have hzero : (negative && n == 0) = false := by
    cases negative with
    | false => rfl
    | true => simpa using Nat.ne_of_gt (hn rfl)
  obtain ⟨d, ds, hds⟩ := List.exists_cons_of_ne_nil (Nat.toDigits_ne_nil : Nat.toDigits 10 n ≠ [])
  unfold number?
  split
  next sign unsigned heq =>
    have hsign : (negative, Nat.toDigits 10 n ++ rest) = (sign, unsigned) := by
      cases negative with
      | true => exact heq
      | false =>
        simp only [hds, List.nil_append, List.cons_append, Bool.false_eq_true, if_false] at heq ⊢
        split at heq
        · next hminus =>
          cases hminus
          cases hall '-' (hds ▸ List.mem_cons_self)
        · exact heq
    cases hsign
    rw [digits_append hall hrest]
    rw [hds] at hlead hvalue ⊢
    simp only [hlead, fraction?_of_stops hrest, exponent?_of_stops hrest, Option.bind_some, hvalue, hzero]
    rfl

/-- An integer is spelled by its sign and the digits of its absolute value. -/
theorem toList_int (n : Int) :
    (toString n).toList = (if decide (n < 0) then ['-'] else []) ++ Nat.toDigits 10 n.natAbs := by
  cases n with
  | ofNat n =>
    show (toString n).toList = _
    simp
  | negSucc n =>
    show ("-" ++ toString (n + 1)).toList = _
    simp [Int.negSucc_lt_zero]

/-- An integer is read back, and the rest of the text is left. -/
theorem number?_int (n : Int) (hrest : Stops rest) :
    number? ((toString n).toList ++ rest) = some (.int n, rest) := by
  have hn : decide (n < 0) = true → 0 < n.natAbs := fun h => by
    have := of_decide_eq_true h
    omega
  have hvalue : (if decide (n < 0) then -(n.natAbs : Int) else n.natAbs) = n := by
    simp only [decide_eq_true_eq]
    split <;> omega
  rw [toList_int, List.append_assoc, number?_digits _ hn hrest, hvalue]

/-! ## Strings -/

/-- A string is quoted character by character. -/
theorem toList_quote (s : String) :
    (quote s).toList = '"' :: (s.toList.flatMap (fun c => (escape c).toList) ++ ['"']) := by
  have hall (cs : List Char) (text : String) :
      (cs.foldl (fun text c => text ++ escape c) text).toList =
        text.toList ++ cs.flatMap fun c => (escape c).toList := by
    induction cs generalizing text with
    | nil => simp
    | cons c cs ih => simp [ih]
  simp [quote, hall]

/-- A control character without an escape of its own is read back from its number. -/
theorem codePoint?_control (h : c.toNat < 0x20) :
    codePoint? (Text.Hex.padded 4 c.toNat ++ rest) = some (c, rest) := by
  have hunit : unit? (Text.Hex.padded 4 c.toNat ++ rest) = some (c.toNat, rest) := by
    have hread : Text.Hex.number? (Text.Hex.padded 4 c.toNat) = some c.toNat :=
      Text.Hex.number?_padded (by omega)
    simp only [Text.Hex.padded, List.nil_append, List.cons_append] at hread ⊢
    rw [unit?, hread]
    rfl
  rw [codePoint?, hunit, Option.bind_some]
  dsimp only
  rw [if_neg (by omega), if_neg (by omega), Char.ofNat_toNat]

/-- A character is read back from the way it is written in a string. -/
theorem stringBody?_escape (c : Char) (read : List Char) :
    stringBody? (fuel + 1) read ((escape c).toList ++ rest) = stringBody? fuel (c :: read) rest := by
  rw [escape]
  by_cases hquote : c = '"'
  · subst hquote; rfl
  rw [if_neg hquote]
  by_cases hslash : c = '\\'
  · subst hslash; rfl
  rw [if_neg hslash]
  by_cases hline : c = '\n'
  · subst hline; rfl
  rw [if_neg hline]
  by_cases hreturn : c = '\r'
  · subst hreturn; rfl
  rw [if_neg hreturn]
  by_cases htab : c = '\t'
  · subst htab; rfl
  rw [if_neg htab]
  by_cases hback : c = '\x08'
  · subst hback; rfl
  rw [if_neg hback]
  by_cases hfeed : c = '\x0c'
  · subst hfeed; rfl
  rw [if_neg hfeed]
  by_cases hcontrol : c.toNat < 0x20
  · rw [if_pos hcontrol]
    have hmark : "\\u".toList = ['\\', 'u'] := rfl
    simp only [String.toList_append, String.toList_ofList, List.append_assoc]
    rw [hmark, List.cons_append, List.cons_append, List.nil_append, stringBody?, if_neg (by decide), if_pos rfl,
      escape?, codePoint?_control hcontrol, Option.bind_some]
  · rw [if_neg hcontrol, Char.toString, String.toList_singleton, List.singleton_append, stringBody?, if_neg hquote,
      if_neg hslash, if_neg hcontrol]

/-- Escaped characters are read back one after the other. -/
theorem stringBody?_escapes (cs read : List Char) (hfuel : cs.length < fuel) :
    stringBody? fuel read (cs.flatMap (fun c => (escape c).toList) ++ '"' :: rest) =
      some (String.ofList (read.reverse ++ cs), rest) := by
  induction cs generalizing fuel read with
  | nil =>
    obtain ⟨fuel, rfl⟩ := Nat.exists_eq_succ_of_ne_zero (Nat.ne_of_gt hfuel)
    rw [List.flatMap_nil, List.nil_append, List.append_nil, stringBody?, if_pos rfl]
  | cons c cs ih =>
    obtain ⟨fuel, rfl⟩ := Nat.exists_eq_succ_of_ne_zero (Nat.ne_of_gt (Nat.zero_lt_of_lt hfuel))
    rw [List.flatMap_cons, List.append_assoc, stringBody?_escape, ih (c :: read) (Nat.lt_of_succ_lt_succ hfuel),
      List.reverse_cons, List.append_assoc]
    rfl

/-- A string is read back, up to its closing quote. -/
theorem string?_quote (s : String) :
    string? (s.toList.flatMap (fun c => (escape c).toList) ++ '"' :: rest) = some (s, rest) := by
  have hlength (cs : List Char) : cs.length ≤ (cs.flatMap fun c => (escape c).toList).length := by
    induction cs with
    | nil => exact Nat.le_refl 0
    | cons c cs ih =>
      -- a character that was written as nothing could not be read back
      have hpos : 0 < (escape c).toList.length := by
        refine List.length_pos_iff.mpr fun hnil => ?_
        have hread : stringBody? 1 [] ((escape c).toList ++ ['"']) = none := stringBody?_escape c []
        rw [hnil] at hread
        cases hread
      rw [List.flatMap_cons, List.length_append, List.length_cons]
      omega
  have hfuel : s.toList.length < (s.toList.flatMap (fun c => (escape c).toList) ++ '"' :: rest).length + 1 := by
    have := hlength s.toList
    rw [List.length_append]
    omega
  rw [string?, stringBody?_escapes s.toList [] hfuel, List.reverse_nil, List.nil_append, String.ofList_toList]

/-! ## Values -/

/-- The characters of a value. -/
def chars (j : Json) : List Char := j.compact.toList

/-- The characters of a member. -/
def memberChars (m : String × Json) : List Char := (quote m.1).toList ++ ':' :: chars m.2

/-- The text of an array is that of its items, with commas between them. -/
theorem chars_arr (items : List Json) :
    chars (.arr items) = '[' :: ([','].intercalate (items.map chars) ++ [']']) := by
  have hitems : (compactItems items).map String.toList = items.map chars := by
    induction items with
    | nil => rfl
    | cons item rest ih => exact congrArg (_ :: ·) ih
  simp only [chars, compact, String.toList_append, String.toList_intercalate, hitems]
  rfl

/-- The text of an object is that of its members, with commas between them. -/
theorem chars_obj (members : List (String × Json)) :
    chars (.obj members) = '\x7b' :: ([','].intercalate (members.map memberChars) ++ ['\x7d']) := by
  have hmembers : (compactMembers members).map String.toList = members.map memberChars := by
    induction members with
    | nil => rfl
    | cons m rest ih =>
      rw [compactMembers, List.map_cons, ih]
      simp [memberChars, chars]
  simp only [chars, compact, String.toList_append, String.toList_intercalate, hmembers]
  rfl

/-- With fuel for its length, the value is read off the front of a text in which no number goes on after
it. Its text does not begin with a blank or a closing bracket. -/
structure Reads (j : Json) : Prop where
  head : ∃ c cs, chars j = c :: cs ∧ isBlank c = false ∧ c ≠ ']'
  value : ∀ fuel rest, 2 * (chars j).length ≤ fuel → Stops rest →
    value? fuel (chars j ++ rest) = some (j, rest)

/-- A value that is read by its first character alone. -/
theorem Reads.of_step {cs : List Char} (htext : chars j = c :: cs) (hblank : isBlank c = false) (hclose : c ≠ ']')
    (h : ∀ fuel rest, 2 * cs.length + 1 ≤ fuel → Stops rest →
      value? (fuel + 1) (c :: (cs ++ rest)) = some (j, rest)) : Reads j := by
  refine ⟨⟨c, cs, htext, hblank, hclose⟩, fun fuel rest hfuel hrest => ?_⟩
  rw [htext, List.length_cons] at hfuel
  obtain ⟨fuel, rfl⟩ := Nat.exists_eq_succ_of_ne_zero (n := fuel) (by omega)
  rw [htext, List.cons_append]
  exact h fuel rest (by omega) hrest

/-- An integer is read back from its text. -/
theorem reads_int (n : Int) : Reads (.int n) := by
  obtain ⟨c, cs, htext, hfirst⟩ : ∃ c cs, chars (.int n) = c :: cs ∧ (c.isDigit = true ∨ c = '-') := by
    have hdigit : ∀ d ∈ Nat.toDigits 10 n.natAbs, d.isDigit = true :=
      fun d hd => Nat.isDigit_of_mem_toDigits (by decide) (by decide) hd
    obtain ⟨d, ds, hds⟩ :=
      List.exists_cons_of_ne_nil (Nat.toDigits_ne_nil : Nat.toDigits 10 n.natAbs ≠ [])
    have hchars : chars (.int n) = _ := toList_int n
    rw [hchars, hds]
    rw [hds] at hdigit
    split
    · exact ⟨_, _, rfl, .inr rfl⟩
    · exact ⟨_, _, rfl, .inl (hdigit d List.mem_cons_self)⟩
  have hother (other : Char) (hother : other.isDigit = false) (hne : '-' ≠ other) : c ≠ other := by
    rintro rfl
    rcases hfirst with hdigit | hminus
    · cases hdigit.symm.trans hother
    · exact hne hminus.symm
  have hblank : isBlank c = false := by
    simp [isBlank, hother]
  refine .of_step htext hblank (hother _ rfl (by decide)) fun fuel rest hfuel hrest => ?_
  have hread : number? (c :: (cs ++ rest)) = some (.int n, rest) := by
    rw [← List.cons_append, ← htext]
    exact number?_int n hrest
  rw [value?, skipBlanks_cons hblank]
  split
  · next heq => cases heq; exact absurd rfl (hother '"' rfl (by decide))
  · next heq => cases heq; exact absurd rfl (hother '[' rfl (by decide))
  · next heq => cases heq; exact absurd rfl (hother '\x7b' rfl (by decide))
  · next heq => cases heq; exact absurd rfl (hother 'n' rfl (by decide))
  · next heq => cases heq; exact absurd rfl (hother 't' rfl (by decide))
  · next heq => cases heq; exact absurd rfl (hother 'f' rfl (by decide))
  · exact hread

/-- A string is read back from its text. -/
theorem reads_str (s : String) : Reads (.str s) := by
  have htext : chars (.str s) = '"' :: (s.toList.flatMap (fun c => (escape c).toList) ++ ['"']) :=
    toList_quote s
  refine .of_step htext rfl (by decide) fun fuel rest hfuel hrest => ?_
  rw [value?, skipBlanks_cons rfl, List.append_assoc, List.singleton_append]
  simp only [string?_quote]
  rfl

/-- A list begins with its first item. -/
theorem exists_intercalate_cons (separator item : List Char) (items : List (List Char)) :
    ∃ tail, separator.intercalate (item :: items) = item ++ tail := by
  cases items with
  | nil => exact ⟨[], by simp⟩
  | cons item' items => exact ⟨_, by rw [List.intercalate_cons_cons, List.append_assoc]⟩

/-- The elements of an array are read up to its end. -/
theorem elements?_chars {items : List Json} (h : ∀ j ∈ items, Reads j) (hne : items ≠ []) (read : List Json)
    (hfuel : 2 * ([','].intercalate (items.map chars)).length + 1 ≤ fuel) :
    elements? fuel read ([','].intercalate (items.map chars) ++ ']' :: rest) =
      some (.arr (read.reverse ++ items), rest) := by
  induction items generalizing fuel read with
  | nil => exact absurd rfl hne
  | cons j items ih =>
    obtain ⟨fuel, rfl⟩ := Nat.exists_eq_succ_of_ne_zero (n := fuel) (by omega)
    have hj := (h j List.mem_cons_self).value fuel
    cases items with
    | nil =>
      rw [List.map_singleton, List.intercalate_singleton] at hfuel ⊢
      rw [elements?, hj _ (by omega) (.cons rfl (by decide))]
      simp only [skipBlanks_cons (c := ']') rfl, List.reverse_cons]
    | cons j' items =>
      have htext : [','].intercalate ((j :: j' :: items).map chars) =
          chars j ++ ',' :: [','].intercalate ((j' :: items).map chars) := by
        rw [List.map_cons, List.map_cons, List.intercalate_cons_cons, List.append_assoc]
        rfl
      rw [htext, List.length_append, List.length_cons] at hfuel
      rw [htext, List.append_assoc, List.cons_append, elements?, hj _ (by omega) (.cons rfl (by decide))]
      simp only [skipBlanks_cons (c := ',') rfl]
      rw [ih (fun j hj => h j (List.mem_cons_of_mem _ hj)) (List.cons_ne_nil _ _) _ (by omega),
        List.reverse_cons, List.append_assoc]
      rfl

/-- A member with a new name comes after the others. -/
theorem setMember_of_notMem {name : String} {members : List (String × Json)}
    (h : name ∉ members.map (·.1)) (v : Json) : setMember name v members = members ++ [(name, v)] := by
  induction members with
  | nil => rfl
  | cons m rest ih =>
    rw [List.map_cons, List.mem_cons, not_or] at h
    rw [setMember, if_neg (Ne.symm h.1), ih h.2]
    rfl

/-- The members of an object are read up to its end. -/
theorem members?_chars {members : List (String × Json)} (h : ∀ m ∈ members, Reads m.2) (hne : members ≠ [])
    (read : List (String × Json)) (distinct : ((read ++ members).map (·.1)).Nodup)
    (hfuel : 2 * ([','].intercalate (members.map memberChars)).length + 1 ≤ fuel) :
    members? fuel read ([','].intercalate (members.map memberChars) ++ '\x7d' :: rest) =
      some (.obj (read ++ members), rest) := by
  induction members generalizing fuel read with
  | nil => exact absurd rfl hne
  | cons m members ih =>
    obtain ⟨name, j⟩ := m
    obtain ⟨fuel, rfl⟩ := Nat.exists_eq_succ_of_ne_zero (n := fuel) (by omega)
    have hj : ∀ rest, 2 * (chars j).length ≤ fuel → Stops rest → _ :=
      (h (name, j) List.mem_cons_self).value fuel
    have hset : setMember name j read = read ++ [(name, j)] := by
      refine setMember_of_notMem (fun hmem => ?_) j
      rw [List.map_append, List.nodup_append] at distinct
      exact distinct.2.2 name hmem name List.mem_cons_self rfl
    have hname (rest : List Char) : memberChars (name, j) ++ rest =
        '"' :: (name.toList.flatMap (fun c => (escape c).toList) ++ '"' :: ':' :: (chars j ++ rest)) := by
      simp [memberChars, toList_quote]
    have hlength : 2 * (chars j).length ≤ 2 * (memberChars (name, j)).length := by
      simp [memberChars]
      omega
    cases members with
    | nil =>
      rw [List.map_singleton, List.intercalate_singleton] at hfuel ⊢
      rw [hname, members?, skipBlanks_cons rfl]
      simp only [string?_quote, skipBlanks_cons (c := ':') rfl]
      rw [hj _ (by omega) (.cons rfl (by decide))]
      simp only [skipBlanks_cons (c := '\x7d') rfl, hset]
    | cons m' members =>
      have htext : [','].intercalate (((name, j) :: m' :: members).map memberChars) =
          memberChars (name, j) ++ ',' :: [','].intercalate ((m' :: members).map memberChars) := by
        rw [List.map_cons, List.map_cons, List.intercalate_cons_cons, List.append_assoc]
        rfl
      rw [htext, List.length_append, List.length_cons] at hfuel
      rw [htext, List.append_assoc, List.cons_append, hname, members?, skipBlanks_cons rfl]
      simp only [string?_quote, skipBlanks_cons (c := ':') rfl]
      rw [hj _ (by omega) (.cons rfl (by decide))]
      simp only [skipBlanks_cons (c := ',') rfl, hset]
      rw [ih (fun m hm => h m (List.mem_cons_of_mem _ hm)) (List.cons_ne_nil _ _) _ ?_ (by omega),
        List.append_assoc]
      · rfl
      · rw [List.append_assoc]
        exact distinct

/-- An array that does not end at once is read item by item. -/
theorem value?_bracket (hblank : isBlank c = false) (hclose : c ≠ ']') :
    value? (fuel + 1) ('[' :: c :: cs) = elements? fuel [] (c :: cs) := by
  simp only [value?, skipBlanks_cons (c := '[') rfl, skipBlanks_cons hblank]
  split
  · next heq =>
    cases heq
    exact absurd rfl hclose
  · rfl

/-- An object that does not end at once is read member by member. -/
theorem value?_brace : value? (fuel + 1) ('\x7b' :: '"' :: cs) = members? fuel [] ('"' :: cs) := by
  simp only [value?, skipBlanks_cons (c := '\x7b') rfl, skipBlanks_cons (c := '"') rfl]
  rfl

/-- A plain value is read off the front of its text. -/
theorem Plain.reads (h : Plain j) : Reads j := by
  induction h with
  | null =>
    refine .of_step (c := 'n') rfl rfl (by decide) fun fuel rest _ _ => ?_
    rw [value?, skipBlanks_cons rfl]
    rfl
  | bool b =>
    cases b with
    | true =>
      refine .of_step (c := 't') rfl rfl (by decide) fun fuel rest _ _ => ?_
      rw [value?, skipBlanks_cons rfl]
      rfl
    | false =>
      refine .of_step (c := 'f') rfl rfl (by decide) fun fuel rest _ _ => ?_
      rw [value?, skipBlanks_cons rfl]
      rfl
  | int n => exact reads_int n
  | str s => exact reads_str s
  | arr items h ih =>
    refine .of_step (chars_arr items) rfl (by decide) fun fuel rest hfuel _ => ?_
    rw [List.length_append, List.length_singleton] at hfuel
    rw [List.append_assoc, List.singleton_append]
    cases items with
    | nil =>
      rw [value?, skipBlanks_cons rfl]
      rfl
    | cons j items =>
      obtain ⟨c, cs, hhead, hblank, hclose⟩ := (ih j List.mem_cons_self).head
      obtain ⟨tail, htail⟩ := exists_intercalate_cons [','] (chars j) (items.map chars)
      have hread : elements? fuel [] ([','].intercalate ((j :: items).map chars) ++ ']' :: rest) = _ :=
        elements?_chars ih (List.cons_ne_nil _ _) [] (by omega)
      rw [List.map_cons, htail, hhead, List.cons_append, List.cons_append] at hread ⊢
      exact (value?_bracket hblank hclose).trans hread
  | obj members distinct h ih =>
    refine .of_step (chars_obj members) rfl (by decide) fun fuel rest hfuel _ => ?_
    rw [List.length_append, List.length_singleton] at hfuel
    rw [List.append_assoc, List.singleton_append]
    cases members with
    | nil =>
      rw [value?, skipBlanks_cons rfl]
      rfl
    | cons m members =>
      obtain ⟨tail, htail⟩ := exists_intercalate_cons [','] (memberChars m) (members.map memberChars)
      obtain ⟨cs, hhead⟩ : ∃ cs, memberChars m = '"' :: cs := ⟨_, by rw [memberChars, toList_quote]; rfl⟩
      have hread : members? fuel []
          ([','].intercalate ((m :: members).map memberChars) ++ '\x7d' :: rest) = _ :=
        members?_chars ih (List.cons_ne_nil _ _) [] distinct (by omega)
      rw [List.map_cons, htail, hhead, List.cons_append, List.cons_append] at hread ⊢
      exact value?_brace.trans hread

/-- What is written for a plain value is read as that value. -/
theorem parse?_compact (h : Plain j) : parse? j.compact = some j := by
  have hread := h.reads.value (2 * (chars j).length + 2) [] (by omega) .nil
  rw [List.append_nil] at hread
  rw [parse?]
  simp only [← chars.eq_1, hread]
  rfl

end Replica.Json
