import Replica.Json.Basic
import Replica.Text.Digits

/-!
# Group identifiers

A replication group is known by a 128-bit number, written as 32 lower-case hexadecimal digits in
five runs joined by hyphens. Reading accepts three more spellings: the digits without hyphens, and
the hyphenated form in braces or behind `urn:uuid:`. Letters may be of either case throughout.
-/

namespace Replica

/-- The identifier of a replication group. -/
structure GroupId where
  bits : BitVec 128
  deriving DecidableEq, Inhabited

namespace GroupId

/-- Five runs of digits: eight, four, four, four and twelve. -/
def runs : List Nat := [8, 4, 4, 4, 12]

/-- The characters cut into runs of the given lengths, with hyphens between them. -/
def hyphenate : List Nat → List Char → List Char
  | [], _ => []
  | [n], cs => cs.take n
  | n :: rest, cs => cs.take n ++ '-' :: hyphenate rest (cs.drop n)

/-- The characters without the hyphens, if these stand exactly between runs of the given lengths. -/
def unhyphenate? : List Nat → List Char → Option (List Char)
  | [], cs => if cs.isEmpty then some [] else none
  | [n], cs => if cs.length = n then some cs else none
  | n :: rest, cs =>
    match cs.drop n with
    | '-' :: after => (unhyphenate? rest after).map (cs.take n ++ ·)
    | _ => none

/-- The written digits, without the hyphens. -/
def digits (g : GroupId) : List Char := Text.Hex.padded 32 g.bits.toNat

def text (g : GroupId) : String := String.ofList (hyphenate runs g.digits)

/-- The number that 32 digits spell. -/
def ofDigits? (cs : List Char) : Option GroupId :=
  if cs.length = 32 then (Text.Hex.number? cs).map fun n => ⟨BitVec.ofNat 128 n⟩ else none

/-- The number that the hyphenated form spells. -/
def ofHyphenated? (cs : List Char) : Option GroupId := (unhyphenate? runs cs).bind ofDigits?

/-- The characters between braces, if they stand in braces. -/
def unbrace? : List Char → Option (List Char)
  | '\x7b' :: rest => if rest.getLast? = some '\x7d' then some rest.dropLast else none
  | _ => none

/-- The mark of the form as a name. -/
def urnMark : List Char := "urn:uuid:".toList

/-- The characters behind the mark, if they begin with it in letters of either case. -/
def afterMark? (cs : List Char) : Option (List Char) :=
  let (start, rest) := cs.splitAt urnMark.length
  if start.map Char.toLower = urnMark then some rest else none

/-- The identifier that a text spells, in any of the four accepted forms. -/
def ofText? (text : String) : Option GroupId :=
  let cs := text.toList
  match cs.length with
  | 32 => ofDigits? cs
  | 36 => ofHyphenated? cs
  | 38 => (unbrace? cs).bind ofHyphenated?
  | 45 => (afterMark? cs).bind ofHyphenated?
  | _ => none

def display (g : GroupId) : String := "group-" ++ g.text

instance : Wire GroupId where
  encode g := .str g.text
  decode? j := j.str?.bind ofText?

end GroupId

end Replica
