import Replica.Json.Basic
import Replica.Text.Digits

/-!
# Reading JSON text

`Json.parse?` reads one value that fills the whole text, up to blanks. Each step takes the
characters that are left and answers what it read together with the rest. A step on values consumes
at least one character, so twice the length of the text bounds the depth of the recursion.

An object that repeats a name keeps the last value, at the place of the first.
-/

namespace Replica.Json

namespace Reader

/-- What a step read, and the characters it left. -/
abbrev Step (α : Type) := Option (α × List Char)

/-- Blanks between the parts of a value. -/
def isBlank (c : Char) : Bool := c == ' ' || c == '\t' || c == '\n' || c == '\r'

def skipBlanks (cs : List Char) : List Char := cs.dropWhile isBlank

/-- The rest after `word`, if the characters begin with it. -/
def word? : List Char → List Char → Option (List Char)
  | [], cs => some cs
  | _ :: _, [] => none
  | w :: ws, c :: cs => if w = c then word? ws cs else none

/-! ### Numbers -/

def digits (cs : List Char) : List Char × List Char :=
  (cs.takeWhile Char.isDigit, cs.dropWhile Char.isDigit)

/-- The value of a list of decimal digits. -/
def natOfDigits (ds : List Char) : Nat := ds.foldl (fun n d => 10 * n + (d.toNat - '0'.toNat)) 0

/-- A fraction: a point and at least one digit. -/
def fraction? : List Char → Step (List Char)
  | '.' :: cs =>
    match digits cs with
    | ([], _) => none
    | (ds, rest) => some ('.' :: ds, rest)
  | cs => some ([], cs)

/-- An exponent: its mark, an optional sign and at least one digit. -/
def exponent? : List Char → Step (List Char)
  | cs@(e :: rest) =>
    if e = 'e' || e = 'E' then
      let (sign, rest) := match rest with
        | '+' :: r => (['+'], r)
        | '-' :: r => (['-'], r)
        | r => ([], r)
      match digits rest with
      | ([], _) => none
      | (ds, rest) => some (e :: (sign ++ ds), rest)
    else some ([], cs)
  | [] => some ([], [])

/-- A number. It is an integer if it has neither fraction nor exponent and is no negative zero. -/
def number? (cs : List Char) : Step Json :=
  let (negative, cs) := match cs with
    | '-' :: r => (true, r)
    | r => (false, r)
  match digits cs with
  | ([], _) => none
  | (ds, rest) =>
    if ds.length > 1 && ds.head? == some '0' then none
    else
      (fraction? rest).bind fun (f, rest) =>
      (exponent? rest).bind fun (e, rest) =>
        let n := natOfDigits ds
        if f.isEmpty && e.isEmpty && !(negative && n == 0) then
          some (.int (if negative then -(n : Int) else n), rest)
        else
          some (.fraction (String.ofList ((if negative then ['-'] else []) ++ ds ++ f ++ e)), rest)

/-! ### Strings -/

/-- Four hexadecimal digits. -/
def unit? : List Char → Step Nat
  | a :: b :: c :: d :: rest =>
    (Text.Hex.number? [a, b, c, d]).map fun u => (u, rest)
  | _ => none

/-- The character of an escape by number: one unit, or a pair of surrogates. -/
def codePoint? (cs : List Char) : Step Char :=
  (unit? cs).bind fun (u, rest) =>
    if 0xD800 ≤ u ∧ u ≤ 0xDBFF then
      match rest with
      | '\\' :: 'u' :: rest =>
        (unit? rest).bind fun (v, rest) =>
          if 0xDC00 ≤ v ∧ v ≤ 0xDFFF then
            some (Char.ofNat (0x10000 + (u - 0xD800) * 0x400 + (v - 0xDC00)), rest)
          else none
      | _ => none
    else if 0xDC00 ≤ u ∧ u ≤ 0xDFFF then none
    else some (Char.ofNat u, rest)

/-- The character behind a backslash. -/
def escape? : List Char → Step Char
  | '"' :: rest => some ('"', rest)
  | '\\' :: rest => some ('\\', rest)
  | '/' :: rest => some ('/', rest)
  | 'b' :: rest => some ('\x08', rest)
  | 'f' :: rest => some ('\x0c', rest)
  | 'n' :: rest => some ('\n', rest)
  | 'r' :: rest => some ('\r', rest)
  | 't' :: rest => some ('\t', rest)
  | 'u' :: rest => codePoint? rest
  | _ => none

/-- The characters up to the closing quote; `read` holds those before, last first. -/
def stringBody? : Nat → List Char → List Char → Step String
  | 0, _, _ => none
  | _ + 1, _, [] => none
  | fuel + 1, read, c :: cs =>
    if c = '"' then some (String.ofList read.reverse, cs)
    else if c = '\\' then (escape? cs).bind fun (e, rest) => stringBody? fuel (e :: read) rest
    else if c.toNat < 0x20 then none
    else stringBody? fuel (c :: read) cs

/-- A string behind its opening quote. -/
def string? (cs : List Char) : Step String := stringBody? (cs.length + 1) [] cs

/-! ### Values -/

/-- The members with `name` set to `value`. -/
def setMember (name : String) (value : Json) : List (String × Json) → List (String × Json)
  | [] => [(name, value)]
  | (n, v) :: rest => if n = name then (n, value) :: rest else (n, v) :: setMember name value rest

mutual

/-- A value, after leading blanks. -/
def value? : Nat → List Char → Step Json
  | 0, _ => none
  | fuel + 1, cs =>
    match skipBlanks cs with
    | '"' :: rest => (string? rest).map fun (s, rest) => (.str s, rest)
    | '[' :: rest =>
      match skipBlanks rest with
      | ']' :: rest => some (.arr [], rest)
      | rest => elements? fuel [] rest
    | '\x7b' :: rest =>
      match skipBlanks rest with
      | '\x7d' :: rest => some (.obj [], rest)
      | rest => members? fuel [] rest
    | rest@('n' :: _) => (word? "null".toList rest).map fun rest => (.null, rest)
    | rest@('t' :: _) => (word? "true".toList rest).map fun rest => (.bool true, rest)
    | rest@('f' :: _) => (word? "false".toList rest).map fun rest => (.bool false, rest)
    | rest => number? rest

/-- The elements of an array up to its end; `read` holds those before, last first. -/
def elements? : Nat → List Json → List Char → Step Json
  | 0, _, _ => none
  | fuel + 1, read, cs =>
    match value? fuel cs with
    | none => none
    | some (v, rest) =>
      match skipBlanks rest with
      | ',' :: rest => elements? fuel (v :: read) rest
      | ']' :: rest => some (.arr (v :: read).reverse, rest)
      | _ => none

/-- The members of an object up to its end, added to those before. -/
def members? : Nat → List (String × Json) → List Char → Step Json
  | 0, _, _ => none
  | fuel + 1, read, cs =>
    match skipBlanks cs with
    | '"' :: rest =>
      match string? rest with
      | none => none
      | some (name, rest) =>
        match skipBlanks rest with
        | ':' :: rest =>
          match value? fuel rest with
          | none => none
          | some (v, rest) =>
            let read := setMember name v read
            match skipBlanks rest with
            | ',' :: rest => members? fuel read rest
            | '\x7d' :: rest => some (.obj read, rest)
            | _ => none
        | _ => none
    | _ => none

end

end Reader

/-- The value that `text` spells, if it spells exactly one. -/
def parse? (text : String) : Option Json :=
  let cs := text.toList
  match Reader.value? (2 * cs.length + 2) cs with
  | some (v, rest) => if (Reader.skipBlanks rest).isEmpty then some v else none
  | none => none

end Replica.Json
