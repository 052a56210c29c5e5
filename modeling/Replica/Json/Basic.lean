import Replica.Text.Digits

/-!
# JSON values

The tree that every wire form is written to and read from. Integers are kept exactly and apart from
numbers written with a fraction or an exponent, because no wire form accepts the latter.

A structure travels as an object. Its reader accepts two shapes, and both are resolved here:

* `Json.record?` wants every field: an object that names them all, in any order and among other
  names, or an array with exactly as many elements as there are fields;
* `Json.sparse?` lets fields be absent: an object that names some of them, or an array that is too
  short.

A type with a wire form (`Wire`) is written as exactly one JSON value. Its reader accepts that value
and may accept other spellings of it: fields in another order or in an array, digits of another case,
text in place of bytes.
-/

namespace Replica

/-- A JSON value. Object members keep the order in which they are written. -/
inductive Json where
  | null
  | bool (b : Bool)
  | int (n : Int)
  /-- A number written with a fraction or an exponent, by its text. -/
  | fraction (text : String)
  | str (s : String)
  | arr (items : List Json)
  | obj (members : List (String × Json))
  deriving Inhabited

namespace Json

/-- The member called `name`, if the value is an object that has one. -/
def get? (name : String) : Json → Option Json
  | obj members => members.lookup name
  | _ => none

def str? : Json → Option String
  | str s => some s
  | _ => none

/-- The integer of a number written without fraction and exponent. -/
def int? : Json → Option Int
  | int n => some n
  | _ => none

def bool? : Json → Option Bool
  | bool b => some b
  | _ => none

def arr? : Json → Option (List Json)
  | arr items => some items
  | _ => none

/-- The value, unless it is `null`. -/
def nonNull? : Json → Option Json
  | null => none
  | j => some j

/-- The fields `names`, each of which may be absent: looked up in an object, or taken in order from
an array that is no longer than the list of names. -/
def sparse? (names : List String) : Json → Option (List (Option Json))
  | obj members => some (names.map fun name => members.lookup name)
  | arr items =>
    if items.length ≤ names.length then
      some (items.map some ++ List.replicate (names.length - items.length) none)
    else none
  | _ => none

/-- The fields `names`, all of which must be there. -/
def record? (names : List String) (j : Json) : Option (List Json) :=
  (j.sparse? names).bind fun fields => fields.mapM id

end Json

/-! ### Wire forms -/

/-- A type with one written JSON form and a reader for it. -/
class Wire (α : Type) where
  /-- The written form. -/
  encode : α → Json
  /-- The value that a JSON value spells, if any. -/
  decode? : Json → Option α

namespace Wire

instance : Wire String where
  encode := .str
  decode? := Json.str?

instance : Wire Int64 where
  encode n := .int n.toInt
  decode? j := j.int?.bind Text.Integer.toInt64?

instance : Wire UInt64 where
  encode n := .int n.toNat
  decode? j := j.int?.bind Text.Integer.toUInt64?

instance : Wire UInt8 where
  encode n := .int n.toNat
  decode? j := j.int?.bind Text.Integer.toUInt8?

instance [Wire α] : Wire (List α) where
  encode items := .arr (items.map encode)
  decode? j := j.arr?.bind fun items => items.mapM decode?

end Wire

end Replica
