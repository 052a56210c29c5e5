import Replica.Json.Basic
import Replica.Text.Quoted

/-!
# Entries of the log

A position in the log is a term and an index. Positions are ordered by their terms first, then by
their indices.

An entry has a position and a payload: opaque bytes that clients send and the application reads. A
payload is written as an array of byte values; a string is read as its UTF-8 bytes.
-/

namespace Replica

/-! ### Payloads -/

/-- An opaque payload. -/
structure Payload where
  bytes : List UInt8 := []
  deriving DecidableEq, Inhabited

namespace Payload

def empty : Payload := {}

/-- The UTF-8 bytes of a text. -/
def ofString (text : String) : Payload := ⟨text.toUTF8.toList⟩

def size (p : Payload) : Nat := p.bytes.length

def isEmpty (p : Payload) : Bool := p.bytes.isEmpty

/-- The bytes in lower-case hexadecimal digits. -/
def hex (p : Payload) : String := Text.Hex.ofBytes p.bytes

/-- The text that the bytes encode, if they are UTF-8. -/
def text? (p : Payload) : Option String := String.fromUTF8? p.bytes.toByteArray

instance : Wire Payload where
  encode p := Wire.encode p.bytes
  decode? j := match j with
    | .str text => some (ofString text)
    | j => (Wire.decode? j).map Payload.mk

end Payload

/-! ### Positions -/

/-- The index that stands for "no entry". -/
def invalidIndex : Int64 := -1

/-- A position in the replicated log. -/
structure LogPosition where
  term : Int64
  index : Int64
  deriving DecidableEq, Inhabited

namespace LogPosition

/-- The position before the first entry. -/
def initial : LogPosition := ⟨0, invalidIndex⟩

/-- The order of positions: by term, then by index. -/
def cmp (a b : LogPosition) : Ordering := (compare a.term b.term).then (compare a.index b.index)

def display (p : LogPosition) : String :=
  "(t:" ++ toString p.term.toInt ++ ", i:" ++ toString p.index.toInt ++ ")"

def describe (p : LogPosition) : String :=
  Text.structured "TermIndex"
    [("term", toString p.term.toInt), ("index", toString p.index.toInt)] false

instance : Wire LogPosition where
  encode p := .obj [("term", Wire.encode p.term), ("index", Wire.encode p.index)]
  decode? j := do
    match ← j.record? ["term", "index"] with
    | [term, index] => return ⟨← Wire.decode? term, ← Wire.decode? index⟩
    | _ => none

end LogPosition

/-! ### Entries -/

/-- A committed entry of the log. -/
structure LogEntry where
  term : Int64
  index : Int64
  data : Payload
  deriving DecidableEq, Inhabited

namespace LogEntry

def position (e : LogEntry) : LogPosition := ⟨e.term, e.index⟩

instance : Wire LogEntry where
  encode e :=
    .obj [("term", Wire.encode e.term), ("index", Wire.encode e.index),
      ("data", Wire.encode e.data)]
  decode? j := do
    match ← j.record? ["term", "index", "data"] with
    | [term, index, data] =>
      return ⟨← Wire.decode? term, ← Wire.decode? index, ← Wire.decode? data⟩
    | _ => none

end LogEntry

end Replica
