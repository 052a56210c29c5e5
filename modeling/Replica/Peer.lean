import Replica.Json.Basic
import Replica.Text.Quoted

/-!
# Peers

The members of a group as a node knows them. A peer is known by its id, which is compared by its
text; ids are ordered by code points, which is the order of their UTF-8 bytes.
-/

namespace Replica

/-- The identifier of a node in the group. -/
structure PeerId where
  name : String
  deriving DecidableEq, Inhabited

namespace PeerId

instance : Coe String PeerId := ⟨PeerId.mk⟩

/-- The order of the ids' texts. -/
def cmp (a b : PeerId) : Ordering := compare a.name b.name

def before (a b : PeerId) : Bool := decide (a.name < b.name)

def describe (id : PeerId) : String := "PeerId(" ++ Text.quoted id.name ++ ")"

instance : Wire PeerId where
  encode id := Wire.encode id.name
  decode? j := (Wire.decode? j).map PeerId.mk

end PeerId

/-- A member of the group: its id and the address that it can be reached at. -/
structure Peer where
  id : PeerId
  address : String
  deriving DecidableEq, Inhabited

namespace Peer

def display (p : Peer) : String := p.id.name ++ "|" ++ p.address

def describe (p : Peer) : String :=
  Text.structured "Peer" [("id", p.id.describe), ("address", Text.quoted p.address)] false

instance : Wire Peer where
  encode p := .obj [("id", Wire.encode p.id), ("address", Wire.encode p.address)]
  decode? j := do
    match ← j.record? ["id", "address"] with
    | [id, address] => return ⟨← Wire.decode? id, ← Wire.decode? address⟩
    | _ => none

end Peer

/-! ### Registries

What is kept per peer is kept in a list sorted by id, with one place for each id. -/

/-- Values by peer id, in the order of the ids. -/
abbrev Registry (α : Type) := List (PeerId × α)

namespace Registry

variable {α : Type}

def get? (id : PeerId) : Registry α → Option α
  | [] => none
  | (k, v) :: rest => if k = id then some v else get? id rest

/-- The registry with `value` under `id`, in place of any value that was there. -/
def set (id : PeerId) (value : α) : Registry α → Registry α
  | [] => [(id, value)]
  | (k, v) :: rest =>
    if k = id then (id, value) :: rest
    else if id.before k then (id, value) :: (k, v) :: rest
    else (k, v) :: set id value rest

def remove (id : PeerId) : Registry α → Registry α
  | [] => []
  | (k, v) :: rest => if k = id then rest else (k, v) :: remove id rest

def ids (r : Registry α) : List PeerId := r.map (·.1)

def values (r : Registry α) : List α := r.map (·.2)

end Registry

end Replica
