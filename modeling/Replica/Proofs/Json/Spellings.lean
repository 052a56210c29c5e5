import Replica.Json.Basic
import Replica.Proofs.Json.Reading
import Replica.Proofs.Json.Records

/-!
# Spellings of wire forms

A type with a wire form is lawful (`LawfulWire`) if there is a description of the JSON values that spell each
of its values (`Spelled`), its reader accepts exactly these, and what is written is one of them and can be
read back as text. Strings, integers and lists are lawful, and so is every type of records that is described
by a table of its fields (`RecordForm`).
-/

namespace Replica

/-- A type whose values are spelled by JSON values. -/
class Spelled (α : Type) where
  /-- The JSON value spells the value. -/
  Spells : Json → α → Prop

open Spelled (Spells)

/-- A type that is read by its spellings alone, and written as one of them. -/
class LawfulWire (α : Type) [Wire α] [Spelled α] : Prop where
  accepts : ∀ (j : Json) (v : α), Wire.decode? j = some v ↔ Spells j v
  written : ∀ v : α, Spells (Wire.encode v) v
  plain : ∀ v : α, (Wire.encode v).Plain

variable {α β : Type} {j : Json}

/-! ## Strings, integers and lists -/

instance : Spelled String := ⟨fun j s => j = .str s⟩

instance : Spelled Int64 := ⟨fun j n => j = .int n.toInt⟩

instance : Spelled UInt64 := ⟨fun j n => j = .int n.toNat⟩

instance : Spelled UInt8 := ⟨fun j n => j = .int n.toNat⟩

instance [Spelled α] : Spelled (List α) :=
  ⟨fun j vs => ∃ items, j = .arr items ∧ List.Forall₂ Spells items vs⟩

section

open Text.Integer

/-- A reader for a range in which every value has its own number. -/
theorem ite_range_eq_some_iff {low high n : Int} (make : Int → α) (number : α → Int) {v : α}
    (hmake : ∀ n, low ≤ n → n ≤ high → number (make n) = n) (hnumber : ∀ v, make (number v) = v)
    (hrange : ∀ v, low ≤ number v ∧ number v ≤ high) :
    (if low ≤ n ∧ n ≤ high then some (make n) else none) = some v ↔ n = number v := by
  constructor
  · intro h
    split at h
    · next hn =>
      cases h
      exact (hmake n hn.1 hn.2).symm
    · cases h
  · rintro rfl
    rw [if_pos (hrange v), hnumber]

theorem toInt64?_eq_some_iff {n : Int} {v : Int64} : toInt64? n = some v ↔ n = v.toInt :=
  ite_range_eq_some_iff Int64.ofInt Int64.toInt
    (fun _ hlow hhigh => Int64.toInt_ofInt_of_le hlow (Int.lt_add_one_of_le hhigh))
    (fun _ => Int64.ofInt_toInt _) fun v => ⟨v.le_toInt, Int.le_of_lt_add_one v.toInt_lt⟩

theorem toUInt64?_eq_some_iff {n : Int} {v : UInt64} : toUInt64? n = some v ↔ n = v.toNat := by
  refine ite_range_eq_some_iff (fun n => UInt64.ofNat n.toNat) (fun v => v.toNat)
    (fun n hlow hhigh => ?_) (fun v => ?_) fun v => ?_
  · have hlt : n.toNat < UInt64.size := by simp; omega
    rw [UInt64.toNat_ofNat_of_lt' hlt, Int.toNat_of_nonneg hlow]
  · rw [Int.toNat_natCast, UInt64.ofNat_toNat]
  · have hlt := v.toNat_lt
    omega

theorem toUInt8?_eq_some_iff {n : Int} {v : UInt8} : toUInt8? n = some v ↔ n = v.toNat := by
  refine ite_range_eq_some_iff (fun n => UInt8.ofNat n.toNat) (fun v => v.toNat)
    (fun n hlow hhigh => ?_) (fun v => ?_) fun v => ?_
  · have hlt : n.toNat < UInt8.size := by simp; omega
    rw [UInt8.toNat_ofNat_of_lt' hlt, Int.toNat_of_nonneg hlow]
  · rw [Int.toNat_natCast, UInt8.ofNat_toNat]
  · have hlt := v.toNat_lt
    omega

end

/-- An integer is read from one JSON value only. -/
theorem int?_bind_eq_some_iff {read : Int → Option α} {value : α → Int} {v : α}
    (h : ∀ n v, read n = some v ↔ n = value v) : j.int?.bind read = some v ↔ j = .int (value v) := by
  cases j with
  | int n => simp [Json.int?, h]
  | _ => simp [Json.int?]

instance : LawfulWire String where
  accepts j s := by
    cases j <;> simp [Wire.decode?, Json.str?, Spells]
  written _ := rfl
  plain s := .str s

instance : LawfulWire Int64 where
  accepts _ _ := int?_bind_eq_some_iff fun _ _ => toInt64?_eq_some_iff
  written _ := rfl
  plain n := .int n.toInt

instance : LawfulWire UInt64 where
  accepts _ _ := int?_bind_eq_some_iff fun _ _ => toUInt64?_eq_some_iff
  written _ := rfl
  plain n := .int n.toNat

instance : LawfulWire UInt8 where
  accepts _ _ := int?_bind_eq_some_iff fun _ _ => toUInt8?_eq_some_iff
  written _ := rfl
  plain n := .int n.toNat

instance [Wire α] [Spelled α] [LawfulWire α] : LawfulWire (List α) where
  accepts j vs := by
    show j.arr?.bind (fun items => items.mapM Wire.decode?) = some vs ↔ _
    simp only [Option.bind_eq_some_iff, Json.mapM_eq_some_iff, LawfulWire.accepts]
    cases j <;> simp [Json.arr?, Spells]
  written vs :=
    ⟨_, rfl, List.forall₂_map_left_iff.mpr (List.forall₂_same.mpr fun v _ => LawfulWire.written v)⟩
  plain vs := .arr _ (List.forall_mem_map.mpr fun v _ => LawfulWire.plain v)

/-! ## Records -/

namespace Json

/-- A field of a record: its name, what may stand in it, and what is written in it. -/
structure Field where
  name : String
  Accepts : Json → Prop
  written : Json
  accepts_written : Accepts written
  plain : written.Plain

namespace Field

/-- The field that holds a value of a lawful type. -/
def of [Wire α] [Spelled α] [LawfulWire α] (name : String) (v : α) : Field :=
  ⟨name, (Spells · v), Wire.encode v, LawfulWire.written v, LawfulWire.plain v⟩

@[simp] theorem of_name [Wire α] [Spelled α] [LawfulWire α] (name : String) (v : α) :
    (of name v).name = name := rfl

@[simp] theorem of_accepts [Wire α] [Spelled α] [LawfulWire α] (name : String) (v : α) :
    (of name v).Accepts j ↔ Spells j v := .rfl

/-- The field as a member of an object. -/
def member (field : Field) : String × Json := (field.name, field.written)

end Field

variable {spec : List Field}

/-- The value is a record of such fields. -/
def IsRecord (spec : List Field) (j : Json) : Prop :=
  ∃ fields, Record (spec.map Field.name) j fields ∧ List.Forall₂ Field.Accepts spec fields

/-- A reader that wants all of the fields, and reads each of them as it is described, reads the records. -/
theorem isRecord_iff {read : List Json → Option α} {v : α}
    (h : ∀ fields : List Json, fields.length = spec.length →
      (read fields = some v ↔ List.Forall₂ Field.Accepts spec fields)) :
    j.IsRecord spec ↔ (j.record? (spec.map Field.name)).bind read = some v := by
  simp only [Option.bind_eq_some_iff, record?_eq_some_iff]
  refine exists_congr fun fields => and_congr_right fun hrecord => (h fields ?_).symm
  rw [hrecord.length_eq, List.length_map]

/-- The fields are taken from an object in any order, and among other members. -/
theorem IsRecord.of_members {members : List (String × Json)} (distinct : (members.map (·.1)).Nodup)
    (h : ∀ field ∈ spec, field.member ∈ members) : IsRecord spec (.obj members) := by
  refine ⟨spec.map Field.written, .object members _ ?_, ?_⟩
  · rw [List.forall₂_map_left_iff, List.forall₂_map_right_iff]
    exact List.forall₂_same.mpr fun field hfield => lookup_of_mem distinct (h field hfield)
  · exact List.forall₂_map_right_iff.mpr (List.forall₂_same.mpr fun field _ => field.accepts_written)

/-- The fields are taken from an array in their order. -/
theorem IsRecord.of_array : IsRecord spec (.arr (spec.map Field.written)) :=
  ⟨_, .array _ (by simp only [List.length_map]),
    List.forall₂_map_right_iff.mpr (List.forall₂_same.mpr fun field _ => field.accepts_written)⟩

end Json

/-- A type that is written as an object of the fields in a table, and is read from every record of such
fields. -/
class RecordForm (α : Type) [Wire α] where
  /-- The fields of a value. -/
  fields : α → List Json.Field
  distinct : ∀ v, ((fields v).map Json.Field.name).Nodup
  accepts : ∀ (j : Json) (v : α), Wire.decode? j = some v ↔ j.IsRecord (fields v)
  written : ∀ v : α, Wire.encode v = .obj ((fields v).map Json.Field.member)

namespace RecordForm

variable [Wire α] [RecordForm α]

instance : Spelled α := ⟨fun j v => j.IsRecord (fields v)⟩

theorem distinct_members (v : α) : (((fields v).map Json.Field.member).map (·.1)).Nodup := by
  rw [List.map_map]
  exact distinct v

instance : LawfulWire α where
  accepts := accepts
  written v := by
    rw [written v]
    exact .of_members (distinct_members v) fun field hfield => List.mem_map_of_mem hfield
  plain v := by
    rw [written v]
    exact .obj _ (distinct_members v) (List.forall_mem_map.mpr fun field _ => field.plain)

end RecordForm

section

variable [Wire α] [Spelled α] [LawfulWire α]

/-- A type that wraps another one is read by the spellings of what is wrapped. -/
theorem decode?_map_eq_some_iff {wrap : α → β} {part : β → α} {v : β} (h : ∀ x, wrap x = v ↔ x = part v) :
    (Wire.decode? j).map wrap = some v ↔ Spells j (part v) := by
  simp [Option.map_eq_some_iff, LawfulWire.accepts, h]

/-- The value of a field is read by its spellings. -/
theorem decode?_bind_eq_some_iff {read : α → Option β} {v : β} :
    (Wire.decode? j).bind read = some v ↔ ∃ x : α, Spells j x ∧ read x = some v := by
  simp only [Option.bind_eq_some_iff, LawfulWire.accepts]

end

end Replica
