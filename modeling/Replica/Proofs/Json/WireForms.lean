import Replica.Log.Entry
import Replica.Machine.Application
import Replica.Machine.Transaction
import Replica.Network.Settings
import Replica.Proofs.Json.Spellings
import Replica.Proofs.Log.Groups

/-!
# Round trips of wire forms

Every wire form is lawful. So each value is read back from the JSON value that is written for it, and from the
text of that; and whatever spelling of a value was accepted, what is written for the value is the same
(`RoundTrips`, `wire_forms_round_trip`). What is accepted is said for each type beside its instance: a type of
records is given by the table of its fields.
-/

namespace Replica

open Json (Sparse)
open Spelled (Spells)

variable {j : Json}

/-! ## Peers -/

instance : Spelled PeerId := ⟨fun j id => Spells j id.name⟩

instance : LawfulWire PeerId where
  accepts _ id := decode?_map_eq_some_iff fun name => by cases id; simp
  written _ := rfl
  plain id := .str id.name

instance : RecordForm Peer where
  fields p := [.of "id" p.id, .of "address" p.address]
  distinct _ := by simp
  accepts _ p := .symm <| Json.isRecord_iff fun fields hlength => by
    match fields, hlength with
    | [_, _], _ => cases p; simp [decode?_bind_eq_some_iff]
  written _ := rfl

/-! ## The log -/

instance : RecordForm LogPosition where
  fields p := [.of "term" p.term, .of "index" p.index]
  distinct _ := by simp
  accepts _ p := .symm <| Json.isRecord_iff fun fields hlength => by
    match fields, hlength with
    | [_, _], _ => cases p; simp [decode?_bind_eq_some_iff]
  written _ := rfl

instance : Spelled GroupId := ⟨fun j g => ∃ text, j = .str text ∧ g.SpelledBy text⟩

instance : LawfulWire GroupId where
  accepts j g := by
    show j.str?.bind GroupId.ofText? = some g ↔ _
    simp only [Option.bind_eq_some_iff, GroupId.ofText?_eq_some_iff]
    cases j <;> simp [Json.str?, Spells]
  written g := ⟨_, rfl, g.spelledBy_text⟩
  plain g := .str g.text

/-- A payload is spelled by its bytes, or by the text that they encode. -/
instance : Spelled Payload := ⟨fun j p => Spells j p.bytes ∨ ∃ text, j = .str text ∧ p = .ofString text⟩

instance : LawfulWire Payload where
  accepts j p := by
    have hbytes : (Wire.decode? j).map Payload.mk = some p ↔ Spells j p.bytes :=
      decode?_map_eq_some_iff fun bytes => by cases p; simp
    cases j with
    | str text => simp [Wire.decode?, Spells, eq_comm]
    | _ => exact hbytes.trans (or_iff_left (by simp)).symm
  written p := .inl (LawfulWire.written p.bytes)
  plain p := LawfulWire.plain p.bytes

instance : RecordForm LogEntry where
  fields e := [.of "term" e.term, .of "index" e.index, .of "data" e.data]
  distinct _ := by simp
  accepts _ e := .symm <| Json.isRecord_iff fun fields hlength => by
    match fields, hlength with
    | [_, _, _], _ => cases e; simp [decode?_bind_eq_some_iff]
  written _ := rfl

instance : RecordForm ClientRequest where
  fields r := [.of "client_id" r.client, .of "server_id" r.server, .of "group_id" r.group,
    .of "call_id" r.callId, .of "message" r.message]
  distinct _ := by simp
  accepts _ r := .symm <| Json.isRecord_iff fun fields hlength => by
    match fields, hlength with
    | [_, _, _, _, _], _ => cases r; simp [decode?_bind_eq_some_iff]
  written _ := rfl

/-! ## Snapshots -/

instance : RecordForm StorageRoot where
  fields s := [.of "root" s.path]
  distinct _ := by simp
  accepts _ s := .symm <| Json.isRecord_iff fun fields hlength => by
    match fields, hlength with
    | [_], _ => cases s; simp [decode?_bind_eq_some_iff]
  written _ := rfl

instance : RecordForm Snapshot where
  fields s := [.of "term_index" s.position, .of "files" s.files]
  distinct _ := by simp
  accepts _ s := .symm <| Json.isRecord_iff fun fields hlength => by
    match fields, hlength with
    | [_, _], _ => cases s; simp [decode?_bind_eq_some_iff]
  written _ := rfl

instance : RecordForm Retention where
  fields r := [.of "num_snapshots_retained" r.kept]
  distinct _ := by simp
  accepts _ r := .symm <| Json.isRecord_iff fun fields hlength => by
    match fields, hlength with
    | [_], _ => cases r; simp [decode?_bind_eq_some_iff]
  written _ := rfl

/-! ## Settings -/

namespace Settings

/-- A field that is there spells its value; one that is missing has the default. -/
inductive Part (s : Settings) (field : Field) : Option Json → Prop where
  | spelled (j : Json) (h : Spells j (s.get field)) : Part s field (some j)
  | missing (h : s.get field = ({} : Settings).get field) : Part s field none

/-- The fields of a record of settings, any of which may be missing. -/
instance : Spelled Settings :=
  ⟨fun j s => ∃ found, Sparse (Field.all.map Field.name) j found ∧ List.Forall₂ s.Part Field.all found⟩

variable {s : Settings} {members : List (String × Json)}

theorem Field.mem_all (field : Field) : field ∈ all := by cases field <;> decide

theorem spells_obj_iff : Spells (.obj members) s ↔ ∀ field : Field, s.Part field (members.lookup field.name) := by
  constructor
  · rintro ⟨_, ⟨⟩, hparts⟩ field
    simp only [List.forall₂_map_right_iff, List.forall₂_same] at hparts
    exact hparts field field.mem_all
  · intro h
    refine ⟨_, .object members, ?_⟩
    simp only [List.forall₂_map_right_iff, List.forall₂_same]
    exact fun field _ => h field

theorem part_iff {field : Field} {found : Option Json} : s.Part field found ↔
    (match found with
      | some j => Wire.decode? j
      | none => some (({} : Settings).get field)) = some (s.get field) := by
  constructor
  · rintro (⟨j, h⟩ | h)
    · exact (LawfulWire.accepts _ _).mpr h
    · exact congrArg some h.symm
  · intro h
    cases found with
    | some j => exact .spelled j ((LawfulWire.accepts _ _).mp h)
    | none => exact .missing (Option.some.inj h).symm

theorem distinct_names : (Field.all.map Field.name).Nodup := by decide

theorem distinct_members (s : Settings) :
    ((Field.all.map fun field => (field.name, Wire.encode (s.get field))).map (·.1)).Nodup := by
  rw [List.map_map]
  exact distinct_names

instance : LawfulWire Settings where
  accepts j s := by
    show (j.sparse? (Field.all.map Field.name)).bind _ = some s ↔ _
    simp only [Option.bind_eq_some_iff, Json.sparse?_eq_some_iff]
    refine exists_congr fun found => and_congr_right fun hsparse => ?_
    match found, hsparse.length_eq with
    | [_, _, _, _], _ =>
      simp only [Option.bind_eq_bind, Option.bind_eq_some_iff, Option.pure_def, Option.some.injEq]
      constructor
      · rintro ⟨_, hreplyTimeout, _, hlatency, _, hworkers, _, hpollInterval, rfl⟩
        exact .cons (part_iff.mpr hreplyTimeout) <| .cons (part_iff.mpr hlatency) <|
          .cons (part_iff.mpr hworkers) <| .cons (part_iff.mpr hpollInterval) .nil
      · intro hparts
        simp only [Field.all, List.forall₂_cons] at hparts
        obtain ⟨hreplyTimeout, hlatency, hworkers, hpollInterval, -⟩ := hparts
        exact ⟨_, part_iff.mp hreplyTimeout, _, part_iff.mp hlatency, _, part_iff.mp hworkers,
          _, part_iff.mp hpollInterval, rfl⟩
  written s := spells_obj_iff.mpr fun field => by
    rw [Json.lookup_of_mem s.distinct_members (List.mem_map_of_mem field.mem_all)]
    exact .spelled _ (LawfulWire.written _)
  plain s := .obj _ s.distinct_members (List.forall_mem_map.mpr fun field _ => LawfulWire.plain (s.get field))

/-- An object is read as settings with a default for every field that is not among its members. -/
theorem decode?_obj_iff : Wire.decode? (.obj members) = some s ↔
    ∀ field : Field, s.Part field (members.lookup field.name) := by
  rw [LawfulWire.accepts, spells_obj_iff]

end Settings

/-! ## Round trips -/

/-- What is written for a value is read as that value, and is the same for all spellings of it. -/
structure RoundTrips (α : Type) [Wire α] [Spelled α] : Prop where
  /-- The spellings of a value are accepted, and nothing else. -/
  accepts : ∀ (j : Json) (v : α), Wire.decode? j = some v ↔ Spells j v
  /-- A value comes back from its written form. -/
  returns : ∀ v : α, Wire.decode? (Wire.encode v) = some v
  /-- A value comes back from the text of its written form. -/
  returnsFromText : ∀ v : α, (Json.parse? (Wire.encode v).compact).bind Wire.decode? = some v
  /-- What was accepted is rewritten once, and then stays as it is. -/
  settles : ∀ j j' : Json, (Wire.decode? j : Option α).map Wire.encode = some j' →
    (Wire.decode? j' : Option α) = Wire.decode? j ∧ (Wire.decode? j' : Option α).map Wire.encode = some j'
  /-- Two spellings are rewritten to the same text if and only if they are read alike. -/
  canonical : ∀ (j j' : Json) (v v' : α), Wire.decode? j = some v → Wire.decode? j' = some v' →
    ((Wire.encode v).compact = (Wire.encode v').compact ↔ (Wire.decode? j : Option α) = Wire.decode? j')

/-- Records are written as the object of their fields, and read from any object with these members and from
the array of them. -/
structure RecordRoundTrips (α : Type) [Wire α] [RecordForm α] : Prop extends RoundTrips α where
  writes : ∀ v : α, Wire.encode v = .obj ((RecordForm.fields v).map Json.Field.member)
  readsObject : ∀ (v : α) (members : List (String × Json)), (members.map (·.1)).Nodup →
    (∀ field ∈ RecordForm.fields v, field.member ∈ members) → Wire.decode? (.obj members) = some v
  readsArray : ∀ v : α, Wire.decode? (.arr ((RecordForm.fields v).map Json.Field.written)) = some v

theorem RoundTrips.of_lawful {α : Type} [Wire α] [Spelled α] [LawfulWire α] : RoundTrips α := by
  have returns (v : α) : Wire.decode? (Wire.encode v) = some v :=
    (LawfulWire.accepts _ _).mpr (LawfulWire.written v)
  have htext (v : α) : Json.parse? (Wire.encode v).compact = some (Wire.encode v) :=
    Json.parse?_compact (LawfulWire.plain v)
  refine ⟨LawfulWire.accepts, returns, ?_, ?_, ?_⟩
  · intro v
    rw [htext, Option.bind_some, returns]
  · intro j j' h
    obtain ⟨v, hv, rfl⟩ := Option.map_eq_some_iff.mp h
    rw [returns, hv]
    exact ⟨rfl, rfl⟩
  · intro j j' v v' hv hv'
    rw [hv, hv', Option.some.injEq]
    refine ⟨fun h => ?_, fun h => h ▸ rfl⟩
    have hwritten : Wire.encode v = Wire.encode v' := Option.some.inj (by rw [← htext v, h, htext])
    exact Option.some.inj (by rw [← returns v, hwritten, returns])

theorem RecordRoundTrips.of_form {α : Type} [Wire α] [RecordForm α] : RecordRoundTrips α where
  toRoundTrips := .of_lawful
  writes := RecordForm.written
  readsObject v _ distinct h := (RecordForm.accepts _ v).mpr (.of_members distinct h)
  readsArray v := (RecordForm.accepts _ v).mpr .of_array

/-- The JSON values that are written, with the names and the order of their fields. -/
structure Layouts : Prop where
  peerId : ∀ id : PeerId, Wire.encode id = .str id.name
  peer : ∀ p : Peer, Wire.encode p = .obj [("id", .str p.id.name), ("address", .str p.address)]
  position : ∀ p : LogPosition,
    Wire.encode p = .obj [("term", .int p.term.toInt), ("index", .int p.index.toInt)]
  group : ∀ g : GroupId, Wire.encode g = .str g.text
  payload : ∀ p : Payload, Wire.encode p = .arr (p.bytes.map fun b => .int b.toNat)
  entry : ∀ e : LogEntry, Wire.encode e =
    .obj [("term", .int e.term.toInt), ("index", .int e.index.toInt), ("data", Wire.encode e.data)]
  request : ∀ r : ClientRequest, Wire.encode r =
    .obj [("client_id", .str r.client.name), ("server_id", .str r.server.name), ("group_id", .str r.group.text),
      ("call_id", .int r.callId.toNat), ("message", Wire.encode r.message)]
  storage : ∀ s : StorageRoot, Wire.encode s = .obj [("root", .str s.path)]
  snapshot : ∀ s : Snapshot, Wire.encode s =
    .obj [("term_index", Wire.encode s.position), ("files", .arr (s.files.map .str))]
  retention : ∀ r : Retention, Wire.encode r = .obj [("num_snapshots_retained", .int r.kept.toNat)]
  settings : ∀ s : Settings, Wire.encode s =
    .obj [("reply_timeout_ms", .int s.replyTimeout.toNat), ("simulate_latency_ms", .int s.latency.toNat),
      ("handler_count", .int s.workers.toNat), ("block_poll_interval_ms", .int s.pollInterval.toNat)]

/-- What can be relied on in the wire forms. -/
structure WireForms : Prop where
  peerId : RoundTrips PeerId
  peer : RecordRoundTrips Peer
  position : RecordRoundTrips LogPosition
  group : RoundTrips GroupId
  payload : RoundTrips Payload
  entry : RecordRoundTrips LogEntry
  request : RecordRoundTrips ClientRequest
  storage : RecordRoundTrips StorageRoot
  snapshot : RecordRoundTrips Snapshot
  retention : RecordRoundTrips Retention
  settings : RoundTrips Settings
  layouts : Layouts
  defaults : ({} : Settings) = ⟨3000, 0, 1, 10⟩
  partialSettings : ∀ (members : List (String × Json)) (s : Settings),
    Wire.decode? (.obj members) = some s ↔ ∀ field : Settings.Field, s.Part field (members.lookup field.name)

/-- All wire forms come back from what is written for them, which is one JSON value for every spelling. -/
theorem wire_forms_round_trip : WireForms where
  peerId := .of_lawful
  peer := .of_form
  position := .of_form
  group := .of_lawful
  payload := .of_lawful
  entry := .of_form
  request := .of_form
  storage := .of_form
  snapshot := .of_form
  retention := .of_form
  settings := .of_lawful
  layouts := by constructor <;> exact fun _ => rfl
  defaults := rfl
  partialSettings _ _ := Settings.decode?_obj_iff

end Replica
