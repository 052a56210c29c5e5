import Replica.Json.Basic
import Replica.Text.Quoted

/-!
# Settings of a simulated network, and the latency of replies

The settings are written as an object of four integers. Reading takes the default for a field that
is missing. The settings in use are not checked unless somebody asks: `invalidity?` names the first
field that must not be zero and is.

A reply takes about a tenth of the nominal latency: the tenth is the middle of the range, and a
third of it the spread to either side. Where the spread is nothing the latency is exactly the tenth.
`Latency.sample` turns a draw of the random source into a latency. Draws are taken below
`Latency.choices`, the width of the range.
-/

namespace Replica

/-- The settings of a simulated network and of the servers on it. -/
structure Settings where
  /-- How long a sender waits for its reply. -/
  replyTimeout : UInt64 := 3000
  /-- The nominal latency of a reply, which takes about a tenth of it. -/
  latency : UInt64 := 0
  /-- The number of workers of a server. -/
  workers : UInt64 := 1
  /-- How often a blocked sender looks again. -/
  pollInterval : UInt64 := 10
  deriving DecidableEq, Inhabited

namespace Settings

/-- The latency that is common where latency is simulated at all. -/
def commonLatency : UInt64 := 150

/-- The interval at which a condition is polled when none is set. -/
def commonPollInterval : UInt64 := 10

/-- What is wrong with the settings, if anything is. -/
def invalidity? (s : Settings) : Option String :=
  if s.replyTimeout = 0 then some "reply_timeout_ms must be > 0"
  else if s.workers = 0 then some "handler_count must be > 0"
  else if s.pollInterval = 0 then some "block_poll_interval_ms must be > 0"
  else none

/-- One of the four fields. -/
inductive Field where
  | replyTimeout
  | latency
  | workers
  | pollInterval
  deriving DecidableEq, Inhabited

namespace Field

def all : List Field := [replyTimeout, latency, workers, pollInterval]

def name : Field → String
  | replyTimeout => "reply_timeout_ms"
  | latency => "simulate_latency_ms"
  | workers => "handler_count"
  | pollInterval => "block_poll_interval_ms"

def ofName? (text : String) : Option Field := all.find? (·.name == text)

end Field

def get (s : Settings) : Field → UInt64
  | .replyTimeout => s.replyTimeout
  | .latency => s.latency
  | .workers => s.workers
  | .pollInterval => s.pollInterval

def set (s : Settings) (field : Field) (value : UInt64) : Settings :=
  match field with
  | .replyTimeout => { s with replyTimeout := value }
  | .latency => { s with latency := value }
  | .workers => { s with workers := value }
  | .pollInterval => { s with pollInterval := value }

/-- The default settings with fields changed in order, if the result is valid. -/
def build (changes : List (Field × UInt64)) : Except String Settings :=
  let s := changes.foldl (fun (s : Settings) (field, value) => s.set field value) {}
  match s.invalidity? with
  | some reason => .error reason
  | none => .ok s

def describe (s : Settings) : String :=
  Text.structured "SimulationConfig"
    (Field.all.map fun field => (field.name, toString (s.get field).toNat)) false

instance : Wire Settings where
  encode s := .obj (Field.all.map fun field => (field.name, Wire.encode (s.get field)))
  decode? j := do
    match ← j.sparse? (Field.all.map Field.name) with
    | [replyTimeout, latency, workers, pollInterval] =>
      let field (value : Option Json) (default : UInt64) : Option UInt64 :=
        match value with
        | some j => Wire.decode? j
        | none => some default
      let standard : Settings := {}
      return ⟨← field replyTimeout standard.replyTimeout, ← field latency standard.latency,
        ← field workers standard.workers, ← field pollInterval standard.pollInterval⟩
    | _ => none

end Settings

end Replica

namespace Replica.Latency

/-- The middle of the range. -/
def middle (nominal : UInt64) : UInt64 := nominal / 10

/-- The spread to either side. -/
def spread (nominal : UInt64) : UInt64 := middle nominal / 3

/-- How many values there are to draw from; nothing is drawn if there are none. -/
def choices (nominal : UInt64) : UInt64 := 2 * spread nominal

/-- The latency for a draw below `choices`. -/
def sample (nominal draw : UInt64) : UInt64 :=
  if nominal = 0 then 0
  else if spread nominal = 0 then middle nominal
  else draw + middle nominal - spread nominal

/-- The latency for any number, brought below `choices` by its remainder. -/
def sampleAny (nominal number : UInt64) : UInt64 := sample nominal (number % choices nominal)

/-- Whether a reply of this nominal latency may take `ms`. -/
def admits (nominal : UInt64) (ms : Nat) : Bool :=
  let e := nominal.toNat / 10
  let h := e / 3
  if h = 0 then ms == e else decide (e - h ≤ ms ∧ ms < e + h)

end Replica.Latency
