import TrafficLab.Datum
import TrafficLab.Quantity

/-!
# Flows

A flow is one source sending multicast packets to several sinks, with a policy for when to send.
-/

namespace TrafficLab

instance {m : Measure} : ToDatum (Quantity m) := ⟨fun q => toDatum q.count⟩
instance {m : Measure} : OfDatum (Quantity m) := ⟨fun d => (ofDatum? d).map Quantity.mk⟩

/-- A repeating window in which packets may be sent. -/
structure Burst where
  /-- The length of one cycle. -/
  period : Nanosecs
  /-- The part of the cycle in which the window is open. -/
  duty : Float
  /-- The part of the cycle that has gone by at the start. -/
  phase : Float
  deriving BEq, Repr

/-- When a source sends.  Rates are packets per second. -/
inductive Generation
  /-- One packet every `1 / rate` seconds. -/
  | periodic (rate : Float)
  /-- Independent trials, one in each timestep. -/
  | poisson (rate : Float)
  /-- Independent trials while a burst window is open. -/
  | bursty (rate : Float) (burst : Burst)
  deriving BEq, Repr

namespace Generation

def rate : Generation → Float
  | periodic rate => rate
  | poisson rate => rate
  | bursty rate _ => rate

def burst? : Generation → Option Burst
  | bursty _ burst => some burst
  | _ => none

end Generation

/-- What a packet carries.  Only a payload has room for the time of sending, from which sinks
measure latencies. -/
inductive PayloadClass
  | keyOnly
  | withPayload
  deriving DecidableEq, Repr

def PayloadClass.hasPayload : PayloadClass → Bool
  | keyOnly => false
  | withPayload => true

structure Flow where
  id : FlowId
  source : EndpointId
  /-- The receivers, in the order they are declared. -/
  sinks : List EndpointId
  generation : Generation
  payload : PayloadClass
  /-- When to begin, from the start of the run. -/
  start : Nanosecs
  /-- Flows of one group begin together. -/
  group : Option GroupId
  deriving BEq, Repr

/-! ## Stored form -/

instance : ToDatum Burst where
  toDatum b := .record [("period", toDatum b.period), ("duty", toDatum b.duty),
    ("phase", toDatum b.phase)]

instance : OfDatum Burst where
  ofDatum? d := do
    let f ← d.fields? ["period", "duty", "phase"]
    some ⟨← f.required "period", ← f.required "duty", ← f.withDefault "phase" 0⟩

instance : ToDatum Generation where
  toDatum
    | .periodic rate => .record [("kind", .text "periodic"), ("rate", toDatum rate)]
    | .poisson rate => .record [("kind", .text "poisson"), ("rate", toDatum rate)]
    | .bursty rate burst =>
      .record [("kind", .text "bursty"), ("rate", toDatum rate), ("burst", toDatum burst)]

instance : OfDatum Generation where
  ofDatum? d := do
    let (kind, body) ← d.tagged? "kind"
    match kind with
    | "periodic" =>
      let f ← body.fields? ["rate"]
      some (.periodic (← f.required "rate"))
    | "poisson" =>
      let f ← body.fields? ["rate"]
      some (.poisson (← f.required "rate"))
    | "bursty" =>
      let f ← body.fields? ["rate", "burst"]
      some (.bursty (← f.required "rate") (← f.required "burst"))
    | _ => none

def PayloadClass.name : PayloadClass → String
  | keyOnly => "key_only"
  | withPayload => "with_payload"

instance : ToDatum PayloadClass := ⟨fun p => .text p.name⟩

instance : OfDatum PayloadClass where
  ofDatum? d := do
    match ← d.plainChoice? with
    | "key_only" => some .keyOnly
    | "with_payload" => some .withPayload
    | _ => none

instance : ToDatum Flow where
  toDatum f := .record [("id", toDatum f.id), ("source", toDatum f.source),
    ("sinks", toDatum f.sinks), ("generation", toDatum f.generation),
    ("payload", toDatum f.payload), ("start", toDatum f.start), ("group", toDatum f.group)]

instance : OfDatum Flow where
  ofDatum? d := do
    let f ← d.fields? ["id", "source", "sinks", "generation", "payload", "start", "group"]
    some ⟨← f.required "id", ← f.required "source", ← f.required "sinks",
      ← f.required "generation", ← f.withDefault "payload" .keyOnly, ← f.withDefault "start" ⟨0⟩,
      ← f.withDefault "group" none⟩

end TrafficLab
