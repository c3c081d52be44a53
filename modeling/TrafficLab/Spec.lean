import TrafficLab.Fabric
import TrafficLab.Flow
import TrafficLab.Metric

/-!
# Experiment specifications

A specification is a placement, the flows over it, and the timing that all cores share.
-/

namespace TrafficLab

structure Spec where
  placement : Placement
  flows : List Flow
  /-- How long traffic is generated. -/
  duration : Nanosecs
  /-- The time slice of all traffic generators. -/
  timestep : Nanosecs
  /-- The seed from which each core's seed is made. -/
  seed : UInt32
  /-- The router counters that each core records. -/
  record : CounterSet
  /-- The time between two records of the counters; zero records them once, at the end. -/
  recordInterval : Nanosecs
  /-- Whether sinks take the packets that reach them. -/
  consume : Bool
  /-- The memory a core has for its program and its counters. -/
  memoryBudget : Bytes
  deriving BEq

/-- Eight kilobytes. -/
def Spec.defaultBudget : Bytes := ⟨8 * 1024⟩

/-! ## Stored form -/

instance : ToDatum Spec where
  toDatum s := .record [("placement", toDatum s.placement), ("flows", toDatum s.flows),
    ("duration", toDatum s.duration), ("timestep", toDatum s.timestep), ("seed", toDatum s.seed),
    ("record", toDatum s.record), ("record_interval", toDatum s.recordInterval),
    ("consume", toDatum s.consume), ("memory_budget", toDatum s.memoryBudget)]

instance : OfDatum Spec where
  ofDatum? d := do
    let f ← d.fields? ["placement", "flows", "duration", "timestep", "seed", "record",
      "record_interval", "consume", "memory_budget"]
    some ⟨← f.required "placement", ← f.required "flows", ← f.required "duration",
      ← f.required "timestep", ← f.withDefault "seed" 0, ← f.withDefault "record" .empty,
      ← f.withDefault "record_interval" ⟨0⟩, ← f.withDefault "consume" true,
      ← f.withDefault "memory_budget" Spec.defaultBudget⟩

end TrafficLab
