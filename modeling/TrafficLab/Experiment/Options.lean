import TrafficLab.Datum
import TrafficLab.Quantity

/-!
# Options

How patiently an experiment deals with its transport.
-/

namespace TrafficLab

structure RunOptions where
  /-- The attempts after the first that fails. -/
  retries : UInt64
  /-- How long one attempt may take. -/
  timeout : Duration
  /-- The pause between two attempts. -/
  backoff : Duration
  /-- The most cores that are dealt with at a time; at least one is. -/
  maxInFlight : UInt64
  /-- How much longer than the run to wait before counters are read. -/
  grace : Duration
  deriving DecidableEq, Repr

namespace RunOptions

def standard : RunOptions :=
  ⟨3, .ofSeconds 5, .ofMillis 100, 16, .ofMillis 10⟩

/-- The most permits that there can be. -/
def permitLimit : Nat := 2305843009213693951

/-- Whether there can be a permit for each core that is dealt with at a time. -/
def permitted (o : RunOptions) : Bool := o.maxInFlight.toNat ≤ permitLimit

end RunOptions

/-! ## Stored form -/

instance : ToDatum Duration where
  toDatum d := .record [("secs", .int d.seconds), ("nanos", .int d.subsecNanos)]

/-- A duration has no other fields than its seconds and nanoseconds, and its seconds fit in 64
bits. -/
instance : OfDatum Duration where
  ofDatum? d := do
    let f ← d.fields? ["secs", "nanos"]
    if !f.onlyKnown d then none
    let secs : UInt64 ← f.required "secs"
    let nanos : UInt32 ← f.required "nanos"
    Duration.ofNanos? (secs.toNat * 1000000000 + nanos.toNat)

instance : ToDatum RunOptions where
  toDatum o := .record [("retries", toDatum o.retries), ("timeout", toDatum o.timeout),
    ("backoff", toDatum o.backoff), ("max_in_flight", toDatum o.maxInFlight),
    ("grace", toDatum o.grace)]

instance : OfDatum RunOptions where
  ofDatum? d := do
    let f ← d.fields? ["retries", "timeout", "backoff", "max_in_flight", "grace"]
    some ⟨← f.required "retries", ← f.required "timeout", ← f.required "backoff",
      ← f.required "max_in_flight", ← f.required "grace"⟩

end TrafficLab
