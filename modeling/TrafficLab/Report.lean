import TrafficLab.Dump

/-!
# Reports

The results of an experiment: for each flow what was sent and received, and for each core how its
counters were collected.
-/

namespace TrafficLab

/-! ## Flows -/

/-- Whether every core that takes part in a flow has contributed to its result. -/
inductive ResultStatus
  | complete
  /-- The listed cores have contributed nothing. -/
  | partially (missing : KeySet CoreId)
  deriving DecidableEq

def ResultStatus.isComplete : ResultStatus → Bool
  | complete => true
  | partially _ => false

/-- The latencies of the packets that carried a time. -/
structure LatencySummary where
  samples : UInt64
  mean : Nanosecs
  /-- The standard deviation. -/
  jitter : Nanosecs
  deriving DecidableEq, Repr

/-- The summary of latencies from their number, their sum and the sum of their squares, in units of
`reference`. -/
def LatencySummary.ofSums? (samples sum sumSq : UInt64) (reference : Nanosecs) :
    Option LatencySummary :=
  if samples = 0 then none
  else
    let n := samples.toFloat
    let mean := sum.toFloat / n
    let excess := sumSq.toFloat / n - mean * mean
    let variance := if 0 < excess then excess else 0
    let unit := reference.toFloat
    some ⟨samples, ⟨(mean * unit).round.toUInt64⟩, ⟨(variance.sqrt * unit).round.toUInt64⟩⟩

/-- The counts of a flow at one record of the counters. -/
structure FlowSample where
  /-- Ticks from the start of the run. -/
  tick : Ticks
  sent : UInt64
  received : UInt64
  deriving DecidableEq, Repr

structure FlowResult where
  flow : FlowId
  /-- The packets that were sent, or 0 if the source is missing. -/
  sent : UInt64
  /-- The packets that the source could not send. -/
  blocked : UInt64
  /-- The packets that were received, by core. -/
  received : Table CoreId UInt64
  /-- The packets that were lost on the way to the cores in `received`. -/
  dropped : UInt64
  latency : Option LatencySummary
  status : ResultStatus
  /-- The counts at each record, if there was more than one. -/
  timeline : List FlowSample
  deriving DecidableEq

/-- The sum of 64-bit words, or the greatest word if it is less. -/
def saturatingAdd (a b : UInt64) : UInt64 := if a + b < a then 0xFFFFFFFFFFFFFFFF else a + b

/-- The product of 64-bit words, or the greatest word if it is less. -/
def saturatingMul (a b : UInt64) : UInt64 :=
  if a.toNat * b.toNat < UInt64.size then a * b else 0xFFFFFFFFFFFFFFFF

/-- The difference of 64-bit words, or 0 if it is more. -/
def saturatingSub (a b : UInt64) : UInt64 := if a < b then 0 else a - b

def saturatingSum (ns : List UInt64) : UInt64 := ns.foldl saturatingAdd 0

def FlowResult.totalReceived (r : FlowResult) : UInt64 := saturatingSum r.received.values

/-! ## Cores -/

/-- How the counters of a core were collected. -/
inductive CoreStatus
  | decoded
  /-- The dump ended early. -/
  | truncated
  /-- The dump was not one of the core's program. -/
  | unknown
  /-- The program could not be loaded. -/
  | unreachable
  /-- There was no dump. -/
  | missing
  deriving DecidableEq, Repr

/-- The name in data files. -/
def CoreStatus.name : CoreStatus → String
  | decoded => "decoded"
  | truncated => "truncated"
  | unknown => "unknown"
  | unreachable => "unreachable"
  | missing => "missing"

/-- The name in listings. -/
def CoreStatus.title : CoreStatus → String
  | decoded => "Decoded"
  | truncated => "Truncated"
  | unknown => "Unknown"
  | unreachable => "Unreachable"
  | missing => "Missing"

structure CoreReport where
  status : CoreStatus
  router : Table RouterCounter UInt64
  deriving DecidableEq

structure Report where
  flows : Table FlowId FlowResult
  cores : Table CoreId CoreReport
  deriving DecidableEq

namespace Report

variable (r : Report)

def isComplete : Bool := r.flows.values.all fun f => f.status.isComplete

/-- The cores whose counters were not all read. -/
def degraded : List (CoreId × CoreStatus) :=
  (r.cores.entries.filter fun e => e.2.status != .decoded).map fun e => (e.1, e.2.status)

end Report

end TrafficLab
