import TrafficLab.Command.Stream
import TrafficLab.Digest
import TrafficLab.Flow
import TrafficLab.Schedule

/-!
# Core programs

A plan says what one core does in a run: the flows it sends and receives, when it sends, and which
slots its counters fill.  A program is a plan with the packed commands that carry it out.

    size of a program and its counters = size of the commands + 12 + 8 * slots * samples
-/

namespace TrafficLab

/-- A flow that a core sends. -/
structure SourceRole where
  flow : FlowId
  key : RoutingKey
  /-- Whether packets carry the tick they are sent in. -/
  payload : Bool
  schedule : Schedule
  /-- The first tick in which packets may be sent. -/
  start : Ticks
  deriving DecidableEq, Repr

/-- A flow that a core receives. -/
structure SinkRole where
  flow : FlowId
  key : RoutingKey
  /-- The core that sends the flow. -/
  source : CoreId
  /-- Whether latencies are summed up, in ticks. -/
  latency : Bool
  deriving DecidableEq, Repr

/-- What a counter slot counts. -/
structure Slot where
  /-- The flow, unless the slot is for a router counter. -/
  flow : Option FlowId
  metric : Metric
  /-- The number of the source or sink. -/
  role : UInt8
  deriving DecidableEq, Repr

structure CorePlan where
  core : CoreId
  seed : UInt32
  timestep : Nanosecs
  runTicks : Ticks
  record : CounterSet
  /-- The ticks between two records of the counters; zero records them at the end alone. -/
  recordInterval : Ticks
  consume : Bool
  sources : List SourceRole
  sinks : List SinkRole
  slots : List Slot
  deriving DecidableEq

structure Program extends CorePlan where
  /-- The packed commands. -/
  bytes : List UInt8
  /-- By which dumps are known to come from this program. -/
  tag : UInt32
  deriving DecidableEq

/-! ## Commands -/

def Schedule.settings : Schedule → List SourceSetting
  | interval ticks => [.interval ticks]
  | bernoulli threshold none => [.probability threshold]
  | bernoulli threshold (some w) =>
    [.probability threshold, .burstPeriod w.period, .burstDuty w.duty, .burstPhase w.phase]

/-- The settings of a source.  What a source is without settings is left out: it has no payload and
starts at once. -/
def SourceRole.settings (s : SourceRole) : List SourceSetting :=
  [.key s.key.val]
  ++ (if s.payload then [.payload true] else [])
  ++ s.schedule.settings
  ++ (if s.start.count = 0 then [] else [.start s.start.count.toUInt32])

def SinkRole.settings (s : SinkRole) : List SinkSetting := [.key s.key.val, .source s.source]

namespace CorePlan

variable (p : CorePlan)

/-- The commands that come before those for sources and sinks. -/
def opening : List Command :=
  [.timestep p.timestep.count.toUInt32, .seed p.seed,
    .num (UInt8.ofNat p.sources.length) (UInt8.ofNat p.sinks.length)]
  ++ (if p.record.isEmpty then [] else [.record p.record])
  ++ (if p.recordInterval.count = 0 then [] else [.recordInterval p.recordInterval.count.toUInt32])
  ++ (if p.consume then [] else [.consume false])

def sourceCommands : List Command :=
  p.sources.zipIdx.flatMap fun (s, i) => s.settings.map (.source (UInt16.ofNat i))

def sinkCommands : List Command :=
  p.sinks.zipIdx.flatMap fun (s, j) => s.settings.map (.sink (UInt16.ofNat j))

def counterCommands : List Command :=
  p.slots.zipIdx.map fun (s, k) => .counter (UInt16.ofNat k) s.metric s.role

/-- The commands of a plan, in the order they are played. -/
def commands : List Command :=
  p.opening ++ p.sourceCommands ++ p.sinkCommands ++ p.counterCommands
  ++ [.barrier, .run p.runTicks.count.toUInt32, .exit]

/-- The program that carries out a plan. -/
def assemble : Program :=
  let bytes := Stream.pack p.commands
  { toCorePlan := p, bytes, tag := Digest.tag bytes }

/-! ## Records of the counters -/

/-- How often the counters are recorded.  The last record is made when the run ends. -/
def samples : Nat :=
  let every := p.recordInterval.toNat
  if every = 0 then 1 else max ((p.runTicks.toNat + (every - 1)) / every) 1

/-- The tick of the `k`-th record, counted from one. -/
def sampleTick (k : Nat) : Nat :=
  let every := p.recordInterval.toNat
  if every = 0 then p.runTicks.toNat else min (k * every) p.runTicks.toNat

/-- The ticks at which the counters are recorded. -/
def sampleTicks : List Nat := (List.range p.samples).map fun k => p.sampleTick (k + 1)

end CorePlan

/-! ## Size -/

/-- The part of a dump before the counters. -/
def Dump.headerSize : Nat := 12

/-- The size of a dump with `samples` records of `slots` slots. -/
def Dump.size (slots samples : Nat) : Nat := headerSize + 8 * slots * samples

/-- The memory that a program and its counters take up. -/
def Program.footprint (p : Program) : Nat := p.bytes.length + Dump.size p.slots.length p.samples

/-- The seed of a core in an experiment with the given seed. -/
def coreSeed (seed : UInt32) (core : CoreId) : UInt32 := Digest.mix seed core.val

/-! ## Stored form -/

instance : ToDatum SourceRole where
  toDatum s := .record [("flow", toDatum s.flow), ("key", toDatum s.key),
    ("payload", toDatum s.payload), ("schedule", toDatum s.schedule), ("start", toDatum s.start)]

instance : OfDatum SourceRole where
  ofDatum? d := do
    let f ← d.fields? ["flow", "key", "payload", "schedule", "start"]
    some ⟨← f.required "flow", ← f.required "key", ← f.required "payload",
      ← f.required "schedule", ← f.required "start"⟩

instance : ToDatum SinkRole where
  toDatum s := .record [("flow", toDatum s.flow), ("key", toDatum s.key),
    ("source", toDatum s.source), ("latency", toDatum s.latency)]

instance : OfDatum SinkRole where
  ofDatum? d := do
    let f ← d.fields? ["flow", "key", "source", "latency"]
    some ⟨← f.required "flow", ← f.required "key", ← f.required "source", ← f.required "latency"⟩

instance : ToDatum Slot where
  toDatum s := .record [("flow", toDatum s.flow), ("metric", toDatum s.metric),
    ("role", toDatum s.role)]

instance : OfDatum Slot where
  ofDatum? d := do
    let f ← d.fields? ["flow", "metric", "role"]
    some ⟨← f.nullable "flow", ← f.required "metric", ← f.required "role"⟩

instance : ToDatum Program where
  toDatum p := .record [("core", toDatum p.core), ("seed", toDatum p.seed),
    ("timestep", toDatum p.timestep), ("run_ticks", toDatum p.runTicks),
    ("record", toDatum p.record), ("record_interval", toDatum p.recordInterval),
    ("consume", toDatum p.consume), ("sources", toDatum p.sources), ("sinks", toDatum p.sinks),
    ("slots", toDatum p.slots), ("bytes", toDatum p.bytes), ("tag", toDatum p.tag)]

instance : OfDatum Program where
  ofDatum? d := do
    let f ← d.fields? ["core", "seed", "timestep", "run_ticks", "record", "record_interval",
      "consume", "sources", "sinks", "slots", "bytes", "tag"]
    let plan : CorePlan := ⟨← f.required "core", ← f.required "seed", ← f.required "timestep",
      ← f.required "run_ticks", ← f.required "record", ← f.withDefault "record_interval" ⟨0⟩,
      ← f.required "consume", ← f.required "sources", ← f.required "sinks", ← f.required "slots"⟩
    some { toCorePlan := plan, bytes := ← f.required "bytes", tag := ← f.required "tag" }

end TrafficLab
