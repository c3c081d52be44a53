import TrafficLab.Report

/-!
# Merging contributions

`Report.ofDumps` reads every dump against the program of its core and merges what the cores
contribute to each flow.

A flow is merged from the roles it has, core by core in ascending order and sources before sinks.
A core that contributes nothing is listed as missing and changes nothing else, so a flow's result
depends on the dumps of its own cores alone.
-/

namespace TrafficLab

/-! ## Readouts -/

/-- A core's program and what was read back of its counters. -/
structure Readout where
  core : CoreId
  program : Program
  status : CoreStatus
  contribution : Option Contribution

def DumpStatus.coreStatus : DumpStatus → CoreStatus
  | decoded => .decoded
  | truncated _ => .truncated
  | unknown _ => .unknown

namespace Readout

/-- What was read back of a core: its dump, if there is one. -/
def ofDump? (unreachable : KeySet CoreId) (core : CoreId) (program : Program) :
    Option CounterDump → Readout
  | some dump =>
    let c := Dump.read program dump
    ⟨core, program, c.status.coreStatus, some c⟩
  | none => ⟨core, program, if unreachable.contains core then .unreachable else .missing, none⟩

variable (r : Readout)

def metric? (flow : FlowId) (m : Metric) : Option UInt64 :=
  r.contribution.bind fun c => c.flowMetric? r.program flow m

/-- A metric at each record, for programs that make more than one. -/
def series? (flow : FlowId) (m : Metric) : Option (List UInt64) :=
  if 1 < r.program.samples then r.contribution.bind fun c => c.flowSeries? r.program flow m
  else none

/-- The packets sent and blocked by a source of the flow. -/
def sourceCounts? (flow : FlowId) : Option (UInt64 × UInt64) := do
  some (← r.metric? flow .sent, ← r.metric? flow .blocked)

def coreReport : CoreReport :=
  ⟨r.status, Table.ofList ((r.contribution.map fun c => c.routerCounters r.program).getD [])⟩

end Readout

/-! ## Roles of a flow -/

section
variable (flow : FlowId) (rs : List Readout)

/-- The readouts of the sources of a flow, one for each role. -/
def sourceReadouts : List Readout :=
  rs.flatMap fun r => (r.program.sources.filter (·.flow = flow)).map fun _ => r

/-- The sinks of a flow, each with its readout. -/
def sinkReadouts : List (Readout × SinkRole) :=
  rs.flatMap fun r => (r.program.sinks.filter (·.flow = flow)).map fun s => (r, s)

/-- Whether a core has a role in the flow. -/
def Readout.hasRole (r : Readout) : Bool :=
  r.program.sources.any (·.flow = flow) || r.program.sinks.any (·.flow = flow)

/-- The sinks that contribute, each with what it received. -/
def decodedSinks : List ((Readout × SinkRole) × UInt64) :=
  (sinkReadouts flow rs).filterMap fun s => (s.1.metric? flow .received).map fun n => (s, n)

/-- The packets sent and blocked; of several sources, the last that contributes counts. -/
def sourceTotals : Option (UInt64 × UInt64) :=
  ((sourceReadouts flow rs).filterMap fun r => r.sourceCounts? flow).getLast?

/-- The cores that contribute nothing. -/
def missingCores : KeySet CoreId :=
  KeySet.ofList <|
    (((sourceReadouts flow rs).filter fun r => (r.sourceCounts? flow).isNone).map (·.core))
    ++ (((sinkReadouts flow rs).filter fun s => (s.1.metric? flow .received).isNone).map (·.1.core))

def receivedByCore : Table CoreId UInt64 :=
  Table.ofList ((decodedSinks flow rs).map fun s => (s.1.1.core, s.2))

/-- The sums of a metric over some sinks. -/
def sinkSum (sinks : List ((Readout × SinkRole) × UInt64)) (m : Metric) : UInt64 :=
  saturatingSum (sinks.map fun s => (s.1.1.metric? flow m).getD 0)

/-- The latencies over the sinks that measure them, in the timestep of the first. -/
def latencySummary? : Option LatencySummary :=
  match (decodedSinks flow rs).filter fun s => s.1.2.latency with
  | [] => none
  | first :: rest =>
    let sinks := first :: rest
    LatencySummary.ofSums? (saturatingSum (sinks.map (·.2))) (sinkSum flow sinks .latencySum)
      (sinkSum flow sinks .latencySumSq) first.1.1.program.timestep

/-- The packets sent at each record, by the last source. -/
def sentSeries : List UInt64 :=
  (((sourceReadouts flow rs).getLast?).bind fun r => r.series? flow .sent).getD []

/-- The packets received at each record, by each sink that contributes. -/
def receivedSeries : List (List UInt64) :=
  (decodedSinks flow rs).filterMap fun s => s.1.1.series? flow .received

/-- The ticks of the records; of several programs that make more than one, those of the last. -/
def recordTicks : List Nat :=
  match (rs.filter fun r => r.hasRole flow && decide (1 < r.program.samples)).getLast? with
  | some r => r.program.sampleTicks
  | none => []

def timeline : List FlowSample :=
  let sent := (sentSeries flow rs).toArray
  let received := (receivedSeries flow rs).map List.toArray
  (recordTicks flow rs).zipIdx.map fun (tick, k) =>
    ⟨.ofNat tick, sent[k]?.getD 0, saturatingSum (received.filterMap fun s => s[k]?)⟩

/-- The result of a flow. -/
def mergeFlow : FlowResult :=
  let received := receivedByCore flow rs
  let missing := missingCores flow rs
  let totals := sourceTotals flow rs
  { flow
    sent := (totals.map (·.1)).getD 0
    blocked := (totals.map (·.2)).getD 0
    received
    dropped := (totals.map fun t =>
      saturatingSub (saturatingMul t.1 (UInt64.ofNat received.size))
        (saturatingSum received.values)).getD 0
    latency := latencySummary? flow rs
    status := if missing.isEmpty then .complete else .partially missing
    timeline := timeline flow rs }

end

/-! ## Reports -/

/-- The flows that a program has a role in. -/
def Program.flows (p : Program) : List FlowId := p.sources.map (·.flow) ++ p.sinks.map (·.flow)

/-- The report of what was read back. -/
def Report.ofReadouts (rs : List Readout) : Report :=
  let flows : KeySet FlowId := KeySet.ofList (rs.flatMap fun r => r.program.flows)
  ⟨flows.map fun f _ => mergeFlow f rs,
    Table.ofList (rs.map fun r => (r.core, r.coreReport))⟩

/-- The report of a run: a core with a program but without a dump is unreachable or missing. -/
def Report.ofDumps (programs : Table CoreId Program) (dumps : Table CoreId CounterDump)
    (unreachable : KeySet CoreId) : Report :=
  .ofReadouts (programs.entries.map fun e =>
    Readout.ofDump? unreachable e.1 e.2 (dumps.get? e.1))

end TrafficLab
