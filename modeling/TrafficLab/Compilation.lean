import TrafficLab.Compilation.Keys
import TrafficLab.Compilation.Layout
import TrafficLab.Schedule.Quantization

/-!
# Compilation

A valid specification becomes one program for each core that takes part.  The stages each add to the
flows what the next one needs: keys, then schedules and start ticks; the program of a core is put
together from the flows that it sends and receives.

A flow starts at the tick nearest to the time it asks for; the flows of a group all start at the
first tick at which every one of them may.
-/

namespace TrafficLab

/-- A flow with all that its cores have to know about it. -/
structure PlannedFlow extends KeyedFlow where
  schedule : Schedule
  /-- The first tick in which packets may be sent. -/
  firstTick : Ticks

structure Compiled where
  keys : Table FlowId RoutingKey
  programs : Table CoreId Program
  deriving DecidableEq

namespace Compilation

/-! ## Timing -/

/-- A count that fits in a command word. -/
def word (what : Extent) (value : Nat) : Except CompileError Unit :=
  if value < UInt32.size then .ok () else .error (.unrepresentable what value)

/-- The time at which every flow of a group may start. -/
def groupStart (flows : List RoutedFlow) (group : GroupId) : Nanosecs :=
  (flows.filter fun f => f.group == some group).foldl
    (fun latest f => if latest.count < f.start.count then f.start else latest) ⟨0⟩

/-- The tick at which a flow starts. -/
def startTick (timestep : Nanosecs) (flows : List RoutedFlow) (f : Flow) : Nat :=
  match f.group with
  | some group => Nanosecs.ceilTicks timestep (groupStart flows group)
  | none => Nanosecs.roundTicks timestep f.start

/-- Fits a flow into a run of the given length. -/
def plan (timestep : Nanosecs) (runTicks : Nat) (flows : List RoutedFlow) (f : KeyedFlow) :
    Except CompileError PlannedFlow :=
  match f.generation.schedule timestep with
  | .error .tooHigh => .error (.rateTooHigh f.id f.generation.rate timestep)
  | .error .tooLow => .error (.rateTooLow f.id f.generation.rate timestep)
  | .ok schedule =>
    let start := startTick timestep flows f.toFlow
    if runTicks ≤ start then .error (.startsAfterRun f.id start runTicks)
    else .ok { f with schedule, firstTick := .ofNat start }

/-! ## Programs -/

def sourceRole (f : PlannedFlow) : SourceRole :=
  ⟨f.id, f.key, f.payload.hasPayload, f.schedule, f.firstTick⟩

def sinkRole (f : PlannedFlow) : SinkRole :=
  ⟨f.id, f.key, f.route.source, f.payload.hasPayload⟩

/-- What a core does in the experiment. -/
def corePlan (spec : Spec) (runTicks recordTicks : Nat) (flows : List PlannedFlow) (core : CoreId) :
    CorePlan :=
  { core
    seed := coreSeed spec.seed core
    timestep := spec.timestep
    runTicks := .ofNat runTicks
    record := spec.record
    recordInterval := .ofNat recordTicks
    consume := spec.consume
    sources := (flows.filter fun f => f.sentBy core).map sourceRole
    sinks := (flows.filter fun f => f.receivedBy core).map sinkRole
    slots := Layout.slots core spec.record (flows.map (·.toRoutedFlow)) }

/-- The program of a core, unless it takes up more memory than there is. -/
def program (budget : Bytes) (plan : CorePlan) : Except CompileError Program :=
  let p := plan.assemble
  if budget.toNat < p.footprint then .error (.programTooLarge plan.core p.footprint budget)
  else .ok p

end Compilation

open Compilation in
/-- Compiles a valid specification. -/
def compile (v : ValidSpec) : Except CompileError Compiled := do
  let spec := v.spec
  word .timestep spec.timestep.toNat
  let runTicks := Nanosecs.roundTicks spec.timestep spec.duration
  word .runLength runTicks
  let recordTicks := Nanosecs.roundTicks spec.timestep spec.recordInterval
  if spec.recordInterval.count ≠ 0 ∧ recordTicks = 0 then
    throw (.recordIntervalTooShort spec.recordInterval spec.timestep)
  word .recordInterval recordTicks
  let flows := v.flows.values
  let keyed ← Keys.assign v.fabric [] flows
  Layout.check Table.empty flows
  let planned ← keyed.mapM (plan spec.timestep runTicks flows)
  let programs ← v.participants.keys.mapM fun core =>
    let plan := corePlan spec runTicks recordTicks planned core
    (program spec.memoryBudget plan).map fun p => (core, p)
  .ok ⟨Table.ofList (keyed.map fun f => (f.id, f.key)), Table.ofList programs⟩

end TrafficLab
