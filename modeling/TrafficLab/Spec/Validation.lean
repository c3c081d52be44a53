import TrafficLab.Spec
import TrafficLab.Decimal.Shortest

/-!
# Validation

`Spec.validate` checks the timing, then the placement, then the flows in the order they are listed,
and reports the first fault.  A valid specification has its flows in the order of their
identifiers, each with the cores and regions it touches.
-/

namespace TrafficLab

/-! ## Faults -/

/-- What is wrong with a flow. -/
inductive FlowFault
  | duplicateId
  | noSinks
  | unplacedEndpoint (e : EndpointId)
  | sharedSinkCore (c : CoreId)
  | unreachable (sink : EndpointId)
  | badRate (rate : Float)
  | zeroBurstPeriod
  | badDuty (duty : Float)
  | badPhase (phase : Float)
  | startsAfterEnd (start : Nanosecs)
  deriving Repr

def FlowFault.message : FlowFault → String
  | duplicateId => "duplicate flow ID"
  | noSinks => "no sinks"
  | unplacedEndpoint e => s!"endpoint {e} is not placed"
  | sharedSinkCore c => s!"more than one sink on core {c}"
  | unreachable sink => s!"sink {sink} is unreachable from the source"
  | badRate rate => s!"rate {Decimal.text rate} is not a positive number"
  | zeroBurstPeriod => "burst period is zero"
  | badDuty duty => s!"burst duty {Decimal.text duty} is outside [0, 1]"
  | badPhase phase => s!"burst phase {Decimal.text phase} is outside [0, 1]"
  | startsAfterEnd start => s!"start offset {start} is not before the end of the run"

inductive SpecError
  | zeroTimestep
  | zeroDuration
  | shorterThanTimestep (duration timestep : Nanosecs)
  | topology (e : TopologyError)
  | flow (id : FlowId) (fault : FlowFault)
  deriving Repr

namespace SpecError

def message : SpecError → String
  | zeroTimestep => "timestep is zero"
  | zeroDuration => "duration is zero"
  | shorterThanTimestep duration timestep =>
    s!"duration {duration} is shorter than one timestep ({timestep})"
  | topology _ => "invalid topology"
  | flow id fault => s!"flow {id}: {fault.message}"

/-- What lies behind an error whose message does not say it. -/
def cause? : SpecError → Option String
  | topology e => some e.message
  | _ => none

end SpecError

/-! ## Valid specifications -/

/-- Where a flow runs. -/
structure FlowRoute where
  source : CoreId
  /-- The cores of the sinks, in the order of the sinks. -/
  sinks : List CoreId
  /-- All regions that the packets pass through. -/
  regions : KeySet RegionId
  deriving DecidableEq

/-- The cores that take part in a flow. -/
def FlowRoute.cores (r : FlowRoute) : List CoreId := r.source :: r.sinks

/-- A flow and where it runs. -/
structure RoutedFlow extends Flow where
  route : FlowRoute

structure ValidSpec where
  spec : Spec
  fabric : Fabric
  flows : Table FlowId RoutedFlow

/-- The cores that host a source or a sink. -/
def ValidSpec.participants (v : ValidSpec) : KeySet CoreId :=
  KeySet.ofList (v.flows.values.flatMap fun f => f.route.cores)

/-! ## Checks -/

/-- Finds the core of each sink: another core for each, that can be reached from the source. -/
def sinkCores (fabric : Fabric) (source : CoreId) (found : List CoreId) :
    List EndpointId → Except FlowFault (List CoreId)
  | [] => .ok found.reverse
  | sink :: rest =>
    match fabric.coreOf sink with
    | none => .error (.unplacedEndpoint sink)
    | some core =>
      if core ∈ found then .error (.sharedSinkCore core)
      else
        match fabric.regionsBetween source core with
        | none => .error (.unreachable sink)
        | some _ => sinkCores fabric source (core :: found) rest

/-- Finds where a flow runs. -/
def Flow.route (fabric : Fabric) (flow : Flow) : Except FlowFault FlowRoute :=
  match flow.sinks with
  | [] => .error .noSinks
  | first :: _ =>
    match fabric.coreOf flow.source with
    | none => .error (.unplacedEndpoint flow.source)
    | some source => do
      let sinks ← sinkCores fabric source [] flow.sinks
      match fabric.multicastRegions source sinks with
      | none => .error (.unreachable first)
      | some regions => .ok ⟨source, sinks, regions⟩

def isFraction (x : Float) : Bool := 0 ≤ x && x ≤ 1

def Generation.check (g : Generation) : Except FlowFault Unit :=
  if !g.rate.isFinite || g.rate ≤ 0 then .error (.badRate g.rate)
  else
    match g.burst? with
    | none => .ok ()
    | some burst =>
      if burst.period.count = 0 then .error .zeroBurstPeriod
      else if !isFraction burst.duty then .error (.badDuty burst.duty)
      else if !isFraction burst.phase then .error (.badPhase burst.phase)
      else .ok ()

/-- Checks a flow in a run of the given length and finds where it runs. -/
def Flow.check (fabric : Fabric) (duration : Nanosecs) (flow : Flow) :
    Except FlowFault RoutedFlow := do
  let route ← flow.route fabric
  flow.generation.check
  if duration.count ≤ flow.start.count then throw (.startsAfterEnd flow.start)
  .ok { flow with route }

/-- Adds a flow to those that have been checked. -/
def addFlow (fabric : Fabric) (duration : Nanosecs) (checked : Table FlowId RoutedFlow)
    (flow : Flow) : Except SpecError (Table FlowId RoutedFlow) :=
  if checked.contains flow.id then .error (.flow flow.id .duplicateId)
  else
    match flow.check fabric duration with
    | .error fault => .error (.flow flow.id fault)
    | .ok routed => .ok (checked.insert flow.id routed)

def Spec.checkTiming (s : Spec) : Except SpecError Unit :=
  if s.timestep.count = 0 then .error .zeroTimestep
  else if s.duration.count = 0 then .error .zeroDuration
  else if s.duration.count < s.timestep.count then
    .error (.shorterThanTimestep s.duration s.timestep)
  else .ok ()

def Spec.validate (s : Spec) : Except SpecError ValidSpec := do
  s.checkTiming
  let fabric ← (Fabric.ofPlacement s.placement).mapError .topology
  let flows ← s.flows.foldlM (addFlow fabric s.duration) Table.empty
  .ok ⟨s, fabric, flows⟩

end TrafficLab
