import TrafficLab.Compilation.Error
import TrafficLab.Program
import TrafficLab.Spec.Validation

/-!
# Layouts

The roles and counter slots of a core.  A core's sources and sinks are numbered in the order of
their flows, and so are its slots: for each flow those of the source, then those of the sink, and
after all flows those of the router.
-/

namespace TrafficLab

/-! ## Slots -/

/-- Whether the core sends the flow. -/
def RoutedFlow.sentBy (f : RoutedFlow) (core : CoreId) : Bool := f.route.source == core

/-- Whether the core receives the flow. -/
def RoutedFlow.receivedBy (f : RoutedFlow) (core : CoreId) : Bool := f.route.sinks.contains core

namespace Layout

/-- The slots of a source. -/
def sourceSlots (flow : FlowId) (number : Nat) : List Slot :=
  [Metric.sent, .blocked].map fun m => ⟨some flow, m, UInt8.ofNat number⟩

/-- The slots of a sink. -/
def sinkSlots (flow : FlowId) (number : Nat) (payload : PayloadClass) : List Slot :=
  (if payload.hasPayload then [Metric.received, .latencySum, .latencySumSq] else [.received]).map
    fun m => ⟨some flow, m, UInt8.ofNat number⟩

/-- The slots of flows on a core that has already so many sources and sinks. -/
def flowSlots (core : CoreId) (sources sinks : Nat) : List RoutedFlow → List Slot
  | [] => []
  | f :: rest =>
    (if f.sentBy core then sourceSlots f.id sources else [])
    ++ (if f.receivedBy core then sinkSlots f.id sinks f.payload else [])
    ++ flowSlots core (if f.sentBy core then sources + 1 else sources)
      (if f.receivedBy core then sinks + 1 else sinks) rest

def routerSlots (record : CounterSet) : List Slot :=
  record.toList.map fun c => ⟨none, .router c, 0⟩

/-- All slots of a core. -/
def slots (core : CoreId) (record : CounterSet) (flows : List RoutedFlow) : List Slot :=
  flowSlots core 0 0 flows ++ routerSlots record

/-! ## Limits -/

/-- The most sources, or sinks, that a core can host. -/
def maxRoles : Nat := 255

/-- How many sources and sinks a core hosts. -/
structure Load where
  sources : Nat
  sinks : Nat

def loadOf (loads : Table CoreId Load) (core : CoreId) : Load := (loads.get? core).getD ⟨0, 0⟩

def addSource (loads : Table CoreId Load) (core : CoreId) : Table CoreId Load :=
  let l := loadOf loads core
  loads.insert core ⟨l.sources + 1, l.sinks⟩

def addSink (loads : Table CoreId Load) (core : CoreId) : Table CoreId Load :=
  let l := loadOf loads core
  loads.insert core ⟨l.sources, l.sinks + 1⟩

def addFlow (loads : Table CoreId Load) (f : RoutedFlow) : Table CoreId Load :=
  f.route.sinks.foldl addSink (addSource loads f.route.source)

def overloaded (l : Load) : Bool := maxRoles < l.sources || maxRoles < l.sinks

/-- Counts the roles of all cores, flow by flow, up to the first flow that overloads one of its
cores. -/
def check (loads : Table CoreId Load) : List RoutedFlow → Except CompileError Unit
  | [] => .ok ()
  | f :: rest =>
    let loads := addFlow loads f
    match f.route.cores.find? fun core => overloaded (loadOf loads core) with
    | some core =>
      let l := loadOf loads core
      .error (.tooManyEndpoints core l.sources l.sinks)
    | none => check loads rest

end Layout

end TrafficLab
