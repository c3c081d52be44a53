import TrafficLab.Proofs.Compilation

/-!
# Compilation from tables

The stages of a compiler that keeps what it finds in tables, each filled in one place and read in
another.

    routes of flows        filled by validation, read for keys and layouts and by sinks
    layouts of cores       filled flow by flow, read by the check of each flow and for programs
    starts of groups       filled by their flows, read for timings
    keys and timings       filled in the order of the flows, read by sources and sinks
    flows                  filled from the list of them, read by sources and sinks

What is looked up may not be there, and a count may leave its 64 bits.  Then the compiler stops, and
has no outcome at all; an error is an outcome.
-/

namespace TrafficLab.Lookups

open Checked

/-! ## Stages -/

/-- What may stop before it has a result or an error. -/
abbrev Stage : Type → Type := ExceptT CompileError Option

/-- What has a result or an error, and does not stop before. -/
def done {α : Type} (x : Except CompileError α) : Stage α := ExceptT.mk (some x)

/-- Goes on with what is there, and stops if there is nothing. -/
def expect {α : Type} (x : Option α) : Stage α := ExceptT.mk (x.map .ok)

/-- Stops unless it is so. -/
def require (p : Prop) [Decidable p] : Stage Unit := if p then done (.ok ()) else ExceptT.mk none

def lookUp {κ α : Type} [Keyed κ] (t : Table κ α) (k : κ) : Stage α := expect (t.get? k)

/-! ## What validation hands on -/

/-- A valid specification with its flows in the order of their identifiers, and apart from them a
table of where they run. -/
structure RoutedSpec where
  spec : Spec
  fabric : Fabric
  flows : List Flow
  routes : Table FlowId FlowRoute

/-- Adds a flow to the identifiers that have been seen and to the routes. -/
def addRoute (fabric : Fabric) (duration : Nanosecs)
    (found : KeySet FlowId × Table FlowId FlowRoute) (flow : Flow) :
    Except SpecError (KeySet FlowId × Table FlowId FlowRoute) :=
  if found.1.contains flow.id then .error (.flow flow.id .duplicateId)
  else
    match flow.check fabric duration with
    | .error fault => .error (.flow flow.id fault)
    | .ok routed => .ok (found.1.add flow.id, found.2.insert flow.id routed.route)

/-- The order of flows. -/
def inOrder (f g : Flow) : Bool := f.id.val ≤ g.id.val

/-- Validates a specification, with the routes in the order of the listing and the flows sorted
afterwards. -/
def validate (s : Spec) : Except SpecError RoutedSpec := do
  s.checkTiming
  let fabric ← (Fabric.ofPlacement s.placement).mapError .topology
  let found ← s.flows.foldlM (addRoute fabric s.duration) (Table.empty, Table.empty)
  .ok ⟨s, fabric, s.flows.mergeSort inOrder, found.2⟩

/-! ## Times -/

/-- The tick nearest to a time. -/
def roundTicks (timestep t : Nanosecs) : Stage Nat := do
  let later ← expect (t.add? ⟨timestep.count / 2⟩)
  require (timestep.count ≠ 0)
  done (.ok (later.toNat / timestep.toNat))

/-- The first tick that is not before a time. -/
def ceilTicks (timestep t : Nanosecs) : Stage Nat := do
  require (timestep.count ≠ 0)
  let whole := t.toNat / timestep.toNat
  done (.ok (if t.toNat % timestep.toNat = 0 then whole else whole + 1))

/-! ## Keys -/

/-- Gives a flow its index.  The indices of a region are counted in 64 bits. -/
def choose (fabric : Fabric) (held : List Keys.Holding) (f : RoutedFlow) : Stage Nat := do
  require (∀ best ∈ Keys.narrowest? fabric.keyBits f.route.regions.keys, best.2.toNat < 64)
  done (Keys.choose fabric held f)

def assignKeys (fabric : Fabric) (routes : Table FlowId FlowRoute) :
    List Keys.Holding → Table FlowId RoutingKey → List Flow → Stage (Table FlowId RoutingKey)
  | _, keys, [] => done (.ok keys)
  | held, keys, flow :: rest => do
    let route ← lookUp routes flow.id
    let index ← choose fabric held { flow with route }
    let key := RoutingKey.ofIndex (UInt32.ofNat index)
    assignKeys fabric routes (⟨route.regions, index⟩ :: held) (keys.insert flow.id key) rest

/-! ## Layouts -/

/-- The roles and slots of a core. -/
structure CoreLayout where
  sources : List FlowId
  sinks : List FlowId
  slots : List Slot

namespace CoreLayout

def empty : CoreLayout := ⟨[], [], []⟩

variable (l : CoreLayout)

def addSource (flow : Flow) : CoreLayout :=
  { l with
    sources := l.sources ++ [flow.id]
    slots := l.slots ++ Layout.sourceSlots flow.id l.sources.length }

def addSink (flow : Flow) : CoreLayout :=
  { l with
    sinks := l.sinks ++ [flow.id]
    slots := l.slots ++ Layout.sinkSlots flow.id l.sinks.length flow.payload }

def addRouter (record : CounterSet) : CoreLayout :=
  { l with slots := l.slots ++ Layout.routerSlots record }

def load : Layout.Load := ⟨l.sources.length, l.sinks.length⟩

end CoreLayout

def layoutOf (layouts : Table CoreId CoreLayout) (core : CoreId) : CoreLayout :=
  (layouts.get? core).getD .empty

/-- Changes the layout of a core, which is empty if there is none. -/
def update (layouts : Table CoreId CoreLayout) (core : CoreId) (change : CoreLayout → CoreLayout) :
    Table CoreId CoreLayout :=
  layouts.insert core (change (layoutOf layouts core))

/-- Adds the source and the sinks of a flow. -/
def addRoles (layouts : Table CoreId CoreLayout) (flow : Flow) (route : FlowRoute) :
    Table CoreId CoreLayout :=
  route.sinks.foldl (fun layouts core => update layouts core (·.addSink flow))
    (update layouts route.source (·.addSource flow))

/-- Checks that a core is not overloaded. -/
def checkCore (layouts : Table CoreId CoreLayout) (core : CoreId) : Stage Unit := do
  let l ← lookUp layouts core
  if Layout.overloaded l.load then
    done (.error (.tooManyEndpoints core l.sources.length l.sinks.length))
  else done (.ok ())

/-- Lays out the flows one by one, up to the first that overloads one of its cores. -/
def layOut (routes : Table FlowId FlowRoute) :
    Table CoreId CoreLayout → List Flow → Stage (Table CoreId CoreLayout)
  | layouts, [] => done (.ok layouts)
  | layouts, flow :: rest => do
    let route ← lookUp routes flow.id
    let layouts := addRoles layouts flow route
    route.cores.forM (checkCore layouts)
    layOut routes layouts rest

/-! ## Timings -/

/-- When a flow sends. -/
structure Timing where
  schedule : Schedule
  firstTick : Ticks

/-- Moves the start of a flow's group to that of the flow if this is later. -/
def addStart (starts : Table GroupId Nanosecs) (flow : Flow) : Table GroupId Nanosecs :=
  match flow.group with
  | none => starts
  | some group =>
    let latest := (starts.get? group).getD ⟨0⟩
    starts.insert group (if latest.count < flow.start.count then flow.start else latest)

def groupStarts (flows : List Flow) : Table GroupId Nanosecs := flows.foldl addStart .empty

def startTick (timestep : Nanosecs) (starts : Table GroupId Nanosecs) (flow : Flow) : Stage Nat :=
  match flow.group with
  | some group => do
    let start ← lookUp starts group
    ceilTicks timestep start
  | none => roundTicks timestep flow.start

def timing (timestep : Nanosecs) (runTicks : Nat) (starts : Table GroupId Nanosecs) (flow : Flow) :
    Stage Timing :=
  match flow.generation.schedule timestep with
  | .error .tooHigh => done (.error (.rateTooHigh flow.id flow.generation.rate timestep))
  | .error .tooLow => done (.error (.rateTooLow flow.id flow.generation.rate timestep))
  | .ok schedule => do
    let start ← startTick timestep starts flow
    if runTicks ≤ start then done (.error (.startsAfterRun flow.id start runTicks))
    else done (.ok ⟨schedule, .ofNat start⟩)

def timings (timestep : Nanosecs) (runTicks : Nat) (starts : Table GroupId Nanosecs) :
    Table FlowId Timing → List Flow → Stage (Table FlowId Timing)
  | found, [] => done (.ok found)
  | found, flow :: rest => do
    let t ← timing timestep runTicks starts flow
    timings timestep runTicks starts (found.insert flow.id t) rest

/-! ## Programs -/

/-- What the programs of all cores are built from. -/
structure Parts where
  runTicks : Nat
  recordTicks : Nat
  keys : Table FlowId RoutingKey
  timings : Table FlowId Timing

variable (r : RoutedSpec) (parts : Parts)

/-- The flows under their identifiers. -/
def flowTable : Table FlowId Flow := .ofList (r.flows.map fun f => (f.id, f))

def source (id : FlowId) : Stage SourceRole := do
  let timing ← lookUp parts.timings id
  let key ← lookUp parts.keys id
  let flow ← lookUp (flowTable r) id
  done (.ok ⟨id, key, flow.payload.hasPayload, timing.schedule, timing.firstTick⟩)

def sink (id : FlowId) : Stage SinkRole := do
  let key ← lookUp parts.keys id
  let route ← lookUp r.routes id
  let flow ← lookUp (flowTable r) id
  done (.ok ⟨id, key, route.source, flow.payload.hasPayload⟩)

def build (core : CoreId) (layout : CoreLayout) : Stage (CoreId × Program) := do
  let sources ← layout.sources.mapM (source r parts)
  let sinks ← layout.sinks.mapM (sink r parts)
  let plan : CorePlan :=
    { core
      seed := coreSeed r.spec.seed core
      timestep := r.spec.timestep
      runTicks := .ofNat parts.runTicks
      record := r.spec.record
      recordInterval := .ofNat parts.recordTicks
      consume := r.spec.consume
      sources
      sinks
      slots := layout.slots }
  let program ← done (Compilation.program r.spec.memoryBudget plan)
  done (.ok (core, program))

/-- Compiles a valid specification. -/
def compile : Stage Compiled := do
  let spec := r.spec
  done (Compilation.word .timestep spec.timestep.toNat)
  let runTicks ← roundTicks spec.timestep spec.duration
  done (Compilation.word .runLength runTicks)
  let recordTicks ← roundTicks spec.timestep spec.recordInterval
  if spec.recordInterval.count ≠ 0 ∧ recordTicks = 0 then
    done (.error (.recordIntervalTooShort spec.recordInterval spec.timestep))
  else
    done (Compilation.word .recordInterval recordTicks)
    let keys ← assignKeys r.fabric r.routes [] .empty r.flows
    let layouts ← layOut r.routes .empty r.flows
    let layouts := layouts.map fun _ l => l.addRouter spec.record
    let timings ← timings spec.timestep runTicks (groupStarts r.flows) .empty r.flows
    let parts : Parts := ⟨runTicks, recordTicks, keys, timings⟩
    let programs ← layouts.entries.mapM fun e => build r parts e.1 e.2
    done (.ok ⟨keys, .ofList programs⟩)

end TrafficLab.Lookups
