import TrafficLab.Chain
import TrafficLab.Chip.Machine
import TrafficLab.CommandLine.Options
import TrafficLab.Experiment
import TrafficLab.File

/-!
# The command line

Runs a chain experiment, or one from a file, on a simulated machine and prints what became of each
flow.

The program reads and writes files through `Files`, so what it does is the same for any place that
files are kept in.
-/

namespace TrafficLab.CommandLine

/-! ## Files and results -/

/-- Where files are kept.  Errors are reasons. -/
structure Files (m : Type → Type) where
  read : String → m (Except String (List UInt8))
  write : String → List UInt8 → m (Except String Unit)

/-- How the program ends. -/
structure Exit where
  code : UInt8
  out : String
  err : String
  deriving DecidableEq, Repr

/-- An error that ends the program, and what lies behind it. -/
structure Failure where
  message : String
  cause : Option String

def Failure.text (f : Failure) : String :=
  match f.cause with
  | some cause => "Error: " ++ f.message ++ "\n\nCaused by:\n    " ++ cause ++ "\n"
  | none => "Error: " ++ f.message ++ "\n"

def Failure.ofFile (e : FileError) : Failure := ⟨e.message, e.cause?⟩

def Failure.ofSpec (e : SpecError) : Failure := ⟨e.message, e.cause?⟩

def Failure.ofExperiment (e : ExperimentError) : Failure := ⟨e.message, e.cause?⟩

/-! ## Printing results -/

/-- The packets that each flow is expected to send. -/
def expectedPackets (c : Compiled) : Table FlowId Float :=
  Table.ofList <| c.programs.values.flatMap fun p =>
    p.sources.filterMap fun s =>
      (s.schedule.expectedPackets? (saturatingSub p.runTicks.count s.start.count)).map fun x =>
        (s.flow, x)

def latencyText : Option LatencySummary → String
  | some l => s!"latency {l.mean} +/- {l.jitter}"
  | none => "no latency"

def flowLine (expected : Float) (r : FlowResult) : String :=
  s!"flow {r.flow}: sent {r.sent.toNat} (expected {Decimal.wholeText expected}), "
  ++ s!"blocked {r.blocked.toNat}, received {r.totalReceived.toNat}, dropped {r.dropped.toNat}, "
  ++ latencyText r.latency ++ "\n"

def coreLine (core : CoreId) (status : CoreStatus) : String := s!"core {core}: {status.title}\n"

/-- What is printed about a report. -/
def reportText (expected : Table FlowId Float) (r : Report) : String :=
  String.join (r.flows.entries.map fun (id, result) => flowLine ((expected.get? id).getD 0) result)
  ++ String.join (r.degraded.map fun (core, status) => coreLine core status)

/-! ## Running -/

variable {m : Type → Type} [Monad m]

def readSpec (files : Files m) (path : String) : m (Except Failure Spec) := do
  match ← files.read path with
  | .error reason => pure (.error (.ofFile (.unreadable reason)))
  | .ok contents => pure ((Spec.ofFile path contents).mapError .ofFile)

/-- The chain that the options describe. -/
def chainSpec (o : Options) : Except Failure Spec :=
  if o.regions < 2 then .error ⟨"need at least two regions", none⟩
  else
    match o.duration.toNanosecs?, o.timestep.toNanosecs?, o.recordInterval.toNanosecs? with
    | some duration, some timestep, some recordInterval =>
      .ok (Chain.spec
        { regions := o.regions.toNat
          cores := o.cores.toNat
          generation := if o.poisson then .poisson o.rate else .periodic o.rate
          duration
          timestep
          recordInterval
          seed := o.seed })
    | _, _, _ => .error ⟨"time is too long", none⟩

def machineConfig (o : Options) : MachineConfig :=
  { MachineConfig.standard with
    network := { MachineConfig.standard.network with loss := .ofRate o.dropRate } }

def write (files : Files m) (path : String) (contents : List UInt8) : m (Except Failure Unit) := do
  match ← files.write path contents with
  | .error reason => pure (.error (.ofFile (.unreadable reason)))
  | .ok () => pure (.ok ())

/-- Saves what the report is made from. -/
def saveArchive (files : Files m) (o : Options) (e : Experiment) : ExceptT Failure m Unit := do
  match o.archive, e.capture? with
  | some path, some archive => ExceptT.mk (write files path archive.save)
  | _, _ => pure ()

/-- Runs the experiment up to the report, and also gives what each flow was expected to send. -/
def experiment (files : Files m) (o : Options) :
    ExceptT Failure m (Table FlowId Float × Report) := do
  if !(0 ≤ o.dropRate && o.dropRate ≤ 1) then
    throw ⟨"drop rate must be between 0.0 and 1.0, inclusive", none⟩
  let spec ← match o.spec with
    | some path => ExceptT.mk (readSpec files path)
    | none => ExceptT.mk (pure (chainSpec o))
  let valid ← ExceptT.mk (pure (spec.validate.mapError .ofSpec))
  let (compiled, e) := (Experiment.new valid .standard).compile
  let compiled ← ExceptT.mk (pure (compiled.mapError .ofExperiment))
  let loaded := Experiment.load Machine.transport none e (Machine.new (machineConfig o))
  let ran := Experiment.run Machine.transport .never loaded.experiment loaded.state
  match ran.ending with
  | .failed err => throw (.ofExperiment err)
  | _ => pure ()
  saveArchive files o ran.experiment
  let report ← ExceptT.mk (pure (ran.experiment.decode.1.mapError .ofExperiment))
  pure (expectedPackets compiled, report)

/-- Writes the report to its file. -/
def saveReport (files : Files m) (o : Options) (r : Report) : m (Except Failure Unit) := do
  match o.report with
  | none => pure (.ok ())
  | some path =>
    match r.toFile path with
    | .error e => pure (.error (.ofFile e))
    | .ok text => write files path text.toUTF8.toList

def run (files : Files m) (o : Options) : m Exit := do
  match ← (experiment files o).run with
  | .error f => pure ⟨1, "", f.text⟩
  | .ok (expected, report) =>
    let out := reportText expected report
    match ← saveReport files o report with
    | .error f => pure ⟨1, out, f.text⟩
    | .ok () => pure ⟨0, out, ""⟩

/-! ## The program -/

def usage : String :=
  "Usage: fanout [--spec FILE] [-r REGIONS] [-c CORES] [--rate RATE] [--poisson]\n"
  ++ "  [-d MILLISECONDS] [-t MICROSECONDS] [--record-interval MICROSECONDS] [-s SEED]\n"
  ++ "  [--drop-rate RATE] [--report FILE] [--archive FILE]\n"

def program (files : Files m) (args : List String) : m Exit :=
  match request args with
  | .misuse => pure ⟨2, "", usage⟩
  | .help => pure ⟨0, usage, ""⟩
  | .version => pure ⟨0, "fanout 0.1.0\n", ""⟩
  | .run o => run files o

end TrafficLab.CommandLine
