import TrafficLab.Archive
import TrafficLab.Compilation
import TrafficLab.Experiment.Attempts

/-!
# Experiments

An experiment goes through its phases in order: it is compiled, its programs are loaded, the cores
run and their counters are collected, and the counters are decoded into a report.

    built → compiled → loaded → collected → decoded        compiling or running may end in: aborted

Each phase holds what exists then and nothing else.  An operation that is out of order says so and
changes nothing.
-/

namespace TrafficLab

/-! ## Phases -/

/-- The cores that took their programs and those that did not. -/
structure Roster where
  loaded : KeySet CoreId
  unreachable : KeySet CoreId
  deriving DecidableEq

/-- What is left of an experiment whose run was given up. -/
structure Remains where
  compiled : Compiled
  roster : Roster
  dumps : Table CoreId CounterDump
  deriving DecidableEq

inductive Phase
  | built
  | compiled (c : Compiled)
  | loaded (c : Compiled) (roster : Roster)
  | collected (c : Compiled) (roster : Roster) (dumps : Table CoreId CounterDump)
  | decoded (c : Compiled) (roster : Roster) (report : Report)
  | aborted (remains : Option Remains)
  deriving DecidableEq

namespace Phase

def name : Phase → String
  | built => "Built"
  | compiled _ => "Compiled"
  | loaded _ _ => "Loaded"
  | collected _ _ _ => "Collected"
  | decoded _ _ _ => "Decoded"
  | aborted _ => "Aborted"

def compiled? : Phase → Option Compiled
  | built => none
  | compiled c => some c
  | loaded c _ => some c
  | collected c _ _ => some c
  | decoded c _ _ => some c
  | aborted remains => remains.map (·.compiled)

def roster? : Phase → Option Roster
  | loaded _ roster => some roster
  | collected _ roster _ => some roster
  | decoded _ roster _ => some roster
  | aborted remains => remains.map (·.roster)
  | _ => none

/-- The cores whose programs could not be loaded. -/
def unreachable (p : Phase) : KeySet CoreId := (p.roster?.map (·.unreachable)).getD .empty

/-- The dumps that have been collected and not been decoded. -/
def dumps : Phase → Table CoreId CounterDump
  | collected _ _ dumps => dumps
  | aborted remains => (remains.map (·.dumps)).getD .empty
  | _ => .empty

def report? : Phase → Option Report
  | decoded _ _ report => some report
  | _ => none

end Phase

/-- An experiment that can be taken up again. -/
structure Experiment where
  spec : ValidSpec
  opts : RunOptions
  phase : Phase

/-! ## Errors -/

inductive Operation
  | compile
  | load
  | run
  | decode
  deriving DecidableEq, Repr

def Operation.name : Operation → String
  | compile => "compile"
  | load => "load"
  | run => "run"
  | decode => "decode"

inductive ExperimentError
  /-- The operation is out of order. -/
  | outOfOrder (op : Operation) (phase : Phase)
  | compile (e : CompileError)
  | start (e : TransportError)
  /-- The operation broke down: the machine broke when it was to start, there can be no such number
  of permits, or no duration is so long. -/
  | crash

namespace ExperimentError

def message : ExperimentError → String
  | outOfOrder op phase => s!"cannot {op.name} in state {phase.name}"
  | compile e => e.message
  | start _ => "failed to start the run"
  | crash => "machine crashed"

/-- What lies behind an error whose message does not say it. -/
def cause? : ExperimentError → Option String
  | start e => some e.message
  | _ => none

end ExperimentError

/-- What an operation comes to. -/
inductive Ending (α : Type)
  | done (x : α)
  | failed (e : ExperimentError)
  /-- The caller gave up waiting. -/
  | abandoned

/-- The result of an operation, the experiment and the transport after it, and how long it took. -/
structure Performed (σ α : Type) where
  ending : Ending α
  experiment : Experiment
  state : σ
  elapsed : Nat

namespace Experiment

def new (spec : ValidSpec) (opts : RunOptions) : Experiment := ⟨spec, opts, .built⟩

/-- The archive of an experiment that has been compiled. -/
def capture? (e : Experiment) : Option Archive :=
  e.phase.compiled?.map fun c => ⟨c.programs, e.phase.dumps, e.phase.unreachable⟩

/-! ## Compiling and decoding -/

def compile (e : Experiment) : Except ExperimentError Compiled × Experiment :=
  match e.phase with
  | .built =>
    match TrafficLab.compile e.spec with
    | .ok c => (.ok c, { e with phase := .compiled c })
    | .error err => (.error (.compile err), { e with phase := .aborted none })
  | phase => (.error (.outOfOrder .compile phase), e)

def decode (e : Experiment) : Except ExperimentError Report × Experiment :=
  match e.phase with
  | .collected c roster dumps =>
    let report := Report.ofDumps c.programs dumps roster.unreachable
    (.ok report, { e with phase := .decoded c roster report })
  | phase => (.error (.outOfOrder .decode phase), e)

/-! ## Loading -/

variable {σ : Type} (t : Transport σ)

/-- Loads every program.  Cores that fail every attempt are unreachable, and the experiment goes on
without them.  If it is given up before it is through, the experiment stays as it is, and so it does
if there can be no such number of permits. -/
def load (abandon : Option Duration) (e : Experiment) (s : σ) : Performed σ Unit :=
  match e.phase with
  | .compiled c =>
    if e.opts.permitted then
      let limit := abandon.map (·.nanos)
      let request core s := t.load core (((c.programs.get? core).map (·.bytes)).getD []) s
      let swept := sweep e.opts limit request 0 [] c.programs.keys s
      if swept.isCut then ⟨.abandoned, e, swept.state, limit.getD 0⟩
      else
        let loaded : KeySet CoreId := .ofList (swept.successes.map (·.1))
        let roster : Roster := ⟨loaded, (KeySet.ofList c.programs.keys).without loaded⟩
        ⟨.done (), { e with phase := .loaded c roster }, swept.state, swept.time⟩
    else ⟨.failed .crash, e, s, 0⟩
  | phase => ⟨.failed (.outOfOrder .load phase), e, s, 0⟩

/-! ## Running -/

/-- What ends a run before it is through. -/
inductive Stop
  | never
  /-- The run is told to stop: what has been read by then is kept. -/
  | cancel (after : Duration)
  /-- The caller gives up waiting. -/
  | abandon (after : Duration)

/-- When a run is given up. -/
def Stop.abandonTime : Stop → Option Nat
  | abandon after => some after.nanos
  | _ => none

/-- When a run stops. -/
def Stop.time : Stop → Option Nat
  | never => none
  | cancel after => some after.nanos
  | abandon after => some after.nanos

/-- The end of a run that was stopped at the given time. -/
def stopped (stop : Stop) (e : Experiment) (c : Compiled) (roster : Roster)
    (dumps : Table CoreId CounterDump) (now : Nat) (s : σ) : Performed σ Unit :=
  match stop with
  | .abandon after =>
    ⟨.abandoned, { e with phase := .aborted (some ⟨c, roster, dumps⟩) }, s, after.nanos⟩
  | .cancel after =>
    ⟨.done (), { e with phase := .collected c roster dumps }, s, max now after.nanos⟩
  | .never => ⟨.done (), { e with phase := .collected c roster dumps }, s, now⟩

/-- Reads the counters of the cores that run. -/
def collect (stop : Stop) (e : Experiment) (c : Compiled) (roster : Roster) (now : Nat) (s : σ) :
    Performed σ Unit :=
  if e.opts.permitted then
    let swept := sweep e.opts stop.time t.read now [] roster.loaded.keys s
    let dumps := Table.ofList (swept.successes.map fun (core, bytes) => (core, ⟨core, bytes⟩))
    if swept.isCut then stopped stop e c roster dumps now swept.state
    else ⟨.done (), { e with phase := .collected c roster dumps }, swept.state, swept.time⟩
  else ⟨.failed .crash, { e with phase := .aborted (some ⟨c, roster, .empty⟩) }, s, now⟩

/-- Starts the cores that are loaded, waits out the run and collects their counters. -/
def run (stop : Stop) (e : Experiment) (s : σ) : Performed σ Unit :=
  match e.phase with
  | .loaded c roster =>
    match roster.loaded.keys with
    | [] => ⟨.done (), { e with phase := .collected c roster .empty }, s, 0⟩
    | cores =>
      let duration := e.spec.spec.duration
      let retries := e.opts.retries.toNat
      let started := attempt e.opts stop.abandonTime (t.start cores duration) retries 0 s
      let aborted : Experiment := { e with phase := .aborted (some ⟨c, roster, .empty⟩) }
      match started.outcome with
      | .failure err => ⟨.failed (.start err), aborted, started.state, started.time⟩
      | .crash => ⟨.failed .crash, aborted, started.state, started.time⟩
      | .cut => stopped stop e c roster .empty started.time started.state
      | .success () =>
        match duration.toDuration.add? e.opts.grace with
        | none => ⟨.failed .crash, aborted, started.state, started.time⟩
        | some wait =>
          let ended := started.time + wait.nanos
          if isOver stop.time ended then stopped stop e c roster .empty started.time started.state
          else collect t stop e c roster ended started.state
  | phase => ⟨.failed (.outOfOrder .run phase), e, s, 0⟩

/-! ## All at once -/

/-- Runs a specification from compiling to decoding. -/
def report (e : Experiment) (s : σ) : Except ExperimentError Report × Experiment × σ :=
  match e.compile with
  | (.error err, e) => (.error err, e, s)
  | (.ok _, e) =>
    let loaded := load t none e s
    match loaded.ending with
    | .failed err => (.error err, loaded.experiment, loaded.state)
    | _ =>
      let ran := run t .never loaded.experiment loaded.state
      match ran.ending with
      | .failed err => (.error err, ran.experiment, ran.state)
      | _ =>
        let (result, e) := ran.experiment.decode
        (result, e, ran.state)

end Experiment

end TrafficLab
