import TrafficLab.Command.Stream
import TrafficLab.Digest
import TrafficLab.Schedule

/-!
# Setting up a core

A core plays its command stream up to the first `EXIT` and keeps the setup that results; the
packets are sent later, tick by tick.

A setup that results has a timestep, intervals of at least one tick and burst windows that repeat,
so no tick divides by zero.  Its counters need not fit it: a stream may declare its sources and
sinks anew after its counters, and then a counter can belong to a source or sink that is no longer
there.
-/

namespace TrafficLab

/-! ## Setups -/

/-- How a source decides to send. -/
inductive Emission
  /-- Not at all: nothing has been set. -/
  | idle
  | every (ticks : UInt32)
  | bernoulli (threshold : UInt32)
  deriving DecidableEq, Repr

structure SourceSetup where
  key : UInt32
  payload : Bool
  emission : Emission
  burst : Option BurstWindow
  start : UInt32
  deriving DecidableEq, Repr

/-- A source about which nothing has been set. -/
def SourceSetup.unset : SourceSetup := ⟨0, false, .idle, none, 0⟩

structure SinkSetup where
  key : UInt32
  source : CoreId
  deriving DecidableEq, Repr

/-- A sink about which nothing has been set. -/
def SinkSetup.unset : SinkSetup := ⟨0, ⟨0⟩⟩

structure Setup where
  core : CoreId
  tag : UInt32
  timestep : UInt32
  seed : UInt32
  runTicks : Nat
  record : CounterSet
  recordInterval : UInt32
  consume : Bool
  sources : Array SourceSetup
  sinks : Array SinkSetup
  /-- What each slot counts, with the number of the source or sink. -/
  counters : Array (Metric × UInt8)
  deriving DecidableEq

/-- The setup of a core that has been told nothing. -/
def Setup.blank (core : CoreId) (tag : UInt32) : Setup :=
  ⟨core, tag, 0, 0, 0, .empty, 0, true, #[], #[], #[]⟩

/-! ## Errors -/

inductive SetupError
  | malformed (e : CommandError)
  | noSuchSource (number : UInt16)
  | noSuchSink (number : UInt16)
  | slotOutOfOrder (slot : UInt16)
  | noSuchRole (slot : UInt16) (role : UInt8)
  | zeroInterval (source : UInt16)
  | zeroBurstPeriod
  | noTimestep
  | noRun
  deriving DecidableEq, Repr

namespace SetupError

def message : SetupError → String
  | malformed _ => "malformed command stream"
  | noSuchSource number => s!"no source {number.toNat}"
  | noSuchSink number => s!"no sink {number.toNat}"
  | slotOutOfOrder slot => s!"counter slot {slot.toNat} declared out of order"
  | noSuchRole slot role => s!"counter slot {slot.toNat} refers to missing role {role.toNat}"
  | zeroInterval source => s!"source {source.toNat} has a zero interval"
  | zeroBurstPeriod => "burst period is zero"
  | noTimestep => "no timestep set"
  | noRun => "program never runs"

/-- What lies behind an error whose message does not say it. -/
def cause? : SetupError → Option String
  | malformed e => some e.message
  | _ => none

end SetupError

/-! ## Playing commands -/

/-- The burst window of a source, which begins with nothing set. -/
def SourceSetup.window (s : SourceSetup) : BurstWindow := s.burst.getD ⟨0, 0, 0⟩

def SourceSetting.apply (s : SourceSetup) : SourceSetting → SourceSetup
  | probability threshold => { s with emission := .bernoulli threshold }
  | burstPeriod ticks => { s with burst := some { s.window with period := ticks } }
  | burstDuty ticks => { s with burst := some { s.window with duty := ticks } }
  | burstPhase ticks => { s with burst := some { s.window with phase := ticks } }
  | key value => { s with key := value }
  | payload enabled => { s with payload := enabled }
  | interval ticks => { s with emission := .every ticks }
  | start ticks => { s with start := ticks }

def SinkSetting.apply (s : SinkSetup) : SinkSetting → SinkSetup
  | key value => { s with key := value }
  | source core => { s with source := core }

namespace Setup

/-- How many roles there are that a metric can belong to. -/
def roles (s : Setup) (m : Metric) : Nat :=
  if m.ofSource then s.sources.size else if m.ofSink then s.sinks.size else 1

/-- Whether every counter belongs to a source or sink of the setup. -/
def countersFit (s : Setup) : Bool := s.counters.all fun (m, role) => role.toNat < s.roles m

def setSource (s : Setup) (number : UInt16) (setting : SourceSetting) : Except SetupError Setup :=
  if setting = .interval 0 then .error (.zeroInterval number)
  else if number.toNat < s.sources.size then
    .ok { s with sources := s.sources.modify number.toNat setting.apply }
  else .error (.noSuchSource number)

def setSink (s : Setup) (number : UInt16) (setting : SinkSetting) : Except SetupError Setup :=
  if number.toNat < s.sinks.size then
    .ok { s with sinks := s.sinks.modify number.toNat setting.apply }
  else .error (.noSuchSink number)

def addCounter (s : Setup) (slot : UInt16) (m : Metric) (role : UInt8) : Except SetupError Setup :=
  if slot.toNat ≠ s.counters.size then .error (.slotOutOfOrder slot)
  else if s.roles m ≤ role.toNat then .error (.noSuchRole slot role)
  else .ok { s with counters := s.counters.push (m, role) }

/-- Plays one command. -/
def step (s : Setup) : Command → Except SetupError Setup
  | .exit => .ok s
  | .sleep _ => .ok s
  | .barrier => .ok s
  | .seed value => .ok { s with seed := value }
  | .timestep nanos => .ok { s with timestep := nanos }
  | .run ticks => .ok { s with runTicks := s.runTicks + ticks.toNat }
  | .num sources sinks =>
    .ok { s with
      sources := Array.replicate sources.toNat .unset
      sinks := Array.replicate sinks.toNat .unset }
  | .record counters => .ok { s with record := counters }
  | .recordInterval ticks => .ok { s with recordInterval := ticks }
  | .consume enabled => .ok { s with consume := enabled }
  | .source number setting => s.setSource number setting
  | .sink number setting => s.setSink number setting
  | .counter slot m role => s.addCounter slot m role

/-- Whether a command starts a run. -/
def isRun : Command → Bool
  | .run _ => true
  | _ => false

/-- Whether a burst window never repeats. -/
def hasEndlessBurst (s : Setup) : Bool :=
  s.sources.any fun src => src.burst.any fun w => w.period == 0

/-- Plays commands, up to the first that ends the program. -/
def playCommands (core : CoreId) (tag : UInt32) (commands : List Command) :
    Except SetupError Setup := do
  let played := commands.takeWhile fun c => c != .exit
  let s ← played.foldlM step (blank core tag)
  if s.timestep = 0 then throw .noTimestep
  if !played.any isRun then throw .noRun
  if s.hasEndlessBurst then throw .zeroBurstPeriod
  .ok s

/-- Plays a packed stream. -/
def play (core : CoreId) (bytes : List UInt8) : Except SetupError Setup :=
  match Stream.unpack bytes with
  | .error e => .error (.malformed e)
  | .ok commands => playCommands core (Digest.tag bytes) commands

/-- Whether the counters are recorded when so many ticks have gone by.  The record at the end of
the run is always made and not counted here. -/
def recordDue (s : Setup) (elapsed : Nat) : Bool :=
  s.recordInterval != 0 && elapsed < s.runTicks && elapsed % s.recordInterval.toNat == 0

/-- Whether the counters are recorded at all before the end of the run. -/
def recordsEarly (s : Setup) : Bool := s.recordInterval != 0 && s.recordInterval.toNat < s.runTicks

end Setup

end TrafficLab
