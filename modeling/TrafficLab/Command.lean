import TrafficLab.Metric

/-!
# Commands

What a core's traffic generator is told.  A command is one word, or two if it has an argument:

    bits 0-7: the opcode        bits 8-23: the number of a source, sink or slot

`Command.words` spells a command; `Command.plain?` and `Command.withArgument?` read one back from
its opcode, its number and, if it has one, its argument.
-/

namespace TrafficLab

/-! ## Opcodes -/

inductive Opcode
  | exit
  | sleep
  | barrier
  | seed
  | timestep
  | run
  | num
  | record
  | recordInterval
  | probability
  | burstPeriod
  | burstDuty
  | burstPhase
  | sourceKey
  | payload
  | noPayload
  | interval
  | start
  | consume
  | noConsume
  | sinkKey
  | sinkSource
  | counter
  deriving DecidableEq, Repr

namespace Opcode

def all : List Opcode :=
  [exit, sleep, barrier, seed, timestep, run, num, record, recordInterval, probability, burstPeriod,
    burstDuty, burstPhase, sourceKey, payload, noPayload, interval, start, consume, noConsume,
    sinkKey, sinkSource, counter]

def code : Opcode → Nat
  | exit => 0x00
  | sleep => 0x01
  | barrier => 0x02
  | seed => 0x03
  | timestep => 0x04
  | run => 0x05
  | num => 0x06
  | record => 0x10
  | recordInterval => 0x11
  | probability => 0x20
  | burstPeriod => 0x21
  | burstDuty => 0x22
  | burstPhase => 0x23
  | sourceKey => 0x24
  | payload => 0x25
  | noPayload => 0x26
  | interval => 0x27
  | start => 0x28
  | consume => 0x30
  | noConsume => 0x31
  | sinkKey => 0x32
  | sinkSource => 0x33
  | counter => 0x40

def ofCode? (n : Nat) : Option Opcode := all.find? fun op => op.code == n

@[simp] theorem ofCode?_code (op : Opcode) : ofCode? op.code = some op := by
  cases op <;> rfl

theorem code_lt (op : Opcode) : op.code < 256 := by
  cases op <;> decide

end Opcode

/-! ## Commands -/

/-- What is set about a source. -/
inductive SourceSetting
  /-- One trial in each tick, of which `threshold` in 2^32 succeed. -/
  | probability (threshold : UInt32)
  | burstPeriod (ticks : UInt32)
  | burstDuty (ticks : UInt32)
  | burstPhase (ticks : UInt32)
  | key (value : UInt32)
  | payload (enabled : Bool)
  /-- One packet every `ticks` ticks. -/
  | interval (ticks : UInt32)
  /-- The first tick in which packets may be sent. -/
  | start (ticks : UInt32)
  deriving DecidableEq, Repr

/-- What is set about a sink. -/
inductive SinkSetting
  | key (value : UInt32)
  /-- The core that sends the packets. -/
  | source (core : CoreId)
  deriving DecidableEq, Repr

inductive Command
  | exit
  | sleep (micros : UInt32)
  | barrier
  | seed (value : UInt32)
  | timestep (nanos : UInt32)
  | run (ticks : UInt32)
  | num (sources sinks : UInt8)
  | record (counters : CounterSet)
  /-- The ticks between two records of the counters; zero records them at the end alone. -/
  | recordInterval (ticks : UInt32)
  | source (number : UInt16) (setting : SourceSetting)
  | consume (enabled : Bool)
  | sink (number : UInt16) (setting : SinkSetting)
  /-- Slot `slot` counts `metric` of the source or sink with the given number. -/
  | counter (slot : UInt16) (metric : Metric) (role : UInt8)
  deriving DecidableEq

namespace Command

def opcode : Command → Opcode
  | exit => .exit
  | sleep _ => .sleep
  | barrier => .barrier
  | seed _ => .seed
  | timestep _ => .timestep
  | run _ => .run
  | num _ _ => .num
  | record _ => .record
  | recordInterval _ => .recordInterval
  | source _ (.probability _) => .probability
  | source _ (.burstPeriod _) => .burstPeriod
  | source _ (.burstDuty _) => .burstDuty
  | source _ (.burstPhase _) => .burstPhase
  | source _ (.key _) => .sourceKey
  | source _ (.payload enabled) => if enabled then .payload else .noPayload
  | source _ (.interval _) => .interval
  | source _ (.start _) => .start
  | consume enabled => if enabled then .consume else .noConsume
  | sink _ (.key _) => .sinkKey
  | sink _ (.source _) => .sinkSource
  | counter _ _ _ => .counter

/-- The number of the source, sink or slot that a command is about. -/
def number : Command → UInt16
  | source i _ => i
  | sink j _ => j
  | counter slot _ _ => slot
  | _ => 0

/-- The argument word.  Keys are carried without their low eight bits. -/
def argument? : Command → Option UInt32
  | sleep micros => some micros
  | seed value => some value
  | timestep nanos => some nanos
  | run ticks => some ticks
  | num sources sinks => some (UInt32.ofNat (sources.toNat + 256 * sinks.toNat))
  | record counters => some counters.mask
  | recordInterval ticks => some ticks
  | source _ (.probability threshold) => some threshold
  | source _ (.burstPeriod ticks) => some ticks
  | source _ (.burstDuty ticks) => some ticks
  | source _ (.burstPhase ticks) => some ticks
  | source _ (.key value) => some (value &&& RoutingKey.carried)
  | source _ (.interval ticks) => some ticks
  | source _ (.start ticks) => some ticks
  | sink _ (.key value) => some (value &&& RoutingKey.carried)
  | sink _ (.source core) => some core.val
  | counter _ metric role => some (UInt32.ofNat (metric.code + 65536 * role.toNat))
  | _ => none

/-- The first word of a command. -/
def head (code : Nat) (number : UInt16) : UInt32 := UInt32.ofNat (code + 256 * number.toNat)

/-- The words of a command. -/
def words (c : Command) : List UInt32 := head c.opcode.code c.number :: c.argument?.toList

/-- The command of an opcode that takes no argument. -/
def plain? (op : Opcode) (number : UInt16) : Option Command :=
  match op with
  | .exit => some exit
  | .barrier => some barrier
  | .payload => some (source number (.payload true))
  | .noPayload => some (source number (.payload false))
  | .consume => some (consume true)
  | .noConsume => some (consume false)
  | _ => none

/-- The command of an opcode and its argument, unless the argument is none of the opcode's. -/
def withArgument? (op : Opcode) (number : UInt16) (a : UInt32) : Option Command :=
  match op with
  | .sleep => some (sleep a)
  | .seed => some (seed a)
  | .timestep => some (timestep a)
  | .run => some (run a)
  | .num => some (num (UInt8.ofNat (a.toNat % 256)) (UInt8.ofNat (a.toNat / 256 % 256)))
  | .record => (CounterSet.ofMask? a).map record
  | .recordInterval => some (recordInterval a)
  | .probability => some (source number (.probability a))
  | .burstPeriod => some (source number (.burstPeriod a))
  | .burstDuty => some (source number (.burstDuty a))
  | .burstPhase => some (source number (.burstPhase a))
  | .sourceKey => some (source number (.key a))
  | .interval => some (source number (.interval a))
  | .start => some (source number (.start a))
  | .sinkKey => some (sink number (.key a))
  | .sinkSource => some (sink number (.source ⟨a⟩))
  | .counter =>
    (Metric.ofCode? (a.toNat % 65536)).map fun metric =>
      counter number metric (UInt8.ofNat (a.toNat / 65536 % 256))
  | _ => none

end Command

end TrafficLab
