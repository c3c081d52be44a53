import TrafficLab.Decimal.Shortest
import TrafficLab.Ident
import TrafficLab.Quantity

/-!
# Compilation errors

All of them say that the experiment asks for more than the hardware can hold or tell apart.
-/

namespace TrafficLab

/-- A count that a command carries in one word. -/
inductive Extent
  | timestep
  | runLength
  | recordInterval
  deriving DecidableEq, Repr

def Extent.name : Extent → String
  | timestep => "timestep"
  | runLength => "run length"
  | recordInterval => "record interval"

inductive CompileError
  | keySpaceExhausted (flow : FlowId) (region : RegionId) (bits : UInt8)
  | rateTooHigh (flow : FlowId) (rate : Float) (timestep : Nanosecs)
  | rateTooLow (flow : FlowId) (rate : Float) (timestep : Nanosecs)
  | programTooLarge (core : CoreId) (size : Nat) (budget : Bytes)
  | tooManyEndpoints (core : CoreId) (sources sinks : Nat)
  | startsAfterRun (flow : FlowId) (start runTicks : Nat)
  | recordIntervalTooShort (interval timestep : Nanosecs)
  | unrepresentable (what : Extent) (value : Nat)
  deriving Repr

def CompileError.message : CompileError → String
  | keySpaceExhausted flow region bits =>
    s!"flow {flow} needs a key but region {region} only has {bits.toNat} key bits left"
  | rateTooHigh flow rate timestep =>
    s!"flow {flow}: rate {Decimal.text rate}/s is too high for a {timestep} timestep"
  | rateTooLow flow rate timestep =>
    s!"flow {flow}: rate {Decimal.text rate}/s is too low for a {timestep} timestep"
  | programTooLarge core size budget =>
    s!"program for core {core} needs {size}B but the budget is {budget}"
  | tooManyEndpoints core sources sinks =>
    s!"core {core} hosts {sources} sources and {sinks} sinks"
  | startsAfterRun flow start runTicks =>
    s!"flow {flow} starts at tick {start} ticks but the run is only {runTicks} ticks long"
  | recordIntervalTooShort interval timestep =>
    s!"record interval {interval} is shorter than half a {timestep} timestep"
  | unrepresentable what value => s!"{what.name} of {value} does not fit in a command word"

end TrafficLab
