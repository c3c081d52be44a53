import TrafficLab.Command

/-!
# Listings

Commands as text, one to a line, for people to read.
-/

namespace TrafficLab

/-- A number in hexadecimal, marked as such, with at least `width` digits. -/
def hexText (width n : Nat) : String :=
  let digits := Nat.toDigits 16 n
  "0x" ++ String.ofList (List.replicate (width - digits.length) '0' ++ digits)

/-- A word in hexadecimal. -/
def wordText (w : UInt32) : String := hexText 8 w.toNat

/-- A setting of the source or sink with the given number. -/
def settingText (name : String) (number : UInt16) (value : String) : String :=
  name ++ "[" ++ toString number.toNat ++ "]" ++ value

def SourceSetting.text (i : UInt16) : SourceSetting → String
  | probability threshold => settingText "PROBABILITY" i (" " ++ wordText threshold)
  | burstPeriod ticks => settingText "BURST_PERIOD" i (" " ++ toString ticks.toNat)
  | burstDuty ticks => settingText "BURST_DUTY" i (" " ++ toString ticks.toNat)
  | burstPhase ticks => settingText "BURST_PHASE" i (" " ++ toString ticks.toNat)
  | key value => settingText "SOURCE_KEY" i (" " ++ wordText value)
  | payload enabled => settingText (if enabled then "PAYLOAD" else "NO_PAYLOAD") i ""
  | interval ticks => settingText "INTERVAL" i (" " ++ toString ticks.toNat)
  | start ticks => settingText "START" i (" " ++ toString ticks.toNat)

def SinkSetting.text (j : UInt16) : SinkSetting → String
  | key value => settingText "SINK_KEY" j (" " ++ wordText value)
  | source core => settingText "SINK_SOURCE" j (" core " ++ toString core)

def Command.text : Command → String
  | exit => "EXIT"
  | sleep micros => "SLEEP " ++ toString micros.toNat ++ "us"
  | barrier => "BARRIER"
  | seed value => "SEED " ++ wordText value
  | timestep nanos => "TIMESTEP " ++ toString nanos.toNat ++ "ns"
  | run ticks => "RUN " ++ toString ticks.toNat
  | num sources sinks =>
    "NUM sources=" ++ toString sources.toNat ++ " sinks=" ++ toString sinks.toNat
  | record counters => "RECORD " ++ hexText 4 counters.mask.toNat
  | recordInterval ticks => "RECORD_INTERVAL " ++ toString ticks.toNat
  | source i setting => setting.text i
  | consume enabled => if enabled then "CONSUME" else "NO_CONSUME"
  | sink j setting => setting.text j
  | counter slot metric role =>
    settingText "COUNTER" slot (" " ++ toString metric ++ " #" ++ toString role.toNat)

/-- Commands, one to a line. -/
def listing (commands : List Command) : String := "\n".intercalate (commands.map Command.text)

end TrafficLab
