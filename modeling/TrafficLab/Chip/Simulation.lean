import TrafficLab.Chip.Counters
import TrafficLab.Random

/-!
# Simulating a run

In each tick every core looks at its sources in order.  Of those that are due, as many send as the
core has capacity for; the others are blocked.  A packet reaches each sink that watches its key and
its core, unless it is lost on the way or the sink's core does not take packets.  When all cores
have sent, those whose record interval is over record their counters.

Sending depends on the core's own setup, its own random words and the capacity; receiving, on what
was sent and on the network's random words:

    Run.tick: senders ↦ senders and packets        packets ↦ receivers

Counts and times are numbers here and words on a chip: a packet's time on the way is a word of 32
bits and everything that is counted a word of 64.  The sums are checked: a run that leaves the words
does not come to its end.  `Run.fits` says whether a run has stayed within them.
-/

namespace TrafficLab

/-! ## Sending -/

/-- A sink that packets go to. -/
structure Watcher where
  /-- The position of the core among the cores that run. -/
  core : Nat
  sink : Nat
  /-- Whether the core takes packets. -/
  consume : Bool
  /-- Whether it is the core that sends. -/
  isLocal : Bool
  deriving DecidableEq, Repr

structure Packet where
  payload : Bool
  watchers : List Watcher

/-- A source during a run. -/
structure SourceRun where
  setup : SourceSetup
  watchers : List Watcher
  sent : Nat
  blocked : Nat

/-- The sending half of a core during a run. -/
structure Sender where
  runTicks : Nat
  random : Random
  sources : List SourceRun

/-- Whether a source may send in a tick at all. -/
def SourceSetup.isActive (s : SourceSetup) (tick : Nat) : Bool :=
  s.start.toNat ≤ tick &&
    match s.burst with
    | some w => w.isOpen tick
    | none => true

/-- Whether a source wants to send in a tick.  A trial draws a word even if it cannot fail. -/
def SourceSetup.isDue (s : SourceSetup) (tick : Nat) (r : Random) : Bool × Random :=
  if s.isActive tick then
    match s.emission with
    | .idle => (false, r)
    | .every ticks => ((tick - s.start.toNat) % ticks.toNat == 0, r)
    | .bernoulli threshold =>
      let (w, r) := r.next
      (threshold == 0xFFFFFFFF || w < threshold, r)
  else (false, r)

/-- What the sources of a core do in a tick. -/
structure Emitted where
  random : Random
  sources : List SourceRun
  packets : List Packet

/-- Lets sources send while there is capacity left. -/
def sendSources (tick : Nat) (capacity : Nat) (r : Random) : List SourceRun → Emitted
  | [] => ⟨r, [], []⟩
  | s :: rest =>
    let (due, r) := s.setup.isDue tick r
    if due then
      match capacity with
      | 0 =>
        let e := sendSources tick 0 r rest
        ⟨e.random, { s with blocked := s.blocked + 1 } :: e.sources, e.packets⟩
      | left + 1 =>
        let e := sendSources tick left r rest
        ⟨e.random, { s with sent := s.sent + 1 } :: e.sources,
          ⟨s.setup.payload, s.watchers⟩ :: e.packets⟩
    else
      let e := sendSources tick capacity r rest
      ⟨e.random, s :: e.sources, e.packets⟩

/-- Lets a core send, if its own run is not over. -/
def Sender.send (capacity tick : Nat) (s : Sender) : Sender × List Packet :=
  if tick < s.runTicks then
    let e := sendSources tick capacity s.random s.sources
    (⟨s.runTicks, e.random, e.sources⟩, e.packets)
  else (s, [])

/-- Lets all cores send. -/
def sendAll (capacity tick : Nat) : List Sender → List Sender × List Packet
  | [] => ([], [])
  | s :: rest =>
    let (s, packets) := s.send capacity tick
    let (rest, more) := sendAll capacity tick rest
    (s :: rest, packets ++ more)

/-! ## Receiving -/

/-- What a sink has counted. -/
structure SinkTally where
  received : Nat
  latencySum : Nat
  latencySumSq : Nat
  deriving DecidableEq, Repr

/-- The receiving half of a core during a run. -/
structure Receiver where
  sinks : Array SinkTally
  localPackets : Nat
  externalPackets : Nat
  droppedPackets : Nat
  /-- Whether some packet has taken longer than a word of 32 bits can say. -/
  overdue : Bool
  deriving DecidableEq, Repr

def Receiver.drop (r : Receiver) : Receiver := { r with droppedPackets := r.droppedPackets + 1 }

/-- Counts a packet and, if it carried a time, how long it took. -/
def SinkTally.take (latency : Option Nat) (t : SinkTally) : SinkTally :=
  match latency with
  | some l => ⟨t.received + 1, t.latencySum + l, t.latencySumSq + l * l⟩
  | none => { t with received := t.received + 1 }

def Receiver.take (w : Watcher) (latency : Option Nat) (r : Receiver) : Receiver :=
  { r with
    sinks := r.sinks.modify w.sink (·.take latency)
    localPackets := if w.isLocal then r.localPackets + 1 else r.localPackets
    externalPackets := if w.isLocal then r.externalPackets else r.externalPackets + 1
    overdue := r.overdue || latency.any (UInt32.size ≤ ·) }

/-- How packets get lost. -/
inductive Loss
  | never
  | always
  /-- In `limit` of 2^64 cases. -/
  | sometimes (limit : UInt64)
  deriving DecidableEq, Repr

/-- The losses at a rate: none at zero or less, all at one or more. -/
def Loss.ofRate (rate : Float) : Loss :=
  if 0 < rate then
    if 1 ≤ rate then .always else .sometimes (rate * 18446744073709551616.0).toUInt64
  else .never

def Loss.draw (l : Loss) (r : Random) : Bool × Random :=
  match l with
  | never => (false, r)
  | always => (true, r)
  | sometimes limit => r.coin limit

/-- What the network does to packets. -/
structure Network where
  loss : Loss
  /-- The ticks from sending to receiving. -/
  delay : UInt32
  /-- The most ticks that a packet takes longer. -/
  jitter : UInt32
  deriving DecidableEq, Repr

/-- How long a packet takes. -/
def Network.latency (n : Network) (r : Random) : Nat × Random :=
  if n.jitter = 0 then (n.delay.toNat, r)
  else
    let (extra, r) := r.upTo n.jitter
    (n.delay.toNat + extra, r)

/-- Takes one packet to one sink. -/
def Network.deliver (n : Network) (payload : Bool) (state : Array Receiver × Random) (w : Watcher) :
    Array Receiver × Random :=
  let (receivers, r) := state
  let (lost, r) := n.loss.draw r
  if lost || !w.consume then (receivers.modify w.core (·.drop), r)
  else if payload then
    let (l, r) := n.latency r
    (receivers.modify w.core (·.take w (some l)), r)
  else (receivers.modify w.core (·.take w none), r)

/-- Takes packets to all their sinks. -/
def Network.deliverAll (n : Network) (state : Array Receiver × Random) (packets : List Packet) :
    Array Receiver × Random :=
  packets.foldl (fun state p => p.watchers.foldl (n.deliver p.payload) state) state

/-! ## Runs -/

/-- A run in progress. -/
structure Run where
  senders : List Sender
  receivers : Array Receiver
  random : Random
  /-- The values that each core has recorded. -/
  recorded : Array (Array Nat)

/-- The router counters of a receiver. -/
def Receiver.router (r : Receiver) : Array Nat :=
  #[r.localPackets, r.externalPackets, 0, 0, 0, 0, 0, 0, r.droppedPackets, 0, 0, 0]

/-- The counters of a core, from its two halves and what it has recorded. -/
def Counters.ofHalves (s : Sender) (r : Receiver) (recorded : Array Nat) : Counters :=
  { sent := (s.sources.map (·.sent)).toArray
    blocked := (s.sources.map (·.blocked)).toArray
    received := r.sinks.map (·.received)
    latencySum := r.sinks.map (·.latencySum)
    latencySumSq := r.sinks.map (·.latencySumSq)
    router := r.router
    recorded }

namespace Run

/-- The counters of a core without its recorded rows. -/
def current? (run : Run) (position : Nat) : Option Counters := do
  some (Counters.ofHalves (← run.senders[position]?) (← run.receivers[position]?) #[])

/-- Lets the core at a position record its counters, if it is due. -/
def record (elapsed : Nat) (run : Run) (setup : Setup × Nat) : Run :=
  if setup.1.recordDue elapsed then
    match (run.current? setup.2).bind fun c => c.row? setup.1 with
    | some row => { run with recorded := run.recorded.modify setup.2 (· ++ row.toArray) }
    | none => run
  else run

/-- One tick.  `recorders` are the cores that record their counters during the run. -/
def tick (capacity : Nat) (n : Network) (recorders : List (Setup × Nat)) (tick : Nat) (run : Run) :
    Run :=
  match run with
  | ⟨senders, receivers, random, recorded⟩ =>
    let (senders, packets) := sendAll capacity tick senders
    let (receivers, random) := n.deliverAll (receivers, random) packets
    recorders.foldl (record (tick + 1)) ⟨senders, receivers, random, recorded⟩

/-- The ticks from `tick` on, `n` of them. -/
def ticks (capacity : Nat) (n : Network) (recorders : List (Setup × Nat)) : Nat → Nat → Run → Run
  | 0, _, run => run
  | left + 1, now, run =>
    ticks capacity n recorders left (now + 1) (run.tick capacity n recorders now)

end Run

/-! ## Words -/

/-- Whether a count is a word of 64 bits. -/
def fitsWord (n : Nat) : Bool := n < UInt64.size

def SourceRun.fits (s : SourceRun) : Bool := fitsWord s.sent && fitsWord s.blocked

def SinkTally.fits (t : SinkTally) : Bool :=
  fitsWord t.received && fitsWord t.latencySum && fitsWord t.latencySumSq

def Receiver.fits (r : Receiver) : Bool :=
  !r.overdue && r.sinks.toList.all (·.fits) && fitsWord r.localPackets &&
    fitsWord r.externalPackets && fitsWord r.droppedPackets

/-- Whether all that has been counted in a run so far is within its words. -/
def Run.fits (run : Run) : Bool :=
  run.senders.all (·.sources.all (·.fits)) && run.receivers.toList.all (·.fits)

/-! ## From setups to counters -/

/-- The sinks that watch a key of a core. -/
def watchers (setups : List Setup) (core : CoreId) (key : UInt32) : List Watcher :=
  setups.zipIdx.flatMap fun (s, d) =>
    s.sinks.toList.zipIdx.filterMap fun (sink, j) =>
      if sink.source = core ∧ sink.key = key then some ⟨d, j, s.consume, s.core == core⟩ else none

def Sender.ofSetup (setups : List Setup) (s : Setup) : Sender :=
  ⟨s.runTicks, .ofSeed s.seed.toUInt64,
    s.sources.toList.map fun src => ⟨src, watchers setups s.core src.key, 0, 0⟩⟩

def Receiver.ofSetup (s : Setup) : Receiver :=
  ⟨Array.replicate s.sinks.size ⟨0, 0, 0⟩, 0, 0, 0, false⟩

/-- The start of a run. -/
def Run.ofSetups (seed : UInt64) (setups : List Setup) : Run :=
  { senders := setups.map (.ofSetup setups)
    receivers := (setups.map .ofSetup).toArray
    random := .ofSeed seed
    recorded := Array.replicate setups.length #[] }

/-- The longest run of some cores. -/
def longestRun (setups : List Setup) : Nat := setups.foldl (fun n s => max n s.runTicks) 0

/-- The state of a run when the longest of its cores is done. -/
def Run.final (capacity : Nat) (n : Network) (seed : UInt64) (setups : List Setup) : Run :=
  let recorders := setups.zipIdx.filter fun (s, _) => s.recordInterval != 0
  (Run.ofSetups seed setups).ticks capacity n recorders (longestRun setups) 0

/-- The counters of each core. -/
def Run.counters (run : Run) : List Counters :=
  (run.senders.zip (run.receivers.toList.zip run.recorded.toList)).map fun (s, r, recorded) =>
    .ofHalves s r recorded

/-- The counters of each core at the end of a run. -/
def simulate (capacity : Nat) (n : Network) (seed : UInt64) (setups : List Setup) : List Counters :=
  (Run.final capacity n seed setups).counters

end TrafficLab
