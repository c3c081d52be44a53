import TrafficLab.Datum

/-!
# Metrics

What a counter slot counts: packets of a source, packets and latencies of a sink, or one of the
twelve counters that each core's router keeps.

    ofCode? m.code = some m                       (Metric.ofCode?_code)
    RouterCounter.ofIndex? c.index = some c       (RouterCounter.ofIndex?_index)

A `CounterSet` is the mask by which a core is told which router counters to record.
-/

namespace TrafficLab

/-! ## Router counters -/

/-- A counter of a core's router: which packets it counts, and whether they were routed locally,
routed on to another chip, or dropped. -/
inductive RouterCounter
  | localMulticast
  | externalMulticast
  | localP2p
  | externalP2p
  | localNearestNeighbour
  | externalNearestNeighbour
  | localFixedRoute
  | externalFixedRoute
  | droppedMulticast
  | droppedP2p
  | droppedNearestNeighbour
  | droppedFixedRoute
  deriving DecidableEq, Repr, Inhabited

namespace RouterCounter

/-- The router counters in the order of their bits. -/
def all : List RouterCounter :=
  [localMulticast, externalMulticast, localP2p, externalP2p, localNearestNeighbour,
    externalNearestNeighbour, localFixedRoute, externalFixedRoute, droppedMulticast, droppedP2p,
    droppedNearestNeighbour, droppedFixedRoute]

/-- The position of the counter's bit. -/
def index : RouterCounter → Nat
  | localMulticast => 0
  | externalMulticast => 1
  | localP2p => 2
  | externalP2p => 3
  | localNearestNeighbour => 4
  | externalNearestNeighbour => 5
  | localFixedRoute => 6
  | externalFixedRoute => 7
  | droppedMulticast => 8
  | droppedP2p => 9
  | droppedNearestNeighbour => 10
  | droppedFixedRoute => 11

def ofIndex? (i : Nat) : Option RouterCounter := all[i]?

/-- The mask with the counter's bit alone. -/
def bit (c : RouterCounter) : UInt32 := 1 <<< UInt32.ofNat c.index

/-- The name in data files. -/
def name : RouterCounter → String
  | localMulticast => "local_multicast"
  | externalMulticast => "external_multicast"
  | localP2p => "local_p2p"
  | externalP2p => "external_p2p"
  | localNearestNeighbour => "local_nearest_neighbour"
  | externalNearestNeighbour => "external_nearest_neighbour"
  | localFixedRoute => "local_fixed_route"
  | externalFixedRoute => "external_fixed_route"
  | droppedMulticast => "dropped_multicast"
  | droppedP2p => "dropped_p2p"
  | droppedNearestNeighbour => "dropped_nearest_neighbour"
  | droppedFixedRoute => "dropped_fixed_route"

/-- The name in listings. -/
def title : RouterCounter → String
  | localMulticast => "LocalMulticast"
  | externalMulticast => "ExternalMulticast"
  | localP2p => "LocalP2p"
  | externalP2p => "ExternalP2p"
  | localNearestNeighbour => "LocalNearestNeighbour"
  | externalNearestNeighbour => "ExternalNearestNeighbour"
  | localFixedRoute => "LocalFixedRoute"
  | externalFixedRoute => "ExternalFixedRoute"
  | droppedMulticast => "DroppedMulticast"
  | droppedP2p => "DroppedP2p"
  | droppedNearestNeighbour => "DroppedNearestNeighbour"
  | droppedFixedRoute => "DroppedFixedRoute"

def ofName? (s : String) : Option RouterCounter := all.find? fun c => c.name == s

@[simp] theorem ofIndex?_index (c : RouterCounter) : ofIndex? c.index = some c := by
  cases c <;> rfl

theorem index_inj {a b : RouterCounter} (h : a.index = b.index) : a = b := by
  have := congrArg ofIndex? h
  simpa using this

theorem index_lt (c : RouterCounter) : c.index < 12 := by
  cases c <;> decide

instance : Keyed RouterCounter where
  rank := index
  rank_inj := index_inj

end RouterCounter

/-! ## Sets of router counters -/

/-- The bits that name a counter. -/
def CounterSet.known : UInt32 := 0xFFF

/-- A set of router counters, as the mask of their bits. -/
structure CounterSet where
  mask : UInt32
  within : mask &&& ~~~CounterSet.known = 0
  deriving DecidableEq

namespace CounterSet

def empty : CounterSet := ⟨0, by decide⟩

instance : Inhabited CounterSet := ⟨empty⟩

theorem bit_within (c : RouterCounter) : c.bit &&& ~~~known = 0 := by
  cases c <;> decide

theorem or_within {a b : UInt32} (ha : a &&& ~~~known = 0) (hb : b &&& ~~~known = 0) :
    (a ||| b) &&& ~~~known = 0 := by
  have ha := congrArg UInt32.toBitVec ha
  have hb := congrArg UInt32.toBitVec hb
  apply UInt32.eq_of_toBitVec_eq
  simp only [UInt32.toBitVec_and, UInt32.toBitVec_or] at ha hb ⊢
  ext i hi
  have hai := congrArg (fun v => v.getLsbD i) ha
  have hbi := congrArg (fun v => v.getLsbD i) hb
  simp only [BitVec.getLsbD_and, BitVec.getLsbD_or, ← BitVec.getLsbD_eq_getElem] at hai hbi ⊢
  rw [Bool.and_or_distrib_right, hai, hbi, Bool.or_self]

def insert (s : CounterSet) (c : RouterCounter) : CounterSet :=
  ⟨s.mask ||| c.bit, or_within s.within (bit_within c)⟩

def ofList (cs : List RouterCounter) : CounterSet := cs.foldl insert empty

/-- The set of every router counter. -/
def full : CounterSet := ⟨known, by decide⟩

/-- The set with the given mask, if each of its bits names a counter. -/
def ofMask? (mask : UInt32) : Option CounterSet :=
  if h : mask &&& ~~~known = 0 then some ⟨mask, h⟩ else none

def contains (s : CounterSet) (c : RouterCounter) : Bool := s.mask &&& c.bit != 0

def isEmpty (s : CounterSet) : Bool := s.mask == 0

/-- The members in the order of their bits. -/
def toList (s : CounterSet) : List RouterCounter := RouterCounter.all.filter s.contains

@[simp] theorem ofMask?_mask (s : CounterSet) : ofMask? s.mask = some s := by
  simp [ofMask?, s.within]

end CounterSet

/-! ## Metrics -/

/-- What one counter slot holds. -/
inductive Metric
  /-- Packets a source emitted. -/
  | sent
  /-- Packets a source could not emit because its core had emitted enough in the tick. -/
  | blocked
  /-- Packets a sink accepted. -/
  | received
  /-- The sum of the latencies of the accepted packets, in ticks. -/
  | latencySum
  /-- The sum of the squares of those latencies. -/
  | latencySumSq
  /-- A counter of the router. -/
  | router (c : RouterCounter)
  deriving DecidableEq, Repr, Inhabited

namespace Metric

/-- The code of the first router counter. -/
def routerBase : Nat := 0x100

/-- The code by which a command names the metric. -/
def code : Metric → Nat
  | sent => 1
  | blocked => 2
  | received => 3
  | latencySum => 4
  | latencySumSq => 5
  | router c => routerBase + c.index

def ofCode? : Nat → Option Metric
  | 1 => some sent
  | 2 => some blocked
  | 3 => some received
  | 4 => some latencySum
  | 5 => some latencySumSq
  | n => if routerBase ≤ n then (RouterCounter.ofIndex? (n - routerBase)).map router else none

/-- Whether the metric belongs to a source. -/
def ofSource : Metric → Bool
  | sent | blocked => true
  | _ => false

/-- Whether the metric belongs to a sink. -/
def ofSink : Metric → Bool
  | received | latencySum | latencySumSq => true
  | _ => false

instance : ToString Metric where
  toString
    | sent => "sent"
    | blocked => "blocked"
    | received => "received"
    | latencySum => "latency_sum"
    | latencySumSq => "latency_sum_sq"
    | router c => "router." ++ c.title

@[simp] theorem ofCode?_code (m : Metric) : ofCode? m.code = some m := by
  cases m with
  | router c => cases c <;> rfl
  | _ => rfl

theorem code_lt (m : Metric) : m.code < 65536 := by
  cases m with
  | router c => cases c <;> decide
  | _ => decide

end Metric

/-! ## Stored form -/

instance : ToDatum RouterCounter := ⟨fun c => .text c.name⟩

instance : OfDatum RouterCounter := ⟨fun d => d.plainChoice?.bind RouterCounter.ofName?⟩

instance : ToDatum CounterSet := ⟨fun s => toDatum s.toList⟩

instance : OfDatum CounterSet := ⟨fun d => (ofDatum? d).map CounterSet.ofList⟩

instance : ToDatum Metric where
  toDatum
    | .router c => .record [("router", toDatum c)]
    | m => .text (toString m)

instance : OfDatum Metric where
  ofDatum? d := do
    match ← d.choice? with
    | ("router", some c) => (ofDatum? c).map Metric.router
    | ("router", none) => none
    | _ =>
      let name ← d.plainChoice?
      [Metric.sent, .blocked, .received, .latencySum, .latencySumSq].find? fun m =>
        toString m == name

end TrafficLab
