import TrafficLab.Ident
import TrafficLab.Quantity

/-!
# Transports

How an experiment reaches the machine it runs on.  A request is answered at once or never, and
answers may be errors.  `σ` is whatever the machine and the way to it remember.
-/

namespace TrafficLab

inductive TransportError
  | unreachable (core : CoreId)
  | timeout (limit : Duration)
  | rejected (core : CoreId) (reason : String)
  deriving DecidableEq, Repr

def TransportError.message : TransportError → String
  | unreachable core => s!"core {core} is unreachable"
  | timeout limit => s!"no answer within {limit.text}"
  | rejected core reason => s!"core {core} rejected the request: {reason}"

/-- What comes of a request. -/
inductive Answer (α : Type)
  | value (x : α)
  | error (e : TransportError)
  /-- No answer ever comes. -/
  | silence
  /-- The machine breaks while it answers. -/
  | crash
  deriving DecidableEq, Repr

def Answer.map {α β : Type} (f : α → β) : Answer α → Answer β
  | value x => .value (f x)
  | error e => .error e
  | silence => .silence
  | crash => .crash

structure Transport (σ : Type) where
  /-- Loads a packed command stream onto a core. -/
  load : CoreId → List UInt8 → σ → Answer Unit × σ
  /-- Starts cores, which stop by themselves after the given time. -/
  start : List CoreId → Nanosecs → σ → Answer Unit × σ
  /-- Reads the counters of a core. -/
  read : CoreId → σ → Answer (List UInt8) × σ

end TrafficLab
