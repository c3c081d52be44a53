import TrafficLab.Experiment.Options
import TrafficLab.Transport

/-!
# Attempts

A request is made until it succeeds, at most `retries + 1` times, with a pause after each failure.
Many cores are dealt with at a time, in ascending order: a core waits until one of the permits is
free and keeps it through its pauses.

Time is counted in nanoseconds from the start of an operation and goes by in timeouts and pauses
alone.  What an operation still does when its limit is over is cut.

    attempt: the first success among the answers, or the last failure
    sweep:   each core's outcome depends on the answers to that core alone
-/

namespace TrafficLab

inductive Outcome (α : Type)
  | success (x : α)
  | failure (e : TransportError)
  /-- The machine broke. -/
  | crash
  /-- The limit was over first. -/
  | cut
  deriving DecidableEq, Repr

/-- What came of a request, when, and what the transport remembers afterwards. -/
structure Tried (σ α : Type) where
  outcome : Outcome α
  time : Nat
  state : σ

/-- Whether a limit is over. -/
def isOver (limit : Option Nat) (time : Nat) : Bool := limit.any fun l => l < time

/-- Makes a request at the given time, and again while it fails and retries are left. -/
def attempt {σ α : Type} (opts : RunOptions) (limit : Option Nat) (request : σ → Answer α × σ) :
    Nat → Nat → σ → Tried σ α
  | retries, now, s =>
    if isOver limit now then ⟨.cut, now, s⟩
    else
      match request s with
      | (.value x, s) => ⟨.success x, now, s⟩
      | (.crash, s) => ⟨.crash, now, s⟩
      | (.error e, s) =>
        match retries with
        | 0 => ⟨.failure e, now, s⟩
        | left + 1 => attempt opts limit request left (now + opts.backoff.nanos) s
      | (.silence, s) =>
        let later := now + opts.timeout.nanos
        if isOver limit later then ⟨.cut, later, s⟩
        else
          match retries with
          | 0 => ⟨.failure (.timeout opts.timeout), later, s⟩
          | left + 1 => attempt opts limit request left (later + opts.backoff.nanos) s

/-- Puts a time in its place among times in ascending order. -/
def insertTime (t : Nat) : List Nat → List Nat
  | [] => [t]
  | u :: rest => if t ≤ u then t :: u :: rest else u :: insertTime t rest

/-- When the next core can begin, and which permits stay in use until when. -/
def nextPermit (opts : RunOptions) (start : Nat) (busy : List Nat) : Nat × List Nat :=
  if busy.length < max opts.maxInFlight.toNat 1 then (start, busy)
  else
    match busy with
    | first :: rest => (first, rest)
    | [] => (start, [])

/-- What came of the requests to some cores. -/
structure Swept (σ α : Type) where
  outcomes : List (CoreId × Outcome α)
  /-- When the last of them was over. -/
  time : Nat
  state : σ

/-- Makes a request to each core.  `busy` are the times until which permits are in use. -/
def sweep {σ α : Type} (opts : RunOptions) (limit : Option Nat)
    (request : CoreId → σ → Answer α × σ) (start : Nat) :
    List Nat → List CoreId → σ → Swept σ α
  | _, [], s => ⟨[], start, s⟩
  | busy, core :: rest, s =>
    let (now, busy) := nextPermit opts start busy
    let tried := attempt opts limit (request core) opts.retries.toNat now s
    let others := sweep opts limit request start (insertTime tried.time busy) rest tried.state
    ⟨(core, tried.outcome) :: others.outcomes, max tried.time others.time, others.state⟩

namespace Swept

variable {σ α : Type} (r : Swept σ α)

/-- The cores that succeeded, with what they answered. -/
def successes : List (CoreId × α) :=
  r.outcomes.filterMap fun (core, outcome) =>
    match outcome with
    | .success x => some (core, x)
    | _ => none

/-- Whether some core was cut off. -/
def isCut : Bool := r.outcomes.any fun (_, outcome) =>
  match outcome with
  | .cut => true
  | _ => false

end Swept

end TrafficLab
