import TrafficLab.Table
import TrafficLab.Transport

/-!
# Faulty transports

A transport that stands between an experiment and another transport, fails in ways that are laid
down beforehand, and counts the requests that come in.
-/

namespace TrafficLab

/-- What goes wrong on the way. -/
structure Faults where
  /-- So many starts are never answered. -/
  hangStarts : Nat
  /-- So many starts after those are refused. -/
  failStarts : Nat
  /-- Cores whose loads are never answered. -/
  hangLoads : KeySet CoreId
  /-- Cores whose first reads fail, and how many. -/
  flakyReads : Table CoreId Nat
  /-- Cores for which other bytes are read than those of the machine. -/
  dumps : Table CoreId (List UInt8)

def Faults.none : Faults := ⟨0, 0, .empty, .empty, .empty⟩

/-- The transport behind, and what has come in. -/
structure Watched (σ : Type) where
  inner : σ
  starts : Nat
  reads : Table CoreId Nat

def Watched.of {σ : Type} (inner : σ) : Watched σ := ⟨inner, 0, .empty⟩

namespace Faults

variable {σ : Type} (f : Faults) (t : Transport σ)

def load (core : CoreId) (bytes : List UInt8) (w : Watched σ) : Answer Unit × Watched σ :=
  if f.hangLoads.contains core then (.silence, w)
  else
    let (answer, inner) := t.load core bytes w.inner
    (answer, { w with inner })

def start (cores : List CoreId) (duration : Nanosecs) (w : Watched σ) : Answer Unit × Watched σ :=
  let w := { w with starts := w.starts + 1 }
  if w.starts ≤ f.hangStarts then (.silence, w)
  else if w.starts ≤ f.hangStarts + f.failStarts then
    (.error (.rejected ((cores[0]?).getD default) "busy"), w)
  else
    let (answer, inner) := t.start cores duration w.inner
    (answer, { w with inner })

def read (core : CoreId) (w : Watched σ) : Answer (List UInt8) × Watched σ :=
  let n := (w.reads.get? core).getD 0 + 1
  let w := { w with reads := w.reads.insert core n }
  if (f.flakyReads.get? core).any fun failing => n ≤ failing then (.error (.unreachable core), w)
  else
    match f.dumps.get? core with
    | some bytes => (.value bytes, w)
    | Option.none =>
      let (answer, inner) := t.read core w.inner
      (answer, { w with inner })

/-- The transport with the faults. -/
def «over» : Transport (Watched σ) := ⟨f.load t, f.start t, f.read t⟩

end Faults

end TrafficLab
