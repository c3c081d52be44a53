import TrafficLab.Chip.Simulation
import TrafficLab.Transport

/-!
# A simulated machine

A machine holds the setups of the cores that are loaded and the counters that their last runs left
behind.  Faults can be built in: cores that take no program or take it late, cores whose counters
cannot be read or are cut short.

Counters stay with a core when it is loaded again.  A machine breaks when it has to read counters
that a core does not have: those of an earlier setup through one with more roles, or during a run
those of roles that are no longer there.  It also breaks in a run that counts more than the words of
the counters can hold, so the counters that a run leaves behind are words.  A broken machine refuses
everything.
-/

namespace TrafficLab

structure MachineConfig where
  /-- The packets that a core can send in a tick. -/
  capacity : UInt32
  network : Network
  /-- The seed of the network's random words. -/
  seed : UInt64
  /-- Cores that never take a program. -/
  unreachable : KeySet CoreId
  /-- Cores that refuse so many loads before they take a program. -/
  flakyLoads : Table CoreId Nat
  /-- Cores whose counters cannot be read. -/
  failedReads : KeySet CoreId
  /-- Cores that never answer when their counters are read. -/
  hungReads : KeySet CoreId
  /-- Cores whose dumps are cut to so many bytes. -/
  truncated : Table CoreId Nat

/-- One packet in a tick, one tick on the way, and no faults. -/
def MachineConfig.standard : MachineConfig :=
  ⟨1, ⟨.never, 1, 0⟩, 0, .empty, .empty, .empty, .empty, .empty⟩

structure Machine where
  config : MachineConfig
  loaded : Table CoreId Setup
  loadAttempts : Table CoreId Nat
  counters : Table CoreId Counters
  broken : Bool

namespace Machine

def new (config : MachineConfig) : Machine := ⟨config, .empty, .empty, .empty, false⟩

/-- What a broken machine says. -/
def refusal : TransportError := .rejected ⟨0⟩ "machine state poisoned"

/-- How many loads the core has seen; a broken machine no longer knows. -/
def attempts (m : Machine) (core : CoreId) : Nat :=
  if m.broken then 0 else (m.loadAttempts.get? core).getD 0

/-- Whether a core takes its `n`-th load. -/
def accepts (c : MachineConfig) (core : CoreId) (n : Nat) : Bool :=
  !c.unreachable.contains core && (c.flakyLoads.get? core).all fun failing => failing < n

def load (core : CoreId) (bytes : List UInt8) (m : Machine) : Answer Unit × Machine :=
  if m.broken then (.error refusal, m)
  else
    let n := m.attempts core + 1
    let m := { m with loadAttempts := m.loadAttempts.insert core n }
    if accepts m.config core n then
      match Setup.play core bytes with
      | .error e => (.error (.rejected core e.message), m)
      | .ok setup => (.value (), { m with loaded := m.loaded.insert core setup })
    else (.error (.unreachable core), m)

/-- The setups of cores, in ascending order, or the first core that is not loaded. -/
def setups (m : Machine) (cores : List CoreId) : Except CoreId (Table CoreId Setup) :=
  cores.foldlM (fun found core =>
    match m.loaded.get? core with
    | some s => .ok (found.insert core s)
    | none => .error core) .empty

/-- Whether a run breaks the machine: a core records counters of roles that it does not have. -/
def breaks (setups : List Setup) : Bool := setups.any fun s => s.recordsEarly && !s.countersFit

/-- Runs cores to the end. -/
def start (cores : List CoreId) (m : Machine) : Answer Unit × Machine :=
  if m.broken then (.error refusal, m)
  else
    match m.setups cores with
    | .error core => (.error (.rejected core "no program loaded"), m)
    | .ok setups =>
      let run := Run.final m.config.capacity.toNat m.config.network m.config.seed setups.values
      if breaks setups.values || !run.fits then (.crash, { m with broken := true })
      else
        (.value (),
          { m with counters := m.counters.override (.ofList (setups.keys.zip run.counters)) })

/-- Reads the dump of a core. -/
def read (core : CoreId) (m : Machine) : Answer (List UInt8) × Machine :=
  if m.config.hungReads.contains core then (.silence, m)
  else if m.config.failedReads.contains core then (.error (.unreachable core), m)
  else if m.broken then (.error refusal, m)
  else
    match m.loaded.get? core, m.counters.get? core with
    | some setup, some counters =>
      match counters.dump? setup with
      | none => (.crash, { m with broken := true })
      | some bytes =>
        match m.config.truncated.get? core with
        | some length => (.value (bytes.take length), m)
        | none => (.value bytes, m)
    | _, _ => (.error (.rejected core "core has not run"), m)

/-- A machine as what an experiment runs on. -/
def transport : Transport Machine where
  load := load
  start cores _ := start cores
  read := read

end Machine

end TrafficLab
