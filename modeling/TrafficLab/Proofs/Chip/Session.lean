import TrafficLab.Proofs.Chip.Records

/-!
# Sessions: whose counters a machine gives back

In a session a machine is asked to load compiled programs, to start cores and to read counters, in
any order.  A `Ledger` notes what its answers say: the program that each core took last, and the
programs that were on the cores of the last run that each core was in.

    load keeps the counters of every core                                (load_answer)
    start runs all the cores, which fit, or changes nothing              (start_answer)
    read gives the dump of the last run, if that was of the program on the core    (read_answer)

A machine keeps the counters of a core that is loaded again, and reads them through the new program
until the core has run.  So a session reads only cores whose last run was of the program they have,
and it starts only cores that fit in the words of their counters.
-/

namespace TrafficLab

/-! ## Compiled programs -/

/-- A program is one of those that a specification compiles to. -/
def Spec.Makes (s : Spec) (p : Program) : Prop :=
  ∃ v c, s.validate = .ok v ∧ compile v = .ok c ∧ p ∈ c.programs.values

/-- The program that a specification makes for a core. -/
def Spec.program? (s : Spec) (core : CoreId) : Option Program :=
  match s.validate with
  | .error _ => none
  | .ok v =>
    match compile v with
    | .error _ => none
    | .ok c => c.programs.get? core

theorem Spec.makes_of_program? {s : Spec} {core : CoreId} {p : Program}
    (h : s.program? core = some p) : s.Makes p := by
  unfold program? at h
  split at h
  · cases h
  next v hv =>
  split at h
  · cases h
  next c hc => exact ⟨v, c, hv, hc, Table.mem_values.2 ⟨core, h⟩⟩

/-- The setup of a core that has taken a program, whichever core it was made for. -/
def Program.setupOn (p : Program) (core : CoreId) : Setup :=
  ({ p.toCorePlan with core } : CorePlan).setup

namespace Spec.Makes

variable {s : Spec} {p : Program} (h : s.Makes p)

include h

/-- A compiled program carries out a plan that commands can carry. -/
theorem exists_plan : ∃ plan : CorePlan, plan.assemble = p ∧ plan.Playable ∧
    0 < plan.runTicks.toNat ∧ p.footprint ≤ s.memoryBudget.toNat := by
  obtain ⟨v, c, hv, hc, hp⟩ := h
  obtain ⟨rfl, hsound⟩ := Spec.sound_of_validate hv
  obtain ⟨flows, hfrom⟩ := Compiled.from_of_compile hsound hc
  obtain ⟨core, hcore⟩ := Table.mem_values.1 hp
  have hbudget := Compiled.footprint_le hc hcore
  obtain ⟨-, hplan⟩ := hfrom.get?_programs.1 hcore
  refine ⟨_, hplan, hfrom.playable core, ?_, hbudget⟩
  rw [hfrom.runTicks_eq]
  exact hfrom.valid.runTicks_pos

theorem play_eq (core : CoreId) : Setup.play core p.bytes = .ok (p.setupOn core) := by
  obtain ⟨plan, rfl, hplay, -⟩ := h.exists_plan
  have hplay' : ({ plan with core } : CorePlan).Playable := { hplay with }
  exact CorePlan.play_assemble hplay'

theorem countersFit (core : CoreId) : (p.setupOn core).countersFit = true := by
  obtain ⟨plan, rfl, hplay, -⟩ := h.exists_plan
  have hplay' : ({ plan with core } : CorePlan).Playable := { hplay with }
  exact hplay'.countersFit

theorem tag_setupOn (core : CoreId) : (p.setupOn core).tag = p.tag := by
  obtain ⟨plan, rfl, -⟩ := h.exists_plan
  rfl

/-- On every core the program makes its records at its sample ticks. -/
theorem rowTimes_setupOn (core : CoreId) : (p.setupOn core).rowTimes = p.sampleTicks := by
  obtain ⟨plan, rfl, hplay, hpos, -⟩ := h.exists_plan
  exact CorePlan.rowTimes_setup { plan with core } hpos hplay.lossless.recordInterval

end Spec.Makes

/-! ## Runs of programs -/

/-- All rows but the last are made before the end of a core's own run. -/
theorem Setup.map_rowTimes (s : Setup) (last : Nat) :
    (s.rowTimes.map fun t => if t < s.runTicks then t else last) =
      s.recordTimes s.runTicks ++ [last] := by
  have hearly : ((s.recordTimes s.runTicks).map fun t => if t < s.runTicks then t else last) =
      (s.recordTimes s.runTicks).map id :=
    List.map_congr_left fun t ht => if_pos (lt_of_mem_recordTimes ht)
  rw [rowTimes, List.map_append, hearly, List.map_id, List.map_singleton,
    if_neg (Nat.lt_irrefl _)]

/-- The programs on the cores of one run. -/
abbrev Lineup := Table CoreId Program

namespace Lineup

variable (config : MachineConfig) (lineup : Lineup)

/-- The setups of the cores, in the order in which they run. -/
def setups : List Setup := lineup.entries.map fun e => e.2.setupOn e.1

/-- The counters of a core when all cores have run. -/
def counters? (core : CoreId) : Option Counters :=
  (simulate config.capacity.toNat config.network config.seed lineup.setups)[lineup.keys.idxOf core]?

/-- Whether the cores run within the words of their counters. -/
def fits : Bool :=
  (Run.final config.capacity.toNat config.network config.seed lineup.setups).fits

/-- The values in the slots of a core after so many ticks.  Those at the end of its program are
looked at when the longest program is over. -/
def slots? (core : CoreId) (p : Program) (tick : Nat) : Option (List Nat) :=
  let time := if tick < p.runTicks.toNat then tick else longestRun lineup.setups
  (Run.after config.capacity.toNat config.network config.seed lineup.setups
    (recorders lineup.setups) time).row? (lineup.keys.idxOf core) (p.setupOn core)

variable {lineup} {core : CoreId} {p : Program} (hp : lineup.get? core = some p)

include hp

theorem getElem?_setups : lineup.setups[lineup.keys.idxOf core]? = some (p.setupOn core) := by
  have hkey : lineup.keys[lineup.keys.idxOf core]? = some core :=
    List.getElem?_idxOf (Table.mem_keys.2 ⟨p, hp⟩)
  unfold Table.keys at hkey
  rw [List.getElem?_map, Option.map_eq_some_iff] at hkey
  obtain ⟨⟨d, q⟩, hentry, rfl⟩ := hkey
  have hq := Table.mem_entries.1 (List.mem_of_getElem? hentry)
  rw [hp] at hq
  cases hq
  unfold setups Table.keys
  rw [List.getElem?_map, hentry]
  rfl

/-- Each core of a run of compiled programs that fit has its counters, and they are read as the whole
dump of its program. -/
theorem exists_dump {s : Spec} (hs : s.Makes p) (hfits : lineup.fits config = true) :
    ∃ counters bytes, lineup.counters? config core = some counters ∧
      counters.dump? (p.setupOn core) = some bytes ∧
      p.DumpsFor s.memoryBudget (lineup.slots? config core p) bytes := by
  have hsetup := getElem?_setups hp
  have hfit := hs.countersFit core
  obtain ⟨plan, rfl, -, -, hbudget⟩ := hs.exists_plan
  have hsize : (plan.assemble.setupOn core).counters.size = plan.assemble.slots.length :=
    CorePlan.size_counters_setup { plan with core }
  have hformed := Run.formed_after config.capacity.toNat config.network config.seed lineup.setups
    (recorders lineup.setups)
  obtain ⟨counters, hcounters, hvalues⟩ := exists_dumpValues hsetup hfit config.capacity.toNat
    config.network config.seed
  choose rows hrows hlen using fun t => (hformed t).exists_row hsetup hfit
  -- the record at the end of the program is the row at the end of the run
  let time (tick : Nat) := if tick < plan.runTicks.toNat then tick else longestRun lineup.setups
  have hticks : (plan.assemble.setupOn core).recordTimes plan.runTicks.toNat ++
      [longestRun lineup.setups] = plan.assemble.sampleTicks.map time := by
    rw [← hs.rowTimes_setupOn core]
    exact (Setup.map_rowTimes (plan.assemble.setupOn core) (longestRun lineup.setups)).symm
  have hwords : ∀ t ∈ plan.assemble.sampleTicks, ∀ x ∈ rows (time t), x < UInt64.size := by
    intro t _
    have htime : time t ≤ longestRun lineup.setups := by
      show (if _ then t else longestRun lineup.setups) ≤ _
      split
      · next hlt =>
        exact Nat.le_trans (Nat.le_of_lt hlt) (le_longestRun (List.mem_of_getElem? hsetup))
      · exact Nat.le_refl _
    unfold Lineup.fits at hfits
    rw [Run.final_eq] at hfits
    exact Run.row_lt (Run.fits_of_le htime hfits) (hrows (time t))
  refine ⟨counters, _, hcounters, ?_, Program.dumpsFor_layout hbudget
    (fun t => hrows (time t)) (fun t => (hlen (time t)).trans hsize) hwords⟩
  unfold Counters.dump?
  rw [hvalues, Option.map_some, hsize, hs.tag_setupOn]
  simp only [hrows, Option.getD_some]
  change some (Dump.layout _ _ ((((plan.assemble.setupOn core).recordTimes plan.runTicks.toNat ++
    [longestRun lineup.setups]).flatMap rows).map UInt64.ofNat)) = _
  rw [hticks, List.flatMap_map]

end Lineup

/-! ## Ledgers -/

/-- What the answers of a machine say about it. -/
structure Ledger where
  /-- The program that each core took last. -/
  programs : Table CoreId Program
  /-- The programs of the last run that each core was in. -/
  runs : Table CoreId Lineup

namespace Ledger

def empty : Ledger := ⟨.empty, .empty⟩

variable (l : Ledger)

def afterLoad (core : CoreId) (p : Program) : Answer Unit → Ledger
  | .value () => { l with programs := l.programs.insert core p }
  | _ => l

/-- The programs that run when cores are started. -/
def lineup (cores : List CoreId) : Lineup := l.programs.filter fun core _ => cores.contains core

def afterStart (cores : List CoreId) : Answer Unit → Ledger
  | .value () => { l with runs := l.runs.override ((l.lineup cores).map fun _ _ => l.lineup cores) }
  | _ => l

/-- A core that has not run, or whose last run was of the program that it has. -/
def Fresh (core : CoreId) : Prop :=
  ∀ ran, l.runs.get? core = some ran → ran.get? core = l.programs.get? core

/-- What a core answers when its counters are read. -/
inductive Reading (config : MachineConfig) (core : CoreId) : Answer (List UInt8) → Prop
  | hung (h : config.hungReads.contains core = true) : Reading config core .silence
  | failed (h : config.failedReads.contains core = true) :
    Reading config core (.error (.unreachable core))
  | notRun (h : l.programs.get? core = none ∨ l.runs.get? core = none) :
    Reading config core (.error (.rejected core "core has not run"))
  /-- The whole dump of the program that the core has, with its counts in the core's last run. -/
  | dump {s : Spec} {p : Program} {ran : Lineup} {bytes : List UInt8} (hs : s.Makes p)
    (hp : l.programs.get? core = some p) (hran : l.runs.get? core = some ran)
    (hsame : ran.get? core = some p)
    (h : p.DumpsFor s.memoryBudget (ran.slots? config core p) bytes) :
    Reading config core (.value bytes)

end Ledger

/-- A machine, and what is known of it, after requests in any order.  Every program is a compiled
one, cores are only started if they fit, and a core is only read when it is fresh. -/
inductive Session (config : MachineConfig) : Machine → Ledger → Prop
  | new : Session config (.new config) .empty
  | load {m : Machine} {l : Ledger} (h : Session config m l) (core : CoreId) {s : Spec}
    {p : Program} (hs : s.Makes p) :
    Session config (m.load core p.bytes).2 (l.afterLoad core p (m.load core p.bytes).1)
  | start {m : Machine} {l : Ledger} (h : Session config m l) {cores : List CoreId}
    (hfits : m.fits cores = true) :
    Session config (m.start cores).2 (l.afterStart cores (m.start cores).1)
  | read {m : Machine} {l : Ledger} (h : Session config m l) {core : CoreId}
    (hfresh : l.Fresh core) : Session config (m.read core).2 l

/-! ## What a ledger knows -/

namespace Ledger

variable {l : Ledger} {cores : List CoreId} {core : CoreId} {p : Program}

theorem get?_lineup :
    (l.lineup cores).get? core = some p ↔ core ∈ cores ∧ l.programs.get? core = some p := by
  rw [← Table.mem_entries, ← Table.mem_entries]
  unfold lineup Table.filter
  rw [List.mem_filter, List.contains_iff_mem, and_comm]

theorem keys_lineup (hall : ∀ core ∈ cores, ∃ p, l.programs.get? core = some p) :
    (l.lineup cores).keys = (KeySet.ofList cores).keys := by
  refine KeySet.keys_eq_of_mem fun core => ?_
  rw [Table.mem_keys, KeySet.mem_keys_ofList]
  simp only [get?_lineup]
  constructor
  · rintro ⟨p, hcore, -⟩
    exact hcore
  · intro hcore
    obtain ⟨p, hp⟩ := hall core hcore
    exact ⟨p, hcore, hp⟩

theorem get?_runs_afterStart (hp : (l.lineup cores).get? core = some p) :
    (l.afterStart cores (.value ())).runs.get? core = some (l.lineup cores) :=
  Table.get?_override (by rw [Table.get?_map, hp, Option.map_some])

theorem get?_runs_afterStart_of_none (hp : (l.lineup cores).get? core = none) :
    (l.afterStart cores (.value ())).runs.get? core = l.runs.get? core :=
  Table.get?_override_of_none (by rw [Table.get?_map, hp, Option.map_none])

/-- A core that is started with its program is fresh. -/
theorem fresh_afterStart (hp : (l.lineup cores).get? core = some p) :
    (l.afterStart cores (.value ())).Fresh core := by
  intro ran hran
  rw [get?_runs_afterStart hp] at hran
  cases hran
  exact hp.trans (get?_lineup.1 hp).2.symm

end Ledger

/-- A machine that works and holds what its ledger says. -/
structure Ledger.Agrees (l : Ledger) (config : MachineConfig) (m : Machine) : Prop where
  config_eq : m.config = config
  unbroken : m.broken = false
  made : ∀ core p, l.programs.get? core = some p → ∃ s : Spec, s.Makes p
  loaded : ∀ core, m.loaded.get? core = (l.programs.get? core).map (·.setupOn core)
  fit : ∀ core ran, l.runs.get? core = some ran → ran.fits config = true
  counters : ∀ core, m.counters.get? core =
    (l.runs.get? core).bind fun ran => ran.counters? config core

namespace Ledger.Agrees

variable {l : Ledger} {config : MachineConfig} {m : Machine}

theorem new (config : MachineConfig) : Ledger.empty.Agrees config (.new config) :=
  ⟨rfl, rfl, fun _ _ h => by simp [Ledger.empty] at h, fun _ => rfl,
    fun _ _ h => by simp [Ledger.empty] at h, fun _ => rfl⟩

variable (h : l.Agrees config m)

include h

/-! ### Loading -/

/-- A core that is asked to load a compiled program takes it or cannot be reached; its counters
stay. -/
theorem load_answer (core : CoreId) {s : Spec} {p : Program} (hs : s.Makes p) :
    ((m.load core p.bytes).1 = .value () ∨
      (m.load core p.bytes).1 = .error (.unreachable core)) ∧
    (m.load core p.bytes).2.counters = m.counters ∧
    (l.afterLoad core p (m.load core p.bytes).1).Agrees config (m.load core p.bytes).2 := by
  unfold Machine.load
  rw [if_neg (by simp [h.unbroken])]
  simp only [hs.play_eq core]
  split
  · refine ⟨.inl rfl, rfl, h.config_eq, h.unbroken, ?_, ?_, h.fit, h.counters⟩
    · intro d q hq
      change (l.programs.insert core p).get? d = some q at hq
      by_cases hd : d = core
      · rw [hd, Table.get?_insert_self] at hq
        cases hq
        exact ⟨s, hs⟩
      · rw [Table.get?_insert_of_ne _ hd] at hq
        exact h.made d q hq
    · intro d
      change (m.loaded.insert core (p.setupOn core)).get? d =
        ((l.programs.insert core p).get? d).map (·.setupOn d)
      by_cases hd : d = core
      · rw [hd, Table.get?_insert_self, Table.get?_insert_self, Option.map_some]
      · rw [Table.get?_insert_of_ne _ hd, Table.get?_insert_of_ne _ hd]
        exact h.loaded d
  · exact ⟨.inr rfl, rfl, h.config_eq, h.unbroken, h.made, h.loaded, h.fit, h.counters⟩

/-! ### Starting -/

/-- Cores of which one has no program are not started, and nothing changes. -/
theorem start_failure {cores : List CoreId}
    (hmissing : ∃ core ∈ cores, l.programs.get? core = none) :
    ∃ core ∈ cores, l.programs.get? core = none ∧
      m.start cores = (.error (.rejected core "no program loaded"), m) := by
  have hloaded : ∀ core, m.loaded.get? core = none ↔ l.programs.get? core = none := by
    intro core
    rw [h.loaded, Option.map_eq_none_iff]
  simp only [← hloaded] at hmissing ⊢
  obtain ⟨core, hcore, hnone, herror⟩ := Machine.exists_setups_eq_error hmissing
  refine ⟨core, hcore, hnone, ?_⟩
  unfold Machine.start
  rw [if_neg (by simp [h.unbroken]), herror]

section
variable {cores : List CoreId} (hall : ∀ core ∈ cores, ∃ p, l.programs.get? core = some p)

include hall

/-- The cores run with the setups of their programs. -/
theorem exists_loaded : ∃ setupOf : CoreId → Setup, m.Loaded config setupOf cores ∧
    (∀ core ∈ cores, (setupOf core).countersFit = true) ∧
    (KeySet.ofList cores).keys.map setupOf = (l.lineup cores).setups := by
  let setupOf (core : CoreId) : Setup :=
    ((l.programs.get? core).map (·.setupOn core)).getD (.blank core 0)
  have hsetup : ∀ core p, l.programs.get? core = some p → setupOf core = p.setupOn core := by
    intro core p hp
    show ((l.programs.get? core).map (·.setupOn core)).getD _ = _
    rw [hp]
    rfl
  refine ⟨setupOf, ⟨h.config_eq, h.unbroken, fun core hcore => ?_⟩, fun core hcore => ?_, ?_⟩
  · obtain ⟨p, hp⟩ := hall core hcore
    rw [h.loaded, hp, hsetup core p hp, Option.map_some]
  · obtain ⟨p, hp⟩ := hall core hcore
    obtain ⟨s, hs⟩ := h.made core p hp
    rw [hsetup core p hp]
    exact hs.countersFit core
  · rw [← keys_lineup hall]
    unfold Table.keys Lineup.setups
    rw [List.map_map]
    refine List.map_congr_left fun e he => hsetup e.1 e.2 ?_
    exact (get?_lineup.1 (Table.mem_entries.1 he)).2

/-- Cores that all have programs run them if they fit, and the others keep their counters. -/
theorem start_success (hfits : m.fits cores = true) : (m.start cores).1 = .value () ∧
    (l.afterStart cores (m.start cores).1).Agrees config (m.start cores).2 := by
  obtain ⟨setupOf, hloaded, hfit, hsetups⟩ := h.exists_loaded hall
  have hkeys := keys_lineup hall
  rw [hloaded.start_eq hfit hfits, hsetups]
  rw [hloaded.fits_eq, hsetups] at hfits
  refine ⟨rfl, h.config_eq, h.unbroken, h.made, h.loaded, fun core ran hran => ?_, fun core => ?_⟩
  · cases hp : (l.lineup cores).get? core with
    | none =>
      rw [get?_runs_afterStart_of_none hp] at hran
      exact h.fit core ran hran
    | some p =>
      rw [get?_runs_afterStart hp] at hran
      cases hran
      exact hfits
  cases hp : (l.lineup cores).get? core with
  | none =>
    have hcore : core ∉ (KeySet.ofList cores).keys := by
      rw [← hkeys, Table.mem_keys]
      rintro ⟨p, hp'⟩
      rw [hp] at hp'
      cases hp'
    rw [get?_runs_afterStart_of_none hp, ← h.counters]
    exact Table.get?_override_of_none (Machine.Loaded.get?_results_of_not_mem hcore)
  | some p =>
    obtain ⟨s, hs⟩ := h.made core p (get?_lineup.1 hp).2
    obtain ⟨counters, -, hcounters, -⟩ := Lineup.exists_dump config hp hs hfits
    have hposition : (KeySet.ofList cores).keys[(l.lineup cores).keys.idxOf core]? =
        some core := by
      rw [← hkeys]
      exact List.getElem?_idxOf (Table.mem_keys.2 ⟨p, hp⟩)
    rw [get?_runs_afterStart hp, Option.bind_some, hcounters]
    exact Table.get?_override (Machine.Loaded.get?_results hposition hcounters)

/-- Cores that all have programs break the machine if they do not fit. -/
theorem start_crash (hfits : m.fits cores = false) : (m.start cores).1 = .crash := by
  obtain ⟨setupOf, hloaded, -⟩ := h.exists_loaded hall
  rw [hloaded.start_crash hfits]

end

/-- Cores are started all together or not at all. -/
theorem start_answer (cores : List CoreId) :
    ((∀ core ∈ cores, ∃ p, l.programs.get? core = some p) ∧
        (m.start cores).1 = (if m.fits cores then .value () else .crash) ∨
      ∃ core ∈ cores, l.programs.get? core = none ∧
        m.start cores = (.error (.rejected core "no program loaded"), m)) ∧
    (m.fits cores = true →
      (l.afterStart cores (m.start cores).1).Agrees config (m.start cores).2) := by
  by_cases hall : ∀ core ∈ cores, ∃ p, l.programs.get? core = some p
  · cases hfits : m.fits cores with
    | true =>
      obtain ⟨hstart, hagrees⟩ := h.start_success hall hfits
      exact ⟨.inl ⟨hall, hstart⟩, fun _ => hagrees⟩
    | false => exact ⟨.inl ⟨hall, h.start_crash hall hfits⟩, fun hfits => nomatch hfits⟩
  · have hmissing : ∃ core ∈ cores, l.programs.get? core = none := by
      simpa [Option.eq_none_iff_forall_ne_some] using hall
    obtain ⟨core, hcore, hnone, hstart⟩ := h.start_failure hmissing
    refine ⟨.inr ⟨core, hcore, hnone, hstart⟩, fun _ => ?_⟩
    rw [hstart]
    exact h

/-! ### Reading -/

/-- A core that is fresh gives back the dump of its last run, if there is one. -/
theorem read_answer (hwhole : config.truncated = .empty) {core : CoreId} (hfresh : l.Fresh core) :
    (m.read core).2 = m ∧ l.Reading config core (m.read core).1 := by
  unfold Machine.read
  rw [h.config_eq]
  split
  · next hhung => exact ⟨rfl, .hung hhung⟩
  split
  · next hfailed => exact ⟨rfl, .failed hfailed⟩
  rw [if_neg (by simp [h.unbroken]), h.loaded, h.counters]
  cases hp : l.programs.get? core with
  | none => exact ⟨rfl, .notRun (.inl hp)⟩
  | some p =>
    cases hran : l.runs.get? core with
    | none => exact ⟨rfl, .notRun (.inr hran)⟩
    | some ran =>
      obtain ⟨s, hs⟩ := h.made core p hp
      have hsame : ran.get? core = some p := (hfresh ran hran).trans hp
      obtain ⟨counters, bytes, hcounters, hdump, hbytes⟩ := Lineup.exists_dump config hsame hs
        (h.fit core ran hran)
      simp only [Option.map_some, Option.bind_some, hcounters, hdump, hwhole, Table.get?_empty]
      exact ⟨trivial, .dump hs hp hran hsame hbytes⟩

end Ledger.Agrees

theorem Session.agrees {config : MachineConfig} (hwhole : config.truncated = .empty) {m : Machine}
    {l : Ledger} (h : Session config m l) : l.Agrees config m := by
  induction h with
  | new => exact .new config
  | load _ core hs ih => exact (ih.load_answer core hs).2.2
  | start _ hfits ih => exact (ih.start_answer _).2 hfits
  | read _ hfresh ih =>
    rw [(ih.read_answer hwhole hfresh).1]
    exact ih

/-! ## Main result -/

/-- At every point of a session no request breaks the machine, but for a start of cores that would
leave the words of their counters.  Loading keeps all counters; cores of which one has no program are
not started, and then nothing changes; and a core that is fresh gives back the whole dump of the
program that it has, with the counts of its last run, or says that it has not run. -/
theorem counters_belong_to_programs {config : MachineConfig} (hwhole : config.truncated = .empty)
    {m : Machine} {l : Ledger} (h : Session config m l) :
    (∀ (core : CoreId) (s : Spec) (p : Program), s.Makes p →
      ((m.load core p.bytes).1 = .value () ∨
        (m.load core p.bytes).1 = .error (.unreachable core)) ∧
      (m.load core p.bytes).2.counters = m.counters) ∧
    (∀ cores : List CoreId,
      ((∀ core ∈ cores, ∃ p, l.programs.get? core = some p) ∧
        (m.start cores).1 = if m.fits cores then .value () else .crash) ∨
      ∃ core ∈ cores, l.programs.get? core = none ∧
        m.start cores = (.error (.rejected core "no program loaded"), m)) ∧
    ∀ core, l.Fresh core → (m.read core).2 = m ∧ l.Reading config core (m.read core).1 := by
  have hagrees := h.agrees hwhole
  refine ⟨fun core s p hs => ?_, fun cores => (hagrees.start_answer cores).1,
    fun core => hagrees.read_answer hwhole⟩
  obtain ⟨hanswer, hcounters, -⟩ := hagrees.load_answer core hs
  exact ⟨hanswer, hcounters⟩

/-- A core that takes a program and runs it gives back its dump. -/
theorem counters_belong_to_programs_twoCores :
    ∃ (m : Machine) (l : Ledger) (p : Program), MachineConfig.standard.truncated = .empty ∧
      Session .standard m l ∧ l.Fresh ⟨0⟩ ∧ l.programs.get? ⟨0⟩ = some p ∧
      (m.read ⟨0⟩).2 = m ∧ l.Reading .standard ⟨0⟩ (m.read ⟨0⟩).1 ∧
      ∃ bytes, (m.read ⟨0⟩).1 = .value bytes := by
  have hruns : ((Spec.twoCores.program? ⟨0⟩).map fun p =>
      ((Machine.new .standard).load ⟨0⟩ p.bytes).2.fits [⟨0⟩]) = some true := by
    decide +kernel
  obtain ⟨p, hp, hfits⟩ := Option.map_eq_some_iff.1 hruns
  have hs := Spec.makes_of_program? hp
  have hload : ((Machine.new .standard).load ⟨0⟩ p.bytes).1 = .value () := by
    unfold Machine.load
    simp only [hs.play_eq]
    rfl
  have hnew : Session .standard (.new .standard) .empty := .new
  have hloaded := hnew.load ⟨0⟩ hs
  rw [hload] at hloaded
  have htook : (Ledger.empty.afterLoad ⟨0⟩ p (.value ())).programs.get? ⟨0⟩ = some p :=
    Table.get?_insert_self _ _ _
  have hstart : (((Machine.new .standard).load ⟨0⟩ p.bytes).2.start [⟨0⟩]).1 = .value () := by
    rcases (counters_belong_to_programs rfl hloaded).2.1 [⟨0⟩] with ⟨-, h⟩ | ⟨core, hcore, h, -⟩
    · rwa [if_pos hfits] at h
    · rw [List.mem_singleton.1 hcore, htook] at h
      cases h
  have hran := hloaded.start hfits
  rw [hstart] at hran
  have hlineup := Ledger.get?_lineup.2 ⟨List.mem_singleton_self (⟨0⟩ : CoreId), htook⟩
  have hfresh := Ledger.fresh_afterStart hlineup
  obtain ⟨hsame, hreading⟩ := (counters_belong_to_programs rfl hran).2.2 ⟨0⟩ hfresh
  refine ⟨_, _, p, rfl, hran, hfresh, htook, hsame, hreading, ?_⟩
  generalize (Machine.read ⟨0⟩ _).1 = answer at hreading
  cases hreading with
  | hung h => cases h
  | failed h => cases h
  | notRun h =>
    rcases h with h | h
    · cases htook.symm.trans h
    · rw [Ledger.get?_runs_afterStart hlineup] at h
      cases h
  | dump _ _ _ _ _ => exact ⟨_, rfl⟩

/-! ## Cores that are loaded again -/

/-- The specification of two cores with another seed. -/
def Spec.twoCoresReseeded : Spec := { Spec.twoCores with seed := 2 }

/-- Whether a core that has run one program is read as if it had run a second, and breaks the
machine when it is read after it has taken a third. -/
def readsThroughOthers (p q r : Program) : Bool :=
  let ran := (((Machine.new .standard).load ⟨0⟩ p.bytes).2.start [⟨0⟩]).2
  let readAs (other : Program) := ((ran.load ⟨0⟩ other.bytes).2.read ⟨0⟩).1
  match readAs q, readAs r with
  | .value bytes, .crash => p.tag != q.tag && (Dump.read q ⟨⟨0⟩, bytes⟩).status == .decoded
  | _, _ => false

/-- A core that has run a program and is loaded again gives back a dump of the program it has not
run, and with a program of more sinks it breaks the machine. -/
theorem counters_kept_for_next_program :
    ∃ p q r : Program, Spec.twoCores.Makes p ∧ Spec.twoCoresReseeded.Makes q ∧
      Spec.twoCores.Makes r ∧ p.tag ≠ q.tag ∧
      let ran := (((Machine.new .standard).load ⟨0⟩ p.bytes).2.start [⟨0⟩]).2
      (∃ bytes, ((ran.load ⟨0⟩ q.bytes).2.read ⟨0⟩).1 = .value bytes ∧
        (Dump.read q ⟨⟨0⟩, bytes⟩).status = .decoded) ∧
      ((ran.load ⟨0⟩ r.bytes).2.read ⟨0⟩).1 = .crash := by
  have hreads : ((Spec.twoCores.program? ⟨0⟩).bind fun p =>
      (Spec.twoCoresReseeded.program? ⟨0⟩).bind fun q =>
        (Spec.twoCores.program? ⟨1⟩).map fun r => readsThroughOthers p q r) = some true := by
    decide +kernel
  obtain ⟨p, hp, hreads⟩ := Option.bind_eq_some_iff.1 hreads
  obtain ⟨q, hq, hreads⟩ := Option.bind_eq_some_iff.1 hreads
  obtain ⟨r, hr, hreads⟩ := Option.map_eq_some_iff.1 hreads
  refine ⟨p, q, r, Spec.makes_of_program? hp, Spec.makes_of_program? hq,
    Spec.makes_of_program? hr, ?_⟩
  unfold readsThroughOthers at hreads
  simp only at hreads
  split at hreads
  · next bytes hvalue hcrash =>
    rw [Bool.and_eq_true, bne_iff_ne, beq_iff_eq] at hreads
    exact ⟨hreads.1, ⟨bytes, hvalue, hreads.2⟩, hcrash⟩
  · cases hreads

end TrafficLab
