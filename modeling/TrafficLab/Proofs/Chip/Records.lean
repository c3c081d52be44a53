import TrafficLab.Proofs.Chip.Collection
import TrafficLab.Proofs.Chip.Words

/-!
# Programs, cores and dumps agree about records

A program says at which ticks its core records its counters and how large the dump is.  A core that
has been loaded with it makes its records at just these ticks, whichever other cores of the
specification run with it, and the dump that is read afterwards has a row of words for each of them.

    the row of a core after so many ticks of a run = slotsAfter?          (slotsAfter?_eq)
    s.rowTimes = p.sampleTicks, one after another                       (recordsFor_program)
    the cores fit → the rows are rows of words                            (slotsAfter?_lt)
    the dump has the rows of the sample ticks and nothing else            (dumpsFor_layout)
-/

namespace TrafficLab

open Checked

/-! ## What is compared -/

/-- A setup that makes its records when a program says. -/
structure Setup.RecordsFor (s : Setup) (p : Program) : Prop where
  ticks : ((List.range s.runTicks).map (· + 1)).filter s.recordDue ++ [s.runTicks] = p.sampleTicks
  ascending : p.sampleTicks.Pairwise (· < ·)
  length : p.sampleTicks.length = p.samples
  pos : 1 ≤ p.samples

/-- Bytes that are the whole dump of a program, given the values of its slots after so many
ticks. -/
structure Program.DumpsFor (p : Program) (budget : Bytes) (slots : Nat → Option (List Nat))
    (bytes : List UInt8) : Prop where
  footprint : p.bytes.length + bytes.length = p.footprint
  within : p.bytes.length + bytes.length ≤ budget.toNat
  decoded : (Dump.read p ⟨p.core, bytes⟩).status = .decoded
  length_rows : (Dump.read p ⟨p.core, bytes⟩).rows.length = p.samples
  rows : ∀ k t : Nat, p.sampleTicks[k]? = some t → ∃ values, slots t = some values ∧
    values.length = p.slots.length ∧ (∀ x ∈ values, x < UInt64.size) ∧
    (Dump.read p ⟨p.core, bytes⟩).rows[k]? = some (values.map fun x => some (UInt64.ofNat x))

/-- The values in the slots of a core when so many ticks of a run of the given cores have gone
by. -/
def Machine.slotsAfter? (m : Machine) (cores : List CoreId) (core : CoreId) (tick : Nat) :
    Option (List Nat) :=
  match m.setups cores with
  | .error _ => none
  | .ok setups => (setups.get? core).bind fun s =>
    (Run.after m.config.capacity.toNat m.config.network m.config.seed setups.values
      (recorders setups.values) tick).row? (setups.keys.idxOf core) s

/-! ## Runs of a machine's cores -/

namespace Machine.Loaded

variable {config : MachineConfig} {setupOf : CoreId → Setup} {cores : List CoreId} {m : Machine}

theorem slotsAfter?_eq (h : m.Loaded config setupOf cores) {core : CoreId} (hcore : core ∈ cores)
    (tick : Nat) :
    m.slotsAfter? cores core tick =
      (Run.after config.capacity.toNat config.network config.seed
        ((KeySet.ofList cores).keys.map setupOf)
        (recorders ((KeySet.ofList cores).keys.map setupOf)) tick).row?
          ((KeySet.ofList cores).keys.idxOf core) (setupOf core) := by
  unfold slotsAfter?
  rw [setups_eq h.loaded]
  simp only
  rw [Table.get?_ofList_map setupOf hcore, Table.values_ofList_map, keys_setups, h.config_eq]
  rfl

variable (h : m.Loaded config setupOf cores) {core : CoreId} (hcore : core ∈ cores)

include h hcore

omit h in
theorem getElem?_position (setupOf : CoreId → Setup) :
    (KeySet.ofList cores).keys[(KeySet.ofList cores).keys.idxOf core]? = some core ∧
      ((KeySet.ofList cores).keys.map setupOf)[(KeySet.ofList cores).keys.idxOf core]? =
        some (setupOf core) := by
  have hposition := List.getElem?_idxOf (KeySet.mem_keys_ofList.2 hcore)
  refine ⟨hposition, ?_⟩
  rw [List.getElem?_map, hposition]
  rfl

/-- At every tick a core with counters that fit has a value in each slot. -/
theorem exists_slots (hfit : (setupOf core).countersFit = true) (tick : Nat) :
    ∃ values, m.slotsAfter? cores core tick = some values ∧
      values.length = (setupOf core).counters.size := by
  rw [h.slotsAfter?_eq hcore]
  exact (Run.formed_after _ _ _ _ _ tick).exists_row (getElem?_position hcore setupOf).2 hfit

/-- If the cores fit, these values are words up to the end of the core's own run. -/
theorem slotsAfter?_lt (hfits : m.fits cores = true) {tick : Nat}
    (htick : tick ≤ (setupOf core).runTicks) {values : List Nat}
    (hvalues : m.slotsAfter? cores core tick = some values) : ∀ x ∈ values, x < UInt64.size := by
  have hmem := List.mem_of_getElem? (getElem?_position hcore setupOf).2
  rw [h.fits_eq, Run.final_eq] at hfits
  rw [h.slotsAfter?_eq hcore] at hvalues
  exact Run.row_lt (Run.fits_of_le (Nat.le_trans htick (le_longestRun hmem)) hfits) hvalues

/-- Cores that run equally long, and fit, leave their dumps behind, row after row. -/
theorem exists_dump {T : Nat} (hT : ∀ d ∈ cores, (setupOf d).runTicks = T)
    (hfit : ∀ d ∈ cores, (setupOf d).countersFit = true) (hfits : m.fits cores = true)
    (hreads : config.Reads core) :
    ∃ (rows : Nat → List Nat) (m' : Machine),
      (∀ t, m.slotsAfter? cores core t = some (rows t)) ∧
      (∀ t, (rows t).length = (setupOf core).counters.size) ∧
      m.start cores = (.value (), m') ∧
      m'.read core = (.value (Dump.layout (setupOf core).tag
        (UInt32.ofNat (setupOf core).counters.size)
        (((setupOf core).rowTimes.flatMap rows).map UInt64.ofNat)), m') := by
  obtain ⟨m', hstart, hm', hcounters⟩ := h.start_spec hfit hfits
  obtain ⟨hposition, hsetup⟩ := getElem?_position hcore setupOf
  have hruns : ∀ s ∈ (KeySet.ofList cores).keys.map setupOf, s.runTicks = T := by
    intro s hs
    obtain ⟨d, hd, rfl⟩ := List.mem_map.1 hs
    exact hT d (KeySet.mem_keys_ofList.1 hd)
  obtain ⟨counters, hsim, hvalues⟩ := exists_counters hruns hsetup (hfit core hcore)
    config.capacity.toNat config.network config.seed
  choose rows hrows hlen using h.exists_slots hcore (hfit core hcore)
  refine ⟨rows, m', hrows, hlen, hstart, ?_⟩
  rw [hm'.read_spec hreads hcore (hcounters _ core counters hposition hsim) hvalues]
  unfold Run.values Setup.rowTimes
  simp only [← h.slotsAfter?_eq hcore, hrows, Option.getD_some]

end Machine.Loaded

/-! ## Dumps of a program -/

/-- A dump with a row for every sample tick is the whole dump of its program. -/
theorem Program.dumpsFor_layout {p : Program} {budget : Bytes}
    (hbudget : p.footprint ≤ budget.toNat) {slots : Nat → Option (List Nat)}
    {rows : Nat → List Nat} (hslots : ∀ t, slots t = some (rows t))
    (hrows : ∀ t, (rows t).length = p.slots.length)
    (hwords : ∀ t ∈ p.sampleTicks, ∀ x ∈ rows t, x < UInt64.size) :
    p.DumpsFor budget slots (Dump.layout p.tag (UInt32.ofNat p.slots.length)
      ((p.sampleTicks.flatMap rows).map UInt64.ofNat)) := by
  have hlength := p.length_sampleTicks
  have hvalues : ((p.sampleTicks.flatMap rows).map UInt64.ofNat).length =
      p.slots.length * p.samples := by
    rw [List.length_map, List.length_flatMap, List.map_congr_left fun t _ => hrows t,
      List.map_const', List.sum_replicate_nat, hlength, Nat.mul_comm]
  have hsize : p.bytes.length + (Dump.layout p.tag (UInt32.ofNat p.slots.length)
      ((p.sampleTicks.flatMap rows).map UInt64.ofNat)).length = p.footprint := by
    rw [Dump.length_layout, hvalues]
    unfold Program.footprint Dump.size
    rw [Nat.mul_assoc]
  have hcut : Dump.cut p.samples p.slots.length
      (((p.sampleTicks.flatMap rows).map UInt64.ofNat).map some) =
      p.sampleTicks.map fun t => (rows t).map fun x => some (UInt64.ofNat x) := by
    rw [List.map_map, List.map_flatMap, ← hlength]
    refine Dump.cut_flatMap fun t _ => ?_
    rw [List.length_map, hrows]
  have hread : Dump.read p ⟨p.core, Dump.layout p.tag (UInt32.ofNat p.slots.length)
      ((p.sampleTicks.flatMap rows).map UInt64.ofNat)⟩ =
      ⟨p.core, .decoded, p.sampleTicks.map fun t =>
        (rows t).map fun x => some (UInt64.ofNat x)⟩ := by
    rw [← hcut]
    exact Dump.read_layout hvalues rfl
  refine ⟨hsize, hsize ▸ hbudget, by rw [hread], ?_, fun k t hk => ?_⟩
  · rw [hread, List.length_map]
    exact hlength
  · refine ⟨rows t, hslots t, hrows t, hwords t (List.mem_of_getElem? hk), ?_⟩
    rw [hread, List.getElem?_map, hk]
    rfl

/-! ## Compiled programs -/

namespace Compiled.From

variable {v : ValidSpec} {flows : List PlannedFlow} {c : Compiled} (h : c.From v flows)

include h

theorem recordsFor_program (core : CoreId) :
    (v.corePlan flows core).setup.RecordsFor (v.corePlan flows core).assemble := by
  have htimes := h.rowTimes_eq core
  refine ⟨htimes, ?_, CorePlan.length_sampleTicks _, CorePlan.samples_pos _⟩
  show (v.corePlan flows core).sampleTicks.Pairwise (· < ·)
  rw [← htimes]
  exact Setup.pairwise_rowTimes _

/-- A machine whose cores have been loaded with their programs has the setups of the plans. -/
theorem machine_loaded {m : Machine} (hok : m.broken = false) {cores : List CoreId}
    (hloaded : ∀ d ∈ cores, ∃ q setup, c.programs.get? d = some q ∧
      Setup.play d q.bytes = .ok setup ∧ m.loaded.get? d = some setup) :
    m.Loaded m.config (fun core => (v.corePlan flows core).setup) cores := by
  refine ⟨rfl, hok, fun d hd => ?_⟩
  obtain ⟨q, setup, hq, hplay, hsetup⟩ := hloaded d hd
  rw [h.play_program hq] at hplay
  cases hplay
  exact hsetup

/-- Cores that are loaded with their programs fit if times and the run are short. -/
theorem machine_fits {m : Machine} (hok : m.broken = false) {cores : List CoreId}
    (hloaded : ∀ d ∈ cores, ∃ q setup, c.programs.get? d = some q ∧
      Setup.play d q.bytes = .ok setup ∧ m.loaded.get? d = some setup)
    (hshort : m.config.network.Short v.spec.runTicks) : m.fits cores = true := by
  rw [(h.machine_loaded hok hloaded).fits_eq]
  refine h.fits_final _ _ _ (fun d hd => ?_) (KeySet.ofList cores).keys_nodup hshort
  obtain ⟨q, -, hq, -⟩ := hloaded d (KeySet.mem_keys_ofList.1 hd)
  exact (h.get?_programs.1 hq).1

end Compiled.From

/-! ## Main result -/

/-- In every run of cores that are loaded with compiled programs, each core makes its records when
its program says, and the dump that is read from it is the whole dump of the program: it has the
size that was reserved for it within the budget, and a row for each sample tick.  Only a run that
leaves the words of its counters breaks the machine, and short times on the way keep it from that. -/
theorem dumps_follow_programs {s : Spec} {v : ValidSpec} {c : Compiled} (hv : s.validate = .ok v)
    (hc : compile v = .ok c) {m : Machine} (hok : m.broken = false) {cores : List CoreId}
    (hloaded : ∀ d ∈ cores, ∃ q setup, c.programs.get? d = some q ∧
      Setup.play d q.bytes = .ok setup ∧ m.loaded.get? d = some setup)
    {core : CoreId} {p : Program} (hcore : core ∈ cores) (hp : c.programs.get? core = some p)
    (hreads : m.config.Reads core) :
    ∃ setup, m.loaded.get? core = some setup ∧ setup.RecordsFor p ∧
      (m.fits cores = true → ∃ m' bytes, m.start cores = (.value (), m') ∧
        m'.read core = (.value bytes, m') ∧
        p.DumpsFor s.memoryBudget (m.slotsAfter? cores core) bytes) ∧
      (m.fits cores = false → m.start cores = (.crash, { m with broken := true })) ∧
      (m.config.network.Short s.runTicks → m.fits cores = true) := by
  obtain ⟨rfl, hsound⟩ := Spec.sound_of_validate hv
  obtain ⟨flows, h⟩ := Compiled.from_of_compile hsound hc
  have hbudget := Compiled.footprint_le hc hp
  have hm := h.machine_loaded hok hloaded
  have hfit : ∀ d ∈ cores, (v.corePlan flows d).setup.countersFit = true :=
    fun d _ => (h.playable d).countersFit
  obtain ⟨-, rfl⟩ := h.get?_programs.1 hp
  refine ⟨_, hm.loaded core hcore, h.recordsFor_program core, fun hfits => ?_, hm.start_crash,
    h.machine_fits hok hloaded⟩
  obtain ⟨rows, m', hrows, hlen, hstart, hread⟩ :=
    hm.exists_dump hcore (fun d _ => h.runTicks_eq d) hfit hfits hreads
  refine ⟨m', _, hstart, hread, ?_⟩
  rw [h.rowTimes_eq, CorePlan.size_counters_setup]
  refine Program.dumpsFor_layout hbudget hrows (fun t => ?_) fun t ht => ?_
  · rw [hlen, CorePlan.size_counters_setup]
    rfl
  · refine hm.slotsAfter?_lt hcore hfits (Setup.le_of_mem_rowTimes ?_) (hrows t)
    rwa [h.rowTimes_eq]

/-- The cores of a specification, started in descending order. -/
theorem dumps_follow_programs_twoCores :
    ∃ (v : ValidSpec) (c : Compiled) (m : Machine) (core : CoreId) (p : Program),
      Spec.twoCores.validate = .ok v ∧ compile v = .ok c ∧ m.broken = false ∧
      (∀ d ∈ c.programs.keys.reverse, ∃ q setup, c.programs.get? d = some q ∧
        Setup.play d q.bytes = .ok setup ∧ m.loaded.get? d = some setup) ∧
      core ∈ c.programs.keys.reverse ∧ c.programs.get? core = some p ∧ m.config.Reads core ∧
      ∃ setup m' bytes, m.loaded.get? core = some setup ∧ setup.RecordsFor p ∧
        m.fits c.programs.keys.reverse = true ∧
        m.start c.programs.keys.reverse = (.value (), m') ∧ m'.read core = (.value bytes, m') ∧
        p.DumpsFor Spec.twoCores.memoryBudget (m.slotsAfter? c.programs.keys.reverse core)
          bytes := by
  obtain ⟨v, c, p, -, hv, hc, hp, -⟩ := Spec.twoCores_compiles
  obtain ⟨flows, h⟩ := Compiled.from_of_compile (Spec.sound_of_validate hv).2 hc
  obtain ⟨core, hp⟩ := Table.mem_values.1 hp
  let m : Machine := { Machine.new .standard with
    loaded := c.programs.map fun d _ => (v.corePlan flows d).setup }
  have hloaded : ∀ d ∈ c.programs.keys.reverse, ∃ q setup, c.programs.get? d = some q ∧
      Setup.play d q.bytes = .ok setup ∧ m.loaded.get? d = some setup := by
    intro d hd
    obtain ⟨q, hq⟩ := Table.mem_keys.1 (List.mem_reverse.1 hd)
    refine ⟨q, _, hq, h.play_program hq, ?_⟩
    show (c.programs.map fun d _ => (v.corePlan flows d).setup).get? d = _
    rw [Table.get?_map, hq]
    rfl
  have hcore : core ∈ c.programs.keys.reverse := List.mem_reverse.2 (Table.mem_keys.2 ⟨p, hp⟩)
  have hreads : m.config.Reads core := ⟨rfl, rfl, rfl⟩
  obtain ⟨setup, hsetup, hrecords, hruns, -, hfits⟩ :=
    dumps_follow_programs hv hc rfl hloaded hcore hp hreads
  have hfits := hfits (Network.short_standard (by decide))
  obtain ⟨m', bytes, hstart, hread, hdumps⟩ := hruns hfits
  exact ⟨v, c, m, core, p, hv, hc, rfl, hloaded, hcore, hp, hreads, setup, m', bytes, hsetup,
    hrecords, hfits, hstart, hread, hdumps⟩

end TrafficLab
