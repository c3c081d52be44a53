import TrafficLab.Proofs.Chip.Agreement
import TrafficLab.Proofs.Chip.Growth

/-!
# What a record says of a run

A record that a core makes during its run is no different from its counters at the end of a shorter
run: the same machine with the same cores, stopped at the tick of the record, leaves just these
values behind.  So records can be compared with each other, and no value in them ever goes down.
They are compared as the words that are recorded and dumped: a run that would leave its words breaks
the machine, and until then its records are those of the shorter runs.

    the counters of a core = its rows at the ticks of its records, and the last  (exists_rows_of)
    the row at tick t = the last row of a run of t ticks                (row?_runFor)
    a run of t ticks fits ↔ a longer one does so up to tick t           (fits_runFor)
    each record is the end of a shorter run                     (records_are_ends_of_shorter_runs)
-/

namespace TrafficLab

/-! ## Runs of cores that run equally long -/

namespace Run

/-- The counters of a core are made of its rows at the ticks of its records and at the end. -/
theorem exists_rows_of {setups : List Setup} {T : Nat} (hT : ∀ s ∈ setups, s.runTicks = T) {d : Nat}
    {s : Setup} (hs : setups[d]? = some s) (hfit : s.countersFit = true) (capacity : Nat)
    (n : Network) (seed : UInt64) :
    ∃ (k : Counters) (rows : Nat → List Nat),
      (simulate capacity n seed setups)[d]? = some k ∧
      (∀ t, (after capacity n seed setups (recorders setups) t).row? d s = some (rows t)) ∧
      (∀ t, (rows t).length = s.counters.size) ∧
      k.recorded.toList = (s.recordTimes s.runTicks).flatMap rows ∧ k.row? s = some (rows T) := by
  have hmem := List.mem_of_getElem? hs
  choose rows hrows hlen using fun t =>
    (formed_after capacity n seed setups (recorders setups) t).exists_row hs hfit
  obtain ⟨snd, r, recorded, hsnd, hr, hrecorded, hsim⟩ := exists_simulate capacity n seed hs
  rw [recorded_after hs capacity n seed,
    Setup.recordTimes_of_le (le_longestRun hmem)] at hrecorded
  simp only [hrows, Option.getD_some] at hrecorded
  refine ⟨_, rows, hsim, hrows, hlen, ?_, ?_⟩
  · show recorded.toList = _
    rw [← Option.some_inj.1 hrecorded]
  · have hrow := hrows (longestRun setups)
    rw [row?_of_halves hsnd hr, longestRun_eq hT (List.ne_nil_of_mem hmem)] at hrow
    exact hrow

end Run

/-- The setup of a core that runs for another time. -/
def Setup.runFor (s : Setup) (ticks : Nat) : Setup := { s with runTicks := ticks }

/-- The row of a core at a tick of its run is the one that it has at that tick in a run that ends
there. -/
theorem Run.row?_runFor {setups : List Setup} {T t : Nat} (hT : ∀ s ∈ setups, s.runTicks = T)
    (ht : t ≤ T) (capacity : Nat) (n : Network) (seed : UInt64)
    (recorders recorders' : List (Setup × Nat)) (d : Nat) (s : Setup) :
    (after capacity n seed (setups.map (·.runFor t)) recorders' t).row? d (s.runFor t) =
      (after capacity n seed setups recorders t).row? d s := by
  have hsame : (setups.map (·.runFor t)).map (·.traffic) = setups.map (·.traffic) := by
    rw [List.map_map]
    rfl
  have htraffic := traffic_after_congr hsame capacity n seed recorders' recorders
    (fun s hs => by
      obtain ⟨s, -, rfl⟩ := List.mem_map.1 hs
      exact Nat.le_refl t)
    fun s hs => hT s hs ▸ ht
  unfold row?
  rw [current?_congr_traffic htraffic]
  rfl

/-! ## Machines -/

theorem toNat_ofNat_of_lt {row : List Nat} (h : ∀ x ∈ row, x < UInt64.size) :
    (row.map UInt64.ofNat).map (·.toNat) = row := by
  rw [List.map_map]
  exact (List.map_congr_left fun x hx => UInt64.toNat_ofNat_of_lt' (h x hx)).trans (List.map_id row)

/-- A machine all of whose cores run for another time. -/
def Machine.runFor (m : Machine) (ticks : Nat) : Machine :=
  { m with loaded := m.loaded.map fun _ s => s.runFor ticks }

/-- The words in the slots of a core when some cores of a machine have run for so many ticks: the
run comes to its end, and these are in the counters that it leaves behind. -/
def Machine.EndsWith (m : Machine) (cores : List CoreId) (core : CoreId) (s : Setup) (ticks : Nat)
    (row : List UInt64) : Prop :=
  ∃ m' k, (m.runFor ticks).start cores = (.value (), m') ∧ m'.counters.get? core = some k ∧
    k.row? (s.runFor ticks) = some (row.map (·.toNat))

/-- What a core has recorded in a run of some cores of a machine, row by row, and its last row. -/
structure Machine.Records (m : Machine) (cores : List CoreId) (core : CoreId) (s : Setup)
    (k : Counters) (rows : List (List UInt64)) (last : List UInt64) : Prop where
  recorded : k.recorded.toList = rows.flatten.map (·.toNat)
  last_row : k.row? s = some (last.map (·.toNat))
  dumped : k.dump? s =
    some (Dump.layout s.tag (UInt32.ofNat s.counters.size) (rows.flatten ++ last))
  length : ∀ row ∈ rows, row.length = s.counters.size
  /-- There is a row for each tick at which a record is due. -/
  count : rows.length = (s.recordTimes s.runTicks).length
  /-- It is what the same cores of the same machine, if they run up to this tick, leave behind. -/
  shorter : ∀ (j : Nat) t, (s.recordTimes s.runTicks)[j]? = some t →
    ∃ row, rows[j]? = some row ∧ m.EndsWith cores core s t row
  /-- No word goes down from one row to a later one. -/
  ascending : (rows ++ [last]).Pairwise (List.Forall₂ (· ≤ ·))

namespace Machine.Loaded

variable {config : MachineConfig} {setupOf : CoreId → Setup} {cores : List CoreId} {m : Machine}
  (h : m.Loaded config setupOf cores)

include h

theorem runFor (ticks : Nat) :
    (m.runFor ticks).Loaded config (fun core => (setupOf core).runFor ticks) cores where
  config_eq := h.config_eq
  unbroken := h.unbroken
  loaded core hcore := by
    show (m.loaded.map fun _ s => s.runFor ticks).get? core = _
    rw [Table.get?_map, h.loaded core hcore]
    rfl

omit h in
theorem runTicks_of_mem {T : Nat} (hT : ∀ d ∈ cores, (setupOf d).runTicks = T) :
    ∀ s ∈ (KeySet.ofList cores).keys.map setupOf, s.runTicks = T := by
  intro s hs
  obtain ⟨d, hd, rfl⟩ := List.mem_map.1 hs
  exact hT d (KeySet.mem_keys_ofList.1 hd)

/-- If a run ends at a tick, the slots of a core have the values that they have at this tick of a
longer run. -/
theorem slotsAfter?_runFor {T t : Nat} (hT : ∀ d ∈ cores, (setupOf d).runTicks = T) (ht : t ≤ T)
    {core : CoreId} (hcore : core ∈ cores) :
    (m.runFor t).slotsAfter? cores core t = m.slotsAfter? cores core t := by
  have hsetups : (KeySet.ofList cores).keys.map (fun d => (setupOf d).runFor t) =
      ((KeySet.ofList cores).keys.map setupOf).map (·.runFor t) := by
    rw [List.map_map]
    rfl
  rw [(h.runFor t).slotsAfter?_eq hcore, h.slotsAfter?_eq hcore, hsetups,
    Run.row?_runFor (runTicks_of_mem hT) ht]

/-- Cores that run up to a tick fit if a longer run of them does so up to this tick. -/
theorem fits_runFor {T t : Nat} (hT : ∀ d ∈ cores, (setupOf d).runTicks = T) (ht : t ≤ T)
    (hne : cores ≠ []) : (m.runFor t).fits cores =
      (Run.after config.capacity.toNat config.network config.seed
        ((KeySet.ofList cores).keys.map setupOf)
        (recorders ((KeySet.ofList cores).keys.map setupOf)) t).fits := by
  have hruns : ∀ s ∈ (KeySet.ofList cores).keys.map fun d => (setupOf d).runFor t,
      s.runTicks = t := by
    intro s hs
    obtain ⟨d, -, rfl⟩ := List.mem_map.1 hs
    rfl
  have hlongest : longestRun ((KeySet.ofList cores).keys.map fun d => (setupOf d).runFor t) = t := by
    obtain ⟨core, hcore⟩ := List.exists_mem_of_ne_nil cores hne
    exact longestRun_eq hruns (List.ne_nil_of_mem
      (List.mem_map_of_mem (KeySet.mem_keys_ofList.2 hcore)))
  have hsame : ((KeySet.ofList cores).keys.map fun d => (setupOf d).runFor t).map (·.traffic) =
      ((KeySet.ofList cores).keys.map setupOf).map (·.traffic) := by
    rw [List.map_map, List.map_map]
    rfl
  rw [(h.runFor t).fits_eq, Run.final_eq, hlongest]
  exact Run.fits_congr_traffic (Run.traffic_after_congr hsame _ _ _ _ _
    (fun s hs => Nat.le_of_eq (hruns s hs).symm)
    fun s hs => runTicks_of_mem hT s hs ▸ ht)

/-- Cores that fit also fit if they are to run less long. -/
theorem fits_runFor_of_fits {T t : Nat} (hT : ∀ d ∈ cores, (setupOf d).runTicks = T) (ht : t ≤ T)
    {core : CoreId} (hcore : core ∈ cores) (hfits : m.fits cores = true) :
    (m.runFor t).fits cores = true := by
  have hmem := List.mem_of_getElem? (getElem?_position hcore setupOf).2
  have hle := le_longestRun hmem
  rw [hT core hcore] at hle
  rw [h.fits_eq, Run.final_eq] at hfits
  rw [h.fits_runFor hT ht (List.ne_nil_of_mem hcore)]
  exact Run.fits_of_le (Nat.le_trans ht hle) hfits

theorem fits_runFor_of_le {T t u : Nat} (hT : ∀ d ∈ cores, (setupOf d).runTicks = T) (ht : t ≤ T)
    (hu : u ≤ t) (hne : cores ≠ []) (hfits : (m.runFor t).fits cores = true) :
    (m.runFor u).fits cores = true := by
  rw [h.fits_runFor hT ht hne] at hfits
  rw [h.fits_runFor hT (Nat.le_trans hu ht) hne]
  exact Run.fits_of_le hu hfits

/-- What a core leaves behind when all cores have run equally long. -/
theorem exists_counters_of {T : Nat} (hT : ∀ d ∈ cores, (setupOf d).runTicks = T)
    (hfit : ∀ d ∈ cores, (setupOf d).countersFit = true) (hfits : m.fits cores = true)
    {core : CoreId} (hcore : core ∈ cores) :
    ∃ m' k, ∃ rows : Nat → List Nat, m.start cores = (.value (), m') ∧
      m'.counters.get? core = some k ∧ (∀ t, m.slotsAfter? cores core t = some (rows t)) ∧
      (∀ t, (rows t).length = (setupOf core).counters.size) ∧
      k.recorded.toList = ((setupOf core).recordTimes (setupOf core).runTicks).flatMap rows ∧
      k.row? (setupOf core) = some (rows T) := by
  obtain ⟨m', hstart, -, hcounters⟩ := h.start_spec hfit hfits
  obtain ⟨hposition, hsetup⟩ := getElem?_position hcore setupOf
  obtain ⟨k, rows, hk, hrows, hrest⟩ := Run.exists_rows_of (runTicks_of_mem hT) hsetup
    (hfit core hcore) config.capacity.toNat config.network config.seed
  exact ⟨m', k, rows, hstart, hcounters _ core k hposition hk,
    fun t => (h.slotsAfter?_eq hcore t).trans (hrows t), hrest⟩

/-- The values in the slots of a core do not go down. -/
theorem slotsAfter?_le {core : CoreId} (hcore : core ∈ cores) {t u : Nat} (htu : t ≤ u)
    {row row' : List Nat} (hrow : m.slotsAfter? cores core t = some row)
    (hrow' : m.slotsAfter? cores core u = some row') : List.Forall₂ (· ≤ ·) row row' := by
  rw [h.slotsAfter?_eq hcore] at hrow hrow'
  exact (Run.grown_after _ _ _ _ _ htu).row_le hrow hrow'

/-- The row of a core at a tick is what the core leaves behind when all cores run up to this tick,
if they fit. -/
theorem exists_end {T t : Nat} (hT : ∀ d ∈ cores, (setupOf d).runTicks = T) (ht : t ≤ T)
    (hfit : ∀ d ∈ cores, (setupOf d).countersFit = true) (hfits : (m.runFor t).fits cores = true)
    {core : CoreId} (hcore : core ∈ cores) :
    ∃ row, m.slotsAfter? cores core t = some (row.map (·.toNat)) ∧
      m.EndsWith cores core (setupOf core) t row := by
  obtain ⟨m', k, rows, hstart, hk, hrows, -, -, hlast⟩ :=
    (h.runFor t).exists_counters_of (fun _ _ => rfl) hfit hfits hcore
  have hwords := toNat_ofNat_of_lt
    ((h.runFor t).slotsAfter?_lt hcore hfits (Nat.le_refl t) (hrows t))
  refine ⟨(rows t).map UInt64.ofNat, ?_, m', k, hstart, hk, ?_⟩
  · rw [hwords, ← hrows, h.slotsAfter?_runFor hT ht hcore]
  · rw [hwords, hlast]

theorem exists_records {T : Nat} (hT : ∀ d ∈ cores, (setupOf d).runTicks = T)
    (hfit : ∀ d ∈ cores, (setupOf d).countersFit = true) (hfits : m.fits cores = true)
    {core : CoreId} (hcore : core ∈ cores) :
    ∃ m' k rows last, m.start cores = (.value (), m') ∧ m'.counters.get? core = some k ∧
      m.Records cores core (setupOf core) k rows last := by
  obtain ⟨m', k, rows, hstart, hk, hrows, hlen, hrecorded, hlast⟩ :=
    h.exists_counters_of hT hfit hfits hcore
  have hrun := hT core hcore
  have hlt : ∀ t ≤ T, ∀ x ∈ rows t, x < UInt64.size :=
    fun t ht => h.slotsAfter?_lt hcore hfits (hrun.symm ▸ ht) (hrows t)
  have hle : ∀ t ∈ (setupOf core).rowTimes, t ≤ T :=
    fun t ht => hrun ▸ Setup.le_of_mem_rowTimes ht
  have hearly : ∀ t ∈ (setupOf core).recordTimes (setupOf core).runTicks, t ≤ T :=
    fun t ht => hle t (List.mem_append_left _ ht)
  let words (t : Nat) : List UInt64 := (rows t).map UInt64.ofNat
  have hwords : ∀ t ≤ T, (words t).map (·.toNat) = rows t :=
    fun t ht => toNat_ofNat_of_lt (hlt t ht)
  refine ⟨m', k, ((setupOf core).recordTimes (setupOf core).runTicks).map words, words T, hstart, hk,
    ?_, ?_, ?_, ?_, List.length_map _, fun j t ht => ?_, ?_⟩
  · rw [hrecorded, ← List.flatMap_def, List.map_flatMap]
    exact List.flatMap_congr fun t ht => (hwords t (hearly t ht)).symm
  · rw [hlast, hwords T (Nat.le_refl T)]
  · unfold Counters.dump? Counters.dumpValues?
    rw [hlast, hrecorded, ← List.flatMap_def, Option.map_some, Option.map_some, List.map_append,
      List.map_flatMap]
  · intro row hrow
    obtain ⟨t, -, rfl⟩ := List.mem_map.1 hrow
    exact (List.length_map _).trans (hlen t)
  · have hearly := hearly t (List.mem_of_getElem? ht)
    obtain ⟨row, hrow, hend⟩ := h.exists_end hT hearly hfit
      (h.fits_runFor_of_fits hT hearly hcore hfits) hcore
    refine ⟨row, ?_, hend⟩
    rw [List.getElem?_map, ht, Option.map_some]
    rw [hrows, ← hwords t hearly] at hrow
    exact congrArg some (List.map_injective_iff.2 (fun _ _ => UInt64.toNat_inj.1)
      (Option.some_inj.1 hrow))
  · -- the rows are those at ascending ticks
    have hticks : ((setupOf core).recordTimes (setupOf core).runTicks).map words ++ [words T] =
        (setupOf core).rowTimes.map words := by
      unfold Setup.rowTimes
      rw [List.map_append, List.map_singleton, hrun]
    rw [hticks, List.pairwise_map]
    refine (setupOf core).pairwise_rowTimes.imp_of_mem fun {t u} ht hu hlt => ?_
    have hgrown := h.slotsAfter?_le hcore (Nat.le_of_lt hlt) (hrows t) (hrows u)
    rw [← hwords t (hle t ht), ← hwords u (hle u hu), List.forall₂_map_left_iff,
      List.forall₂_map_right_iff] at hgrown
    exact hgrown.imp fun _ _ hxy => UInt64.le_iff_toNat_le.2 hxy

end Machine.Loaded

/-! ## Main result -/

/-- In every run of cores that are loaded with compiled programs, on whatever machine, each record
of a core is what its counters would be if the run had ended there, and no word goes down.  A run
that would leave the words of its counters breaks the machine; its row at a tick of a record, if it
has come so far, is also that of the run that ends there, and is not below any row before it. -/
theorem records_are_ends_of_shorter_runs {s : Spec} {v : ValidSpec} {c : Compiled}
    (hv : s.validate = .ok v) (hc : compile v = .ok c) {m : Machine} (hok : m.broken = false)
    {cores : List CoreId} (hloaded : ∀ d ∈ cores, ∃ q setup, c.programs.get? d = some q ∧
      Setup.play d q.bytes = .ok setup ∧ m.loaded.get? d = some setup)
    {core : CoreId} (hcore : core ∈ cores) :
    ∃ setup, m.loaded.get? core = some setup ∧
      (m.fits cores = true → ∃ m' k rows last, m.start cores = (.value (), m') ∧
        m'.counters.get? core = some k ∧ m.Records cores core setup k rows last) ∧
      (m.fits cores = false → m.start cores = (.crash, { m with broken := true })) ∧
      (∀ t ∈ setup.recordTimes setup.runTicks, (m.runFor t).fits cores = true →
        ∃ row, m.slotsAfter? cores core t = some (row.map (·.toNat)) ∧
          m.EndsWith cores core setup t row ∧
          ∀ u ≤ t, ∃ row', m.slotsAfter? cores core u = some (row'.map (·.toNat)) ∧
            List.Forall₂ (· ≤ ·) row' row) ∧
      (m.config.network.Short s.runTicks → m.fits cores = true) := by
  obtain ⟨rfl, hsound⟩ := Spec.sound_of_validate hv
  obtain ⟨flows, h⟩ := Compiled.from_of_compile hsound hc
  have hm := h.machine_loaded hok hloaded
  have hruns : ∀ d ∈ cores, (v.corePlan flows d).setup.runTicks = v.spec.runTicks :=
    fun d _ => h.runTicks_eq d
  have hfit : ∀ d ∈ cores, (v.corePlan flows d).setup.countersFit = true :=
    fun d _ => (h.playable d).countersFit
  refine ⟨_, hm.loaded core hcore, fun hfits => hm.exists_records hruns hfit hfits hcore,
    hm.start_crash, fun t ht hfits => ?_, h.machine_fits hok hloaded⟩
  have hle : t ≤ v.spec.runTicks :=
    hruns core hcore ▸ Nat.le_of_lt (Setup.lt_of_mem_recordTimes ht)
  obtain ⟨row, hrow, hend⟩ := hm.exists_end hruns hle hfit hfits hcore
  refine ⟨row, hrow, hend, fun u hu => ?_⟩
  have hle' := Nat.le_trans hu hle
  obtain ⟨row', hrow', -⟩ := hm.exists_end hruns hle' hfit
    (hm.fits_runFor_of_le hruns hle hu (List.ne_nil_of_mem hcore) hfits) hcore
  refine ⟨row', hrow', ?_⟩
  have hgrown := hm.slotsAfter?_le hcore hu hrow' hrow
  rw [List.forall₂_map_left_iff, List.forall₂_map_right_iff] at hgrown
  exact hgrown.imp fun _ _ hxy => UInt64.le_iff_toNat_le.2 hxy

/-- The cores of a specification, which make three records before the end. -/
theorem records_are_ends_of_shorter_runs_twoCores :
    ∃ (v : ValidSpec) (c : Compiled) (m : Machine) (core : CoreId),
      Spec.twoCores.validate = .ok v ∧ compile v = .ok c ∧ m.broken = false ∧
      (∀ d ∈ c.programs.keys, ∃ q setup, c.programs.get? d = some q ∧
        Setup.play d q.bytes = .ok setup ∧ m.loaded.get? d = some setup) ∧
      core ∈ c.programs.keys ∧
      ∃ setup m' k rows last, m.loaded.get? core = some setup ∧ m.fits c.programs.keys = true ∧
        m.start c.programs.keys = (.value (), m') ∧ m'.counters.get? core = some k ∧
        m.Records c.programs.keys core setup k rows last := by
  obtain ⟨v, c, p, -, hv, hc, hp, -⟩ := Spec.twoCores_compiles
  obtain ⟨flows, h⟩ := Compiled.from_of_compile (Spec.sound_of_validate hv).2 hc
  obtain ⟨core, hp⟩ := Table.mem_values.1 hp
  let m : Machine := { Machine.new .standard with
    loaded := c.programs.map fun d _ => (v.corePlan flows d).setup }
  have hloaded : ∀ d ∈ c.programs.keys, ∃ q setup, c.programs.get? d = some q ∧
      Setup.play d q.bytes = .ok setup ∧ m.loaded.get? d = some setup := by
    intro d hd
    obtain ⟨q, hq⟩ := Table.mem_keys.1 hd
    refine ⟨q, _, hq, h.play_program hq, ?_⟩
    show (c.programs.map fun d _ => (v.corePlan flows d).setup).get? d = _
    rw [Table.get?_map, hq]
    rfl
  have hcore : core ∈ c.programs.keys := Table.mem_keys.2 ⟨p, hp⟩
  obtain ⟨setup, hsetup, hruns, -, -, hfits⟩ :=
    records_are_ends_of_shorter_runs hv hc rfl hloaded hcore
  have hfits := hfits (Network.short_standard (by decide))
  obtain ⟨m', k, rows, last, hrecords⟩ := hruns hfits
  exact ⟨v, c, m, core, hv, hc, rfl, hloaded, hcore, setup, m', k, rows, last, hsetup, hfits,
    hrecords⟩

end TrafficLab
