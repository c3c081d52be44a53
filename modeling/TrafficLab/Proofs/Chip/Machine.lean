import TrafficLab.Chip.Machine
import TrafficLab.Proofs.Chip.Fitting
import TrafficLab.Proofs.Table

/-!
# A machine without faults

A machine that has no faults built in and is not broken takes every program that can be played, runs
every set of cores that it has loaded, and gives back the dump of every core that has run: the rows
of the core at the ticks at which records were due, and then its row at the end.  A run that does
not fit in the words of its counters breaks the machine instead.

    load of a program that plays → the core has its setup                   (load_spec)
    start of loaded cores, which fit → each core has its counters           (start_spec)
    start of loaded cores, which do not fit → the machine breaks            (start_crash)
    read of a core that has run → the dump of its counters                  (read_spec)
-/

namespace TrafficLab

/-- No fault is built in. -/
structure MachineConfig.FaultFree (c : MachineConfig) : Prop where
  unreachable : c.unreachable = .empty
  flakyLoads : c.flakyLoads = .empty
  failedReads : c.failedReads = .empty
  hungReads : c.hungReads = .empty
  truncated : c.truncated = .empty

/-- No fault keeps the counters of a core from being read as they are. -/
structure MachineConfig.Reads (c : MachineConfig) (core : CoreId) : Prop where
  hung : c.hungReads.contains core = false
  failed : c.failedReads.contains core = false
  whole : c.truncated.get? core = none

theorem MachineConfig.FaultFree.reads {c : MachineConfig} (h : c.FaultFree) (core : CoreId) :
    c.Reads core := by
  refine ⟨?_, ?_, ?_⟩
  · rw [h.hungReads]
    rfl
  · rw [h.failedReads]
    rfl
  · rw [h.truncated]
    rfl

/-! ## Counters at the end of a run -/

/-- What a core has recorded at the end of its run, row after row, with the last row on top. -/
def Run.values (capacity : Nat) (n : Network) (seed : UInt64) (setups : List Setup) (d : Nat)
    (s : Setup) : List Nat :=
  (s.recordTimes s.runTicks ++ [s.runTicks]).flatMap fun t =>
    ((Run.after capacity n seed setups (recorders setups) t).row? d s).getD []

theorem foldl_max_runTicks {setups : List Setup} {T n : Nat} (hT : ∀ s ∈ setups, s.runTicks = T)
    (hn : n ≤ T) (hne : setups ≠ [] ∨ n = T) :
    setups.foldl (fun n s => max n s.runTicks) n = T := by
  induction setups generalizing n with
  | nil => exact hne.resolve_left fun e => e rfl
  | cons s rest ih =>
    have hs := hT s (by simp)
    rw [List.foldl_cons, hs, Nat.max_eq_right hn]
    exact ih (fun t ht => hT t (by simp [ht])) (Nat.le_refl T) (.inr rfl)

/-- Cores that run equally long run for the whole of the run. -/
theorem longestRun_eq {setups : List Setup} {T : Nat} (hT : ∀ s ∈ setups, s.runTicks = T)
    (hne : setups ≠ []) : longestRun setups = T :=
  foldl_max_runTicks hT (Nat.zero_le T) (.inl hne)

theorem le_longestRun {setups : List Setup} {s : Setup} (hs : s ∈ setups) :
    s.runTicks ≤ longestRun setups := by
  have hle : ∀ (setups : List Setup) (n : Nat), n ≤ setups.foldl (fun n s => max n s.runTicks) n ∧
      ∀ s ∈ setups, s.runTicks ≤ setups.foldl (fun n s => max n s.runTicks) n := by
    intro setups
    induction setups with
    | nil => exact fun n => ⟨Nat.le_refl n, by simp⟩
    | cons t rest ih =>
      intro n
      obtain ⟨hn, hrest⟩ := ih (max n t.runTicks)
      refine ⟨Nat.le_trans (Nat.le_max_left ..) hn, fun s hs => ?_⟩
      rcases List.mem_cons.1 hs with rfl | hs
      · exact Nat.le_trans (Nat.le_max_right ..) hn
      · exact hrest s hs
  exact (hle setups 0).2 s hs

/-- No records are due when a core's own run is over. -/
theorem Setup.recordTimes_of_le {s : Setup} {n : Nat} (h : s.runTicks ≤ n) :
    s.recordTimes n = s.recordTimes s.runTicks := by
  induction h with
  | refl => rfl
  | @step n hle ih =>
    have hdue : s.recordDue (n + 1) = false := by
      unfold recordDue
      simp [Nat.not_lt.2 (Nat.le_succ_of_le hle)]
    rw [recordTimes_succ, hdue, ih]
    exact List.append_nil _

/-- The counters of a core at the end of a run: the rows at its records, and its last row on top,
which is made when the longest run is over. -/
theorem exists_dumpValues {setups : List Setup} {d : Nat} {s : Setup} (hs : setups[d]? = some s)
    (hfit : s.countersFit = true) (capacity : Nat) (n : Network) (seed : UInt64) :
    ∃ counters, (simulate capacity n seed setups)[d]? = some counters ∧
      counters.dumpValues? s = some
        ((s.recordTimes s.runTicks ++ [longestRun setups]).flatMap fun t =>
          ((Run.after capacity n seed setups (recorders setups) t).row? d s).getD []) := by
  obtain ⟨snd, r, recorded, hsnd, hr, hrecorded, hsim⟩ := Run.exists_simulate capacity n seed hs
  obtain ⟨row, hrow, -⟩ :=
    (Run.formed_after capacity n seed setups (recorders setups) (longestRun setups)).exists_row hs
      hfit
  rw [Run.recorded_after hs capacity n seed,
    Setup.recordTimes_of_le (le_longestRun (List.mem_of_getElem? hs))] at hrecorded
  have hfinal : (Counters.ofHalves snd r recorded).row? s = some row :=
    (Run.row?_of_halves hsnd hr s).symm.trans hrow
  refine ⟨_, hsim, ?_⟩
  unfold Counters.dumpValues?
  rw [hfinal, List.flatMap_append, List.flatMap_singleton, hrow, ← Option.some_inj.1 hrecorded]
  rfl

/-- The counters of a core at the end of a run of cores that run equally long. -/
theorem exists_counters {setups : List Setup} {T : Nat} (hT : ∀ s ∈ setups, s.runTicks = T)
    {d : Nat} {s : Setup} (hs : setups[d]? = some s) (hfit : s.countersFit = true)
    (capacity : Nat) (n : Network) (seed : UInt64) :
    ∃ counters, (simulate capacity n seed setups)[d]? = some counters ∧
      counters.dumpValues? s = some (Run.values capacity n seed setups d s) := by
  have hmem := List.mem_of_getElem? hs
  have hvalues := exists_dumpValues hs hfit capacity n seed
  rwa [longestRun_eq hT (List.ne_nil_of_mem hmem), ← hT s hmem] at hvalues

/-! ## Requests -/

theorem map_fst_zip_sublist {α β : Type} (l : List α) (l' : List β) :
    ((l.zip l').map (·.1)).Sublist l := by
  induction l generalizing l' with
  | nil => exact .slnil
  | cons a rest ih =>
    cases l' with
    | nil => exact List.nil_sublist _
    | cons b rest' => exact (ih rest').cons_cons a

/-- A machine that works, on which some cores are loaded with the given setups. -/
structure Machine.Loaded (config : MachineConfig) (setupOf : CoreId → Setup) (cores : List CoreId)
    (m : Machine) : Prop where
  config_eq : m.config = config
  unbroken : m.broken = false
  loaded : ∀ core ∈ cores, m.loaded.get? core = some (setupOf core)

namespace Machine

/-- Whether some cores can run on a machine without leaving the words of their counters. -/
def fits (m : Machine) (cores : List CoreId) : Bool :=
  match m.setups cores with
  | .error _ => true
  | .ok setups =>
    (Run.final m.config.capacity.toNat m.config.network m.config.seed setups.values).fits

variable {config : MachineConfig} {setupOf : CoreId → Setup} {cores : List CoreId} {m : Machine}

theorem setups_eq (hloaded : ∀ core ∈ cores, m.loaded.get? core = some (setupOf core)) :
    m.setups cores = .ok (.ofList (cores.map fun core => (core, setupOf core))) := by
  unfold setups Table.ofList
  rw [List.foldl_map]
  generalize (Table.empty : Table CoreId Setup) = found
  induction cores generalizing found with
  | nil => rfl
  | cons core rest ih =>
    rw [List.foldlM_cons, hloaded core (by simp)]
    exact ih (fun d hd => hloaded d (by simp [hd])) _

/-- Cores of which one is not loaded have no setups together. -/
theorem exists_setups_eq_error (h : ∃ core ∈ cores, m.loaded.get? core = none) :
    ∃ core ∈ cores, m.loaded.get? core = none ∧ m.setups cores = .error core := by
  unfold setups
  generalize (Table.empty : Table CoreId Setup) = found
  induction cores generalizing found with
  | nil => simp at h
  | cons core rest ih =>
    rw [List.foldlM_cons]
    cases hcore : m.loaded.get? core with
    | none => exact ⟨core, by simp, hcore, rfl⟩
    | some s =>
      obtain ⟨d, hd, hnone⟩ := h
      have hrest : d ∈ rest := (List.mem_cons.1 hd).resolve_left fun e => by
        rw [e, hcore] at hnone
        cases hnone
      obtain ⟨e, he, hmissing, herror⟩ := ih ⟨d, hrest, hnone⟩ (found.insert core s)
      exact ⟨e, by simp [he], hmissing, herror⟩

namespace Loaded

variable (h : m.Loaded config setupOf cores)

include h

/-- A core takes a program that can be played. -/
theorem load_spec (hconfig : config.FaultFree) {core : CoreId} {bytes : List UInt8}
    (hplay : Setup.play core bytes = .ok (setupOf core)) :
    ∃ m', m.load core bytes = (.value (), m') ∧ m'.Loaded config setupOf (cores ++ [core]) := by
  have haccepts : accepts m.config core (m.attempts core + 1) = true := by
    unfold accepts
    rw [h.config_eq, hconfig.unreachable, hconfig.flakyLoads]
    rfl
  unfold Machine.load
  rw [if_neg (by simp [h.unbroken])]
  simp only [haccepts, if_true, hplay]
  refine ⟨_, rfl, h.config_eq, h.unbroken, fun d hd => ?_⟩
  show (m.loaded.insert core (setupOf core)).get? d = _
  by_cases hdc : d = core
  · rw [hdc, Table.get?_insert_self]
  · rw [Table.get?_insert_of_ne _ hdc]
    exact h.loaded d ((List.mem_append.1 hd).resolve_right fun e => hdc (List.mem_singleton.1 e))

/-- A core that has run gives back the dump of its counters. -/
theorem read_spec {core : CoreId} (hreads : config.Reads core) {counters : Counters}
    {values : List Nat} (hcore : core ∈ cores) (hcounters : m.counters.get? core = some counters)
    (hvalues : counters.dumpValues? (setupOf core) = some values) :
    m.read core = (.value (Dump.layout (setupOf core).tag
      (UInt32.ofNat (setupOf core).counters.size) (values.map UInt64.ofNat)), m) := by
  obtain ⟨hhung, hfailed, hwhole⟩ := hreads
  rw [← h.config_eq] at hhung hfailed hwhole
  unfold Machine.read
  simp only [hhung, hfailed, h.unbroken, h.loaded core hcore, hcounters, hwhole, Counters.dump?,
    hvalues, Bool.false_eq_true, if_false, Option.map_some]

omit h in
/-- The setups of cores that are started, in the order in which they run. -/
theorem keys_setups (cores : List CoreId) (setupOf : CoreId → Setup) :
    (Table.ofList (cores.map fun core => (core, setupOf core))).keys =
      (KeySet.ofList cores).keys := by
  refine KeySet.keys_eq_of_mem fun core => ?_
  rw [Table.mem_keys_ofList_map, KeySet.mem_keys_ofList]

omit h in
theorem values_setups (cores : List CoreId) (setupOf : CoreId → Setup) :
    (Table.ofList (cores.map fun core => (core, setupOf core))).values =
      (KeySet.ofList cores).keys.map setupOf := by
  rw [Table.values_ofList_map, keys_setups]

theorem fits_eq : m.fits cores = (Run.final config.capacity.toNat config.network config.seed
    ((KeySet.ofList cores).keys.map setupOf)).fits := by
  unfold Machine.fits
  rw [setups_eq h.loaded]
  simp only [values_setups, h.config_eq]

/-- Cores that are loaded run to the end if they fit, each of them once and in ascending order, and
their counters replace those they had. -/
theorem start_eq (hfit : ∀ core ∈ cores, (setupOf core).countersFit = true)
    (hfits : m.fits cores = true) :
    m.start cores = (.value (), { m with counters := m.counters.override (.ofList
      ((KeySet.ofList cores).keys.zip (simulate config.capacity.toNat config.network config.seed
        ((KeySet.ofList cores).keys.map setupOf)))) }) := by
  have hunbroken : breaks ((KeySet.ofList cores).keys.map setupOf) = false := by
    unfold breaks
    rw [List.any_eq_false]
    intro s hs
    obtain ⟨core, hcore, rfl⟩ := List.mem_map.1 hs
    simp [hfit core (KeySet.mem_keys_ofList.1 hcore)]
  rw [h.fits_eq] at hfits
  unfold start
  rw [if_neg (by simp [h.unbroken]), setups_eq h.loaded]
  simp only [values_setups, keys_setups, hunbroken, h.config_eq, hfits, Bool.not_true,
    Bool.or_false, Bool.false_eq_true, if_false]
  rfl

/-- A run that leaves the words of its counters breaks the machine. -/
theorem start_crash (hfits : m.fits cores = false) :
    m.start cores = (.crash, { m with broken := true }) := by
  rw [h.fits_eq] at hfits
  unfold start
  rw [if_neg (by simp [h.unbroken]), setups_eq h.loaded]
  simp only [values_setups, h.config_eq, hfits, Bool.not_false, Bool.or_true, if_true]

omit h in
/-- The counters that a run gives to the core at a position. -/
theorem get?_results {ks : KeySet CoreId} {results : List Counters} {d : Nat} {core : CoreId}
    {counters : Counters} (hd : ks.keys[d]? = some core) (hresult : results[d]? = some counters) :
    (Table.ofList (ks.keys.zip results)).get? core = some counters := by
  rw [Table.get?_ofList (ks.keys_nodup.sublist (map_fst_zip_sublist _ _))]
  exact List.mem_of_getElem? (List.getElem?_zip_eq_some.2 ⟨hd, hresult⟩)

omit h in
theorem get?_results_of_not_mem {ks : KeySet CoreId} {results : List Counters} {core : CoreId}
    (hcore : core ∉ ks.keys) : (Table.ofList (ks.keys.zip results)).get? core = none := by
  refine Option.eq_none_iff_forall_ne_some.2 fun counters hcounters => hcore ?_
  rw [Table.get?_ofList (ks.keys_nodup.sublist (map_fst_zip_sublist _ _))] at hcounters
  exact (List.of_mem_zip hcounters).1

theorem start_spec (hfit : ∀ core ∈ cores, (setupOf core).countersFit = true)
    (hfits : m.fits cores = true) :
    ∃ m', m.start cores = (.value (), m') ∧ m'.Loaded config setupOf cores ∧
      ∀ (d : Nat) core counters, (KeySet.ofList cores).keys[d]? = some core →
        (simulate config.capacity.toNat config.network config.seed
          ((KeySet.ofList cores).keys.map setupOf))[d]? = some counters →
        m'.counters.get? core = some counters :=
  ⟨_, h.start_eq hfit hfits, ⟨h.config_eq, h.unbroken, h.loaded⟩, fun _ _ _ hd hcounters =>
    Table.get?_override (get?_results hd hcounters)⟩

end Loaded

end Machine

end TrafficLab
