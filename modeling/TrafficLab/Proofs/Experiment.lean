import TrafficLab.Experiment
import TrafficLab.Proofs.Chip.Words
import TrafficLab.Proofs.Experiment.Attempts
import TrafficLab.Proofs.Report.Conservation

/-!
# Experiments on machines without faults

On a machine without faults every core takes its program, all cores run together, and the dump of
each is read, so the report of the experiment is made from the dumps of a whole run.  An experiment
comes so far if there can be the permits that it asks for, the time that it is to wait is a duration,
and the run fits in the words of its counters; if not, it breaks down and there is no report.

    load → every core of the specification is loaded                  (exists_load)
    run → the dump of every core has been collected                   (exists_run)
    the experiment does not complete → it breaks down                 (report_crash)
    every flow's result accounts for all packets of the flow          (report_conserves_packets)
-/

namespace TrafficLab

open Checked

/-! ## Experiments that come to their end -/

/-- Whether the programs, each on its own core, run within the words of their counters. -/
def Compiled.fits (c : Compiled) (config : MachineConfig) : Bool :=
  match c.programs.values.mapM fun p => Setup.play p.core p.bytes with
  | .error _ => false
  | .ok setups => (Run.final config.capacity.toNat config.network config.seed setups).fits

/-- What an experiment on a machine without faults needs to come to its end. -/
structure Compiled.Completes (c : Compiled) (duration : Nanosecs) (opts : RunOptions)
    (config : MachineConfig) : Prop where
  permits : opts.permitted = true
  /-- If there is a core to wait for, the wait is a duration. -/
  wait : c.programs.keys ≠ [] → (duration.toDuration.add? opts.grace).isSome
  fits : c.fits config = true

namespace Compiled.From

variable {v : ValidSpec} {flows : List PlannedFlow} {c : Compiled} (h : c.From v flows)
  (opts : RunOptions) {config : MachineConfig} (hconfig : config.FaultFree) {m : Machine}

include h

omit opts in
theorem fits_eq (config : MachineConfig) : c.fits config =
    (Run.final config.capacity.toNat config.network config.seed (v.setups flows)).fits := by
  have hplay : (c.programs.values.mapM fun p => Setup.play p.core p.bytes) =
      .ok (v.setups flows) := by
    rw [mapM_eq_ok, ← h.setups_of_values, List.forall₂_map_right_iff, List.forall₂_same]
    exact fun q hq => h.play_of_mem hq
  unfold Compiled.fits
  rw [hplay]

omit opts in
/-- The programs of a specification fit if times and the run are short. -/
theorem fits_of_short (hshort : config.network.Short v.spec.runTicks) : c.fits config = true := by
  rw [h.fits_eq]
  exact h.fits_final _ _ _ (fun _ hcore => hcore) v.participants.keys_nodup hshort

include hconfig

/-- Every core takes its program. -/
theorem exists_load (hpermits : opts.permitted = true)
    (hm : m.Loaded config (fun core => (v.corePlan flows core).setup) []) :
    ∃ roster m' time, Experiment.load Machine.transport none ⟨v, opts, .compiled c⟩ m =
        ⟨.done (), ⟨v, opts, .loaded c roster⟩, m', time⟩ ∧
      roster.loaded.keys = v.participants.keys ∧
      m'.Loaded config (fun core => (v.corePlan flows core).setup) v.participants.keys := by
  have hstep : ∀ done, ∀ core ∈ c.programs.keys, ∀ s : Machine,
      s.Loaded config (fun core => (v.corePlan flows core).setup) done →
      ∃ s', Machine.transport.load core (((c.programs.get? core).map (·.bytes)).getD []) s =
          (.value (), s') ∧
        s'.Loaded config (fun core => (v.corePlan flows core).setup) (done ++ [core]) := by
    intro done core hcore s hs
    obtain ⟨p, hp⟩ := Table.mem_keys.1 hcore
    rw [hp]
    exact hs.load_spec hconfig (h.play_program hp)
  have hswept := sweep_of_values opts _ hstep [] hm 0 []
  have hkeys : (c.programs.keys.map fun core => (core, ())).map (·.1) = c.programs.keys := by
    rw [List.map_map]
    exact List.map_id _
  unfold Experiment.load
  simp only [hpermits, if_true, Option.map_none, isCut_sweep_none, hswept.successes_eq,
    Bool.false_eq_true, if_false]
  refine ⟨_, _, _, rfl, ?_, ?_⟩
  · rw [hkeys, KeySet.keys_ofList_keys, h.keys_programs]
  · rw [← h.keys_programs]
    exact hswept.state

/-- A core that has run together with all others answers with its dump of that run. -/
theorem read_runDump (hm : m.Loaded config (fun core => (v.corePlan flows core).setup)
      v.participants.keys)
    (hcounters : ∀ (d : Nat) core counters, v.participants.keys[d]? = some core →
      (simulate config.capacity.toNat config.network config.seed (v.setups flows))[d]? =
        some counters → m.counters.get? core = some counters)
    {core : CoreId} (hcore : core ∈ v.participants.keys) :
    m.read core = (.value (v.runDump flows config.capacity.toNat config.network config.seed core),
      m) := by
  have hd := ValidSpec.getElem?_position hcore
  have hruns : ∀ x ∈ v.setups flows, x.runTicks = v.spec.runTicks := by
    intro x hx
    obtain ⟨d, -, rfl⟩ := List.mem_map.1 hx
    exact h.runTicks_eq d
  obtain ⟨counters, hsim, hvalues⟩ := exists_counters hruns (getElem?_setups hd)
    (h.playable core).countersFit config.capacity.toNat config.network config.seed
  exact hm.read_spec (hconfig.reads core) hcore (hcounters _ core counters hd hsim) hvalues

omit hconfig in
theorem machine_fits_eq
    (hm : m.Loaded config (fun core => (v.corePlan flows core).setup) v.participants.keys) :
    m.fits v.participants.keys = c.fits config := by
  rw [hm.fits_eq, KeySet.keys_ofList_keys, h.fits_eq]
  rfl

/-- Cores that are loaded run together, and the dump of each is collected. -/
theorem exists_run (hcompletes : c.Completes v.spec.duration opts config) {roster : Roster}
    (hroster : roster.loaded.keys = v.participants.keys)
    (hm : m.Loaded config (fun core => (v.corePlan flows core).setup) v.participants.keys) :
    ∃ dumps m' time, Experiment.run Machine.transport .never ⟨v, opts, .loaded c roster⟩ m =
        ⟨.done (), ⟨v, opts, .collected c roster dumps⟩, m', time⟩ ∧
      ∀ core ∈ v.participants.keys, dumps.get? core = some ⟨core,
        v.runDump flows config.capacity.toNat config.network config.seed core⟩ := by
  by_cases hnil : v.participants.keys = []
  · unfold Experiment.run
    simp only [hroster, hnil]
    exact ⟨_, _, _, rfl, by simp⟩
  obtain ⟨wait, hwait⟩ := Option.isSome_iff_exists.1 (hcompletes.wait (h.keys_programs ▸ hnil))
  obtain ⟨m', hstart, hm', hcounters⟩ := hm.start_spec
    (fun core _ => (h.playable core).countersFit) ((h.machine_fits_eq hm).trans hcompletes.fits)
  rw [KeySet.keys_ofList_keys] at hcounters
  -- each core answers with its dump, and reading changes nothing
  have hread : ∀ done : List CoreId, ∀ core ∈ v.participants.keys, ∀ s, s = m' →
      ∃ s', Machine.transport.read core s = (.value (v.runDump flows config.capacity.toNat
        config.network config.seed core), s') ∧ s' = m' := by
    rintro done core hcore s rfl
    exact ⟨s, h.read_runDump hconfig hm' hcounters hcore, rfl⟩
  have hswept := sweep_of_values opts (fun _ s => s = m') hread [] rfl
    (0 + wait.nanos) []
  have hattempt : attempt opts Experiment.Stop.never.abandonTime
      (Machine.transport.start v.participants.keys v.spec.duration) opts.retries.toNat 0 m =
      ⟨.success (), 0, m'⟩ := attempt_of_value opts hstart opts.retries.toNat 0
  have hover : ∀ time, isOver Experiment.Stop.never.time time = false := fun time => rfl
  have hcut : (sweep opts Experiment.Stop.never.time Machine.transport.read
      (0 + wait.nanos) [] v.participants.keys m').isCut = false :=
    isCut_sweep_none ..
  obtain ⟨first, rest, hcons⟩ := List.exists_cons_of_ne_nil hnil
  unfold Experiment.run
  simp only [hroster, hcons]
  rw [← hcons]
  simp only [hattempt, hwait, hover, Bool.false_eq_true, if_false]
  unfold Experiment.collect
  rw [hroster]
  simp only [hcompletes.permits, hcut, Bool.false_eq_true, if_true, if_false]
  refine ⟨_, _, _, rfl, fun core hcore => ?_⟩
  show (Table.ofList ((sweep opts none Machine.transport.read _ [] v.participants.keys
    m').successes.map fun e => (e.1, (⟨e.1, e.2⟩ : CounterDump)))).get? core = _
  rw [hswept.successes_eq, List.map_map, Table.get?_ofList]
  · exact List.mem_map_of_mem hcore
  · rw [List.map_map]
    show (v.participants.keys.map id).Nodup
    rw [List.map_id]
    exact v.participants.keys_nodup

omit hconfig in
/-- Cores that are loaded break the machine if they do not fit, and the run if it is to wait too
long. -/
theorem run_crash {roster : Roster} (hroster : roster.loaded.keys = v.participants.keys)
    (hm : m.Loaded config (fun core => (v.corePlan flows core).setup) v.participants.keys)
    (hnil : v.participants.keys ≠ [])
    (h' : c.fits config = true → (v.spec.duration.toDuration.add? opts.grace) = none) :
    (Experiment.run Machine.transport .never ⟨v, opts, .loaded c roster⟩ m).ending =
      .failed .crash := by
  obtain ⟨first, rest, hcons⟩ := List.exists_cons_of_ne_nil hnil
  unfold Experiment.run
  simp only [hroster, hcons]
  rw [← hcons]
  cases hfits : c.fits config with
  | false =>
    have hattempt : attempt opts Experiment.Stop.never.abandonTime
        (Machine.transport.start v.participants.keys v.spec.duration) opts.retries.toNat 0 m = _ :=
      attempt_of_crash opts (hm.start_crash ((h.machine_fits_eq hm).trans hfits)) _ _
    simp only [hattempt]
  | true =>
    have hattempt : attempt opts Experiment.Stop.never.abandonTime
        (Machine.transport.start v.participants.keys v.spec.duration) opts.retries.toNat 0 m = _ :=
      attempt_of_value opts (hm.start_eq (fun core _ => (h.playable core).countersFit)
        ((h.machine_fits_eq hm).trans hfits)) _ _
    simp only [hattempt, h' hfits]

/-- An experiment that does not come to its end breaks down. -/
theorem report_crash (hc : compile v = .ok c) (hm : m.config = config) (hok : m.broken = false)
    (hbreaks : ¬c.Completes v.spec.duration opts config) :
    ((Experiment.new v opts).report Machine.transport m).1 = .error .crash := by
  have hcompile : (Experiment.new v opts).compile = (.ok c, ⟨v, opts, .compiled c⟩) := by
    unfold Experiment.compile Experiment.new
    simp only [hc]
  unfold Experiment.report
  simp only [hcompile]
  cases hpermits : opts.permitted with
  | false =>
    unfold Experiment.load
    simp [hpermits]
  | true =>
    obtain ⟨roster, m₁, loadTime, hload, hroster, hm₁⟩ :=
      h.exists_load opts hconfig hpermits ⟨hm, hok, by simp⟩
    have hnil : v.participants.keys ≠ [] := by
      intro hnil
      refine hbreaks ⟨hpermits, fun hne => absurd (h.keys_programs.trans hnil) hne, ?_⟩
      rw [h.fits_eq]
      unfold ValidSpec.setups
      rw [hnil]
      rfl
    have hrun := h.run_crash opts hroster hm₁ hnil fun hfits =>
      Option.not_isSome_iff_eq_none.1 fun hwait => hbreaks ⟨hpermits, fun _ => hwait, hfits⟩
    simp only [hload, hrun]

/-- The report is made from the dumps of a run of all cores. -/
theorem exists_report (hcompletes : c.Completes v.spec.duration opts config)
    (hc : compile v = .ok c) (hm : m.config = config) (hok : m.broken = false) :
    ∃ dumps unreachable, ((Experiment.new v opts).report Machine.transport m).1 =
        .ok (Report.ofDumps c.programs dumps unreachable) ∧
      ∀ core ∈ v.participants.keys, dumps.get? core = some ⟨core,
        v.runDump flows config.capacity.toNat config.network config.seed core⟩ := by
  obtain ⟨roster, m₁, loadTime, hload, hroster, hm₁⟩ :=
    h.exists_load opts hconfig hcompletes.permits ⟨hm, hok, by simp⟩
  obtain ⟨dumps, m₂, runTime, hrun, hdumps⟩ := h.exists_run opts hconfig hcompletes hroster hm₁
  refine ⟨dumps, roster.unreachable, ?_, hdumps⟩
  have hcompile : (Experiment.new v opts).compile = (.ok c, ⟨v, opts, .compiled c⟩) := by
    unfold Experiment.compile Experiment.new
    simp only [hc]
  unfold Experiment.report
  simp only [hcompile, hload, hrun]
  rfl

end Compiled.From

/-- The experiment of two cores comes to its end on the standard machine. -/
theorem Spec.twoCores_completes {v : ValidSpec} {c : Compiled}
    (hv : Spec.twoCores.validate = .ok v) (hc : compile v = .ok c) :
    c.Completes Spec.twoCores.duration .standard .standard := by
  obtain ⟨hspec, hsound⟩ := Spec.sound_of_validate hv
  obtain ⟨flows, h⟩ := Compiled.from_of_compile hsound hc
  have hshort : MachineConfig.standard.network.Short v.spec.runTicks := by
    rw [hspec]
    exact Network.short_standard (by decide)
  exact ⟨by decide, fun _ => by decide, h.fits_of_short hshort⟩

/-! ## Main result -/

/-- On a machine without faults, whatever its losses and random words are, a specification that
compiles runs to a report in which every flow accounts for all of its packets, if it comes to its end
at all: there can be the permits, the wait is a duration and the run fits, as it does if times are
short.  If not, the experiment breaks down and there is no report. -/
theorem report_conserves_packets {s : Spec} {v : ValidSpec} {c : Compiled}
    (hv : s.validate = .ok v) (hc : compile v = .ok c) (opts : RunOptions) {m : Machine}
    (hconfig : m.config.FaultFree) (hok : m.broken = false) :
    (c.Completes s.duration opts m.config →
      ∃ report, ((Experiment.new v opts).report Machine.transport m).1 = .ok report ∧
        report.flows.keys = v.flows.keys ∧
        ∀ f ∈ v.flows.values, ∃ r, report.flows.get? f.id = some r ∧
          r.Conserved m.config.network.loss s.consume f) ∧
    (¬c.Completes s.duration opts m.config →
      ((Experiment.new v opts).report Machine.transport m).1 = .error .crash) ∧
    (m.config.network.Short s.runTicks → c.fits m.config = true) := by
  obtain ⟨rfl, hsound⟩ := Spec.sound_of_validate hv
  obtain ⟨flows, h⟩ := Compiled.from_of_compile hsound hc
  refine ⟨fun hcompletes => ?_, h.report_crash opts hconfig hc rfl hok, h.fits_of_short⟩
  obtain ⟨dumps, unreachable, hreport, hdumps⟩ :=
    h.exists_report opts hconfig hcompletes hc rfl hok
  have hr := v.readouts flows dumps unreachable
  refine ⟨_, hreport, ?_, fun f hf => ?_⟩
  · rw [h.ofDumps_eq]
    exact h.ofReadouts_flows hr
  · obtain ⟨g, hg, rfl⟩ := h.exists_planned hf
    rw [h.ofDumps_eq]
    exact ⟨_, h.get?_ofReadouts_flows hr hg, h.conserved_mergeFlow unreachable hdumps hg⟩

/-- The standard machine has no faults. -/
theorem MachineConfig.faultFree_standard : MachineConfig.standard.FaultFree :=
  ⟨rfl, rfl, rfl, rfl, rfl⟩

theorem report_conserves_packets_twoCores :
    ∃ v c, Spec.twoCores.validate = .ok v ∧ compile v = .ok c ∧
      ∃ report, ((Experiment.new v .standard).report Machine.transport
          (Machine.new .standard)).1 = .ok report ∧
        report.flows.keys = v.flows.keys ∧
        ∀ f ∈ v.flows.values, ∃ r, report.flows.get? f.id = some r ∧
          r.Conserved .never true f := by
  obtain ⟨v, c, -, -, hv, hc, -⟩ := Spec.twoCores_compiles
  have hconfig : (Machine.new .standard).config.FaultFree := MachineConfig.faultFree_standard
  obtain ⟨hreport, -⟩ := report_conserves_packets hv hc .standard hconfig rfl
  exact ⟨v, c, hv, hc, hreport (Spec.twoCores_completes hv hc)⟩

/-- A machine on which packets take nearly 2^32 ticks. -/
def MachineConfig.distant : MachineConfig :=
  { MachineConfig.standard with network := ⟨.never, 4294967295, 0⟩ }

/-- Without faults an experiment can still break down: it asks for one permit more than there can be,
or the times that packets take do not add up to words. -/
theorem report_missing_twoCores :
    ∃ v c, Spec.twoCores.validate = .ok v ∧ compile v = .ok c ∧
      ((Experiment.new v { RunOptions.standard with maxInFlight := 2305843009213693952 }).report
        Machine.transport (Machine.new .standard)).1 = .error .crash ∧
      MachineConfig.distant.FaultFree ∧
      ((Experiment.new v .standard).report Machine.transport (Machine.new .distant)).1 =
        .error .crash := by
  have hbreaks : (Spec.twoCores.validate.toOption.bind fun v => (compile v).toOption.map fun c =>
      c.fits .distant) = some false := by
    decide +kernel
  obtain ⟨v, hv, hbreaks⟩ := Option.bind_eq_some_iff.1 hbreaks
  obtain ⟨c, hc, hbreaks⟩ := Option.map_eq_some_iff.1 hbreaks
  have hv := toOption_eq_some.1 hv
  have hc := toOption_eq_some.1 hc
  obtain ⟨flows, h⟩ := Compiled.from_of_compile (Spec.sound_of_validate hv).2 hc
  have hdistant : MachineConfig.distant.FaultFree := ⟨rfl, rfl, rfl, rfl, rfl⟩
  refine ⟨v, c, hv, hc, ?_, hdistant, ?_⟩
  · refine h.report_crash _ MachineConfig.faultFree_standard hc rfl rfl fun hcompletes => ?_
    exact absurd hcompletes.permits (by decide)
  · refine h.report_crash _ hdistant hc rfl rfl fun hcompletes => ?_
    rw [hcompletes.fits] at hbreaks
    cases hbreaks

end TrafficLab
