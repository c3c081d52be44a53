import TrafficLab.Proofs.Chip.Agreement
import TrafficLab.Proofs.Experiment
import TrafficLab.Proofs.Report.Totals

/-!
# Recording does not disturb

What is recorded, and how often, changes the programs, their tags, their slots and the length of
their dumps, but nothing that is counted.  Two specifications that differ in it alone run the same
way, and their reports have the same totals for every flow.

    the flows are planned alike                                            (stages_recording)
    the runs of all cores agree at the end                                 (current?_recording)
    both runs fit in their words or neither does                           (fits_recording)
    the slots of a flow hold the same values                               (metric?_recording)
    all flows have the same totals                                     (recording_changes_no_totals)
-/

namespace TrafficLab

open Checked Compilation

/-! ## Specifications -/

/-- A specification with other records: of these router counters, this often, and with this room for
them. -/
def Spec.recording (s : Spec) (record : CounterSet) (interval : Nanosecs) (budget : Bytes) : Spec :=
  { s with record, recordInterval := interval, memoryBudget := budget }

/-- A valid specification with other records. -/
def ValidSpec.recording (v : ValidSpec) (record : CounterSet) (interval : Nanosecs)
    (budget : Bytes) : ValidSpec :=
  { v with spec := v.spec.recording record interval budget }

section
variable {record : CounterSet} {interval : Nanosecs} {budget : Bytes}

/-- Validation does not look at the records. -/
theorem validate_recording {s : Spec} {v w : ValidSpec} (hv : s.validate = .ok v)
    (hw : (s.recording record interval budget).validate = .ok w) :
    w = v.recording record interval budget := by
  obtain ⟨rfl, -⟩ := Spec.sound_of_validate hv
  exact Except.ok.inj (hw.symm.trans (Spec.validate_congr hv rfl rfl rfl rfl))

/-- The flows get the same keys and schedules. -/
theorem stages_recording {v : ValidSpec} {keyed keyed' : List KeyedFlow}
    {flows flows' : List PlannedFlow} {c d : Compiled} (h : Stages v keyed flows c)
    (h' : Stages (v.recording record interval budget) keyed' flows' d) :
    keyed' = keyed ∧ flows' = flows := by
  obtain rfl : keyed' = keyed := Except.ok.inj (h'.assigned.symm.trans h.assigned)
  exact ⟨rfl, Except.ok.inj (h'.planned.symm.trans h.planned)⟩

end

/-! ## Values of slots -/

/-- A slot of a source or sink does not depend on which router counters are recorded. -/
theorem Counters.slot?_recording {m : Metric} (hm : ∀ counter, m ≠ .router counter) (k : Counters)
    (record record' : CounterSet) (role : UInt8) : k.slot? record m role = k.slot? record' m role := by
  cases m with
  | router counter => exact absurd rfl (hm counter)
  | _ => rfl

namespace Compiled.From

variable {v : ValidSpec} {flows : List PlannedFlow} {c : Compiled} (h : c.From v flows)

include h

/-- The slots of flows are the same whatever is recorded besides. -/
theorem mem_flowSlots {core : CoreId} {slot : Slot} {flow : FlowId}
    (hflow : slot.flow = some flow) : slot ∈ (v.corePlan flows core).slots ↔
      slot ∈ Layout.flowSlots core 0 0 v.flows.values := by
  rw [h.slots_eq]
  refine List.mem_append.trans (or_iff_left fun hrouter => ?_)
  rw [(Layout.mem_routerSlots hrouter).1] at hflow
  cases hflow

theorem ne_router_of_flow {core : CoreId} {slot : Slot}
    (hslot : slot ∈ (v.corePlan flows core).slots) {flow : FlowId} (hflow : slot.flow = some flow)
    (counter : RouterCounter) : slot.metric ≠ .router counter := by
  intro hmetric
  rcases h.role_of_slot core hslot with ⟨hsource, -⟩ | ⟨hsink, -⟩ | ⟨hnone, -⟩
  · rw [hmetric] at hsource
    cases hsource
  · rw [hmetric] at hsink
    cases hsink
  · rw [hnone] at hflow
    cases hflow

section
variable (capacity : Nat) (n : Network) (seed : UInt64) {core : CoreId}
  (hcore : core ∈ v.participants.keys)

include hcore

/-- The value of a slot at the end of the run, as the core's counters have it. -/
theorem finalValue?_runDump {i : Nat} {slot : Slot}
    (hslot : (v.corePlan flows core).slots[i]? = some slot) :
    Dump.finalValue? (v.corePlan flows core).assemble (v.runDump flows capacity n seed core) i =
      (((v.runAfter flows capacity n seed v.spec.runTicks).current? (v.position core)).bind
        fun k => k.slot? v.spec.record slot.metric slot.role).map UInt64.ofNat := by
  have hi := (List.getElem?_eq_some_iff.1 hslot).1
  have hsetup : (v.setups flows)[v.position core]? = some (v.corePlan flows core).setup :=
    getElem?_setups (ValidSpec.getElem?_position hcore)
  obtain ⟨snd, r, row, hsnd, hr, hrow, -, hentry⟩ := (Run.formed_after capacity n seed
    (v.setups flows) (recorders (v.setups flows)) v.spec.runTicks).exists_entries hsetup
      (h.playable core).countersFit
  have hcounter : (v.corePlan flows core).setup.counters[i]? = some (slot.metric, slot.role) := by
    show ((v.corePlan flows core).slots.map fun s => (s.metric, s.role)).toArray[i]? = _
    rw [List.getElem?_toArray, List.getElem?_map, hslot]
    rfl
  have hcurrent : (v.runAfter flows capacity n seed v.spec.runTicks).current? (v.position core) =
      some (Counters.ofHalves snd r #[]) := by
    unfold ValidSpec.runAfter Run.current?
    rw [hsnd, hr]
    rfl
  have hlast : (v.runAfter flows capacity n seed v.spec.runTicks).row? (v.position core)
      (v.corePlan flows core).setup = some row := hrow
  have hvalue : row[i]? =
      (Counters.ofHalves snd r #[]).slot? v.spec.record slot.metric slot.role :=
    hentry i _ hcounter
  show Dump.valueAt? _ (((v.corePlan flows core).samples - 1) *
    (v.corePlan flows core).slots.length + i) = _
  rw [h.valueAt?_runDump capacity n seed hcore hi, h.getElem?_rowTimes, Option.bind_some, hlast,
    hcurrent, Option.bind_some, Option.getD_some, hvalue]

variable {dumps : Table CoreId CounterDump} (unreachable : KeySet CoreId)
  (hdump : dumps.get? core = some ⟨core, v.runDump flows capacity n seed core⟩)

include hdump

/-- What a readout of a whole run says of a metric, if the core has a slot for it. -/
theorem metric?_of_slot {flow : FlowId} {m : Metric} {slot : Slot}
    (hslot : slot ∈ (v.corePlan flows core).slots) (hflow : slot.flow = some flow)
    (hmetric : slot.metric = m) :
    (v.readout flows dumps unreachable core).metric? flow m =
      (((v.runAfter flows capacity n seed v.spec.runTicks).current? (v.position core)).bind
        fun k => k.slot? v.spec.record m slot.role).map UInt64.ofNat := by
  obtain ⟨i, hi⟩ := List.getElem?_of_mem hslot
  subst hmetric
  rw [← h.finalValue?_runDump capacity n seed hcore hi]
  unfold ValidSpec.readout
  rw [hdump]
  exact Dump.flowMetric?_read (h.slots_apart core) hi hflow rfl
    (h.holdsFlow_runDump capacity n seed hcore flow)

omit h hcore in
/-- Without a slot there is no value. -/
theorem metric?_of_no_slot {flow : FlowId} {m : Metric}
    (hnone : ∀ slot ∈ (v.corePlan flows core).slots, slot.flow = some flow → slot.metric ≠ m) :
    (v.readout flows dumps unreachable core).metric? flow m = none := by
  have hslot : Contribution.slotOf? (v.corePlan flows core).assemble flow m = none := by
    unfold Contribution.slotOf?
    rw [List.findIdx?_eq_none_iff]
    intro slot hslot
    have hslot : slot ∈ (v.corePlan flows core).slots := hslot
    by_cases hflow : slot.flow = some flow
    · simp [hnone slot hslot hflow]
    · simp [hflow]
  unfold ValidSpec.readout
  rw [hdump]
  show (if _ then (Contribution.slotOf? (v.corePlan flows core).assemble flow m).bind _ else none) =
    none
  rw [hslot]
  exact ite_self none

end

end Compiled.From

/-! ## Runs -/

/-- What matters of a plan for the packets of its core. -/
theorem CorePlan.traffic_setup (p : CorePlan) : p.setup.traffic =
    ⟨p.core, 0, 0, p.seed, 0, .empty, 0, p.consume, (p.sources.map (·.setup)).toArray,
      (p.sinks.map (·.setup)).toArray, #[]⟩ := rfl

theorem traffic_recording (v : ValidSpec) (flows : List PlannedFlow) (record : CounterSet)
    (interval : Nanosecs) (budget : Bytes) :
    ((v.recording record interval budget).setups flows).map (·.traffic) =
      (v.setups flows).map (·.traffic) := by
  unfold ValidSpec.setups
  rw [List.map_map, List.map_map]
  show v.participants.keys.map _ = _
  refine List.map_congr_left fun core _ => ?_
  rw [Function.comp_apply, Function.comp_apply, CorePlan.traffic_setup, CorePlan.traffic_setup]
  rfl

section
variable {v : ValidSpec} {flows : List PlannedFlow} {c d : Compiled} {record : CounterSet}
  {interval : Nanosecs} {budget : Bytes} (h : c.From v flows)
  (h' : d.From (v.recording record interval budget) flows) (capacity : Nat) (n : Network)
  (seed : UInt64)

include h h'

/-- At the end of a run every core has counted the same. -/
theorem current?_recording (position : Nat) :
    ((v.recording record interval budget).runAfter flows capacity n seed v.spec.runTicks).current?
        position =
      (v.runAfter flows capacity n seed v.spec.runTicks).current? position := by
  refine Run.current?_congr_traffic (Run.traffic_after_congr
    (traffic_recording v flows record interval budget) capacity n seed _ _
    (fun s hs => ?_) fun s hs => ?_) position
  · obtain ⟨core, -, rfl⟩ := List.mem_map.1 hs
    exact Nat.le_of_eq (h'.runTicks_eq core).symm
  · obtain ⟨core, -, rfl⟩ := List.mem_map.1 hs
    exact Nat.le_of_eq (h.runTicks_eq core).symm

omit capacity n seed in
/-- Cores fit in their words or not whatever is recorded. -/
theorem fits_recording (config : MachineConfig) : c.fits config = d.fits config := by
  have hruns : ∀ x ∈ v.setups flows, x.runTicks = v.spec.runTicks := by
    intro x hx
    obtain ⟨core, -, rfl⟩ := List.mem_map.1 hx
    exact h.runTicks_eq core
  have hruns' : ∀ x ∈ (v.recording record interval budget).setups flows,
      x.runTicks = v.spec.runTicks := by
    intro x hx
    obtain ⟨core, -, rfl⟩ := List.mem_map.1 hx
    exact h'.runTicks_eq core
  rw [h.fits_eq, h'.fits_eq, Run.final_eq, Run.final_eq]
  by_cases hnil : v.setups flows = []
  · have hnil' : (v.recording record interval budget).setups flows = [] := by
      have htraffic := traffic_recording v flows record interval budget
      rwa [hnil, List.map_nil, List.map_eq_nil_iff] at htraffic
    rw [hnil, hnil']
  · have hne : (v.recording record interval budget).setups flows ≠ [] := by
      intro hnil'
      have htraffic := traffic_recording v flows record interval budget
      rw [hnil', List.map_nil] at htraffic
      exact hnil (List.map_eq_nil_iff.1 htraffic.symm)
    rw [longestRun_eq hruns hnil, longestRun_eq hruns' hne]
    exact Run.fits_congr_traffic (Run.traffic_after_congr
      (traffic_recording v flows record interval budget).symm _ _ _ _ _
      (fun x hx => Nat.le_of_eq (hruns x hx).symm) fun x hx => Nat.le_of_eq (hruns' x hx).symm)

omit capacity n seed in
/-- Every core has a program in both if it has one in either, and with the same seed. -/
theorem seeds_recording (core : CoreId) :
    (c.programs.get? core).map (·.seed) = (d.programs.get? core).map (·.seed) := by
  by_cases hcore : core ∈ v.participants.keys
  · rw [h.get?_programs.2 ⟨hcore, rfl⟩, h'.get?_programs.2 ⟨hcore, rfl⟩]
    rfl
  · have hnone : c.programs.get? core = none :=
      Option.eq_none_iff_forall_ne_some.2 fun p hp => hcore (h.get?_programs.1 hp).1
    have hnone' : d.programs.get? core = none :=
      Option.eq_none_iff_forall_ne_some.2 fun p hp => hcore (h'.get?_programs.1 hp).1
    rw [hnone, hnone']

variable {core : CoreId} (hcore : core ∈ v.participants.keys)
  {dumps dumps' : Table CoreId CounterDump} (unreachable unreachable' : KeySet CoreId)
  (hdump : dumps.get? core = some ⟨core, v.runDump flows capacity n seed core⟩)
  (hdump' : dumps'.get? core =
    some ⟨core, (v.recording record interval budget).runDump flows capacity n seed core⟩)

include hcore hdump hdump'

theorem metric?_recording (flow : FlowId) (m : Metric) :
    (v.readout flows dumps unreachable core).metric? flow m =
      ((v.recording record interval budget).readout flows dumps' unreachable' core).metric? flow
        m := by
  by_cases hslot : ∃ slot ∈ (v.corePlan flows core).slots, slot.flow = some flow ∧ slot.metric = m
  · obtain ⟨slot, hslot, hflow, hmetric⟩ := hslot
    have hslot' := (h'.mem_flowSlots hflow).2 ((h.mem_flowSlots hflow).1 hslot)
    have hrouter : ∀ counter, m ≠ .router counter := hmetric ▸ h.ne_router_of_flow hslot hflow
    rw [h.metric?_of_slot capacity n seed hcore unreachable hdump hslot hflow hmetric,
      h'.metric?_of_slot capacity n seed hcore unreachable' hdump' hslot' hflow hmetric]
    show _ = ((((v.recording record interval budget).runAfter flows capacity n seed
      v.spec.runTicks).current? (v.position core)).bind fun k =>
        k.slot? record m slot.role).map UInt64.ofNat
    rw [current?_recording h h']
    simp only [Counters.slot?_recording hrouter _ v.spec.record record]
  · have hnone : ∀ slot ∈ (v.corePlan flows core).slots, slot.flow = some flow →
        slot.metric ≠ m := fun slot hmem hflow hmetric => hslot ⟨slot, hmem, hflow, hmetric⟩
    have hnone' : ∀ slot ∈ ((v.recording record interval budget).corePlan flows core).slots,
        slot.flow = some flow → slot.metric ≠ m := fun slot hmem hflow =>
      hnone slot ((h.mem_flowSlots hflow).2 ((h'.mem_flowSlots hflow).1 hmem)) hflow
    rw [Compiled.From.metric?_of_no_slot capacity n seed unreachable hdump hnone,
      Compiled.From.metric?_of_no_slot capacity n seed unreachable' hdump' hnone']

theorem sameTotals_recording : (v.readout flows dumps unreachable core).SameTotals
    ((v.recording record interval budget).readout flows dumps' unreachable' core) := by
  have hr := v.readouts flows dumps unreachable
  have hr' := (v.recording record interval budget).readouts flows dumps' unreachable'
  constructor
  · rw [hr.core, hr'.core]
  · rw [hr.program, hr'.program]
    rfl
  · rw [hr.program, hr'.program]
    rfl
  · rw [hr.program, hr'.program]
    rfl
  · exact metric?_recording h h' capacity n seed hcore unreachable unreachable' hdump hdump'

end

/-! ## Main result -/

/-- Two specifications that differ in what they record, and have room for it, are compiled to the
same keys and seeds; and on machines that are configured alike and have no faults, both runs fit in
their words or neither does, and the reports of experiments that come to their end have the same
totals for every flow.  There is no report of one that does not. -/
theorem recording_changes_no_totals {s : Spec} {record : CounterSet} {interval : Nanosecs}
    {budget : Bytes} {v w : ValidSpec} {c d : Compiled} (hv : s.validate = .ok v)
    (hw : (s.recording record interval budget).validate = .ok w) (hc : compile v = .ok c)
    (hd : compile w = .ok d) (opts opts' : RunOptions) {m m' : Machine}
    (hsame : m'.config = m.config) (hconfig : m.config.FaultFree) (hok : m.broken = false)
    (hok' : m'.broken = false) :
    c.keys = d.keys ∧
    (∀ core, (c.programs.get? core).map (·.seed) = (d.programs.get? core).map (·.seed)) ∧
    c.fits m.config = d.fits m.config ∧
    (c.Completes s.duration opts m.config → d.Completes s.duration opts' m.config →
      ∃ report report', ((Experiment.new v opts).report Machine.transport m).1 = .ok report ∧
        ((Experiment.new w opts').report Machine.transport m').1 = .ok report' ∧
        report.flows.keys = v.flows.keys ∧ report'.flows.keys = v.flows.keys ∧
        ∀ flow ∈ v.flows.keys, ∃ r r', report.flows.get? flow = some r ∧
          report'.flows.get? flow = some r' ∧ r.SameTotals r') ∧
    (¬c.Completes s.duration opts m.config →
      ((Experiment.new v opts).report Machine.transport m).1 = .error .crash) ∧
    (¬d.Completes s.duration opts' m.config →
      ((Experiment.new w opts').report Machine.transport m').1 = .error .crash) := by
  obtain rfl := validate_recording hv hw
  obtain ⟨keyed, flows, hstages⟩ := compile_eq_ok.1 hc
  obtain ⟨keyed', flows', hstages'⟩ := compile_eq_ok.1 hd
  obtain ⟨rfl, rfl⟩ := stages_recording hstages hstages'
  have h := Compiled.from_of_stages (Spec.sound_of_validate hv).2 hstages
  have h' := Compiled.from_of_stages (Spec.sound_of_validate hw).2 hstages'
  obtain ⟨rfl, -⟩ := Spec.sound_of_validate hv
  refine ⟨h.keys.trans h'.keys.symm, seeds_recording h h', fits_recording h h' m.config,
    fun hcompletes hcompletes' => ?_, h.report_crash opts hconfig hc rfl hok,
    h'.report_crash opts' hconfig hd hsame hok'⟩
  obtain ⟨dumps, unreachable, hreport, hdumps⟩ :=
    h.exists_report opts hconfig hcompletes hc rfl hok
  obtain ⟨dumps', unreachable', hreport', hdumps'⟩ :=
    h'.exists_report opts' hconfig hcompletes' hd hsame hok'
  have hr := v.readouts flows' dumps unreachable
  have hr' := (v.recording record interval budget).readouts flows' dumps' unreachable'
  refine ⟨_, _, hreport, hreport', ?_, ?_, fun flow hflow => ?_⟩
  · rw [h.ofDumps_eq]
    exact h.ofReadouts_flows hr
  · rw [h'.ofDumps_eq]
    exact h'.ofReadouts_flows hr'
  · rw [h.keys_flows] at hflow
    obtain ⟨f, hf, rfl⟩ := List.mem_map.1 hflow
    rw [h.ofDumps_eq, h'.ofDumps_eq]
    refine ⟨_, _, h.get?_ofReadouts_flows hr hf, h'.get?_ofReadouts_flows hr' hf,
      mergeFlow_same f.id ?_⟩
    show List.Forall₂ _ _ (v.participants.keys.map _)
    rw [List.forall₂_map_left_iff, List.forall₂_map_right_iff, List.forall₂_same]
    exact fun core hcore => sameTotals_recording h h' _ _ _ hcore unreachable unreachable'
      (hdumps core hcore) (hdumps' core hcore)

/-- The specification of two cores with records of three router counters, once at the end. -/
def Spec.twoCoresRouted : Spec :=
  Spec.twoCores.recording (.ofList [.localMulticast, .externalMulticast, .droppedMulticast]) ⟨0⟩
    ⟨4096⟩

theorem Spec.twoCoresRouted_shape :
    twoCoresRouted.shape? = some [(⟨0⟩, 1, 1), (⟨1⟩, 1, 2)] := by
  decide +kernel

theorem recording_changes_no_totals_twoCores :
    ∃ v w c d, Spec.twoCores.validate = .ok v ∧ Spec.twoCoresRouted.validate = .ok w ∧
      compile v = .ok c ∧ compile w = .ok d ∧ c.keys = d.keys ∧
      ∃ report report', ((Experiment.new v .standard).report Machine.transport
          (Machine.new .standard)).1 = .ok report ∧
        ((Experiment.new w .standard).report Machine.transport
          (Machine.new .standard)).1 = .ok report' ∧
        ∀ flow ∈ v.flows.keys, ∃ r r', report.flows.get? flow = some r ∧
          report'.flows.get? flow = some r' ∧ r.SameTotals r' := by
  obtain ⟨v, c, -, -, hv, hc, -⟩ := Spec.twoCores_compiles
  obtain ⟨w, d, hw, hd, -⟩ := Spec.exists_of_shape? Spec.twoCoresRouted_shape
  have hsame : (Machine.new .standard).config = (Machine.new .standard).config := rfl
  have hok : (Machine.new .standard).broken = false := rfl
  obtain ⟨hkeys, -, hfits, hreports, -⟩ :=
    recording_changes_no_totals hv hw hc hd .standard .standard hsame
      MachineConfig.faultFree_standard hok hok
  have hcompletes := Spec.twoCores_completes hv hc
  obtain ⟨report, report', hreport, hreport', -, -, htotals⟩ :=
    hreports hcompletes ⟨hcompletes.permits, fun _ => by decide, hfits.symm.trans hcompletes.fits⟩
  exact ⟨v, w, c, d, hv, hw, hc, hd, hkeys, report, report', hreport, hreport', htotals⟩

end TrafficLab
