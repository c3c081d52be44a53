import TrafficLab.Proofs.Report.Merge

/-!
# Timelines

The counters of a flow are recorded several times in a run, and its timeline has a sample for each
record.  A dump that holds the flow at the end holds it at every record before, since rows follow
each other, so a core is in the samples exactly if it is in the totals.

    a core contributes → it has a series with a value for each record       (series?_readout)
    received series = those of the cores in `received`                      (receivedSeries_eq_keys)
    every flow's timeline agrees with its totals                            (timelines_agree)
-/

namespace TrafficLab

/-- What a function finds for each entry of a list. -/
theorem forall₂_filterMap {α β : Type} {R : α → β → Prop} {f : α → Option β} {l : List α}
    (h : ∀ a ∈ l, ∃ b, f a = some b ∧ R a b) : List.Forall₂ R l (l.filterMap f) := by
  induction l with
  | nil => exact .nil
  | cons a rest ih =>
    obtain ⟨b, hb, hab⟩ := h a List.mem_cons_self
    rw [List.filterMap_cons_some hb]
    exact .cons hab (ih fun c hc => h c (List.mem_cons_of_mem a hc))

/-! ## Records of a program -/

namespace CorePlan

variable (p : CorePlan)

/-- The last record is made when the run ends. -/
theorem sampleTick_samples : p.sampleTick p.samples = p.runTicks.toNat := by
  unfold sampleTick samples
  simp only
  split
  · rfl
  · next hne =>
    have hpos := Nat.pos_of_ne_zero hne
    have hdiv := Nat.div_add_mod (p.runTicks.toNat + (p.recordInterval.toNat - 1))
      p.recordInterval.toNat
    have hmod := Nat.mod_lt (p.runTicks.toNat + (p.recordInterval.toNat - 1)) hpos
    refine Nat.min_eq_right ?_
    refine Nat.le_trans ?_ (Nat.mul_le_mul_right _ (Nat.le_max_left _ 1))
    rw [Nat.mul_comm]
    omega

theorem sampleTick_le (k : Nat) : p.sampleTick k ≤ p.runTicks.toNat := by
  unfold sampleTick
  simp only
  split
  · exact Nat.le_refl _
  · exact Nat.min_le_right _ _

/-- Ticks of records are words. -/
theorem toNat_sampleTick (k : Nat) :
    (Quantity.ofNat (p.sampleTick k) : Ticks).toNat = p.sampleTick k :=
  UInt64.toNat_ofNat_of_lt' (Nat.lt_of_le_of_lt (p.sampleTick_le k) p.runTicks.count.toNat_lt)

/-- The last of the ticks is the end of the run. -/
theorem eq_runTicks_of_sampleTicks {p : CorePlan} {t : Ticks}
    (h : p.sampleTicks[p.samples - 1]? = some t.toNat) : t = p.runTicks := by
  have hpos := p.samples_pos
  unfold sampleTicks at h
  rw [List.getElem?_map, List.getElem?_range (by omega), Option.map_some, Option.some_inj,
    Nat.sub_add_cancel hpos, sampleTick_samples] at h
  exact congrArg Quantity.mk (UInt64.toNat_inj.1 h.symm)

end CorePlan

/-! ## Series in a dump -/

namespace Dump

variable {p : Program} {dump : CounterDump} {flow : FlowId} {m : Metric} {i : Nat} {slot : Slot}
  (hslot : p.slots[i]? = some slot) (hflow : slot.flow = some flow)

include hslot hflow

/-- A dump with the slots of a flow at the end has them in every record. -/
theorem valueAt?_isSome_of_holdsFlow (h : HoldsFlow p dump.bytes flow) {k : Nat}
    (hk : k < p.samples) : (valueAt? dump.bytes (k * p.slots.length + i)).isSome := by
  refine valueAt?_isSome_of_le (h.2 i slot hslot hflow) ?_
  have hle : k * p.slots.length ≤ (p.samples - 1) * p.slots.length :=
    Nat.mul_le_mul_right _ (by omega)
  omega

/-- A dump that holds a flow has a series for each of its slots. -/
theorem exists_flowSeries?_read (hapart : p.slots.Pairwise Layout.Apart)
    (hmetric : slot.metric = m) (h : HoldsFlow p dump.bytes flow) :
    ∃ series, (read p dump).flowSeries? p flow m = some series ∧ series.length = p.samples ∧
      ∀ k < p.samples, valueAt? dump.bytes (k * p.slots.length + i) = series[k]? := by
  have hall : ∀ k ∈ List.range p.samples,
      (valueAt? dump.bytes (k * p.slots.length + i)).isSome := fun k hk =>
    valueAt?_isSome_of_holdsFlow hslot hflow h (List.mem_range.1 hk)
  obtain ⟨series, -, hlen, hget⟩ := Checked.exists_mapM hall
  rw [List.length_range] at hlen
  have hseries : ∀ k < p.samples, valueAt? dump.bytes (k * p.slots.length + i) = series[k]? := by
    intro k hk
    rw [hget, List.getElem?_range hk]
    rfl
  exact ⟨series, flowSeries?_read hapart hslot hflow hmetric h hlen hseries, hlen, hseries⟩

/-- A dump that does not hold a flow has no series for it. -/
theorem flowSeries?_read_eq_none (h : ¬HoldsFlow p dump.bytes flow) :
    (read p dump).flowSeries? p flow m = none := by
  unfold Contribution.flowSeries?
  rw [if_neg]
  intro hhas
  rw [hasFlow_eq_true] at hhas
  by_cases hm : Matches p dump.bytes
  · refine h ⟨hm, fun j s hs hf => ?_⟩
    obtain ⟨hj, -⟩ := List.getElem?_eq_some_iff.1 hs
    rw [← value?_read hm hj]
    exact hhas j s hs hf
  · have hvalue := hhas i slot hslot hflow
    rw [value?_read_of_not_matches hm] at hvalue
    cases hvalue

end Dump

/-! ## Series of compiled programs -/

/-- A core's dump has a value in the slot of a metric of a flow, in the given record. -/
def Compiled.RecordValue (c : Compiled) (dumps : Table CoreId CounterDump) (flow : FlowId)
    (core : CoreId) (record : Nat) (m : Metric) (n : UInt64) : Prop :=
  ∃ p dump i slot, c.programs.get? core = some p ∧ dumps.get? core = some dump ∧
    p.slots[i]? = some slot ∧ slot.flow = some flow ∧ slot.metric = m ∧
    Dump.valueAt? dump.bytes (record * p.slots.length + i) = some n

namespace Compiled.From

variable {v : ValidSpec} {flows : List PlannedFlow} {c : Compiled} (h : c.From v flows)
  (dumps : Table CoreId CounterDump) (unreachable : KeySet CoreId)

include h

/-- The value at the end is that of the last record. -/
theorem finalValue_iff {flow : FlowId} {core : CoreId} {m : Metric} {n : UInt64} :
    c.FinalValue dumps flow core m n ↔
      c.RecordValue dumps flow core ((v.corePlan flows core).samples - 1) m n := by
  constructor
  · rintro ⟨p, dump, i, slot, hp, hvalue⟩
    obtain ⟨-, rfl⟩ := h.get?_programs.1 hp
    exact ⟨_, dump, i, slot, hp, hvalue⟩
  · rintro ⟨p, dump, i, slot, hp, hvalue⟩
    obtain ⟨-, rfl⟩ := h.get?_programs.1 hp
    exact ⟨_, dump, i, slot, hp, hvalue⟩

section
variable {f : PlannedFlow} {core : CoreId} {m : Metric} {i : Nat} {slot : Slot}
  (hcore : core ∈ v.participants.keys) (hslot : (v.corePlan flows core).slots[i]? = some slot)
  (hflow : slot.flow = some f.id) (hmetric : slot.metric = m)

include hcore hslot hflow hmetric

/-- The value of a record is the one at the slot's place. -/
theorem recordValue_iff {dump : CounterDump} (hdump : dumps.get? core = some dump) {k : Nat}
    {n : UInt64} : c.RecordValue dumps f.id core k m n ↔
      Dump.valueAt? dump.bytes (k * (v.corePlan flows core).slots.length + i) = some n := by
  have hp := h.get?_programs.2 ⟨hcore, rfl⟩
  constructor
  · rintro ⟨p, dump', j, slot', hp', hdump', hslot', hflow', hmetric', hn⟩
    rw [hp] at hp'
    cases hp'
    rw [hdump] at hdump'
    cases hdump'
    have hij := Dump.slotOf?_eq (p := (v.corePlan flows core).assemble) (h.slots_apart core) hslot
      hflow hmetric
    rw [Dump.slotOf?_eq (h.slots_apart core) hslot' hflow' hmetric'] at hij
    cases hij
    exact hn
  · intro hn
    exact ⟨_, dump, i, slot, hp, hdump, hslot, hflow, hmetric, hn⟩

/-- A core that contributes to a flow has a series with a value for each record. -/
theorem series?_readout (hmany : 1 < (v.corePlan flows core).samples)
    (hcontributes : c.Contributes dumps f.id core) :
    ∃ series, (v.readout flows dumps unreachable core).series? f.id m = some series ∧
      series.length = (v.corePlan flows core).samples ∧
      ∀ k < (v.corePlan flows core).samples, ∀ n,
        series[k]? = some n ↔ c.RecordValue dumps f.id core k m n := by
  obtain ⟨p, dump, hp, hdump, hholds⟩ := hcontributes
  obtain ⟨-, rfl⟩ := h.get?_programs.1 hp
  obtain ⟨series, hseries, hlen, hvalues⟩ :=
    Dump.exists_flowSeries?_read hslot hflow (h.slots_apart core) hmetric hholds
  refine ⟨series, ?_, hlen, fun k hk n => ?_⟩
  · unfold ValidSpec.readout
    rw [hdump]
    exact (if_pos hmany).trans hseries
  · rw [h.recordValue_iff dumps hcore hslot hflow hmetric hdump, ← hvalues k hk]
    rfl

omit hmetric in
theorem series?_readout_eq_none (hcontributes : ¬c.Contributes dumps f.id core) :
    (v.readout flows dumps unreachable core).series? f.id m = none := by
  unfold ValidSpec.readout Readout.series?
  split
  · cases hdump : dumps.get? core with
    | none => rfl
    | some dump =>
      refine Dump.flowSeries?_read_eq_none hslot hflow fun hholds => hcontributes ?_
      exact ⟨_, dump, h.get?_programs.2 ⟨hcore, rfl⟩, hdump, hholds⟩
  · rfl

/-- A core that contributes has one value in each record: the one in its series. -/
theorem exists_recordValue (hmany : 1 < (v.corePlan flows core).samples)
    (hcontributes : c.Contributes dumps f.id core) {k : Nat}
    (hk : k < (v.corePlan flows core).samples) :
    ∃ x, (((v.readout flows dumps unreachable core).series? f.id m).bind fun s => s[k]?) = some x ∧
      ∀ n, c.RecordValue dumps f.id core k m n ↔ n = x := by
  obtain ⟨series, hseries, hlen, hvalues⟩ :=
    h.series?_readout dumps unreachable hcore hslot hflow hmetric hmany hcontributes
  have hx := List.getElem?_eq_getElem (hlen ▸ hk : k < series.length)
  refine ⟨series[k], ?_, fun n => ?_⟩
  · rw [hseries, Option.bind_some, hx]
  · rw [← hvalues k hk n, hx, Option.some_inj, eq_comm]

/-- The value at the end is the one of the last record. -/
theorem metric?_eq_series? (hmany : 1 < (v.corePlan flows core).samples)
    (hcontributes : c.Contributes dumps f.id core) :
    (v.readout flows dumps unreachable core).metric? f.id m =
      ((v.readout flows dumps unreachable core).series? f.id m).bind
        fun s => s[(v.corePlan flows core).samples - 1]? := by
  obtain ⟨x, hx, hvalue⟩ := h.exists_recordValue dumps unreachable hcore hslot hflow hmetric hmany
    hcontributes (Nat.sub_one_lt_of_lt hmany)
  rw [hx, h.metric?_readout dumps unreachable hcore hslot hflow hmetric, and_iff_right hcontributes,
    h.finalValue_iff, hvalue]

end

section
variable {f : PlannedFlow} (hf : f ∈ flows)

include hf

/-- The source of a flow has sent, at each record, what its series says. -/
theorem sentSeries_readout :
    sentSeries f.id (v.participants.keys.map (v.readout flows dumps unreachable)) =
      ((v.readout flows dumps unreachable f.route.source).series? f.id .sent).getD [] := by
  unfold sentSeries
  rw [h.sourceReadouts_eq (v.readouts flows dumps unreachable) hf]
  rfl

/-- The keys of a result's received packets: the sink cores that contribute. -/
theorem keys_receivedByCore {ro : CoreId → Readout} (hr : Readouts v flows ro) :
    (receivedByCore f.id (v.participants.keys.map ro)).keys =
      (v.receivers f.toRoutedFlow).filter fun core =>
        ((ro core).metric? f.id .received).isSome := by
  show (receivedByCore f.id (v.participants.keys.map ro)).entries.map (·.1) = _
  rw [h.entries_receivedByCore hr hf, List.map_filterMap, ← List.filterMap_eq_filter]
  refine List.filterMap_congr fun core _ => ?_
  cases hn : (ro core).metric? f.id .received <;> simp [Option.guard, hn]

theorem values_receivedByCore {ro : CoreId → Readout} (hr : Readouts v flows ro) :
    (receivedByCore f.id (v.participants.keys.map ro)).values =
      (receivedByCore f.id (v.participants.keys.map ro)).keys.filterMap fun core =>
        (ro core).metric? f.id .received := by
  rw [h.keys_receivedByCore hf hr, List.filterMap_filter]
  unfold Table.values
  rw [h.entries_receivedByCore hr hf, List.map_filterMap]
  refine List.filterMap_congr fun core _ => ?_
  cases (ro core).metric? f.id .received <;> rfl

/-- The cores that are in the samples are those that are in the totals. -/
theorem receivedSeries_eq_keys {ro : CoreId → Readout} (hr : Readouts v flows ro) :
    receivedSeries f.id (v.participants.keys.map ro) =
      (receivedByCore f.id (v.participants.keys.map ro)).keys.filterMap fun core =>
        (ro core).series? f.id .received := by
  unfold receivedSeries
  rw [h.decodedSinks_eq hr hf, h.keys_receivedByCore hf hr, List.filterMap_filterMap,
    List.filterMap_filter]
  refine List.filterMap_congr fun core _ => ?_
  cases (ro core).metric? f.id .received <;> rfl

/-! ## Samples -/

omit h hf in
/-- A sample says what had been sent and received by one tick. -/
theorem getElem?_timeline (flow : FlowId) (rs : List Readout) (k : Nat) :
    (timeline flow rs)[k]? = ((recordTicks flow rs)[k]?).map fun tick =>
      ⟨.ofNat tick, ((sentSeries flow rs)[k]?).getD 0,
        saturatingSum ((receivedSeries flow rs).filterMap fun s => s[k]?)⟩ := by
  unfold timeline
  rw [List.getElem?_map, List.getElem?_zipIdx, Option.map_map]
  congr 1
  funext tick
  simp only [Function.comp_apply, Nat.zero_add, List.getElem?_toArray, List.filterMap_map]

/-- The ticks of a flow's samples: those of the records, if there is more than one. -/
theorem recordTicks_eq {ro : CoreId → Readout} (hr : Readouts v flows ro) (core : CoreId) :
    recordTicks f.id (v.participants.keys.map ro) =
      if 1 < (v.corePlan flows core).samples then (v.corePlan flows core).sampleTicks else [] := by
  -- the records of all cores are alike
  have hsame : ∀ core', (ro core').program.samples = (v.corePlan flows core).samples ∧
      (ro core').program.sampleTicks = (v.corePlan flows core).sampleTicks := by
    intro core'
    rw [hr.program]
    exact ⟨rfl, rfl⟩
  have hsource : (ro f.route.source).hasRole f.id = true := by
    have hrole : Compilation.sourceRole f ∈ (v.corePlan flows f.route.source).sources :=
      List.mem_map_of_mem (List.mem_filter.2 ⟨hf, beq_self_eq_true _⟩)
    unfold Readout.hasRole
    rw [hr.program, Bool.or_eq_true]
    exact .inl (List.any_eq_true.2 ⟨_, hrole, decide_eq_true rfl⟩)
  have hmem := h.mem_participants hf (List.mem_cons_self : f.route.source ∈ f.route.cores)
  unfold recordTicks
  split
  · next r hlast =>
    obtain ⟨hr', hmany⟩ := List.mem_filter.1 (List.mem_of_getLast? hlast)
    obtain ⟨core', -, rfl⟩ := List.mem_map.1 hr'
    rw [Bool.and_eq_true, decide_eq_true_eq, (hsame core').1] at hmany
    rw [if_pos hmany.2, (hsame core').2]
  · next hlast =>
    rw [if_neg]
    intro hmany
    have hnone := List.filter_eq_nil_iff.1 (List.getLast?_eq_none_iff.1 hlast) _
      (List.mem_map_of_mem hmem)
    rw [hsource, (hsame f.route.source).1] at hnone
    exact hnone (by simpa using hmany)

theorem series?_source_eq_none (hcontributes : ¬c.Contributes dumps f.id f.route.source) :
    (v.readout flows dumps unreachable f.route.source).series? f.id .sent = none := by
  obtain ⟨i, slot, hslot, hflow, -⟩ := h.exists_sourceSlot hf (m := .sent) rfl
  exact h.series?_readout_eq_none dumps unreachable (h.mem_participants hf List.mem_cons_self)
    hslot hflow hcontributes

section
variable (hmany : 1 < (v.corePlan flows f.route.source).samples)

include hmany

theorem recordValue_source (hcontributes : c.Contributes dumps f.id f.route.source) {k : Nat}
    (hk : k < (v.corePlan flows f.route.source).samples) :
    ∃ x, (((v.readout flows dumps unreachable f.route.source).series? f.id .sent).bind
      fun s => s[k]?) = some x ∧
      ∀ n, c.RecordValue dumps f.id f.route.source k .sent n ↔ n = x := by
  have hcore := h.mem_participants hf (List.mem_cons_self : f.route.source ∈ f.route.cores)
  obtain ⟨i, slot, hslot, hflow, hmetric⟩ := h.exists_sourceSlot hf (m := .sent) rfl
  exact h.exists_recordValue dumps unreachable hcore hslot hflow hmetric hmany hcontributes hk

/-- The packets sent in all are those of the last record. -/
theorem sent_eq_series? :
    (mergeFlow f.id (v.participants.keys.map (v.readout flows dumps unreachable))).sent =
      (((v.readout flows dumps unreachable f.route.source).series? f.id .sent).bind
        fun s => s[(v.corePlan flows f.route.source).samples - 1]?).getD 0 := by
  by_cases hcontributes : c.Contributes dumps f.id f.route.source
  · have hcore := h.mem_participants hf (List.mem_cons_self : f.route.source ∈ f.route.cores)
    obtain ⟨i, slot, hslot, hflow, hmetric⟩ := h.exists_sourceSlot hf (m := .sent) rfl
    obtain ⟨x, hx, hvalue⟩ := h.recordValue_source dumps unreachable hf hmany hcontributes
      (Nat.sub_one_lt_of_lt hmany)
    have hsent := (h.exact_mergeFlow dumps unreachable hf).sent hcontributes
    simp only [h.finalValue_iff] at hsent
    rw [hx, Option.getD_some]
    exact (hvalue _).1 ((hsent _).2 rfl)
  · rw [h.series?_source_eq_none dumps unreachable hf hcontributes]
    exact ((h.exact_mergeFlow dumps unreachable hf).no_source hcontributes).1

section
variable {core : CoreId} (hmem : core ∈ (receivedByCore f.id
  (v.participants.keys.map (v.readout flows dumps unreachable))).keys)

include hmem

theorem recordValue_sink {k : Nat} (hk : k < (v.corePlan flows core).samples) :
    ∃ x, (((v.readout flows dumps unreachable core).series? f.id .received).bind
      fun s => s[k]?) = some x ∧
      ∀ n, c.RecordValue dumps f.id core k .received n ↔ n = x := by
  obtain ⟨hc, hcontributes⟩ := (h.mem_keys_receivedByCore_readout dumps unreachable hf).1 hmem
  have hcore := h.mem_participants hf (List.mem_cons_of_mem f.route.source hc)
  obtain ⟨i, slot, hslot, hflow, hmetric⟩ := h.exists_sinkSlot hf hc
  exact h.exists_recordValue dumps unreachable hcore hslot hflow hmetric hmany hcontributes hk

theorem received_eq_series? :
    (v.readout flows dumps unreachable core).metric? f.id .received =
      ((v.readout flows dumps unreachable core).series? f.id .received).bind
        fun s => s[(v.corePlan flows core).samples - 1]? := by
  obtain ⟨hc, hcontributes⟩ := (h.mem_keys_receivedByCore_readout dumps unreachable hf).1 hmem
  have hcore := h.mem_participants hf (List.mem_cons_of_mem f.route.source hc)
  obtain ⟨i, slot, hslot, hflow, hmetric⟩ := h.exists_sinkSlot hf hc
  exact h.metric?_eq_series? dumps unreachable hcore hslot hflow hmetric hmany hcontributes

end

end

theorem ticks_timeline {ro : CoreId → Readout} (hr : Readouts v flows ro) (core : CoreId) :
    (timeline f.id (v.participants.keys.map ro)).map (fun x => x.tick.toNat) =
      if 1 < (v.corePlan flows core).samples then (v.corePlan flows core).sampleTicks else [] := by
  refine List.ext_getElem? fun k => ?_
  rw [List.getElem?_map, getElem?_timeline, Option.map_map, h.recordTicks_eq hf hr core]
  split
  · unfold CorePlan.sampleTicks
    rw [List.getElem?_map, Option.map_map]
    congr 1
    funext j
    exact CorePlan.toNat_sampleTick _ _
  · rfl

theorem length_timeline {ro : CoreId → Readout} (hr : Readouts v flows ro) (core : CoreId)
    (hmany : 1 < (v.corePlan flows core).samples) :
    (timeline f.id (v.participants.keys.map ro)).length = (v.corePlan flows core).samples := by
  have hticks := h.ticks_timeline hf hr core
  rw [if_pos hmany] at hticks
  rw [← CorePlan.length_sampleTicks, ← hticks, List.length_map]

/-- A sample of a flow: what its source had sent, and the sum of what the cores in the totals had
received. -/
theorem sample_readout {k : Nat} {x : FlowSample}
    (hx : (timeline f.id (v.participants.keys.map (v.readout flows dumps unreachable)))[k]? =
      some x) :
    1 < (v.corePlan flows f.route.source).samples ∧ k < (v.corePlan flows f.route.source).samples ∧
    x.sent = ((((v.readout flows dumps unreachable f.route.source).series? f.id .sent).bind
      fun s => s[k]?).getD 0) ∧
    x.received = saturatingSum ((receivedByCore f.id
      (v.participants.keys.map (v.readout flows dumps unreachable))).keys.filterMap fun core =>
        ((v.readout flows dumps unreachable core).series? f.id .received).bind fun s => s[k]?) := by
  have hr := v.readouts flows dumps unreachable
  rw [getElem?_timeline] at hx
  obtain ⟨tick, htick, rfl⟩ := Option.map_eq_some_iff.1 hx
  rw [h.recordTicks_eq hf hr f.route.source] at htick
  split at htick
  · next hmany =>
    have hlt := (List.getElem?_eq_some_iff.1 htick).1
    unfold CorePlan.sampleTicks at hlt
    rw [List.length_map, List.length_range] at hlt
    refine ⟨hmany, hlt, ?_, ?_⟩
    · rw [h.sentSeries_readout dumps unreachable hf]
      cases (v.readout flows dumps unreachable f.route.source).series? f.id .sent <;> rfl
    · rw [h.receivedSeries_eq_keys hf hr, List.filterMap_filterMap]
  · cases htick

/-- The last sample is made when the run ends, and has the totals. -/
theorem last_timeline (hmany : 1 < (v.corePlan flows f.route.source).samples) :
    ∃ x, (timeline f.id
        (v.participants.keys.map (v.readout flows dumps unreachable))).getLast? = some x ∧
      x.tick = (v.corePlan flows f.route.source).runTicks ∧
      x.sent = (mergeFlow f.id
        (v.participants.keys.map (v.readout flows dumps unreachable))).sent ∧
      x.received = (mergeFlow f.id
        (v.participants.keys.map (v.readout flows dumps unreachable))).totalReceived := by
  have hr := v.readouts flows dumps unreachable
  have hlength := h.length_timeline hf hr f.route.source hmany
  have hticks := h.ticks_timeline hf hr f.route.source
  rw [if_pos hmany] at hticks
  obtain ⟨x, hx⟩ : ∃ x, (timeline f.id (v.participants.keys.map
      (v.readout flows dumps unreachable)))[(v.corePlan flows f.route.source).samples - 1]? =
        some x :=
    ⟨_, List.getElem?_eq_getElem (by omega)⟩
  obtain ⟨-, -, hsent, hreceived⟩ := h.sample_readout dumps unreachable hf hx
  refine ⟨x, by rw [List.getLast?_eq_getElem?, hlength, hx], ?_, ?_, ?_⟩
  · have htick : (v.corePlan flows f.route.source).sampleTicks[
        (v.corePlan flows f.route.source).samples - 1]? = some x.tick.toNat := by
      rw [← hticks, List.getElem?_map, hx]
      rfl
    exact CorePlan.eq_runTicks_of_sampleTicks htick
  · rw [hsent, h.sent_eq_series? dumps unreachable hf hmany]
  · show _ = saturatingSum (receivedByCore f.id _).values
    rw [hreceived, h.values_receivedByCore hf hr]
    exact congrArg saturatingSum (List.filterMap_congr fun core hmem =>
      (h.received_eq_series? dumps unreachable hf hmany hmem).symm)

end

end Compiled.From

/-! ## Main result -/

/-- What the timeline of a flow has to be, given the dumps of its cores, if they make the records of
the given program. -/
structure FlowResult.Timed (c : Compiled) (dumps : Table CoreId CounterDump) (p : Program)
    (f : RoutedFlow) (r : FlowResult) : Prop where
  once : p.samples = 1 → r.timeline = []
  length : p.samples ≠ 1 → r.timeline.length = p.samples
  ticks : p.samples ≠ 1 → r.timeline.map (fun x => x.tick.toNat) = p.sampleTicks
  /-- A sample sums up the values of the cores in `received`, each in the record of the sample. -/
  received : ∀ k x, r.timeline[k]? = some x → ∃ ns,
    List.Forall₂ (fun core n => ∀ m, c.RecordValue dumps f.id core k .received m ↔ m = n)
      r.received.keys ns ∧ x.received = saturatingSum ns
  sent : c.Contributes dumps f.id f.route.source → ∀ k x, r.timeline[k]? = some x →
    ∀ n, c.RecordValue dumps f.id f.route.source k .sent n ↔ n = x.sent
  no_source : ¬c.Contributes dumps f.id f.route.source → ∀ x ∈ r.timeline, x.sent = 0
  last : p.samples ≠ 1 → ∃ x, r.timeline.getLast? = some x ∧ x.tick = p.runTicks ∧
    x.sent = r.sent ∧ x.received = r.totalReceived

theorem Compiled.From.timed_mergeFlow {v : ValidSpec} {flows : List PlannedFlow} {c : Compiled}
    (h : c.From v flows) (dumps : Table CoreId CounterDump) (unreachable : KeySet CoreId)
    {f : PlannedFlow} (hf : f ∈ flows) {core : CoreId} {p : Program}
    (hp : c.programs.get? core = some p) :
    (mergeFlow f.id (v.participants.keys.map (v.readout flows dumps unreachable))).Timed c dumps p
      f.toRoutedFlow := by
  have hr := v.readouts flows dumps unreachable
  obtain ⟨-, rfl⟩ := h.get?_programs.1 hp
  have hticks := h.ticks_timeline hf hr core
  have hmany : (v.corePlan flows core).assemble.samples ≠ 1 →
      1 < (v.corePlan flows core).samples := fun hne =>
    Nat.lt_of_le_of_ne (v.corePlan flows core).samples_pos (Ne.symm hne)
  refine ⟨fun hone => ?_, fun hne => h.length_timeline hf hr core (hmany hne),
    fun hne => hticks.trans (if_pos (hmany hne)), ?_, ?_, ?_,
    fun hne => h.last_timeline dumps unreachable hf (hmany hne)⟩
  · have hone : (v.corePlan flows core).samples = 1 := hone
    rw [if_neg (by omega)] at hticks
    exact List.map_eq_nil_iff.1 hticks
  · intro k x hx
    obtain ⟨hmany, hk, -, hreceived⟩ := h.sample_readout dumps unreachable hf hx
    exact ⟨_, forall₂_filterMap fun core hmem =>
      h.recordValue_sink dumps unreachable hf hmany hmem hk, hreceived⟩
  · intro hsource k x hx
    obtain ⟨hmany, hk, hsent, -⟩ := h.sample_readout dumps unreachable hf hx
    obtain ⟨y, hy, hvalue⟩ := h.recordValue_source dumps unreachable hf hmany hsource hk
    rw [hsent, hy]
    exact hvalue
  · intro hsource x hx
    obtain ⟨k, hk⟩ := List.getElem?_of_mem hx
    obtain ⟨-, -, hsent, -⟩ := h.sample_readout dumps unreachable hf hk
    rw [hsent, h.series?_source_eq_none dumps unreachable hf hsource]
    rfl

/-- Whatever the dumps hold, the timeline of every flow agrees with its totals. -/
theorem timelines_agree {s : Spec} {v : ValidSpec} {c : Compiled} (hv : s.validate = .ok v)
    (hc : compile v = .ok c) (dumps : Table CoreId CounterDump) (unreachable : KeySet CoreId) :
    (Report.ofDumps c.programs dumps unreachable).flows.keys = v.flows.keys ∧
    ∀ p ∈ c.programs.values, ∀ f ∈ v.flows.values, ∃ r,
      (Report.ofDumps c.programs dumps unreachable).flows.get? f.id = some r ∧
      r.Timed c dumps p f := by
  obtain ⟨flows, h⟩ := Compiled.from_of_compile (Spec.sound_of_validate hv).2 hc
  have hr := v.readouts flows dumps unreachable
  rw [h.ofDumps_eq dumps unreachable]
  refine ⟨h.ofReadouts_flows hr, fun p hp f' hf' => ?_⟩
  obtain ⟨core, hp⟩ := Table.mem_values.1 hp
  obtain ⟨f, hf, rfl⟩ := h.exists_planned hf'
  exact ⟨_, h.get?_ofReadouts_flows hr hf, h.timed_mergeFlow dumps unreachable hf hp⟩

/-- Both cores have four records; the second has left a dump that ends early. -/
theorem timelines_agree_twoCores :
    ∃ v c p, Spec.twoCores.validate = .ok v ∧ compile v = .ok c ∧ p ∈ c.programs.values ∧
      let dumps : Table CoreId CounterDump :=
        (c.programs.map fun _ q => q.dump (List.replicate (q.slots.length * q.samples) 7)).insert
          ⟨1⟩ ⟨⟨1⟩, [0x54, 0x43]⟩
      ∀ f ∈ v.flows.values, ∃ r, (Report.ofDumps c.programs dumps .empty).flows.get? f.id = some r ∧
        r.Timed c dumps p f ∧ r.timeline.length = 4 := by
  have hsamples : (Spec.twoCores.validate.toOption.bind fun v => (compile v).toOption.bind fun c =>
      (c.programs.get? ⟨0⟩).map (·.samples)) = some 4 := by
    decide +kernel
  obtain ⟨v, hv, hsamples⟩ := Option.bind_eq_some_iff.1 hsamples
  obtain ⟨c, hc, hsamples⟩ := Option.bind_eq_some_iff.1 hsamples
  obtain ⟨p, hp, hsamples⟩ := Option.map_eq_some_iff.1 hsamples
  have hv := Checked.toOption_eq_some.1 hv
  have hc := Checked.toOption_eq_some.1 hc
  have hp := Table.mem_values.2 ⟨_, hp⟩
  refine ⟨v, c, p, hv, hc, hp, ?_⟩
  intro dumps f hf
  obtain ⟨-, htimed⟩ := timelines_agree hv hc dumps .empty
  obtain ⟨r, hr, htimed⟩ := htimed p hp f hf
  exact ⟨r, hr, htimed, by rw [htimed.length (by omega), hsamples]⟩

end TrafficLab
