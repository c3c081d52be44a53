import TrafficLab.Proofs.Chip.Generation
import TrafficLab.Proofs.Compilation.Slots

/-!
# Counters behind the slots

A core fills the slots of its dump from its counters, by metric and by the number of a source or
sink.  A reader looks for slots by metric and flow.  Both come to the same counter, because the
slots of a plan map the flows to their numbers.

    a row fills each slot of the last record from the counter of its role       (exists_values)
    p.Maps v → the metrics read of a flow are the counters at its number        (Maps.readsFrom)
    the end of any run of a compiled program is dumped and read so              (exists_reading)
-/

namespace TrafficLab

/-- What a core has counted for the source or sink with a number. -/
def Counters.ofRole? (k : Counters) (m : Metric) (number : Nat) : Option Nat :=
  match m with
  | .sent => k.sent[number]?
  | .blocked => k.blocked[number]?
  | .received => k.received[number]?
  | .latencySum => k.latencySum[number]?
  | .latencySumSq => k.latencySumSq[number]?
  | .router _ => none

/-- The flows of the sources, or of the sinks, that a metric is counted for, by their numbers. -/
def CorePlan.numbered (p : CorePlan) (m : Metric) : List FlowId :=
  if m.ofSource then p.sources.map (·.flow) else p.sinks.map (·.flow)

/-- What a contribution has of flows is what its core counts of them, and each metric has the value
of the counter at the number of its flow. -/
structure Contribution.ReadsFrom (c : Contribution) (p : Program) (flows : List RoutedFlow)
    (k : Counters) : Prop where
  present : ∀ flow m, (c.flowMetric? p flow m).isSome = true ↔
    ∃ f ∈ flows, f.id = flow ∧ f.CountedOn p.core m
  value : ∀ flow m x, c.flowMetric? p flow m = some x → ∃ number n,
    (p.numbered m)[number]? = some flow ∧ k.ofRole? m number = some n ∧ x = UInt64.ofNat n

/-! ## Rows of counters -/

namespace CorePlan

/-- The counters fill each slot of a record made now. -/
theorem slot?_of_row {p : CorePlan} {k : Counters} {row : List Nat}
    (hrow : k.row? p.setup = some row) {i : Nat} {x : Slot} (hx : p.slots[i]? = some x) :
    ∃ n, row[i]? = some n ∧ k.slot? p.record x.metric x.role = some n := by
  have hfilled : List.Forall₂ (fun (x : Slot) n => k.slot? p.record x.metric x.role = some n)
      p.slots row := by
    have h := Checked.mapM_eq_some.1 hrow
    rw [show p.setup.counters.toList = p.slots.map fun x => (x.metric, x.role) from rfl,
      List.forall₂_map_left_iff] at h
    exact h
  obtain ⟨hi, rfl⟩ := List.getElem?_eq_some_iff.1 hx
  have hi' : i < row.length := hfilled.length_eq ▸ hi
  exact ⟨row[i], List.getElem?_eq_getElem hi', (List.forall₂_iff_get.1 hfilled).2 i hi hi'⟩

/-- A dump with a row for each earlier record is read with the current counters at the end. -/
theorem exists_values {p : CorePlan} {k : Counters} {row : List Nat}
    (hrow : k.row? p.setup = some row)
    (hrecorded : k.recorded.size = (p.samples - 1) * p.slots.length) :
    ∃ bytes, k.dump? p.setup = some bytes ∧ ∀ i x, p.slots[i]? = some x →
      ∃ n, k.slot? p.record x.metric x.role = some n ∧
        (Dump.read p.assemble ⟨p.core, bytes⟩).value? i = some (UInt64.ofNat n) := by
  let values := (k.recorded.toList ++ row).map UInt64.ofNat
  let bytes := Dump.layout p.assemble.tag (UInt32.ofNat p.slots.length) values
  have hdump : k.dump? p.setup = some bytes := by
    unfold Counters.dump? Counters.dumpValues?
    rw [hrow, size_counters_setup]
    rfl
  refine ⟨bytes, hdump, fun i x hx => ?_⟩
  obtain ⟨n, hn, hslot⟩ := slot?_of_row hrow hx
  have hplace : values[(p.samples - 1) * p.slots.length + i]? = some (UInt64.ofNat n) := by
    have hsize : k.recorded.toList.length = (p.samples - 1) * p.slots.length := hrecorded
    rw [List.getElem?_map, List.getElem?_append_right (by omega), hsize, Nat.add_sub_cancel_left,
      hn]
    rfl
  refine ⟨n, hslot, ?_⟩
  rw [Dump.value?_read (Dump.matches_layout p.assemble values)
    (List.getElem?_eq_some_iff.1 hx).1]
  exact (Dump.valueAt?_layout _ _ _ _).trans hplace

end CorePlan

/-! ## From slots to counters -/

/-- A metric of a flow is read from a slot that is for both. -/
theorem Contribution.exists_slot_of_flowMetric? {c : Contribution} {p : Program} {flow : FlowId}
    {m : Metric} {y : UInt64} (h : c.flowMetric? p flow m = some y) :
    ∃ (i : Nat) (x : Slot), p.slots[i]? = some x ∧ x.flow = some flow ∧ x.metric = m ∧
      c.value? i = some y := by
  unfold flowMetric? at h
  split at h
  · obtain ⟨i, hi, hy⟩ := Option.bind_eq_some_iff.1 h
    unfold slotOf? at hi
    obtain ⟨hlt, hfor, -⟩ := List.findIdx?_eq_some_iff_getElem.1 hi
    rw [Bool.and_eq_true, beq_iff_eq, beq_iff_eq] at hfor
    exact ⟨i, p.slots[i], List.getElem?_eq_getElem hlt, hfor.1, hfor.2, hy⟩
  · cases h

namespace CorePlan.Maps

variable {p : CorePlan} {v : ValidSpec} (h : p.Maps v)

include h

/-- The slots of a flow have its number. -/
theorem numbered_of_slot {x : Slot} (hx : x ∈ p.slots) {flow : FlowId}
    (hflow : x.flow = some flow) :
    (p.numbered x.metric)[x.role.toNat]? = some flow ∧
      ∀ k : Counters, k.slot? p.record x.metric x.role = k.ofRole? x.metric x.role.toNat := by
  unfold numbered
  cases hm : x.metric with
  | sent | blocked =>
    obtain ⟨id, hid, hplace⟩ := h.source_role x hx (by rw [hm]; rfl)
    rw [hflow] at hid
    cases hid
    exact ⟨hplace, fun _ => rfl⟩
  | received | latencySum | latencySumSq =>
    obtain ⟨id, hid, hplace⟩ := h.sink_role x hx (by rw [hm]; rfl)
    rw [hflow] at hid
    cases hid
    exact ⟨hplace, fun _ => rfl⟩
  | router c =>
    rw [(h.router_role x hx c hm).1] at hflow
    cases hflow

/-- The flows of slots are flows of the specification. -/
theorem exists_flow_of_slot {x : Slot} (hx : x ∈ p.slots) {flow : FlowId}
    (hflow : x.flow = some flow) : ∃ f ∈ v.flows.values, f.id = flow := by
  have hmem := List.mem_of_getElem? (h.numbered_of_slot hx hflow).1
  unfold numbered at hmem
  split at hmem
  · obtain ⟨f, hf, hid, -⟩ := (h.mem_sources flow).1 hmem
    exact ⟨f, hf, hid⟩
  · obtain ⟨f, hf, hid, -⟩ := (h.mem_sinks flow).1 hmem
    exact ⟨f, hf, hid⟩

/-- A contribution that has in each slot the counter of the slot's role has of each flow the
counters of the flow. -/
theorem readsFrom {c : Contribution} {k : Counters}
    (hvalues : ∀ i x, p.slots[i]? = some x → ∃ n, k.slot? p.record x.metric x.role = some n ∧
      c.value? i = some (UInt64.ofNat n)) :
    c.ReadsFrom p.assemble v.flows.values k := by
  have hwhole : ∀ flow, c.hasFlow p.assemble flow = true := fun flow =>
    Dump.hasFlow_eq_true.2 fun i x hx _ => by
      obtain ⟨n, -, hvalue⟩ := hvalues i x hx
      exact Option.isSome_of_eq_some hvalue
  refine ⟨fun flow m => ⟨fun hsome => ?_, ?_⟩, fun flow m y hy => ?_⟩
  · obtain ⟨y, hy⟩ := Option.isSome_iff_exists.1 hsome
    obtain ⟨i, x, hx, hflow, rfl, -⟩ := Contribution.exists_slot_of_flowMetric? hy
    have hmem : x ∈ p.slots := List.mem_of_getElem? hx
    obtain ⟨f, hf, rfl⟩ := h.exists_flow_of_slot hmem hflow
    exact ⟨f, hf, rfl, (h.present f hf x.metric).1 ⟨x, hmem, hflow, rfl⟩⟩
  · rintro ⟨f, hf, rfl, hcounted⟩
    obtain ⟨x, hmem, hflow, rfl⟩ := (h.present f hf m).2 hcounted
    obtain ⟨i, hx⟩ := List.getElem?_of_mem hmem
    have hslot : Contribution.slotOf? p.assemble f.id x.metric = some i :=
      Dump.slotOf?_eq (h.once.imp fun hne => .inr hne) hx hflow rfl
    obtain ⟨n, -, hvalue⟩ := hvalues i x hx
    unfold Contribution.flowMetric?
    rw [hwhole, if_pos rfl, hslot, Option.bind_some, hvalue]
    rfl
  · obtain ⟨i, x, hx, hflow, rfl, hvalue⟩ := Contribution.exists_slot_of_flowMetric? hy
    obtain ⟨n, hslot, hn⟩ := hvalues i x hx
    obtain ⟨hnumber, hrole⟩ := h.numbered_of_slot (List.mem_of_getElem? hx) hflow
    rw [hvalue] at hn
    exact ⟨x.role.toNat, n, hnumber, (hrole k).symm.trans hslot, Option.some_inj.1 hn⟩

end CorePlan.Maps

/-! ## Runs of compiled programs -/

/-- However a core with a compiled program runs, and with which others, its dump is read flow by
flow from the core's own counters. -/
theorem Compiled.From.exists_reading {v : ValidSpec} {flows : List PlannedFlow} {c : Compiled}
    (h : c.From v flows) (core : CoreId) {setups : List Setup} {d : Nat}
    (hs : setups[d]? = some (v.corePlan flows core).setup) (capacity : Nat) (network : Network)
    (seed : UInt64) :
    ∃ k bytes, (simulate capacity network seed setups)[d]? = some k ∧
      k.dump? (v.corePlan flows core).setup = some bytes ∧
      (Dump.read (v.corePlan flows core).assemble ⟨core, bytes⟩).ReadsFrom
        (v.corePlan flows core).assemble v.flows.values k := by
  have hfit := (h.playable core).countersFit
  obtain ⟨k, hk, hgenerated⟩ := Run.exists_generated hs (fun _ => hfit) capacity network seed
  obtain ⟨k', hk', hvalues⟩ := exists_dumpValues hs hfit capacity network seed
  rw [hk] at hk'
  cases hk'
  obtain ⟨row, hrow, -⟩ := Option.map_eq_some_iff.1 hvalues
  have hrecorded : k.recorded.size =
      ((v.corePlan flows core).samples - 1) * (v.corePlan flows core).slots.length := by
    have hlength := h.length_rowTimes core
    unfold Setup.rowTimes at hlength
    rw [List.length_append, List.length_singleton] at hlength
    rw [hgenerated.size, CorePlan.size_counters_setup, ← hlength, Nat.add_sub_cancel]
  obtain ⟨bytes, hdump, hread⟩ := CorePlan.exists_values hrow hrecorded
  exact ⟨k, bytes, hk, hdump, (h.valid.corePlan_maps h.roles h.routed core).readsFrom hread⟩

/-! ## Main result -/

/-- When the roles of a valid specification have been allotted, every core has a slot for exactly
what it counts, with the number of the flow among its sources or sinks; what a program's dump is
read for a flow is the counter with that number.  Roles cannot be allotted when some core has more
than 255 sources or sinks, and only then. -/
theorem slots_map_flows_to_roles {s : Spec} {v : ValidSpec} (hv : s.validate = .ok v) :
    (Layout.check .empty v.flows.values = .ok () → ∀ (planned : List PlannedFlow) (core : CoreId),
      planned.map (·.toRoutedFlow) = v.flows.values → (v.corePlan planned core).Maps v) ∧
    ((∃ core sources sinks,
        Layout.check .empty v.flows.values = .error (.tooManyEndpoints core sources sinks)) ↔
      ∃ core, 255 < (v.flows.values.filter (·.sentBy core)).length ∨
        255 < (v.flows.values.filter (·.receivedBy core)).length) ∧
    ∀ c, compile v = .ok c → ∀ p ∈ c.programs.values, p.Maps v ∧
      ∃ setup, Setup.play p.core p.bytes = .ok setup ∧
        ∀ (setups : List Setup) (d : Nat), setups[d]? = some setup →
          ∀ (capacity : Nat) (network : Network) (seed : UInt64),
            ∃ k bytes, (simulate capacity network seed setups)[d]? = some k ∧
              k.dump? setup = some bytes ∧
              (Dump.read p ⟨p.core, bytes⟩).ReadsFrom p v.flows.values k := by
  have hsound := (Spec.sound_of_validate hv).2
  have hsinks : ∀ f ∈ v.flows.values, f.route.sinks.Nodup := fun f hf =>
    (hsound.sound_of_mem hf).placed.sinks_nodup
  refine ⟨fun hcheck planned core hplanned => hsound.corePlan_maps hcheck hplanned core,
    Layout.exists_tooManyEndpoints_iff hsinks, fun c hc p hp => ?_⟩
  obtain ⟨flows, h⟩ := Compiled.from_of_compile hsound hc
  obtain ⟨core, -, rfl⟩ := h.mem_programs.1 hp
  refine ⟨hsound.corePlan_maps h.roles h.routed core, _,
    CorePlan.play_assemble (h.playable core), fun setups d hs capacity network seed => ?_⟩
  exact h.exists_reading core hs capacity network seed

/-- The second of two cores sends a flow to both of them, and receives another. -/
theorem slots_map_flows_to_roles_twoCores :
    ∃ v c p, Spec.twoCores.validate = .ok v ∧ compile v = .ok c ∧ p ∈ c.programs.values ∧
      p.sources.length = 1 ∧ p.sinks.length = 2 ∧ p.Maps v ∧
      (¬∃ core, 255 < (v.flows.values.filter (·.sentBy core)).length ∨
        255 < (v.flows.values.filter (·.receivedBy core)).length) ∧
      ∃ setup k bytes, Setup.play p.core p.bytes = .ok setup ∧
        (simulate 2 ⟨.never, 1, 0⟩ 0 [setup])[0]? = some k ∧ k.dump? setup = some bytes ∧
        (Dump.read p ⟨p.core, bytes⟩).ReadsFrom p v.flows.values k := by
  obtain ⟨v, c, hv, hc, hshape⟩ := Spec.exists_of_shape? Spec.twoCores_shape
  have hsecond : ((⟨1⟩, 1, 2) : CoreId × Nat × Nat) ∈
      c.programs.values.map fun p => (p.core, p.sources.length, p.sinks.length) := by
    rw [hshape]
    decide
  obtain ⟨p, hp, hsizes⟩ := List.mem_map.1 hsecond
  obtain ⟨-, hlimits, hprograms⟩ := slots_map_flows_to_roles hv
  obtain ⟨hmaps, setup, hplay, hruns⟩ := hprograms c hc p hp
  obtain ⟨k, bytes, hk, hdump, hreads⟩ := hruns [setup] 0 rfl 2 ⟨.never, 1, 0⟩ 0
  refine ⟨v, c, p, hv, hc, hp, congrArg (·.2.1) hsizes, congrArg (·.2.2) hsizes, hmaps,
    hlimits.not.1 ?_, setup, k, bytes, hplay, hk, hdump, hreads⟩
  rintro ⟨core, sources, sinks, hfull⟩
  obtain ⟨keyed, flows, hstages⟩ := compile_eq_ok.1 hc
  rw [hstages.roles] at hfull
  cases hfull

end TrafficLab
