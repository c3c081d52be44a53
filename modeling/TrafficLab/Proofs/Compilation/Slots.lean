import TrafficLab.Proofs.Compilation
import TrafficLab.Proofs.Program

/-!
# Where the slots of a core stand

What the slots of a core are for and in which order they come, said of the flows alone: which
metrics of a flow are counted on which core, and which roles a core has too many of.

    (slots core record flows).Pairwise InOrder                             (pairwise_inOrder)
    flow f has a slot for m ↔ f.CountedOn core m                           (exists_slot_iff)
    check .empty flows = .ok () ↔ no core has more than 255 sources or sinks   (check_eq_ok_iff)
    check .empty flows = .ok () → the roles and slots of each core are a SlotMap     (slotMap)
-/

namespace TrafficLab

/-- What a core counts of a flow. -/
def RoutedFlow.CountedOn (f : RoutedFlow) (core : CoreId) : Metric → Prop
  | .sent | .blocked => f.route.source = core
  | .received => core ∈ f.route.sinks
  | .latencySum | .latencySumSq => core ∈ f.route.sinks ∧ f.payload = .withPayload
  | .router _ => False

namespace Layout

/-- One slot may stand before another.  The slots of flows come in the order of the flows, and after
them router counters in the order of their bits. -/
def InOrder (s t : Slot) : Prop :=
  match s.flow, t.flow with
  | some f, some g => f.val ≤ g.val
  | some _, none => True
  | none, some _ => False
  | none, none => ∃ c d : RouterCounter,
    s.metric = .router c ∧ t.metric = .router d ∧ c.index < d.index

/-- The sources, sinks and slots of a core, as the flows need them. -/
structure SlotMap (flows : List RoutedFlow) (core : CoreId) (record : CounterSet)
    (sources sinks : List FlowId) (slots : List Slot) : Prop where
  sources_ascending : sources.Pairwise (·.val < ·.val)
  sinks_ascending : sinks.Pairwise (·.val < ·.val)
  length_sources : sources.length ≤ 255
  length_sinks : sinks.length ≤ 255
  mem_sources : ∀ id, id ∈ sources ↔ ∃ f ∈ flows, f.id = id ∧ f.route.source = core
  mem_sinks : ∀ id, id ∈ sinks ↔ ∃ f ∈ flows, f.id = id ∧ core ∈ f.route.sinks
  /-- The role of a slot is the place of its flow among the sources, -/
  source_role : ∀ x ∈ slots, x.metric.ofSource = true →
    ∃ id, x.flow = some id ∧ sources[x.role.toNat]? = some id
  /-- or among the sinks. -/
  sink_role : ∀ x ∈ slots, x.metric.ofSink = true →
    ∃ id, x.flow = some id ∧ sinks[x.role.toNat]? = some id
  router_role : ∀ x ∈ slots, ∀ c, x.metric = .router c → x.flow = none ∧ x.role = 0
  once : slots.Pairwise fun x y => x.flow ≠ y.flow ∨ x.metric ≠ y.metric
  present : ∀ f ∈ flows, ∀ m,
    (∃ x ∈ slots, x.flow = some f.id ∧ x.metric = m) ↔ f.CountedOn core m
  router_present : ∀ c, (∃ x ∈ slots, x.metric = .router c) ↔ record.contains c = true
  in_order : slots.Pairwise InOrder

/-! ## The order of slots -/

theorem inOrder_of_flow_eq {s t : Slot} {id : FlowId} (hs : s.flow = some id)
    (ht : t.flow = some id) : InOrder s t := by
  unfold InOrder
  rw [hs, ht]
  exact UInt32.le_refl id.val

theorem pairwise_inOrder_flowSlots {core : CoreId} {n m : Nat} {flows : List RoutedFlow}
    (h : flows.Pairwise fun f g => f.id.val < g.id.val) :
    (flowSlots core n m flows).Pairwise InOrder := by
  induction flows generalizing n m with
  | nil => exact .nil
  | cons f rest ih =>
    obtain ⟨hlater, hrest⟩ := List.pairwise_cons.1 h
    unfold flowSlots
    refine List.pairwise_append.2 ⟨?_, ih hrest, fun s hs t ht => ?_⟩
    · exact List.pairwise_of_forall_mem_list fun s hs t ht =>
        inOrder_of_flow_eq (flow_eq_of_mem hs) (flow_eq_of_mem ht)
    · obtain ⟨g, hg, htflow⟩ := exists_flow_of_mem ht
      unfold InOrder
      rw [flow_eq_of_mem hs, htflow]
      exact UInt32.le_of_lt (hlater g hg)

theorem pairwise_inOrder_routerSlots (record : CounterSet) :
    (routerSlots record).Pairwise InOrder := by
  have hall : RouterCounter.all.Pairwise fun c d => c.index < d.index := by decide
  unfold routerSlots CounterSet.toList
  rw [List.pairwise_map]
  exact (hall.filter _).imp fun {c d} hlt => ⟨c, d, rfl, rfl, hlt⟩

theorem pairwise_inOrder {core : CoreId} {record : CounterSet} {flows : List RoutedFlow}
    (h : flows.Pairwise fun f g => f.id.val < g.id.val) :
    (slots core record flows).Pairwise InOrder := by
  refine List.pairwise_append.2
    ⟨pairwise_inOrder_flowSlots h, pairwise_inOrder_routerSlots record, fun s hs t ht => ?_⟩
  obtain ⟨f, -, hsflow⟩ := exists_flow_of_mem hs
  unfold InOrder
  rw [hsflow, (mem_routerSlots ht).1]
  trivial

/-- Router counters are told apart by their order, and the slots of flows by their metrics. -/
theorem once_of_apart {s t : Slot} (hapart : Apart s t) (horder : InOrder s t) :
    s.flow ≠ t.flow ∨ s.metric ≠ t.metric := by
  rcases hapart with hnone | hdiffer
  · by_cases ht : t.flow = none
    · unfold InOrder at horder
      rw [hnone, ht] at horder
      obtain ⟨c, d, hc, hd, hlt⟩ := horder
      refine .inr fun e => ?_
      rw [hc, hd] at e
      cases e
      exact Nat.lt_irrefl _ hlt
    · exact .inl fun e => ht (e.symm.trans hnone)
  · exact hdiffer

/-! ## Which slots there are -/

theorem countedOn_of_source {f : RoutedFlow} {core : CoreId} {m : Metric}
    (hm : m.ofSource = true) : f.CountedOn core m ↔ f.sentBy core = true := by
  unfold RoutedFlow.sentBy
  rw [beq_iff_eq]
  cases m with
  | sent | blocked => exact Iff.rfl
  | _ => cases hm

theorem countedOn_of_sink {f : RoutedFlow} {core : CoreId} {m : Metric} (hm : m.ofSink = true) :
    f.CountedOn core m ↔ f.receivedBy core = true ∧ sinkMetric f.payload m = true := by
  have hpayload : f.payload.hasPayload = true ↔ f.payload = .withPayload := by
    cases f.payload <;> simp [PayloadClass.hasPayload]
  unfold RoutedFlow.receivedBy
  rw [List.contains_iff_mem]
  cases m with
  | received => simp [RoutedFlow.CountedOn, sinkMetric]
  | latencySum | latencySumSq => simp [RoutedFlow.CountedOn, sinkMetric, hpayload]
  | _ => cases hm

section
variable {core : CoreId} {record : CounterSet} {flows : List RoutedFlow}

/-- A core has the slots for what it counts of a flow, and no others of that flow. -/
theorem exists_slot_iff (hids : (flows.map (·.id)).Nodup) {f : RoutedFlow} (hf : f ∈ flows)
    (m : Metric) :
    (∃ x ∈ slots core record flows, x.flow = some f.id ∧ x.metric = m) ↔ f.CountedOn core m := by
  have heq : ∀ {role : RoutedFlow → Bool} {i : Nat} {g : RoutedFlow},
      (flows.filter role)[i]? = some g → g.id = f.id → g = f ∧ role f = true := by
    intro role i g hg hid
    obtain ⟨hmem, hrole⟩ := List.mem_filter.1 (List.mem_of_getElem? hg)
    obtain rfl := List.inj_on_of_nodup_map hids hmem hf hid
    exact ⟨rfl, hrole⟩
  constructor
  · rintro ⟨x, hx, hflow, rfl⟩
    rcases List.mem_append.1 hx with hx | hx
    · rcases mem_flowSlots.1 hx with ⟨i, g, hg, hx⟩ | ⟨i, g, hg, hx⟩
      · obtain ⟨hsource, hslot⟩ := mem_sourceSlots.1 hx
        rw [hslot] at hflow
        exact (countedOn_of_source hsource).2 (heq hg (Option.some_inj.1 hflow)).2
      · obtain ⟨hsink, hslot⟩ := mem_sinkSlots.1 hx
        rw [hslot] at hflow
        obtain ⟨rfl, hreceived⟩ := heq hg (Option.some_inj.1 hflow)
        exact (countedOn_of_sink (ofSink_of_sinkMetric hsink)).2 ⟨hreceived, hsink⟩
    · rw [(mem_routerSlots hx).1] at hflow
      cases hflow
  · intro hcounted
    have hflowSlot : ∃ x ∈ flowSlots core 0 0 flows, x.flow = some f.id ∧ x.metric = m := by
      by_cases hsource : m.ofSource = true
      · exact exists_sourceSlot hf ((countedOn_of_source hsource).1 hcounted) hsource
      · have hsink : m.ofSink = true := by
          cases m with
          | router c => exact hcounted.elim
          | sent | blocked => exact absurd rfl hsource
          | _ => rfl
        obtain ⟨hreceived, hmetric⟩ := (countedOn_of_sink hsink).1 hcounted
        exact exists_sinkSlot hf hreceived hmetric
    obtain ⟨x, hx, hfor⟩ := hflowSlot
    exact ⟨x, List.mem_append_left _ hx, hfor⟩

/-- A core has slots for the router counters that are recorded. -/
theorem exists_routerSlot_iff (c : RouterCounter) :
    (∃ x ∈ slots core record flows, x.metric = .router c) ↔ record.contains c = true := by
  rw [← CounterSet.mem_toList]
  constructor
  · rintro ⟨x, hx, hmetric⟩
    rcases List.mem_append.1 hx with hx | hx
    · rcases mem_flowSlots.1 hx with ⟨_, _, _, hx⟩ | ⟨_, _, _, hx⟩
      · have hsource := (mem_sourceSlots.1 hx).1
        rw [hmetric] at hsource
        cases hsource
      · have hsink := ofSink_of_sinkMetric (mem_sinkSlots.1 hx).1
        rw [hmetric] at hsink
        cases hsink
    · obtain ⟨d, hd, rfl⟩ := List.mem_map.1 hx
      cases hmetric
      exact hd
  · intro hc
    exact ⟨_, List.mem_append_right _ (List.mem_map_of_mem hc), rfl⟩

/-! ## The map of a core -/

theorem ascending_ids (hflows : flows.Pairwise fun f g => f.id.val < g.id.val)
    (role : RoutedFlow → Bool) :
    ((flows.filter role).map (·.id)).Pairwise (·.val < ·.val) :=
  List.pairwise_map.2 (hflows.filter role)

theorem mem_ids {role : RoutedFlow → Bool} {id : FlowId} :
    id ∈ (flows.filter role).map (·.id) ↔ ∃ f ∈ flows, f.id = id ∧ role f = true := by
  simp only [List.mem_map, List.mem_filter]
  constructor
  · rintro ⟨f, ⟨hf, hrole⟩, hid⟩
    exact ⟨f, hf, hid, hrole⟩
  · rintro ⟨f, hf, hid, hrole⟩
    exact ⟨f, ⟨hf, hrole⟩, hid⟩

/-- If the roles of every core have numbers, then so has every slot. -/
theorem slotMap (hflows : flows.Pairwise fun f g => f.id.val < g.id.val)
    (hcheck : check .empty flows = .ok ()) (core : CoreId) (record : CounterSet) :
    SlotMap flows core record ((flows.filter (·.sentBy core)).map (·.id))
      ((flows.filter (·.receivedBy core)).map (·.id)) (slots core record flows) := by
  have hids : (flows.map (·.id)).Nodup := by
    refine List.pairwise_map.2 (hflows.imp fun {f g} hlt e => ?_)
    rw [e] at hlt
    exact UInt32.lt_irrefl _ hlt
  have horder : (slots core record flows).Pairwise InOrder := pairwise_inOrder hflows
  refine
    { sources_ascending := ascending_ids hflows _
      sinks_ascending := ascending_ids hflows _
      length_sources := by
        rw [List.length_map]
        exact sources_le hcheck core
      length_sinks := by
        rw [List.length_map]
        exact sinks_le hcheck core
      mem_sources := fun id => by simp only [mem_ids, RoutedFlow.sentBy, beq_iff_eq]
      mem_sinks := fun id => by simp only [mem_ids, RoutedFlow.receivedBy, List.contains_iff_mem]
      source_role := fun x hx hsource => ?_
      sink_role := fun x hx hsink => ?_
      router_role := fun x hx c hc => ?_
      once := (pairwise_slots hids).imp₂ (fun _ _ => once_of_apart) horder
      present := fun f hf m => exists_slot_iff hids hf m
      router_present := exists_routerSlot_iff
      in_order := horder }
  · rcases role_of_mem_slots hcheck hx with ⟨-, f, hf, hflow⟩ | ⟨hsink, -⟩ | ⟨-, -, c, hc⟩
    · exact ⟨f.id, hflow, by rw [List.getElem?_map, hf]; rfl⟩
    · rw [not_ofSource_of_ofSink hsink] at hsource
      cases hsource
    · rw [hc] at hsource
      cases hsource
  · rcases role_of_mem_slots hcheck hx with ⟨hsource, -⟩ | ⟨-, f, hf, hflow⟩ | ⟨-, -, c, hc⟩
    · rw [not_ofSource_of_ofSink hsink] at hsource
      cases hsource
    · exact ⟨f.id, hflow, by rw [List.getElem?_map, hf]; rfl⟩
    · rw [hc] at hsink
      cases hsink
  · rcases role_of_mem_slots hcheck hx with ⟨hsource, -⟩ | ⟨hsink, -⟩ | ⟨hflow, hrole, -⟩
    · rw [hc] at hsource
      cases hsource
    · rw [hc] at hsink
      cases hsink
    · exact ⟨hflow, hrole⟩

end

/-! ## The limits -/

/-- The check succeeds if the roles that it has counted, and those of the flows still to come, are
few enough on every core. -/
theorem check_of_roles_le {loads : Table CoreId Load} {flows : List RoutedFlow}
    (hsinks : ∀ f ∈ flows, f.route.sinks.Nodup)
    (h : ∀ core,
      (loadOf loads core).sources + (flows.filter (·.sentBy core)).length ≤ maxRoles ∧
      (loadOf loads core).sinks + (flows.filter (·.receivedBy core)).length ≤ maxRoles) :
    check loads flows = .ok () := by
  induction flows generalizing loads with
  | nil => rfl
  | cons f rest ih =>
    -- counting the first flow moves its roles from one side to the other
    have hstep : ∀ core,
        (loadOf (addFlow loads f) core).sources + (rest.filter (·.sentBy core)).length ≤ maxRoles ∧
        (loadOf (addFlow loads f) core).sinks + (rest.filter (·.receivedBy core)).length
          ≤ maxRoles := by
      intro core
      have hcore := h core
      have hcount : f.route.sinks.count core = if f.receivedBy core then 1 else 0 := by
        rw [(hsinks f (by simp)).count]
        unfold RoutedFlow.receivedBy
        simp only [List.contains_iff_mem]
      rw [List.filter_cons, List.filter_cons] at hcore
      rw [loadOf_addFlow, hcount]
      by_cases hs : f.sentBy core = true <;> by_cases hr : f.receivedBy core = true <;>
        simp only [hs, hr, if_true, if_false, Bool.false_eq_true, List.length_cons]
          at hcore ⊢ <;>
        omega
    have hnone : (f.route.cores.find? fun core => overloaded (loadOf (addFlow loads f) core)) =
        none := by
      refine List.find?_eq_none.2 fun core _ => Bool.eq_false_iff.1 (not_overloaded.2 ?_)
      have hcore := hstep core
      omega
    unfold check
    simp only [hnone]
    exact ih (fun g hg => hsinks g (List.mem_cons_of_mem f hg)) hstep

theorem check_eq_ok_iff {flows : List RoutedFlow} (hsinks : ∀ f ∈ flows, f.route.sinks.Nodup) :
    check .empty flows = .ok () ↔
      ∀ core, (flows.filter (·.sentBy core)).length ≤ maxRoles ∧
        (flows.filter (·.receivedBy core)).length ≤ maxRoles := by
  constructor
  · exact fun h core => ⟨sources_le h core, sinks_le h core⟩
  · intro h
    refine check_of_roles_le hsinks fun core => ?_
    rw [show loadOf .empty core = ⟨0, 0⟩ from rfl, Nat.zero_add, Nat.zero_add]
    exact h core

/-- A check that fails names a core. -/
theorem exists_of_check_eq_error {loads : Table CoreId Load} {flows : List RoutedFlow}
    {e : CompileError} (h : check loads flows = .error e) :
    ∃ core sources sinks, e = .tooManyEndpoints core sources sinks := by
  induction flows generalizing loads with
  | nil => cases h
  | cons f rest ih =>
    unfold check at h
    simp only at h
    split at h
    · next core _ =>
      cases h
      exact ⟨core, _, _, rfl⟩
    · exact ih h

/-- Some core has too many roles exactly if the check fails for such a reason. -/
theorem exists_tooManyEndpoints_iff {flows : List RoutedFlow}
    (hsinks : ∀ f ∈ flows, f.route.sinks.Nodup) :
    (∃ core sources sinks, check .empty flows = .error (.tooManyEndpoints core sources sinks)) ↔
      ∃ core, maxRoles < (flows.filter (·.sentBy core)).length ∨
        maxRoles < (flows.filter (·.receivedBy core)).length := by
  constructor
  · rintro ⟨core, sources, sinks, h⟩
    by_contra hno
    push Not at hno
    rw [(check_eq_ok_iff hsinks).2 hno] at h
    cases h
  · rintro ⟨core, hmany⟩
    cases hcheck : check .empty flows with
    | ok u =>
      have hfew := (check_eq_ok_iff hsinks).1 hcheck core
      omega
    | error e =>
      obtain ⟨c, sources, sinks, rfl⟩ := exists_of_check_eq_error hcheck
      exact ⟨c, sources, sinks, rfl⟩

end Layout

/-! ## Plans -/

/-- The roles and slots of a plan are as the flows of a specification need them. -/
def CorePlan.Maps (p : CorePlan) (v : ValidSpec) : Prop :=
  Layout.SlotMap v.flows.values p.core v.spec.record (p.sources.map (·.flow))
    (p.sinks.map (·.flow)) p.slots

/-- Every plan of a specification whose cores have room for their roles. -/
theorem ValidSpec.Sound.corePlan_maps {v : ValidSpec} (h : v.Sound)
    (hcheck : Layout.check .empty v.flows.values = .ok ()) {planned : List PlannedFlow}
    (hplanned : planned.map (·.toRoutedFlow) = v.flows.values) (core : CoreId) :
    (v.corePlan planned core).Maps v := by
  have hids : ∀ role : RoutedFlow → Bool,
      (planned.filter fun f => role f.toRoutedFlow).map (·.id) =
        (v.flows.values.filter role).map (·.id) := by
    intro role
    rw [← hplanned, List.filter_map, List.map_map]
    rfl
  have hmap := Layout.slotMap h.ascending hcheck core v.spec.record
  rw [← hids, ← hids] at hmap
  unfold CorePlan.Maps ValidSpec.corePlan Compilation.corePlan
  simp only [List.map_map, hplanned]
  exact hmap

end TrafficLab
