import TrafficLab.Compilation.Layout
import TrafficLab.Proofs.Table

/-!
# Layouts: every slot belongs to a role

The slots of a core list the metrics of its sources and sinks, each under the number that the
source or sink has on the core; no metric of a flow is listed twice.  A core that passes the check
has few enough roles for their numbers to fit in a byte.

    a slot of a flow on a core ↔ a metric of a numbered source or sink of it     (mem_flowSlots)
    check ok → (flows.filter (sentBy core)).length ≤ 255                        (sources_le)
    check ok → a slot's role is the number of its flow among the sources, or sinks
                                                                        (role_of_mem_slots)
-/

namespace TrafficLab.Layout

/-! ## Numbered roles -/

/-- A slot is one of those, by number, of the flows in which a core has a certain role.  The numbers
begin at `n`. -/
def Numbered (role : RoutedFlow → Bool) (slots : RoutedFlow → Nat → List Slot) (n : Nat)
    (flows : List RoutedFlow) (slot : Slot) : Prop :=
  ∃ i f, (flows.filter role)[i]? = some f ∧ slot ∈ slots f (n + i)

theorem numbered_cons {role : RoutedFlow → Bool} {slots : RoutedFlow → Nat → List Slot} {n : Nat}
    {f : RoutedFlow} {rest : List RoutedFlow} {slot : Slot} :
    Numbered role slots n (f :: rest) slot ↔
      (role f = true ∧ slot ∈ slots f n) ∨
      Numbered role slots (if role f then n + 1 else n) rest slot := by
  unfold Numbered
  by_cases hf : role f = true
  · rw [List.filter_cons_of_pos hf, if_pos hf]
    constructor
    · rintro ⟨_ | i, g, hg, hslot⟩
      · cases hg
        exact .inl ⟨hf, hslot⟩
      · refine .inr ⟨i, g, hg, ?_⟩
        rwa [Nat.add_right_comm]
    · rintro (⟨-, hslot⟩ | ⟨i, g, hg, hslot⟩)
      · exact ⟨0, f, rfl, hslot⟩
      · refine ⟨i + 1, g, hg, ?_⟩
        rwa [Nat.add_right_comm] at hslot
  · rw [List.filter_cons_of_neg hf, if_neg hf]
    simp [hf]

/-- A slot is for the source that has a number among the sources of a core, counted from `n`. -/
def OfSource (core : CoreId) : Nat → List RoutedFlow → Slot → Prop :=
  Numbered (·.sentBy core) fun f i => sourceSlots f.id i

/-- A slot is for the sink that has a number among the sinks of a core, counted from `n`. -/
def OfSink (core : CoreId) : Nat → List RoutedFlow → Slot → Prop :=
  Numbered (·.receivedBy core) fun f i => sinkSlots f.id i f.payload

/-- The slots of flows are those of their numbered sources and sinks. -/
theorem mem_flowSlots {core : CoreId} {n m : Nat} {flows : List RoutedFlow} {slot : Slot} :
    slot ∈ flowSlots core n m flows ↔ OfSource core n flows slot ∨ OfSink core m flows slot := by
  induction flows generalizing n m with
  | nil => simp [flowSlots, OfSource, OfSink, Numbered]
  | cons f rest ih =>
    unfold flowSlots
    rw [List.mem_append, List.mem_append, ih]
    unfold OfSource OfSink
    rw [numbered_cons, numbered_cons]
    have hsource : slot ∈ (if f.sentBy core then sourceSlots f.id n else []) ↔
        f.sentBy core = true ∧ slot ∈ sourceSlots f.id n := by
      split <;> simp [*]
    have hsink : slot ∈ (if f.receivedBy core then sinkSlots f.id m f.payload else []) ↔
        f.receivedBy core = true ∧ slot ∈ sinkSlots f.id m f.payload := by
      split <;> simp [*]
    rw [hsource, hsink]
    constructor
    · rintro ((h | h) | h | h) <;> simp [h]
    · rintro ((h | h) | h | h) <;> simp [h]

theorem mem_sourceSlots {flow : FlowId} {n : Nat} {slot : Slot} :
    slot ∈ sourceSlots flow n ↔
      slot.metric.ofSource = true ∧ slot = ⟨some flow, slot.metric, UInt8.ofNat n⟩ := by
  unfold sourceSlots
  rw [List.mem_map]
  constructor
  · rintro ⟨m, hm, rfl⟩
    refine ⟨?_, rfl⟩
    rcases List.mem_cons.1 hm with rfl | hm
    · rfl
    · rw [List.mem_singleton.1 hm]
      rfl
  · rintro ⟨hm, hslot⟩
    refine ⟨slot.metric, ?_, hslot.symm⟩
    revert hm
    cases slot.metric <;> simp [Metric.ofSource]

/-- The metrics of a sink: latencies are summed up only where packets carry the time. -/
def sinkMetric (payload : PayloadClass) (m : Metric) : Bool :=
  m == .received || (payload.hasPayload && (m == .latencySum || m == .latencySumSq))

theorem mem_sinkSlots {flow : FlowId} {n : Nat} {payload : PayloadClass} {slot : Slot} :
    slot ∈ sinkSlots flow n payload ↔
      sinkMetric payload slot.metric = true ∧
        slot = ⟨some flow, slot.metric, UInt8.ofNat n⟩ := by
  have hmetrics : ∀ m, m ∈ (if payload.hasPayload then
      [Metric.received, .latencySum, .latencySumSq] else [.received]) ↔
      sinkMetric payload m = true := by
    intro m
    unfold sinkMetric
    cases payload <;> cases m <;> simp [PayloadClass.hasPayload]
  unfold sinkSlots
  rw [List.mem_map]
  constructor
  · rintro ⟨m, hm, rfl⟩
    exact ⟨(hmetrics m).1 hm, rfl⟩
  · rintro ⟨hm, hslot⟩
    exact ⟨slot.metric, (hmetrics _).2 hm, hslot.symm⟩

theorem ofSink_of_sinkMetric {payload : PayloadClass} {m : Metric}
    (h : sinkMetric payload m = true) : m.ofSink = true := by
  revert h
  unfold sinkMetric
  cases m <;> simp [Metric.ofSink]

theorem not_ofSource_of_ofSink {m : Metric} (h : m.ofSink = true) : m.ofSource = false := by
  revert h
  cases m <;> simp [Metric.ofSink, Metric.ofSource]

theorem mem_routerSlots {record : CounterSet} {slot : Slot} (h : slot ∈ routerSlots record) :
    slot.flow = none ∧ ∃ c, slot.metric = .router c := by
  obtain ⟨c, -, rfl⟩ := List.mem_map.1 h
  exact ⟨rfl, c, rfl⟩

/-- The flow of a slot is one of the flows. -/
theorem exists_flow_of_mem {core : CoreId} {n m : Nat} {flows : List RoutedFlow} {slot : Slot}
    (h : slot ∈ flowSlots core n m flows) : ∃ f ∈ flows, slot.flow = some f.id := by
  rcases mem_flowSlots.1 h with ⟨i, f, hf, hslot⟩ | ⟨i, f, hf, hslot⟩
  · refine ⟨f, (List.mem_filter.1 (List.mem_of_getElem? hf)).1, ?_⟩
    rw [(mem_sourceSlots.1 hslot).2]
  · refine ⟨f, (List.mem_filter.1 (List.mem_of_getElem? hf)).1, ?_⟩
    rw [(mem_sinkSlots.1 hslot).2]

/-- The slots of one flow. -/
theorem flow_eq_of_mem {core : CoreId} {n m : Nat} {f : RoutedFlow} {slot : Slot}
    (h : slot ∈ (if f.sentBy core then sourceSlots f.id n else [])
      ++ (if f.receivedBy core then sinkSlots f.id m f.payload else [])) :
    slot.flow = some f.id := by
  rcases List.mem_append.1 h with h | h
  · split at h
    · rw [(mem_sourceSlots.1 h).2]
    · simp at h
  · split at h
    · rw [(mem_sinkSlots.1 h).2]
    · simp at h

/-- A source has a slot for each metric of sources. -/
theorem exists_sourceSlot {core : CoreId} {n k : Nat} {flows : List RoutedFlow} {f : RoutedFlow}
    (hf : f ∈ flows) (hs : f.sentBy core = true) {m : Metric} (hm : m.ofSource = true) :
    ∃ slot ∈ flowSlots core n k flows, slot.flow = some f.id ∧ slot.metric = m := by
  have hmem : f ∈ flows.filter (·.sentBy core) := List.mem_filter.2 ⟨hf, hs⟩
  obtain ⟨i, hi⟩ := List.getElem?_of_mem hmem
  refine ⟨⟨some f.id, m, UInt8.ofNat (n + i)⟩, mem_flowSlots.2 (.inl ⟨i, f, hi, ?_⟩), rfl, rfl⟩
  exact mem_sourceSlots.2 ⟨hm, rfl⟩

/-- A sink has a slot for each metric that it keeps. -/
theorem exists_sinkSlot {core : CoreId} {n k : Nat} {flows : List RoutedFlow} {f : RoutedFlow}
    (hf : f ∈ flows) (hr : f.receivedBy core = true) {m : Metric}
    (hm : sinkMetric f.payload m = true) :
    ∃ slot ∈ flowSlots core n k flows, slot.flow = some f.id ∧ slot.metric = m := by
  have hmem : f ∈ flows.filter (·.receivedBy core) := List.mem_filter.2 ⟨hf, hr⟩
  obtain ⟨i, hi⟩ := List.getElem?_of_mem hmem
  refine ⟨⟨some f.id, m, UInt8.ofNat (k + i)⟩, mem_flowSlots.2 (.inr ⟨i, f, hi, ?_⟩), rfl, rfl⟩
  exact mem_sinkSlots.2 ⟨hm, rfl⟩

/-! ## One slot for each metric of a flow -/

/-- Two slots that are not both for one metric of one flow. -/
def Apart (s t : Slot) : Prop := s.flow = none ∨ s.flow ≠ t.flow ∨ s.metric ≠ t.metric

theorem pairwise_sourceSlots (flow : FlowId) (n : Nat) :
    (sourceSlots flow n).Pairwise Apart := by
  simp [sourceSlots, Apart]

theorem pairwise_sinkSlots (flow : FlowId) (n : Nat) (payload : PayloadClass) :
    (sinkSlots flow n payload).Pairwise Apart := by
  unfold sinkSlots
  split <;> simp [Apart]

theorem pairwise_flowSlots {core : CoreId} {n m : Nat} {flows : List RoutedFlow}
    (h : (flows.map (·.id)).Nodup) : (flowSlots core n m flows).Pairwise Apart := by
  induction flows generalizing n m with
  | nil => exact .nil
  | cons f rest ih =>
    obtain ⟨hnew, hrest⟩ := List.nodup_cons.1 h
    unfold flowSlots
    rw [List.pairwise_append, List.pairwise_append]
    refine ⟨⟨?_, ?_, ?_⟩, ih hrest, ?_⟩
    · split
      · exact pairwise_sourceSlots f.id n
      · exact .nil
    · split
      · exact pairwise_sinkSlots f.id m f.payload
      · exact .nil
    · intro s hs t ht
      have hs : s ∈ sourceSlots f.id n := by
        split at hs
        · exact hs
        · simp at hs
      have ht : t ∈ sinkSlots f.id m f.payload := by
        split at ht
        · exact ht
        · simp at ht
      refine .inr (.inr fun e => ?_)
      have hsource := (mem_sourceSlots.1 hs).1
      have hsink := not_ofSource_of_ofSink (ofSink_of_sinkMetric (mem_sinkSlots.1 ht).1)
      rw [e, hsink] at hsource
      cases hsource
    · -- a slot of this flow and one of a later flow
      intro s hs t ht
      have hsflow := flow_eq_of_mem hs
      obtain ⟨g, hg, htflow⟩ := exists_flow_of_mem ht
      refine .inr (.inl fun e => hnew ?_)
      rw [hsflow, htflow] at e
      exact List.mem_map.2 ⟨g, hg, (Option.some_inj.1 e).symm⟩

theorem pairwise_slots {core : CoreId} {record : CounterSet} {flows : List RoutedFlow}
    (h : (flows.map (·.id)).Nodup) : (slots core record flows).Pairwise Apart := by
  unfold slots
  rw [List.pairwise_append]
  refine ⟨pairwise_flowSlots h, ?_, ?_⟩
  · refine List.Pairwise.imp_of_mem (fun hs _ _ => ?_) (List.pairwise_of_forall fun _ _ => trivial)
    exact .inl (mem_routerSlots hs).1
  · intro s hs t ht
    obtain ⟨f, -, hf⟩ := exists_flow_of_mem hs
    refine .inr (.inl ?_)
    rw [hf, (mem_routerSlots ht).1]
    simp

/-! ## How many slots there are -/

theorem length_flowSlots_le (core : CoreId) (n m : Nat) (flows : List RoutedFlow) :
    (flowSlots core n m flows).length ≤
      2 * (flows.filter (·.sentBy core)).length +
        3 * (flows.filter (·.receivedBy core)).length := by
  induction flows generalizing n m with
  | nil => exact Nat.zero_le _
  | cons f rest ih =>
    have hsource : (sourceSlots f.id n).length = 2 := rfl
    have hsink : (sinkSlots f.id m f.payload).length ≤ 3 := by
      unfold sinkSlots
      split <;> simp
    have hrest := ih (if f.sentBy core then n + 1 else n) (if f.receivedBy core then m + 1 else m)
    unfold flowSlots
    rw [List.length_append, List.length_append, List.filter_cons, List.filter_cons]
    by_cases hs : f.sentBy core = true <;> by_cases hr : f.receivedBy core = true <;>
      simp only [hs, hr, if_true, if_false, Bool.false_eq_true, List.length_cons,
        List.length_nil] at hrest ⊢ <;> omega

theorem length_routerSlots_le (record : CounterSet) : (routerSlots record).length ≤ 12 := by
  unfold routerSlots
  rw [List.length_map]
  exact List.length_filter_le _ RouterCounter.all

/-! ## The check -/

theorem loadOf_insert (loads : Table CoreId Load) (core c : CoreId) (l : Load) :
    loadOf (loads.insert core l) c = if core = c then l else loadOf loads c := by
  unfold loadOf
  split
  · next e => rw [e, Table.get?_insert_self, Option.getD_some]
  · next hne => rw [Table.get?_insert_of_ne _ fun e => hne e.symm]

theorem loadOf_addSource (loads : Table CoreId Load) (core c : CoreId) :
    loadOf (addSource loads core) c =
      if core = c then ⟨(loadOf loads c).sources + 1, (loadOf loads c).sinks⟩
      else loadOf loads c := by
  unfold addSource
  rw [loadOf_insert]
  split
  · next e => rw [e]
  · rfl

theorem loadOf_addSink (loads : Table CoreId Load) (core c : CoreId) :
    loadOf (addSink loads core) c =
      if core = c then ⟨(loadOf loads c).sources, (loadOf loads c).sinks + 1⟩
      else loadOf loads c := by
  unfold addSink
  rw [loadOf_insert]
  split
  · next e => rw [e]
  · rfl

theorem loadOf_foldl_addSink (cores : List CoreId) (loads : Table CoreId Load) (c : CoreId) :
    loadOf (cores.foldl addSink loads) c =
      ⟨(loadOf loads c).sources, (loadOf loads c).sinks + cores.count c⟩ := by
  induction cores generalizing loads with
  | nil => rfl
  | cons core rest ih =>
    rw [List.foldl_cons, ih, loadOf_addSink, List.count_cons]
    by_cases h : core = c
    · subst h
      simp only [if_true, beq_self_eq_true, Nat.add_assoc, Nat.add_comm 1]
    · simp [h]

theorem loadOf_addFlow (loads : Table CoreId Load) (f : RoutedFlow) (c : CoreId) :
    loadOf (addFlow loads f) c =
      ⟨(loadOf loads c).sources + (if f.sentBy c then 1 else 0),
        (loadOf loads c).sinks + f.route.sinks.count c⟩ := by
  unfold addFlow RoutedFlow.sentBy
  rw [loadOf_foldl_addSink, loadOf_addSource]
  by_cases h : f.route.source = c <;> simp [h]

theorem not_overloaded {l : Load} :
    overloaded l = false ↔ l.sources ≤ maxRoles ∧ l.sinks ≤ maxRoles := by
  unfold overloaded
  rw [Bool.or_eq_false_iff, decide_eq_false_iff_not, decide_eq_false_iff_not, Nat.not_lt,
    Nat.not_lt]

/-- The roles that the check has counted, and those of the flows still to come, are few enough. -/
theorem roles_le {loads : Table CoreId Load} {flows : List RoutedFlow}
    (h : check loads flows = .ok ()) (hl : ∀ c, overloaded (loadOf loads c) = false)
    (core : CoreId) :
    (loadOf loads core).sources + (flows.filter (·.sentBy core)).length ≤ maxRoles ∧
    (loadOf loads core).sinks + (flows.filter (·.receivedBy core)).length ≤ maxRoles := by
  induction flows generalizing loads with
  | nil => exact not_overloaded.1 (hl core)
  | cons f rest ih =>
    unfold check at h
    simp only at h
    split at h
    · cases h
    next hnone =>
    have hstep : ∀ c, overloaded (loadOf (addFlow loads f) c) = false := by
      intro c
      by_cases hc : c ∈ f.route.cores
      · exact Bool.eq_false_iff.2 (List.find?_eq_none.1 hnone c hc)
      · -- a core without a role in the flow has the load it had
        unfold FlowRoute.cores at hc
        rw [List.mem_cons, not_or] at hc
        have hsent : f.sentBy c = false := by
          unfold RoutedFlow.sentBy
          exact beq_false_of_ne fun e => hc.1 e.symm
        rw [loadOf_addFlow, hsent, List.count_eq_zero_of_not_mem hc.2]
        exact hl c
    have hrest := ih h hstep
    have hsinks : (if f.receivedBy core then 1 else 0) ≤ f.route.sinks.count core := by
      split
      · next hr => exact List.count_pos_iff.2 (List.contains_iff_mem.1 hr)
      · exact Nat.zero_le _
    rw [loadOf_addFlow] at hrest
    rw [List.filter_cons, List.filter_cons]
    by_cases hs : f.sentBy core = true <;> by_cases hr : f.receivedBy core = true <;>
      simp only [hs, hr, if_true, if_false, Bool.false_eq_true, List.length_cons]
        at hrest hsinks ⊢ <;>
      omega

theorem sources_le {flows : List RoutedFlow} (h : check .empty flows = .ok ()) (core : CoreId) :
    (flows.filter (·.sentBy core)).length ≤ maxRoles := by
  have hroles := (roles_le h (fun _ => rfl) core).1
  simpa [loadOf] using hroles

theorem sinks_le {flows : List RoutedFlow} (h : check .empty flows = .ok ()) (core : CoreId) :
    (flows.filter (·.receivedBy core)).length ≤ maxRoles := by
  have hroles := (roles_le h (fun _ => rfl) core).2
  simpa [loadOf] using hroles

/-! ## Roles and their numbers -/

/-- A slot is for the flow that has the slot's role as its number among the sources, or among the
sinks, of the core; otherwise it is the router's. -/
theorem role_of_mem_slots {core : CoreId} {record : CounterSet} {flows : List RoutedFlow}
    (h : check .empty flows = .ok ()) {x : Slot} (hx : x ∈ slots core record flows) :
    (x.metric.ofSource = true ∧ ∃ f,
      (flows.filter (·.sentBy core))[x.role.toNat]? = some f ∧ x.flow = some f.id) ∨
    (x.metric.ofSink = true ∧ ∃ f,
      (flows.filter (·.receivedBy core))[x.role.toNat]? = some f ∧ x.flow = some f.id) ∨
    (x.flow = none ∧ x.role = 0 ∧ ∃ counter, x.metric = .router counter) := by
  have hbyte : ∀ {role : RoutedFlow → Bool} {i : Nat} {f : RoutedFlow},
      (flows.filter role).length ≤ maxRoles → (flows.filter role)[i]? = some f →
      (UInt8.ofNat (0 + i)).toNat = i := by
    intro role i f hle hf
    have hi := (List.getElem?_eq_some_iff.1 hf).1
    unfold maxRoles at hle
    rw [Nat.zero_add]
    exact UInt8.toNat_ofNat_of_lt' (by show i < 256; omega)
  rcases List.mem_append.1 hx with hx | hx
  · rcases mem_flowSlots.1 hx with ⟨i, f, hf, hx⟩ | ⟨i, f, hf, hx⟩
    · obtain ⟨hsource, hx⟩ := mem_sourceSlots.1 hx
      refine .inl ⟨hsource, f, ?_, by rw [hx]⟩
      rw [hx, hbyte (sources_le h core) hf]
      exact hf
    · obtain ⟨hmetric, hx⟩ := mem_sinkSlots.1 hx
      refine .inr (.inl ⟨ofSink_of_sinkMetric hmetric, f, ?_, by rw [hx]⟩)
      rw [hx, hbyte (sinks_le h core) hf]
      exact hf
  · obtain ⟨counter, -, rfl⟩ := List.mem_map.1 hx
    exact .inr (.inr ⟨rfl, rfl, counter, rfl⟩)

end TrafficLab.Layout
