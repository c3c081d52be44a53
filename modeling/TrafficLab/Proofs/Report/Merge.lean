import Mathlib.Algebra.GroupWithZero.Nat
import TrafficLab.Proofs.Chip.Delivery
import TrafficLab.Proofs.Dump
import TrafficLab.Report.Merge

/-!
# Merging the contributions of compiled programs

A flow has one source role, on its source core, and one sink role on each of its sink cores.  So
what the readouts of all cores are merged into for a flow comes from those cores alone.

    sourceReadouts f.id = [readout of f's source core]                      (sourceReadouts_eq)
    sinkReadouts f.id = one readout for each sink core, ascending           (sinkReadouts_eq)
    every flow's result is exact, whatever the dumps hold                   (report_is_exact)
-/

namespace TrafficLab

/-! ## Words that saturate -/

theorem toNat_saturatingAdd {a b : UInt64} (h : a.toNat + b.toNat < UInt64.size) :
    (saturatingAdd a b).toNat = a.toNat + b.toNat := by
  have hadd : (a + b).toNat = a.toNat + b.toNat := by
    rw [UInt64.toNat_add]
    exact Nat.mod_eq_of_lt h
  unfold saturatingAdd
  rw [if_neg ?_, hadd]
  rw [UInt64.lt_iff_toNat_lt, hadd]
  omega

theorem toNat_foldl_saturatingAdd {ns : List UInt64} {a : UInt64}
    (h : a.toNat + (ns.map UInt64.toNat).sum < UInt64.size) :
    (ns.foldl saturatingAdd a).toNat = a.toNat + (ns.map UInt64.toNat).sum := by
  induction ns generalizing a with
  | nil => rfl
  | cons n rest ih =>
    rw [List.map_cons, List.sum_cons] at h
    have hadd := toNat_saturatingAdd (a := a) (b := n) (by omega)
    rw [List.foldl_cons, ih (by rw [hadd]; omega), hadd, List.map_cons, List.sum_cons]
    omega

theorem toNat_saturatingSum {ns : List UInt64} (h : (ns.map UInt64.toNat).sum < UInt64.size) :
    (saturatingSum ns).toNat = (ns.map UInt64.toNat).sum := by
  have hzero : (0 : UInt64).toNat = 0 := rfl
  have hsum : (0 : UInt64).toNat + (ns.map UInt64.toNat).sum < UInt64.size := by
    rw [hzero]
    omega
  have hfold := toNat_foldl_saturatingAdd hsum
  rw [hzero, Nat.zero_add] at hfold
  exact hfold

theorem toNat_saturatingSub (a b : UInt64) : (saturatingSub a b).toNat = a.toNat - b.toNat := by
  unfold saturatingSub
  split
  · next hlt =>
    have hlt := UInt64.lt_iff_toNat_lt.1 hlt
    show 0 = _
    omega
  · next hle => exact UInt64.toNat_sub_of_le _ _ (UInt64.not_lt.1 hle)

/-- The product with a number that need not be a word itself. -/
theorem toNat_saturatingMul {a : UInt64} {n : Nat} (h : a.toNat * n < UInt64.size) :
    (saturatingMul a (UInt64.ofNat n)).toNat = a.toNat * n := by
  have hprod : a.toNat * (UInt64.ofNat n).toNat = a.toNat * n := by
    rcases Nat.eq_zero_or_pos a.toNat with ha | ha
    · rw [ha, Nat.zero_mul, Nat.zero_mul]
    · have hn : n < UInt64.size := Nat.lt_of_le_of_lt (Nat.le_mul_of_pos_left n ha) h
      rw [UInt64.toNat_ofNat_of_lt' hn]
  unfold saturatingMul
  rw [if_pos (by rw [hprod]; exact h), UInt64.toNat_mul, hprod]
  exact Nat.mod_eq_of_lt h

/-! ## Parts of lists -/

/-- Of entries with different keys, those with the key of one of them. -/
theorem filter_key_eq {α κ : Type} [DecidableEq κ] {key : α → κ} {l : List α} {a : α}
    (h : (l.map key).Nodup) (ha : a ∈ l) : l.filter (fun b => key b = key a) = [a] := by
  induction l with
  | nil => simp at ha
  | cons b rest ih =>
    obtain ⟨hb, hrest⟩ := List.nodup_cons.1 h
    rcases List.mem_cons.1 ha with rfl | ha
    · rw [List.filter_cons_of_pos (by simp)]
      have hnone : rest.filter (fun b => key b = key a) = [] := by
        rw [List.filter_eq_nil_iff]
        intro d hd e
        exact hb (List.mem_map.2 ⟨d, hd, of_decide_eq_true e⟩)
      rw [hnone]
    · rw [List.filter_cons_of_neg, ih hrest ha]
      intro e
      have e : key b = key a := of_decide_eq_true e
      exact hb (List.mem_map.2 ⟨a, ha, e.symm⟩)

theorem flatMap_ite {α β : Type} (p : α → Bool) (g : α → β) (l : List α) :
    (l.flatMap fun a => if p a then [g a] else []) = (l.filter p).map g := by
  induction l with
  | nil => rfl
  | cons a rest ih =>
    rw [List.flatMap_cons, ih, List.filter_cons]
    split <;> rfl

/-- Entries made for some keys of a list have keys in the order of the list. -/
theorem map_fst_filterMap_sublist {κ α : Type} (g : κ → Option α) (l : List κ) :
    ((l.filterMap fun k => (g k).map fun x => (k, x)).map (·.1)).Sublist l := by
  induction l with
  | nil => exact .slnil
  | cons k rest ih =>
    rw [List.filterMap_cons]
    cases g k with
    | none => exact ih.cons k
    | some x => exact ih.cons_cons k

/-! ## Readouts of compiled programs -/

/-- Readouts of the programs of a compiled specification, core by core. -/
structure Readouts (v : ValidSpec) (flows : List PlannedFlow) (ro : CoreId → Readout) : Prop where
  core : ∀ core, (ro core).core = core
  program : ∀ core, (ro core).program = (v.corePlan flows core).assemble

/-- What a core's dump, if there is one, is read as. -/
def ValidSpec.readout (v : ValidSpec) (flows : List PlannedFlow) (dumps : Table CoreId CounterDump)
    (unreachable : KeySet CoreId) (core : CoreId) : Readout :=
  .ofDump? unreachable core (v.corePlan flows core).assemble (dumps.get? core)

theorem ValidSpec.readouts (v : ValidSpec) (flows : List PlannedFlow)
    (dumps : Table CoreId CounterDump) (unreachable : KeySet CoreId) :
    Readouts v flows (v.readout flows dumps unreachable) := by
  constructor <;> intro core <;> unfold ValidSpec.readout <;> cases dumps.get? core <;> rfl

/-- The cores that receive a flow, in ascending order. -/
def ValidSpec.receivers (v : ValidSpec) (f : RoutedFlow) : List CoreId :=
  v.participants.keys.filter f.receivedBy

namespace Compiled.From

variable {v : ValidSpec} {flows : List PlannedFlow} {c : Compiled} (h : c.From v flows)

include h

theorem mem_receivers {f : PlannedFlow} (hf : f ∈ flows) {core : CoreId} :
    core ∈ v.receivers f.toRoutedFlow ↔ core ∈ f.route.sinks := by
  unfold ValidSpec.receivers RoutedFlow.receivedBy
  rw [List.mem_filter, List.contains_iff_mem]
  constructor
  · exact fun hc => hc.2
  · exact fun hc => ⟨h.mem_participants hf (List.mem_cons_of_mem _ hc), hc⟩

/-- The role of a flow among those of a core, if the core has it. -/
theorem filter_roles {ρ : Type} (role : PlannedFlow → Bool) {mk : PlannedFlow → ρ}
    (flowOf : ρ → FlowId) (hmk : ∀ g, flowOf (mk g) = g.id) {f : PlannedFlow} (hf : f ∈ flows) :
    ((flows.filter role).map mk).filter (fun r => flowOf r = f.id) =
      if role f then [mk f] else [] := by
  have hkey : (flows.filter fun g => flowOf (mk g) = f.id) = [f] := by
    have hone := filter_key_eq h.ids_nodup hf
    simpa only [hmk] using hone
  rw [List.filter_map, List.filter_filter]
  have hswap : (fun g => ((fun r => decide (flowOf r = f.id)) ∘ mk) g && role g) =
      fun g => role g && decide (flowOf (mk g) = f.id) := by
    funext g
    exact Bool.and_comm _ _
  rw [hswap, ← List.filter_filter, hkey, List.filter_singleton]
  cases role f <;> rfl

theorem filter_sources {f : PlannedFlow} (hf : f ∈ flows) (core : CoreId) :
    (v.corePlan flows core).sources.filter (fun r => r.flow = f.id) =
      if f.sentBy core then [Compilation.sourceRole f] else [] :=
  h.filter_roles (fun g => g.sentBy core) SourceRole.flow (fun _ => rfl) hf

theorem filter_sinks {f : PlannedFlow} (hf : f ∈ flows) (core : CoreId) :
    (v.corePlan flows core).sinks.filter (fun r => r.flow = f.id) =
      if f.receivedBy core then [Compilation.sinkRole f] else [] :=
  h.filter_roles (fun g => g.receivedBy core) SinkRole.flow (fun _ => rfl) hf

section
variable {ro : CoreId → Readout} (hr : Readouts v flows ro) {f : PlannedFlow} (hf : f ∈ flows)

include hr hf

/-- A flow has one source, on its source core. -/
theorem sourceReadouts_eq :
    sourceReadouts f.id (v.participants.keys.map ro) = [ro f.route.source] := by
  unfold sourceReadouts
  rw [List.flatMap_map]
  have hcore : (fun core => ((ro core).program.sources.filter fun r => r.flow = f.id).map
      fun _ => ro core) = fun core => if f.sentBy core then [ro core] else [] := by
    funext core
    rw [hr.program]
    show ((v.corePlan flows core).sources.filter _).map _ = _
    rw [h.filter_sources hf]
    split <;> rfl
  rw [hcore, flatMap_ite]
  have hsource : v.participants.keys.filter f.sentBy = [f.route.source] := by
    have hmem := h.mem_participants hf (List.mem_cons_self : f.route.source ∈ f.route.cores)
    have hnodup : (v.participants.keys.map id).Nodup := by
      rw [List.map_id]
      exact v.participants.keys_nodup
    rw [← filter_key_eq hnodup hmem]
    refine List.filter_congr fun core _ => ?_
    unfold RoutedFlow.sentBy
    rw [id, id, Bool.beq_eq_decide_eq]
    exact decide_eq_decide.2 eq_comm
  rw [hsource]
  rfl

/-- A flow has one sink on each of its sink cores. -/
theorem sinkReadouts_eq :
    sinkReadouts f.id (v.participants.keys.map ro) =
      (v.receivers f.toRoutedFlow).map fun core => (ro core, Compilation.sinkRole f) := by
  unfold sinkReadouts
  rw [List.flatMap_map]
  have hcore : (fun core => ((ro core).program.sinks.filter fun r => r.flow = f.id).map
      fun r => (ro core, r)) =
      fun core => if f.receivedBy core then [(ro core, Compilation.sinkRole f)] else [] := by
    funext core
    rw [hr.program]
    show ((v.corePlan flows core).sinks.filter _).map _ = _
    rw [h.filter_sinks hf]
    split <;> rfl
  rw [hcore, flatMap_ite]
  rfl

theorem decodedSinks_eq :
    decodedSinks f.id (v.participants.keys.map ro) =
      (v.receivers f.toRoutedFlow).filterMap fun core =>
        ((ro core).metric? f.id .received).map fun n => ((ro core, Compilation.sinkRole f), n) := by
  unfold decodedSinks
  rw [h.sinkReadouts_eq hr hf, List.filterMap_map]
  rfl

theorem sourceTotals_eq :
    sourceTotals f.id (v.participants.keys.map ro) = (ro f.route.source).sourceCounts? f.id := by
  unfold sourceTotals
  rw [h.sourceReadouts_eq hr hf]
  cases hcounts : (ro f.route.source).sourceCounts? f.id with
  | none => simp [hcounts]
  | some x => simp [hcounts]

/-- The entries of a result's received packets, one for each sink core that contributes. -/
theorem entries_receivedByCore :
    (receivedByCore f.id (v.participants.keys.map ro)).entries =
      (v.receivers f.toRoutedFlow).filterMap fun core =>
        ((ro core).metric? f.id .received).map fun n => (core, n) := by
  unfold receivedByCore
  rw [h.decodedSinks_eq hr hf, List.map_filterMap]
  have hentry : (fun core => (((ro core).metric? f.id .received).map
      fun n => ((ro core, Compilation.sinkRole f), n)).map fun s => (s.1.1.core, s.2)) =
      fun core => ((ro core).metric? f.id .received).map fun n => (core, n) := by
    funext core
    rw [Option.map_map]
    congr 1
    funext n
    exact congrArg (·, n) (hr.core core)
  rw [hentry]
  refine Table.entries_ofList ?_
  have hsub := (map_fst_filterMap_sublist (fun core => (ro core).metric? f.id .received)
    (v.receivers f.toRoutedFlow)).trans (List.filter_sublist (l := v.participants.keys))
  have hkeys := v.participants.pairwise_keys.sublist hsub
  rw [List.pairwise_map] at hkeys
  exact hkeys

theorem get?_receivedByCore {core : CoreId} {n : UInt64} :
    (receivedByCore f.id (v.participants.keys.map ro)).get? core = some n ↔
      core ∈ f.route.sinks ∧ (ro core).metric? f.id .received = some n := by
  rw [← Table.mem_entries, h.entries_receivedByCore hr hf, List.mem_filterMap]
  constructor
  · rintro ⟨d, hd, e⟩
    obtain ⟨m, hm, e⟩ := Option.map_eq_some_iff.1 e
    cases e
    exact ⟨(h.mem_receivers hf).1 hd, hm⟩
  · rintro ⟨hcore, hn⟩
    exact ⟨core, (h.mem_receivers hf).2 hcore, by rw [hn]; rfl⟩

theorem mem_missingCores {core : CoreId} :
    core ∈ (missingCores f.id (v.participants.keys.map ro)).keys ↔
      (core = f.route.source ∧ (ro core).sourceCounts? f.id = none) ∨
      (core ∈ f.route.sinks ∧ (ro core).metric? f.id .received = none) := by
  unfold missingCores
  rw [KeySet.mem_keys_ofList, List.mem_append, h.sourceReadouts_eq hr hf,
    h.sinkReadouts_eq hr hf]
  simp only [List.mem_map, List.mem_filter, List.mem_singleton, Option.isNone_iff_eq_none]
  constructor
  · rintro (⟨r, ⟨rfl, hr'⟩, rfl⟩ | ⟨s, ⟨⟨d, hd, rfl⟩, hs⟩, rfl⟩)
    · rw [hr.core]
      exact .inl ⟨rfl, hr'⟩
    · simp only [hr.core] at hs ⊢
      exact .inr ⟨(h.mem_receivers hf).1 hd, hs⟩
  · rintro (⟨rfl, hn⟩ | ⟨hs, hn⟩)
    · exact .inl ⟨_, ⟨rfl, hn⟩, hr.core _⟩
    · exact .inr ⟨_, ⟨⟨core, (h.mem_receivers hf).2 hs, rfl⟩, hn⟩, hr.core _⟩

end

/-! ## The flows and cores of a report -/

theorem keys_flows : v.flows.keys = flows.map (·.id) := by
  rw [← h.valid.ids_eq, ← h.routed, List.map_map]
  rfl

theorem mem_flowKeys {ro : CoreId → Readout} (hr : Readouts v flows ro) {id : FlowId} :
    id ∈ (v.participants.keys.map ro).flatMap (fun r => r.program.flows) ↔ id ∈ v.flows.keys := by
  rw [h.keys_flows, List.mem_flatMap]
  constructor
  · rintro ⟨r, hr', hid⟩
    obtain ⟨core, -, rfl⟩ := List.mem_map.1 hr'
    rw [hr.program] at hid
    rcases List.mem_append.1 hid with hid | hid
    · obtain ⟨r, hr', rfl⟩ := List.mem_map.1 hid
      obtain ⟨f, hf, -, rfl⟩ := exists_flow_of_source (v := v) hr'
      exact List.mem_map_of_mem hf
    · obtain ⟨r, hr', rfl⟩ := List.mem_map.1 hid
      obtain ⟨f, hf, -, rfl⟩ := mem_sinks.1 hr'
      exact List.mem_map_of_mem hf
  · intro hid
    obtain ⟨f, hf, rfl⟩ := List.mem_map.1 hid
    have hsource : Compilation.sourceRole f ∈ (v.corePlan flows f.route.source).sources :=
      List.mem_map_of_mem (List.mem_filter.2 ⟨hf, beq_self_eq_true _⟩)
    refine ⟨ro f.route.source, List.mem_map_of_mem (h.mem_participants hf List.mem_cons_self), ?_⟩
    rw [hr.program]
    exact List.mem_append_left _ (List.mem_map.2 ⟨_, hsource, rfl⟩)

theorem ofReadouts_flows {ro : CoreId → Readout} (hr : Readouts v flows ro) :
    (Report.ofReadouts (v.participants.keys.map ro)).flows.keys = v.flows.keys := by
  unfold Report.ofReadouts
  simp only [Table.keys_map]
  rw [← KeySet.keys_ofList_keys v.flows]
  congr 1
  refine KeySet.ext_keys fun id => ?_
  rw [KeySet.mem_keys_ofList, KeySet.mem_keys_ofList, h.mem_flowKeys hr]

theorem get?_ofReadouts_flows {ro : CoreId → Readout} (hr : Readouts v flows ro)
    {f : PlannedFlow} (hf : f ∈ flows) :
    (Report.ofReadouts (v.participants.keys.map ro)).flows.get? f.id =
      some (mergeFlow f.id (v.participants.keys.map ro)) := by
  have hid : f.id ∈ v.flows.keys := by
    rw [h.keys_flows]
    exact List.mem_map_of_mem hf
  obtain ⟨u, hu⟩ := Table.mem_keys.1 (KeySet.mem_keys_ofList.2 ((h.mem_flowKeys hr).2 hid))
  unfold Report.ofReadouts
  simp only [Table.get?_map, hu]
  rfl

omit h in
theorem ofReadouts_cores {ro : CoreId → Readout} (hr : Readouts v flows ro) :
    (Report.ofReadouts (v.participants.keys.map ro)).cores.keys = v.participants.keys := by
  have hkeys : ((v.participants.keys.map ro).map fun r => (r.core, r.coreReport)).map (·.1)
      = v.participants.keys := by
    rw [List.map_map, List.map_map]
    conv => rhs; rw [← List.map_id v.participants.keys]
    exact List.map_congr_left fun core _ => hr.core core
  show (Table.ofList _).keys = _
  unfold Table.keys at hkeys ⊢
  rw [Table.entries_ofList (Table.ascending_of_keys hkeys)]
  exact hkeys

/-- A report is made of one readout for each program. -/
theorem ofDumps_eq (dumps : Table CoreId CounterDump) (unreachable : KeySet CoreId) :
    Report.ofDumps c.programs dumps unreachable =
      .ofReadouts (v.participants.keys.map (v.readout flows dumps unreachable)) := by
  unfold Report.ofDumps
  rw [h.entries_programs, List.map_map]
  rfl

end Compiled.From

/-! ## What dumps contribute -/

namespace Compiled

variable (c : Compiled) (dumps : Table CoreId CounterDump) (flow : FlowId) (core : CoreId)

/-- A core contributes to a flow: it has a dump with the header of its program, and the last record
of the dump has every slot of the flow. -/
def Contributes : Prop :=
  ∃ p dump, c.programs.get? core = some p ∧ dumps.get? core = some dump ∧
    Dump.HoldsFlow p dump.bytes flow

/-- The last record of a core's dump has a value in the slot of a metric of a flow. -/
def FinalValue (m : Metric) (n : UInt64) : Prop :=
  ∃ p dump i slot, c.programs.get? core = some p ∧ dumps.get? core = some dump ∧
    p.slots[i]? = some slot ∧ slot.flow = some flow ∧ slot.metric = m ∧
    Dump.finalValue? p dump.bytes i = some n

end Compiled

namespace Compiled.From

variable {v : ValidSpec} {flows : List PlannedFlow} {c : Compiled} (h : c.From v flows)

include h

theorem slots_apart (core : CoreId) :
    (v.corePlan flows core).slots.Pairwise Layout.Apart := by
  rw [h.slots_eq]
  exact Layout.pairwise_slots h.valid.ids_nodup

/-- The slot of a source of a flow. -/
theorem exists_sourceSlot {f : PlannedFlow} (hf : f ∈ flows) {m : Metric}
    (hm : m.ofSource = true) : ∃ (i : Nat) (slot : Slot),
      (v.corePlan flows f.route.source).slots[i]? = some slot ∧
      slot.flow = some f.id ∧ slot.metric = m := by
  obtain ⟨slot, hslot, hflow, hmetric⟩ := Layout.exists_sourceSlot
    (n := 0) (k := 0) (h.mem_values hf) (beq_self_eq_true f.route.source) hm
  obtain ⟨i, hi⟩ := List.getElem?_of_mem
    (List.mem_append_left (Layout.routerSlots v.spec.record) hslot)
  rw [h.slots_eq]
  exact ⟨i, slot, hi, hflow, hmetric⟩

/-- The slot of a sink of a flow. -/
theorem exists_sinkSlot {f : PlannedFlow} (hf : f ∈ flows) {core : CoreId}
    (hc : core ∈ f.route.sinks) : ∃ (i : Nat) (slot : Slot),
      (v.corePlan flows core).slots[i]? = some slot ∧
      slot.flow = some f.id ∧ slot.metric = .received := by
  obtain ⟨slot, hslot, hflow, hmetric⟩ := Layout.exists_sinkSlot
    (n := 0) (k := 0) (h.mem_values hf) (List.contains_iff_mem.2 hc)
    (m := .received) (by rfl)
  obtain ⟨i, hi⟩ := List.getElem?_of_mem
    (List.mem_append_left (Layout.routerSlots v.spec.record) hslot)
  rw [h.slots_eq]
  exact ⟨i, slot, hi, hflow, hmetric⟩

section
variable (dumps : Table CoreId CounterDump) (unreachable : KeySet CoreId) {f : PlannedFlow}
  {core : CoreId} (hcore : core ∈ v.participants.keys) {m : Metric}

include hcore

/-- A core contributes a metric exactly if it contributes to the flow. -/
theorem metric?_readout {i : Nat} {slot : Slot}
    (hslot : (v.corePlan flows core).slots[i]? = some slot) (hflow : slot.flow = some f.id)
    (hmetric : slot.metric = m) (n : UInt64) :
    (v.readout flows dumps unreachable core).metric? f.id m = some n ↔
      c.Contributes dumps f.id core ∧ c.FinalValue dumps f.id core m n := by
  have hp := h.get?_programs.2 ⟨hcore, rfl⟩
  have hapart := h.slots_apart core
  unfold ValidSpec.readout
  cases hd : dumps.get? core with
  | none =>
    constructor
    · intro hn
      cases hn
    · rintro ⟨⟨p, dump, -, hdump, -⟩, -⟩
      rw [hd] at hdump
      cases hdump
  | some dump =>
    show (Dump.read (v.corePlan flows core).assemble dump).flowMetric?
      (v.corePlan flows core).assemble f.id m = some n ↔ _
    by_cases hholds : Dump.HoldsFlow (v.corePlan flows core).assemble dump.bytes f.id
    · rw [Dump.flowMetric?_read hapart hslot hflow hmetric hholds]
      constructor
      · intro hn
        exact ⟨⟨_, dump, hp, hd, hholds⟩, _, dump, i, slot, hp, hd, hslot, hflow, hmetric, hn⟩
      · rintro ⟨-, p, dump', j, slot', hp', hd', hslot', hflow', hmetric', hn⟩
        rw [hp] at hp'
        cases hp'
        rw [hd] at hd'
        cases hd'
        have hij := Dump.slotOf?_eq (p := (v.corePlan flows core).assemble) hapart hslot hflow
          hmetric
        rw [Dump.slotOf?_eq hapart hslot' hflow' hmetric'] at hij
        cases hij
        exact hn
    · rw [Dump.flowMetric?_read_eq_none hholds]
      constructor
      · intro hn
        cases hn
      · rintro ⟨⟨p, dump', hp', hd', hholds'⟩, -⟩
        rw [hp] at hp'
        cases hp'
        rw [hd] at hd'
        cases hd'
        exact absurd hholds' hholds

theorem metric?_readout_isSome {i : Nat} {slot : Slot}
    (hslot : (v.corePlan flows core).slots[i]? = some slot) (hflow : slot.flow = some f.id)
    (hmetric : slot.metric = m) :
    (v.readout flows dumps unreachable core).metric? f.id m ≠ none ↔
      c.Contributes dumps f.id core := by
  rw [Option.ne_none_iff_exists']
  constructor
  · rintro ⟨n, hn⟩
    exact ((h.metric?_readout dumps unreachable hcore hslot hflow hmetric n).1 hn).1
  · rintro ⟨p, dump, hp, hd, hholds⟩
    have hvalue := hholds.2 i slot ?_ hflow
    · obtain ⟨n, hn⟩ := Option.isSome_iff_exists.1 hvalue
      refine ⟨n, (h.metric?_readout dumps unreachable hcore hslot hflow hmetric n).2
        ⟨⟨p, dump, hp, hd, hholds⟩, ?_⟩⟩
      exact ⟨p, dump, i, slot, hp, hd, by rw [← (h.get?_programs.1 hp).2]; exact hslot, hflow,
        hmetric, hn⟩
    · rw [← (h.get?_programs.1 hp).2]
      exact hslot

end

section
variable (dumps : Table CoreId CounterDump) (unreachable : KeySet CoreId) {f : PlannedFlow}
  (hf : f ∈ flows)

include hf

theorem sourceCounts?_readout (hsource : c.Contributes dumps f.id f.route.source) :
    ∃ sent blocked,
      (v.readout flows dumps unreachable f.route.source).sourceCounts? f.id = some (sent, blocked) ∧
      (∀ n, c.FinalValue dumps f.id f.route.source .sent n ↔ n = sent) ∧
      (∀ n, c.FinalValue dumps f.id f.route.source .blocked n ↔ n = blocked) := by
  have hcore := h.mem_participants hf (List.mem_cons_self : f.route.source ∈ f.route.cores)
  have hmetric : ∀ m : Metric, m.ofSource = true → ∃ x,
      (v.readout flows dumps unreachable f.route.source).metric? f.id m = some x ∧
      ∀ n, c.FinalValue dumps f.id f.route.source m n ↔ n = x := by
    intro m hm
    obtain ⟨i, slot, hslot, hflow, hmetric⟩ := h.exists_sourceSlot hf hm
    have hiff := h.metric?_readout dumps unreachable hcore hslot hflow
      hmetric
    obtain ⟨x, hx⟩ := Option.ne_none_iff_exists'.1
      ((h.metric?_readout_isSome dumps unreachable hcore hslot hflow hmetric).2 hsource)
    refine ⟨x, hx, fun n => ?_⟩
    have hn := hiff n
    rw [hx, Option.some_inj] at hn
    exact ⟨fun hv => (hn.2 ⟨hsource, hv⟩).symm, fun e => (hn.1 e.symm).2⟩
  obtain ⟨sent, hsent, hsent'⟩ := hmetric .sent rfl
  obtain ⟨blocked, hblocked, hblocked'⟩ := hmetric .blocked rfl
  refine ⟨sent, blocked, ?_, hsent', hblocked'⟩
  unfold Readout.sourceCounts?
  rw [hsent, hblocked]
  rfl

theorem sourceCounts?_readout_eq_none :
    (v.readout flows dumps unreachable f.route.source).sourceCounts? f.id = none ↔
      ¬c.Contributes dumps f.id f.route.source := by
  have hcore := h.mem_participants hf (List.mem_cons_self : f.route.source ∈ f.route.cores)
  constructor
  · intro hnone hsource
    obtain ⟨sent, blocked, hsome, -⟩ := h.sourceCounts?_readout dumps unreachable hf hsource
    rw [hnone] at hsome
    cases hsome
  · intro hsource
    obtain ⟨i, slot, hslot, hflow, hmetric⟩ := h.exists_sourceSlot hf (m := .sent) rfl
    have hnone := Decidable.not_not.1 (mt
      (h.metric?_readout_isSome dumps unreachable hcore hslot hflow hmetric).1 hsource)
    unfold Readout.sourceCounts?
    rw [hnone]
    rfl

theorem received_readout {core : CoreId} (hc : core ∈ f.route.sinks) :
    (∀ n, (v.readout flows dumps unreachable core).metric? f.id .received = some n ↔
      c.Contributes dumps f.id core ∧ c.FinalValue dumps f.id core .received n) ∧
    ((v.readout flows dumps unreachable core).metric? f.id .received = none ↔
      ¬c.Contributes dumps f.id core) := by
  have hcore := h.mem_participants hf (List.mem_cons_of_mem f.route.source hc)
  obtain ⟨i, slot, hslot, hflow, hmetric⟩ := h.exists_sinkSlot hf hc
  refine ⟨h.metric?_readout dumps unreachable hcore hslot hflow hmetric, ?_⟩
  rw [← not_iff_not, not_not]
  exact h.metric?_readout_isSome dumps unreachable hcore hslot hflow hmetric

/-- The cores that are missing are those that do not contribute. -/
theorem mem_missingCores_readout {core : CoreId} :
    core ∈ (missingCores f.id
        (v.participants.keys.map (v.readout flows dumps unreachable))).keys ↔
      core ∈ f.route.cores ∧ ¬c.Contributes dumps f.id core := by
  rw [h.mem_missingCores (v.readouts flows dumps unreachable) hf]
  unfold FlowRoute.cores
  rw [List.mem_cons]
  constructor
  · rintro (⟨rfl, hn⟩ | ⟨hs, hn⟩)
    · exact ⟨.inl rfl, (h.sourceCounts?_readout_eq_none dumps unreachable hf).1 hn⟩
    · exact ⟨.inr hs, (h.received_readout dumps unreachable hf hs).2.1 hn⟩
  · rintro ⟨rfl | hs, hn⟩
    · exact .inl ⟨rfl, (h.sourceCounts?_readout_eq_none dumps unreachable hf).2 hn⟩
    · exact .inr ⟨hs, (h.received_readout dumps unreachable hf hs).2.2 hn⟩

theorem isEmpty_missingCores_readout :
    (missingCores f.id
        (v.participants.keys.map (v.readout flows dumps unreachable))).isEmpty = true ↔
      ∀ core ∈ f.route.cores, c.Contributes dumps f.id core := by
  rw [KeySet.isEmpty_eq_true]
  simp only [h.mem_missingCores_readout dumps unreachable hf, not_and, not_not]

theorem get?_receivedByCore_readout {core : CoreId} {n : UInt64} :
    (receivedByCore f.id
        (v.participants.keys.map (v.readout flows dumps unreachable))).get? core = some n ↔
      core ∈ f.route.sinks ∧ c.Contributes dumps f.id core ∧
        c.FinalValue dumps f.id core .received n := by
  rw [h.get?_receivedByCore (v.readouts flows dumps unreachable) hf]
  exact and_congr_right fun hs => (h.received_readout dumps unreachable hf hs).1 n

theorem mem_keys_receivedByCore_readout {core : CoreId} :
    core ∈ (receivedByCore f.id
        (v.participants.keys.map (v.readout flows dumps unreachable))).keys ↔
      core ∈ f.route.sinks ∧ c.Contributes dumps f.id core := by
  rw [Table.mem_keys]
  constructor
  · rintro ⟨n, hn⟩
    obtain ⟨hs, hcontributes, -⟩ := (h.get?_receivedByCore_readout dumps unreachable hf).1 hn
    exact ⟨hs, hcontributes⟩
  · rintro ⟨hs, hcontributes⟩
    have hreceived := h.received_readout dumps unreachable hf hs
    obtain ⟨n, hn⟩ := Option.ne_none_iff_exists'.1 (mt hreceived.2.1 (not_not.2 hcontributes))
    exact ⟨n, (h.get?_receivedByCore_readout dumps unreachable hf).2 ⟨hs, (hreceived.1 n).1 hn⟩⟩

end

end Compiled.From

/-! ## Main result -/

/-- What the result of a flow has to be, given the dumps of its cores. -/
structure FlowResult.Exact (c : Compiled) (dumps : Table CoreId CounterDump) (f : RoutedFlow)
    (r : FlowResult) : Prop where
  flow : r.flow = f.id
  complete : r.status = .complete ↔ ∀ core ∈ f.route.cores, c.Contributes dumps f.id core
  /-- Otherwise the cores are listed that do not contribute. -/
  missing : (∃ core ∈ f.route.cores, ¬c.Contributes dumps f.id core) →
    ∃ missing, r.status = .partially missing ∧ ∀ core, core ∈ missing.keys ↔
      core ∈ f.route.cores ∧ ¬c.Contributes dumps f.id core
  received_keys : ∀ core, core ∈ r.received.keys ↔
    core ∈ f.route.sinks ∧ c.Contributes dumps f.id core
  received : ∀ core n, r.received.get? core = some n ↔
    core ∈ f.route.sinks ∧ c.Contributes dumps f.id core ∧
      c.FinalValue dumps f.id core .received n
  sent : c.Contributes dumps f.id f.route.source →
    ∀ n, c.FinalValue dumps f.id f.route.source .sent n ↔ n = r.sent
  blocked : c.Contributes dumps f.id f.route.source →
    ∀ n, c.FinalValue dumps f.id f.route.source .blocked n ↔ n = r.blocked
  no_source : ¬c.Contributes dumps f.id f.route.source →
    r.sent = 0 ∧ r.blocked = 0 ∧ r.dropped = 0
  /-- Over the sinks that contribute, what was sent to them and not received. -/
  dropped : c.Contributes dumps f.id f.route.source →
    r.sent.toNat * r.received.size < UInt64.size →
    (r.received.values.map UInt64.toNat).sum < UInt64.size →
    r.dropped.toNat = r.sent.toNat * r.received.size - (r.received.values.map UInt64.toNat).sum

theorem Compiled.From.exact_mergeFlow {v : ValidSpec} {flows : List PlannedFlow} {c : Compiled}
    (h : c.From v flows) (dumps : Table CoreId CounterDump) (unreachable : KeySet CoreId)
    {f : PlannedFlow} (hf : f ∈ flows) :
    (mergeFlow f.id (v.participants.keys.map (v.readout flows dumps unreachable))).Exact c dumps
      f.toRoutedFlow := by
  have hr := v.readouts flows dumps unreachable
  have hstatus : (mergeFlow f.id
      (v.participants.keys.map (v.readout flows dumps unreachable))).status =
      if (missingCores f.id (v.participants.keys.map
        (v.readout flows dumps unreachable))).isEmpty then .complete
      else .partially (missingCores f.id
        (v.participants.keys.map (v.readout flows dumps unreachable))) := rfl
  have hempty := h.isEmpty_missingCores_readout dumps unreachable hf
  have hcounts := h.sourceCounts?_readout dumps unreachable hf
  rw [← h.sourceTotals_eq hr hf] at hcounts
  refine ⟨rfl, ?_, ?_, fun core => h.mem_keys_receivedByCore_readout dumps unreachable hf,
    fun core n => h.get?_receivedByCore_readout dumps unreachable hf, ?_, ?_, ?_, ?_⟩
  · rw [hstatus, ← hempty]
    split <;> simp [*]
  · rintro ⟨core, hcore, hn⟩
    refine ⟨_, ?_, fun core => h.mem_missingCores_readout dumps unreachable hf⟩
    rw [hstatus, if_neg]
    exact fun he => hn (hempty.1 he core hcore)
  · intro hsource
    obtain ⟨sent, blocked, hcounts, hsent, -⟩ := hcounts hsource
    show ∀ n, _ ↔ n = ((sourceTotals f.id _).map (·.1)).getD 0
    rw [hcounts]
    exact hsent
  · intro hsource
    obtain ⟨sent, blocked, hcounts, -, hblocked⟩ := hcounts hsource
    show ∀ n, _ ↔ n = ((sourceTotals f.id _).map (·.2)).getD 0
    rw [hcounts]
    exact hblocked
  · intro hsource
    have hcounts := (h.sourceCounts?_readout_eq_none dumps unreachable hf).2 hsource
    rw [← h.sourceTotals_eq hr hf] at hcounts
    unfold mergeFlow
    simp only [hcounts]
    exact ⟨rfl, rfl, rfl⟩
  · intro hsource hprod hsum
    obtain ⟨sent, blocked, hcounts, -⟩ := hcounts hsource
    unfold mergeFlow at hprod hsum ⊢
    simp only [hcounts, Option.map_some, Option.getD_some] at hprod hsum ⊢
    rw [toNat_saturatingSub, toNat_saturatingMul hprod, toNat_saturatingSum hsum]

/-- Whatever the dumps hold, and whichever are absent or left over, a report has a result for every
flow and a report for every program, and each flow's result is exact. -/
theorem report_is_exact {s : Spec} {v : ValidSpec} {c : Compiled} (hv : s.validate = .ok v)
    (hc : compile v = .ok c) (dumps : Table CoreId CounterDump) (unreachable : KeySet CoreId) :
    (Report.ofDumps c.programs dumps unreachable).flows.keys = v.flows.keys ∧
    (Report.ofDumps c.programs dumps unreachable).cores.keys = c.programs.keys ∧
    ∀ f ∈ v.flows.values, ∃ r,
      (Report.ofDumps c.programs dumps unreachable).flows.get? f.id = some r ∧
      r.Exact c dumps f := by
  obtain ⟨flows, h⟩ := Compiled.from_of_compile (Spec.sound_of_validate hv).2 hc
  have hr := v.readouts flows dumps unreachable
  rw [h.ofDumps_eq dumps unreachable]
  refine ⟨h.ofReadouts_flows hr, ?_, fun f' hf' => ?_⟩
  · rw [Compiled.From.ofReadouts_cores hr, h.keys_programs]
  · obtain ⟨f, hf, rfl⟩ := h.exists_planned hf'
    exact ⟨_, h.get?_ofReadouts_flows hr hf, h.exact_mergeFlow dumps unreachable hf⟩

/-- Dumps of which the first core's is whole, the second's ends early, and one is of a core that has
no program. -/
def Compiled.unevenDumps (c : Compiled) : Table CoreId CounterDump :=
  (c.programs.map fun core p =>
    let dump := p.dump (List.replicate (p.slots.length * p.samples) 7)
    if core = ⟨1⟩ then { dump with bytes := dump.bytes.take 100 } else dump).insert
    ⟨9⟩ ⟨⟨9⟩, List.replicate 108 7⟩

/-- What is sent by the second core is not known, and the first core has received some of it. -/
theorem report_is_exact_twoCores :
    ∃ v c, Spec.twoCores.validate = .ok v ∧ compile v = .ok c ∧
      let report := Report.ofDumps c.programs c.unevenDumps .empty
      c.unevenDumps.keys = [⟨0⟩, ⟨1⟩, ⟨9⟩] ∧ report.cores.keys = c.programs.keys ∧
      (report.flows.values.map fun r => (r.sent, r.received.values)) = [(7, []), (0, [7])] ∧
      ∀ f ∈ v.flows.values, ∃ r, report.flows.get? f.id = some r ∧ r.Exact c c.unevenDumps f ∧
        r.status = .partially (.ofList [⟨1⟩]) := by
  have hdecided : (Spec.twoCores.validate.toOption.bind fun v => (compile v).toOption.map fun c =>
      let report := Report.ofDumps c.programs c.unevenDumps .empty
      (c.unevenDumps.keys,
        report.flows.values.map fun r => (r.sent, r.received.values, r.status))) =
      some ([⟨0⟩, ⟨1⟩, ⟨9⟩], [(7, [], .partially (.ofList [⟨1⟩])),
        (0, [7], .partially (.ofList [⟨1⟩]))]) := by
    decide +kernel
  obtain ⟨v, hv, hdecided⟩ := Option.bind_eq_some_iff.1 hdecided
  obtain ⟨c, hc, hdecided⟩ := Option.map_eq_some_iff.1 hdecided
  have hv := Checked.toOption_eq_some.1 hv
  have hc := Checked.toOption_eq_some.1 hc
  obtain ⟨hkeys, hresults⟩ := Prod.mk.inj hdecided
  obtain ⟨-, hcores, hflows⟩ := report_is_exact hv hc c.unevenDumps .empty
  refine ⟨v, c, hv, hc, hkeys, hcores, ?_, fun f hf => ?_⟩
  · have hcounts := congrArg (List.map fun x => (x.1, x.2.1)) hresults
    rw [List.map_map] at hcounts
    exact hcounts
  · obtain ⟨r, hr, hexact⟩ := hflows f hf
    refine ⟨r, hr, hexact, ?_⟩
    have hmem := List.mem_map_of_mem (f := fun r => (r.sent, r.received.values, r.status))
      (Table.mem_values.2 ⟨_, hr⟩)
    rw [hresults] at hmem
    simp only [List.mem_cons, List.not_mem_nil, or_false, Prod.mk.injEq] at hmem
    rcases hmem with ⟨-, -, hstatus⟩ | ⟨-, -, hstatus⟩ <;> exact hstatus

end TrafficLab
