import Mathlib.Data.List.Basic
import Mathlib.Data.List.Perm.Subperm
import TrafficLab.Proofs.Chip.Collection
import TrafficLab.Proofs.Report.Timeline

/-!
# Conservation of packets in reports

From the dumps of a whole run every flow gets a result that accounts for each of its packets: it has
an entry for each sink, no entry is above what was sent, and what the entries lack are the packets
that were dropped.

    metric of a flow = what the role had counted at the end of the run      (metric?_runDump)
    a sample of the timeline = what the roles had counted by its tick       (exists_of_mem_timeline)
    every flow's result is conserved                                        (conserved_mergeFlow)
-/

namespace TrafficLab

/-! ## Sums of words -/

/-- What the entries of a list lack of a bound. -/
theorem sum_map_sub {l : List Nat} {a : Nat} (h : ∀ n ∈ l, n ≤ a) :
    (l.map fun n => a - n).sum = a * l.length - l.sum := by
  have hsum : (l.map fun n => a - n).sum + l.sum = a * l.length := by
    induction l with
    | nil => rfl
    | cons n rest ih =>
      have hn := h n (by simp)
      have hrest := ih fun m hm => h m (by simp [hm])
      rw [List.map_cons, List.sum_cons, List.sum_cons, List.length_cons, Nat.mul_succ, ← hrest]
      omega
  omega

theorem sum_le_mul {l : List Nat} {a : Nat} (h : ∀ n ∈ l, n ≤ a) : l.sum ≤ a * l.length := by
  induction l with
  | nil => exact Nat.zero_le _
  | cons n rest ih =>
    have hn := h n (by simp)
    have hrest := ih fun m hm => h m (by simp [hm])
    rw [List.sum_cons, List.length_cons, Nat.mul_succ]
    omega

theorem sum_eq_mul {l : List Nat} {a : Nat} (h : ∀ n ∈ l, n = a) : l.sum = a * l.length := by
  rw [List.eq_replicate_of_mem h, List.sum_replicate_nat, List.length_replicate, Nat.mul_comm]

/-- There are not more cores than core ids. -/
theorem length_le_of_nodup {l : List CoreId} (h : l.Nodup) : l.length ≤ UInt32.size := by
  have hval : (l.map fun core => core.val.toNat).Nodup := by
    refine h.map fun a b e => ?_
    cases a
    cases b
    exact congrArg Id.mk (UInt32.toNat_inj.1 e)
  have hsub : (l.map fun core => core.val.toNat) ⊆ List.range UInt32.size := by
    intro x hx
    obtain ⟨core, -, rfl⟩ := List.mem_map.1 hx
    exact List.mem_range.2 core.val.toNat_lt
  have hle := (hval.subperm hsub).length_le
  rwa [List.length_map, List.length_range] at hle

namespace Compiled.From

variable {v : ValidSpec} {flows : List PlannedFlow} {c : Compiled} (h : c.From v flows)
  {capacity : Nat} {n : Network} {seed : UInt64} {dumps : Table CoreId CounterDump}
  (unreachable : KeySet CoreId)
  (hdumps : ∀ core ∈ v.participants.keys,
    dumps.get? core = some ⟨core, v.runDump flows capacity n seed core⟩)

include h hdumps

/-! ## What readouts of a whole run say -/

theorem contributes_of_dumps {core : CoreId} (hcore : core ∈ v.participants.keys) (flow : FlowId) :
    c.Contributes dumps flow core :=
  ⟨_, _, h.get?_programs.2 ⟨hcore, rfl⟩, hdumps core hcore,
    h.holdsFlow_runDump capacity n seed hcore flow⟩

section
variable {core : CoreId} (hcore : core ∈ v.participants.keys) {f : PlannedFlow} {i : Nat}
  {slot : Slot} {m : Metric} (hslot : (v.corePlan flows core).slots[i]? = some slot)
  (hflow : slot.flow = some f.id) (hmetric : slot.metric = m) {count : Nat → Nat}
  (htold : v.Told flows (v.runDump flows capacity n seed core) f.id core m count)

include hcore hslot hflow hmetric htold

/-- The last record has what a slot had counted at the end of the run. -/
theorem finalValue_of_told :
    c.FinalValue dumps f.id core m (UInt64.ofNat (count v.spec.runTicks)) := by
  refine ⟨_, _, i, slot, h.get?_programs.2 ⟨hcore, rfl⟩, hdumps core hcore, hslot, hflow, hmetric,
    ?_⟩
  show Dump.valueAt? _ (((v.corePlan flows core).samples - 1) *
    (v.corePlan flows core).slots.length + i) = _
  rw [htold i slot hslot hflow hmetric, List.getElem?_map, h.getElem?_rowTimes]
  rfl

theorem metric?_runDump : (v.readout flows dumps unreachable core).metric? f.id m =
    some (UInt64.ofNat (count v.spec.runTicks)) := by
  rw [h.metric?_readout dumps unreachable hcore hslot hflow hmetric]
  exact ⟨h.contributes_of_dumps hdumps hcore f.id,
    h.finalValue_of_told hdumps hcore hslot hflow hmetric htold⟩

theorem series?_runDump : (v.readout flows dumps unreachable core).series? f.id m =
    if 1 < (v.corePlan flows core).samples then
      some ((v.corePlan flows core).setup.rowTimes.map fun t => UInt64.ofNat (count t))
    else none := by
  have hlen : ((v.corePlan flows core).setup.rowTimes.map fun t => UInt64.ofNat (count t)).length =
      (v.corePlan flows core).samples := by
    rw [List.length_map]
    exact h.length_rowTimes core
  have hseries : (Dump.read (v.corePlan flows core).assemble
      ⟨core, v.runDump flows capacity n seed core⟩).flowSeries?
        (v.corePlan flows core).assemble f.id m = some _ :=
    Dump.flowSeries?_read (h.slots_apart core) hslot hflow hmetric
      (h.holdsFlow_runDump capacity n seed hcore f.id) hlen
      fun k _ => htold i slot hslot hflow hmetric k
  unfold ValidSpec.readout
  rw [hdumps core hcore]
  show (if 1 < (v.corePlan flows core).samples then
    (Dump.read (v.corePlan flows core).assemble
      ⟨core, v.runDump flows capacity n seed core⟩).flowSeries?
        (v.corePlan flows core).assemble f.id m else none) = _
  rw [hseries]

end

/-! ## Timelines -/

section
variable {f : PlannedFlow} (hf : f ∈ flows) {sent : Nat → Nat} {received : CoreId → Nat → Nat}
  (hsent : v.Told flows (v.runDump flows capacity n seed f.route.source) f.id f.route.source .sent
    sent)
  (hreceived : ∀ core ∈ f.route.sinks,
    v.Told flows (v.runDump flows capacity n seed core) f.id core .received (received core))

include hf hreceived

/-- All sinks are in the totals, and have what they had received at each record. -/
theorem sinks_runDump (hmany : 1 < (v.corePlan flows f.route.source).samples) :
    (receivedByCore f.id (v.participants.keys.map (v.readout flows dumps unreachable))).keys =
      v.receivers f.toRoutedFlow ∧
    ∀ core ∈ v.receivers f.toRoutedFlow,
      (v.readout flows dumps unreachable core).series? f.id .received =
        some ((v.corePlan flows core).setup.rowTimes.map fun t =>
          UInt64.ofNat (received core t)) := by
  rw [h.keys_receivedByCore hf (v.readouts flows dumps unreachable), List.filter_eq_self,
    ← forall₂_and]
  intro core hc
  have hc := (h.mem_receivers hf).1 hc
  have hcore := h.mem_participants hf (List.mem_cons_of_mem f.route.source hc)
  obtain ⟨i, slot, hslot, hflow, hmetric⟩ := h.exists_sinkSlot hf hc
  rw [h.metric?_runDump unreachable hdumps hcore hslot hflow hmetric (hreceived core hc),
    h.series?_runDump unreachable hdumps hcore hslot hflow hmetric (hreceived core hc)]
  exact ⟨rfl, if_pos hmany⟩

include hsent

/-- A sample of the timeline says what had been sent and received at one tick. -/
theorem exists_of_mem_timeline {x : FlowSample}
    (hx : x ∈ timeline f.id (v.participants.keys.map (v.readout flows dumps unreachable))) :
    ∃ t ≤ v.spec.runTicks, x.sent = UInt64.ofNat (sent t) ∧
      x.received = saturatingSum ((v.receivers f.toRoutedFlow).map fun core =>
        UInt64.ofNat (received core t)) := by
  obtain ⟨k, hk⟩ := List.getElem?_of_mem hx
  obtain ⟨hmany, hlt, hsentAt, hreceivedAt⟩ := h.sample_readout dumps unreachable hf hk
  have htimes : ∀ core, (v.corePlan flows core).setup.rowTimes =
      (v.corePlan flows f.route.source).setup.rowTimes := fun core => rfl
  obtain ⟨t, ht⟩ : ∃ t, (v.corePlan flows f.route.source).setup.rowTimes[k]? = some t :=
    ⟨_, List.getElem?_eq_getElem (h.length_rowTimes f.route.source ▸ hlt)⟩
  refine ⟨t, ?_, ?_, ?_⟩
  · rw [← h.runTicks_eq f.route.source]
    exact Setup.le_of_mem_rowTimes (List.mem_of_getElem? ht)
  · have hcore := h.mem_participants hf (List.mem_cons_self : f.route.source ∈ f.route.cores)
    obtain ⟨i, slot, hslot, hflow, hmetric⟩ := h.exists_sourceSlot hf (m := .sent) rfl
    rw [hsentAt, h.series?_runDump unreachable hdumps hcore hslot hflow hmetric hsent,
      if_pos hmany, Option.bind_some, List.getElem?_map, ht]
    rfl
  · obtain ⟨hkeys, hseries⟩ := h.sinks_runDump unreachable hdumps hf hreceived hmany
    rw [hreceivedAt, hkeys, List.filterMap_eq_map_iff_forall_eq_some.2 fun core hc => ?_]
    rw [hseries core hc, Option.bind_some, List.getElem?_map, htimes, ht]
    rfl

end

end Compiled.From

/-! ## Results -/

/-- A result that accounts for all packets of a flow. -/
structure FlowResult.Conserved (loss : Loss) (consume : Bool) (f : RoutedFlow) (r : FlowResult) :
    Prop where
  complete : r.status = .complete
  /-- There is one entry for each sink. -/
  received : r.received.keys.Perm f.route.sinks
  received_le : ∀ n ∈ r.received.values, n.toNat ≤ r.sent.toNat
  /-- What the sinks lack has been dropped. -/
  dropped : r.dropped.toNat = (r.received.values.map fun n => r.sent.toNat - n.toNat).sum
  /-- Without losses, cores that take packets have received all of them, at every tick. -/
  all : loss = .ofRate 0 → consume = true →
    (∀ n ∈ r.received.values, n = r.sent) ∧ r.dropped = 0 ∧
      ∀ x ∈ r.timeline, x.received.toNat = x.sent.toNat * f.route.sinks.length
  /-- Cores that do not take packets have received none. -/
  none : consume = false →
    (∀ n ∈ r.received.values, n = 0) ∧
      r.dropped.toNat = r.sent.toNat * f.route.sinks.length

theorem Loss.ofRate_zero : Loss.ofRate 0 = .never := by
  decide

/-- A result that says how many packets had been sent, and received by each of some cores, when the
run was over, and in its timeline how many they were earlier. -/
structure FlowResult.Tells (runTicks : Nat) (receivers : List CoreId) (sentAt : Nat → Nat)
    (receivedAt : CoreId → Nat → Nat) (r : FlowResult) : Prop where
  complete : r.status = .complete
  sent : r.sent = UInt64.ofNat (sentAt runTicks)
  received : ∀ core x, r.received.get? core = some x ↔
    core ∈ receivers ∧ x = UInt64.ofNat (receivedAt core runTicks)
  dropped : r.sent.toNat * r.received.size < UInt64.size →
    (r.received.values.map UInt64.toNat).sum < UInt64.size →
    r.dropped.toNat = r.sent.toNat * r.received.size - (r.received.values.map UInt64.toNat).sum
  timeline : ∀ x ∈ r.timeline, ∃ t ≤ runTicks, x.sent = UInt64.ofNat (sentAt t) ∧
    x.received = saturatingSum (receivers.map fun core => UInt64.ofNat (receivedAt core t))

/-- Counts over a run that is short enough for words: a source sends at most one packet in a tick,
and no sink receives what was not sent to it. -/
structure Counts (loss : Loss) (consume : Bool) (runTicks : Nat) (receivers : List CoreId)
    (sentAt : Nat → Nat) (receivedAt : CoreId → Nat → Nat) : Prop where
  run_lt : runTicks < UInt32.size
  nodup : receivers.Nodup
  sent_le : ∀ t, sentAt t ≤ t
  accounted : ∀ core ∈ receivers, ∀ t, Accounted loss consume (sentAt t) (receivedAt core t)

namespace Counts

variable {loss : Loss} {consume : Bool} {runTicks : Nat} {receivers : List CoreId}
  {sentAt : Nat → Nat} {receivedAt : CoreId → Nat → Nat}
  (h : Counts loss consume runTicks receivers sentAt receivedAt) {t : Nat} (ht : t ≤ runTicks)

include h ht

theorem toNat_sent : (UInt64.ofNat (sentAt t)).toNat = sentAt t := by
  have hle := h.sent_le t
  have hrun := h.run_lt
  exact UInt64.toNat_ofNat_of_lt' (by
    show sentAt t < 18446744073709551616
    have : UInt32.size = 4294967296 := rfl
    omega)

theorem toNat_received {core : CoreId} (hc : core ∈ receivers) :
    (UInt64.ofNat (receivedAt core t)).toNat = receivedAt core t := by
  have hle := (h.accounted core hc t).le
  have hsent := h.toNat_sent ht
  have hlt := (UInt64.ofNat (sentAt t)).toNat_lt
  exact UInt64.toNat_ofNat_of_lt' (by
    show receivedAt core t < 18446744073709551616
    omega)

/-- All packets of a flow can be counted in one word. -/
theorem total_lt : sentAt t * receivers.length < UInt64.size := by
  have hle := h.sent_le t
  have hrun := h.run_lt
  have hlen := length_le_of_nodup h.nodup
  have hmul : sentAt t * receivers.length ≤ (UInt32.size - 1) * UInt32.size :=
    Nat.mul_le_mul (by omega) hlen
  exact Nat.lt_of_le_of_lt hmul (by decide)

theorem toNat_sum : (saturatingSum (receivers.map fun core =>
    UInt64.ofNat (receivedAt core t))).toNat =
      (receivers.map fun core => receivedAt core t).sum := by
  have hmap : (receivers.map fun core => UInt64.ofNat (receivedAt core t)).map UInt64.toNat =
      receivers.map fun core => receivedAt core t := by
    rw [List.map_map]
    exact List.map_congr_left fun core hc => h.toNat_received ht hc
  have hsum : (receivers.map fun core => receivedAt core t).sum ≤ sentAt t * receivers.length := by
    rw [← List.length_map (f := fun core => receivedAt core t)]
    refine sum_le_mul fun x hx => ?_
    obtain ⟨core, hc, rfl⟩ := List.mem_map.1 hx
    exact (h.accounted core hc t).le
  rw [toNat_saturatingSum (by rw [hmap]; exact Nat.lt_of_le_of_lt hsum (h.total_lt ht)), hmap]

end Counts

namespace FlowResult.Tells

variable {runTicks : Nat} {receivers : List CoreId} {sentAt : Nat → Nat}
  {receivedAt : CoreId → Nat → Nat} {r : FlowResult}
  (h : r.Tells runTicks receivers sentAt receivedAt) {loss : Loss} {consume : Bool}
  (hcounts : Counts loss consume runTicks receivers sentAt receivedAt)

include h hcounts

theorem perm_keys : r.received.keys.Perm receivers := by
  rw [List.perm_ext_iff_of_nodup r.received.keys_nodup hcounts.nodup]
  intro core
  rw [Table.mem_keys]
  simp only [h.received, exists_and_left, exists_eq, and_true]

omit hcounts in
theorem exists_receiver {n : UInt64} (hn : n ∈ r.received.values) :
    ∃ core ∈ receivers, n = UInt64.ofNat (receivedAt core runTicks) := by
  obtain ⟨core, hcore⟩ := Table.mem_values.1 hn
  exact ⟨core, (h.received core n).1 hcore⟩

/-- An entry accounts for what was sent. -/
theorem accounted {n : UInt64} (hn : n ∈ r.received.values) :
    Accounted loss consume r.sent.toNat n.toNat := by
  obtain ⟨core, hc, rfl⟩ := h.exists_receiver hn
  rw [h.sent, hcounts.toNat_sent (Nat.le_refl _), hcounts.toNat_received (Nat.le_refl _) hc]
  exact hcounts.accounted core hc runTicks

theorem dropped_eq :
    r.dropped.toNat = (r.received.values.map fun n => r.sent.toNat - n.toNat).sum := by
  have hsize : r.received.size = receivers.length := by
    rw [← Table.length_keys]
    exact (h.perm_keys hcounts).length_eq
  have hlen : (r.received.values.map UInt64.toNat).length = r.received.size := by
    rw [List.length_map]
    exact List.length_map _
  have hle : ∀ x ∈ r.received.values.map UInt64.toNat, x ≤ r.sent.toNat := by
    intro x hx
    obtain ⟨n, hn, rfl⟩ := List.mem_map.1 hx
    exact (h.accounted hcounts hn).le
  have htotal : r.sent.toNat * r.received.size < UInt64.size := by
    rw [h.sent, hcounts.toNat_sent (Nat.le_refl _), hsize]
    exact hcounts.total_lt (Nat.le_refl _)
  have hsum := sum_le_mul hle
  rw [hlen] at hsum
  rw [h.dropped htotal (Nat.lt_of_le_of_lt hsum htotal), ← hlen, ← sum_map_sub hle, List.map_map]
  rfl

theorem conserved {f : RoutedFlow} (hperm : receivers.Perm f.route.sinks) :
    r.Conserved loss consume f := by
  have hkeys := (h.perm_keys hcounts).trans hperm
  have hlen : r.received.values.length = f.route.sinks.length := by
    rw [← hkeys.length_eq, Table.length_keys]
    exact List.length_map _
  have hdropped := h.dropped_eq hcounts
  refine ⟨h.complete, hkeys, fun n hn => (h.accounted hcounts hn).le, hdropped, ?_, ?_⟩
  · intro hloss hconsume
    rw [Loss.ofRate_zero] at hloss
    have hall : ∀ n ∈ r.received.values, n = r.sent := fun n hn =>
      UInt64.toNat_inj.1 ((h.accounted hcounts hn).all hloss hconsume)
    refine ⟨hall, UInt64.toNat_inj.1 ?_, fun x hx => ?_⟩
    · rw [hdropped, List.sum_eq_zero]
      · rfl
      · intro k hk
        obtain ⟨n, hn, rfl⟩ := List.mem_map.1 hk
        rw [hall n hn, Nat.sub_self]
    · obtain ⟨t, ht, hsent, hreceived⟩ := h.timeline x hx
      rw [hreceived, hsent, hcounts.toNat_sum ht, hcounts.toNat_sent ht, ← hperm.length_eq,
        ← List.length_map (f := fun core => receivedAt core t)]
      refine sum_eq_mul fun k hk => ?_
      obtain ⟨core, hc, rfl⟩ := List.mem_map.1 hk
      exact (hcounts.accounted core hc t).all hloss hconsume
  · intro hconsume
    have hnone : ∀ n ∈ r.received.values, n = 0 := fun n hn =>
      UInt64.toNat_inj.1 ((h.accounted hcounts hn).none hconsume)
    refine ⟨hnone, ?_⟩
    rw [hdropped, ← hlen, ← List.length_map (f := fun n : UInt64 => r.sent.toNat - n.toNat)]
    refine sum_eq_mul fun k hk => ?_
    obtain ⟨n, hn, rfl⟩ := List.mem_map.1 hk
    rw [hnone n hn]
    rfl

end FlowResult.Tells

namespace Compiled.From

variable {v : ValidSpec} {flows : List PlannedFlow} {c : Compiled} (h : c.From v flows)
  {capacity : Nat} {n : Network} {seed : UInt64} {dumps : Table CoreId CounterDump}
  (unreachable : KeySet CoreId)
  (hdumps : ∀ core ∈ v.participants.keys,
    dumps.get? core = some ⟨core, v.runDump flows capacity n seed core⟩)

include h

theorem perm_receivers {f : PlannedFlow} (hf : f ∈ flows) :
    (v.receivers f.toRoutedFlow).Perm f.route.sinks := by
  have hnodup : (v.receivers f.toRoutedFlow).Nodup := v.participants.keys_nodup.filter _
  rw [List.perm_ext_iff_of_nodup hnodup (h.placed hf).sinks_nodup]
  exact fun core => h.mem_receivers hf

include hdumps

/-- The result of a flow says what its roles had counted. -/
theorem tells_mergeFlow {f : PlannedFlow} (hf : f ∈ flows) {sent : Nat → Nat}
    {received : CoreId → Nat → Nat}
    (hsent : v.Told flows (v.runDump flows capacity n seed f.route.source) f.id f.route.source
      .sent sent)
    (hreceived : ∀ core ∈ f.route.sinks,
      v.Told flows (v.runDump flows capacity n seed core) f.id core .received (received core)) :
    (mergeFlow f.id (v.participants.keys.map (v.readout flows dumps unreachable))).Tells
      v.spec.runTicks (v.receivers f.toRoutedFlow) sent received := by
  have hexact := h.exact_mergeFlow dumps unreachable hf
  have hcontributes : ∀ core ∈ f.route.cores, c.Contributes dumps f.id core := fun core hc =>
    h.contributes_of_dumps hdumps (h.mem_participants hf hc) f.id
  have hsource := hcontributes f.route.source List.mem_cons_self
  refine ⟨hexact.complete.2 hcontributes, ?_, fun core x => ?_, hexact.dropped hsource, ?_⟩
  · obtain ⟨i, slot, hslot, hflow, hmetric⟩ := h.exists_sourceSlot hf (m := .sent) rfl
    have hcore := h.mem_participants hf (List.mem_cons_self : f.route.source ∈ f.route.cores)
    exact ((hexact.sent hsource _).1
      (h.finalValue_of_told hdumps hcore hslot hflow hmetric hsent)).symm
  · rw [hexact.received, h.mem_receivers hf]
    refine and_congr_right fun hc => ?_
    have hcore := List.mem_cons_of_mem f.route.source hc
    obtain ⟨i, slot, hslot, hflow, hmetric⟩ := h.exists_sinkSlot hf hc
    have hfinal := h.finalValue_of_told hdumps (h.mem_participants hf hcore) hslot hflow hmetric
      (hreceived core hc)
    have hentry := (hexact.received core _).2 ⟨hc, hcontributes core hcore, hfinal⟩
    constructor
    · rintro ⟨hcontributed, hx⟩
      have hsame := (hexact.received core x).2 ⟨hc, hcontributed, hx⟩
      rw [hentry] at hsame
      exact (Option.some_inj.1 hsame).symm
    · rintro rfl
      exact ⟨hcontributes core hcore, hfinal⟩
  · exact fun x hx => h.exists_of_mem_timeline unreachable hdumps hf hsent hreceived hx

theorem conserved_mergeFlow {f : PlannedFlow} (hf : f ∈ flows) :
    (mergeFlow f.id (v.participants.keys.map (v.readout flows dumps unreachable))).Conserved
      n.loss v.spec.consume f.toRoutedFlow := by
  obtain ⟨sent, received, hle, hsent, hsinks⟩ := h.exists_counts capacity n seed hf
  have htells := h.tells_mergeFlow unreachable hdumps hf hsent
    fun core hc => (hsinks core hc).2
  have hcounts : Counts n.loss v.spec.consume v.spec.runTicks (v.receivers f.toRoutedFlow) sent
      received :=
    ⟨h.runTicks_lt, v.participants.keys_nodup.filter _, hle,
      fun core hc => (hsinks core ((h.mem_receivers hf).1 hc)).1⟩
  exact htells.conserved hcounts (h.perm_receivers hf)

end Compiled.From

end TrafficLab
