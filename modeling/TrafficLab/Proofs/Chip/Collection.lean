import Mathlib.Tactic.Choose
import TrafficLab.Proofs.Chip.Machine
import TrafficLab.Proofs.Chip.Traffic
import TrafficLab.Proofs.Dump

/-!
# What a whole run leaves behind

When the cores of a compiled specification have all run together, the dump of each core has a row
for every record, and the place of a slot in the row of a record holds what the slot's role had
counted by then.  So the dumps of a flow's cores agree about its packets at every record.

    value in row k of the slot of a source = packets sent by the k-th record    (exists_counts)
    the dump of a core holds every flow of the core                             (holdsFlow_runDump)
-/

namespace TrafficLab

/-! ## Rows of one length -/

/-- An entry of rows that follow each other. -/
theorem getElem?_flatMap_rows {α β : Type} {g : α → List β} {n : Nat} {l : List α}
    (hlen : ∀ a ∈ l, (g a).length = n) {i : Nat} (hi : i < n) (k : Nat) :
    (l.flatMap g)[k * n + i]? = l[k]?.bind fun a => (g a)[i]? := by
  induction l generalizing k with
  | nil => rfl
  | cons a rest ih =>
    have ha := hlen a (by simp)
    rw [List.flatMap_cons]
    cases k with
    | zero => rw [List.getElem?_append_left (by omega), Nat.zero_mul, Nat.zero_add]; rfl
    | succ k =>
      have hplace : (k + 1) * n + i - n = k * n + i := by
        rw [Nat.succ_mul]
        omega
      rw [List.getElem?_append_right (by rw [Nat.succ_mul]; omega), ha, hplace]
      exact ih (fun b hb => hlen b (by simp [hb])) k

/-! ## Runs of all cores -/

/-- The ticks at which a core records its counters, with the end of the run. -/
def Setup.rowTimes (s : Setup) : List Nat := s.recordTimes s.runTicks ++ [s.runTicks]

theorem Setup.le_of_mem_rowTimes {s : Setup} {t : Nat} (h : t ∈ s.rowTimes) : t ≤ s.runTicks := by
  rcases List.mem_append.1 h with h | h
  · obtain ⟨i, hi, rfl⟩ := List.mem_map.1 (List.mem_filter.1 h).1
    exact List.mem_range.1 hi
  · exact Nat.le_of_eq (List.mem_singleton.1 h)

/-- Rows are made one after another. -/
theorem Setup.pairwise_rowTimes (s : Setup) : s.rowTimes.Pairwise (· < ·) := by
  have hrange : ((List.range s.runTicks).map (· + 1)).Pairwise (· < ·) := by
    rw [List.pairwise_map]
    exact List.pairwise_lt_range.imp fun hlt => Nat.succ_lt_succ hlt
  unfold rowTimes
  rw [List.pairwise_append]
  refine ⟨hrange.filter _, List.pairwise_singleton _ _, fun t ht u hu => ?_⟩
  rw [List.mem_singleton.1 hu]
  exact lt_of_mem_recordTimes ht

namespace CorePlan

variable (p : CorePlan)

/-- There is a record for each interval that begins before the end of the run. -/
theorem samples_eq (hpos : 0 < p.runTicks.toNat) :
    p.samples = (p.runTicks.toNat - 1) / p.recordInterval.toNat + 1 := by
  unfold samples
  simp only
  split
  · next hzero => rw [hzero, Nat.div_zero]
  · next hne =>
    have hsum : p.runTicks.toNat + (p.recordInterval.toNat - 1) =
        p.runTicks.toNat - 1 + p.recordInterval.toNat := by omega
    rw [hsum, Nat.add_div_right _ (Nat.pos_of_ne_zero hne)]
    exact Nat.max_eq_left (Nat.le_add_left 1 _)

/-- A core makes its rows at the ticks that its program says. -/
theorem rowTimes_setup (hpos : 0 < p.runTicks.toNat)
    (hinterval : p.recordInterval.count.toUInt32.toNat = p.recordInterval.toNat) :
    p.setup.rowTimes = p.sampleTicks := by
  have hrecords : p.setup.recordTimes p.setup.runTicks =
      (List.range ((p.runTicks.toNat - 1) / p.recordInterval.toNat)).map
        fun j => (j + 1) * p.recordInterval.toNat := by
    rw [← hinterval]
    exact Setup.recordTimes_eq hpos
  unfold Setup.rowTimes sampleTicks
  rw [hrecords, p.samples_eq hpos, List.range_succ, List.map_append, List.map_singleton]
  by_cases hzero : p.recordInterval.toNat = 0
  · rw [hzero, Nat.div_zero]
    unfold sampleTick
    simp only [hzero, if_true]
    rfl
  · -- the last record comes within an interval of the one before it
    have hdiv := Nat.div_add_mod (p.runTicks.toNat - 1) p.recordInterval.toNat
    have hmod := Nat.mod_lt (p.runTicks.toNat - 1) (Nat.pos_of_ne_zero hzero)
    congr 1
    · refine List.map_congr_left fun j hj => ?_
      have hle : (j + 1) * p.recordInterval.toNat ≤
          (p.runTicks.toNat - 1) / p.recordInterval.toNat * p.recordInterval.toNat :=
        Nat.mul_le_mul_right _ (List.mem_range.1 hj)
      rw [Nat.mul_comm (_ / _)] at hle
      unfold sampleTick
      simp only [hzero, if_false]
      omega
    · have hnext := Nat.add_one_mul ((p.runTicks.toNat - 1) / p.recordInterval.toNat)
        p.recordInterval.toNat
      rw [Nat.mul_comm (_ / _)] at hnext
      unfold sampleTick
      simp only [hzero, if_false]
      congr 1
      show p.runTicks.toNat = _
      omega

end CorePlan

namespace ValidSpec

variable (v : ValidSpec) (flows : List PlannedFlow) (capacity : Nat) (n : Network) (seed : UInt64)

/-- The state of a run of all cores after so many ticks. -/
def runAfter (elapsed : Nat) : Run :=
  .after capacity n seed (v.setups flows) (recorders (v.setups flows)) elapsed

/-- The position of a core among those that run. -/
def position (core : CoreId) : Nat := v.participants.keys.idxOf core

/-- The dump of a core when all cores have run. -/
def runDump (core : CoreId) : List UInt8 :=
  let s := (v.corePlan flows core).setup
  Dump.layout s.tag (UInt32.ofNat s.counters.size)
    ((Run.values capacity n seed (v.setups flows) (v.position core) s).map UInt64.ofNat)

variable {v} in
theorem getElem?_position {core : CoreId} (h : core ∈ v.participants.keys) :
    v.participants.keys[v.position core]? = some core :=
  List.getElem?_idxOf h

end ValidSpec

namespace Compiled.From

variable {v : ValidSpec} {flows : List PlannedFlow} {c : Compiled} (h : c.From v flows)
  (capacity : Nat) (n : Network) (seed : UInt64)

include h

omit h in
theorem runAfter_sound (elapsed : Nat) :
    (v.runAfter flows capacity n seed elapsed).Sound (v.setups flows) n.loss v.spec.consume
      elapsed := by
  refine Run.sound_after capacity n seed _ (fun s hs => ?_) elapsed
  obtain ⟨core, -, rfl⟩ := List.mem_map.1 hs
  rfl

theorem rowTimes_eq (core : CoreId) :
    (v.corePlan flows core).setup.rowTimes = (v.corePlan flows core).sampleTicks := by
  refine CorePlan.rowTimes_setup _ ?_ (h.playable core).lossless.recordInterval
  rw [h.runTicks_eq]
  exact h.valid.runTicks_pos

/-- There is a row for each record. -/
theorem length_rowTimes (core : CoreId) :
    (v.corePlan flows core).setup.rowTimes.length = (v.corePlan flows core).samples := by
  rw [h.rowTimes_eq, CorePlan.length_sampleTicks]

omit h in
theorem matches_runDump (core : CoreId) :
    Dump.Matches (v.corePlan flows core).assemble (v.runDump flows capacity n seed core) := by
  unfold ValidSpec.runDump
  simp only [CorePlan.size_counters_setup]
  exact Dump.matches_layout (v.corePlan flows core).assemble _

/-- At every tick each core has a row, with an entry for each of its slots. -/
theorem exists_row {core : CoreId} (hcore : core ∈ v.participants.keys) (t : Nat) :
    ∃ row, (v.runAfter flows capacity n seed t).row? (v.position core)
        (v.corePlan flows core).setup = some row ∧
      row.length = (v.corePlan flows core).slots.length ∧
      ∀ (i : Nat) slot, (v.corePlan flows core).slots[i]? = some slot →
        (slot.metric = .sent → row[i]? =
          (v.runAfter flows capacity n seed t).sent? (v.position core) slot.role.toNat) ∧
        (slot.metric = .received → row[i]? =
          received? (v.runAfter flows capacity n seed t).receivers (v.position core)
            slot.role.toNat) := by
  obtain ⟨row, hrow, hlen, hsent, hreceived⟩ := (runAfter_sound capacity n seed t).exists_row
    (getElem?_setups (ValidSpec.getElem?_position hcore)) (h.playable core).countersFit
  rw [CorePlan.size_counters_setup] at hlen
  refine ⟨row, hrow, hlen, fun i slot hslot => ?_⟩
  have hcounter : (v.corePlan flows core).setup.counters[i]? = some (slot.metric, slot.role) := by
    show ((v.corePlan flows core).slots.map fun s => (s.metric, s.role)).toArray[i]? = _
    rw [List.getElem?_toArray, List.getElem?_map, hslot]
    rfl
  constructor <;> intro hmetric <;> rw [hmetric] at hcounter
  · exact hsent i slot.role hcounter
  · exact hreceived i slot.role hcounter

/-- The place of a slot in the row of a record holds the slot's entry at the time of the record. -/
theorem valueAt?_runDump {core : CoreId} (hcore : core ∈ v.participants.keys) {i : Nat}
    (hi : i < (v.corePlan flows core).slots.length) (k : Nat) :
    Dump.valueAt? (v.runDump flows capacity n seed core)
      (k * (v.corePlan flows core).slots.length + i) =
    ((v.corePlan flows core).setup.rowTimes[k]?.bind fun t =>
      (((v.runAfter flows capacity n seed t).row? (v.position core)
        (v.corePlan flows core).setup).getD [])[i]?).map UInt64.ofNat := by
  unfold ValidSpec.runDump
  simp only [Dump.valueAt?_layout, List.getElem?_map]
  congr 1
  refine getElem?_flatMap_rows (fun t _ => ?_) hi k
  obtain ⟨row, hrow, hlen, -⟩ := h.exists_row capacity n seed hcore t
  show (((v.runAfter flows capacity n seed t).row? _ _).getD []).length = _
  rw [hrow]
  exact hlen

/-- The last record is made at the end of the run. -/
theorem getElem?_rowTimes (core : CoreId) :
    (v.corePlan flows core).setup.rowTimes[(v.corePlan flows core).samples - 1]? =
      some v.spec.runTicks := by
  rw [← h.length_rowTimes, ← h.runTicks_eq core]
  unfold Setup.rowTimes
  rw [List.length_append, List.length_singleton, Nat.add_sub_cancel]
  exact List.getElem?_concat_length

/-- The dump of a core holds all of its flows. -/
theorem holdsFlow_runDump {core : CoreId} (hcore : core ∈ v.participants.keys) (flow : FlowId) :
    Dump.HoldsFlow (v.corePlan flows core).assemble (v.runDump flows capacity n seed core)
      flow := by
  refine ⟨matches_runDump capacity n seed core, fun i slot hslot _ => ?_⟩
  have hi := (List.getElem?_eq_some_iff.1 hslot).1
  obtain ⟨row, hrow, hlen, -⟩ := h.exists_row capacity n seed hcore v.spec.runTicks
  show (Dump.valueAt? _ (((v.corePlan flows core).samples - 1) *
    (v.corePlan flows core).slots.length + i)).isSome
  rw [h.valueAt?_runDump capacity n seed hcore hi, h.getElem?_rowTimes, Option.bind_some, hrow,
    Option.getD_some, List.getElem?_eq_getElem (hlen ▸ hi)]
  rfl

end Compiled.From

/-! ## What the dumps say about a flow -/

/-- The dump of a core says in the row of each record how much of a flow had been counted. -/
def ValidSpec.Told (v : ValidSpec) (flows : List PlannedFlow) (bytes : List UInt8) (flow : FlowId)
    (core : CoreId) (m : Metric) (count : Nat → Nat) : Prop :=
  ∀ (i : Nat) slot, (v.corePlan flows core).slots[i]? = some slot → slot.flow = some flow →
    slot.metric = m → ∀ k : Nat,
      Dump.valueAt? bytes (k * (v.corePlan flows core).slots.length + i) =
        ((v.corePlan flows core).setup.rowTimes.map fun t => UInt64.ofNat (count t))[k]?

namespace Compiled.From

variable {v : ValidSpec} {flows : List PlannedFlow} {c : Compiled} (h : c.From v flows)
  (capacity : Nat) (n : Network) (seed : UInt64)

include h

theorem told_of_rows {core : CoreId} (hcore : core ∈ v.participants.keys) {flow : FlowId}
    {m : Metric} {count : Nat → Nat}
    (hrows : ∀ (i : Nat) slot, (v.corePlan flows core).slots[i]? = some slot →
      slot.flow = some flow → slot.metric = m → ∀ t row,
        (v.runAfter flows capacity n seed t).row? (v.position core)
          (v.corePlan flows core).setup = some row → row[i]? = some (count t)) :
    v.Told flows (v.runDump flows capacity n seed core) flow core m count := by
  intro i slot hslot hflow hmetric k
  rw [h.valueAt?_runDump capacity n seed hcore (List.getElem?_eq_some_iff.1 hslot).1,
    List.getElem?_map]
  cases (v.corePlan flows core).setup.rowTimes[k]? with
  | none => rfl
  | some t =>
    obtain ⟨row, hrow, -⟩ := h.exists_row capacity n seed hcore t
    rw [Option.bind_some, hrow, Option.getD_some, hrows i slot hslot hflow hmetric t row hrow]
    rfl

/-- The number of a slot's role is the place of its flow. -/
theorem role_of_sent {core : CoreId} {f : PlannedFlow} {i : Nat}
    (hi : (flows.filter fun g => g.sentBy core)[i]? = some f) {slot : Slot}
    (hslot : slot ∈ (v.corePlan flows core).slots) (hflow : slot.flow = some f.id)
    (hmetric : slot.metric = .sent) : slot.role.toNat = i := by
  rcases h.role_of_slot core hslot with ⟨-, g, hg, hid⟩ | ⟨hsink, -⟩ | ⟨-, -, counter, hc⟩
  · rw [hflow] at hid
    exact h.place_eq hi hg (Option.some_inj.1 hid).symm
  · rw [hmetric] at hsink
    cases hsink
  · rw [hmetric] at hc
    cases hc

theorem role_of_received {core : CoreId} {f : PlannedFlow} {j : Nat}
    (hj : (flows.filter fun g => g.receivedBy core)[j]? = some f) {slot : Slot}
    (hslot : slot ∈ (v.corePlan flows core).slots) (hflow : slot.flow = some f.id)
    (hmetric : slot.metric = .received) : slot.role.toNat = j := by
  rcases h.role_of_slot core hslot with ⟨hsource, -⟩ | ⟨-, g, hg, hid⟩ | ⟨-, -, counter, hc⟩
  · rw [hmetric] at hsource
    cases hsource
  · rw [hflow] at hid
    exact h.place_eq hj hg (Option.some_inj.1 hid).symm
  · rw [hmetric] at hc
    cases hc

/-- Over a whole run a flow has its packets sent and received, and its cores' dumps tell how many
they were at each record. -/
theorem exists_counts {f : PlannedFlow} (hf : f ∈ flows) :
    ∃ (sent : Nat → Nat) (received : CoreId → Nat → Nat),
      (∀ t, sent t ≤ t) ∧
      v.Told flows (v.runDump flows capacity n seed f.route.source) f.id f.route.source .sent sent ∧
      ∀ core ∈ f.route.sinks,
        (∀ t, Accounted n.loss v.spec.consume (sent t) (received core t)) ∧
        v.Told flows (v.runDump flows capacity n seed core) f.id core .received
          (received core) := by
  have hsource := h.mem_participants hf (List.mem_cons_self : f.route.source ∈ f.route.cores)
  have hd := ValidSpec.getElem?_position hsource
  obtain ⟨i, hi⟩ := List.getElem?_of_mem
    (List.mem_filter.2 ⟨hf, beq_self_eq_true f.route.source⟩ :
      f ∈ flows.filter fun g => g.sentBy f.route.source)
  have hrun : ∀ t, (v.runAfter flows capacity n seed t).Sound (v.setups flows) n.loss
      v.spec.consume t := fun t => runAfter_sound capacity n seed t
  choose sent hsent hle using fun t => exists_sent (hrun t) hd hi
  have hsinks : ∀ core, ∃ received : Nat → Nat, core ∈ f.route.sinks →
      (∀ t, Accounted n.loss v.spec.consume (sent t) (received t)) ∧
      v.Told flows (v.runDump flows capacity n seed core) f.id core .received received := by
    intro core
    by_cases hsink : core ∈ f.route.sinks
    · have hcore := h.mem_participants hf (List.mem_cons_of_mem f.route.source hsink)
      have he := ValidSpec.getElem?_position hcore
      obtain ⟨j, hj⟩ := List.getElem?_of_mem
        (List.mem_filter.2 ⟨hf, List.contains_iff_mem.2 hsink⟩ :
          f ∈ flows.filter fun g => g.receivedBy core)
      choose a received ha hreceived haccounted using
        fun t => h.exists_accounted (hrun t) hf hd hi he hj
      refine ⟨received, fun _ => ⟨fun t => ?_, ?_⟩⟩
      · have hsame := ha t
        rw [hsent] at hsame
        rw [Option.some_inj.1 hsame]
        exact haccounted t
      · refine h.told_of_rows capacity n seed hcore fun k slot hslot hflow hmetric t row hrow => ?_
        obtain ⟨row', hrow', -, hentry⟩ := h.exists_row capacity n seed hcore t
        rw [hrow] at hrow'
        cases hrow'
        rw [(hentry k slot hslot).2 hmetric,
          h.role_of_received hj (List.mem_of_getElem? hslot) hflow hmetric, hreceived]
    · exact ⟨fun _ => 0, fun hc => absurd hc hsink⟩
  choose received hreceived using hsinks
  refine ⟨sent, received, hle, ?_, hreceived⟩
  refine h.told_of_rows capacity n seed hsource fun k slot hslot hflow hmetric t row hrow => ?_
  obtain ⟨row', hrow', -, hentry⟩ := h.exists_row capacity n seed hsource t
  rw [hrow] at hrow'
  cases hrow'
  rw [(hentry k slot hslot).1 hmetric,
    h.role_of_sent hi (List.mem_of_getElem? hslot) hflow hmetric, hsent]

end Compiled.From

end TrafficLab
