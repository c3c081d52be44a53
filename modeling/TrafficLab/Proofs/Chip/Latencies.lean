import Mathlib.Algebra.BigOperators.Fin
import Mathlib.Algebra.Order.BigOperators.Group.List
import Mathlib.Algebra.Order.Chebyshev
import Mathlib.Tactic.FieldSimp
import TrafficLab.Proofs.Chip.Fitting
import TrafficLab.Proofs.Chip.Traffic

/-!
# Latencies

The three counters of a sink are the number, the sum and the sum of squares of some times, each of
which the network allows.  So they keep the bounds of the times, and the variance that a report
computes from them, for one sink or for all sinks of a flow together, is that of actual times.

    n.Allows l ↔ delay ≤ l ≤ delay + jitter                         (Network.allows_latency)
    t.Measured n true ↔ t = .ofTimes of allowed times               (Measured.take, Measured.pool)
    (∑ l)^2 ≤ received * ∑ l^2                                      (Measured.consistent)
-/

namespace TrafficLab

/-! ## How long a packet takes -/

namespace Random

theorem scaled_lt {range : Nat} (hrange : 0 < range) (zone tries : Nat) (r : Random) :
    (scaled range zone tries r).1 < range := by
  induction tries generalizing r with
  | zero => exact hrange
  | succ tries ih =>
    unfold scaled
    simp only
    split
    · rw [Nat.div_lt_iff_lt_mul (by decide), Nat.mul_comm range]
      exact Nat.mul_lt_mul_of_pos_right r.next.1.toNat_lt hrange
    · exact ih r.next.2

/-- A draw does not exceed the top. -/
theorem upTo_le (top : UInt32) (r : Random) : (r.upTo top).1 ≤ top.toNat := by
  have htop := top.toNat_lt
  unfold upTo
  simp only
  split
  · have hword := r.next.1.toNat_lt
    show r.next.1.toNat ≤ top.toNat
    omega
  · next hrange =>
    have hlt := scaled_lt (Nat.pos_of_ne_zero hrange)
      ((top.toNat + 1) % 2 ^ 32 * 2 ^ leadingZeros ((top.toNat + 1) % 2 ^ 32) - 1) 1000 r
    omega

end Random

/-- The times that a packet may take. -/
def Network.Allows (n : Network) (time : Nat) : Prop :=
  n.delay.toNat ≤ time ∧ time ≤ n.delay.toNat + n.jitter.toNat

theorem Network.allows_latency (n : Network) (r : Random) : n.Allows (n.latency r).1 := by
  unfold latency
  split
  · exact ⟨Nat.le_refl _, Nat.le_add_right _ _⟩
  · exact ⟨Nat.le_add_right _ _, Nat.add_le_add_left (Random.upTo_le n.jitter r) _⟩

/-! ## Tallies of times -/

namespace SinkTally

/-- The tally of packets that took the given times. -/
def ofTimes (times : List Nat) : SinkTally := ⟨times.length, times.sum, (times.map (· ^ 2)).sum⟩

/-- What several sinks have counted together. -/
def pool (ts : List SinkTally) : SinkTally :=
  ⟨(ts.map (·.received)).sum, (ts.map (·.latencySum)).sum, (ts.map (·.latencySumSq)).sum⟩

/-- The variance as a report takes it from the sums, but exact: the mean of the squares less the
square of the mean. -/
def variance (t : SinkTally) : ℚ :=
  t.latencySumSq / t.received - (t.latencySum / t.received) ^ 2

/-- Sums that may be those of the times of packets on a network. -/
structure Consistent (n : Network) (t : SinkTally) : Prop where
  le_sum : t.received * n.delay.toNat ≤ t.latencySum
  sum_le : t.latencySum ≤ t.received * (n.delay.toNat + n.jitter.toNat)
  le_sumSq : t.received * n.delay.toNat ^ 2 ≤ t.latencySumSq
  sumSq_le : t.latencySumSq ≤ t.received * (n.delay.toNat + n.jitter.toNat) ^ 2
  sum_sq_le : t.latencySum ^ 2 ≤ t.received * t.latencySumSq
  variance_nonneg : 0 ≤ t.variance
  steady : n.jitter = 0 → t.variance = 0

/-- What a sink of a flow may have counted. -/
def Agrees (n : Network) (t : SinkTally) : PayloadClass → Prop
  | .withPayload => t.Consistent n
  | .keyOnly => t.latencySum = 0 ∧ t.latencySumSq = 0

/-! ### Inequalities -/

/-- Cauchy and Schwarz for the times and as many ones. -/
theorem sq_sum_le (times : List Nat) :
    times.sum ^ 2 ≤ times.length * (times.map (· ^ 2)).sum := by
  have h := sq_sum_le_card_mul_sum_sq (s := (Finset.univ : Finset (Fin times.length)))
    (f := fun i => times[i.1])
  rwa [Finset.card_univ, Fintype.card_fin, Fin.sum_univ_getElem,
    Fin.sum_univ_fun_getElem times (· ^ 2)] at h

theorem variance_nonneg_of_le {t : SinkTally} (h : t.latencySum ^ 2 ≤ t.received * t.latencySumSq) :
    0 ≤ t.variance := by
  have hcast : (t.latencySum : ℚ) ^ 2 ≤ t.received * t.latencySumSq := by exact_mod_cast h
  unfold variance
  rcases Nat.eq_zero_or_pos t.received with hzero | hpos
  · simp [hzero]
  have hpos : (0 : ℚ) < t.received := by exact_mod_cast hpos
  rw [sub_nonneg, div_pow, div_le_div_iff₀ (by positivity) hpos]
  calc (t.latencySum : ℚ) ^ 2 * t.received ≤ t.received * t.latencySumSq * t.received := by gcongr
    _ = t.latencySumSq * t.received ^ 2 := by ring

/-- Equal times do not vary. -/
theorem variance_ofTimes_of_eq {times : List Nat} {d : Nat} (h : ∀ l ∈ times, l = d) :
    (ofTimes times).variance = 0 := by
  rw [List.eq_replicate_of_mem h]
  unfold ofTimes variance
  simp only [List.length_replicate, List.map_replicate, List.sum_replicate, smul_eq_mul]
  rcases Nat.eq_zero_or_pos times.length with hzero | hpos
  · simp [hzero]
  have hne : (times.length : ℚ) ≠ 0 := by exact_mod_cast hpos.ne'
  push_cast
  field_simp
  ring

theorem consistent_ofTimes {n : Network} {times : List Nat} (h : ∀ l ∈ times, n.Allows l) :
    (ofTimes times).Consistent n where
  le_sum := times.card_nsmul_le_sum _ fun l hl => (h l hl).1
  sum_le := times.sum_le_card_nsmul _ fun l hl => (h l hl).2
  le_sumSq := by
    have hle := (times.map (· ^ 2)).card_nsmul_le_sum (n.delay.toNat ^ 2) fun y hy => by
      obtain ⟨l, hl, rfl⟩ := List.mem_map.1 hy
      exact Nat.pow_le_pow_left (h l hl).1 2
    rwa [List.length_map] at hle
  sumSq_le := by
    have hle := (times.map (· ^ 2)).sum_le_card_nsmul ((n.delay.toNat + n.jitter.toNat) ^ 2)
      fun y hy => by
        obtain ⟨l, hl, rfl⟩ := List.mem_map.1 hy
        exact Nat.pow_le_pow_left (h l hl).2 2
    rwa [List.length_map] at hle
  sum_sq_le := sq_sum_le times
  variance_nonneg := variance_nonneg_of_le (sq_sum_le times)
  steady hjitter := variance_ofTimes_of_eq (d := n.delay.toNat) fun l hl => by
    have hl := h l hl
    unfold Network.Allows at hl
    rw [hjitter] at hl
    exact Nat.le_antisymm hl.2 hl.1

/-! ### What a sink has measured -/

/-- A tally of packets that all carry a time, or of packets that carry none. -/
inductive Measured (n : Network) : Bool → SinkTally → Prop
  | timed {times : List Nat} (h : ∀ l ∈ times, n.Allows l) : Measured n true (ofTimes times)
  | untimed (received : Nat) : Measured n false ⟨received, 0, 0⟩

namespace Measured

variable {n : Network} {timed : Bool} {t : SinkTally}

theorem zero (n : Network) (timed : Bool) : Measured n timed ⟨0, 0, 0⟩ := by
  cases timed with
  | false => exact .untimed 0
  | true => exact .timed (List.forall_mem_nil n.Allows)

/-- One packet more. -/
theorem take (h : Measured n timed t) (r : Random) :
    Measured n timed (t.take (if timed then some (n.latency r).1 else none)) := by
  cases h with
  | @timed times hall =>
    have hcons : (ofTimes times).take (some (n.latency r).1) =
        ofTimes ((n.latency r).1 :: times) := by
      simp only [SinkTally.take, ofTimes, List.length_cons, List.map_cons, List.sum_cons, pow_two,
        Nat.add_comm]
    rw [if_pos rfl, hcons]
    exact .timed (List.forall_mem_cons.2 ⟨n.allows_latency r, hall⟩)
  | untimed received => exact .untimed (received + 1)

theorem exists_times (h : Measured n true t) :
    ∃ times, (∀ l ∈ times, n.Allows l) ∧ ofTimes times = t := by
  cases h with
  | timed hall => exact ⟨_, hall, rfl⟩

/-- The times of several sinks are the times of them all. -/
theorem pool {ts : List SinkTally} (h : ∀ t ∈ ts, Measured n true t) :
    Measured n true (pool ts) := by
  induction ts with
  | nil => exact zero n true
  | cons t rest ih =>
    obtain ⟨ht, hrest⟩ := List.forall_mem_cons.1 h
    obtain ⟨times, hall, rfl⟩ := ht.exists_times
    obtain ⟨more, hmore, hpool⟩ := (ih hrest).exists_times
    have happend : SinkTally.pool (ofTimes times :: rest) = ofTimes (times ++ more) := by
      unfold ofTimes SinkTally.pool at hpool ⊢
      obtain ⟨hreceived, hsum, hsumSq⟩ := SinkTally.mk.inj hpool
      simp only [List.map_cons, List.sum_cons, List.length_append, List.sum_append, List.map_append,
        hreceived, hsum, hsumSq]
    rw [happend]
    exact .timed (List.forall_mem_append.2 ⟨hall, hmore⟩)

theorem consistent (h : Measured n true t) : t.Consistent n := by
  cases h with
  | timed hall => exact consistent_ofTimes hall

theorem agrees {payload : PayloadClass} (h : Measured n payload.hasPayload t) :
    t.Agrees n payload := by
  cases payload with
  | withPayload => exact h.consistent
  | keyOnly =>
    cases h with
    | untimed received => exact ⟨rfl, rfl⟩

end Measured

end SinkTally

/-! ## Runs -/

/-- All sinks have tallies of times that the network allows.  `timed e j` says whether the packets
for sink `j` of core `e` carry times. -/
def AllMeasured (n : Network) (timed : Nat → Nat → Bool) (receivers : Array Receiver) : Prop :=
  ∀ e j t, tally? receivers e j = some t → t.Measured n (timed e j)

namespace Network

variable {n : Network} {timed : Nat → Nat → Bool} {state : Array Receiver × Random}

theorem measured_deliver (h : AllMeasured n timed state.1) {payload : Bool} {w : Watcher}
    (hw : timed w.core w.sink = payload) : AllMeasured n timed (n.deliver payload state w).1 := by
  intro e j t ht
  obtain hdrop | ⟨r, htake⟩ := n.deliver_draws payload state w
  · rw [hdrop, tally?_drop] at ht
    exact h e j t ht
  · rw [htake, tally?_take] at ht
    obtain ⟨u, hu, rfl⟩ := Option.map_eq_some_iff.1 ht
    have hmeasured := h e j u hu
    cases hat : w.isAt e j with
    | false => exact hmeasured
    | true =>
      unfold Watcher.isAt at hat
      simp only [Bool.and_eq_true, beq_iff_eq] at hat
      obtain ⟨rfl, rfl⟩ := hat
      subst hw
      exact hmeasured.take r

/-- All deliveries of a tick. -/
theorem measured_deliverAll (h : AllMeasured n timed state.1) {packets : List Packet}
    (hpackets : ∀ p ∈ packets, ∀ w ∈ p.watchers, timed w.core w.sink = p.payload) :
    AllMeasured n timed (n.deliverAll state packets).1 :=
  n.deliverAll_induction (fun p hp w hw _ h => measured_deliver h (hpackets p hp w hw)) h

end Network

namespace Run

variable (capacity : Nat) (n : Network) (seed : UInt64) {setups : List Setup}
  (recorders : List (Setup × Nat)) {timed : Nat → Nat → Bool}

theorem measured_ofSetups : AllMeasured n timed (ofSetups seed setups).receivers := by
  intro e j t ht
  change ((setups.map Receiver.ofSetup).toArray[e]?.bind _) = _ at ht
  rw [List.getElem?_toArray, List.getElem?_map] at ht
  obtain ⟨r, hr, ht⟩ := Option.bind_eq_some_iff.1 ht
  obtain ⟨s, -, rfl⟩ := Option.map_eq_some_iff.1 hr
  unfold Receiver.ofSetup at ht
  rw [Array.getElem?_replicate] at ht
  split at ht
  · cases ht
    exact .zero n (timed e j)
  · cases ht

/-- After every tick all sinks have measured what the network allows, if sources that send times are
watched by the timed sinks and the others by the untimed ones. -/
theorem measured_after
    (htimed : ∀ s ∈ setups, ∀ src ∈ s.sources, ∀ w ∈ watchers setups s.core src.key,
      timed w.core w.sink = src.payload) (elapsed : Nat) :
    AllMeasured n timed (after capacity n seed setups recorders elapsed).receivers := by
  induction elapsed with
  | zero => exact measured_ofSetups n seed
  | succ elapsed ih =>
    obtain ⟨-, hreceivers, -⟩ := tick_frame capacity n recorders elapsed
      (after capacity n seed setups recorders elapsed)
    unfold after
    rw [hreceivers]
    refine Network.measured_deliverAll ih fun p hp w hw => ?_
    obtain ⟨snd, hsnd, x, hx, hpayload, hwatchers⟩ := exists_source_of_sendAll capacity elapsed _ hp
    obtain ⟨d, hsnd⟩ := List.getElem?_of_mem hsnd
    obtain ⟨i, hx⟩ := List.getElem?_of_mem hx
    obtain ⟨s, hs, hsrc, hwatchersOf⟩ := exists_setup
      (shape_after capacity n seed setups recorders elapsed) hsnd hx
    rw [hwatchers, hwatchersOf] at hw
    rw [hpayload]
    exact htimed s (List.mem_of_getElem? hs) _ (Array.mem_of_getElem? hsrc) w hw

end Run

/-! ## Compiled programs -/

/-- Whether a sink of some programs sums up latencies. -/
def timedSinks (ps : List Program) (e j : Nat) : Bool :=
  (ps[e]?.bind fun q => q.sinks[j]?).any (·.latency)

theorem timedSinks_eq {ps : List Program} {e j : Nat} {q : Program} {r : SinkRole}
    (hq : ps[e]? = some q) (hr : q.sinks[j]? = some r) : timedSinks ps e j = r.latency := by
  unfold timedSinks
  rw [hq, Option.bind_some, hr]
  rfl

/-- What the counters of a core say of one of its sinks. -/
def Counters.tally? (k : Counters) (j : Nat) : Option SinkTally := do
  some ⟨← k.received[j]?, ← k.latencySum[j]?, ← k.latencySumSq[j]?⟩

theorem Counters.tally?_ofHalves (snd : Sender) (r : Receiver) (recorded : Array Nat) (j : Nat) :
    (ofHalves snd r recorded).tally? j = r.sinks[j]? := by
  unfold tally? ofHalves
  simp only [Array.getElem?_map]
  cases r.sinks[j]? <;> rfl

/-- What the sinks of a flow have counted, on all cores whose counters are there. -/
def flowTallies (ps : List Program) (counters? : Nat → Option Counters) (flow : FlowId) :
    List SinkTally :=
  ps.zipIdx.flatMap fun (q, d) => q.sinks.zipIdx.filterMap fun (r, j) =>
    if r.flow = flow then (counters? d).bind (·.tally? j) else none

theorem exists_of_mem_flowTallies {ps : List Program} {counters? : Nat → Option Counters}
    {flow : FlowId} {t : SinkTally} (ht : t ∈ flowTallies ps counters? flow) :
    ∃ (d j : Nat) (q : Program) (r : SinkRole) (k : Counters), ps[d]? = some q ∧
      q.sinks[j]? = some r ∧ r.flow = flow ∧ counters? d = some k ∧ k.tally? j = some t := by
  unfold flowTallies at ht
  obtain ⟨⟨q, d⟩, hq, ht⟩ := List.mem_flatMap.1 ht
  obtain ⟨⟨r, j⟩, hr, ht⟩ := List.mem_filterMap.1 ht
  simp only at ht
  split at ht
  · next hflow =>
    obtain ⟨k, hk, ht⟩ := Option.bind_eq_some_iff.1 ht
    exact ⟨d, j, q, r, k, List.mk_mem_zipIdx_iff_getElem?.1 hq,
      List.mk_mem_zipIdx_iff_getElem?.1 hr, hflow, hk, ht⟩
  · cases ht

/-- The counters of cores that run some programs of a specification, with latencies as the flows and
the network have them. -/
structure LatenciesAgree (v : ValidSpec) (n : Network) (ps : List Program)
    (counters? : Nat → Option Counters) : Prop where
  /-- Each sink agrees with its flow. -/
  sinks : ∀ {d q}, ps[d]? = some q → ∃ k, counters? d = some k ∧
    ∀ {j r}, q.sinks[j]? = some r → ∃ f ∈ v.flows.values, f.id = r.flow ∧
      ∃ t, k.tally? j = some t ∧ t.Agrees n f.payload
  /-- So do any sinks of a flow together, as a report puts them together. -/
  pooled : ∀ {f}, f ∈ v.flows.values → f.payload = .withPayload →
    ∀ {ts}, ts.Sublist (flowTallies ps counters? f.id) → (SinkTally.pool ts).Consistent n

namespace Compiled.From

variable {v : ValidSpec} {flows : List PlannedFlow} {c : Compiled} (h : c.From v flows)
  {ps : List Program} (hps : ∀ q ∈ ps, q ∈ c.programs.values)

include h hps

/-- The flow of a sink that runs. -/
theorem exists_flow_of_sink {e j : Nat} {q : Program} {r : SinkRole} (hq : ps[e]? = some q)
    (hr : q.sinks[j]? = some r) : ∃ f ∈ flows, Compilation.sinkRole f = r := by
  obtain ⟨core, -, rfl⟩ := h.mem_programs.1 (hps q (List.mem_of_getElem? hq))
  obtain ⟨f, hf, -, hrole⟩ := mem_sinks.1 (List.mem_of_getElem? hr)
  exact ⟨f, hf, hrole⟩

/-- A source that sends times is watched by sinks that sum them up, and another one by others. -/
theorem timedSinks_of_watcher {s : Setup} (hs : s ∈ ps.map fun q => q.toCorePlan.setup)
    {src : SourceSetup} (hsrc : src ∈ s.sources) {w : Watcher}
    (hw : w ∈ watchers (ps.map fun q => q.toCorePlan.setup) s.core src.key) :
    timedSinks ps w.core w.sink = src.payload := by
  obtain ⟨p, hp, rfl⟩ := List.mem_map.1 hs
  obtain ⟨core, -, rfl⟩ := h.mem_programs.1 (hps p hp)
  -- the source is that of a flow
  obtain ⟨i, hsrc⟩ := Array.getElem?_of_mem hsrc
  rw [CorePlan.getElem?_setup_sources] at hsrc
  obtain ⟨x, hx, rfl⟩ := Option.map_eq_some_iff.1 hsrc
  obtain ⟨f, hf, rfl, rfl⟩ := exists_flow_of_source (List.mem_of_getElem? hx)
  -- and a sink that watches it is one of the same flow
  obtain ⟨t, sink, ht, hsink, hsource, hkey, -, -⟩ := exists_of_mem_watchers hw
  rw [List.getElem?_map] at ht
  obtain ⟨q, hq, rfl⟩ := Option.map_eq_some_iff.1 ht
  rw [CorePlan.getElem?_setup_sinks] at hsink
  obtain ⟨r, hr, rfl⟩ := Option.map_eq_some_iff.1 hsink
  obtain ⟨g, hg, rfl⟩ := h.exists_flow_of_sink hps hq hr
  have hgf : g = f := h.eq_of_source_of_key hg hf hsource (RoutingKey.eq_of_val hkey)
  rw [timedSinks_eq hq hr, hgf]
  rfl

/-- Counters agree if they come from receivers that have measured what the network allows. -/
theorem latenciesAgree {n : Network} {receivers : Array Receiver}
    {counters? : Nat → Option Counters} (hmeasured : AllMeasured n (timedSinks ps) receivers)
    (hcounters : ∀ {d q}, ps[d]? = some q → ∃ snd r recorded,
      counters? d = some (.ofHalves snd r recorded) ∧ receivers[d]? = some r ∧
        r.sinks.size = q.sinks.length) : LatenciesAgree v n ps counters? := by
  have hsink : ∀ {d j q r k t}, ps[d]? = some q → q.sinks[j]? = some r → counters? d = some k →
      k.tally? j = some t → ∃ f ∈ v.flows.values, f.id = r.flow ∧
        t.Measured n f.payload.hasPayload := by
    intro d j q r k t hq hr hk ht
    obtain ⟨snd, receiver, recorded, hk', hreceiver, -⟩ := hcounters hq
    rw [hk'] at hk
    cases hk
    rw [Counters.tally?_ofHalves] at ht
    have htally : tally? receivers d j = some t := by
      unfold tally?
      rw [hreceiver]
      exact ht
    have htimed := hmeasured d j t htally
    rw [timedSinks_eq hq hr] at htimed
    obtain ⟨f, hf, rfl⟩ := h.exists_flow_of_sink hps hq hr
    exact ⟨f.toRoutedFlow, h.mem_values hf, rfl, htimed⟩
  constructor
  · intro d q hq
    obtain ⟨snd, receiver, recorded, hk, hreceiver, hsize⟩ := hcounters hq
    refine ⟨_, hk, fun {j r} hr => ?_⟩
    have hj : j < receiver.sinks.size := hsize ▸ (List.getElem?_eq_some_iff.1 hr).1
    have ht : (Counters.ofHalves snd receiver recorded).tally? j = some receiver.sinks[j] := by
      rw [Counters.tally?_ofHalves, Array.getElem?_eq_getElem hj]
    obtain ⟨f, hf, hid, htimed⟩ := hsink hq hr hk ht
    exact ⟨f, hf, hid, _, ht, htimed.agrees⟩
  · intro f hf hpayload ts hts
    refine (SinkTally.Measured.pool fun t ht => ?_).consistent
    obtain ⟨d, j, q, r, k, hq, hr, hflow, hk, ht⟩ := exists_of_mem_flowTallies (hts.subset ht)
    obtain ⟨g, hg, hid, htimed⟩ := hsink hq hr hk ht
    have hgf : g = f := List.inj_on_of_nodup_map h.valid.ids_nodup hg hf (hid.trans hflow)
    rw [hgf, hpayload] at htimed
    exact htimed

end Compiled.From

/-! ## Main result -/

/-- Latency sums are those of times that the network allows.  Whichever programs of a specification
run together, on whatever network: after every tick, and so at the end, the number, the sum and the
sum of squares of the times of each sink of a flow with payload, and of any such sinks together, are
within the bounds that the delay and the jitter set, their variance is not negative, and it is zero
without jitter; and sinks of other flows have no sums. -/
theorem latency_sums_agree {s : Spec} {v : ValidSpec} {c : Compiled} (hv : s.validate = .ok v)
    (hc : compile v = .ok c) {ps : List Program} (hps : ∀ q ∈ ps, q ∈ c.programs.values)
    {setups : List Setup}
    (hplay : List.Forall₂ (fun (q : Program) s => Setup.play q.core q.bytes = .ok s) ps setups)
    (capacity : Nat) (n : Network) (seed : UInt64) :
    (∀ elapsed, LatenciesAgree v n ps
        (Run.after capacity n seed setups (recorders setups) elapsed).current?) ∧
      LatenciesAgree v n ps fun d => (simulate capacity n seed setups)[d]? := by
  obtain ⟨flows, h⟩ := Compiled.from_of_compile (Spec.sound_of_validate hv).2 hc
  obtain rfl := h.setups_eq hps hplay
  have hmeasured := Run.measured_after capacity n seed
    (recorders (ps.map fun q => q.toCorePlan.setup))
    fun s hs src hsrc w hw => h.timedSinks_of_watcher hps hs hsrc hw
  constructor
  · intro elapsed
    refine h.latenciesAgree hps (hmeasured elapsed) fun {d q} hq => ?_
    obtain ⟨snd, r, hr, hcurrent, hsize⟩ := (Run.formed_after capacity n seed _ (recorders _)
      elapsed).exists_current (getElem?_map_setup hq)
    exact ⟨snd, r, #[], hcurrent, hr, hsize.trans q.toCorePlan.size_setup_sinks⟩
  · refine h.latenciesAgree hps (hmeasured (longestRun (ps.map fun q => q.toCorePlan.setup)))
      fun {d q} hq => ?_
    obtain ⟨snd, r, recorded, -, hr, -, hsim⟩ :=
      Run.exists_simulate capacity n seed (getElem?_map_setup hq)
    obtain ⟨-, r', hr', -, hsize⟩ := (Run.formed_after capacity n seed _ (recorders _)
      (longestRun (ps.map fun q => q.toCorePlan.setup))).exists_current (getElem?_map_setup hq)
    rw [hr] at hr'
    cases hr'
    exact ⟨snd, r, recorded, hsim, hr, hsize.trans q.toCorePlan.size_setup_sinks⟩

/-- Two cores on a network with jitter.  The sink with payload takes four packets in 14 ticks. -/
theorem latency_sums_agree_twoCores :
    ∃ v c setups k, Spec.twoCores.validate = .ok v ∧ compile v = .ok c ∧
      List.Forall₂ (fun (q : Program) s => Setup.play q.core q.bytes = .ok s) c.programs.values
        setups ∧
      (simulate 1 ⟨.never, 2, 3⟩ 5 setups)[1]? = some k ∧ k.tally? 0 = some ⟨4, 14, 54⟩ ∧
      (∀ elapsed, LatenciesAgree v ⟨.never, 2, 3⟩ c.programs.values
        (Run.after 1 ⟨.never, 2, 3⟩ 5 setups (recorders setups) elapsed).current?) ∧
      LatenciesAgree v ⟨.never, 2, 3⟩ c.programs.values
        fun d => (simulate 1 ⟨.never, 2, 3⟩ 5 setups)[d]? := by
  have htally : (Spec.twoCores.validate.toOption.bind fun v => (compile v).toOption.bind fun c =>
      (simulate 1 ⟨.never, 2, 3⟩ 5 (c.programs.values.map fun q => q.toCorePlan.setup))[1]?.bind
        (·.tally? 0)) = some ⟨4, 14, 54⟩ := by
    decide +kernel
  obtain ⟨v, hv, htally⟩ := Option.bind_eq_some_iff.1 htally
  obtain ⟨c, hc, htally⟩ := Option.bind_eq_some_iff.1 htally
  obtain ⟨k, hk, htally⟩ := Option.bind_eq_some_iff.1 htally
  have hv := Checked.toOption_eq_some.1 hv
  have hc := Checked.toOption_eq_some.1 hc
  obtain ⟨flows, h⟩ := Compiled.from_of_compile (Spec.sound_of_validate hv).2 hc
  have hplay : List.Forall₂ (fun (q : Program) s => Setup.play q.core q.bytes = .ok s)
      c.programs.values (c.programs.values.map fun q => q.toCorePlan.setup) := by
    rw [List.forall₂_map_right_iff, List.forall₂_same]
    exact fun q hq => h.play_of_mem hq
  exact ⟨v, c, _, k, hv, hc, hplay, hk, htally,
    latency_sums_agree hv hc (fun q hq => hq) hplay 1 ⟨.never, 2, 3⟩ 5⟩

end TrafficLab
