import TrafficLab.Proofs.Chip.Growth
import TrafficLab.Proofs.Chip.Latencies
import TrafficLab.Proofs.Chip.Machine
import TrafficLab.Proofs.Chip.Routers

/-!
# Runs within their words

A run that fits has rows of words.  A source is counted at most once in a tick, so a run of compiled
programs fits if times are words of 32 bits and the squares of so many times as there are ticks add
up to a word of 64.

    run.fits → every value of every row is a word                          (row_lt)
    n.Short ticks → a run of compiled programs fits up to this tick        (fits_after)
-/

namespace TrafficLab

/-! ## Runs that fit -/

theorem fitsWord_iff {n : Nat} : fitsWord n = true ↔ n < UInt64.size := decide_eq_true_iff

/-- What a receiver that fits has counted. -/
structure Receiver.WithinWords (r : Receiver) : Prop where
  onTime : r.overdue = false
  sinks : ∀ t ∈ r.sinks.toList, t.received < UInt64.size ∧ t.latencySum < UInt64.size ∧
    t.latencySumSq < UInt64.size
  localPackets : r.localPackets < UInt64.size
  externalPackets : r.externalPackets < UInt64.size
  droppedPackets : r.droppedPackets < UInt64.size

theorem SinkTally.fits_iff {t : SinkTally} : t.fits = true ↔
    t.received < UInt64.size ∧ t.latencySum < UInt64.size ∧ t.latencySumSq < UInt64.size := by
  unfold fits
  rw [Bool.and_eq_true, Bool.and_eq_true, fitsWord_iff, fitsWord_iff, fitsWord_iff, and_assoc]

theorem Receiver.fits_iff {r : Receiver} : r.fits = true ↔ r.WithinWords := by
  unfold fits
  simp only [Bool.and_eq_true, Bool.not_eq_true', List.all_eq_true, SinkTally.fits_iff,
    fitsWord_iff]
  exact ⟨fun ⟨⟨⟨⟨hover, hsinks⟩, hlocal⟩, hexternal⟩, hdropped⟩ =>
    ⟨hover, hsinks, hlocal, hexternal, hdropped⟩,
    fun ⟨hover, hsinks, hlocal, hexternal, hdropped⟩ =>
      ⟨⟨⟨⟨hover, hsinks⟩, hlocal⟩, hexternal⟩, hdropped⟩⟩

theorem SourceRun.fits_iff {x : SourceRun} :
    x.fits = true ↔ x.sent < UInt64.size ∧ x.blocked < UInt64.size := by
  unfold fits
  rw [Bool.and_eq_true, fitsWord_iff, fitsWord_iff]

namespace Run

theorem fits_iff {run : Run} : run.fits = true ↔
    (∀ snd ∈ run.senders, ∀ x ∈ snd.sources, x.sent < UInt64.size ∧ x.blocked < UInt64.size) ∧
      ∀ r ∈ run.receivers.toList, r.WithinWords := by
  unfold fits
  simp only [Bool.and_eq_true, List.all_eq_true, SourceRun.fits_iff, Receiver.fits_iff]

theorem fits_ofSetups (seed : UInt64) (setups : List Setup) :
    (ofSetups seed setups).fits = true := by
  have hzero : 0 < UInt64.size := by decide
  refine fits_iff.2 ⟨fun snd hsnd x hx => ?_, fun r hr => ?_⟩
  · obtain ⟨s, -, rfl⟩ := List.mem_map.1 hsnd
    obtain ⟨src, -, rfl⟩ := List.mem_map.1 hx
    exact ⟨hzero, hzero⟩
  · obtain ⟨s, -, rfl⟩ := List.mem_map.1 hr
    refine ⟨rfl, fun t ht => ?_, hzero, hzero, hzero⟩
    rw [Array.eq_of_mem_replicate (Array.mem_toList_iff.1 ht)]
    exact ⟨hzero, hzero, hzero⟩

end Run

/-! ## Rows of words -/

theorem Receiver.WithinWords.router_lt {r : Receiver} (h : r.WithinWords) {x : Nat}
    (hx : x ∈ r.router) : x < UInt64.size := by
  have hzero : 0 < UInt64.size := by decide
  unfold router at hx
  simp only [List.mem_toArray, List.mem_cons, List.not_mem_nil, or_false] at hx
  rcases hx with rfl | rfl | rfl | rfl | rfl | rfl | rfl | rfl | rfl | rfl | rfl | rfl
  · exact h.localPackets
  · exact h.externalPackets
  on_goal 7 => exact h.droppedPackets
  all_goals exact hzero

theorem Counters.slot?_lt {snd : Sender} {r : Receiver}
    (hsnd : ∀ x ∈ snd.sources, x.sent < UInt64.size ∧ x.blocked < UInt64.size)
    (hr : r.WithinWords) {recorded : Array Nat} {record : CounterSet} {m : Metric} {role : UInt8}
    {x : Nat} (hx : (ofHalves snd r recorded).slot? record m role = some x) : x < UInt64.size := by
  have hsource : ∀ f : SourceRun → Nat, (∀ y ∈ snd.sources, f y < UInt64.size) →
      (snd.sources.map f).toArray[role.toNat]? = some x → x < UInt64.size := by
    intro f hf hx
    obtain ⟨y, hy, rfl⟩ := List.mem_map.1 (List.mem_toArray.1 (Array.mem_of_getElem? hx))
    exact hf y hy
  have hsink : ∀ f : SinkTally → Nat, (∀ t ∈ r.sinks.toList, f t < UInt64.size) →
      (r.sinks.map f)[role.toNat]? = some x → x < UInt64.size := by
    intro f hf hx
    obtain ⟨t, ht, rfl⟩ := Array.mem_map.1 (Array.mem_of_getElem? hx)
    exact hf t (Array.mem_toList_iff.2 ht)
  cases m with
  | sent => exact hsource (·.sent) (fun y hy => (hsnd y hy).1) hx
  | blocked => exact hsource (·.blocked) (fun y hy => (hsnd y hy).2) hx
  | received => exact hsink (·.received) (fun t ht => (hr.sinks t ht).1) hx
  | latencySum => exact hsink (·.latencySum) (fun t ht => (hr.sinks t ht).2.1) hx
  | latencySumSq => exact hsink (·.latencySumSq) (fun t ht => (hr.sinks t ht).2.2) hx
  | router c =>
    unfold slot? at hx
    simp only at hx
    split at hx
    · exact hr.router_lt (Array.mem_of_getElem? hx)
    · cases hx
      decide

/-- The values in the rows of a run that fits are words. -/
theorem Run.row_lt {run : Run} (h : run.fits = true) {d : Nat} {s : Setup} {row : List Nat}
    (hrow : run.row? d s = some row) : ∀ x ∈ row, x < UInt64.size := by
  obtain ⟨hsenders, hreceivers⟩ := fits_iff.1 h
  obtain ⟨k, hk, hrow⟩ := Option.bind_eq_some_iff.1 hrow
  unfold current? at hk
  obtain ⟨snd, hsnd, hk⟩ := Option.bind_eq_some_iff.1 hk
  obtain ⟨r, hr, hk⟩ := Option.bind_eq_some_iff.1 hk
  cases hk
  have hwords := hreceivers r (Array.mem_toList_iff.2 (Array.mem_of_getElem? hr))
  intro x hx
  obtain ⟨slot, -, hslot⟩ := Checked.mem_of_mapM_eq_some hrow hx
  exact Counters.slot?_lt (hsenders snd (List.mem_of_getElem? hsnd)) hwords hslot

/-! ## How much is counted -/

/-- What holds of all entries still does when one of them becomes another of which it holds. -/
theorem forall_mem_modify {α : Type} {P : α → Prop} {xs : Array α} {f : α → α} (i : Nat)
    (hxs : ∀ x ∈ xs, P x) (hf : ∀ x, P x → P (f x)) : ∀ x ∈ xs.modify i f, P x := by
  intro x hx
  obtain ⟨j, hx⟩ := Array.getElem?_of_mem hx
  rw [Array.getElem?_modify] at hx
  split at hx
  · obtain ⟨y, hy, rfl⟩ := Option.map_eq_some_iff.1 hx
    exact hf y (hxs y (Array.mem_of_getElem? hy))
  · exact hxs x (Array.mem_of_getElem? hx)

namespace Run

section
variable (capacity : Nat) (n : Network) (seed : UInt64) (setups : List Setup)
  (recorders : List (Setup × Nat)) (elapsed : Nat)

/-- No source is due more than once in a tick. -/
theorem wanted_le_after :
    ∀ snd ∈ (after capacity n seed setups recorders elapsed).senders,
      ∀ x ∈ snd.sources, x.wanted ≤ elapsed := by
  induction elapsed with
  | zero => exact fun snd hsnd x hx => Nat.le_of_eq (wanted_ofSetups snd hsnd x hx)
  | succ elapsed ih =>
    obtain ⟨hsenders, -⟩ := tick_frame capacity n recorders elapsed
      (after capacity n seed setups recorders elapsed)
    unfold after
    rw [hsenders]
    exact wanted_le_sendAll capacity elapsed _ ih

/-- No packet is overdue where none can take so long. -/
theorem onTime_after (htime : n.delay.toNat + n.jitter.toNat < UInt32.size) :
    ∀ r ∈ (after capacity n seed setups recorders elapsed).receivers, r.overdue = false := by
  induction elapsed with
  | zero =>
    intro r hr
    obtain ⟨s, -, rfl⟩ := List.mem_map.1 (List.mem_toArray.1 hr)
    rfl
  | succ elapsed ih =>
    obtain ⟨-, hreceivers, -⟩ := tick_frame capacity n recorders elapsed
      (after capacity n seed setups recorders elapsed)
    unfold after
    rw [hreceivers]
    refine n.deliverAll_induction (P := fun rs => ∀ r ∈ rs, r.overdue = false) ?_ ih
    intro p _ w _ state hstate
    obtain hdrop | ⟨random, htake⟩ := n.deliver_draws p.payload state w
    · rw [hdrop]
      exact forall_mem_modify w.core hstate fun _ => id
    · rw [htake]
      refine forall_mem_modify w.core hstate fun r hr => ?_
      have hlatency := (n.allows_latency random).2
      unfold Receiver.take
      cases p.payload with
      | false => simpa using hr
      | true =>
        simp only [if_true, Option.any_some, hr, Bool.false_or, decide_eq_false_iff_not]
        omega

end

end Run

/-- Times on a network are words of 32 bits, and their squares, one for each tick, add up to a word
of 64 bits. -/
structure Network.Short (n : Network) (ticks : Nat) : Prop where
  time : n.delay.toNat + n.jitter.toNat < UInt32.size
  squares : ticks * (n.delay.toNat + n.jitter.toNat) ^ 2 < UInt64.size

/-- The standard network is short for runs of any length. -/
theorem Network.short_standard {ticks : Nat} (h : ticks < UInt64.size) :
    MachineConfig.standard.network.Short ticks :=
  ⟨by decide, by simpa [MachineConfig.standard] using h⟩

/-- What a sink has measured is within its words when its packets are few. -/
theorem SinkTally.Measured.fits {n : Network} {timed : Bool} {t : SinkTally} {ticks : Nat}
    (h : t.Measured n timed) (hticks : ticks < UInt32.size) (hn : n.Short ticks)
    (hreceived : t.received ≤ ticks) : t.received < UInt64.size ∧ t.latencySum < UInt64.size ∧
      t.latencySumSq < UInt64.size := by
  have hword : t.received < UInt64.size :=
    Nat.lt_of_le_of_lt hreceived (Nat.lt_trans hticks (by decide))
  cases timed with
  | false =>
    have hzero : 0 < UInt64.size := by decide
    cases h
    exact ⟨hword, hzero, hzero⟩
  | true =>
    have hsums := h.consistent
    have hsum : t.latencySum < UInt32.size * UInt32.size := calc
      t.latencySum ≤ t.received * (n.delay.toNat + n.jitter.toNat) := hsums.sum_le
      _ ≤ t.received * UInt32.size := Nat.mul_le_mul_left _ (Nat.le_of_lt hn.time)
      _ < UInt32.size * UInt32.size :=
        Nat.mul_lt_mul_of_pos_right (Nat.lt_of_le_of_lt hreceived hticks) (by decide)
    have hsquares : t.latencySumSq < UInt64.size := calc
      t.latencySumSq ≤ t.received * (n.delay.toNat + n.jitter.toNat) ^ 2 := hsums.sumSq_le
      _ ≤ ticks * (n.delay.toNat + n.jitter.toNat) ^ 2 := Nat.mul_le_mul_right _ hreceived
      _ < UInt64.size := hn.squares
    exact ⟨hword, hsum, hsquares⟩

/-- A router's counts are words when its core has few sinks and few packets are due to each. -/
theorem Receiver.Balanced.few {t : Setup} {due : Nat → Nat} {r : Receiver} {ticks : Nat}
    (h : r.Balanced t due) (hsinks : t.sinks.size < 256)
    (hdue : ∀ j < t.sinks.size, due j ≤ ticks) (hticks : ticks < UInt32.size) :
    r.localPackets < UInt64.size ∧ r.externalPackets < UInt64.size ∧
      r.droppedPackets < UInt64.size := by
  have htotal : ∑ j ∈ Finset.range t.sinks.size, due j ≤ t.sinks.size * ticks := by
    have hsum := Finset.sum_le_card_nsmul (Finset.range t.sinks.size) due ticks fun j hj =>
      hdue j (Finset.mem_range.1 hj)
    rwa [Finset.card_range, smul_eq_mul] at hsum
  have hword : t.sinks.size * ticks < UInt64.size := calc
    t.sinks.size * ticks ≤ 256 * ticks := Nat.mul_le_mul_right _ (Nat.le_of_lt hsinks)
    _ < 256 * UInt32.size := Nat.mul_lt_mul_of_pos_left hticks (by decide)
    _ ≤ UInt64.size := by decide
  have hrouted := h.routed
  have hdropped := h.dropped
  omega

namespace Compiled.From

variable {v : ValidSpec} {flows : List PlannedFlow} {c : Compiled} (h : c.From v flows)
  {ps : List Program} (hps : ∀ q ∈ ps, q ∈ c.programs.values) (hnodup : ps.Nodup)
  (capacity : Nat) (n : Network) (seed : UInt64)

include h hps hnodup

/-- In a run of compiled programs no sink is sent more packets than there are ticks. -/
theorem offered_le {recorders : List (Setup × Nat)} {elapsed e j : Nat} {q : Program}
    (hq : ps[e]? = some q) (hj : j < q.sinks.length) :
    offered e j (Run.after capacity n seed (ps.map fun q => q.toCorePlan.setup) recorders
      elapsed).senders ≤ elapsed := by
  have hsent := (h.sentFor_iff hps hnodup (Run.shape_after capacity n seed _ recorders elapsed) hq
    (List.getElem?_eq_getElem hj) _).2 rfl
  generalize offered e j _ = due at hsent
  cases hsent with
  | away => exact Nat.zero_le elapsed
  | runs _ _ _ _ _ hsent =>
    obtain ⟨x, hx, hsent⟩ := Option.map_eq_some_iff.1 hsent
    obtain ⟨snd, hsnd, hx⟩ := Option.bind_eq_some_iff.1 hx
    have hwanted := Run.wanted_le_after capacity n seed _ recorders elapsed snd
      (List.mem_of_getElem? hsnd) x (List.mem_of_getElem? hx)
    unfold SourceRun.wanted at hwanted
    omega

/-- A run of compiled programs stays within its words where times and ticks are short. -/
theorem fits_after {recorders : List (Setup × Nat)} {elapsed : Nat}
    (helapsed : elapsed < UInt32.size) (hn : n.Short elapsed) :
    (Run.after capacity n seed (ps.map fun q => q.toCorePlan.setup) recorders elapsed).fits =
      true := by
  have hwanted := Run.wanted_le_after capacity n seed (ps.map fun q => q.toCorePlan.setup)
    recorders elapsed
  have honTime := Run.onTime_after capacity n seed (ps.map fun q => q.toCorePlan.setup) recorders
    elapsed hn.time
  have hmeasured := Run.measured_after capacity n seed recorders
    (fun s hs src hsrc w hw => h.timedSinks_of_watcher hps hs hsrc hw) elapsed
  have hsize : (Run.after capacity n seed (ps.map fun q => q.toCorePlan.setup) recorders
      elapsed).receivers.size = ps.length := by
    simpa using congrArg List.length (Run.formed_after capacity n seed
      (ps.map fun q => q.toCorePlan.setup) recorders elapsed).sinks
  refine Run.fits_iff.2 ⟨fun snd hsnd x hx => ?_, fun r hr => ?_⟩
  · have hx := hwanted snd hsnd x hx
    have hword : UInt32.size < UInt64.size := by decide
    unfold SourceRun.wanted at hx
    omega
  obtain ⟨e, hr⟩ := List.getElem?_of_mem hr
  rw [Array.getElem?_toList] at hr
  obtain ⟨q, hq⟩ : ∃ q, ps[e]? = some q :=
    ⟨_, List.getElem?_eq_getElem (hsize ▸ (Array.getElem?_eq_some_iff.1 hr).1)⟩
  obtain ⟨r', hr', hbalanced⟩ := Run.balanced_after capacity n seed _ recorders elapsed e _
    (getElem?_map_setup hq)
  obtain rfl : r' = r := Option.some_inj.1 (hr'.symm.trans hr)
  have hsinks := q.toCorePlan.size_setup_sinks
  have hdue : ∀ j < q.toCorePlan.setup.sinks.size, offered e j (Run.after capacity n seed
      (ps.map fun q => q.toCorePlan.setup) recorders elapsed).senders ≤ elapsed :=
    fun j hj => h.offered_le hps hnodup capacity n seed hq (hsinks ▸ hj)
  have hfew : q.toCorePlan.setup.sinks.size < 256 := by
    obtain ⟨core, -, rfl⟩ := h.mem_programs.1 (hps q (List.mem_of_getElem? hq))
    rw [hsinks]
    exact (h.playable core).sinks_lt
  obtain ⟨hlocal, hexternal, hdropped⟩ := hbalanced.few hfew hdue helapsed
  refine ⟨honTime r' (Array.mem_of_getElem? hr), fun t ht => ?_, hlocal, hexternal, hdropped⟩
  obtain ⟨j, ht⟩ := List.getElem?_of_mem ht
  rw [Array.getElem?_toList] at ht
  have hj : j < q.toCorePlan.setup.sinks.size := hbalanced.size ▸
    (Array.getElem?_eq_some_iff.1 ht).1
  have htally : tally? (Run.after capacity n seed (ps.map fun q => q.toCorePlan.setup) recorders
      elapsed).receivers e j = some t := by
    unfold tally?
    rw [hr, Option.bind_some, ht]
  refine (hmeasured e j t htally).fits helapsed hn ?_
  have hreceived := Nat.le_trans (hbalanced.received_le j) (hdue j hj)
  unfold Receiver.received at hreceived
  rwa [ht] at hreceived

omit hps hnodup in
/-- Cores of a specification, whichever of them run together, stay within their words where times
and the run are short. -/
theorem fits_final {cores : List CoreId} (hcores : ∀ core ∈ cores, core ∈ v.participants.keys)
    (hnodup : cores.Nodup) (hn : n.Short v.spec.runTicks) :
    (Run.final capacity n seed (cores.map fun core => (v.corePlan flows core).setup)).fits =
      true := by
  have hprograms : ∀ q ∈ cores.map fun core => (v.corePlan flows core).assemble,
      q ∈ c.programs.values := by
    intro q hq
    obtain ⟨core, hcore, rfl⟩ := List.mem_map.1 hq
    exact h.mem_programs.2 ⟨core, hcores core hcore, rfl⟩
  have hapart : (cores.map fun core => (v.corePlan flows core).assemble).Nodup :=
    hnodup.map fun a b hab => congrArg (fun p : Program => p.core) hab
  have hsetups : (cores.map fun core => (v.corePlan flows core).assemble).map
      (fun q => q.toCorePlan.setup) = cores.map fun core => (v.corePlan flows core).setup := by
    rw [List.map_map]
    rfl
  rw [Run.final_eq]
  cases cores with
  | nil => rfl
  | cons core rest =>
    have hrun : longestRun ((core :: rest).map fun core => (v.corePlan flows core).setup) =
        v.spec.runTicks := by
      refine longestRun_eq (fun s hs => ?_) (List.cons_ne_nil _ _)
      obtain ⟨d, -, rfl⟩ := List.mem_map.1 hs
      exact h.runTicks_eq d
    have hshort : v.spec.runTicks < UInt32.size :=
      h.runTicks_eq core ▸ (h.playable core).runTicks_lt
    rw [hrun, ← hsetups]
    exact h.fits_after hprograms hapart capacity n seed hshort hn

end Compiled.From

end TrafficLab
