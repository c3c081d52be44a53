import Mathlib.Algebra.BigOperators.Group.Finset.Piecewise
import Mathlib.Algebra.Order.BigOperators.Group.Finset
import TrafficLab.Proofs.Chip.Fitting
import TrafficLab.Proofs.Chip.Traffic

/-!
# What routers count

Each packet that is to go to a sink ends up in one router counter of the sink's core: as local or
external if the sink receives it, as dropped if not.  So the counters of a core are known from what
its sinks have received and what was sent to them; and in the runs of an experiment, what was sent
to a sink is what the one source that it watches has sent.

    local + external = received,  dropped + received = offered        (Balanced.drop, Balanced.take)
    offered to a sink = sent by the source of its flow, or none         (sentFor_iff)
-/

namespace TrafficLab

/-! ## One receiver -/

/-- How many packets the sink with a number has received. -/
def Receiver.received (r : Receiver) (j : Nat) : Nat := (r.sinks[j]?.map (·.received)).getD 0

/-- The sinks that watch their own core. -/
def Setup.ownSinks (t : Setup) : Finset Nat :=
  {j ∈ Finset.range t.sinks.size | t.sinks[j]?.any fun sink => sink.source = t.core}

theorem Setup.mem_ownSinks {t : Setup} {j : Nat} {sink : SinkSetup} (h : t.sinks[j]? = some sink) :
    j ∈ t.ownSinks ↔ sink.source = t.core := by
  have hlt := (Array.getElem?_eq_some_iff.1 h).1
  unfold ownSinks
  rw [Finset.mem_filter, Finset.mem_range, h, Option.any_some, decide_eq_true_eq]
  exact and_iff_right hlt

/-- A receiver whose router has counted each packet that was to go to one of its sinks.  `due` says
how many packets were to go to each sink. -/
structure Receiver.Balanced (t : Setup) (due : Nat → Nat) (r : Receiver) : Prop where
  size : r.sinks.size = t.sinks.size
  received_le : ∀ j, r.received j ≤ due j
  own : r.localPackets = ∑ j ∈ t.ownSinks, r.received j
  routed : r.localPackets + r.externalPackets = ∑ j ∈ Finset.range t.sinks.size, r.received j
  dropped : r.droppedPackets + ∑ j ∈ Finset.range t.sinks.size, r.received j =
    ∑ j ∈ Finset.range t.sinks.size, due j

/-- One more at one place. -/
theorem sum_add_one (places : Finset Nat) (f : Nat → Nat) (i : Nat) :
    (∑ j ∈ places, (f j + if i = j then 1 else 0)) =
      (∑ j ∈ places, f j) + if i ∈ places then 1 else 0 := by
  rw [Finset.sum_add_distrib, Finset.sum_ite_eq]

namespace Receiver

variable {t : Setup} {due : Nat → Nat} {r : Receiver}

theorem received_take {w : Watcher} (hw : w.sink < r.sinks.size) (latency : Option Nat) (j : Nat) :
    (r.take w latency).received j = r.received j + if w.sink = j then 1 else 0 := by
  unfold received
  show ((r.sinks.modify w.sink _)[j]?.map _).getD 0 = _
  rw [Array.getElem?_modify]
  by_cases hj : w.sink = j
  · subst hj
    rw [if_pos rfl, if_pos rfl, Array.getElem?_eq_getElem hw]
    cases latency <;> rfl
  · rw [if_neg hj, if_neg hj, Nat.add_zero]

/-- A packet for a sink is dropped. -/
theorem Balanced.drop (h : r.Balanced t due) {i : Nat} (hi : i < t.sinks.size) :
    r.drop.Balanced t fun j => due j + if i = j then 1 else 0 where
  size := h.size
  received_le j := Nat.le_add_right_of_le (h.received_le j)
  own := h.own
  routed := h.routed
  dropped := by
    rw [sum_add_one, if_pos (Finset.mem_range.2 hi), ← h.dropped]
    exact Nat.add_right_comm _ _ _

/-- A packet for a sink is received. -/
theorem Balanced.take (h : r.Balanced t due) {w : Watcher} (hw : w.sink < t.sinks.size)
    (hlocal : w.isLocal = true ↔ w.sink ∈ t.ownSinks) (latency : Option Nat) :
    (r.take w latency).Balanced t fun j => due j + if w.sink = j then 1 else 0 := by
  have hreceived := r.received_take (h.size ▸ hw) latency
  have hmem := Finset.mem_range.2 hw
  constructor
  · rw [← h.size]
    exact r.size_take w latency
  · intro j
    rw [hreceived]
    exact Nat.add_le_add_right (h.received_le j) _
  · simp only [hreceived, sum_add_one, ← hlocal, ← h.own]
    show (if w.isLocal then r.localPackets + 1 else r.localPackets) = _
    split <;> rfl
  · simp only [hreceived, sum_add_one, if_pos hmem, ← h.routed]
    show (if w.isLocal then r.localPackets + 1 else r.localPackets) +
      (if w.isLocal then r.externalPackets else r.externalPackets + 1) = _
    split <;> omega
  · simp only [hreceived, sum_add_one, if_pos hmem, ← h.dropped]
    rfl

end Receiver

/-! ## Deliveries -/

/-- A watcher that stands for a sink of one of the cores. -/
structure Watcher.Fits (setups : List Setup) (w : Watcher) : Prop where
  lt : ∀ {t}, setups[w.core]? = some t → w.sink < t.sinks.size
  isLocal : ∀ {t}, setups[w.core]? = some t → (w.isLocal = true ↔ w.sink ∈ t.ownSinks)

theorem Watcher.fits_of_mem {setups : List Setup} {core : CoreId} {key : UInt32} {w : Watcher}
    (h : w ∈ watchers setups core key) : w.Fits setups := by
  obtain ⟨s, sink, hs, hsink, hsource, -, -, hlocal⟩ := exists_of_mem_watchers h
  constructor
  · intro t ht
    rw [hs] at ht
    cases ht
    exact (Array.getElem?_eq_some_iff.1 hsink).1
  · intro t ht
    rw [hs] at ht
    cases ht
    rw [Setup.mem_ownSinks hsink, hlocal, hsource, beq_iff_eq]
    exact eq_comm

/-- Receivers that are balanced, each for what was due to its core. -/
def AllBalanced (setups : List Setup) (due : Nat → Nat → Nat) (receivers : Array Receiver) : Prop :=
  ∀ e t, setups[e]? = some t → ∃ r, receivers[e]? = some r ∧ Receiver.Balanced t (due e) r

namespace Network

variable (n : Network) {setups : List Setup} {due : Nat → Nat → Nat}
  {state : Array Receiver × Random}

theorem balanced_deliver (h : AllBalanced setups due state.1) (payload : Bool) {w : Watcher}
    (hw : w.Fits setups) :
    AllBalanced setups (fun e j => due e j + if w.isAt e j then 1 else 0)
      (n.deliver payload state w).1 := by
  intro e t ht
  obtain ⟨r, hr, hbalanced⟩ := h e t ht
  by_cases he : w.core = e
  · subst he
    have hat : ∀ j, w.isAt w.core j = decide (w.sink = j) := by
      intro j
      show (w.core == w.core && w.sink == j) = _
      rw [beq_self_eq_true, Bool.true_and]
      rfl
    simp only [hat, decide_eq_true_eq]
    obtain hdrop | ⟨latency, htake⟩ := n.deliver_cases payload state w
    · refine ⟨r.drop, ?_, hbalanced.drop (hw.lt ht)⟩
      rw [hdrop, Array.getElem?_modify, if_pos rfl, hr]
      rfl
    · refine ⟨r.take w latency, ?_, hbalanced.take (hw.lt ht) (hw.isLocal ht) latency⟩
      rw [htake, Array.getElem?_modify, if_pos rfl, hr]
      rfl
  · have hat : ∀ j, w.isAt e j = false := by
      intro j
      simp [Watcher.isAt, he]
    simp only [hat]
    refine ⟨r, ?_, hbalanced⟩
    obtain hdrop | ⟨latency, htake⟩ := n.deliver_cases payload state w
    · rw [hdrop, Array.getElem?_modify, if_neg he, hr]
    · rw [htake, Array.getElem?_modify, if_neg he, hr]

theorem balanced_foldl_deliver (h : AllBalanced setups due state.1) (payload : Bool)
    {ws : List Watcher} (hws : ∀ w ∈ ws, w.Fits setups) :
    AllBalanced setups (fun e j => due e j + ws.countP (·.isAt e j))
      (ws.foldl (n.deliver payload) state).1 := by
  induction ws generalizing due state with
  | nil => exact h
  | cons w rest ih =>
    have hrest := ih (n.balanced_deliver h payload (hws w (by simp)))
      fun x hx => hws x (by simp [hx])
    simp only [List.countP_cons, Nat.add_assoc, Nat.add_comm (rest.countP _)] at hrest ⊢
    exact hrest

/-- All deliveries of a tick. -/
theorem balanced_deliverAll (h : AllBalanced setups due state.1) {packets : List Packet}
    (hws : ∀ p ∈ packets, ∀ w ∈ p.watchers, w.Fits setups) :
    AllBalanced setups (fun e j => due e j + (packets.map (·.copies e j)).sum)
      (n.deliverAll state packets).1 := by
  unfold deliverAll
  induction packets generalizing due state with
  | nil => exact h
  | cons p rest ih =>
    have hrest := ih (n.balanced_foldl_deliver h p.payload (hws p (by simp)))
      fun q hq => hws q (by simp [hq])
    simp only [List.map_cons, List.sum_cons, ← Nat.add_assoc] at hrest ⊢
    exact hrest

end Network

namespace Run

variable (capacity : Nat) (n : Network) (seed : UInt64) (setups : List Setup)
  (recorders : List (Setup × Nat)) (elapsed : Nat)

theorem balanced_ofSetups :
    AllBalanced setups (fun _ _ => 0) (ofSetups seed setups).receivers := by
  intro e t ht
  refine ⟨.ofSetup t, ?_, ?_⟩
  · show (setups.map Receiver.ofSetup).toArray[e]? = _
    rw [List.getElem?_toArray, List.getElem?_map, ht]
    rfl
  have hzero : ∀ j, (Receiver.ofSetup t).received j = 0 := by
    intro j
    show ((Array.replicate t.sinks.size (SinkTally.mk 0 0 0))[j]?.map _).getD 0 = 0
    rw [Array.getElem?_replicate]
    split <;> rfl
  refine ⟨Array.size_replicate, fun j => Nat.le_of_eq (hzero j), ?_, ?_, ?_⟩
  all_goals
    simp only [hzero, Finset.sum_const_zero]
    rfl

/-- After every tick each router has counted all that was to go to its core. -/
theorem balanced_after :
    AllBalanced setups
      (fun e j => offered e j (after capacity n seed setups recorders elapsed).senders)
      (after capacity n seed setups recorders elapsed).receivers := by
  induction elapsed with
  | zero =>
    unfold after
    simp only [offered_ofSetups]
    exact balanced_ofSetups seed setups
  | succ elapsed ih =>
    obtain ⟨hsenders, hreceivers, -⟩ := tick_frame capacity n recorders elapsed
      (after capacity n seed setups recorders elapsed)
    have hws : ∀ p ∈ (sendAll capacity elapsed
        (after capacity n seed setups recorders elapsed).senders).2,
        ∀ w ∈ p.watchers, w.Fits setups := by
      intro p hp w hw
      obtain ⟨snd, hsnd, x, hx, -, e⟩ := exists_source_of_sendAll capacity elapsed _ hp
      obtain ⟨core, key, hwatchers⟩ := watchers_of_shape
        (shape_after capacity n seed setups recorders elapsed) hsnd hx
      rw [e, hwatchers] at hw
      exact Watcher.fits_of_mem hw
    unfold after
    simp only [hsenders, hreceivers, offered_sendAll]
    exact n.balanced_deliverAll ih hws

end Run

/-! ## The counters of a core -/

/-- How many packets the source that a sink watches has sent in a run of some programs: none, if its
core does not run. -/
inductive Run.SentFor (ps : List Program) (run : Run) (r : SinkRole) : Nat → Prop
  | runs {d i p x n} : ps[d]? = some p → p.core = r.source → p.sources[i]? = some x →
    x.flow = r.flow → x.key = r.key → run.sent? d i = some n → SentFor ps run r n
  | away : (∀ p ∈ ps, p.core ≠ r.source) → SentFor ps run r 0

/-- The router counters of a core as they follow from what its sinks have received and from what
was sent to them. -/
structure Counters.Balanced (ps : List Program) (run : Run) (q : Program) (k : Counters) :
    Prop where
  routed : ∃ a b, k.router[RouterCounter.localMulticast.index]? = some a ∧
    k.router[RouterCounter.externalMulticast.index]? = some b ∧ a + b = k.received.toList.sum
  own : k.router[RouterCounter.localMulticast.index]? = some
    (List.zipWith (fun r n => if r.source = q.core then n else 0) q.sinks k.received.toList).sum
  dropped : ∃ sent, List.Forall₂ (fun r n => ∀ m, run.SentFor ps r m ↔ m = n) q.sinks sent ∧
    List.Forall₂ (· ≤ ·) k.received.toList sent ∧
    k.router[RouterCounter.droppedMulticast.index]? =
      some (List.zipWith (· - ·) sent k.received.toList).sum
  others : ∀ c : RouterCounter, c ≠ .localMulticast → c ≠ .externalMulticast →
    c ≠ .droppedMulticast → k.router[c.index]? = some 0

theorem eq_map_range {α : Type} {l : List α} {n : Nat} {f : Nat → α} (hlen : l.length = n)
    (h : ∀ j < n, l[j]? = some (f j)) : l = (List.range n).map f := by
  refine List.ext_getElem (by simp [hlen]) fun j hj _ => ?_
  have hget := h j (hlen ▸ hj)
  rw [List.getElem?_eq_getElem hj] at hget
  simpa using Option.some_inj.1 hget

theorem Receiver.toList_received {r : Receiver} {n : Nat} (h : r.sinks.size = n) :
    (r.sinks.map (·.received)).toList = (List.range n).map r.received := by
  refine eq_map_range (by rw [Array.length_toList, Array.size_map, h]) fun j hj => ?_
  unfold received
  rw [Array.getElem?_toList, Array.getElem?_map, Array.getElem?_eq_getElem (h ▸ hj)]
  rfl

/-- What the sinks of a plan have that watch its own core. -/
theorem CorePlan.sum_ownSinks (p : CorePlan) (f : Nat → Nat) :
    ∑ j ∈ p.setup.ownSinks, f j =
      (List.zipWith (fun r n => if r.source = p.core then n else 0) p.sinks
        ((List.range p.sinks.length).map f)).sum := by
  have hown : List.zipWith (fun r n => if r.source = p.core then n else 0) p.sinks
      ((List.range p.sinks.length).map f) = (List.range p.sinks.length).map fun j =>
        if p.setup.sinks[j]?.any fun sink => sink.source = p.core then f j else 0 := by
    refine eq_map_range (by simp) fun j hj => ?_
    have hsink : p.setup.sinks[j]? = some p.sinks[j].setup := by
      rw [getElem?_setup_sinks, List.getElem?_eq_getElem hj]
      rfl
    rw [List.getElem?_zipWith, List.getElem?_eq_getElem hj, List.getElem?_map,
      List.getElem?_range hj, hsink, Option.any_some]
    simp only [Option.map_some, decide_eq_true_eq]
    rfl
  rw [hown, ← p.size_setup_sinks]
  unfold Setup.ownSinks
  rw [Finset.sum_filter]
  rfl

/-- The counters of a core with a balanced receiver. -/
theorem Receiver.Balanced.counters {ps : List Program} {run : Run} {q : Program}
    {due : Nat → Nat} {r : Receiver} (h : r.Balanced q.toCorePlan.setup due)
    (hdue : ∀ (j : Nat) x, q.sinks[j]? = some x → ∀ m, run.SentFor ps x m ↔ m = due j)
    (snd : Sender) (recorded : Array Nat) :
    (Counters.ofHalves snd r recorded).Balanced ps run q := by
  have hsize := q.toCorePlan.size_setup_sinks
  have hreceived : (Counters.ofHalves snd r recorded).received.toList =
      (List.range q.sinks.length).map r.received := r.toList_received (h.size.trans hsize)
  refine ⟨⟨_, _, rfl, rfl, ?_⟩, ?_, ⟨(List.range q.sinks.length).map due, ?_, ?_, ?_⟩, ?_⟩
  · rw [hreceived, ← hsize]
    exact h.routed
  · show some r.localPackets = _
    rw [h.own, hreceived, CorePlan.sum_ownSinks]
  · refine List.forall₂_of_length_eq_of_get (by simp) fun j hj _ => ?_
    rw [List.get_eq_getElem, List.get_eq_getElem, List.getElem_map, List.getElem_range]
    exact hdue j _ (List.getElem?_eq_getElem hj)
  · rw [hreceived, List.forall₂_map_left_iff, List.forall₂_map_right_iff, List.forall₂_same]
    exact fun j _ => h.received_le j
  · have hlost := Finset.sum_tsub_distrib (Finset.range q.sinks.length) (f := due)
      (g := r.received) fun j _ => h.received_le j
    have hdropped := h.dropped
    rw [hsize] at hdropped
    show some r.droppedPackets = _
    rw [hreceived, List.zipWith_map, List.zipWith_self]
    show _ = some (∑ j ∈ Finset.range q.sinks.length, (due j - r.received j))
    rw [hlost, ← hdropped, Nat.add_sub_cancel]
  · intro x hlocal hexternal hdropped
    cases x with
    | localMulticast => exact absurd rfl hlocal
    | externalMulticast => exact absurd rfl hexternal
    | droppedMulticast => exact absurd rfl hdropped
    | _ => rfl

namespace Compiled.From

variable {v : ValidSpec} {flows : List PlannedFlow} {c : Compiled} (h : c.From v flows)
  {ps : List Program} (hps : ∀ q ∈ ps, q ∈ c.programs.values) (hnodup : ps.Nodup)

include h hps hnodup

/-- What the source of a sink has sent is what was offered to the sink. -/
theorem sentFor_iff {run : Run}
    (hshape : run.senders.map Sender.shape = Run.shapes (ps.map fun q => q.toCorePlan.setup))
    {e j : Nat} {q : Program} {r : SinkRole} (hq : ps[e]? = some q) (hr : q.sinks[j]? = some r)
    (m : Nat) : run.SentFor ps r m ↔ m = offered e j run.senders := by
  obtain ⟨core, -, rfl⟩ := h.mem_programs.1 (hps q (List.mem_of_getElem? hq))
  obtain ⟨f, hf, -, rfl⟩ := mem_sinks.1 (List.mem_of_getElem? hr)
  by_cases hruns : ∃ p ∈ ps, p.core = f.route.source
  · obtain ⟨p, hp, hcore⟩ := hruns
    obtain ⟨i, hx⟩ := h.exists_source_of_flow hf (hps p hp) hcore
    obtain ⟨d, hp⟩ := List.getElem?_of_mem hp
    have hsent := h.sent_eq_offered hps hnodup hshape hf hp hcore hx hq hr
    constructor
    · intro hm
      cases hm with
      | runs hp' hcore' hx' _ hkey' hm =>
        obtain ⟨rfl, rfl⟩ := h.source_place_eq hps hnodup hf hp hp' hx hx' hcore.symm hcore'.symm
          rfl (congrArg RoutingKey.val hkey').symm
        exact Option.some_inj.1 (hm.symm.trans hsent)
      | away haway => exact absurd hcore (haway p (List.mem_of_getElem? hp))
    · rintro rfl
      exact .runs hp hcore hx rfl rfl hsent
  · have haway : ∀ p ∈ ps, p.core ≠ f.route.source := fun p hp hcore => hruns ⟨p, hp, hcore⟩
    have hsink : (v.corePlan flows core).setup.sinks[j]? = some (Compilation.sinkRole f).setup := by
      rw [CorePlan.getElem?_setup_sinks]
      exact congrArg (Option.map SinkRole.setup) hr
    have hzero := Run.offered_eq_zero hshape (getElem?_map_setup hq) hsink fun s hs hcore => by
      obtain ⟨p, hp, rfl⟩ := List.mem_map.1 hs
      exact haway p hp hcore.symm
    rw [hzero]
    constructor
    · intro hm
      cases hm with
      | runs hp' hcore' => exact absurd hcore' (haway _ (List.mem_of_getElem? hp'))
      | away => rfl
    · rintro rfl
      exact .away haway

end Compiled.From

/-! ## Main result -/

/-- Router counters account for every packet that is to go to a core.  Whichever programs of a
specification run together, on whatever network: after every tick, and so at the end, local and
external packets are all that were received, local ones are those from the core itself, and dropped
packets are those that the watched sources have sent and that were not received. -/
theorem routers_account_for_packets {s : Spec} {v : ValidSpec} {c : Compiled}
    (hv : s.validate = .ok v) (hc : compile v = .ok c) {ps : List Program}
    (hps : ∀ q ∈ ps, q ∈ c.programs.values) (hnodup : ps.Nodup) {setups : List Setup}
    (hplay : List.Forall₂ (fun (q : Program) s => Setup.play q.core q.bytes = .ok s) ps setups)
    (capacity : Nat) (n : Network) (seed : UInt64) {d : Nat} {q : Program} (hq : ps[d]? = some q) :
    let run := Run.after capacity n seed setups (recorders setups)
    (∀ elapsed, ∃ k, (run elapsed).current? d = some k ∧ k.Balanced ps (run elapsed) q) ∧
      ∃ k, (simulate capacity n seed setups)[d]? = some k ∧
        k.Balanced ps (run (longestRun setups)) q := by
  intro run
  obtain ⟨flows, h⟩ := Compiled.from_of_compile (Spec.sound_of_validate hv).2 hc
  obtain rfl := h.setups_eq hps hplay
  have hs := getElem?_map_setup hq
  have hbalanced : ∀ elapsed, ∃ r, (run elapsed).receivers[d]? = some r ∧
      ∀ snd recorded, (Counters.ofHalves snd r recorded).Balanced ps (run elapsed) q := by
    intro elapsed
    have hshape := Run.shape_after capacity n seed (ps.map fun q => q.toCorePlan.setup)
      (recorders (ps.map fun q => q.toCorePlan.setup)) elapsed
    obtain ⟨r, hr, hbalanced⟩ := Run.balanced_after capacity n seed _ (recorders _) elapsed d _ hs
    exact ⟨r, hr, hbalanced.counters fun j x hx => h.sentFor_iff hps hnodup hshape hq hx⟩
  constructor
  · intro elapsed
    obtain ⟨r, hr, hcounters⟩ := hbalanced elapsed
    obtain ⟨snd, r', -, hsnd, hr', -⟩ := (Run.formed_after capacity n seed _ (recorders _)
      elapsed).exists_halves hs
    rw [hr] at hr'
    cases hr'
    refine ⟨_, ?_, hcounters snd #[]⟩
    unfold Run.current?
    rw [hsnd, hr]
    rfl
  · obtain ⟨snd, r', recorded, -, hr', -, hsim⟩ := Run.exists_simulate capacity n seed hs
    obtain ⟨r, hr, hcounters⟩ := hbalanced (longestRun (ps.map fun q => q.toCorePlan.setup))
    rw [hr] at hr'
    cases hr'
    exact ⟨_, hsim, hcounters snd recorded⟩

/-- A core that runs without the other: one of its sinks watches the core itself, and the other a
core that does not run. -/
theorem routers_account_for_packets_alone :
    ∃ v c q, Spec.twoCores.validate = .ok v ∧ compile v = .ok c ∧ q ∈ c.programs.values ∧
      q.core = ⟨1⟩ ∧ q.sinks.length = 2 ∧
      let n : Network := ⟨.sometimes 9, 1, 3⟩
      let run := Run.after 1 n 5 [q.toCorePlan.setup] (recorders [q.toCorePlan.setup])
      (∀ elapsed, ∃ k, (run elapsed).current? 0 = some k ∧ k.Balanced [q] (run elapsed) q) ∧
        ∃ k, (simulate 1 n 5 [q.toCorePlan.setup])[0]? = some k ∧
          k.Balanced [q] (run (longestRun [q.toCorePlan.setup])) q := by
  obtain ⟨v, c, hv, hc, hshape⟩ := Spec.exists_of_shape? Spec.twoCores_shape
  obtain ⟨flows, hfrom⟩ := Compiled.from_of_compile (Spec.sound_of_validate hv).2 hc
  obtain ⟨p, rest, hvalues, -, hrest⟩ := List.map_eq_cons_iff.1 hshape
  obtain ⟨q, rest, rfl, hq, -⟩ := List.map_eq_cons_iff.1 hrest
  have hmem : q ∈ c.programs.values := by simp [hvalues]
  exact ⟨v, c, q, hv, hc, hmem, congrArg (·.1) hq, congrArg (·.2.2) hq,
    routers_account_for_packets hv hc (by simpa using hmem) (List.nodup_singleton q)
      (.cons (hfrom.play_of_mem hmem) .nil) 1 ⟨.sometimes 9, 1, 3⟩ 5 rfl⟩

end TrafficLab
