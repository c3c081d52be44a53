import Mathlib.Data.Int.CardIntervalMod
import TrafficLab.Proofs.Chip.Generation

/-!
# What a source wants to send

In each tick in which a source is due, its packet is sent or blocked.  Which of the two it is
depends on the capacity; that it is one of them depends on the source and the random words alone.  A
periodic source needs no random words, so the packets that it has wanted to send can be counted
ahead: they are one more than the whole intervals if an interval has begun and is not over.

    demand after a tick = demand before + 1 if due                         (demand_sendSources)
    demand of a source = the number of ticks at which it is due            (demand_senderAfter)
    ticks at which a periodic source is due = whole intervals, rounded up  (count_every)
-/

namespace TrafficLab

/-! ## One tick -/

/-- The packets that a source has wanted to send. -/
def SourceRun.demand (x : SourceRun) : Nat := x.sent + x.blocked

/-- Which sources are due in a tick, and the random words that are left. -/
def dues (tick : Nat) (r : Random) : List SourceSetup → List Bool × Random
  | [] => ([], r)
  | s :: rest =>
    let (due, r) := s.isDue tick r
    let (more, r) := dues tick r rest
    (due :: more, r)

/-- Sources draw the same words and want to send the same packets whatever the capacity is. -/
theorem demand_sendSources (tick capacity : Nat) (r : Random) (sources : List SourceRun) :
    (sendSources tick capacity r sources).random = (dues tick r (sources.map (·.setup))).2 ∧
      (sendSources tick capacity r sources).sources.map (·.demand) =
        List.zipWith (fun x due => x.demand + due.toNat) sources
          (dues tick r (sources.map (·.setup))).1 := by
  induction sources generalizing capacity r with
  | nil => exact ⟨rfl, rfl⟩
  | cons s rest ih =>
    rw [List.map_cons]
    unfold sendSources dues
    obtain ⟨due, r'⟩ := s.setup.isDue tick r
    cases due with
    | false => exact ⟨(ih capacity r').1, congrArg (s.demand :: ·) (ih capacity r').2⟩
    | true =>
      cases capacity with
      | zero => exact ⟨(ih 0 r').1, congrArg ((s.demand + 1) :: ·) (ih 0 r').2⟩
      | succ left =>
        have hsent : SourceRun.demand { s with sent := s.sent + 1 } = s.demand + 1 :=
          Nat.succ_add s.sent s.blocked
        refine ⟨(ih left r').1, ?_⟩
        show SourceRun.demand { s with sent := s.sent + 1 } :: _ = _
        rw [hsent, (ih left r').2]
        rfl

/-- Each source looks at the random words that the ones before it have left. -/
theorem getElem?_dues (tick : Nat) (r : Random) (setups : List SourceSetup) (i : Nat) :
    ∃ r', (dues tick r setups).1[i]? = (setups[i]?).map fun s => (s.isDue tick r').1 := by
  induction setups generalizing r i with
  | nil => exact ⟨r, rfl⟩
  | cons s rest ih =>
    cases i with
    | zero => exact ⟨r, rfl⟩
    | succ i => exact ih (s.isDue tick r).2 i

/-! ## A core alone -/

namespace Setup

variable (capacity : Nat) (s : Setup)

theorem setups_senderAfter (tick : Nat) :
    (s.senderAfter capacity tick).sources.map (·.setup) = s.sources.toList := by
  induction tick with
  | zero =>
    show (s.sources.toList.map _).map _ = _
    rw [List.map_map]
    exact List.map_id _
  | succ tick ih =>
    have hframe := congrArg (List.map Prod.fst)
      (emits_send capacity tick (s.senderAfter capacity tick)).2.frame
    rw [List.map_map, List.map_map] at hframe
    exact hframe.trans ih

/-- During the core's run a source that needs no random words wants to send whenever it is due. -/
theorem demand_senderAfter {i : Nat} {src : SourceSetup} (hsrc : s.sources[i]? = some src)
    {due : Nat → Bool} (hdue : ∀ tick r, (src.isDue tick r).1 = due tick) {tick : Nat}
    (hrun : tick ≤ s.runTicks) :
    ((s.senderAfter capacity tick).sources[i]?).map (·.demand) =
      some (tick.count fun t => due t = true) := by
  induction tick with
  | zero =>
    show ((s.sources.toList.map _)[i]?).map SourceRun.demand = _
    rw [List.getElem?_map, Array.getElem?_toList, hsrc]
    rfl
  | succ tick ih =>
    have hrun' : tick < (s.senderAfter capacity tick).runTicks := by
      rw [runTicks_senderAfter]
      exact hrun
    obtain ⟨x, hx, hdemand⟩ := Option.map_eq_some_iff.1 (ih (Nat.le_of_lt hrun))
    obtain ⟨r', hr'⟩ := getElem?_dues tick (s.senderAfter capacity tick).random
      s.sources.toList i
    rw [Array.getElem?_toList, hsrc, Option.map_some, hdue] at hr'
    have hsend := (demand_sendSources tick capacity (s.senderAfter capacity tick).random
      (s.senderAfter capacity tick).sources).2
    rw [setups_senderAfter] at hsend
    show (((s.senderAfter capacity tick).send capacity tick).1.sources[i]?).map _ = _
    unfold Sender.send
    rw [if_pos hrun', ← List.getElem?_map, hsend, List.getElem?_zipWith, hx, hr']
    show some (x.demand + (due tick).toNat) = _
    rw [hdemand, Nat.count_succ]
    cases due tick <;> rfl

end Setup

/-! ## Periodic sources -/

theorem SourceSetup.isDue_every {src : SourceSetup} {k : UInt32} (he : src.emission = .every k)
    (hburst : src.burst = none) (tick : Nat) (r : Random) :
    (src.isDue tick r).1 =
      (decide (src.start.toNat ≤ tick) && (tick - src.start.toNat) % k.toNat == 0) := by
  unfold isDue isActive
  rw [he, hburst, Bool.and_true]
  by_cases hstart : src.start.toNat ≤ tick <;> simp [hstart]

/-- Of the ticks up to some time after the start, a periodic source is due at the beginning of each
interval, those that are not over included. -/
theorem count_every (start k ticks : Nat) (hk : 0 < k) :
    (start + ticks).count (fun t => (decide (start ≤ t) && (t - start) % k == 0) = true) =
      ticks / k + if k ∣ ticks then 0 else 1 := by
  have hbefore : start.count (fun t => (decide (start ≤ t) && (t - start) % k == 0) = true) = 0 := by
    refine Nat.count_iff_forall_not.2 fun t ht => ?_
    simp [Nat.not_le.2 ht]
  have hafter : (fun t => (decide (start ≤ start + t) && (start + t - start) % k == 0) = true) =
      (· ≡ 0 [MOD k]) := by
    funext t
    simp [Nat.ModEq]
  rw [Nat.count_add, hbefore, Nat.zero_add]
  simp only [hafter]
  rw [Nat.count_modEq_card ticks hk 0, Nat.zero_mod]
  congr 1
  by_cases hdvd : k ∣ ticks
  · rw [if_pos hdvd, if_neg (by rw [Nat.mod_eq_zero_of_dvd hdvd]; exact Nat.lt_irrefl 0)]
  · rw [if_neg hdvd, if_pos (Nat.pos_of_ne_zero fun h => hdvd (Nat.dvd_of_mod_eq_zero h))]

theorem Schedule.toNat_wholeIntervals (k : UInt32) (ticks : UInt64) :
    (wholeIntervals k ticks).toNat = ticks.toNat / k.toNat := by
  unfold wholeIntervals
  rw [UInt64.toNat_div, UInt32.toNat_toUInt64]

/-! ## Main result -/

/-- On whatever machine a core has run, a source of it that is to send a packet every so many ticks
has sent or blocked one packet for each tick at which it was due.  These are as many as the whole
intervals from its start to the end of the run, and one more if there is a rest. -/
theorem demand_every {m m₁ : Machine} {cores : List CoreId}
    (hstart : m.start cores = (.value (), m₁)) {core : CoreId} (hcore : core ∈ cores) {s : Setup}
    (hs : m.loaded.get? core = some s) {i : Nat} {src : SourceSetup}
    (hsrc : s.sources[i]? = some src) {k : UInt32} (hk : k ≠ 0) (he : src.emission = .every k)
    (hburst : src.burst = none) {ticks : UInt64}
    (hticks : src.start.toNat + ticks.toNat = s.runTicks) :
    ∃ counters sent blocked, m₁.counters.get? core = some counters ∧
      counters.sent[i]? = some sent ∧ counters.blocked[i]? = some blocked ∧
      (∀ r, sent + blocked = s.runTicks.count fun t => (src.isDue t r).1 = true) ∧
      sent + blocked = (Schedule.wholeIntervals k ticks).toNat +
        if k.toNat ∣ ticks.toNat then 0 else 1 := by
  obtain ⟨counters, hcounters, hgenerated⟩ := Machine.exists_generated hstart hcore hs
  have hdue := SourceSetup.isDue_every he hburst
  obtain ⟨x, hx, hdemand⟩ := Option.map_eq_some_iff.1 (s.demand_senderAfter
    m.config.capacity.toNat hsrc hdue (Nat.le_refl s.runTicks))
  refine ⟨counters, x.sent, x.blocked, hcounters, ?_, ?_, fun r => ?_, ?_⟩
  · rw [← Array.getElem?_toList, hgenerated.sent, List.getElem?_map, hx]
    rfl
  · rw [← Array.getElem?_toList, hgenerated.blocked, List.getElem?_map, hx]
    rfl
  · simp only [hdue]
    exact hdemand
  · have hpos : 0 < k.toNat := Nat.pos_of_ne_zero fun h => hk (UInt32.toNat_inj.1 h)
    rw [Schedule.toNat_wholeIntervals, ← count_every src.start.toNat k.toNat ticks.toNat hpos,
      hticks]
    exact hdemand

/-- A core with room for one packet in a tick and two sources: one sends every second tick and has
time for an interval and a half, the other every tick from the second on. -/
def Setup.uneven : Setup :=
  { Setup.blank ⟨1⟩ 0 with
    timestep := 5
    runTicks := 3
    sources := #[⟨7, false, .every 2, none, 0⟩, ⟨8, false, .every 1, none, 1⟩] }

/-- The machine on which the core is loaded. -/
def Machine.uneven : Machine :=
  { Machine.new .standard with loaded := .ofList [(⟨1⟩, .uneven)] }

/-- The source with a rest wants to send one packet more than it has whole intervals. -/
theorem demand_every_uneven :
    ∃ m₁ counters sent blocked, Machine.uneven.start [⟨1⟩] = (.value (), m₁) ∧
      m₁.counters.get? ⟨1⟩ = some counters ∧ counters.sent[0]? = some sent ∧
      counters.blocked[0]? = some blocked ∧
      (∀ r, sent + blocked =
        Nat.count (fun t => (SourceSetup.isDue ⟨7, false, .every 2, none, 0⟩ t r).1 = true) 3) ∧
      sent + blocked = (Schedule.wholeIntervals 2 3).toNat + 1 := by
  have hstart : Machine.uneven.start [⟨1⟩] = (.value (), (Machine.uneven.start [⟨1⟩]).2) :=
    Prod.ext (by decide +kernel) rfl
  have hs : Machine.uneven.loaded.get? ⟨1⟩ = some .uneven := rfl
  have hsrc : Setup.uneven.sources[0]? = some ⟨7, false, .every 2, none, 0⟩ := rfl
  have hticks : (0 : UInt32).toNat + (3 : UInt64).toNat = Setup.uneven.runTicks := rfl
  obtain ⟨counters, sent, blocked, hcounters, hsent, hblocked, hcount, hwhole⟩ :=
    demand_every hstart List.mem_cons_self hs hsrc (by decide) rfl rfl hticks
  exact ⟨_, counters, sent, blocked, hstart, hcounters, hsent, hblocked, hcount, hwhole⟩

/-- What is expected of the source and what it does: the whole intervals leave out the packet of the
last one, which has begun. -/
theorem expects_whole_intervals :
    Schedule.wholeIntervals 2 3 = 1 ∧ (Machine.uneven.start [⟨1⟩]).1 = .value () ∧
      (((Machine.uneven.start [⟨1⟩]).2.counters.get? ⟨1⟩).map fun counters =>
        (counters.sent[0]?, counters.blocked[0]?)) = some (some 2, some 0) := by
  decide +kernel

end TrafficLab
