import Mathlib.Algebra.Order.Floor.Div
import TrafficLab.Proofs.Chip.Demand
import TrafficLab.Proofs.Chip.Intervals

/-!
# What the capacity does

In a tick the sources that are due are the same whatever the capacity is, for a source draws its
random words before the capacity is looked at.  The first of them send, as many as there is capacity
for, and the others are blocked.  So the capacity only splits what sources want to send, and with
more of it no source sends less.

    the source sends ↔ it is due, and fewer before it are due than the capacity      (Sends)
    packets of a tick = min capacity (sources that are due)                (length_packets)
    sent after some ticks = the ticks in which it sends                    (sent?_after)
    sent + blocked after some ticks = the ticks in which it is due         (count_sends_blocks)
-/

namespace TrafficLab

/-! ## One tick -/

/-- The source with a number is due, and there is capacity left by those before it. -/
def Sends (capacity : Nat) (due : List Bool) (i : Nat) : Prop :=
  due[i]? = some true ∧ (due.take i).count true < capacity

/-- The source with a number is due, and those before it have left no capacity. -/
def Blocks (capacity : Nat) (due : List Bool) (i : Nat) : Prop :=
  due[i]? = some true ∧ capacity ≤ (due.take i).count true

instance (capacity : Nat) (due : List Bool) (i : Nat) : Decidable (Sends capacity due i) :=
  inferInstanceAs (Decidable (_ ∧ _))

instance (capacity : Nat) (due : List Bool) (i : Nat) : Decidable (Blocks capacity due i) :=
  inferInstanceAs (Decidable (_ ∧ _))

section
variable {capacity : Nat} {first : Bool} {due : List Bool} {i : Nat}

theorem sends_zero : Sends capacity (first :: due) 0 ↔ first = true ∧ 0 < capacity := by
  simp [Sends]

theorem blocks_zero : Blocks capacity (first :: due) 0 ↔ first = true ∧ capacity = 0 := by
  simp [Blocks]

/-- The first source takes its part of the capacity away from the others. -/
theorem sends_succ :
    Sends capacity (first :: due) (i + 1) ↔ Sends (capacity - first.toNat) due i := by
  unfold Sends
  rw [List.getElem?_cons_succ, List.take_succ_cons, List.count_cons]
  cases first with
  | false => simp
  | true =>
    simp
    omega

theorem blocks_succ :
    Blocks capacity (first :: due) (i + 1) ↔ Blocks (capacity - first.toNat) due i := by
  unfold Blocks
  rw [List.getElem?_cons_succ, List.take_succ_cons, List.count_cons]
  cases first <;> simp

end

/-- A source counts its packet as sent or as blocked. -/
theorem sendSources_spec (tick capacity : Nat) (r : Random) (sources : List SourceRun) {i : Nat}
    {x : SourceRun} (hx : sources[i]? = some x) :
    ∃ x', (sendSources tick capacity r sources).sources[i]? = some x' ∧
      x'.sent = x.sent +
        (if Sends capacity (dues tick r (sources.map (·.setup))).1 i then 1 else 0) ∧
      x'.blocked = x.blocked +
        if Blocks capacity (dues tick r (sources.map (·.setup))).1 i then 1 else 0 := by
  induction sources generalizing capacity r i with
  | nil => simp at hx
  | cons s rest ih =>
    rw [List.map_cons]
    unfold sendSources dues
    obtain ⟨due, r'⟩ := s.setup.isDue tick r
    cases i with
    | zero =>
      obtain rfl : s = x := Option.some_inj.1 hx
      simp only [sends_zero, blocks_zero]
      cases due with
      | false => exact ⟨s, rfl, rfl, rfl⟩
      | true =>
        cases capacity with
        | zero => exact ⟨_, rfl, rfl, rfl⟩
        | succ left => exact ⟨_, rfl, by simp, rfl⟩
    | succ i =>
      have hx : rest[i]? = some x := hx
      simp only [sends_succ, blocks_succ]
      cases due with
      | false => exact ih capacity r' hx
      | true =>
        cases capacity with
        | zero => exact ih 0 r' hx
        | succ left => exact ih left r' hx

/-- As many packets leave as there is capacity for, of those that are due. -/
theorem length_packets (tick capacity : Nat) (r : Random) (sources : List SourceRun) :
    (sendSources tick capacity r sources).packets.length =
      min capacity ((dues tick r (sources.map (·.setup))).1.count true) := by
  induction sources generalizing capacity r with
  | nil => simp [sendSources, dues]
  | cons s rest ih =>
    rw [List.map_cons]
    unfold sendSources dues
    obtain ⟨due, r'⟩ := s.setup.isDue tick r
    cases due with
    | false => simpa using ih capacity r'
    | true =>
      cases capacity with
      | zero => simpa using ih 0 r'
      | succ left =>
        have := ih left r'
        simp only [if_true, List.length_cons, List.count_cons_self] at this ⊢
        omega

/-! ## A core alone -/

namespace Setup

variable (capacity : Nat) (s : Setup)

/-- The random words that a core's sources have left when so many ticks of its run have gone by. -/
def wordsAfter (s : Setup) : Nat → Random
  | 0 => .ofSeed s.seed.toUInt64
  | tick + 1 => (dues tick (s.wordsAfter tick) s.sources.toList).2

/-- Which sources of a core are due in a tick.  When its run is over, none are. -/
def duesAt (s : Setup) (tick : Nat) : List Bool :=
  if tick < s.runTicks then (dues tick (s.wordsAfter tick) s.sources.toList).1 else []

theorem random_senderAfter {tick : Nat} (h : tick ≤ s.runTicks) :
    (s.senderAfter capacity tick).random = s.wordsAfter tick := by
  induction tick with
  | zero => rfl
  | succ tick ih =>
    have hrun : tick < (s.senderAfter capacity tick).runTicks := by
      rw [runTicks_senderAfter]
      exact h
    show ((s.senderAfter capacity tick).send capacity tick).1.random = _
    unfold Sender.send
    rw [if_pos hrun]
    show (sendSources tick capacity _ _).random = _
    rw [(demand_sendSources tick capacity _ _).1, setups_senderAfter, ih (Nat.le_of_lt h)]
    rfl

theorem unwatched_senderAfter (tick : Nat) :
    (s.senderAfter capacity tick).unwatched = s.senderAfter capacity tick := by
  induction tick with
  | zero =>
    show Sender.mk s.runTicks (.ofSeed s.seed.toUInt64) ((s.sources.toList.map _).map _) = _
    rw [List.map_map]
    rfl
  | succ tick ih =>
    show ((s.senderAfter capacity tick).send capacity tick).1.unwatched = _
    rw [Sender.unwatched_send, ih]
    rfl

/-- What the sources of a core look at in a tick, when they are what the core alone would have. -/
theorem dues_eq {snd : Sender} {tick : Nat} (h : snd.unwatched = s.senderAfter capacity tick)
    (hrun : tick < s.runTicks) :
    (dues tick snd.random (snd.sources.map (·.setup))).1 = s.duesAt tick := by
  have hrandom : snd.random = s.wordsAfter tick := by
    rw [← s.random_senderAfter capacity (Nat.le_of_lt hrun), ← h]
    rfl
  have hsetups : snd.sources.map (·.setup) = s.sources.toList := by
    rw [← s.setups_senderAfter capacity tick, ← h]
    show _ = (snd.sources.map (·.unwatched)).map (·.setup)
    rw [List.map_map]
    rfl
  unfold duesAt
  rw [if_pos hrun, hrandom, hsetups]

/-- A core sends a packet for each of its first sources that are due. -/
theorem length_send {snd : Sender} {tick : Nat} (h : snd.unwatched = s.senderAfter capacity tick) :
    (snd.send capacity tick).2.length = min capacity ((s.duesAt tick).count true) := by
  have hticks : snd.runTicks = s.runTicks := by
    rw [← s.runTicks_senderAfter capacity tick, ← h]
    rfl
  unfold Sender.send
  rw [hticks]
  by_cases hrun : tick < s.runTicks
  · rw [if_pos hrun, ← s.dues_eq capacity h hrun]
    exact length_packets tick capacity snd.random snd.sources
  · rw [if_neg hrun, duesAt, if_neg hrun]
    simp

/-- What a source of a core has counted: the ticks in which it sends, and those in which it is
blocked. -/
theorem exists_source_after (tick : Nat) {i : Nat} (hi : i < s.sources.size) :
    ∃ x, (s.senderAfter capacity tick).sources[i]? = some x ∧
      x.sent = tick.count (fun t => Sends capacity (s.duesAt t) i) ∧
      x.blocked = tick.count fun t => Blocks capacity (s.duesAt t) i := by
  induction tick with
  | zero =>
    refine ⟨⟨s.sources[i], [], 0, 0⟩, ?_, rfl, rfl⟩
    show (s.sources.toList.map _)[i]? = _
    rw [List.getElem?_map, Array.getElem?_toList, Array.getElem?_eq_getElem hi]
    rfl
  | succ tick ih =>
    obtain ⟨x, hx, hsent, hblocked⟩ := ih
    rw [Nat.count_succ, Nat.count_succ, ← hsent, ← hblocked]
    show ∃ x', ((s.senderAfter capacity tick).send capacity tick).1.sources[i]? = some x' ∧ _
    by_cases hrun : tick < s.runTicks
    · unfold Sender.send
      rw [runTicks_senderAfter, if_pos hrun,
        ← s.dues_eq capacity (s.unwatched_senderAfter capacity tick) hrun]
      exact sendSources_spec tick capacity _ _ hx
    · unfold Sender.send
      rw [runTicks_senderAfter, if_neg hrun, duesAt, if_neg hrun]
      exact ⟨x, hx, by simp [Sends], by simp [Blocks]⟩

/-- In each tick in which a source is due, it sends or is blocked. -/
theorem count_sends_blocks (i tick : Nat) :
    (tick.count fun t => Sends capacity (s.duesAt t) i) +
        tick.count (fun t => Blocks capacity (s.duesAt t) i) =
      tick.count fun t => (s.duesAt t)[i]? = some true := by
  have hone : ∀ t, (if Sends capacity (s.duesAt t) i then 1 else 0) +
      (if Blocks capacity (s.duesAt t) i then 1 else 0) =
        if (s.duesAt t)[i]? = some true then 1 else 0 := by
    intro t
    unfold Sends Blocks
    by_cases hdue : (s.duesAt t)[i]? = some true
    · by_cases hleft : ((s.duesAt t).take i).count true < capacity
      · simp [hdue, hleft]
      · simp [hdue, hleft, Nat.not_lt.1 hleft]
    · simp [hdue]
  induction tick with
  | zero => rfl
  | succ tick ih =>
    have := hone tick
    simp only [Nat.count_succ]
    omega

/-- With more capacity a source sends in every tick in which it sends with less. -/
theorem count_sends_mono {capacity capacity' : Nat} (h : capacity ≤ capacity') (i tick : Nat) :
    (tick.count fun t => Sends capacity (s.duesAt t) i) ≤
      tick.count fun t => Sends capacity' (s.duesAt t) i :=
  Nat.count_mono_left fun _ _ ⟨hdue, hleft⟩ => ⟨hdue, Nat.lt_of_lt_of_le hleft h⟩

end Setup

/-! ## Runs -/

/-- How many packets of the source with a number have been blocked, if there is such a source. -/
def Run.blocked? (run : Run) (d i : Nat) : Option Nat :=
  (run.senders[d]?.bind fun s => s.sources[i]?).map (·.blocked)

namespace Run

variable {setups : List Setup} {d : Nat} {s : Setup} (hs : setups[d]? = some s) (capacity : Nat)
  (n : Network) (seed : UInt64)

include hs

theorem exists_sender_after (elapsed : Nat) :
    ∃ snd, (after capacity n seed setups (recorders setups) elapsed).senders[d]? = some snd ∧
      snd.unwatched = s.senderAfter capacity elapsed :=
  Option.map_eq_some_iff.1 (sender_after hs capacity n seed (recorders setups) elapsed)

/-- The counts of a source during a run of whatever cores. -/
theorem counts_after {i : Nat} (hi : i < s.sources.size) (elapsed : Nat) :
    (after capacity n seed setups (recorders setups) elapsed).sent? d i =
        some (elapsed.count fun t => Sends capacity (s.duesAt t) i) ∧
      (after capacity n seed setups (recorders setups) elapsed).blocked? d i =
        some (elapsed.count fun t => Blocks capacity (s.duesAt t) i) := by
  obtain ⟨snd, hsnd, halone⟩ := exists_sender_after hs capacity n seed elapsed
  obtain ⟨x, hx, hsent, hblocked⟩ := s.exists_source_after capacity elapsed hi
  rw [← halone] at hx
  unfold Sender.unwatched at hx
  rw [List.getElem?_map] at hx
  obtain ⟨y, hy, rfl⟩ := Option.map_eq_some_iff.1 hx
  unfold sent? blocked?
  rw [hsnd, Option.bind_some, hy]
  exact ⟨congrArg some hsent, congrArg some hblocked⟩

end Run

/-- What becomes of the sources of a core in a tick of a run: the first that are due send, as many
as there is capacity for, and the others that are due are blocked. -/
structure Run.SplitsLoad (capacity : Nat) (s : Setup) (d tick : Nat) (run run' : Run) : Prop where
  packets : ∃ snd, run.senders[d]? = some snd ∧
    (snd.send capacity tick).2.length = min capacity ((s.duesAt tick).count true)
  sent : ∀ i < s.sources.size, ∃ a, run.sent? d i = some a ∧
    run'.sent? d i = some (a + if Sends capacity (s.duesAt tick) i then 1 else 0)
  blocked : ∀ i < s.sources.size, ∃ b, run.blocked? d i = some b ∧
    run'.blocked? d i = some (b + if Blocks capacity (s.duesAt tick) i then 1 else 0)

theorem Run.splitsLoad_after {setups : List Setup} {d : Nat} {s : Setup}
    (hs : setups[d]? = some s) (capacity : Nat) (n : Network) (seed : UInt64) (elapsed : Nat) :
    SplitsLoad capacity s d elapsed (after capacity n seed setups (recorders setups) elapsed)
      (after capacity n seed setups (recorders setups) (elapsed + 1)) := by
  have hcounts := fun {i} (hi : i < s.sources.size) => counts_after hs capacity n seed hi
  refine ⟨?_, fun i hi => ?_, fun i hi => ?_⟩
  · obtain ⟨snd, hsnd, halone⟩ := exists_sender_after hs capacity n seed elapsed
    exact ⟨snd, hsnd, s.length_send capacity halone⟩
  · refine ⟨_, (hcounts hi elapsed).1, ?_⟩
    rw [(hcounts hi (elapsed + 1)).1, Nat.count_succ]
  · refine ⟨_, (hcounts hi elapsed).2, ?_⟩
    rw [(hcounts hi (elapsed + 1)).2, Nat.count_succ]

/-! ## Periodic sources -/

/-- Whole intervals, rounded up. -/
theorem div_add_rest_eq_ceilDiv {ticks k : Nat} (hk : 0 < k) :
    (ticks / k + if k ∣ ticks then 0 else 1) = ticks ⌈/⌉ k := by
  rw [Nat.ceilDiv_eq_add_pred_div]
  have hdiv := Nat.div_add_mod ticks k
  have hmod := Nat.mod_lt ticks hk
  by_cases hdvd : k ∣ ticks
  · rw [if_pos hdvd]
    obtain ⟨q, rfl⟩ := hdvd
    rw [Nat.mul_div_cancel_left q hk, Nat.add_sub_assoc hk, Nat.mul_add_div hk,
      Nat.div_eq_of_lt (by omega)]
  · have hrest : 0 < ticks % k := Nat.pos_of_ne_zero fun h => hdvd (Nat.dvd_of_mod_eq_zero h)
    have hsplit : ticks + k - 1 = k * (ticks / k + 1) + (ticks % k - 1) := by
      rw [Nat.mul_add, Nat.mul_one]
      omega
    have hsmall : (ticks % k - 1) / k = 0 := Nat.div_eq_of_lt (by omega)
    rw [if_neg hdvd, hsplit, Nat.mul_add_div hk, hsmall, Nat.add_zero]

/-- A periodic source sends or is blocked once in each interval that has begun in its core's run. -/
theorem Setup.counts_every {s : Setup} {i : Nat} {src : SourceSetup}
    (hsrc : s.sources[i]? = some src) {k : UInt32} (hk : k ≠ 0) (he : src.emission = .every k)
    (hburst : src.burst = none) {elapsed : Nat} (hstart : src.start.toNat ≤ min elapsed s.runTicks)
    (capacity : Nat) :
    (elapsed.count fun t => Sends capacity (s.duesAt t) i) +
        elapsed.count (fun t => Blocks capacity (s.duesAt t) i) =
      (min elapsed s.runTicks - src.start.toNat) ⌈/⌉ k.toNat := by
  have hpos : 0 < k.toNat := Nat.pos_of_ne_zero fun h => hk (UInt32.toNat_inj.1 h)
  obtain ⟨hi, -⟩ := Array.getElem?_eq_some_iff.1 hsrc
  obtain ⟨x, hx, hsent, hblocked⟩ := s.exists_source_after capacity elapsed hi
  have hran : s.senderAfter capacity elapsed = s.senderAfter capacity (min elapsed s.runTicks) := by
    rcases Nat.le_total elapsed s.runTicks with hle | hle
    · rw [Nat.min_eq_left hle]
    · rw [Nat.min_eq_right hle, s.senderAfter_of_le capacity hle]
  have hdemand := s.demand_senderAfter capacity hsrc (SourceSetup.isDue_every he hburst)
    (Nat.min_le_right elapsed s.runTicks)
  rw [← hran, hx, Option.map_some, Option.some_inj] at hdemand
  have hcount := count_every src.start.toNat k.toNat
    (min elapsed s.runTicks - src.start.toNat) hpos
  rw [Nat.add_sub_cancel' hstart, div_add_rest_eq_ceilDiv hpos] at hcount
  rw [← hsent, ← hblocked, ← hcount]
  exact hdemand

/-! ## Main result -/

/-- In every tick a core sends the packets of its first sources that are due, as many as there is
capacity for, and blocks the others.  What a source has sent and blocked together does not depend on
the capacity, nor on the network and the other cores; what it has sent does not fall when the
capacity grows.  A periodic source without bursts has sent or blocked a packet for each interval
that has begun since its start. -/
theorem capacity_splits_load {core : CoreId} {bytes : List UInt8} {s : Setup}
    (hplay : Setup.play core bytes = .ok s) {setups setups' : List Setup} {d d' : Nat}
    (hs : setups[d]? = some s) (hs' : setups'[d']? = some s) (capacity capacity' : Nat)
    (n n' : Network) (seed seed' : UInt64) (elapsed : Nat) :
    let run := Run.after capacity n seed setups (recorders setups)
    let run' := Run.after capacity' n' seed' setups' (recorders setups')
    Run.SplitsLoad capacity s d elapsed (run elapsed) (run (elapsed + 1)) ∧
      ∀ (i : Nat) src, s.sources[i]? = some src → ∃ a b a' b',
        (run elapsed).sent? d i = some a ∧ (run elapsed).blocked? d i = some b ∧
        (run' elapsed).sent? d' i = some a' ∧ (run' elapsed).blocked? d' i = some b' ∧
        a + b = a' + b' ∧ (capacity ≤ capacity' → a ≤ a') ∧
        ∀ k, src.emission = .every k → src.burst = none →
          src.start.toNat ≤ min elapsed s.runTicks →
          a + b = (min elapsed s.runTicks - src.start.toNat) ⌈/⌉ k.toNat := by
  intro run run'
  refine ⟨Run.splitsLoad_after hs capacity n seed elapsed, fun i src hsrc => ?_⟩
  obtain ⟨hi, rfl⟩ := Array.getElem?_eq_some_iff.1 hsrc
  obtain ⟨hsent, hblocked⟩ := Run.counts_after hs capacity n seed hi elapsed
  obtain ⟨hsent', hblocked'⟩ := Run.counts_after hs' capacity' n' seed' hi elapsed
  refine ⟨_, _, _, _, hsent, hblocked, hsent', hblocked', ?_, ?_, ?_⟩
  · rw [s.count_sends_blocks capacity, s.count_sends_blocks capacity']
  · exact fun hle => s.count_sends_mono hle i elapsed
  · intro k he hburst hstart
    refine Setup.counts_every hsrc ?_ he hburst hstart capacity
    rintro rfl
    exact Setup.intervals_of_play hplay _ (Array.getElem_mem hi) he

/-- A stream for a core with three sources: one sends every second tick, one at random, and one in
every tick from the second on. -/
def Stream.crowded : List Command :=
  [.timestep 1, .seed 7, .num 3 0, .source 0 (.interval 2), .source 1 (.probability 0x80000000),
    .source 2 (.interval 1), .source 2 (.start 1), .run 6, .exit]

/-- The third source of the stream. -/
def Stream.crowdedOut : SourceSetup := ⟨0, false, .every 1, none, 1⟩

/-- The core alone with room for one packet, and beside itself on a network that loses all packets
with room for two. -/
theorem capacity_splits_load_crowded :
    ∃ s, Setup.play ⟨0⟩ (Stream.pack Stream.crowded) = .ok s ∧
      s.sources[2]? = some Stream.crowdedOut ∧
      let run := Run.after 1 ⟨.never, 1, 0⟩ 0 [s] (recorders [s])
      let run' := Run.after 2 ⟨.always, 3, 2⟩ 9 [s, s] (recorders [s, s])
      Run.SplitsLoad 1 s 0 5 (run 5) (run 6) ∧ ∃ a b a' b',
        (run 5).sent? 0 2 = some a ∧ (run 5).blocked? 0 2 = some b ∧
        (run' 5).sent? 1 2 = some a' ∧ (run' 5).blocked? 1 2 = some b' ∧
        a + b = a' + b' ∧ a ≤ a' ∧ a + b = 4 := by
  have hruns : ((Setup.play ⟨0⟩ (Stream.pack Stream.crowded)).toOption.map fun s =>
      (s.sources[2]?, s.runTicks)) = some (some Stream.crowdedOut, 6) := by
    decide +kernel
  obtain ⟨s, hplay, hpair⟩ := Option.map_eq_some_iff.1 hruns
  have hplay : Setup.play ⟨0⟩ (Stream.pack Stream.crowded) = .ok s :=
    Checked.toOption_eq_some.1 hplay
  obtain ⟨hsrc, hticks⟩ := Prod.mk.inj hpair
  obtain ⟨hsplits, hcounts⟩ := capacity_splits_load hplay (rfl : [s][0]? = some s)
    (rfl : [s, s][1]? = some s) 1 2 ⟨.never, 1, 0⟩ ⟨.always, 3, 2⟩ 0 9 5
  obtain ⟨a, b, a', b', ha, hb, ha', hb', hsame, hle, hevery⟩ := hcounts 2 _ hsrc
  have hran : min 5 s.runTicks = 5 := by rw [hticks]; rfl
  have hfour := hevery 1 rfl rfl (by rw [hran]; decide)
  rw [hran] at hfour
  exact ⟨s, hplay, hsrc, hsplits, a, b, a', b', ha, hb, ha', hb', hsame, hle (by decide), hfour⟩

end TrafficLab
