import TrafficLab.Proofs.Chip.Bursts
import TrafficLab.Proofs.Chip.Intervals

/-!
# Divisors

In a tick a core divides by the period of a burst window, by the interval of a source and by its
record interval, if it comes to ask for them.  None of them is zero for a core that plays a stream
which is accepted, in whatever order the commands of the stream come: commands that ask for an
interval of zero ticks are refused at once, windows that never repeat at the end of the stream, and
without a record interval no record is asked for.

The functions that end in `?` are those of a run as a core carries them out: a remainder that has a
divisor of zero has no value, and neither has the tick in which it is taken.

    s.isDue? tick r = none ↔ the source asks for a remainder by zero             (isDue?_eq_none)
    s.Repeats → s.isDue? tick r = some (s.isDue tick r)                      (isDue?_of_repeats)
    play core bytes = .ok s → s.Repeats                                        (repeats_of_play)
    a run of setups whose sources repeat divides by zero in no tick               (ticks?_after)
-/

namespace TrafficLab

/-! ## Remainders -/

/-- The remainder, which a divisor of zero does not leave. -/
def remainder? (n d : Nat) : Option Nat := if d = 0 then none else some (n % d)

theorem remainder?_of_pos {d : Nat} (h : 0 < d) (n : Nat) : remainder? n d = some (n % d) :=
  if_neg (Nat.ne_of_gt h)

theorem remainder?_zero (n : Nat) : remainder? n 0 = none := rfl

/-! ## Sources -/

namespace SourceSetup

def isActive? (s : SourceSetup) (tick : Nat) : Option Bool :=
  if s.start.toNat ≤ tick then
    match s.burst with
    | some w => w.isOpen? tick
    | none => some true
  else some false

def isDue? (s : SourceSetup) (tick : Nat) (r : Random) : Option (Bool × Random) := do
  if ← s.isActive? tick then
    match s.emission with
    | .idle => some (false, r)
    | .every ticks => (remainder? (tick - s.start.toNat) ticks.toNat).map fun k => (k == 0, r)
    | .bernoulli threshold =>
      let (w, r) := r.next
      some (threshold == 0xFFFFFFFF || w < threshold, r)
  else some (false, r)

/-- A source whose interval and burst window are of at least one tick. -/
structure Repeats (s : SourceSetup) : Prop where
  interval : ∀ ticks, s.emission = .every ticks → 1 ≤ ticks.toNat
  period : ∀ w, s.burst = some w → 1 ≤ w.period.toNat

variable {s : SourceSetup}

theorem isActive?_of_repeats (h : s.Repeats) (tick : Nat) :
    s.isActive? tick = some (s.isActive tick) := by
  unfold isActive? isActive
  split
  · next hstart =>
    rw [decide_eq_true hstart, Bool.true_and]
    cases hburst : s.burst with
    | none => rfl
    | some w => exact w.isOpen?_of_period (h.period w hburst) tick
  · next hstart => rw [decide_eq_false hstart, Bool.false_and]

theorem isDue?_of_repeats (h : s.Repeats) (tick : Nat) (r : Random) :
    s.isDue? tick r = some (s.isDue tick r) := by
  unfold isDue? isDue
  rw [isActive?_of_repeats h, Option.bind_eq_bind, Option.bind_some]
  split
  · cases hemission : s.emission with
    | idle => rfl
    | every ticks =>
      simp only [remainder?_of_pos (h.interval ticks hemission), Option.map_some]
    | bernoulli threshold => rfl
  · rfl

/-- A source divides by zero in looking at its window if it has started and the window never
repeats. -/
theorem isActive?_eq_none {tick : Nat} : s.isActive? tick = none ↔
    s.start.toNat ≤ tick ∧ ∃ w, s.burst = some w ∧ w.period = 0 := by
  unfold isActive?
  split
  · next hstart =>
    cases s.burst with
    | none => simp
    | some w => simp [BurstWindow.isOpen?, hstart]
  · next hstart => simp [hstart]

/-- And otherwise if it comes to its interval and the interval is zero. -/
theorem isDue?_eq_none {tick : Nat} {r : Random} : s.isDue? tick r = none ↔
    s.isActive? tick = none ∨ s.isActive? tick = some true ∧ s.emission = .every 0 := by
  unfold isDue?
  rcases s.isActive? tick with _ | _ | _
  · simp
  · simp
  · cases s.emission with
    | idle => simp
    | every ticks =>
      by_cases hzero : ticks = 0
      · simp [hzero, remainder?_zero]
      · have hpos : 0 < ticks.toNat := Nat.pos_of_ne_zero fun e => hzero (UInt32.toNat_inj.1 e)
        simp [hzero, remainder?_of_pos hpos]
    | bernoulli threshold => simp

end SourceSetup

/-! ## A tick -/

def sendSources? (tick : Nat) (capacity : Nat) (r : Random) : List SourceRun → Option Emitted
  | [] => some ⟨r, [], []⟩
  | s :: rest => do
    let (due, r) ← s.setup.isDue? tick r
    if due then
      match capacity with
      | 0 =>
        let e ← sendSources? tick 0 r rest
        some ⟨e.random, { s with blocked := s.blocked + 1 } :: e.sources, e.packets⟩
      | left + 1 =>
        let e ← sendSources? tick left r rest
        some ⟨e.random, { s with sent := s.sent + 1 } :: e.sources,
          ⟨s.setup.payload, s.watchers⟩ :: e.packets⟩
    else
      let e ← sendSources? tick capacity r rest
      some ⟨e.random, s :: e.sources, e.packets⟩

def Sender.send? (capacity tick : Nat) (s : Sender) : Option (Sender × List Packet) :=
  if tick < s.runTicks then
    (sendSources? tick capacity s.random s.sources).map fun e =>
      (⟨s.runTicks, e.random, e.sources⟩, e.packets)
  else some (s, [])

def sendAll? (capacity tick : Nat) : List Sender → Option (List Sender × List Packet)
  | [] => some ([], [])
  | s :: rest => do
    let (s, packets) ← s.send? capacity tick
    let (rest, more) ← sendAll? capacity tick rest
    some (s :: rest, packets ++ more)

def Setup.recordDue? (s : Setup) (elapsed : Nat) : Option Bool :=
  if s.recordInterval != 0 && elapsed < s.runTicks then
    (remainder? elapsed s.recordInterval.toNat).map (· == 0)
  else some false

namespace Run

def record? (elapsed : Nat) (run : Run) (setup : Setup × Nat) : Option Run :=
  (setup.1.recordDue? elapsed).map fun _ => run.record elapsed setup

/-- One tick, in which every core asks whether a record is due. -/
def tick? (capacity : Nat) (n : Network) (setups : List (Setup × Nat)) (tick : Nat) (run : Run) :
    Option Run := do
  let (senders, packets) ← sendAll? capacity tick run.senders
  let (receivers, random) := n.deliverAll (run.receivers, run.random) packets
  setups.foldlM (record? (tick + 1)) ⟨senders, receivers, random, run.recorded⟩

def ticks? (capacity : Nat) (n : Network) (setups : List (Setup × Nat)) :
    Nat → Nat → Run → Option Run
  | 0, _, run => some run
  | left + 1, now, run => do
    ticks? capacity n setups left (now + 1) (← run.tick? capacity n setups now)

end Run

def simulate? (capacity : Nat) (n : Network) (seed : UInt64) (setups : List Setup) :
    Option (List Counters) := do
  let run ← (Run.ofSetups seed setups).ticks? capacity n setups.zipIdx (longestRun setups) 0
  some ((run.senders.zip (run.receivers.toList.zip run.recorded.toList)).map
    fun (s, r, recorded) => .ofHalves s r recorded)

theorem sendSources?_of_repeats {sources : List SourceRun} (h : ∀ s ∈ sources, s.setup.Repeats)
    (tick capacity : Nat) (r : Random) :
    sendSources? tick capacity r sources = some (sendSources tick capacity r sources) := by
  induction sources generalizing capacity r with
  | nil => rfl
  | cons s rest ih =>
    have ih := ih fun x hx => h x (List.mem_cons_of_mem s hx)
    unfold sendSources? sendSources
    rw [SourceSetup.isDue?_of_repeats (h s List.mem_cons_self), Option.bind_eq_bind,
      Option.bind_some]
    obtain ⟨due, r'⟩ := s.setup.isDue tick r
    cases due with
    | false => simp [ih]
    | true => cases capacity <;> simp [ih]

theorem sendAll?_of_repeats {senders : List Sender}
    (h : ∀ s ∈ senders, ∀ x ∈ s.sources, x.setup.Repeats) (capacity tick : Nat) :
    sendAll? capacity tick senders = some (sendAll capacity tick senders) := by
  induction senders with
  | nil => rfl
  | cons s rest ih =>
    have hsend : s.send? capacity tick = some (s.send capacity tick) := by
      unfold Sender.send? Sender.send
      rw [sendSources?_of_repeats (h s List.mem_cons_self)]
      split <;> rfl
    have ih := ih fun x hx => h x (List.mem_cons_of_mem s hx)
    unfold sendAll? sendAll
    simp [hsend, ih]

/-- A remainder by the record interval is asked for only if the interval is not zero. -/
theorem Setup.recordDue?_eq (s : Setup) (elapsed : Nat) :
    s.recordDue? elapsed = some (s.recordDue elapsed) := by
  unfold recordDue? recordDue
  by_cases hzero : s.recordInterval = 0
  · simp [hzero]
  · have hpos : 0 < s.recordInterval.toNat :=
      Nat.pos_of_ne_zero fun e => hzero (UInt32.toNat_inj.1 e)
    by_cases hrun : elapsed < s.runTicks
    · simp [hzero, hrun, remainder?_of_pos hpos]
    · simp [hrun]

/-! ## Runs -/

namespace Run

theorem foldlM_record? (elapsed : Nat) (setups : List (Setup × Nat)) (run : Run) :
    setups.foldlM (record? elapsed) run = some (setups.foldl (record elapsed) run) := by
  induction setups generalizing run with
  | nil => rfl
  | cons x rest ih =>
    have hx : run.record? elapsed x = some (run.record elapsed x) := by
      unfold record?
      rw [x.1.recordDue?_eq, Option.map_some]
    rw [List.foldlM_cons, hx, Option.bind_eq_bind, Option.bind_some, ih, List.foldl_cons]

variable {setups : List Setup} (hrepeats : ∀ s ∈ setups, ∀ src ∈ s.sources, src.Repeats)

include hrepeats

/-- In a run in which all sources repeat, no tick divides by zero. -/
theorem tick?_eq {run : Run} (hshape : run.senders.map Sender.shape = shapes setups)
    (capacity : Nat) (n : Network) (now : Nat) :
    run.tick? capacity n setups.zipIdx now =
      some (run.tick capacity n (recorders setups) now) := by
  have hsources : ∀ s ∈ run.senders, ∀ x ∈ s.sources, x.setup.Repeats := by
    intro snd hsnd x hx
    obtain ⟨d, hd⟩ := List.getElem?_of_mem hsnd
    obtain ⟨i, hi⟩ := List.getElem?_of_mem hx
    obtain ⟨s, hs, hsrc, -⟩ := exists_setup hshape hd hi
    exact hrepeats s (List.mem_of_getElem? hs) _ (Array.mem_of_getElem? hsrc)
  obtain ⟨senders, receivers, random, recorded⟩ := run
  unfold tick? tick
  rw [sendAll?_of_repeats hsources, Option.bind_eq_bind, Option.bind_some]
  simp only [foldlM_record?, foldl_record_recorders]

/-- Nor do any number of ticks, from whatever tick of the run on. -/
theorem ticks?_after (capacity : Nat) (n : Network) (seed : UInt64) (left now : Nat) :
    (after capacity n seed setups (recorders setups) now).ticks? capacity n setups.zipIdx
        left now = some (after capacity n seed setups (recorders setups) (now + left)) := by
  induction left generalizing now with
  | zero => rfl
  | succ left ih =>
    have htick := tick?_eq hrepeats
      (shape_after capacity n seed setups (recorders setups) now) capacity n now
    unfold ticks?
    rw [htick, Option.bind_eq_bind, Option.bind_some]
    show (after capacity n seed setups (recorders setups) (now + 1)).ticks? capacity n
      setups.zipIdx left (now + 1) = _
    rw [ih (now + 1), Nat.add_right_comm, Nat.add_assoc]

/-- A whole run divides by zero in no tick and ends as it does without looking at divisors. -/
theorem simulate?_eq (capacity : Nat) (n : Network) (seed : UInt64) :
    simulate? capacity n seed setups = some (simulate capacity n seed setups) := by
  have hchecked := ticks?_after hrepeats capacity n seed (longestRun setups) 0
  have hrun := ticks_after capacity n seed setups (recorders setups) (longestRun setups) 0
  change (ofSetups seed setups).ticks? capacity n setups.zipIdx (longestRun setups) 0 = _
    at hchecked
  change (ofSetups seed setups).ticks capacity n (recorders setups) (longestRun setups) 0 = _
    at hrun
  unfold simulate? simulate
  rw [hchecked, ← hrun]
  rfl

end Run

/-! ## Streams that are accepted -/

namespace Setup

/-- A setup with a timestep, in which all sources repeat. -/
structure Repeats (s : Setup) : Prop where
  timestep : s.timestep ≠ 0
  sources : ∀ src ∈ s.sources, src.Repeats

/-- Intervals are kept by every command; windows are looked at when all commands are played. -/
theorem repeats_of_play {core : CoreId} {bytes : List UInt8} {s : Setup}
    (h : play core bytes = .ok s) : s.Repeats := by
  obtain ⟨-, -, -, htimestep, hburst⟩ := checks_of_play h
  have hperiods : ∀ src ∈ s.sources, ∀ w, src.burst = some w → w.period ≠ 0 := by
    intro src hsrc w hw hzero
    have hendless : s.hasEndlessBurst = true := by
      unfold hasEndlessBurst
      rw [Array.any_eq_true']
      exact ⟨src, hsrc, by simp [hw, hzero]⟩
    rw [hburst] at hendless
    cases hendless
  refine ⟨htimestep, fun src hsrc => ⟨fun ticks hevery => ?_, fun w hw => ?_⟩⟩
  · refine Nat.pos_of_ne_zero fun e => intervals_of_play h src hsrc ?_
    have hzero : ticks = 0 := UInt32.toNat_inj.1 e
    rw [hevery, hzero]
  · exact Nat.pos_of_ne_zero fun e => hperiods src hsrc w hw (UInt32.toNat_inj.1 e)

end Setup

/-! ## Main result -/

/-- Whatever commands a stream has, in whatever order: if a core plays it to the end, then the
setup has a timestep, its intervals and burst windows are of at least one tick, and it takes a
remainder by its record interval only if that is not zero.  So no run of such setups, however long
and with whatever network, divides by zero in any of its ticks. -/
theorem accepted_streams_divide_by_no_zero :
    (∀ {core : CoreId} {bytes : List UInt8} {s : Setup}, Setup.play core bytes = .ok s →
      s.Repeats ∧ ∀ elapsed, s.recordDue? elapsed = some (s.recordDue elapsed)) ∧
    ∀ setups : List Setup, (∀ s ∈ setups, ∃ core bytes, Setup.play core bytes = .ok s) →
      ∀ (capacity : Nat) (n : Network) (seed : UInt64),
        (∀ left now,
          (Run.after capacity n seed setups (recorders setups) now).ticks? capacity n
            setups.zipIdx left now =
              some (Run.after capacity n seed setups (recorders setups) (now + left))) ∧
        simulate? capacity n seed setups = some (simulate capacity n seed setups) := by
  refine ⟨fun {_ _ s} h => ⟨Setup.repeats_of_play h, s.recordDue?_eq⟩, ?_⟩
  intro setups hplayed capacity n seed
  have hrepeats : ∀ s ∈ setups, ∀ src ∈ s.sources, src.Repeats := by
    intro s hs
    obtain ⟨core, bytes, hplay⟩ := hplayed s hs
    exact (Setup.repeats_of_play hplay).sources
  exact ⟨Run.ticks?_after hrepeats capacity n seed, Run.simulate?_eq hrepeats capacity n seed⟩

/-- A stream that sets intervals and windows, drops them again and sets others: the duty and the
phase of a window before its period, an interval and then a probability, a record interval of zero
and then one of four ticks.  What follows the end of the program is not looked at. -/
def Stream.changesItsMind : List Command :=
  [.timestep 0, .num 1 0, .source 0 (.burstDuty 2), .source 0 (.interval 7), .num 2 1,
    .source 1 (.burstPhase 1), .source 0 (.interval 3), .source 1 (.burstPeriod 5),
    .source 1 (.interval 2), .source 1 (.probability 9), .recordInterval 4, .recordInterval 0,
    .recordInterval 4, .run 3, .timestep 8, .run 6, .exit, .source 0 (.interval 0),
    .source 0 (.burstPeriod 0)]

theorem accepted_streams_divide_by_no_zero_changesItsMind :
    ∃ s, Setup.play ⟨4⟩ (Stream.pack Stream.changesItsMind) = .ok s ∧
      s.sources = #[⟨0, false, .every 3, none, 0⟩, ⟨0, false, .bernoulli 9, some ⟨5, 0, 1⟩, 0⟩] ∧
      s.Repeats ∧ s.recordDue? 8 = some true ∧
      simulate? 1 ⟨.never, 1, 0⟩ 0 [s] = some (simulate 1 ⟨.never, 1, 0⟩ 0 [s]) := by
  have hsources : (Setup.play ⟨4⟩ (Stream.pack Stream.changesItsMind)).toOption.map
      (fun s => (s.sources, s.recordDue 8)) =
        some (#[⟨0, false, .every 3, none, 0⟩, ⟨0, false, .bernoulli 9, some ⟨5, 0, 1⟩, 0⟩],
          true) := by
    decide +kernel
  obtain ⟨s, hplay, hpair⟩ := Option.map_eq_some_iff.1 hsources
  have hplay := Checked.toOption_eq_some.1 hplay
  obtain ⟨hsetups, hruns⟩ := accepted_streams_divide_by_no_zero
  obtain ⟨hrepeats, hdue⟩ := hsetups hplay
  have hrun := (hruns [s] (List.forall_mem_singleton.2 ⟨_, _, hplay⟩) 1 ⟨.never, 1, 0⟩ 0).2
  obtain ⟨hsources, hrecords⟩ := Prod.mk.inj hpair
  exact ⟨s, hplay, hsources, hrepeats, (hdue 8).trans (congrArg some hrecords), hrun⟩

/-- A setup that no stream leads to, with a source that is to send every zero ticks. -/
example : simulate? 1 ⟨.never, 1, 0⟩ 0
    [{ Setup.blank ⟨0⟩ 0 with
      runTicks := 2
      sources := #[⟨0, false, .every 0, none, 1⟩] }] = none := by
  decide +kernel

end TrafficLab
