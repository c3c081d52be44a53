import Mathlib.Algebra.Ring.Periodic
import TrafficLab.Proofs.Chip.Capacity

/-!
# Bursts

A burst window is open for its duty in every period, wherever the period begins and whatever the
phase is: the window repeats, so a stretch of one period holds what the first period holds.  A
source that sends whenever its window is open, and has its core for itself, sends one packet in each
of these ticks.

    open ticks of a period from tick t on = open ticks of the first period = duty   (count_isOpen)
    open ticks of k periods from tick t on = k * duty                      (count_isOpen_periods)
    sent after t + n ticks = sent after t + open ticks of these n ticks          (sent?_of_window)
-/

namespace TrafficLab

/-! ## Something that repeats -/

section
variable {q : Nat → Prop} [DecidablePred q] {period : Nat} (hq : Function.Periodic q period)

include hq

/-- A stretch of one period holds as much of what repeats as the first one does. -/
theorem count_period_shift (start : Nat) :
    period.count (fun i => q (start + i)) = period.count q := by
  have hrepeats : (fun i => q (period + i)) = q := funext fun i => by rw [Nat.add_comm, hq]
  have hbefore := Nat.count_add q start period
  have hafter := Nat.count_add q period start
  simp only [hrepeats] at hafter
  rw [Nat.add_comm] at hafter
  omega

theorem count_periods_shift (start k : Nat) :
    (k * period).count (fun i => q (start + i)) = k * period.count q := by
  induction k with
  | zero => rw [Nat.zero_mul, Nat.zero_mul, Nat.count_zero]
  | succ k ih =>
    rw [Nat.succ_mul, Nat.count_add, ih, Nat.succ_mul]
    congr 1
    simp only [← Nat.add_assoc]
    exact count_period_shift hq (start + k * period)

end

/-! ## Windows -/

namespace BurstWindow

variable (w : BurstWindow)

theorem isOpen?_of_period (hperiod : 0 < w.period.toNat) (tick : Nat) :
    w.isOpen? tick = some (w.isOpen tick) := by
  have hne : w.period ≠ 0 := fun e => by simp [e] at hperiod
  unfold isOpen?
  rw [if_neg hne]

/-- The place of a tick in its period is below the duty. -/
theorem isOpen_iff (tick : Nat) : w.isOpen tick = true ↔
    (w.phase.toNat + tick) % w.period.toNat < w.duty.toNat := by
  unfold isOpen
  rw [decide_eq_true_eq, Nat.add_comm]

theorem periodic_place :
    Function.Periodic (fun i => i % w.period.toNat < w.duty.toNat) w.period.toNat := by
  intro i
  simp only [Nat.add_mod_right]

/-- Of the places of a period, those below the duty. -/
theorem count_place : w.period.toNat.count (fun i => i % w.period.toNat < w.duty.toNat) =
    min w.duty.toNat w.period.toNat := by
  rw [Nat.count_eq_card_filter_range]
  have hplaces : (Finset.range w.period.toNat).filter
      (fun i => i % w.period.toNat < w.duty.toNat) =
        Finset.range (min w.duty.toNat w.period.toNat) := by
    ext i
    rw [Finset.mem_filter, Finset.mem_range, Finset.mem_range, Nat.lt_min]
    constructor
    · rintro ⟨hlt, hduty⟩
      rw [Nat.mod_eq_of_lt hlt] at hduty
      exact ⟨hduty, hlt⟩
    · rintro ⟨hduty, hlt⟩
      rw [Nat.mod_eq_of_lt hlt]
      exact ⟨hlt, hduty⟩
  rw [hplaces, Finset.card_range]

theorem count_isOpen_periods (t k : Nat) :
    (k * w.period.toNat).count (fun i => w.isOpen (t + i) = true) =
      k * min w.duty.toNat w.period.toNat := by
  simp only [isOpen_iff, ← Nat.add_assoc]
  rw [← w.count_place]
  exact count_periods_shift w.periodic_place (w.phase.toNat + t) k

theorem count_isOpen (t : Nat) :
    w.period.toNat.count (fun i => w.isOpen (t + i) = true) =
      min w.duty.toNat w.period.toNat := by
  have hone := w.count_isOpen_periods t 1
  rwa [Nat.one_mul, Nat.one_mul] at hone

end BurstWindow

/-! ## Sources -/

/-- A source that never fails a trial is due whenever it is active. -/
theorem SourceSetup.isDue_always {src : SourceSetup} (he : src.emission = .bernoulli 0xFFFFFFFF)
    (tick : Nat) (r : Random) : (src.isDue tick r).1 = src.isActive tick := by
  unfold isDue
  rw [he]
  cases src.isActive tick <;> rfl

theorem SourceSetup.isActive_of_window {src : SourceSetup} {w : BurstWindow}
    (hburst : src.burst = some w) {tick : Nat} (hstart : src.start.toNat ≤ tick) :
    src.isActive tick = w.isOpen tick := by
  unfold isActive
  rw [hburst, decide_eq_true hstart, Bool.true_and]

namespace Setup

variable {s : Setup} {src : SourceSetup} (hsources : s.sources = #[src])
  (he : src.emission = .bernoulli 0xFFFFFFFF)

include hsources he

/-- The one source of a core sends in each tick of the core's run in which it is active. -/
theorem sends_alone_iff {capacity tick : Nat} (hcapacity : 0 < capacity)
    (hrun : tick < s.runTicks) :
    Sends capacity (s.duesAt tick) 0 ↔ src.isActive tick = true := by
  have hdues : s.duesAt tick = [src.isActive tick] := by
    unfold duesAt dues
    rw [if_pos hrun, hsources, ← SourceSetup.isDue_always he]
    rfl
  rw [hdues, sends_zero, and_iff_left hcapacity]

end Setup

/-- While its core runs, the one source of a core sends in the ticks in which its window is open. -/
theorem Run.sent?_of_window {setups : List Setup} {d : Nat} {s : Setup} (hs : setups[d]? = some s)
    {src : SourceSetup} (hsources : s.sources = #[src])
    (he : src.emission = .bernoulli 0xFFFFFFFF) {w : BurstWindow} (hburst : src.burst = some w)
    {t ticks : Nat} (hstart : src.start.toNat ≤ t) (hrun : t + ticks ≤ s.runTicks)
    {capacity : Nat} (hcapacity : 0 < capacity) (n : Network) (seed : UInt64) :
    ∃ sent, (after capacity n seed setups (recorders setups) t).sent? d 0 = some sent ∧
      (after capacity n seed setups (recorders setups) (t + ticks)).sent? d 0 =
        some (sent + ticks.count fun i => w.isOpen (t + i) = true) := by
  have hsize : 0 < s.sources.size := by
    rw [hsources]
    exact Nat.one_pos
  refine ⟨_, (counts_after hs capacity n seed hsize t).1, ?_⟩
  rw [(counts_after hs capacity n seed hsize (t + ticks)).1, Nat.count_add]
  congr 2
  rw [Nat.count_eq_card_filter_range, Nat.count_eq_card_filter_range]
  congr 1
  refine Finset.filter_congr fun i hi => ?_
  have hi := Finset.mem_range.1 hi
  rw [Setup.sends_alone_iff hsources he hcapacity (by omega),
    SourceSetup.isActive_of_window hburst (by omega)]

/-! ## Main result -/

/-- A burst window is open for its duty in every period: it says of each tick whether it is open,
and among as many ticks as its period has, from whatever tick on, as many are open as the duty says,
or all if it says more.  A source with the window that has its core for itself and never fails a
trial sends, once started, one packet in each of these ticks. -/
theorem windows_open_for_duty (w : BurstWindow) (hperiod : 0 < w.period.toNat) (t k : Nat) :
    (∀ tick, w.isOpen? tick = some (w.isOpen tick)) ∧
    w.period.toNat.count (fun i => w.isOpen (t + i) = true) = min w.duty.toNat w.period.toNat ∧
    (k * w.period.toNat).count (fun i => w.isOpen (t + i) = true) =
      k * min w.duty.toNat w.period.toNat ∧
    ∀ {setups : List Setup} {d : Nat} {s : Setup} {src : SourceSetup}, setups[d]? = some s →
      s.sources = #[src] → src.emission = .bernoulli 0xFFFFFFFF → src.burst = some w →
      src.start.toNat ≤ t → t + k * w.period.toNat ≤ s.runTicks →
      ∀ {capacity : Nat}, 0 < capacity → ∀ (n : Network) (seed : UInt64),
        let run := Run.after capacity n seed setups (recorders setups)
        ∃ sent, (run t).sent? d 0 = some sent ∧
          (run (t + k * w.period.toNat)).sent? d 0 =
            some (sent + k * min w.duty.toNat w.period.toNat) := by
  refine ⟨w.isOpen?_of_period hperiod, w.count_isOpen t, w.count_isOpen_periods t k, ?_⟩
  intro setups d s src hs hsources he hburst hstart hrun capacity hcapacity n seed
  obtain ⟨sent, hbefore, hafter⟩ :=
    Run.sent?_of_window hs hsources he hburst hstart hrun hcapacity n seed
  rw [w.count_isOpen_periods] at hafter
  exact ⟨sent, hbefore, hafter⟩

/-- A core with one source, whose window is open for two ticks of five, one at each end of a period
that begins with tick 0. -/
def Setup.wrapped : Setup :=
  { Setup.blank ⟨1⟩ 0 with
    timestep := 5
    runTicks := 14
    sources := #[⟨7, false, .bernoulli 0xFFFFFFFF, some ⟨5, 2, 1⟩, 3⟩] }

/-- Two periods from the third tick on, beside a core that does nothing. -/
theorem windows_open_for_duty_wrapped :
    let w : BurstWindow := ⟨5, 2, 1⟩
    let setups : List Setup := [.blank ⟨0⟩ 0, .wrapped]
    let run := Run.after 1 ⟨.never, 1, 0⟩ 9 setups (recorders setups)
    0 < w.period.toNat ∧ (List.range 5).map w.isOpen = [true, false, false, false, true] ∧
      w.isOpen? 3 = some false ∧ Nat.count (fun i => w.isOpen (3 + i) = true) 5 = 2 ∧
      Nat.count (fun i => w.isOpen (3 + i) = true) 10 = 4 ∧
      ∃ sent, (run 3).sent? 1 0 = some sent ∧ (run 13).sent? 1 0 = some (sent + 4) := by
  obtain ⟨hanswer, hone, hmany, hsent⟩ := windows_open_for_duty ⟨5, 2, 1⟩ (by decide) 3 2
  exact ⟨by decide, by decide, hanswer 3, hone, hmany,
    hsent (rfl : [Setup.blank ⟨0⟩ 0, .wrapped][1]? = some .wrapped) rfl rfl rfl (by decide)
      (by decide) Nat.one_pos ⟨.never, 1, 0⟩ 9⟩

end TrafficLab
