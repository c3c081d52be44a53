import TrafficLab.Proofs.Chip.Fitting

/-!
# Intervals that are not empty

Whatever commands a core plays, in whatever order, no source of the setup that results is to send a
packet every zero ticks: a command that asks for it is refused, and no other command sets an
interval.

    a command keeps the sources, makes them anew, or sets one of them   (sources_of_step)
    play core bytes = .ok s → the intervals of `s` are not empty        (intervals_of_play)
-/

namespace TrafficLab

namespace Setup

/-- What a command does to the sources of a setup. -/
inductive SourceSteps (s t : Setup) : Prop
  | same (sources : t.sources = s.sources)
  | anew (count : Nat) (sources : t.sources = Array.replicate count .unset)
  | set (number : Nat) (setting : SourceSetting) (allowed : setting ≠ .interval 0)
      (sources : t.sources = s.sources.modify number setting.apply)

theorem sources_of_step {s t : Setup} {c : Command} (h : s.step c = .ok t) : s.SourceSteps t := by
  cases c with
  | num sources sinks =>
    cases h
    exact .anew sources.toNat rfl
  | source number setting =>
    change s.setSource number setting = .ok t at h
    unfold setSource at h
    split at h
    · cases h
    next hallowed =>
    split at h
    · cases h
      exact .set number.toNat setting hallowed rfl
    · cases h
  | sink number setting =>
    change s.setSink number setting = .ok t at h
    unfold setSink at h
    split at h
    · cases h
      exact .same rfl
    · cases h
  | counter slot m role =>
    change s.addCounter slot m role = .ok t at h
    unfold addCounter at h
    split at h
    · cases h
    · split at h
      · cases h
      · cases h
        exact .same rfl
  | _ =>
    cases h
    exact .same rfl

/-- No source is to send every zero ticks. -/
def IntervalsFit (s : Setup) : Prop := ∀ src ∈ s.sources, src.emission ≠ .every 0

theorem emission_apply_ne {src : SourceSetup} {setting : SourceSetting}
    (h : src.emission ≠ .every 0) (hallowed : setting ≠ .interval 0) :
    (setting.apply src).emission ≠ .every 0 := by
  cases setting with
  | interval ticks =>
    intro he
    cases he
    exact hallowed rfl
  | probability threshold => exact nofun
  | _ => exact h

theorem SourceSteps.intervalsFit {s t : Setup} (h : s.SourceSteps t) (hs : s.IntervalsFit) :
    t.IntervalsFit := by
  intro src hsrc
  cases h with
  | same sources =>
    rw [sources] at hsrc
    exact hs src hsrc
  | anew count sources =>
    rw [sources] at hsrc
    obtain ⟨-, rfl⟩ := Array.mem_replicate.1 hsrc
    exact nofun
  | set number setting allowed sources =>
    rw [sources] at hsrc
    obtain ⟨i, hi⟩ := Array.getElem?_of_mem hsrc
    rw [Array.getElem?_modify] at hi
    split at hi
    · obtain ⟨old, hold, rfl⟩ := Option.map_eq_some_iff.1 hi
      exact emission_apply_ne (hs old (Array.mem_of_getElem? hold)) allowed
    · exact hs src (Array.mem_of_getElem? hi)

theorem intervals_of_play {core : CoreId} {bytes : List UInt8} {s : Setup}
    (h : play core bytes = .ok s) : s.IntervalsFit := by
  obtain ⟨commands, -, hplayed⟩ := foldlM_of_play h
  refine Checked.foldlM_inv IntervalsFit
    (fun u c t hu hfit => (sources_of_step hu).intervalsFit hfit) hplayed fun src hsrc => ?_
  simp [blank] at hsrc

end Setup

end TrafficLab
