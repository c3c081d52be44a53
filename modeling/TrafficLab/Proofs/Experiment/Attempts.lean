import Mathlib.Data.List.Basic
import TrafficLab.Experiment.Attempts

/-!
# Sweeps

A sweep has one outcome for each core, whatever the cores answer, and cuts none off if it has no
limit.  Where every request is answered with a value, a request is made once for each core, in
order.

    the outcomes are those of the cores, in their order                     (outcomes_sweep)
    no limit → no core is cut off                                           (isCut_sweep_none)
    the request has a value → the attempt is that value                     (attempt_of_value)
    every request has a value → the successes are the cores' values          (sweep_of_values)
-/

namespace TrafficLab

variable {σ α : Type}

/-! ## Whatever the cores answer -/

theorem outcomes_sweep (opts : RunOptions) (limit : Option Nat)
    (request : CoreId → σ → Answer α × σ) (start : Nat) (busy : List Nat) (cores : List CoreId)
    (s : σ) : (sweep opts limit request start busy cores s).outcomes.map (·.1) = cores := by
  induction cores generalizing busy s with
  | nil => rfl
  | cons core rest ih =>
    unfold sweep
    rw [List.map_cons, ih]

theorem Swept.mem_successes {r : Swept σ α} {core : CoreId} {x : α} :
    (core, x) ∈ r.successes ↔ (core, .success x) ∈ r.outcomes := by
  unfold successes
  rw [List.mem_filterMap]
  constructor
  · rintro ⟨⟨c, outcome⟩, h, he⟩
    cases outcome with
    | success y =>
      cases he
      exact h
    | failure _ => cases he
    | crash => cases he
    | cut => cases he
  · intro h
    exact ⟨_, h, rfl⟩

/-- Only a core that was asked can succeed. -/
theorem mem_of_mem_successes_sweep {opts : RunOptions} {limit : Option Nat}
    {request : CoreId → σ → Answer α × σ} {start : Nat} {busy : List Nat} {cores : List CoreId}
    {s : σ} {core : CoreId}
    (h : core ∈ (sweep opts limit request start busy cores s).successes.map (·.1)) :
    core ∈ cores := by
  obtain ⟨⟨c, x⟩, hx, rfl⟩ := List.mem_map.1 h
  have hmem := List.mem_map_of_mem (f := (·.1)) (Swept.mem_successes.1 hx)
  rwa [outcomes_sweep] at hmem

/-- Without a limit no attempt is cut. -/
theorem outcome_attempt_none (opts : RunOptions) (request : σ → Answer α × σ) (left now : Nat)
    (s : σ) : (attempt opts none request left now s).outcome ≠ .cut := by
  have hnever : ∀ time, ¬isOver none time = true := fun _ => Bool.false_ne_true
  induction left generalizing now s with
  | zero =>
    unfold attempt
    rw [if_neg (hnever now)]
    split
    · simp
    · simp
    · simp
    · simp [isOver]
  | succ left ih =>
    unfold attempt
    rw [if_neg (hnever now)]
    split
    · simp
    · simp
    · exact ih _ _
    · rw [if_neg (hnever _)]
      exact ih _ _

theorem isCut_sweep_none (opts : RunOptions) (request : CoreId → σ → Answer α × σ) (start : Nat)
    (busy : List Nat) (cores : List CoreId) (s : σ) :
    (sweep opts none request start busy cores s).isCut = false := by
  unfold Swept.isCut
  induction cores generalizing busy s with
  | nil => rfl
  | cons core rest ih =>
    unfold sweep
    simp only [List.any_cons, ih, Bool.or_false]
    split
    · next hcut => exact absurd hcut (outcome_attempt_none opts _ _ _ _)
    · rfl

/-! ## Where every core answers with a value -/

theorem attempt_of_value (opts : RunOptions) {request : σ → Answer α × σ} {s s' : σ} {x : α}
    (h : request s = (.value x, s')) (retries now : Nat) :
    attempt opts none request retries now s = ⟨.success x, now, s'⟩ := by
  unfold attempt
  rw [if_neg (by simp [isOver]), h]

/-- A request that breaks the machine is not made again. -/
theorem attempt_of_crash (opts : RunOptions) {request : σ → Answer α × σ} {s s' : σ}
    (h : request s = (.crash, s')) (retries now : Nat) :
    attempt opts none request retries now s = ⟨.crash, now, s'⟩ := by
  unfold attempt
  rw [if_neg (by simp [isOver]), h]

/-- What comes of a sweep over cores that all answer.  `I` says what the transport remembers when
some cores have been dealt with. -/
structure Swept.Answered (r : Swept σ α) (I : List CoreId → σ → Prop) (done cores : List CoreId)
    (answer : CoreId → α) : Prop where
  outcomes : r.outcomes = cores.map fun core => (core, .success (answer core))
  state : I (done ++ cores) r.state

theorem sweep_of_values (opts : RunOptions) {request : CoreId → σ → Answer α × σ}
    {answer : CoreId → α} (I : List CoreId → σ → Prop) {cores : List CoreId}
    (hstep : ∀ done, ∀ core ∈ cores, ∀ s, I done s →
      ∃ s', request core s = (.value (answer core), s') ∧ I (done ++ [core]) s')
    (done : List CoreId) {s : σ} (hs : I done s) (start : Nat) (busy : List Nat) :
    (sweep opts none request start busy cores s).Answered I done cores answer := by
  induction cores generalizing done s busy with
  | nil =>
    refine ⟨rfl, ?_⟩
    rw [List.append_nil]
    exact hs
  | cons core rest ih =>
    obtain ⟨s', hvalue, hs'⟩ := hstep done core (by simp) s hs
    unfold sweep
    simp only [attempt_of_value opts hvalue]
    have hrest := ih (fun d e he => hstep d e (by simp [he])) (done ++ [core]) hs' (insertTime
      (nextPermit opts start busy).1 (nextPermit opts start busy).2)
    refine ⟨?_, ?_⟩
    · rw [hrest.outcomes]
      rfl
    · have hstate := hrest.state
      rwa [List.append_assoc] at hstate

namespace Swept.Answered

variable {r : Swept σ α} {I : List CoreId → σ → Prop} {done cores : List CoreId}
  {answer : CoreId → α} (h : r.Answered I done cores answer)

include h

theorem successes_eq : r.successes = cores.map fun core => (core, answer core) := by
  unfold successes
  rw [h.outcomes, List.filterMap_map]
  exact List.filterMap_eq_map_iff_forall_eq_some.2 fun core _ => rfl

end Swept.Answered

end TrafficLab
