import TrafficLab.Proofs.Chip.Delivery
import TrafficLab.Proofs.Chip.Recording

/-!
# What is offered to a sink

A packet goes once to each sink that watches its key and its core.  So if one source alone has the
key and the core that a sink watches, what is offered to the sink is what that source has sent; and
nothing is offered if the core does not run.

    copies of a packet for a sink = 1 if it watches the source, else 0    (countP_isAt_watchers)
    offered to a sink = sent by the one source that it watches            (offered_eq_sent)
-/

namespace TrafficLab

/-! ## Sums with one term -/

/-- A sum in which all terms but one are zero. -/
theorem sum_map_eq_of_getElem? {α : Type} {l : List α} {g : α → Nat} {k : Nat} {x : α}
    (hk : l[k]? = some x) (h : ∀ i y, l[i]? = some y → i ≠ k → g y = 0) :
    (l.map g).sum = g x := by
  induction l generalizing k with
  | nil => simp at hk
  | cons a rest ih =>
    rw [List.map_cons, List.sum_cons]
    cases k with
    | zero =>
      cases hk
      have hrest : (rest.map g).sum = 0 := by
        refine List.sum_eq_zero fun n hn => ?_
        obtain ⟨y, hy, rfl⟩ := List.mem_map.1 hn
        obtain ⟨i, hi⟩ := List.getElem?_of_mem hy
        exact h (i + 1) y hi (Nat.succ_ne_zero i)
      rw [hrest, Nat.add_zero]
    | succ k =>
      have ha := h 0 a rfl (Nat.zero_ne_add_one k)
      rw [ha, Nat.zero_add]
      exact ih hk fun i y hy hne => h (i + 1) y hy fun e => hne (Nat.succ_inj.1 e)

theorem sum_map_eq_zero {α : Type} {l : List α} {g : α → Nat} (h : ∀ x ∈ l, g x = 0) :
    (l.map g).sum = 0 := by
  refine List.sum_eq_zero fun n hn => ?_
  obtain ⟨x, hx, rfl⟩ := List.mem_map.1 hn
  exact h x hx

/-! ## Copies of a packet -/

/-- Among the numbered entries of a list one has a given number. -/
theorem countP_zipIdx {α : Type} (p : α → Bool) {l : List α} {n j : Nat} {a : α}
    (h : l[j]? = some a) :
    (l.zipIdx n).countP (fun y => p y.1 && y.2 == n + j) = if p a then 1 else 0 := by
  induction l generalizing n j with
  | nil => simp at h
  | cons b rest ih =>
    rw [List.zipIdx_cons, List.countP_cons]
    cases j with
    | zero =>
      cases h
      have hlater : (rest.zipIdx (n + 1)).countP (fun y => p y.1 && y.2 == n + 0) = 0 := by
        rw [List.countP_eq_zero]
        intro y hy
        have hle := List.le_snd_of_mem_zipIdx hy
        rw [beq_false_of_ne (by omega : y.2 ≠ n + 0), Bool.and_false]
        exact Bool.false_ne_true
      rw [hlater, Nat.zero_add]
      simp
    | succ j =>
      have hrest := ih (n := n + 1) (j := j) h
      rw [Nat.add_right_comm, Nat.add_assoc] at hrest
      rw [hrest]
      simp

/-- Of the sinks of a setup, the one with a number. -/
theorem Setup.countP_watchersAt {t : Setup} {j : Nat} {sink : SinkSetup}
    (hsink : t.sinks[j]? = some sink) (core : CoreId) (key : UInt32) (e : Nat) :
    (watchersAt core key (t, e)).countP (·.sink == j) =
      if sink.source = core ∧ sink.key = key then 1 else 0 := by
  have hone := countP_zipIdx (fun sink : SinkSetup => sink.source = core ∧ sink.key = key)
    (n := 0) ((Array.getElem?_toList).trans hsink)
  simp only [decide_eq_true_eq, Nat.zero_add] at hone
  unfold watchersAt
  rw [← hone, List.countP_filterMap]
  congr 1
  funext y
  by_cases hwatches : y.1.source = core ∧ y.1.key = key
  · simp [hwatches]
  · simp only [if_neg hwatches, decide_eq_false hwatches, Bool.false_and]
    rfl

/-- A packet goes once to each sink that watches its key and its core. -/
theorem countP_isAt_watchers {setups : List Setup} {e j : Nat} {t : Setup} {sink : SinkSetup}
    (ht : setups[e]? = some t) (hsink : t.sinks[j]? = some sink) (core : CoreId) (key : UInt32) :
    (watchers setups core key).countP (·.isAt e j) =
      if sink.source = core ∧ sink.key = key then 1 else 0 := by
  have hsplit : (watchers setups core key).countP (·.isAt e j) =
      ((watchers setups core key).filter (·.core == e)).countP (·.sink == j) := by
    rw [List.countP_filter]
    congr 1
    funext w
    exact Bool.and_comm _ _
  rw [hsplit, filter_watchers_core ht, Setup.countP_watchersAt hsink]

/-! ## What a source has sent -/

namespace Run

variable {setups : List Setup} {run : Run}
  (hshape : run.senders.map Sender.shape = shapes setups)

include hshape

/-- A source during a run is that of a setup. -/
theorem exists_setup {d i : Nat} {snd : Sender} {x : SourceRun} (hsnd : run.senders[d]? = some snd)
    (hx : snd.sources[i]? = some x) :
    ∃ s, setups[d]? = some s ∧ s.sources[i]? = some x.setup ∧
      x.watchers = watchers setups s.core x.setup.key := by
  have hd := congrArg (fun l => l[d]?) hshape
  simp only [shapes, List.getElem?_map, hsnd, Option.map_some] at hd
  obtain ⟨s, hs, hpair⟩ := Option.map_eq_some_iff.1 hd.symm
  have hsources := congrArg (fun p => p.2[i]?) hpair
  unfold Sender.shape at hsources
  simp only [List.getElem?_map, hx, Option.map_some] at hsources
  obtain ⟨src, hsrc, hpair⟩ := Option.map_eq_some_iff.1 hsources
  rw [Array.getElem?_toList] at hsrc
  obtain ⟨rfl, hwatchers⟩ := Prod.mk.inj hpair
  exact ⟨s, hs, hsrc, hwatchers.symm⟩

/-- The source of a setup during a run. -/
theorem exists_source_of_setup {d i : Nat} {s : Setup} {src : SourceSetup}
    (hs : setups[d]? = some s) (hsrc : s.sources[i]? = some src) :
    ∃ snd x, run.senders[d]? = some snd ∧ snd.sources[i]? = some x := by
  have hd := congrArg (fun l => l[d]?) hshape
  simp only [shapes, List.getElem?_map, hs, Option.map_some] at hd
  obtain ⟨snd, hsnd, hpair⟩ := Option.map_eq_some_iff.1 hd
  have hlen := length_of_shape hpair
  rw [List.length_map, Array.length_toList] at hlen
  have hi : i < snd.sources.length := hlen ▸ (Array.getElem?_eq_some_iff.1 hsrc).1
  exact ⟨snd, _, hsnd, List.getElem?_eq_getElem hi⟩

variable {e j : Nat} {t : Setup} {sink : SinkSetup} (ht : setups[e]? = some t)
  (hsink : t.sinks[j]? = some sink)

include ht hsink

/-- A source offers all that it has sent to the sinks that watch it, and nothing to others. -/
theorem offered_source {d i : Nat} {snd : Sender} {x : SourceRun}
    (hsnd : run.senders[d]? = some snd) (hx : snd.sources[i]? = some x) :
    ∃ s, setups[d]? = some s ∧ s.sources[i]? = some x.setup ∧
      x.offered e j = x.sent * if sink.source = s.core ∧ sink.key = x.setup.key then 1 else 0 := by
  obtain ⟨s, hs, hsrc, hwatchers⟩ := exists_setup hshape hsnd hx
  refine ⟨s, hs, hsrc, ?_⟩
  unfold SourceRun.offered
  rw [hwatchers, countP_isAt_watchers ht hsink]

/-- What is offered to a sink is what the one source that it watches has sent. -/
theorem offered_eq_sent {d i : Nat} {s : Setup} {src : SourceSetup} (hs : setups[d]? = some s)
    (hsrc : s.sources[i]? = some src) (hwatches : sink.source = s.core ∧ sink.key = src.key)
    (hone : ∀ d' i' s' src', setups[d']? = some s' → s'.sources[i']? = some src' →
      sink.source = s'.core → sink.key = src'.key → d' = d ∧ i' = i) :
    run.sent? d i = some (offered e j run.senders) := by
  obtain ⟨snd, x, hsnd, hx⟩ := exists_source_of_setup hshape hs hsrc
  have hothers : ∀ {d' i'} {snd' : Sender} {y : SourceRun}, run.senders[d']? = some snd' →
      snd'.sources[i']? = some y → ¬(d' = d ∧ i' = i) → y.offered e j = 0 := by
    intro d' i' snd' y hsnd' hy hne
    obtain ⟨s', hs', hsrc', hoffered⟩ := offered_source hshape ht hsink hsnd' hy
    rw [hoffered, if_neg fun h => hne (hone d' i' s' _ hs' hsrc' h.1 h.2), Nat.mul_zero]
  -- other sources of the same core have other keys
  have hinner : (snd.sources.map (·.offered e j)).sum = x.offered e j :=
    sum_map_eq_of_getElem? hx fun i' y hy hne => hothers hsnd hy fun h => hne h.2
  -- and no other setup is of the same core
  have houter : offered e j run.senders = (snd.sources.map (·.offered e j)).sum := by
    unfold offered
    refine sum_map_eq_of_getElem? hsnd fun d' snd' hsnd' hne => sum_map_eq_zero fun y hy => ?_
    obtain ⟨i', hy⟩ := List.getElem?_of_mem hy
    exact hothers hsnd' hy fun h => hne h.1
  obtain ⟨s', hs', hsrc', hoffered⟩ := offered_source hshape ht hsink hsnd hx
  rw [hs] at hs'
  cases hs'
  rw [hsrc] at hsrc'
  cases hsrc'
  unfold sent?
  rw [hsnd, Option.bind_some, hx, houter, hinner, hoffered, if_pos hwatches, Nat.mul_one]
  rfl

/-- Nothing is offered to a sink if the core that it watches does not run. -/
theorem offered_eq_zero (haway : ∀ s ∈ setups, sink.source ≠ s.core) :
    offered e j run.senders = 0 := by
  unfold offered
  refine sum_map_eq_zero fun snd hsnd => sum_map_eq_zero fun x hx => ?_
  obtain ⟨d, hsnd⟩ := List.getElem?_of_mem hsnd
  obtain ⟨i, hx⟩ := List.getElem?_of_mem hx
  obtain ⟨s, hs, -, hoffered⟩ := offered_source hshape ht hsink hsnd hx
  rw [hoffered, if_neg fun h => haway s (List.mem_of_getElem? hs) h.1, Nat.mul_zero]

end Run

end TrafficLab
