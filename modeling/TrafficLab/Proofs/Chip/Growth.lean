import TrafficLab.Proofs.Chip.Recording

/-!
# Counters only grow

Nothing that a core has counted is ever taken back: a tick leaves each count of each source, of each
sink and of the router as it is or adds to it.  So the rows of a core ascend, slot by slot, and a
run that is within its words at a tick has been so at all ticks before.

    counts after a delivery ≥ counts before                               (grows_deliver)
    counts after a tick ≥ counts before                                   (grown_tick)
    t ≤ u → each value in the row at t is at most that in the row at u    (row_le)
    t ≤ u → the run fits at u → the run fits at t                         (fits_of_le)
-/

namespace TrafficLab

/-! ## Entries that stay and grow -/

/-- All entries are still there, and each has become what `R` allows. -/
def Grows {α : Type} (R : α → α → Prop) (xs ys : Nat → Option α) : Prop :=
  ∀ i a, xs i = some a → ∃ b, ys i = some b ∧ R a b

namespace Grows

variable {α : Type} {R : α → α → Prop} {xs ys zs : Nat → Option α}

theorem refl (hrefl : ∀ a, R a a) (xs : Nat → Option α) : Grows R xs xs :=
  fun _ a ha => ⟨a, ha, hrefl a⟩

theorem trans (htrans : ∀ {a b c}, R a b → R b c → R a c) (h : Grows R xs ys)
    (h' : Grows R ys zs) : Grows R xs zs := by
  intro i a ha
  obtain ⟨b, hb, hab⟩ := h i a ha
  obtain ⟨c, hc, hbc⟩ := h' i b hb
  exact ⟨c, hc, htrans hab hbc⟩

theorem cons {a b : α} {l m : List α} (h : R a b) (hrest : Grows R (l[·]?) (m[·]?)) :
    Grows R ((a :: l)[·]?) ((b :: m)[·]?) := by
  intro i x hx
  cases i with
  | zero =>
    cases hx
    exact ⟨b, rfl, h⟩
  | succ i => exact hrest i x hx

theorem append_left (hrefl : ∀ a, R a a) {l m : List α} (h : Grows R (l[·]?) (m[·]?))
    (before : List α) : Grows R ((before ++ l)[·]?) ((before ++ m)[·]?) := by
  induction before with
  | nil => exact h
  | cons a rest ih => exact .cons (hrefl a) ih

theorem set (hrefl : ∀ a, R a a) {l : List α} {d : Nat} {a b : α} (ha : l[d]? = some a)
    (h : R a b) : Grows R (l[·]?) ((l.set d b)[·]?) := by
  intro i x hx
  simp only [List.getElem?_set]
  split
  · next hi =>
    subst hi
    obtain rfl := Option.some_inj.1 (ha.symm.trans hx)
    rw [if_pos (List.getElem?_eq_some_iff.1 ha).1]
    exact ⟨b, rfl, h⟩
  · exact ⟨x, hx, hrefl x⟩

theorem modify (hrefl : ∀ a, R a a) {f : α → α} (hf : ∀ a, R a (f a)) (xs : Array α) (d : Nat) :
    Grows R (xs[·]?) ((xs.modify d f)[·]?) := by
  intro i a ha
  simp only [Array.getElem?_modify]
  split
  · exact ⟨f a, Option.map_eq_some_iff.2 ⟨a, ha, rfl⟩, hf a⟩
  · exact ⟨a, ha, hrefl a⟩

end Grows

/-! ## Counts -/

structure SourceRun.Grown (x x' : SourceRun) : Prop where
  sent : x.sent ≤ x'.sent
  blocked : x.blocked ≤ x'.blocked

structure SinkTally.Grown (t t' : SinkTally) : Prop where
  received : t.received ≤ t'.received
  latencySum : t.latencySum ≤ t'.latencySum
  latencySumSq : t.latencySumSq ≤ t'.latencySumSq

/-- The counts of a core's sources. -/
def Sender.Grown (s s' : Sender) : Prop := Grows SourceRun.Grown (s.sources[·]?) (s'.sources[·]?)

/-- The counts of a core's sinks and of its router. -/
structure Receiver.Grown (r r' : Receiver) : Prop where
  sinks : Grows SinkTally.Grown (r.sinks[·]?) (r'.sinks[·]?)
  localPackets : r.localPackets ≤ r'.localPackets
  externalPackets : r.externalPackets ≤ r'.externalPackets
  droppedPackets : r.droppedPackets ≤ r'.droppedPackets
  overdue : r.overdue = true → r'.overdue = true

structure Run.Grown (run run' : Run) : Prop where
  senders : Grows Sender.Grown (run.senders[·]?) (run'.senders[·]?)
  receivers : Grows Receiver.Grown (run.receivers[·]?) (run'.receivers[·]?)

theorem SourceRun.Grown.refl (x : SourceRun) : x.Grown x := ⟨Nat.le_refl _, Nat.le_refl _⟩

theorem SourceRun.Grown.trans {x y z : SourceRun} (h : x.Grown y) (h' : y.Grown z) : x.Grown z :=
  ⟨Nat.le_trans h.sent h'.sent, Nat.le_trans h.blocked h'.blocked⟩

theorem SinkTally.Grown.refl (t : SinkTally) : t.Grown t :=
  ⟨Nat.le_refl _, Nat.le_refl _, Nat.le_refl _⟩

theorem SinkTally.Grown.trans {t u v : SinkTally} (h : t.Grown u) (h' : u.Grown v) : t.Grown v :=
  ⟨Nat.le_trans h.received h'.received, Nat.le_trans h.latencySum h'.latencySum,
    Nat.le_trans h.latencySumSq h'.latencySumSq⟩

theorem Sender.Grown.refl (s : Sender) : s.Grown s := Grows.refl SourceRun.Grown.refl _

theorem Sender.Grown.trans {s t u : Sender} (h : s.Grown t) (h' : t.Grown u) : s.Grown u :=
  Grows.trans SourceRun.Grown.trans h h'

theorem Receiver.Grown.refl (r : Receiver) : r.Grown r :=
  ⟨Grows.refl SinkTally.Grown.refl _, Nat.le_refl _, Nat.le_refl _, Nat.le_refl _, id⟩

theorem Receiver.Grown.trans {r s t : Receiver} (h : r.Grown s) (h' : s.Grown t) : r.Grown t :=
  ⟨Grows.trans SinkTally.Grown.trans h.sinks h'.sinks,
    Nat.le_trans h.localPackets h'.localPackets,
    Nat.le_trans h.externalPackets h'.externalPackets,
    Nat.le_trans h.droppedPackets h'.droppedPackets, h'.overdue ∘ h.overdue⟩

theorem Run.Grown.refl (run : Run) : run.Grown run :=
  ⟨Grows.refl Sender.Grown.refl _, Grows.refl Receiver.Grown.refl _⟩

theorem Run.Grown.trans {run run' run'' : Run} (h : run.Grown run') (h' : run'.Grown run'') :
    run.Grown run'' :=
  ⟨Grows.trans Sender.Grown.trans h.senders h'.senders,
    Grows.trans Receiver.Grown.trans h.receivers h'.receivers⟩

/-! ## Sending -/

theorem Emits.grows {sources sources' : List SourceRun} {packets : List Packet}
    (h : Emits sources sources' packets) :
    Grows SourceRun.Grown (sources[·]?) (sources'[·]?) := by
  induction h with
  | nil => exact Grows.refl SourceRun.Grown.refl _
  | @wait s _ _ _ _ ih => exact .cons (.refl s) ih
  | block _ ih => exact .cons ⟨Nat.le_refl _, Nat.le_succ _⟩ ih
  | send _ ih => exact .cons ⟨Nat.le_succ _, Nat.le_refl _⟩ ih

theorem grows_sendAll (capacity tick : Nat) (senders : List Sender) :
    Grows Sender.Grown (senders[·]?) ((sendAll capacity tick senders).1[·]?) := by
  induction senders with
  | nil => exact Grows.refl Sender.Grown.refl _
  | cons s rest ih => exact .cons (emits_send capacity tick s).2.grows ih

/-! ## Receiving -/

theorem SinkTally.grown_take (latency : Option Nat) (t : SinkTally) : t.Grown (t.take latency) := by
  unfold take
  cases latency with
  | none => exact ⟨Nat.le_succ _, Nat.le_refl _, Nat.le_refl _⟩
  | some l => exact ⟨Nat.le_succ _, Nat.le_add_right _ _, Nat.le_add_right _ _⟩

theorem Receiver.grown_drop (r : Receiver) : r.Grown r.drop :=
  ⟨Grows.refl SinkTally.Grown.refl _, Nat.le_refl _, Nat.le_refl _, Nat.le_succ _, id⟩

theorem Receiver.grown_take (w : Watcher) (latency : Option Nat) (r : Receiver) :
    r.Grown (r.take w latency) := by
  refine ⟨Grows.modify SinkTally.Grown.refl (SinkTally.grown_take latency) _ _, ?_, ?_,
    Nat.le_refl _, fun h => Bool.or_eq_true_iff.2 (.inl h)⟩
  · unfold take
    simp only
    split
    · exact Nat.le_succ _
    · exact Nat.le_refl _
  · unfold take
    simp only
    split
    · exact Nat.le_refl _
    · exact Nat.le_succ _

namespace Network

variable (n : Network)

theorem grows_deliver (payload : Bool) (state : Array Receiver × Random) (w : Watcher) :
    Grows Receiver.Grown (state.1[·]?) ((n.deliver payload state w).1[·]?) := by
  obtain h | ⟨latency, h⟩ := n.deliver_cases payload state w
  · rw [h]
    exact Grows.modify Receiver.Grown.refl Receiver.grown_drop _ _
  · rw [h]
    exact Grows.modify Receiver.Grown.refl (Receiver.grown_take w latency) _ _

theorem grows_deliverAll (packets : List Packet) (state : Array Receiver × Random) :
    Grows Receiver.Grown (state.1[·]?) ((n.deliverAll state packets).1[·]?) :=
  n.deliverAll_induction (P := fun receivers => Grows Receiver.Grown (state.1[·]?) (receivers[·]?))
    (fun p _ w _ state' h => h.trans Receiver.Grown.trans (n.grows_deliver p.payload state' w))
    (Grows.refl Receiver.Grown.refl _)

end Network

/-! ## Runs -/

namespace Run

theorem grown_tick (capacity : Nat) (n : Network) (recorders : List (Setup × Nat)) (now : Nat)
    (run : Run) : run.Grown (run.tick capacity n recorders now) := by
  obtain ⟨hsenders, hreceivers, -⟩ := run.tick_frame capacity n recorders now
  constructor
  · rw [hsenders]
    exact grows_sendAll capacity now run.senders
  · rw [hreceivers]
    exact n.grows_deliverAll _ (run.receivers, run.random)

theorem grown_after (capacity : Nat) (n : Network) (seed : UInt64) (setups : List Setup)
    (recorders : List (Setup × Nat)) {t u : Nat} (h : t ≤ u) :
    (after capacity n seed setups recorders t).Grown
      (after capacity n seed setups recorders u) := by
  induction h with
  | refl => exact .refl _
  | step _ ih => exact ih.trans (grown_tick capacity n recorders _ _)

end Run

/-! ## Words -/

theorem fitsWord_of_le {a b : Nat} (h : a ≤ b) (hb : fitsWord b = true) : fitsWord a = true := by
  unfold fitsWord at hb ⊢
  exact decide_eq_true (Nat.lt_of_le_of_lt h (of_decide_eq_true hb))

theorem SourceRun.Grown.fits {x x' : SourceRun} (h : x.Grown x') (hx : x'.fits = true) :
    x.fits = true := by
  unfold SourceRun.fits at hx ⊢
  rw [Bool.and_eq_true] at hx ⊢
  exact ⟨fitsWord_of_le h.sent hx.1, fitsWord_of_le h.blocked hx.2⟩

theorem SinkTally.Grown.fits {t t' : SinkTally} (h : t.Grown t') (ht : t'.fits = true) :
    t.fits = true := by
  unfold SinkTally.fits at ht ⊢
  simp only [Bool.and_eq_true] at ht ⊢
  exact ⟨⟨fitsWord_of_le h.received ht.1.1, fitsWord_of_le h.latencySum ht.1.2⟩,
    fitsWord_of_le h.latencySumSq ht.2⟩

/-- Entries fit if they have become entries that do. -/
theorem Grows.all {α : Type} {R : α → α → Prop} {xs ys : List α} {p : α → Bool}
    (h : Grows R (xs[·]?) (ys[·]?)) (hp : ∀ {a b}, R a b → p b = true → p a = true)
    (hys : ys.all p = true) : xs.all p = true := by
  rw [List.all_eq_true] at hys ⊢
  intro a ha
  obtain ⟨i, ha⟩ := List.getElem?_of_mem ha
  obtain ⟨b, hb, hab⟩ := h i a ha
  exact hp hab (hys b (List.mem_of_getElem? hb))

theorem Sender.Grown.fits {s s' : Sender} (h : s.Grown s')
    (hs : s'.sources.all (·.fits) = true) : s.sources.all (·.fits) = true :=
  h.all SourceRun.Grown.fits hs

theorem Receiver.Grown.fits {r r' : Receiver} (h : r.Grown r') (hr : r'.fits = true) :
    r.fits = true := by
  have hsinks : Grows SinkTally.Grown (r.sinks.toList[·]?) (r'.sinks.toList[·]?) := by
    simpa only [Array.getElem?_toList] using h.sinks
  unfold Receiver.fits at hr ⊢
  simp only [Bool.and_eq_true, Bool.not_eq_true'] at hr ⊢
  obtain ⟨⟨⟨⟨hover, hall⟩, hlocal⟩, hexternal⟩, hdropped⟩ := hr
  refine ⟨⟨⟨⟨?_, hsinks.all SinkTally.Grown.fits hall⟩, fitsWord_of_le h.localPackets hlocal⟩,
    fitsWord_of_le h.externalPackets hexternal⟩, fitsWord_of_le h.droppedPackets hdropped⟩
  exact Bool.eq_false_iff.2 fun e => Bool.eq_false_iff.1 hover (h.overdue e)

theorem Run.Grown.fits {run run' : Run} (h : run.Grown run') (hrun : run'.fits = true) :
    run.fits = true := by
  have hreceivers : Grows Receiver.Grown (run.receivers.toList[·]?)
      (run'.receivers.toList[·]?) := by
    simpa only [Array.getElem?_toList] using h.receivers
  unfold Run.fits at hrun ⊢
  rw [Bool.and_eq_true] at hrun ⊢
  exact ⟨h.senders.all Sender.Grown.fits hrun.1, hreceivers.all Receiver.Grown.fits hrun.2⟩

/-- A run that leaves its words does not come back. -/
theorem Run.fits_of_le {capacity : Nat} {n : Network} {seed : UInt64} {setups : List Setup}
    {recorders : List (Setup × Nat)} {t u : Nat} (h : t ≤ u)
    (hfits : (after capacity n seed setups recorders u).fits = true) :
    (after capacity n seed setups recorders t).fits = true :=
  (grown_after capacity n seed setups recorders h).fits hfits

/-! ## Rows -/

theorem Receiver.Grown.router_le {r r' : Receiver} (h : r.Grown r') {i x : Nat}
    (hx : r.router[i]? = some x) : ∃ y, r'.router[i]? = some y ∧ x ≤ y := by
  have hle : List.Forall₂ (· ≤ ·) r.router.toList r'.router.toList := by
    simp [router, h.localPackets, h.externalPackets, h.droppedPackets]
  rw [← Array.getElem?_toList] at hx
  obtain ⟨hi, rfl⟩ := List.getElem?_eq_some_iff.1 hx
  have hi' := hle.length_eq ▸ hi
  refine ⟨_, ?_, hle.get hi hi'⟩
  rw [← Array.getElem?_toList]
  exact List.getElem?_eq_getElem hi'

/-- The value of each slot grows with the halves of its core. -/
theorem Counters.slot?_le {snd snd' : Sender} {r r' : Receiver} (hsnd : snd.Grown snd')
    (hr : r.Grown r') {recorded recorded' : Array Nat} {record : CounterSet} {m : Metric}
    {role : UInt8} {x : Nat}
    (hx : (Counters.ofHalves snd r recorded).slot? record m role = some x) :
    ∃ y, (Counters.ofHalves snd' r' recorded').slot? record m role = some y ∧ x ≤ y := by
  have hsource : ∀ f : SourceRun → Nat, (∀ {a b}, a.Grown b → f a ≤ f b) →
      (snd.sources.map f).toArray[role.toNat]? = some x →
      ∃ y, (snd'.sources.map f).toArray[role.toNat]? = some y ∧ x ≤ y := by
    intro f hf hx
    rw [List.getElem?_toArray, List.getElem?_map] at hx ⊢
    obtain ⟨a, ha, rfl⟩ := Option.map_eq_some_iff.1 hx
    obtain ⟨b, hb, hab⟩ := hsnd _ a ha
    exact ⟨f b, Option.map_eq_some_iff.2 ⟨b, hb, rfl⟩, hf hab⟩
  have hsink : ∀ f : SinkTally → Nat, (∀ {a b}, a.Grown b → f a ≤ f b) →
      (r.sinks.map f)[role.toNat]? = some x →
      ∃ y, (r'.sinks.map f)[role.toNat]? = some y ∧ x ≤ y := by
    intro f hf hx
    rw [Array.getElem?_map] at hx ⊢
    obtain ⟨a, ha, rfl⟩ := Option.map_eq_some_iff.1 hx
    obtain ⟨b, hb, hab⟩ := hr.sinks _ a ha
    exact ⟨f b, Option.map_eq_some_iff.2 ⟨b, hb, rfl⟩, hf hab⟩
  cases m with
  | sent => exact hsource (·.sent) (·.sent) hx
  | blocked => exact hsource (·.blocked) (·.blocked) hx
  | received => exact hsink (·.received) (·.received) hx
  | latencySum => exact hsink (·.latencySum) (·.latencySum) hx
  | latencySumSq => exact hsink (·.latencySumSq) (·.latencySumSq) hx
  | router c =>
    unfold slot? at hx ⊢
    simp only at hx ⊢
    split at hx
    · next hc =>
      rw [if_pos hc]
      exact hr.router_le hx
    · next hc =>
      rw [if_neg hc]
      exact ⟨x, hx, Nat.le_refl x⟩

/-- The rows of a core ascend with the ticks, slot by slot. -/
theorem Run.Grown.row_le {run run' : Run} (h : run.Grown run') {d : Nat} {s : Setup}
    {row row' : List Nat} (hrow : run.row? d s = some row) (hrow' : run'.row? d s = some row') :
    List.Forall₂ (· ≤ ·) row row' := by
  obtain ⟨k, hk, hrow⟩ := Option.bind_eq_some_iff.1 hrow
  obtain ⟨k', hk', hrow'⟩ := Option.bind_eq_some_iff.1 hrow'
  unfold current? at hk hk'
  obtain ⟨snd, hsnd, hk⟩ := Option.bind_eq_some_iff.1 hk
  obtain ⟨r, hr, hk⟩ := Option.bind_eq_some_iff.1 hk
  obtain ⟨snd', hsnd', hgrown⟩ := h.senders d snd hsnd
  obtain ⟨r', hr', hgrown'⟩ := h.receivers d r hr
  simp only [hsnd', hr'] at hk'
  cases hk
  cases hk'
  have hslot : ∀ (x : Metric × UInt8) (a b : Nat),
      (Counters.ofHalves snd r #[]).slot? s.record x.1 x.2 = some a →
      (Counters.ofHalves snd' r' #[]).slot? s.record x.1 x.2 = some b → ∃ c, a ≤ c ∧ b = c := by
    intro x a b ha hb
    obtain ⟨y, hy, hle⟩ := Counters.slot?_le hgrown hgrown' ha
    exact ⟨y, hle, Option.some_inj.1 (hb.symm.trans hy)⟩
  obtain ⟨ds, hle, heq⟩ := Checked.exists_forall₂ (Checked.mapM_eq_some.1 hrow)
    (Checked.mapM_eq_some.1 hrow') hslot
  rw [List.forall₂_eq_eq_eq] at heq
  exact heq ▸ hle

end TrafficLab
