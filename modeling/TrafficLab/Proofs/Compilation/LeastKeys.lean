import Mathlib.Order.Bounds.Defs
import TrafficLab.Proofs.Compilation

/-!
# Routing keys: the least that are free

Flows get their keys in the order of their identifiers.  The index of a flow is the least that no
earlier flow has with which it shares a region; when there is none below the limit that its
narrowest region sets, keys run out at this flow, and only then.

What is taken in the regions of a flow is at every step what the earlier flows hold there
(`Holds`), so a choice among the indices that are not taken is a choice among the free ones.

    leastFree? taken limit = some i ↔ i is the least below the limit that is not taken
    assign … = .ok keyed ↔ every flow in `keyed` has its least key           (assign_eq_ok_iff)
    assign … = .error e ↔ keys run out at some flow, and `e` says at which   (assign_eq_error_iff)
-/

namespace TrafficLab

open Checked

namespace Keys

/-! ## The least that is not taken -/

/-- Numbers that are all in a list are no more than it is long. -/
theorem le_length_of_forall_mem {l : List Nat} {n : Nat} (h : ∀ i < n, i ∈ l) : n ≤ l.length := by
  have hsub : List.range n ⊆ l := fun i hi => h i (List.mem_range.1 hi)
  simpa using (List.nodup_range.subperm hsub).length_le

theorem leastFree?_eq_some_iff {taken : List Nat} {limit i : Nat} :
    leastFree? taken limit = some i ↔ IsLeast {i | i < limit ∧ i ∉ taken} i := by
  unfold leastFree?
  rw [List.find?_range_eq_some]
  simp only [Bool.not_eq_true', List.contains_eq_mem, decide_eq_false_iff_not, List.mem_range,
    Bool.not_not, decide_eq_true_eq]
  constructor
  · rintro ⟨hfree, hlt, hbelow⟩
    refine ⟨⟨by omega, hfree⟩, fun j ⟨_, hj⟩ => ?_⟩
    by_contra hji
    exact hj (hbelow j (by omega))
  · rintro ⟨⟨hlt, hfree⟩, hleast⟩
    have hbelow : ∀ j < i, j ∈ taken := by
      intro j hj
      by_contra hjfree
      have := hleast ⟨by omega, hjfree⟩
      omega
    have := le_length_of_forall_mem hbelow
    exact ⟨hfree, by omega, hbelow⟩

theorem leastFree?_eq_none_iff {taken : List Nat} {limit : Nat} :
    leastFree? taken limit = none ↔ ∀ i < limit, i ∈ taken := by
  unfold leastFree?
  rw [List.find?_eq_none]
  simp only [List.mem_range, Bool.not_eq_true', List.contains_eq_mem, decide_eq_false_iff_not,
    not_not]
  constructor
  · intro h i hi
    -- there are not enough taken numbers for all below their count and one more
    have hshort : limit ≤ taken.length + 1 := by
      by_contra hlong
      have := le_length_of_forall_mem fun j (hj : j < taken.length + 1) => h j (by omega)
      omega
    exact h i (by omega)
  · intro h i hi
    exact h i (by omega)

/-! ## The narrowest region -/

/-- A region of the flow with the fewest key bits, and of several the lowest-numbered. -/
structure Narrowest (fabric : Fabric) (f : RoutedFlow) (region : RegionId) (bits : UInt8) :
    Prop where
  mem : region ∈ f.route.regions.keys
  keyBits : fabric.keyBits region = some bits
  fewest : ∀ r ∈ f.route.regions.keys, ∀ n, fabric.keyBits r = some n → bits ≤ n
  lowest : ∀ r ∈ f.route.regions.keys, fabric.keyBits r = some bits → region.val ≤ r.val

theorem narrowest?_spec {keyBits : RegionId → Option UInt8} {rs : List RegionId}
    (hsorted : rs.Pairwise fun r s => r.val < s.val) {region : RegionId} {bits : UInt8}
    (h : narrowest? keyBits rs = some (region, bits)) :
    region ∈ rs ∧ keyBits region = some bits ∧
      ∀ r ∈ rs, keyBits r = some bits → region.val ≤ r.val := by
  induction rs generalizing region bits with
  | nil => exact nomatch h
  | cons s rest ih =>
    obtain ⟨hfirst, hrest⟩ := List.pairwise_cons.1 hsorted
    unfold narrowest? at h
    split at h
    · next hs =>
      obtain ⟨hmem, hbits, hlowest⟩ := ih hrest h
      refine ⟨List.mem_cons_of_mem s hmem, hbits, fun r hr hrbits => ?_⟩
      rcases List.mem_cons.1 hr with rfl | hr
      · rw [hs] at hrbits
        cases hrbits
      · exact hlowest r hr hrbits
    · next b hs hnone =>
      cases h
      refine ⟨List.mem_cons_self, hs, fun r hr hrbits => ?_⟩
      rcases List.mem_cons.1 hr with rfl | hr
      · exact UInt32.le_refl _
      · exact UInt32.le_of_lt (hfirst r hr)
    · next b t fewest hs hbest =>
      obtain ⟨hmem, hbits, hlowest⟩ := ih hrest hbest
      split at h
      · next hle =>
        -- the first of the regions is also the lowest
        cases h
        refine ⟨List.mem_cons_self, hs, fun r hr hrbits => ?_⟩
        rcases List.mem_cons.1 hr with rfl | hr
        · exact UInt32.le_refl _
        · exact UInt32.le_of_lt (hfirst r hr)
      · next hlt =>
        cases h
        refine ⟨List.mem_cons_of_mem s hmem, hbits, fun r hr hrbits => ?_⟩
        rcases List.mem_cons.1 hr with rfl | hr
        · rw [hs] at hrbits
          cases hrbits
          exact absurd (UInt8.le_refl _) hlt
        · exact hlowest r hr hrbits

namespace Narrowest

variable {fabric : Fabric} {f : RoutedFlow} {region region' : RegionId} {bits bits' : UInt8}

theorem unique (h : Narrowest fabric f region bits) (h' : Narrowest fabric f region' bits') :
    region = region' ∧ bits = bits' := by
  have hbits : bits = bits' := UInt8.le_antisymm (h.fewest region' h'.mem bits' h'.keyBits)
    (h'.fewest region h.mem bits h.keyBits)
  subst hbits
  have hval := UInt32.le_antisymm (h.lowest region' h'.mem h'.keyBits)
    (h'.lowest region h.mem h.keyBits)
  exact ⟨congrArg Id.mk hval, rfl⟩

/-- No region is without key bits. -/
theorem bits_ne_zero (h : Narrowest fabric f region bits) : bits ≠ 0 :=
  (fabric.sound.keyBits _ (fabric.keyBits_eq_some.1 h.keyBits)).1

end Narrowest

/-- Every flow that has been placed has a narrowest region, which is the one that is found. -/
theorem exists_narrowest {fabric : Fabric} {f : RoutedFlow} (hp : f.route.Placed fabric) :
    ∃ region bits, narrowest? fabric.keyBits f.route.regions.keys = some (region, bits) ∧
      Narrowest fabric f region bits := by
  obtain ⟨a, ha, -⟩ := hp.source_region
  obtain ⟨n, hn⟩ := fabric.exists_keyBits (hp.declared a ha)
  have hsome := narrowest?_ne_none ha (Option.isSome_of_eq_some hn)
  obtain ⟨⟨region, bits⟩, hbest⟩ := Option.ne_none_iff_exists'.1 hsome
  have hsorted : f.route.regions.keys.Pairwise fun r s => r.val < s.val :=
    f.route.regions.pairwise_keys
  obtain ⟨hmem, hbits, hlowest⟩ := narrowest?_spec hsorted hbest
  exact ⟨region, bits, hbest, hmem, hbits, narrowest?_le hbest, hlowest⟩

/-! ## One flow -/

/-- No earlier flow that shares a region with the flow has the index. -/
def Free (earlier : List KeyedFlow) (f : RoutedFlow) (i : Nat) : Prop :=
  ∀ g ∈ earlier, (∃ r, r ∈ g.route.regions.keys ∧ r ∈ f.route.regions.keys) →
    g.key.index.toNat ≠ i

/-- A flow whose key has the least index that is free below the limit of its narrowest region. -/
structure LeastKey (fabric : Fabric) (earlier : List KeyedFlow) (f : KeyedFlow) : Prop where
  key : f.key = .ofIndex f.key.index
  least : ∃ region bits, Narrowest fabric f.toRoutedFlow region bits ∧
    IsLeast {i | i < 2 ^ bits.toNat ∧ Free earlier f.toRoutedFlow i} f.key.index.toNat

/-- No index is free below the limit of the flow's narrowest region. -/
structure Exhausted (fabric : Fabric) (earlier : List KeyedFlow) (f : RoutedFlow)
    (region : RegionId) (bits : UInt8) : Prop where
  narrowest : Narrowest fabric f region bits
  none_free : ∀ i < 2 ^ bits.toNat, ¬Free earlier f i

/-- What is held in any regions is what the earlier flows have there. -/
def Holds (held : List Holding) (earlier : List KeyedFlow) : Prop :=
  ∀ regions i, i ∈ taken held regions ↔
    ∃ g ∈ earlier, overlap g.route.regions regions = true ∧ g.key.index.toNat = i

theorem holds_nil : Holds [] [] := by simp [Holds, taken]

theorem Holds.cons {held : List Holding} {earlier : List KeyedFlow} (h : Holds held earlier)
    (f : KeyedFlow) : Holds (⟨f.route.regions, f.key.index.toNat⟩ :: held) (earlier ++ [f]) := by
  intro regions i
  have hcons : i ∈ taken (⟨f.route.regions, f.key.index.toNat⟩ :: held) regions ↔
      overlap f.route.regions regions = true ∧ f.key.index.toNat = i ∨ i ∈ taken held regions := by
    by_cases ho : overlap f.route.regions regions = true <;>
      simp [taken, ho, @eq_comm Nat i]
  rw [hcons, h regions i]
  simp only [List.mem_append, List.mem_singleton, or_and_right, exists_or, exists_eq_left]
  exact or_comm

theorem Holds.free_iff {held : List Holding} {earlier : List KeyedFlow} (h : Holds held earlier)
    {f : RoutedFlow} {i : Nat} : Free earlier f i ↔ i ∉ taken held f.route.regions := by
  rw [h]
  unfold Free
  simp only [← overlap_iff, not_exists, not_and]

section
variable {fabric : Fabric} {held : List Holding} {earlier : List KeyedFlow} {f : RoutedFlow}
  (hp : f.route.Placed fabric) (hheld : Holds held earlier)

include hp hheld

/-- A flow that gets an index gets the least, and the key that is made of it. -/
theorem choose_eq_ok_iff {i : Nat} : choose fabric held f = .ok i ↔
    LeastKey fabric earlier { f with key := .ofIndex (UInt32.ofNat i) } ∧
      (RoutingKey.ofIndex (UInt32.ofNat i)).index.toNat = i := by
  obtain ⟨region, bits, hbest, hnarrowest⟩ := exists_narrowest hp
  have hchoose : choose fabric held f = .ok i ↔
      IsLeast {i | i < 2 ^ bits.toNat ∧ Free earlier f i} i := by
    simp only [hheld.free_iff]
    rw [← leastFree?_eq_some_iff]
    unfold choose
    rw [hbest]
    simp only
    cases leastFree? (taken held f.route.regions) (2 ^ bits.toNat) <;> simp
  constructor
  · intro h
    have hindex := (fits_of_choose hp h).2
    refine ⟨⟨(fits_of_choose hp h).1.key, region, bits, hnarrowest, ?_⟩, hindex⟩
    show IsLeast _ (RoutingKey.ofIndex (UInt32.ofNat i)).index.toNat
    rw [hindex]
    exact hchoose.1 h
  · rintro ⟨⟨-, region', bits', hnarrowest', hleast⟩, hindex⟩
    obtain ⟨-, rfl⟩ := hnarrowest.unique hnarrowest'
    have hleast : IsLeast {i | i < 2 ^ bits.toNat ∧ Free earlier f i}
      (RoutingKey.ofIndex (UInt32.ofNat i)).index.toNat := hleast
    rw [hindex] at hleast
    exact hchoose.2 hleast

theorem choose_eq_error_iff {e : CompileError} : choose fabric held f = .error e ↔
    ∃ region bits, Exhausted fabric earlier f region bits ∧
      e = .keySpaceExhausted f.id region bits := by
  obtain ⟨region, bits, hbest, hnarrowest⟩ := exists_narrowest hp
  have hchoose : choose fabric held f = .error e ↔
      (∀ i < 2 ^ bits.toNat, ¬Free earlier f i) ∧ e = .keySpaceExhausted f.id region bits := by
    simp only [hheld.free_iff, not_not]
    rw [← leastFree?_eq_none_iff]
    unfold choose
    rw [hbest]
    simp only
    cases leastFree? (taken held f.route.regions) (2 ^ bits.toNat) <;> simp [eq_comm]
  rw [hchoose]
  constructor
  · rintro ⟨hnone, rfl⟩
    exact ⟨region, bits, ⟨hnarrowest, hnone⟩, rfl⟩
  · rintro ⟨region', bits', ⟨hnarrowest', hnone⟩, rfl⟩
    obtain ⟨rfl, rfl⟩ := hnarrowest.unique hnarrowest'
    exact ⟨hnone, rfl⟩

/-- With its least key a flow is the one that the choice makes of it. -/
theorem choose_of_leastKey {g : KeyedFlow} (hg : g.toRoutedFlow = f)
    (hleast : LeastKey fabric earlier g) : choose fabric held f = .ok g.key.index.toNat := by
  have hkey : { f with key := .ofIndex (UInt32.ofNat g.key.index.toNat) } = g := by
    rw [UInt32.ofNat_toNat, ← hleast.key, ← hg]
  refine (choose_eq_ok_iff hp hheld).2 ⟨by rw [hkey]; exact hleast, ?_⟩
  rw [UInt32.ofNat_toNat, ← hleast.key]

end

/-! ## All flows -/

/-- Each flow has the least key that the ones before it have left, those of `earlier` included. -/
def GreedyAfter (fabric : Fabric) (earlier keyed : List KeyedFlow) : Prop :=
  ∀ before f after, keyed = before ++ f :: after → LeastKey fabric (earlier ++ before) f

/-- Each flow has the least key that the ones before it have left. -/
def Greedy (fabric : Fabric) (keyed : List KeyedFlow) : Prop :=
  ∀ before f after, keyed = before ++ f :: after → LeastKey fabric before f

theorem greedyAfter_nil {fabric : Fabric} {earlier : List KeyedFlow} :
    GreedyAfter fabric earlier [] := by
  intro before f after h
  simp at h

theorem greedyAfter_cons {fabric : Fabric} {earlier rest : List KeyedFlow} {f : KeyedFlow} :
    GreedyAfter fabric earlier (f :: rest) ↔
      LeastKey fabric earlier f ∧ GreedyAfter fabric (earlier ++ [f]) rest := by
  constructor
  · intro h
    refine ⟨by simpa using h [] f rest rfl, fun before g after hsplit => ?_⟩
    have := h (f :: before) g after (by rw [hsplit]; rfl)
    simpa using this
  · rintro ⟨hfirst, hrest⟩ before g after hsplit
    cases before with
    | nil =>
      cases hsplit
      simpa using hfirst
    | cons f' before =>
      cases hsplit
      simpa using hrest before g after rfl

section
variable {fabric : Fabric} {held : List Holding} {earlier : List KeyedFlow}
  {flows : List RoutedFlow} (hp : ∀ f ∈ flows, f.route.Placed fabric)
  (hheld : Holds held earlier)

include hp hheld

/-- The flows keep their order, and each gets the least key that the ones before it have left. -/
theorem assign_eq_ok_iff {keyed : List KeyedFlow} : assign fabric held flows = .ok keyed ↔
    keyed.map (·.toRoutedFlow) = flows ∧ GreedyAfter fabric earlier keyed := by
  induction flows generalizing held earlier keyed with
  | nil =>
    rw [List.map_eq_nil_iff]
    constructor
    · intro h
      cases h
      exact ⟨rfl, greedyAfter_nil⟩
    · rintro ⟨rfl, -⟩
      rfl
  | cons f rest ih =>
    have hpf := hp f List.mem_cons_self
    have hprest := fun g hg => hp g (List.mem_cons_of_mem f hg)
    rw [assign, bind_eq_ok]
    constructor
    · rintro ⟨i, hi, h⟩
      obtain ⟨others, hothers, h⟩ := bind_eq_ok.1 h
      cases h
      obtain ⟨hleast, hindex⟩ := (choose_eq_ok_iff hpf hheld).1 hi
      have hnext := hheld.cons { f with key := .ofIndex (UInt32.ofNat i) }
      rw [hindex] at hnext
      obtain ⟨hmap, hgreedy⟩ := (ih hprest hnext).1 hothers
      exact ⟨by simp [hmap], greedyAfter_cons.2 ⟨hleast, hgreedy⟩⟩
    · rintro ⟨hmap, hgreedy⟩
      obtain ⟨g, others, rfl, hg, hothers⟩ := List.map_eq_cons_iff.1 hmap
      obtain ⟨hleast, hrest⟩ := greedyAfter_cons.1 hgreedy
      have hassign := (ih hprest (hg ▸ hheld.cons g)).2 ⟨hothers, hrest⟩
      refine ⟨_, choose_of_leastKey hpf hheld hg hleast, bind_eq_ok.2 ⟨others, hassign, ?_⟩⟩
      rw [UInt32.ofNat_toNat, ← hleast.key, ← hg]

/-- Keys run out at a flow for which the ones before it, with their least keys, leave none. -/
theorem assign_eq_error_iff {e : CompileError} : assign fabric held flows = .error e ↔
    ∃ keyed f later region bits, flows = keyed.map (·.toRoutedFlow) ++ f :: later ∧
      GreedyAfter fabric earlier keyed ∧ Exhausted fabric (earlier ++ keyed) f region bits ∧
      e = .keySpaceExhausted f.id region bits := by
  induction flows generalizing held earlier with
  | nil =>
    constructor
    · intro h
      cases h
    · rintro ⟨keyed, f, later, -, -, hsplit, -⟩
      simp at hsplit
  | cons f rest ih =>
    have hpf := hp f List.mem_cons_self
    have hprest := fun g hg => hp g (List.mem_cons_of_mem f hg)
    rw [assign, bind_eq_error]
    constructor
    · rintro (h | ⟨i, hi, h⟩)
      · obtain ⟨region, bits, hexhausted, rfl⟩ := (choose_eq_error_iff hpf hheld).1 h
        exact ⟨[], f, rest, region, bits, rfl, greedyAfter_nil, by simpa using hexhausted, rfl⟩
      · obtain ⟨hleast, hindex⟩ := (choose_eq_ok_iff hpf hheld).1 hi
        have hnext := hheld.cons { f with key := .ofIndex (UInt32.ofNat i) }
        rw [hindex] at hnext
        rcases bind_eq_error.1 h with h | ⟨_, _, h⟩
        · obtain ⟨keyed, g, later, region, bits, rfl, hgreedy, hexhausted, rfl⟩ :=
            (ih hprest hnext).1 h
          refine ⟨_ :: keyed, g, later, region, bits, rfl, greedyAfter_cons.2 ⟨hleast, hgreedy⟩, ?_,
            rfl⟩
          simpa using hexhausted
        · cases h
    · rintro ⟨keyed, g, later, region, bits, hsplit, hgreedy, hexhausted, rfl⟩
      cases keyed with
      | nil =>
        cases hsplit
        have hexhausted : Exhausted fabric earlier f region bits := by simpa using hexhausted
        exact .inl ((choose_eq_error_iff hpf hheld).2 ⟨region, bits, hexhausted, rfl⟩)
      | cons k keyed =>
        obtain ⟨rfl, hrest⟩ := List.cons.inj hsplit
        obtain ⟨hleast, hgreedy⟩ := greedyAfter_cons.1 hgreedy
        refine .inr ⟨_, choose_of_leastKey hpf hheld rfl hleast, bind_eq_error.2 (.inl ?_)⟩
        exact (ih hprest (hheld.cons k)).2
          ⟨keyed, g, later, region, bits, hrest, hgreedy, by simpa using hexhausted, rfl⟩

end

/-! ## Main result -/

/-- Flows get their keys in the order of their identifiers.  Keys are given out if and only if each
flow has the least index that is free where it travels, and this is what the compiled keys are; they
run out if and only if there is a flow to which the least indices of those before it leave none. -/
theorem keys_are_least_free {s : Spec} {v : ValidSpec} (hv : s.validate = .ok v) :
    (v.flows.values.Pairwise fun f g => f.id.val < g.id.val) ∧
    (∀ keyed, assign v.fabric [] v.flows.values = .ok keyed ↔
      keyed.map (·.toRoutedFlow) = v.flows.values ∧ Greedy v.fabric keyed) ∧
    (∀ e, assign v.fabric [] v.flows.values = .error e ↔
      ∃ keyed f later region bits, v.flows.values = keyed.map (·.toRoutedFlow) ++ f :: later ∧
        Greedy v.fabric keyed ∧ Exhausted v.fabric keyed f region bits ∧
        e = .keySpaceExhausted f.id region bits) ∧
    (∀ flow region, assign v.fabric [] v.flows.values ≠
      .error (.keySpaceExhausted flow region 0)) ∧
    ∀ c, compile v = .ok c → ∃ keyed, assign v.fabric [] v.flows.values = .ok keyed ∧
      ∀ f ∈ keyed, c.keys.get? f.id = some f.key := by
  obtain ⟨-, hsound⟩ := Spec.sound_of_validate hv
  have hplaced : ∀ f ∈ v.flows.values, f.route.Placed v.fabric :=
    fun f hf => (hsound.sound_of_mem hf).placed
  refine ⟨hsound.ascending, fun keyed => assign_eq_ok_iff hplaced holds_nil,
    fun e => assign_eq_error_iff hplaced holds_nil, fun flow region h => ?_, fun c hc => ?_⟩
  · obtain ⟨keyed, f, later, region', bits, -, -, hexhausted, he⟩ :=
      (assign_eq_error_iff hplaced holds_nil).1 h
    cases he
    exact hexhausted.narrowest.bits_ne_zero rfl
  · obtain ⟨keyed, flows, hstages⟩ := compile_eq_ok.1 hc
    refine ⟨keyed, hstages.assigned, fun f hf => ?_⟩
    obtain ⟨hmap, -⟩ := (assign_eq_ok_iff hplaced holds_nil).1 hstages.assigned
    have hids : (keyed.map (·.id)).Nodup := by
      have hids := hsound.ids_nodup
      rw [← hmap, List.map_map] at hids
      exact hids
    rw [hstages.keys, Table.get?_ofList (by rw [List.map_map]; exact hids)]
    exact List.mem_map_of_mem hf

end Keys

/-- Three flows from one core, in whose region two keys can be told apart. -/
def Spec.narrow : Spec :=
  { Spec.twoCores with
    placement := { Spec.twoCores.placement with regions := [⟨⟨0⟩, 1⟩, ⟨⟨1⟩, 16⟩] }
    flows := [⟨⟨2⟩, ⟨0⟩, [⟨1⟩], .periodic 1e7, .keyOnly, ⟨0⟩, none⟩,
      ⟨⟨0⟩, ⟨0⟩, [⟨1⟩], .periodic 1e7, .keyOnly, ⟨0⟩, none⟩,
      ⟨⟨1⟩, ⟨0⟩, [⟨1⟩], .periodic 1e7, .keyOnly, ⟨0⟩, none⟩] }

/-- At which flow keys run out, and in which region of how many bits. -/
def Keys.exhaustion? {α : Type} : Except CompileError α → Option (FlowId × RegionId × UInt8)
  | .error (.keySpaceExhausted flow region bits) => some (flow, region, bits)
  | _ => none

theorem Keys.eq_of_exhaustion? {α : Type} {x : Except CompileError α} {flow : FlowId}
    {region : RegionId} {bits : UInt8} (h : exhaustion? x = some (flow, region, bits)) :
    x = .error (.keySpaceExhausted flow region bits) := by
  unfold exhaustion? at h
  split at h
  · cases h
    rfl
  · cases h

/-- The third flow in the order of identifiers, although the first in the listing, is the one that
gets no key. -/
theorem Keys.keys_are_least_free_narrow :
    ∃ v keyed f later, Spec.narrow.validate = .ok v ∧
      v.flows.values = keyed.map (·.toRoutedFlow) ++ f :: later ∧ Greedy v.fabric keyed ∧
      Exhausted v.fabric keyed f ⟨0⟩ 1 ∧ f.id = ⟨2⟩ ∧
      assign v.fabric [] v.flows.values = .error (.keySpaceExhausted ⟨2⟩ ⟨0⟩ 1) := by
  have hruns : (Spec.narrow.validate.toOption.bind fun v =>
      exhaustion? (assign v.fabric [] v.flows.values)) = some (⟨2⟩, ⟨0⟩, 1) := by
    decide +kernel
  obtain ⟨v, hv, hexhaustion⟩ := Option.bind_eq_some_iff.1 hruns
  have hv : Spec.narrow.validate = .ok v := toOption_eq_some.1 hv
  have herror := eq_of_exhaustion? hexhaustion
  obtain ⟨-, -, hfails, -⟩ := keys_are_least_free hv
  obtain ⟨keyed, f, later, region, bits, hsplit, hgreedy, hexhausted, he⟩ := (hfails _).1 herror
  obtain ⟨hid, rfl, rfl⟩ := CompileError.keySpaceExhausted.inj he
  exact ⟨v, keyed, f, later, hv, hsplit, hgreedy, hexhausted, hid.symm, herror⟩

end TrafficLab
