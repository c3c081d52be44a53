import Mathlib.Algebra.Group.Defs
import TrafficLab.Compilation.Keys
import TrafficLab.Proofs.Command.Stream
import TrafficLab.Proofs.Spec.Validation

/-!
# Routing keys: distinct where flows meet

Keys are given out flow by flow.  The index of a flow fits every region that it passes through and
differs from that of every earlier flow with which it shares a region.

    i < 2 ^ 24 → (RoutingKey.ofIndex i).index = i                   (index_ofIndex)
    assign gives f and g their keys, f ≠ g, overlap f g → keys differ    (assign_eq_ok)
-/

namespace TrafficLab

open Checked

/-! ## Keys as words -/

namespace RoutingKey

/-- The shift that makes room for the low eight bits drops none of an index of 24. -/
theorem index_ofIndex {i : UInt32} (h : i.toNat < 2 ^ 24) : (ofIndex i).index = i := by
  apply UInt32.toNat_inj.1
  show ((i <<< 8) >>> 8).toNat = i.toNat
  rw [UInt32.toNat_shiftRight, UInt32.toNat_shiftLeft, Nat.shiftLeft_eq,
    Nat.shiftRight_eq_div_pow]
  have h8 : (8 : UInt32).toNat % 32 = 8 := rfl
  rw [h8]
  omega

theorem toNat_ofIndex {i : UInt32} (h : i.toNat < 2 ^ 24) :
    (ofIndex i).val.toNat = 256 * i.toNat := by
  show (i <<< 8).toNat = _
  rw [UInt32.toNat_shiftLeft, Nat.shiftLeft_eq]
  have h8 : (8 : UInt32).toNat % 32 = 8 := rfl
  rw [h8]
  omega

/-- A key from an index has no low bits for a stream to drop. -/
theorem ofIndex_carried (i : UInt32) : (ofIndex i).val &&& carried = (ofIndex i).val := by
  refine and_carried ?_
  show (i <<< 8).toNat % 256 = 0
  rw [UInt32.toNat_shiftLeft, show (8 : UInt32).toNat % 32 = 8 from rfl, Nat.shiftLeft_eq]
  omega

end RoutingKey

namespace Keys

/-! ## Choosing an index -/

theorem leastFree?_eq_some {taken : List Nat} {limit i : Nat}
    (h : leastFree? taken limit = some i) : i ∉ taken ∧ i < limit := by
  unfold leastFree? at h
  have hfree := List.find?_some h
  have hmem := List.mem_range.1 (List.mem_of_find?_eq_some h)
  exact ⟨by simpa using hfree, by omega⟩

/-- A region with key bits is reason enough for there to be a narrowest. -/
theorem narrowest?_ne_none {keyBits : RegionId → Option UInt8} {rs : List RegionId} {r : RegionId}
    (hr : r ∈ rs) (hb : (keyBits r).isSome) : narrowest? keyBits rs ≠ none := by
  induction rs with
  | nil => simp at hr
  | cons s rest ih =>
    unfold narrowest?
    split
    · next hs =>
      rcases List.mem_cons.1 hr with rfl | hr
      · simp [hs] at hb
      · exact ih hr
    · simp
    · split <;> simp

theorem narrowest?_le {keyBits : RegionId → Option UInt8} {rs : List RegionId}
    {best : RegionId × UInt8} (h : narrowest? keyBits rs = some best) :
    ∀ r ∈ rs, ∀ bits, keyBits r = some bits → best.2 ≤ bits := by
  induction rs generalizing best with
  | nil => simp
  | cons s rest ih =>
    unfold narrowest? at h
    intro r hr bits hbits
    split at h
    · next hs =>
      rcases List.mem_cons.1 hr with rfl | hr
      · simp [hs] at hbits
      · exact ih h r hr bits hbits
    · next b hs hrest =>
      cases h
      rcases List.mem_cons.1 hr with rfl | hr
      · rw [hs] at hbits
        cases hbits
        exact UInt8.le_refl _
      · have hsome : (keyBits r).isSome := by rw [hbits]; rfl
        exact absurd hrest (narrowest?_ne_none hr hsome)
    · next b t fewest hs hrest =>
      have hle := ih hrest
      split at h
      · next hb =>
        cases h
        rcases List.mem_cons.1 hr with rfl | hr
        · rw [hs] at hbits
          cases hbits
          exact UInt8.le_refl _
        · exact UInt8.le_trans hb (hle r hr bits hbits)
      · next hb =>
        cases h
        rcases List.mem_cons.1 hr with rfl | hr
        · rw [hs] at hbits
          cases hbits
          exact UInt8.le_of_lt (UInt8.not_le.1 hb)
        · exact hle r hr bits hbits

theorem mem_taken {held : List Holding} {regions : KeySet RegionId} {h : Holding} (hh : h ∈ held)
    (ho : overlap h.regions regions = true) : h.index ∈ taken held regions :=
  List.mem_map_of_mem (List.mem_filter.2 ⟨hh, ho⟩)

/-- The index that is chosen is nobody's in the regions of the flow, and fits all of them. -/
theorem choose_eq_ok {fabric : Fabric} {held : List Holding} {flow : RoutedFlow} {i : Nat}
    (h : choose fabric held flow = .ok i) :
    (∀ o ∈ held, overlap o.regions flow.route.regions = true → i ≠ o.index) ∧
    ∀ r ∈ flow.route.regions.keys, ∀ bits, fabric.keyBits r = some bits → i < 2 ^ bits.toNat := by
  unfold choose at h
  split at h
  · cases h
  next region bits hbest =>
  split at h
  · cases h
  next j hj =>
  cases h
  obtain ⟨hfree, hlt⟩ := leastFree?_eq_some hj
  refine ⟨fun o ho hov e => hfree (e ▸ mem_taken ho hov), fun r hr b hb => ?_⟩
  have hle : bits ≤ b := narrowest?_le hbest r hr b hb
  exact Nat.lt_of_lt_of_le hlt (Nat.pow_le_pow_right (by decide) (UInt8.le_iff_toNat_le.1 hle))

theorem overlap_iff {s t : KeySet RegionId} :
    overlap s t = true ↔ ∃ r, r ∈ s.keys ∧ r ∈ t.keys := by
  unfold overlap
  rw [List.any_eq_true]
  simp only [Table.contains_eq_true]

/-! ## Keys of all flows -/

/-- A flow whose key comes from an index that fits all regions of the flow. -/
structure Fits (fabric : Fabric) (f : KeyedFlow) : Prop where
  key : f.key = .ofIndex f.key.index
  lt : f.key.index.toNat < 2 ^ 24
  regions : ∀ r ∈ f.route.regions.keys,
    ∃ bits, fabric.keyBits r = some bits ∧ f.key.index.toNat < 2 ^ bits.toNat

theorem fits_of_choose {fabric : Fabric} {held : List Holding} {flow : RoutedFlow} {i : Nat}
    (hp : flow.route.Placed fabric) (h : choose fabric held flow = .ok i) :
    Fits fabric { flow with key := .ofIndex (UInt32.ofNat i) } ∧
      (RoutingKey.ofIndex (UInt32.ofNat i)).index.toNat = i := by
  obtain ⟨-, hfit⟩ := choose_eq_ok h
  have hall : ∀ r ∈ flow.route.regions.keys,
      ∃ bits, fabric.keyBits r = some bits ∧ i < 2 ^ bits.toNat := by
    intro r hr
    obtain ⟨bits, hb⟩ := fabric.exists_keyBits (hp.declared r hr)
    exact ⟨bits, hb, hfit r hr bits hb⟩
  -- the region of the source bounds the index even if nothing else does
  have hlt : i < 2 ^ 24 := by
    obtain ⟨a, ha, -⟩ := hp.source_region
    obtain ⟨bits, hb, hi⟩ := hall a ha
    have hle : bits.toNat ≤ 24 := UInt8.le_iff_toNat_le.1 (fabric.keyBits_le hb)
    exact Nat.lt_of_lt_of_le hi (Nat.pow_le_pow_right (by decide) hle)
  have hnat : (UInt32.ofNat i).toNat = i :=
    UInt32.toNat_ofNat_of_lt' (Nat.lt_trans hlt (by decide))
  have hindex : (RoutingKey.ofIndex (UInt32.ofNat i)).index = UInt32.ofNat i :=
    RoutingKey.index_ofIndex (by rw [hnat]; exact hlt)
  have htoNat : (RoutingKey.ofIndex (UInt32.ofNat i)).index.toNat = i := by rw [hindex, hnat]
  refine ⟨⟨?_, ?_, fun r hr => ?_⟩, htoNat⟩
  · show RoutingKey.ofIndex (UInt32.ofNat i) = _
    rw [hindex]
  · show (RoutingKey.ofIndex (UInt32.ofNat i)).index.toNat < _
    rw [htoNat]
    exact hlt
  · show ∃ bits, _ ∧ (RoutingKey.ofIndex (UInt32.ofNat i)).index.toNat < _
    rw [htoNat]
    exact hall r hr

/-- What a run over the flows gives: the flows in their order, each with a key that fits, and keys
that differ from those held before and among each other wherever regions are shared. -/
theorem assign_eq_ok {fabric : Fabric} {held : List Holding} {flows : List RoutedFlow}
    {keyed : List KeyedFlow} (hp : ∀ f ∈ flows, f.route.Placed fabric)
    (h : assign fabric held flows = .ok keyed) :
    keyed.map (·.toRoutedFlow) = flows ∧ (∀ f ∈ keyed, Fits fabric f) ∧
    (∀ f ∈ keyed, ∀ o ∈ held, overlap o.regions f.route.regions = true →
      f.key.index.toNat ≠ o.index) ∧
    keyed.Pairwise fun f g => overlap f.route.regions g.route.regions = true → f.key ≠ g.key := by
  induction flows generalizing held keyed with
  | nil =>
    cases h
    simp
  | cons flow rest ih =>
    unfold assign at h
    obtain ⟨i, hi, h⟩ := bind_eq_ok.1 h
    obtain ⟨others, hrest, h⟩ := bind_eq_ok.1 h
    cases h
    obtain ⟨hmap, hfits, hheld, hpair⟩ := ih (fun f hf => hp f (by simp [hf])) hrest
    obtain ⟨hfit, hindex⟩ := fits_of_choose (hp flow (by simp)) hi
    obtain ⟨hfree, -⟩ := choose_eq_ok hi
    refine ⟨by simp [hmap], ?_, ?_, ?_⟩
    · intro f hf
      rcases List.mem_cons.1 hf with rfl | hf
      · exact hfit
      · exact hfits f hf
    · intro f hf o ho hov
      rcases List.mem_cons.1 hf with rfl | hf
      · show (RoutingKey.ofIndex (UInt32.ofNat i)).index.toNat ≠ _
        rw [hindex]
        exact hfree o ho hov
      · exact hheld f hf o (by simp [ho]) hov
    · refine List.pairwise_cons.2 ⟨fun g hg hov e => ?_, hpair⟩
      have hne := hheld g hg ⟨flow.route.regions, i⟩ (by simp) hov
      rw [← e] at hne
      exact hne hindex

end Keys

end TrafficLab
