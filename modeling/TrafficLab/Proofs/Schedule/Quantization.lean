import TrafficLab.Proofs.Checked
import TrafficLab.Schedule.Quantization
import TrafficLab.Spec.Validation

/-!
# Quantized rates

A rate that has been checked is a positive number, so the ticks between two packets are a number,
and an interval that is not refused as too short has at least one tick.  A burst window that is not
refused repeats.

    g.check = .ok () → g.schedule timestep = .ok s → s.Repeats              (repeats_of_schedule)
-/

namespace TrafficLab

open Float.Model Float.Model.UnpackedFloat

/-! ## What is a number -/

/-- A floating-point number is finite and not zero. -/
def IsNonzeroNumber (x : Float) : Prop :=
  ∃ s m e h, x.toModel.unpack = .finite s m e h

/-- What is not a number has the greatest exponent and a mantissa. -/
theorem of_unpack_eq_nan {spec : Format} {b : BitVec spec.numBits}
    (h : UnpackedFloat.unpack spec b = .notANumber) :
    unpackExponent b = -1#_ ∧ unpackMantissa b ≠ 0#_ := by
  unfold UnpackedFloat.unpack at h
  by_cases he : unpackExponent b = -1#_
  · refine ⟨he, fun hm => ?_⟩
    rw [if_pos he, if_pos hm] at h
    cases h
  · rw [if_neg he] at h
    by_cases hz : unpackExponent b = 0#_
    · rw [if_pos hz] at h
      by_cases hm : unpackMantissa b = 0#_
      · rw [dif_pos hm] at h
        cases h
      · rw [dif_neg hm] at h
        cases h
    · rw [if_neg hz] at h
      cases h

theorem unpack_packComponents_ne_nan {spec : Format} {s : Sign} {e : BitVec spec.exponentBits}
    {m : BitVec spec.mantissaBitsWithoutImplicit} (h : e ≠ -1#_ ∨ m = 0#_) :
    UnpackedFloat.unpack spec (packComponents spec s e m) ≠ .notANumber := by
  intro hn
  obtain ⟨he, hm⟩ := of_unpack_eq_nan hn
  rw [unpackExponent_packComponents] at he
  rw [unpackMantissa_packComponents] at hm
  rcases h with h | h
  · exact h he
  · exact hm h

/-- The bits of an exponent that is short of the greatest one. -/
theorem ofNat_ne_neg_one {w n : Nat} (h : n + 1 < 2 ^ w) : BitVec.ofNat w n ≠ -1#w := by
  intro e
  have e := congrArg BitVec.toNat e
  rw [BitVec.neg_one_eq_allOnes, BitVec.toNat_allOnes, BitVec.toNat_ofNat,
    Nat.mod_eq_of_lt (by omega)] at e
  omega

/-- Packing makes no number into what is not one. -/
theorem unpack_pack_ne_nan {f : UnpackedFloat} (h : f ≠ .notANumber) :
    (Float.Model.pack f).unpack ≠ .notANumber := by
  show UnpackedFloat.unpack Format.binary64 (UnpackedFloat.pack Format.binary64 f) ≠ _
  cases f with
  | notANumber => exact absurd rfl h
  | infinity s => exact unpack_packComponents_ne_nan (.inr rfl)
  | zero s => exact unpack_packComponents_ne_nan (.inr rfl)
  | finite s m e hm =>
    unfold UnpackedFloat.pack
    dsimp only
    split
    · exact unpack_packComponents_ne_nan (.inr rfl)
    next hexp =>
    rw [Nat.not_le] at hexp
    split
    · exact unpack_packComponents_ne_nan (.inl (ofNat_ne_neg_one hexp))
    · exact unpack_packComponents_ne_nan (.inl (by decide))

theorem zero_or_finite_ne_nan {s : Sign} {m : Nat} {e : Int} :
    (if h : m = 0 then UnpackedFloat.zero s else .finite s m e (Nat.pos_of_ne_zero h)) ≠
      .notANumber := by
  by_cases hm : m = 0
  · rw [dif_pos hm]
    intro h
    cases h
  · rw [dif_neg hm]
    intro h
    cases h

/-- Rounding ends in a mantissa, which is zero or not. -/
theorem roundWithAccuracy_ne_nan {spec : Format} {s : Sign} {m : Nat} {e : Int} {a : Accuracy} :
    roundWithAccuracy spec s m e a ≠ .notANumber :=
  zero_or_finite_ne_nan

theorem not_isNaN_iff {x : Float} : x.isNaN = false ↔ x.toModel.unpack ≠ .notANumber := by
  unfold Float.isNaN Float.Model.isNaN UnpackedFloat.isNaN
  cases x.toModel.unpack with
  | notANumber => exact ⟨fun h => (nomatch h), fun h => absurd rfl h⟩
  | infinity | zero | finite => exact ⟨fun _ => nofun, fun _ => rfl⟩

theorem not_isNaN_mul {x y : Float} (hx : IsNonzeroNumber x) (hy : y.isNaN = false) :
    (x * y).isNaN = false := by
  obtain ⟨s, m, e, h, hx⟩ := hx
  rw [not_isNaN_iff] at hy ⊢
  refine unpack_pack_ne_nan ?_
  rw [hx]
  cases hu : y.toModel.unpack with
  | notANumber => exact absurd hu hy
  | infinity t => exact (nofun : UnpackedFloat.infinity _ ≠ .notANumber)
  | zero t => exact (nofun : UnpackedFloat.zero _ ≠ .notANumber)
  | finite t n g hn => exact roundWithAccuracy_ne_nan

theorem not_isNaN_div {x y : Float} (hx : x.isNaN = false) (hy : IsNonzeroNumber y) :
    (x / y).isNaN = false := by
  obtain ⟨s, m, e, h, hy⟩ := hy
  rw [not_isNaN_iff] at hx ⊢
  refine unpack_pack_ne_nan ?_
  rw [hy]
  cases hu : x.toModel.unpack with
  | notANumber => exact absurd hu hx
  | infinity t => exact (nofun : UnpackedFloat.infinity _ ≠ .notANumber)
  | zero t => exact (nofun : UnpackedFloat.zero _ ≠ .notANumber)
  | finite t n g hn => exact roundWithAccuracy_ne_nan

theorem not_isNaN_div_of_left {x y : Float} (hx : IsNonzeroNumber x) (hy : y.isNaN = false) :
    (x / y).isNaN = false := by
  obtain ⟨s, m, e, h, hx⟩ := hx
  rw [not_isNaN_iff] at hy ⊢
  refine unpack_pack_ne_nan ?_
  rw [hx]
  cases hu : y.toModel.unpack with
  | notANumber => exact absurd hu hy
  | infinity t => exact (nofun : UnpackedFloat.zero _ ≠ .notANumber)
  | zero t => exact (nofun : UnpackedFloat.infinity _ ≠ .notANumber)
  | finite t n g hn => exact roundWithAccuracy_ne_nan

theorem not_isNaN_toFloat (n : UInt64) : n.toFloat.isNaN = false := by
  rw [not_isNaN_iff]
  refine unpack_pack_ne_nan ?_
  unfold UnpackedFloat.ofUInt64 UnpackedFloat.ofNat UnpackedFloat.ofInt UnpackedFloat.normalize
  split
  · exact roundWithAccuracy_ne_nan
  · simp
  · exact roundWithAccuracy_ne_nan

theorem isNonzeroNumber_of_pos {x : Float} (hf : x.isFinite = true) (h0 : ¬x ≤ 0) :
    IsNonzeroNumber x := by
  unfold IsNonzeroNumber
  unfold Float.isFinite Float.Model.isFinite at hf
  cases hu : x.toModel.unpack with
  | notANumber | infinity s =>
    rw [hu] at hf
    cases hf
  | finite s m e h => exact ⟨s, m, e, h, rfl⟩
  | zero s =>
    have hz : (0 : Float).toModel.unpack = .zero .positive := rfl
    have hle : x.toModel.unpack.le (0 : Float).toModel.unpack = true := by
      rw [hu, hz]
      rfl
    exact absurd (decide_eq_true hle) h0

/-! ## Schedules -/

namespace Quantization

theorem isNaN_perTick {timestep : Nanosecs} {rate : Float} (h : IsNonzeroNumber rate) :
    (perTick timestep rate).isNaN = false :=
  not_isNaN_div (not_isNaN_mul h (not_isNaN_toFloat _)) ⟨_, _, _, _, rfl⟩

/-- The interval of a rate that is a positive number has at least one tick. -/
theorem interval_ne_zero {timestep : Nanosecs} {rate : Float} {n : UInt32}
    (hr : IsNonzeroNumber rate) (h : interval timestep rate = .ok n) : n ≠ 0 := by
  have hnan : (1.0 / perTick timestep rate).isNaN = false :=
    not_isNaN_div_of_left ⟨_, _, _, _, rfl⟩ (isNaN_perTick hr)
  unfold interval at h
  simp only [hnan, Bool.not_false, and_true] at h
  split at h
  · cases h
  next k _ =>
  split at h
  · cases h
  next hk =>
  split at h
  · cases h
  next hlt =>
  cases h
  intro e
  have e := congrArg UInt32.toNat e
  rw [UInt32.toNat_ofNat_of_lt' (Nat.lt_of_not_le hlt)] at e
  exact hk e

theorem window_period_ne_zero {timestep : Nanosecs} {burst : Burst} {w : BurstWindow}
    (h : window timestep burst = .ok w) : w.period ≠ 0 := by
  unfold window at h
  simp only [bind, Except.bind] at h
  split at h
  · cases h
  split at h
  · cases h
  split at h
  · cases h
  split at h
  · cases h
  next hp =>
  cases h
  exact hp

end Quantization

/-- A schedule that a core can keep to: intervals of at least one tick, windows that repeat. -/
def Schedule.Repeats : Schedule → Prop
  | interval ticks => ticks ≠ 0
  | bernoulli _ burst => ∀ w ∈ burst, w.period ≠ 0

theorem Generation.repeats_of_schedule {timestep : Nanosecs} {g : Generation} {s : Schedule}
    (hc : g.check = .ok ()) (h : g.schedule timestep = .ok s) : s.Repeats := by
  have hr : IsNonzeroNumber g.rate := by
    unfold Generation.check at hc
    split at hc
    · cases hc
    next hrate =>
    simp only [Bool.or_eq_true, Bool.not_eq_true', decide_eq_true_eq, not_or,
      Bool.not_eq_false] at hrate
    exact isNonzeroNumber_of_pos hrate.1 hrate.2
  cases g with
  | periodic rate =>
    obtain ⟨n, hn, h⟩ := Checked.bind_eq_ok.1 h
    cases h
    exact Quantization.interval_ne_zero hr hn
  | poisson rate =>
    obtain ⟨n, hn, h⟩ := Checked.bind_eq_ok.1 h
    cases h
    intro w hw
    cases hw
  | bursty rate burst =>
    obtain ⟨n, hn, h⟩ := Checked.bind_eq_ok.1 h
    obtain ⟨w, hw, h⟩ := Checked.bind_eq_ok.1 h
    cases h
    intro w' hw'
    cases hw'
    exact Quantization.window_period_ne_zero hw

end TrafficLab
