import Mathlib.Algebra.Order.Field.Power
import Mathlib.Data.Int.Log
import Mathlib.Data.Rat.Floor
import Mathlib.Tactic.FieldSimp
import Mathlib.Tactic.Linarith
import Mathlib.Tactic.Positivity
import Mathlib.Tactic.Ring
import ServingPlane.Numeric.Binary

/-! # The order of rounding

    Rounding to a binary format, seen on rationals.  It depends on the
    number alone and not on the ratio that it comes as, it keeps the
    order, and it leaves alone what the format can hold.  So bounds on a
    rounded number come from rounding the bounds, and a number that was
    widened comes back as it was. -/

namespace ServingPlane.Numeric

/-! ## Halves and powers of two -/

/-- A rounded ratio exceeds a natural exactly if the ratio is beyond the
    half above it, or at that half with an odd natural below. -/
theorem lt_roundHalfEven {num den k : Nat} (hden : 0 < den) :
    k < roundHalfEven num den ↔
      (k : ℚ) + 1 / 2 < num / den ∨ ((k : ℚ) + 1 / 2 = num / den ∧ k % 2 = 1) := by
  have hnat : k < roundHalfEven num den ↔
      (2 * k + 1) * den < 2 * num ∨ ((2 * k + 1) * den = 2 * num ∧ k % 2 = 1) := by
    have hdiv := Nat.div_add_mod num den
    have hmod := Nat.mod_lt num hden
    simp only [roundHalfEven]
    generalize num / den = q at *
    generalize num % den = r at *
    subst hdiv
    rcases Nat.lt_trichotomy k q with hlt | rfl | hgt
    · have hmul : (2 * k + 1) * den + den ≤ 2 * (den * q) := by nlinarith
      refine iff_of_true ?_ (.inl (by omega))
      split
      · exact hlt
      · split
        · omega
        · split <;> omega
    · have hmul : (2 * k + 1) * den = 2 * (den * k) + den := by ring
      rw [hmul]
      split
      · omega
      · split
        · omega
        · split <;> omega
    · have hmul : 2 * (den * q) + 2 * den + den ≤ (2 * k + 1) * den := by nlinarith
      refine iff_of_false ?_ (by omega)
      split
      · omega
      · split
        · omega
        · split <;> omega
  have hcast : (0 : ℚ) < den := by exact_mod_cast hden
  rw [hnat, lt_div_iff₀ hcast, eq_div_iff hcast.ne']
  have hleft : ((k : ℚ) + 1 / 2) * den = ((2 * k + 1) * den : Nat) / 2 := by
    push_cast
    ring
  have hright : (num : ℚ) = ((2 * num : Nat) : ℚ) / 2 := by
    push_cast
    ring
  rw [hleft, hright, div_lt_div_iff_of_pos_right two_pos, div_left_inj' two_ne_zero]
  norm_cast

theorem roundHalfEven_mono {num den num' den' : Nat} (hden : 0 < den) (hden' : 0 < den')
    (h : (num : ℚ) / den ≤ num' / den') : roundHalfEven num den ≤ roundHalfEven num' den' := by
  refine Nat.le_of_not_lt fun hlt => ?_
  refine Nat.lt_irrefl (roundHalfEven num' den') ((lt_roundHalfEven hden').mpr ?_)
  rcases (lt_roundHalfEven hden).mp hlt with hbeyond | ⟨hhalf, hodd⟩
  · exact .inl (hbeyond.trans_le h)
  · rcases h.lt_or_eq with hless | heq
    · exact .inl (hhalf.trans_lt hless)
    · exact .inr ⟨hhalf.trans heq, hodd⟩

/-- A ratio that is a natural is not changed. -/
theorem roundHalfEven_of_eq {num den k : Nat} (hden : 0 < den) (h : (num : ℚ) / den = k) :
    roundHalfEven num den = k := by
  refine Nat.le_antisymm (Nat.le_of_not_lt fun hlt => ?_) ?_
  · rcases (lt_roundHalfEven hden).mp hlt with hbeyond | ⟨hhalf, -⟩ <;> linarith
  · cases k with
    | zero => exact Nat.zero_le _
    | succ k =>
      refine (lt_roundHalfEven hden).mpr (.inl ?_)
      rw [h]
      push_cast
      linarith

theorem shiftRatio_pos {num den : Nat} (hden : 0 < den) (shift : Int) :
    0 < (shiftRatio num den shift).2 := by
  cases shift with
  | ofNat s => exact hden
  | negSucc s =>
    show 0 < den <<< (s + 1)
    rw [Nat.shiftLeft_eq]
    positivity

/-- Shifting a ratio multiplies it by a power of two. -/
theorem shiftRatio_div (num den : Nat) (shift : Int) :
    ((shiftRatio num den shift).1 : ℚ) / (shiftRatio num den shift).2
      = num / den * 2 ^ shift := by
  cases shift with
  | ofNat s =>
    show ((num <<< s : Nat) : ℚ) / den = num / den * 2 ^ (s : Int)
    rw [Nat.shiftLeft_eq, zpow_natCast]
    push_cast
    ring
  | negSucc s =>
    show (num : ℚ) / ((den <<< (s + 1) : Nat) : ℚ) = num / den * 2 ^ (Int.negSucc s)
    rw [Nat.shiftLeft_eq, zpow_negSucc]
    push_cast
    rw [div_mul_eq_div_div, div_eq_mul_inv _ ((2 : ℚ) ^ (s + 1))]

theorem log_eq_of_bounds {b : Nat} (hb : 1 < b) {r : ℚ} (hr : 0 < r) {e : Int}
    (hlow : (b : ℚ) ^ e ≤ r) (hhigh : r < (b : ℚ) ^ (e + 1)) : Int.log b r = e :=
  le_antisymm (Int.lt_add_one_iff.mp ((Int.lt_zpow_iff_log_lt hb hr).mp hhigh))
    ((Int.zpow_le_iff_le_log hb hr).mp hlow)

/-- The digits of a ratio's parts tell its binary exponent, or one more. -/
theorem ratio_bounds {num den : Nat} (hnum : 0 < num) (hden : 0 < den) :
    (2 : ℚ) ^ ((num.log2 : Int) - den.log2 - 1) ≤ num / den ∧
    (num : ℚ) / den < 2 ^ ((num.log2 : Int) - den.log2 + 1) := by
  have hd : (0 : ℚ) < den := by exact_mod_cast hden
  have hnumLow : ((2 : ℚ) ^ num.log2) ≤ num := by
    exact_mod_cast Nat.log2_self_le hnum.ne'
  have hnumHigh : (num : ℚ) < 2 ^ (num.log2 + 1) := by exact_mod_cast Nat.lt_log2_self
  have hdenLow : ((2 : ℚ) ^ den.log2) ≤ den := by
    exact_mod_cast Nat.log2_self_le hden.ne'
  have hdenHigh : (den : ℚ) < 2 ^ (den.log2 + 1) := by exact_mod_cast Nat.lt_log2_self
  constructor
  · rw [le_div_iff₀ hd]
    calc (2 : ℚ) ^ ((num.log2 : Int) - den.log2 - 1) * den
        ≤ 2 ^ ((num.log2 : Int) - den.log2 - 1) * 2 ^ (den.log2 + 1) := by gcongr
      _ = 2 ^ num.log2 := by
        rw [← zpow_natCast, ← zpow_natCast, ← zpow_add₀ two_ne_zero]
        congr 1
        push_cast
        ring
      _ ≤ num := hnumLow
  · rw [div_lt_iff₀ hd]
    calc (num : ℚ) < 2 ^ (num.log2 + 1) := hnumHigh
      _ = 2 ^ ((num.log2 : Int) - den.log2 + 1) * 2 ^ den.log2 := by
        rw [← zpow_natCast, ← zpow_natCast, ← zpow_add₀ two_ne_zero]
        congr 1
        push_cast
        ring
      _ ≤ 2 ^ ((num.log2 : Int) - den.log2 + 1) * den := by gcongr

/-- The binary exponent of a ratio is its logarithm. -/
theorem floorLog2_eq_log {num den : Nat} (hnum : 0 < num) (hden : 0 < den) :
    floorLog2 num den = Int.log 2 ((num : ℚ) / den) := by
  have hd : (0 : ℚ) < den := by exact_mod_cast hden
  have hr : (0 : ℚ) < num / den := by positivity
  obtain ⟨hlow, hhigh⟩ := ratio_bounds hnum hden
  have hless (e : Int) : (shiftRatio num den (-e)).1 < (shiftRatio num den (-e)).2 ↔
      (num : ℚ) / den < 2 ^ e := by
    have hpos : (0 : ℚ) < (shiftRatio num den (-e)).2 := by exact_mod_cast shiftRatio_pos hden _
    rw [← Nat.cast_lt (α := ℚ), ← div_lt_one hpos, shiftRatio_div, zpow_neg,
      mul_inv_lt_iff₀ (by positivity), one_mul]
  show (if (shiftRatio num den (-((num.log2 : Int) - den.log2))).1
    < (shiftRatio num den (-((num.log2 : Int) - den.log2))).2 then _ else _) = _
  split
  · rename_i h
    refine (log_eq_of_bounds one_lt_two hr (by exact_mod_cast hlow) ?_).symm
    rw [Int.sub_add_cancel]
    exact_mod_cast (hless _).mp h
  · rename_i h
    refine (log_eq_of_bounds one_lt_two hr ?_ (by exact_mod_cast hhigh)).symm
    exact_mod_cast not_lt.mp fun hlt => h ((hless _).mpr hlt)

/-! ## Magnitudes as numbers -/

namespace Magnitude

/-- The number that a magnitude stands for. -/
def value (m : Magnitude) : ℚ := m.significand * 2 ^ m.exponent

theorem ratio_pos (m : Magnitude) : 0 < m.ratio.2 := shiftRatio_pos one_pos _

theorem ratio_div (m : Magnitude) : (m.ratio.1 : ℚ) / m.ratio.2 = m.value := by
  simp only [ratio]
  rw [shiftRatio_div, Nat.cast_one, div_one, value]

end Magnitude

namespace Format

variable {f : Format}

/-- The weight of the unit in which a positive number is rounded. -/
def unitOf (f : Format) (r : ℚ) : Int := max (Int.log 2 r - (f.precision - 1)) f.minExponent

/-- A magnitude that has a pattern of its own: the significand fills the
    format, unless the exponent is the smallest. -/
structure Canonical (f : Format) (m : Magnitude) : Prop where
  low : f.minExponent ≤ m.exponent
  high : m.significand < 2 * f.hiddenBit
  full : m.exponent = f.minExponent ∨ f.hiddenBit ≤ m.significand

/-- The pattern of a magnitude. -/
def pattern (f : Format) (m : Magnitude) : Nat :=
  (m.exponent - f.minExponent).toNat * f.hiddenBit + m.significand

theorem hiddenBit_pos (f : Format) : 0 < f.hiddenBit := by
  simp only [hiddenBit, Nat.shiftLeft_eq, one_mul]
  positivity

theorem canonical_magnitude (f : Format) (bits : Nat) : f.Canonical (f.magnitude bits) := by
  have hfraction := Nat.mod_lt bits f.hiddenBit_pos
  simp only [magnitude]
  split
  · exact ⟨le_rfl, by dsimp only; omega, .inl rfl⟩
  · exact ⟨by dsimp only; omega, by dsimp only; omega, .inr (by dsimp only; omega)⟩

theorem pattern_magnitude (f : Format) (bits : Nat) : f.pattern (f.magnitude bits) = bits := by
  have hdiv := Nat.div_add_mod bits f.hiddenBit
  simp only [magnitude]
  split
  · rename_i hfield
    rw [hfield, Nat.mul_zero, Nat.zero_add] at hdiv
    simp [pattern, hdiv]
  · rename_i hfield
    obtain ⟨field, hsucc⟩ := Nat.exists_eq_add_one.mpr (Nat.pos_of_ne_zero hfield)
    rw [hsucc] at hdiv ⊢
    simp only [pattern, add_sub_cancel_left, Nat.add_sub_cancel, Int.toNat_natCast]
    linarith

theorem magnitude_pattern {m : Magnitude} (h : f.Canonical m) : f.magnitude (f.pattern m) = m := by
  obtain ⟨s, e⟩ := m
  obtain ⟨hlow, hhigh, hfull⟩ := h
  dsimp only at hlow hhigh hfull
  obtain ⟨k, rfl⟩ := Int.le.dest hlow
  have hH := f.hiddenBit_pos
  simp only [magnitude, pattern, add_sub_cancel_left, Int.toNat_natCast]
  by_cases hs : s < f.hiddenBit
  · have hk : k = 0 := by omega
    subst hk
    rw [Nat.zero_mul, Nat.zero_add, if_pos (Nat.div_eq_of_lt hs), Nat.mod_eq_of_lt hs]
    simp
  · obtain ⟨t, rfl⟩ := Nat.exists_eq_add_of_le (Nat.le_of_not_lt hs)
    have ht : t < f.hiddenBit := by omega
    have hbits : k * f.hiddenBit + (f.hiddenBit + t) = t + f.hiddenBit * (k + 1) := by ring
    rw [hbits, Nat.add_mul_div_left _ _ hH, Nat.add_mul_mod_self_left, Nat.div_eq_of_lt ht,
      Nat.mod_eq_of_lt ht, if_neg (by omega), Nat.zero_add, Nat.add_sub_cancel, Nat.add_comm t]

/-! ## Rounding on numbers -/

section Scaled

variable {r : ℚ}

theorem minExponent_le_unitOf : f.minExponent ≤ f.unitOf r := le_max_right _ _

theorem unitOf_mono {r' : ℚ} (hr : 0 < r) (h : r ≤ r') : f.unitOf r ≤ f.unitOf r' :=
  max_le_max_right _ (Int.sub_le_sub_right (Int.log_mono_right hr h) _)

theorem hiddenBit_eq (hp : 0 < f.precision) :
    (f.hiddenBit : ℚ) = 2 ^ ((f.precision : Int) - 1) := by
  obtain ⟨p, hp⟩ := Nat.exists_eq_add_one.mpr hp
  simp [hiddenBit, Nat.shiftLeft_eq, hp]

/-- In its unit a number fits the significand. -/
theorem div_unitOf_lt (hp : 0 < f.precision) (r : ℚ) :
    r / 2 ^ f.unitOf r < 2 * f.hiddenBit := by
  rw [div_lt_iff₀ (by positivity), hiddenBit_eq hp]
  calc r < 2 ^ (Int.log 2 r + 1) := by exact_mod_cast Int.lt_zpow_succ_log_self one_lt_two r
    _ ≤ 2 ^ (1 + ((f.precision : Int) - 1) + f.unitOf r) := by
      refine zpow_le_zpow_right₀ one_le_two ?_
      have := le_max_left (Int.log 2 r - ((f.precision : Int) - 1)) f.minExponent
      simp only [unitOf]
      omega
    _ = 2 * 2 ^ ((f.precision : Int) - 1) * 2 ^ f.unitOf r := by
      rw [zpow_add₀ two_ne_zero, zpow_add₀ two_ne_zero, zpow_one]

/-- In its unit a number fills the significand, unless it is too small. -/
theorem hiddenBit_le_div_unitOf (hp : 0 < f.precision) (hr : 0 < r)
    (h : f.minExponent < f.unitOf r) : (f.hiddenBit : ℚ) ≤ r / 2 ^ f.unitOf r := by
  have hunit : f.unitOf r = Int.log 2 r - ((f.precision : Int) - 1) := by
    simp only [unitOf] at h ⊢
    omega
  rw [le_div_iff₀ (by positivity), hiddenBit_eq hp, hunit, ← zpow_add₀ two_ne_zero,
    add_sub_cancel]
  exact_mod_cast Int.zpow_log_le_self one_lt_two hr

end Scaled

/-- The unit in which a number fits the significand, and fills it unless
    the unit is the smallest. -/
theorem unitOf_eq {r : ℚ} {e : Int} (hp : 0 < f.precision) (hr : 0 < r) (hmin : f.minExponent ≤ e)
    (hfull : e = f.minExponent ∨ f.hiddenBit * 2 ^ e ≤ r) (hfits : r < 2 * f.hiddenBit * 2 ^ e) :
    f.unitOf r = e := by
  have hlog : r < 2 ^ (e + (f.precision : Int)) := by
    have hwidth : (2 : ℚ) * f.hiddenBit = 2 ^ (f.precision : Int) := by
      rw [hiddenBit_eq hp, ← zpow_one_add₀ two_ne_zero, add_sub_cancel]
    rwa [hwidth, mul_comm, ← zpow_add₀ two_ne_zero] at hfits
  have hless : Int.log 2 r < e + f.precision :=
    (Int.lt_zpow_iff_log_lt one_lt_two hr).mp (by exact_mod_cast hlog)
  rcases hfull with rfl | hfull
  · simp only [unitOf]
    omega
  · rw [hiddenBit_eq hp, ← zpow_add₀ two_ne_zero] at hfull
    have hle : (f.precision : Int) - 1 + e ≤ Int.log 2 r :=
      (Int.zpow_le_iff_le_log one_lt_two hr).mp (by exact_mod_cast hfull)
    simp only [unitOf]
    omega

/-- The unit of a magnitude that has a pattern is its own exponent. -/
theorem Canonical.unitOf_value {m : Magnitude} (h : f.Canonical m) (hp : 0 < f.precision)
    (hpos : 0 < m.significand) : f.unitOf m.value = m.exponent := by
  have hvalue : 0 < m.value := by
    simp only [Magnitude.value]
    positivity
  have hhigh : (m.significand : ℚ) < 2 * f.hiddenBit := by exact_mod_cast h.high
  refine unitOf_eq hp hvalue h.low (h.full.imp_right fun hfull => ?_) ?_
  · rw [Magnitude.value]
    gcongr
  · rw [Magnitude.value]
    gcongr

/-- The magnitude that a positive ratio is rounded to, before its pattern is cut off. -/
def rounded (f : Format) (num den : Nat) : Magnitude :=
  let unit := f.unitOf (num / den)
  let scaled := shiftRatio num den (-unit)
  ⟨roundHalfEven scaled.1 scaled.2, unit⟩

theorem roundRatio_eq {num den : Nat} (hnum : 0 < num) (hden : 0 < den) :
    f.roundRatio num den = min (f.pattern (f.rounded num den)) f.infinityBits := by
  simp only [roundRatio]
  rw [if_neg hnum.ne', floorLog2_eq_log hnum hden]
  rfl

theorem scaled_pos {num den : Nat} (hden : 0 < den) :
    0 < (shiftRatio num den (-f.unitOf (num / den))).2 := shiftRatio_pos hden _

theorem scaled_div (num den : Nat) :
    ((shiftRatio num den (-f.unitOf (num / den))).1 : ℚ) /
      (shiftRatio num den (-f.unitOf (num / den))).2 = num / den / 2 ^ f.unitOf (num / den) := by
  rw [shiftRatio_div, zpow_neg, div_eq_mul_inv _ ((2 : ℚ) ^ f.unitOf _)]

variable {num den num' den' : Nat}

theorem significand_rounded_le (hp : 0 < f.precision) (hden : 0 < den) :
    (f.rounded num den).significand ≤ 2 * f.hiddenBit := by
  have hbound : roundHalfEven (2 * f.hiddenBit) 1 = 2 * f.hiddenBit :=
    roundHalfEven_of_eq one_pos (by simp)
  refine (roundHalfEven_mono (scaled_pos hden) one_pos ?_).trans_eq hbound
  rw [scaled_div, Nat.cast_one, div_one]
  exact_mod_cast (div_unitOf_lt hp _).le

theorem hiddenBit_le_significand_rounded (hp : 0 < f.precision) (hnum : 0 < num) (hden : 0 < den)
    (h : f.minExponent < (f.rounded num den).exponent) :
    f.hiddenBit ≤ (f.rounded num den).significand := by
  have hr : (0 : ℚ) < num / den := by positivity
  have hbound : roundHalfEven f.hiddenBit 1 = f.hiddenBit := roundHalfEven_of_eq one_pos (by simp)
  refine hbound.symm.trans_le (roundHalfEven_mono one_pos (scaled_pos hden) ?_)
  rw [scaled_div, Nat.cast_one, div_one]
  exact hiddenBit_le_div_unitOf hp hr h

theorem pattern_rounded_mono (hp : 0 < f.precision) (hnum : 0 < num) (hden : 0 < den)
    (hden' : 0 < den') (h : (num : ℚ) / den ≤ num' / den') :
    f.pattern (f.rounded num den) ≤ f.pattern (f.rounded num' den') := by
  have hr : (0 : ℚ) < num / den := by positivity
  have hnum' : 0 < num' := by
    refine Nat.pos_of_ne_zero ?_
    rintro rfl
    rw [Nat.cast_zero, zero_div] at h
    exact h.not_gt hr
  have hmin : f.minExponent ≤ f.unitOf (num / den) := minExponent_le_unitOf
  rcases (unitOf_mono (f := f) hr h).lt_or_eq with hless | heq
  · -- a larger unit makes up for any significand
    have hhigh : (f.rounded num den).significand ≤ 2 * f.hiddenBit :=
      significand_rounded_le hp hden
    have hfull : f.hiddenBit ≤ (f.rounded num' den').significand :=
      hiddenBit_le_significand_rounded hp hnum' hden' (hmin.trans_lt hless)
    have hsteps : (f.unitOf (num / den) - f.minExponent).toNat + 1
        ≤ (f.unitOf (num' / den') - f.minExponent).toNat := by omega
    have hmul := Nat.mul_le_mul_right f.hiddenBit hsteps
    rw [Nat.add_mul, Nat.one_mul] at hmul
    show (f.unitOf _ - _).toNat * _ + (f.rounded num den).significand
      ≤ (f.unitOf _ - _).toNat * _ + (f.rounded num' den').significand
    omega
  · have hsignificand : (f.rounded num den).significand ≤ (f.rounded num' den').significand := by
      refine roundHalfEven_mono (scaled_pos hden) (scaled_pos hden') ?_
      rw [scaled_div, scaled_div, heq]
      gcongr
    show (f.unitOf _ - _).toNat * _ + _ ≤ (f.unitOf _ - _).toNat * _ + _
    rw [heq]
    exact Nat.add_le_add_left hsignificand _

/-- Rounding keeps the order. -/
theorem roundRatio_mono (hp : 0 < f.precision) (hden : 0 < den) (hden' : 0 < den')
    (h : (num : ℚ) / den ≤ num' / den') : f.roundRatio num den ≤ f.roundRatio num' den' := by
  rcases Nat.eq_zero_or_pos num with rfl | hnum
  · exact Nat.zero_le _
  · have hr : (0 : ℚ) < num' / den' := lt_of_lt_of_le (by positivity) h
    have hnum' : 0 < num' := by
      refine Nat.pos_of_ne_zero ?_
      rintro rfl
      rw [Nat.cast_zero, zero_div] at hr
      exact lt_irrefl _ hr
    rw [roundRatio_eq hnum hden, roundRatio_eq hnum' hden']
    exact min_le_min_right _ (pattern_rounded_mono hp hnum hden hden' h)

/-- Rounding leaves alone what the format can hold. -/
theorem roundRatio_of_canonical {m : Magnitude} (hp : 0 < f.precision) (hden : 0 < den)
    (hm : f.Canonical m) (h : (num : ℚ) / den = m.value) :
    f.roundRatio num den = min (f.pattern m) f.infinityBits := by
  have hd : (den : ℚ) ≠ 0 := by exact_mod_cast hden.ne'
  rcases Nat.eq_zero_or_pos m.significand with hzero | hpos
  · have hnum : num = 0 := by
      rw [Magnitude.value, hzero, Nat.cast_zero, zero_mul, div_eq_zero_iff] at h
      exact_mod_cast h.resolve_right hd
    have hexp : m.exponent = f.minExponent :=
      hm.full.resolve_right (by have := f.hiddenBit_pos; omega)
    simp [roundRatio, hnum, pattern, hzero, hexp]
  · have hnum : 0 < num := by
      refine Nat.pos_of_ne_zero ?_
      rintro rfl
      have hvalue : 0 < m.value := by
        simp only [Magnitude.value]
        positivity
      rw [← h, Nat.cast_zero, zero_div] at hvalue
      exact lt_irrefl _ hvalue
    have hunit : f.unitOf (num / den) = m.exponent := by rw [h, hm.unitOf_value hp hpos]
    have hsignificand : (f.rounded num den).significand = m.significand := by
      refine roundHalfEven_of_eq (scaled_pos hden) ?_
      rw [scaled_div, hunit, h, Magnitude.value, mul_div_cancel_right₀]
      positivity
    have hrounded : f.rounded num den = m := by
      cases m
      simp only [rounded, Magnitude.mk.injEq] at *
      exact ⟨hsignificand, hunit⟩
    rw [roundRatio_eq hnum hden, hrounded]

/-- A finite pattern is that of its own number. -/
theorem roundRatio_magnitude {bits : Nat} (hp : 0 < f.precision) (hden : 0 < den)
    (hbits : bits ≤ f.infinityBits) (h : (num : ℚ) / den = (f.magnitude bits).value) :
    f.roundRatio num den = bits := by
  rw [roundRatio_of_canonical hp hden (f.canonical_magnitude bits) h, pattern_magnitude,
    min_eq_left hbits]

/-- Patterns are in the order of their numbers. -/
theorem value_mono {bits bits' : Nat} (hp : 0 < f.precision) (h : bits ≤ bits')
    (hfinite : bits' ≤ f.infinityBits) :
    (f.magnitude bits).value ≤ (f.magnitude bits').value := by
  by_contra hless
  have hround : f.roundRatio (f.magnitude bits').ratio.1 (f.magnitude bits').ratio.2
      ≤ f.roundRatio (f.magnitude bits).ratio.1 (f.magnitude bits).ratio.2 := by
    refine roundRatio_mono hp (Magnitude.ratio_pos _) (Magnitude.ratio_pos _) ?_
    rw [Magnitude.ratio_div, Magnitude.ratio_div]
    exact (not_le.mp hless).le
  rw [roundRatio_magnitude hp (Magnitude.ratio_pos _) hfinite (Magnitude.ratio_div _),
    roundRatio_magnitude hp (Magnitude.ratio_pos _) (h.trans hfinite) (Magnitude.ratio_div _)]
    at hround
  exact hless (by rw [Nat.le_antisymm h hround])

/-- What the significand and the exponent of a format can hold has a pattern. -/
theorem exists_canonical {s : Nat} {e : Int} (hp : 0 < f.precision) (hs : s < 2 * f.hiddenBit)
    (he : f.minExponent ≤ e) :
    ∃ m, f.Canonical m ∧ m.value = s * 2 ^ e ∧ m.exponent ≤ e := by
  rcases Nat.eq_zero_or_pos s with rfl | hpos
  · exact ⟨⟨0, f.minExponent⟩, ⟨le_rfl, by have := f.hiddenBit_pos; simpa using this, .inl rfl⟩,
      by simp [Magnitude.value], he⟩
  · have hr : (0 : ℚ) < s * 2 ^ e := by positivity
    have hlog : (s : ℚ) * 2 ^ e < 2 ^ ((f.precision : Int) + e) := by
      have hhigh : (s : ℚ) < 2 * f.hiddenBit := by exact_mod_cast hs
      have hwidth : (2 : ℚ) * f.hiddenBit = 2 ^ (f.precision : Int) := by
        rw [hiddenBit_eq hp, ← zpow_one_add₀ two_ne_zero, add_sub_cancel]
      rw [hwidth] at hhigh
      rw [zpow_add₀ two_ne_zero]
      gcongr
    have hless : Int.log 2 ((s : ℚ) * 2 ^ e) < f.precision + e :=
      (Int.lt_zpow_iff_log_lt one_lt_two hr).mp (by exact_mod_cast hlog)
    have hunit : f.unitOf (s * 2 ^ e) ≤ e := by
      simp only [unitOf]
      omega
    -- the significand grows as the unit shrinks
    obtain ⟨k, hk⟩ := Int.le.dest hunit
    have hscaled : (s : ℚ) * 2 ^ e / 2 ^ f.unitOf (s * 2 ^ e) = ((s * 2 ^ k : Nat) : ℚ) := by
      rw [div_eq_iff (by positivity)]
      push_cast
      rw [mul_assoc, ← zpow_natCast, ← zpow_add₀ two_ne_zero, Int.add_comm, hk]
    refine ⟨⟨s * 2 ^ k, f.unitOf (s * 2 ^ e)⟩, ⟨minExponent_le_unitOf, ?_, ?_⟩, ?_, hunit⟩
    · have hbound := div_unitOf_lt hp ((s : ℚ) * 2 ^ e)
      rw [hscaled] at hbound
      exact_mod_cast hbound
    · rcases (minExponent_le_unitOf (f := f) (r := s * 2 ^ e)).lt_or_eq with hlow | heq
      · have hbound := hiddenBit_le_div_unitOf hp hr hlow
        rw [hscaled] at hbound
        exact .inr (by exact_mod_cast hbound)
      · exact .inl heq.symm
    · rw [Magnitude.value, ← hscaled, div_mul_cancel₀]
      positivity

theorem Canonical.pattern_lt {m : Magnitude} (h : f.Canonical m) {e : Int} (he : m.exponent ≤ e) :
    f.pattern m < ((e - f.minExponent).toNat + 2) * f.hiddenBit := by
  have hlow := h.low
  have hhigh := h.high
  have hsteps : (m.exponent - f.minExponent).toNat ≤ (e - f.minExponent).toNat := by omega
  have hmul := Nat.mul_le_mul_right f.hiddenBit hsteps
  rw [pattern, Nat.add_mul]
  omega

/-- A finite pattern with its sign is read as it was written. -/
theorem reading_ofRatio {negative : Bool} (hsign : f.infinityBits < f.signWeight)
    (h : f.roundRatio num den < f.infinityBits) :
    f.reading (f.ofRatio negative num den)
      = .finite negative (f.magnitude (f.roundRatio num den)) := by
  have hlt : f.roundRatio num den < f.signWeight := h.trans hsign
  cases negative with
  | true =>
    simp only [ofRatio, reading, if_true]
    rw [Nat.add_mod_right, Nat.mod_eq_of_lt hlt, if_pos h, decide_eq_true (Nat.le_add_left ..)]
  | false =>
    simp only [ofRatio, reading, Bool.false_eq_true, if_false, Nat.add_zero]
    rw [Nat.mod_eq_of_lt hlt, if_pos h, decide_eq_false (Nat.not_le.mpr hlt)]

end Format

/-! ## Widening and narrowing -/

theorem Double.reading_ofRatio {negative : Bool} {num den : Nat}
    (h : Format.double.roundRatio num den < Format.double.infinityBits) :
    (Double.ofRatio negative num den).reading
      = .finite negative (Format.double.magnitude (Format.double.roundRatio num den)) := by
  have hsize : Format.double.ofRatio negative num den < 2 ^ 64 := by
    have hinf : Format.double.infinityBits < 2 ^ 63 := by decide
    have hsign : Format.double.signWeight = 2 ^ 63 := by decide
    simp only [Format.ofRatio]
    split <;> omega
  show Format.double.reading (UInt64.ofNat (Format.double.ofRatio negative num den)).toNat = _
  rw [UInt64.toNat_ofNat', Nat.mod_eq_of_lt hsize]
  exact Format.reading_ofRatio (by decide) h

namespace Single

theorem reading_of_isFinite {x : Single} (h : x.isFinite = true) :
    x.reading = .finite (decide (Format.single.signWeight ≤ x.bits.toNat))
      (Format.single.magnitude (x.bits.toNat % Format.single.signWeight)) :=
  if_pos (of_decide_eq_true h)

theorem exponent_magnitude_le {bits : Nat} (h : bits < Format.single.infinityBits) :
    (Format.single.magnitude bits).exponent ≤ 104 := by
  have hfield : bits / Format.single.hiddenBit < 255 := Nat.div_lt_of_lt_mul h
  have hmin : Format.single.minExponent = -149 := by decide
  simp only [Format.magnitude, hmin]
  split
  · show (-149 : Int) ≤ 104
    decide
  · dsimp only
    omega

/-- A finite number has its own pattern, sign and all. -/
theorem ofRatio_magnitude {x : Single} (h : x.isFinite = true) {num den : Nat} (hden : 0 < den)
    (hvalue : (num : ℚ) / den
      = (Format.single.magnitude (x.bits.toNat % Format.single.signWeight)).value) :
    Single.ofRatio (decide (Format.single.signWeight ≤ x.bits.toNat)) num den = x := by
  have hfinite : x.bits.toNat % Format.single.signWeight < Format.single.infinityBits :=
    of_decide_eq_true h
  have hround := Format.roundRatio_magnitude (f := Format.single) (by decide) hden hfinite.le hvalue
  have hbits : Format.single.ofRatio (decide (Format.single.signWeight ≤ x.bits.toNat)) num den
      = x.bits.toNat := by
    have hsign : Format.single.signWeight = 2 ^ 31 := by decide
    have hsize := x.bits.toNat_lt
    rw [Format.ofRatio, hround, hsign]
    split
    · rename_i hneg
      have hle := of_decide_eq_true hneg
      omega
    · rename_i hneg
      have hlt := of_decide_eq_false (Bool.eq_false_iff.mpr hneg)
      omega
  show (⟨UInt32.ofNat _⟩ : Single) = x
  rw [hbits, UInt32.ofNat_toNat]

/-- A finite number that is widened comes back. -/
theorem toSingle_toDouble {x : Single} (h : x.isFinite = true) : x.toDouble.toSingle = x := by
  have hfinite : x.bits.toNat % Format.single.signWeight < Format.single.infinityBits :=
    of_decide_eq_true h
  generalize hm : Format.single.magnitude (x.bits.toNat % Format.single.signWeight) = m
  have hcanonical : Format.single.Canonical m := hm ▸ Format.single.canonical_magnitude _
  have hexponent : m.exponent ≤ 104 := hm ▸ exponent_magnitude_le hfinite
  -- the wide format has a pattern for the same number
  obtain ⟨w, hw, hvalue, hwexponent⟩ : ∃ w, Format.double.Canonical w ∧
      w.value = m.significand * 2 ^ m.exponent ∧ w.exponent ≤ m.exponent := by
    refine Format.exists_canonical (by decide) (hcanonical.high.trans_le (by decide)) ?_
    exact le_trans (by decide) hcanonical.low
  have hlt : Format.double.pattern w < Format.double.infinityBits :=
    (hw.pattern_lt (hwexponent.trans hexponent)).trans (by decide)
  have hround : Format.double.roundRatio m.ratio.1 m.ratio.2 = Format.double.pattern w := by
    rw [Format.roundRatio_of_canonical (by decide) m.ratio_pos hw
      (m.ratio_div.trans hvalue.symm), min_eq_left hlt.le]
  have hdouble : x.toDouble
      = .ofRatio (decide (Format.single.signWeight ≤ x.bits.toNat)) m.ratio.1 m.ratio.2 := by
    simp only [toDouble, reading_of_isFinite h, hm]
  rw [hdouble, Double.toSingle, Double.reading_ofRatio (hround.trans_lt hlt), hround,
    Format.magnitude_pattern hw]
  refine ofRatio_magnitude h w.ratio_pos ?_
  rw [w.ratio_div, hvalue, hm]
  rfl

end Single

end ServingPlane.Numeric
