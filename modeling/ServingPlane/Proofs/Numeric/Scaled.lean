import Mathlib.Algebra.Order.Floor.Semifield
import ServingPlane.Numeric.Notation
import ServingPlane.Numeric.Scaled
import ServingPlane.Proofs.Numeric.Shortest

/-! # Bounds on scaled decimals

    A decimal that a document gives is scaled in floating point, and what
    comes out may miss the nearest number.  It misses it by little: below a
    bound, rounding stays below the bound as far as the format has it, and
    above every number of moderate size the format has one that is hardly
    larger.  Scaling down makes nothing larger at all.  So the text of a
    finite four-byte number, which is at most that of the largest one, is
    read back as a number that is narrowed to a finite one again. -/

namespace ServingPlane.Numeric

/-! ## Rounding below a bound -/

namespace Format

variable {f : Format} {num den : Nat} {w : Magnitude}

/-- What is at most a number of the format is rounded to at most its pattern. -/
theorem roundRatio_le_pattern (hp : 0 < f.precision) (hden : 0 < den) (hw : f.Canonical w)
    (h : (num : ℚ) / den ≤ w.value) : f.roundRatio num den ≤ f.pattern w := by
  have hround := roundRatio_mono (f := f) hp hden w.ratio_pos (h.trans_eq w.ratio_div.symm)
  rw [roundRatio_of_canonical hp w.ratio_pos hw w.ratio_div] at hround
  exact hround.trans (min_le_left _ _)

theorem value_roundRatio_le (hp : 0 < f.precision) (hden : 0 < den) (hw : f.Canonical w)
    (hfinite : f.pattern w ≤ f.infinityBits) (h : (num : ℚ) / den ≤ w.value) :
    (f.magnitude (f.roundRatio num den)).value ≤ w.value := by
  have hmono := value_mono hp (roundRatio_le_pattern hp hden hw h) hfinite
  rwa [magnitude_pattern hw] at hmono

/-- The exponent of a magnitude grows with its pattern. -/
theorem exponent_magnitude_mono {bits bits' : Nat} (h : bits ≤ bits') :
    (f.magnitude bits).exponent ≤ (f.magnitude bits').exponent := by
  have hfield : bits / f.hiddenBit ≤ bits' / f.hiddenBit := Nat.div_le_div_right h
  simp only [Format.magnitude]
  generalize bits / f.hiddenBit = field at *
  generalize bits' / f.hiddenBit = field' at *
  split
  · split
    · exact le_rfl
    · dsimp only
      omega
  · rw [if_neg (by omega)]
    dsimp only
    omega

end Format

namespace Double

/-- The eight-byte format has a number hardly above any of moderate size. -/
theorem exists_above {r : ℚ} (hlow : 1 ≤ r) (hhigh : r < 2 ^ (200 : Int)) :
    ∃ w, Format.double.Canonical w ∧ Format.double.pattern w < Format.double.infinityBits ∧
      r ≤ w.value ∧ w.value ≤ r * (1 + 1 / 2 ^ 51) := by
  have hr : 0 < r := one_pos.trans_le hlow
  have hlogLow : 0 ≤ Int.log 2 r :=
    (Int.zpow_le_iff_le_log one_lt_two hr).mp (by simpa using hlow)
  have hlogHigh : Int.log 2 r < 200 :=
    (Int.lt_zpow_iff_log_lt one_lt_two hr).mp (by exact_mod_cast hhigh)
  have hself : (2 : ℚ) ^ Int.log 2 r ≤ r := by exact_mod_cast Int.zpow_log_le_self one_lt_two hr
  have hnext : r < 2 ^ (Int.log 2 r + 1) := by
    exact_mod_cast Int.lt_zpow_succ_log_self one_lt_two r
  generalize Int.log 2 r = l at *
  -- a number of fifty-two bits, in units that are small against `r`
  have hscaled : r / 2 ^ (l - 51) < 2 ^ 52 := by
    rw [div_lt_iff₀ (by positivity), ← zpow_natCast, ← zpow_add₀ two_ne_zero]
    refine hnext.trans_eq ?_
    congr 1
    push_cast
    ring
  have hceil : ⌈r / 2 ^ (l - 51)⌉₊ ≤ 2 ^ 52 := by
    rw [Nat.ceil_le]
    exact_mod_cast hscaled.le
  obtain ⟨w, hw, hvalue, hexponent⟩ := Format.exists_canonical (f := Format.double) (by decide)
    (hceil.trans_lt (by decide)) (e := l - 51) (by
      have hmin : Format.double.minExponent = -1074 := by decide
      omega)
  refine ⟨w, hw, ?_, ?_, ?_⟩
  · have hlt := hw.pattern_lt (hexponent.trans (show l - 51 ≤ 149 by omega))
    exact hlt.trans (by decide)
  · rw [hvalue, ← div_le_iff₀ (by positivity)]
    exact Nat.le_ceil _
  · have hle : (⌈r / 2 ^ (l - 51)⌉₊ : ℚ) ≤ r / 2 ^ (l - 51) + 1 :=
      (Nat.ceil_lt_add_one (by positivity)).le
    calc w.value = ⌈r / 2 ^ (l - 51)⌉₊ * 2 ^ (l - 51) := hvalue
      _ ≤ (r / 2 ^ (l - 51) + 1) * 2 ^ (l - 51) := by gcongr
      _ = r + 2 ^ (l - 51) := by
        rw [add_mul, one_mul, div_mul_cancel₀]
        positivity
      _ = r + 2 ^ l * (1 / 2 ^ 51) := by
        rw [zpow_sub₀ two_ne_zero, div_eq_mul_one_div]
        norm_num
      _ ≤ r + r * (1 / 2 ^ 51) := by gcongr
      _ = r * (1 + 1 / 2 ^ 51) := by ring

/-- Rounding hardly makes a natural of moderate size larger. -/
theorem value_round_le {n : Nat} (hlow : 1 ≤ n) (hhigh : n < 2 ^ 200) :
    (Format.double.magnitude (Format.double.roundRatio n 1)).value ≤ n * (1 + 1 / 2 ^ 51) := by
  obtain ⟨w, hw, hfinite, habove, hbound⟩ := exists_above (r := n) (by exact_mod_cast hlow)
    (by exact_mod_cast hhigh)
  refine (Format.value_roundRatio_le (by decide) one_pos hw hfinite.le ?_).trans hbound
  rwa [Nat.cast_one, div_one]

end Double

/-! ## Scaling -/

section Scaling

variable {x y : Magnitude}

theorem roundProduct_le {w : Magnitude} (hw : Format.double.Canonical w)
    (h : x.value * y.value ≤ w.value) : roundProduct x y ≤ Format.double.pattern w := by
  show Format.double.roundRatio (x.ratio.1 * y.ratio.1) (x.ratio.2 * y.ratio.2) ≤ _
  refine Format.roundRatio_le_pattern (by decide) (Nat.mul_pos x.ratio_pos y.ratio_pos) hw ?_
  rw [Nat.cast_mul, Nat.cast_mul, mul_div_mul_comm, x.ratio_div, y.ratio_div]
  exact h

/-- Dividing by what is at least one makes a number no larger. -/
theorem roundQuotient_le (hx : Format.double.Canonical x) (hy : 1 ≤ y.value) :
    roundQuotient x y ≤ Format.double.pattern x := by
  have hnum : 0 < y.ratio.1 := by
    refine Nat.pos_of_ne_zero fun h => ?_
    have hdiv := y.ratio_div
    rw [h, Nat.cast_zero, zero_div] at hdiv
    linarith
  show Format.double.roundRatio (x.ratio.1 * y.ratio.2) (x.ratio.2 * y.ratio.1) ≤ _
  refine Format.roundRatio_le_pattern (by decide) (Nat.mul_pos x.ratio_pos hnum) hx ?_
  rw [Nat.cast_mul, Nat.cast_mul, mul_div_mul_comm, x.ratio_div, ← inv_div, y.ratio_div]
  refine mul_le_of_le_one_right ?_ (inv_le_one_of_one_le₀ hy)
  rw [Magnitude.value]
  positivity

theorem one_le_powerOfTen (k : Nat) : 1 ≤ (powerOfTen k).value := by
  have hround : Format.double.roundRatio 1 1 ≤ Format.double.roundRatio (Nat.pow 10 k) 1 := by
    refine Format.roundRatio_mono (by decide) one_pos one_pos ?_
    have hpow : (1 : ℚ) ≤ (Nat.pow 10 k : Nat) := by
      exact_mod_cast Nat.one_le_pow k 10 (by decide)
    simpa using hpow
  have hfinite : Format.double.roundRatio (Nat.pow 10 k) 1 ≤ Format.double.infinityBits := by
    simp only [Format.roundRatio]
    split
    · exact Nat.zero_le _
    · exact min_le_right _ _
  have hone : (Format.double.magnitude (Format.double.roundRatio 1 1)).value = 1 := by
    rw [show Format.double.magnitude (Format.double.roundRatio 1 1) = ⟨2 ^ 52, -52⟩ by
      decide +kernel]
    norm_num [Magnitude.value]
  exact hone.symm.trans_le (Format.value_mono (by decide) hround hfinite)

/-- Scaling down succeeds, and makes nothing larger. -/
theorem scalePattern_of_neg (fuel bits : Nat) {e : Int} (he : e < 0) :
    ∃ scaled ≤ bits, scalePattern fuel bits e = some scaled := by
  have hquotient (bits k : Nat) :
      roundQuotient (Format.double.magnitude bits) (powerOfTen k) ≤ bits := by
    have hle := roundQuotient_le (Format.double.canonical_magnitude bits) (one_le_powerOfTen k)
    rwa [Format.pattern_magnitude] at hle
  induction fuel generalizing bits e with
  | zero => exact ⟨0, Nat.zero_le _, rfl⟩
  | succ fuel ih =>
    rw [scalePattern]
    split
    · exact ⟨_, hquotient _ _, rfl⟩
    rename_i hfar
    split
    · exact ⟨0, Nat.zero_le _, rfl⟩
    · have hstill : e + maxPower < 0 := by
        have : maxPower = 308 := rfl
        omega
      obtain ⟨scaled, hle, hscaled⟩ := ih
        (roundQuotient (Format.double.magnitude bits) (powerOfTen maxPower)) hstill
      exact ⟨scaled, hle.trans (hquotient _ _), hscaled⟩

end Scaling

/-! ## Four-byte numbers -/

namespace Single

/-- A quarter of a unit above the largest finite number: it is rounded down. -/
def ceiling : Magnitude := ⟨(2 ^ 26 - 3) * 2 ^ 27, 75⟩

theorem canonical_ceiling : Format.double.Canonical ceiling := by
  refine ⟨?_, ?_, .inr ?_⟩ <;> decide +kernel

theorem pattern_ceiling_lt : Format.double.pattern ceiling < Format.double.infinityBits := by
  decide +kernel

/-- Scaling up succeeds where the product stays below the ceiling. -/
theorem scalePattern_of_product {fuel bits n : Nat} (hn : n ≤ maxPower)
    (h : roundProduct (Format.double.magnitude bits) (powerOfTen n)
      ≤ Format.double.pattern ceiling) :
    ∃ scaled ≤ Format.double.pattern ceiling, scalePattern (fuel + 1) bits n = some scaled := by
  refine ⟨_, h, ?_⟩
  rw [scalePattern, Int.natAbs_natCast, if_pos hn, if_neg (Int.not_lt.mpr (Int.natCast_nonneg n))]
  exact if_pos (h.trans_lt pattern_ceiling_lt)

theorem value_ceiling : ceiling.value = (2 ^ 26 - 3) * 2 ^ 102 := by
  norm_num [Magnitude.value, ceiling]

/-- Scaling down succeeds, and ends far below the ceiling. -/
theorem scalePattern_le_of_neg {s : Nat} {e : Int} (hs : s < UInt64.size) (hneg : e < 0) :
    ∃ bits ≤ Format.double.pattern ceiling,
      scalePattern 3 (Format.double.roundRatio s 1) e = some bits := by
  obtain ⟨bits, hle, hbits⟩ := scalePattern_of_neg 3 (Format.double.roundRatio s 1) hneg
  refine ⟨bits, hle.trans ?_, hbits⟩
  refine Format.roundRatio_le_pattern (by decide) one_pos canonical_ceiling ?_
  have hsize : (s : ℚ) ≤ 2 ^ 64 := by exact_mod_cast hs.le
  rw [Nat.cast_one, div_one, value_ceiling]
  exact hsize.trans (by norm_num)

/-- Nothing is scaled to nothing, by whatever power. -/
theorem scalePattern_le_of_nothing (n : Nat) :
    ∃ bits ≤ Format.double.pattern ceiling,
      scalePattern 3 (Format.double.roundRatio 0 1) n = some bits := by
  by_cases hn : n ≤ maxPower
  · refine scalePattern_of_product hn (roundProduct_le canonical_ceiling ?_)
    rw [show (Format.double.magnitude (Format.double.roundRatio 0 1)).value = 0 from zero_mul _,
      zero_mul, value_ceiling]
    norm_num
  · refine ⟨0, Nat.zero_le _, ?_⟩
    rw [scalePattern, Int.natAbs_natCast, if_neg hn]
    exact if_pos rfl

/-- A decimal that is hardly above the largest four-byte number stays below
    the ceiling when it is scaled: both roundings add little. -/
theorem scalePattern_le {s : Nat} {e : Int} (hs : s < UInt64.size)
    (h : (s : ℚ) * 10 ^ e ≤ 34028235 * 10 ^ 31 + 2 ^ 76) :
    ∃ bits ≤ Format.double.pattern ceiling,
      scalePattern 3 (Format.double.roundRatio s 1) e = some bits := by
  rcases Int.lt_or_le e 0 with hneg | hpos
  · exact scalePattern_le_of_neg hs hneg
  obtain ⟨n, rfl⟩ := Int.eq_ofNat_of_zero_le hpos
  rcases Nat.eq_zero_or_pos s with rfl | hsome
  · exact scalePattern_le_of_nothing n
  rw [zpow_natCast] at h
  have hone : (1 : ℚ) ≤ s := by exact_mod_cast hsome
  have hpow : (10 : ℚ) ^ n ≤ s * 10 ^ n := le_mul_of_one_le_left (by positivity) hone
  have hn : n ≤ 38 := by
    by_contra hfar
    have hlarge : (10 : ℚ) ^ 39 ≤ 10 ^ n := pow_le_pow_right₀ (by norm_num) (by omega)
    norm_num at h hlarge
    linarith
  have hsignificand : (Format.double.magnitude (Format.double.roundRatio s 1)).value
      ≤ s * (1 + 1 / 2 ^ 51) := Double.value_round_le hsome (hs.trans (by decide))
  have hpower : (powerOfTen n).value ≤ 10 ^ n * (1 + 1 / 2 ^ 51) := by
    have hlarge : 10 ^ n < 2 ^ 200 := (Nat.pow_le_pow_right (by decide) hn).trans_lt (by decide)
    exact_mod_cast Double.value_round_le (Nat.one_le_pow n 10 (by decide)) hlarge
  refine scalePattern_of_product (hn.trans (by decide)) (roundProduct_le canonical_ceiling ?_)
  calc (Format.double.magnitude (Format.double.roundRatio s 1)).value * (powerOfTen n).value
      ≤ s * (1 + 1 / 2 ^ 51) * (10 ^ n * (1 + 1 / 2 ^ 51)) := by
        refine mul_le_mul hsignificand hpower ?_ (by positivity)
        exact zero_le_one.trans (one_le_powerOfTen n)
    _ = s * 10 ^ n * (1 + 1 / 2 ^ 51) ^ 2 := by ring
    _ ≤ (34028235 * 10 ^ 31 + 2 ^ 76) * (1 + 1 / 2 ^ 51) ^ 2 := by gcongr
    _ ≤ (2 ^ 26 - 3) * 2 ^ 102 := by norm_num
    _ = ceiling.value := value_ceiling.symm

/-- The shortest decimal of a finite number is at most that of the largest one. -/
theorem shortest_le {m : Magnitude} (hm : Format.single.Canonical m) (he : m.exponent ≤ 104) :
    (Format.single.shortest .even m).value ≤ 34028235 * 10 ^ 31 := by
  have hhigh : m.significand < 2 ^ 24 := hm.high
  obtain ⟨s, e⟩ := m
  dsimp only at he hhigh
  rcases Nat.eq_zero_or_pos s with rfl | hpos
  · rw [show Format.single.shortest .even ⟨0, e⟩ = ⟨0, 0⟩ from rfl]
    norm_num [Decimal.value]
  by_cases hlargest : s = 2 ^ 24 - 1 ∧ e = 104
  · obtain ⟨rfl, rfl⟩ := hlargest
    rw [show Format.single.shortest .even ⟨2 ^ 24 - 1, 104⟩ = ⟨34028235, 31⟩ by decide +kernel]
    norm_num [Decimal.value]
  refine (Format.shortest_bounds .even hm hpos (by decide) (by dsimp only; omega)).2.trans ?_
  have hhalf : (s : ℚ) * 2 ^ e + 2 ^ (e - 1) = (2 * s + 1 : Nat) * 2 ^ (e - 1) := by
    rw [show e = e - 1 + 1 by omega, zpow_add_one₀ two_ne_zero, Int.add_sub_cancel]
    push_cast
    ring
  show (s : ℚ) * 2 ^ e + 2 ^ (e - 1) ≤ _
  rw [hhalf]
  rcases he.lt_or_eq with hlower | rfl
  · calc ((2 * s + 1 : Nat) : ℚ) * 2 ^ (e - 1) ≤ (2 ^ 25 : Nat) * 2 ^ (102 : Int) := by
          gcongr
          · omega
          · exact one_le_two
          · omega
      _ ≤ 34028235 * 10 ^ 31 := by norm_num
  · calc ((2 * s + 1 : Nat) : ℚ) * 2 ^ (104 - 1 : Int) = (2 * s + 1 : Nat) * 2 ^ (103 : Int) := rfl
      _ ≤ (2 ^ 25 - 3 : Nat) * 2 ^ (103 : Int) := by
          gcongr
          omega
      _ ≤ 34028235 * 10 ^ 31 := by norm_num

/-- A document gets a finite number for a finite number, and its text is hardly larger. -/
theorem exists_asDocumentNumber {x : Single} (h : x.isFinite = true) :
    ∃ d negative m, x.asDocumentNumber? = some d ∧ d.reading = .finite negative m ∧
      m.value + 2 ^ (m.exponent - 1) ≤ 34028235 * 10 ^ 31 + 2 ^ 76 := by
  have hfinite : x.bits.toNat % Format.single.signWeight < Format.single.infinityBits :=
    of_decide_eq_true h
  generalize hm : Format.single.magnitude (x.bits.toNat % Format.single.signWeight) = m
  have hshortest : (Format.single.shortest .even m).value ≤ 34028235 * 10 ^ 31 := by
    have hlast : Format.single.magnitude (Format.single.infinityBits - 1) = ⟨2 ^ 24 - 1, 104⟩ := by
      decide +kernel
    have hexponent :=
      Format.exponent_magnitude_mono (f := Format.single) (Nat.le_sub_one_of_lt hfinite)
    rw [hlast, hm] at hexponent
    exact shortest_le (hm ▸ Format.single.canonical_magnitude _) hexponent
  -- the nearest number to the largest decimal bounds all of them
  have hlargest : Format.double.magnitude (Format.double.roundRatio (34028235 * 10 ^ 31) 1)
      = ⟨9007198806847480, 75⟩ := by decide +kernel
  have hround : Format.double.roundRatio (Format.single.shortest .even m).ratio.1
      (Format.single.shortest .even m).ratio.2
        ≤ Format.double.roundRatio (34028235 * 10 ^ 31) 1 := by
    refine Format.roundRatio_mono (by decide) (Decimal.ratio_pos _) one_pos ?_
    rw [Decimal.ratio_div]
    exact hshortest.trans_eq (by norm_num)
  have hbelow : Format.double.roundRatio (34028235 * 10 ^ 31) 1 < Format.double.infinityBits := by
    decide +kernel
  refine ⟨.ofRatio (decide (Format.single.signWeight ≤ x.bits.toNat))
    (Format.single.shortest .even m).ratio.1 (Format.single.shortest .even m).ratio.2, _, _, ?_,
    Double.reading_ofRatio (hround.trans_lt hbelow), ?_⟩
  · simp only [asDocumentNumber?, reading_of_isFinite h, hm]
  · have hvalue := Format.value_mono (f := Format.double) (by decide) hround hbelow.le
    have hexponent := Format.exponent_magnitude_mono (f := Format.double) hround
    rw [hlargest] at hvalue hexponent
    calc _ ≤ (⟨9007198806847480, 75⟩ : Magnitude).value + 2 ^ (75 - 1 : Int) := by
          gcongr
          exact one_le_two
      _ ≤ 34028235 * 10 ^ 31 + 2 ^ 76 := by norm_num [Magnitude.value]

/-- What stays below the ceiling is narrowed to a finite number. -/
theorem isFinite_toSingle {x : Double} {negative : Bool} {m : Magnitude}
    (h : x.reading = .finite negative m) (hm : m.value ≤ ceiling.value) :
    x.toSingle.isFinite = true := by
  have hround : Format.single.roundRatio m.ratio.1 m.ratio.2 < Format.single.infinityBits := by
    have hmono := Format.roundRatio_mono (f := Format.single) (by decide) m.ratio_pos
      ceiling.ratio_pos (by rwa [m.ratio_div, ceiling.ratio_div])
    exact hmono.trans_lt (by decide +kernel)
  have hnarrow : x.toSingle = .ofRatio negative m.ratio.1 m.ratio.2 := by
    simp only [Double.toSingle, h]
  have hinfinity : Format.single.infinityBits < 2 ^ 31 := by decide
  have hsign : Format.single.signWeight = 2 ^ 31 := by decide
  rw [hnarrow]
  refine decide_eq_true ?_
  show (UInt32.ofNat (Format.single.ofRatio negative _ _)).toNat % _ < _
  rw [UInt32.toNat_ofNat', hsign, Format.ofRatio, hsign]
  split <;> omega

end Single

/-- A finite number that a document got is read back as one that is narrowed
    to a finite number. -/
theorem exists_scaledDouble {s : Nat} {e : Int} (negative : Bool) (hs : s < UInt64.size)
    (h : (s : ℚ) * 10 ^ e ≤ 34028235 * 10 ^ 31 + 2 ^ 76) :
    ∃ x, scaledDouble? negative s e = some x ∧ x.toSingle.isFinite = true := by
  obtain ⟨bits, hle, hbits⟩ := Single.scalePattern_le hs h
  have hfinite : bits < Format.double.infinityBits := hle.trans_lt Single.pattern_ceiling_lt
  have hround := Format.roundRatio_magnitude (f := Format.double) (by decide)
    (Magnitude.ratio_pos _) hfinite.le (Magnitude.ratio_div _)
  refine ⟨.ofRatio negative (Format.double.magnitude bits).ratio.1
    (Format.double.magnitude bits).ratio.2, ?_, ?_⟩
  · rw [scaledDouble?, hbits, Option.map_some, Double.ofRatio, Format.ofRatio, hround]
  · refine Single.isFinite_toSingle (Double.reading_ofRatio (hround.trans_lt hfinite)) ?_
    rw [hround]
    have hmono := Format.value_mono (by decide) hle Single.pattern_ceiling_lt.le
    rwa [Format.magnitude_pattern Single.canonical_ceiling] at hmono

end ServingPlane.Numeric
