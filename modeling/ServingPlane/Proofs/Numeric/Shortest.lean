import Mathlib.Data.Nat.Cast.Order.Field
import ServingPlane.Numeric.Shortest
import ServingPlane.Proofs.Numeric.Rounding

/-! # Where shortest decimals lie

    The shortest decimal of a positive magnitude is one that rounds to it,
    so it is at most half a unit away.  The search for it ends: a grid
    whose step is less than half a unit has a hit, and the first grid is
    at most seventeen before such a one.  That the first grid is not
    coarser than it should be rests on how well `30103 / 100000`
    approximates the logarithm of two. -/

namespace ServingPlane.Numeric

/-! ## Powers of ten and of two -/

/-- The guess of a decimal exponent, `30103 / 100000` of the binary one, is hardly too large. -/
theorem ten_zpow_le_two_zpow {l : Int} (hl : l ≤ 100000) :
    (10 : ℚ) ^ (l * 30103 / 100000) ≤ 2 ^ (l + 1) := by
  have hten : 10 ^ 30103 ≤ 2 ^ 100001 := by decide +kernel
  have htwo : 2 ^ 100000 ≤ 10 ^ 30103 := by decide +kernel
  obtain ⟨n, rfl | rfl⟩ := l.eq_nat_or_neg
  · generalize hg : n * 30103 / 100000 = g
    have hguess : g * 100000 ≤ n * 30103 := hg ▸ Nat.div_mul_le_self ..
    have hpow : (10 ^ g) ^ 100000 ≤ (2 ^ (n + 1)) ^ 100000 := by
      calc (10 ^ g) ^ 100000 = 10 ^ (g * 100000) := (pow_mul ..).symm
        _ ≤ 10 ^ (30103 * n) := Nat.pow_le_pow_right (by decide) (by omega)
        _ = (10 ^ 30103) ^ n := pow_mul ..
        _ ≤ (2 ^ 100001) ^ n := Nat.pow_le_pow_left hten n
        _ = 2 ^ (100001 * n) := (pow_mul ..).symm
        _ ≤ 2 ^ ((n + 1) * 100000) := Nat.pow_le_pow_right (by decide) (by omega)
        _ = (2 ^ (n + 1)) ^ 100000 := pow_mul 2 (n + 1) 100000
    have hle : 10 ^ g ≤ 2 ^ (n + 1) := 
      (pow_le_pow_iff_left₀ (Nat.zero_le _) (Nat.zero_le _) (by decide)).mp hpow
    rw [show (n : Int) * 30103 / 100000 = (g : Int) by omega, zpow_natCast,
      show (n : Int) + 1 = ((n + 1 : Nat) : Int) by omega, zpow_natCast]
    exact_mod_cast hle
  · obtain ⟨m, hm⟩ : ∃ m : Nat, -(n : Int) * 30103 / 100000 = -(m : Int) :=
      ⟨(-(-(n : Int) * 30103 / 100000)).toNat, by omega⟩
    have hpow : (2 ^ n) ^ 100000 ≤ (10 ^ m) ^ 100000 := by
      calc (2 ^ n) ^ 100000 = 2 ^ (n * 100000) := (pow_mul ..).symm
        _ = 2 ^ (100000 * n) := by rw [Nat.mul_comm]
        _ = (2 ^ 100000) ^ n := pow_mul ..
        _ ≤ (10 ^ 30103) ^ n := Nat.pow_le_pow_left htwo n
        _ = 10 ^ (30103 * n) := (pow_mul ..).symm
        _ ≤ 10 ^ (m * 100000) := Nat.pow_le_pow_right (by decide) (by omega)
        _ = (10 ^ m) ^ 100000 := pow_mul ..
    have hle : 2 ^ n ≤ 10 ^ m := 
      (pow_le_pow_iff_left₀ (Nat.zero_le _) (Nat.zero_le _) (by decide)).mp hpow
    have hcast : (2 : ℚ) ^ n ≤ 10 ^ m := by exact_mod_cast hle
    rw [hm, zpow_neg, zpow_natCast]
    calc ((10 : ℚ) ^ m)⁻¹ ≤ (2 ^ n)⁻¹ := by gcongr
      _ = 2 ^ (-(n : Int)) := by rw [zpow_neg, zpow_natCast]
      _ ≤ 2 ^ (-(n : Int) + 1) := zpow_le_zpow_right₀ one_le_two (by omega)

/-! ## Decimals as numbers -/

namespace Decimal

/-- The number that a decimal stands for. -/
def value (d : Decimal) : ℚ := d.digits * 10 ^ d.exponent

theorem ratio_pos (d : Decimal) : 0 < d.ratio.2 := by
  obtain ⟨n, e⟩ := d
  cases e with
  | ofNat e => exact one_pos
  | negSucc e =>
    show 0 < Nat.pow 10 (e + 1)
    exact Nat.pow_pos (by decide)

theorem ratio_div (d : Decimal) : (d.ratio.1 : ℚ) / d.ratio.2 = d.value := by
  obtain ⟨n, e⟩ := d
  cases e with
  | ofNat e =>
    show ((n * 10 ^ e : Nat) : ℚ) / (1 : Nat) = n * 10 ^ (e : Int)
    rw [zpow_natCast]
    push_cast
    exact div_one _
  | negSucc e =>
    show (n : ℚ) / ((10 ^ (e + 1) : Nat) : ℚ) = n * 10 ^ Int.negSucc e
    rw [zpow_negSucc, ← div_eq_mul_inv]
    push_cast
    rfl

/-- A zero moved from the digits into the exponent changes nothing. -/
theorem value_trim (fuel : Nat) (d : Decimal) : (d.trim fuel).value = d.value := by
  induction fuel generalizing d with
  | zero => rfl
  | succ fuel ih =>
    rw [trim]
    split
    · rename_i h
      rw [ih]
      have hdigits : (d.digits : ℚ) = (d.digits / 10 : Nat) * 10 := by
        exact_mod_cast (Nat.div_mul_cancel (Nat.dvd_of_mod_eq_zero h.1)).symm
      simp only [value]
      rw [zpow_add_one₀ (by decide), hdigits]
      ring
    · rfl

end Decimal

/-- The decimal exponent of a ratio is not too large. -/
theorem ten_zpow_floorLog10_le {num den : Nat} (hnum : 0 < num) (hden : 0 < den)
    (hlog : Int.log 2 ((num : ℚ) / den) ≤ 100000) :
    (10 : ℚ) ^ floorLog10 num den ≤ num / den := by
  have hd : (0 : ℚ) < den := by exact_mod_cast hden
  have hr : (0 : ℚ) < num / den := by positivity
  unfold floorLog10
  rw [floorLog2_eq_log hnum hden]
  extract_lets guess atLeast
  have hatLeast (e : Int) (h : atLeast e = true) : (10 : ℚ) ^ e ≤ num / den := by
    rw [le_div_iff₀ hd]
    cases e with
    | ofNat k =>
      have hle : 10 ^ k * den ≤ num := of_decide_eq_true h
      show (10 : ℚ) ^ (k : Int) * den ≤ num
      rw [zpow_natCast]
      exact_mod_cast hle
    | negSucc k =>
      have hle : den ≤ num * 10 ^ (k + 1) := of_decide_eq_true h
      rw [zpow_negSucc, inv_mul_le_iff₀ (by positivity), mul_comm]
      exact_mod_cast hle
  split
  · exact hatLeast _ ‹_›
  split
  · exact hatLeast _ ‹_›
  -- the guess is less than ten times too large
  · have htwo : (2 : ℚ) ^ Int.log 2 ((num : ℚ) / den) ≤ num / den := by
      exact_mod_cast Int.zpow_log_le_self one_lt_two hr
    rw [zpow_sub_one₀ (by norm_num), ← div_eq_mul_inv, div_le_iff₀ (by norm_num)]
    calc (10 : ℚ) ^ guess ≤ 2 ^ (Int.log 2 ((num : ℚ) / den) + 1) := ten_zpow_le_two_zpow hlog
      _ = 2 ^ Int.log 2 ((num : ℚ) / den) * 2 := zpow_add_one₀ two_ne_zero _
      _ ≤ num / den * 10 := by gcongr; norm_num

/-! ## The search -/

namespace Interval

variable {i : Interval} {num den : Nat}

theorem contains_bounds (hi : 0 < i.den) (hden : 0 < den) (h : i.contains num den = true) :
    (i.low : ℚ) / i.den ≤ num / den ∧ (num : ℚ) / den ≤ i.high / i.den := by
  have hid : (0 : ℚ) < i.den := by exact_mod_cast hi
  have hd : (0 : ℚ) < den := by exact_mod_cast hden
  rw [div_le_div_iff₀ hid hd, div_le_div_iff₀ hd hid]
  simp only [contains] at h
  split at h
  · simp only [Bool.and_eq_true, decide_eq_true_eq] at h
    exact_mod_cast h
  · simp only [Bool.and_eq_true, decide_eq_true_eq] at h
    exact_mod_cast And.intro h.1.le h.2.le

theorem contains_bounds_of_open (hopen : i.closed = false) (hi : 0 < i.den) (hden : 0 < den)
    (h : i.contains num den = true) :
    (i.low : ℚ) / i.den < num / den ∧ (num : ℚ) / den < i.high / i.den := by
  have hid : (0 : ℚ) < i.den := by exact_mod_cast hi
  have hd : (0 : ℚ) < den := by exact_mod_cast hden
  rw [div_lt_div_iff₀ hid hd, div_lt_div_iff₀ hd hid]
  simp only [contains] at h
  rw [hopen, if_neg Bool.false_ne_true, Bool.and_eq_true, decide_eq_true_eq,
    decide_eq_true_eq] at h
  exact_mod_cast h

theorem contains_of_lt (hi : 0 < i.den) (hden : 0 < den) (hlow : (i.low : ℚ) / i.den < num / den)
    (hhigh : (num : ℚ) / den < i.high / i.den) : i.contains num den = true := by
  have hid : (0 : ℚ) < i.den := by exact_mod_cast hi
  have hd : (0 : ℚ) < den := by exact_mod_cast hden
  rw [div_lt_div_iff₀ hid hd] at hlow
  rw [div_lt_div_iff₀ hd hid] at hhigh
  have hlow : i.low * den < num * i.den := by exact_mod_cast hlow
  have hhigh : num * i.den < i.high * den := by exact_mod_cast hhigh
  simp only [contains]
  split
  · simp only [Bool.and_eq_true, decide_eq_true_eq]
    exact ⟨hlow.le, hhigh.le⟩
  · simp only [Bool.and_eq_true, decide_eq_true_eq]
    exact ⟨hlow, hhigh⟩

end Interval

section Search

variable {tie : TieRule} {i : Interval} {num den : Nat} {k : Int} {d : Decimal}

/-- A ratio in units of `10^k`. -/
def gridRatio (num den : Nat) (k : Int) : Nat × Nat :=
  match k with
  | .ofNat e => (num, den * Nat.pow 10 e)
  | .negSucc e => (num * Nat.pow 10 (e + 1), den)

theorem gridRatio_pos (hden : 0 < den) : 0 < (gridRatio num den k).2 := by
  cases k with
  | ofNat e =>
    show 0 < den * 10 ^ e
    positivity
  | negSucc e => exact hden

theorem gridRatio_div (num den : Nat) (k : Int) :
    ((gridRatio num den k).1 : ℚ) / (gridRatio num den k).2 = num / den / 10 ^ k := by
  cases k with
  | ofNat e =>
    show (num : ℚ) / ((den * 10 ^ e : Nat) : ℚ) = num / den / 10 ^ (e : Int)
    rw [zpow_natCast]
    push_cast
    exact div_mul_eq_div_div ..
  | negSucc e =>
    show ((num * 10 ^ (e + 1) : Nat) : ℚ) / den = num / den / 10 ^ Int.negSucc e
    rw [zpow_negSucc, div_inv_eq_mul]
    push_cast
    exact mul_div_right_comm ..

/-- The digits of the neighbour below on the grid `10^k`. -/
def digitsBelow (num den : Nat) (k : Int) : Nat :=
  (gridRatio num den k).1 / (gridRatio num den k).2

theorem value_digitsBelow_le :
    (⟨digitsBelow num den k, k⟩ : Decimal).value ≤ num / den := by
  have hfloor : ((digitsBelow num den k : Nat) : ℚ) ≤ num / den / 10 ^ k := by
    rw [← gridRatio_div]
    exact Nat.cast_div_le
  rw [le_div_iff₀ (by positivity)] at hfloor
  exact hfloor

theorem lt_value_digitsBelow (hden : 0 < den) :
    (num : ℚ) / den < (⟨digitsBelow num den k + 1, k⟩ : Decimal).value := by
  have hfloor : (num : ℚ) / den / 10 ^ k < (digitsBelow num den k + 1 : Nat) := by
    have hpos : (0 : ℚ) < (gridRatio num den k).2 := by exact_mod_cast gridRatio_pos hden
    rw [← gridRatio_div, div_lt_iff₀ hpos]
    exact_mod_cast Nat.lt_mul_of_div_lt (Nat.lt_succ_self _) (gridRatio_pos hden)
  rw [div_lt_iff₀ (by positivity)] at hfloor
  exact hfloor

/-- Whether a decimal lies in the interval. -/
def Interval.holds (i : Interval) (d : Decimal) : Bool := i.contains d.ratio.1 d.ratio.2

/-- Each neighbour that lies in the interval is a hit; of two, one is taken. -/
theorem gridHit_eq (tie : TieRule) (i : Interval) (num den : Nat) (k : Int) :
    ∃ c, (c = digitsBelow num den k ∨ c = digitsBelow num den k + 1) ∧
      gridHit tie i num den k
        = match i.holds ⟨digitsBelow num den k, k⟩, i.holds ⟨digitsBelow num den k + 1, k⟩ with
          | true, true => some ⟨c, k⟩
          | true, false => some ⟨digitsBelow num den k, k⟩
          | false, true => some ⟨digitsBelow num den k + 1, k⟩
          | false, false => none := by
  have hchoice (p : Prop) [Decidable p] (c : Nat) :
      (if p then c + 1 else c) = c ∨ (if p then c + 1 else c) = c + 1 := by
    split
    · exact .inr rfl
    · exact .inl rfl
  cases k with
  | ofNat e => exact ⟨_, hchoice _ _, rfl⟩
  | negSucc e => exact ⟨_, hchoice _ _, rfl⟩

/-- A hit lies in the interval. -/
theorem holds_of_gridHit (h : gridHit tie i num den k = some d) : i.holds d = true := by
  obtain ⟨c, hc, heq⟩ := gridHit_eq tie i num den k
  rw [heq] at h
  split at h
  · cases h
    rcases hc with rfl | rfl <;> assumption
  · cases h
    assumption
  · cases h
    assumption
  · cases h

/-- Without a hit neither neighbour lies in the interval. -/
theorem holds_of_gridHit_eq_none (h : gridHit tie i num den k = none) :
    i.holds ⟨digitsBelow num den k, k⟩ = false ∧
    i.holds ⟨digitsBelow num den k + 1, k⟩ = false := by
  obtain ⟨c, -, heq⟩ := gridHit_eq tie i num den k
  rw [heq] at h
  split at h
  · cases h
  · cases h
  · cases h
  · exact ⟨‹_›, ‹_›⟩

/-- There is a hit where a step of the grid does not lead out of the interval. -/
theorem gridHit_ne_none (hi : 0 < i.den) (hden : 0 < den)
    (hlow : (i.low : ℚ) / i.den < num / den)
    (hhigh : (num : ℚ) / den + 10 ^ k ≤ i.high / i.den) :
    gridHit tie i num den k ≠ none := by
  intro h
  obtain ⟨hdown, hup⟩ := holds_of_gridHit_eq_none h
  have hholds (c : Nat) (hlow : (i.low : ℚ) / i.den < (⟨c, k⟩ : Decimal).value)
      (hhigh : (⟨c, k⟩ : Decimal).value < i.high / i.den) : i.holds ⟨c, k⟩ = true := by
    rw [← Decimal.ratio_div] at hlow hhigh
    exact Interval.contains_of_lt hi (Decimal.ratio_pos _) hlow hhigh
  have hstep : (⟨digitsBelow num den k + 1, k⟩ : Decimal).value
      = (⟨digitsBelow num den k, k⟩ : Decimal).value + 10 ^ k := by
    simp only [Decimal.value]
    push_cast
    ring
  have hpos : (0 : ℚ) < 10 ^ k := by positivity
  have hbelow : (⟨digitsBelow num den k, k⟩ : Decimal).value ≤ num / den := value_digitsBelow_le
  have habove : (num : ℚ) / den < (⟨digitsBelow num den k + 1, k⟩ : Decimal).value :=
    lt_value_digitsBelow hden
  rcases hbelow.eq_or_lt with heq | hless
  · -- the value is on the grid
    rw [hholds _ (heq ▸ hlow) (by linarith)] at hdown
    cases hdown
  · rw [hholds _ (by linarith) (by linarith)] at hup
    cases hup

/-- The search ends with a decimal of the interval, if it comes to a grid
    fine enough. -/
theorem holds_searchGrids (hi : 0 < i.den) (hden : 0 < den)
    (hlow : (i.low : ℚ) / i.den < num / den) {fuel j : Nat} (hj : j < fuel)
    (hhigh : (num : ℚ) / den + 10 ^ (k - j) ≤ i.high / i.den) :
    i.holds (searchGrids tie i num den fuel k) = true := by
  induction fuel generalizing k j with
  | zero => cases hj
  | succ fuel ih =>
    rw [searchGrids]
    cases hhit : gridHit tie i num den k with
    | some d => exact holds_of_gridHit hhit
    | none =>
      cases j with
      | zero =>
        rw [Int.natCast_zero, Int.sub_zero] at hhigh
        exact absurd hhit (gridHit_ne_none hi hden hlow hhigh)
      | succ j =>
        refine ih (Nat.lt_of_succ_lt_succ hj) ?_
        rwa [show k - 1 - (j : Int) = k - (j + 1 : Nat) by omega]

end Search

/-! ## Shortest decimals -/

namespace Format

variable {f : Format} {m : Magnitude}

theorem roundingInterval_den_pos : 0 < (f.roundingInterval m).den := shiftRatio_pos one_pos _

/-- The distance from a magnitude to the end of its interval below. -/
def gapBelow (f : Format) (m : Magnitude) : ℚ :=
  if m.significand = f.hiddenBit ∧ f.minExponent < m.exponent then 2 ^ (m.exponent - 2)
  else 2 ^ (m.exponent - 1)

theorem gapBelow_le : f.gapBelow m ≤ 2 ^ (m.exponent - 1) := by
  rw [gapBelow]
  split
  · exact zpow_le_zpow_right₀ one_le_two (by omega)
  · exact le_rfl

/-- A multiple of a power of two, from its parts. -/
theorem mul_shiftRatio_div (n : Nat) (e : Int) :
    ((n * (shiftRatio 1 1 e).1 : Nat) : ℚ) / (shiftRatio 1 1 e).2 = n * 2 ^ e := by
  have hunit := shiftRatio_div 1 1 e
  rw [Nat.cast_one, div_one, one_mul] at hunit
  rw [← hunit]
  push_cast
  exact mul_div_assoc ..

theorem roundingInterval_low (hs : 0 < m.significand) :
    ((f.roundingInterval m).low : ℚ) / (f.roundingInterval m).den = m.value - f.gapBelow m := by
  have hquarter : (2 : ℚ) ^ m.exponent = 4 * 2 ^ (m.exponent - 2) := by
    rw [zpow_sub₀ two_ne_zero]
    ring
  have hhalf : (2 : ℚ) ^ (m.exponent - 1) = 2 * 2 ^ (m.exponent - 2) := by
    rw [show m.exponent - 1 = m.exponent - 2 + 1 by omega, zpow_add_one₀ two_ne_zero]
    ring
  have hscale (below : Nat) (hbelow : below ≤ 4 * m.significand) :
      (((4 * m.significand - below) * (shiftRatio 1 1 (m.exponent - 2)).1 : Nat) : ℚ)
        / (shiftRatio 1 1 (m.exponent - 2)).2 = m.value - below * 2 ^ (m.exponent - 2) := by
    rw [mul_shiftRatio_div, Nat.cast_sub hbelow, Magnitude.value, hquarter]
    push_cast
    ring
  by_cases h : m.significand = f.hiddenBit ∧ f.minExponent < m.exponent
  · simp only [roundingInterval, gapBelow, if_pos h]
    rw [hscale 1 (by omega), Nat.cast_one, one_mul]
  · simp only [roundingInterval, gapBelow, if_neg h]
    rw [hscale 2 (by omega), hhalf]
    norm_num

theorem roundingInterval_high :
    ((f.roundingInterval m).high : ℚ) / (f.roundingInterval m).den
      = m.value + 2 ^ (m.exponent - 1) := by
  simp only [roundingInterval]
  rw [mul_shiftRatio_div, Magnitude.value, show m.exponent - 1 = m.exponent - 2 + 1 by omega,
    zpow_add_one₀ two_ne_zero, show m.exponent = m.exponent - 2 + 2 by omega,
    zpow_add₀ two_ne_zero]
  push_cast
  rw [add_sub_cancel_right]
  ring

/-- What rounds to a magnitude is at most half a unit away from it. -/
theorem roundingInterval_bounds (hs : 0 < m.significand) :
    0 < ((f.roundingInterval m).low : ℚ) / (f.roundingInterval m).den ∧
    ((f.roundingInterval m).low : ℚ) / (f.roundingInterval m).den < m.value := by
  have hgap : 0 < f.gapBelow m := by
    rw [gapBelow]
    split <;> positivity
  have hvalue : (2 : ℚ) ^ m.exponent ≤ m.value := by
    have hone : (1 : ℚ) ≤ m.significand := by exact_mod_cast hs
    exact le_mul_of_one_le_left (by positivity) hone
  have hhalf : (2 : ℚ) ^ (m.exponent - 1) < 2 ^ m.exponent :=
    zpow_lt_zpow_right₀ one_lt_two (by omega)
  rw [roundingInterval_low hs]
  exact ⟨sub_pos.mpr (gapBelow_le.trans_lt (hhalf.trans_le hvalue)), sub_lt_self _ hgap⟩

/-- A magnitude with a significand of at most 53 digits, by its exponent. -/
theorem value_lt_of_canonical (hm : f.Canonical m) (hp : f.precision ≤ 53) :
    m.value < 2 ^ (m.exponent + 53) := by
  have hhigh : (m.significand : ℚ) < 2 * f.hiddenBit := by exact_mod_cast hm.high
  have hwidth : 2 * f.hiddenBit ≤ 2 ^ 53 := by
    have hle := Nat.pow_le_pow_right two_pos (show f.precision - 1 ≤ 52 by omega)
    simp only [hiddenBit, Nat.shiftLeft_eq]
    omega
  have hwidth : (2 : ℚ) * f.hiddenBit ≤ 2 ^ (53 : Int) := by exact_mod_cast hwidth
  rw [Int.add_comm, zpow_add₀ two_ne_zero, Magnitude.value]
  gcongr
  exact hhigh.trans_le hwidth

/-- Seventeen grids below the first, a step is less than half a unit. -/
theorem ten_zpow_sub_le (hsize : m.value < 2 ^ (m.exponent + 53)) {l : Int}
    (hl : (10 : ℚ) ^ l ≤ m.value) : (10 : ℚ) ^ (l - (17 : Nat)) ≤ 2 ^ (m.exponent - 1) := by
  rw [zpow_sub₀ (by norm_num), div_le_iff₀ (by positivity)]
  calc (10 : ℚ) ^ l ≤ m.value := hl
    _ ≤ 2 ^ (m.exponent + 53) := hsize.le
    _ = 2 ^ (m.exponent - 1) * 2 ^ (54 : Int) := by
      rw [← zpow_add₀ two_ne_zero]
      congr 1
      omega
    _ ≤ 2 ^ (m.exponent - 1) * 10 ^ ((17 : Nat) : Int) := by
      gcongr
      norm_num

/-- The shortest decimal of a positive magnitude is a number of its interval. -/
theorem exists_holds_shortest (tie : TieRule) (hm : f.Canonical m) (hs : 0 < m.significand)
    (hp : f.precision ≤ 53) (he : m.exponent ≤ 10000) :
    ∃ d, (f.roundingInterval m).holds d = true ∧ (f.shortest tie m).value = d.value := by
  obtain ⟨hpos, hlow⟩ := roundingInterval_bounds (f := f) hs
  have hvalue : 0 < m.value := hpos.trans hlow
  have hnum : 0 < m.ratio.1 := by
    refine Nat.pos_of_ne_zero fun h => ?_
    have hdiv := m.ratio_div
    rw [h, Nat.cast_zero, zero_div] at hdiv
    exact hvalue.ne hdiv
  have hsize := value_lt_of_canonical hm hp
  have hlog : Int.log 2 ((m.ratio.1 : ℚ) / m.ratio.2) ≤ 100000 := by
    rw [m.ratio_div]
    have := (Int.lt_zpow_iff_log_lt one_lt_two hvalue).mp (by exact_mod_cast hsize)
    omega
  have hten := ten_zpow_floorLog10_le hnum m.ratio_pos hlog
  rw [m.ratio_div] at hten
  refine ⟨searchGrids tie (f.roundingInterval m) m.ratio.1 m.ratio.2 20
    (floorLog10 m.ratio.1 m.ratio.2), ?_, ?_⟩
  · refine holds_searchGrids roundingInterval_den_pos m.ratio_pos ?_ (show 17 < 20 by decide) ?_
    · rw [m.ratio_div]
      exact hlow
    · rw [m.ratio_div, roundingInterval_high]
      gcongr
      exact ten_zpow_sub_le hsize hten
  · simp only [shortest]
    rw [if_neg hs.ne', Decimal.value_trim]

/-- The shortest decimal of a positive magnitude lies at most half a unit above it. -/
theorem shortest_bounds (tie : TieRule) (hm : f.Canonical m) (hs : 0 < m.significand)
    (hp : f.precision ≤ 53) (he : m.exponent ≤ 10000) :
    0 < (f.shortest tie m).value ∧
    (f.shortest tie m).value ≤ m.value + 2 ^ (m.exponent - 1) := by
  obtain ⟨d, hholds, heq⟩ := exists_holds_shortest tie hm hs hp he
  obtain ⟨hmin, hmax⟩ := Interval.contains_bounds roundingInterval_den_pos d.ratio_pos hholds
  rw [Decimal.ratio_div] at hmin hmax
  rw [heq]
  exact ⟨(roundingInterval_bounds hs).1.trans_le hmin, hmax.trans_eq roundingInterval_high⟩

end Format

end ServingPlane.Numeric
