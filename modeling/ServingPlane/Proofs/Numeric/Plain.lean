import ServingPlane.Proofs.Json.Number

/-! # Reading back plain texts

    A number rounds to a magnitude if it lies in the rounding interval of
    that magnitude, on an end only where ties go to it, and the decimal
    that is written lies in there.  So the plain text of a positive number
    tells which number it was: the decimal that it spells, rounded once,
    is that number again. -/

namespace ServingPlane.Numeric

/-! ## Rounding to a magnitude -/

/-- The natural that a ratio is rounded to, by the halves around it. -/
theorem roundHalfEven_eq {num den k : Nat} (hden : 0 < den) (hk : 0 < k)
    (hlow : (k : ℚ) - 1 / 2 < num / den ∨ ((k : ℚ) - 1 / 2 = num / den ∧ k % 2 = 0))
    (hhigh : (num : ℚ) / den < k + 1 / 2 ∨ ((num : ℚ) / den = k + 1 / 2 ∧ k % 2 = 0)) :
    roundHalfEven num den = k := by
  refine Nat.le_antisymm (Nat.le_of_not_lt fun hless => ?_) ?_
  · rcases (lt_roundHalfEven hden).mp hless with hbeyond | ⟨hhalf, hodd⟩
    · rcases hhigh with hhigh | ⟨hhigh, -⟩ <;> linarith
    · rcases hhigh with hhigh | ⟨-, heven⟩
      · linarith
      · omega
  · obtain ⟨j, rfl⟩ := Nat.exists_eq_add_one.mpr hk
    have hstep : ((j + 1 : Nat) : ℚ) - 1 / 2 = j + 1 / 2 := by
      push_cast
      ring
    rw [hstep] at hlow
    refine (lt_roundHalfEven hden).mpr (hlow.imp_right fun ⟨hhalf, heven⟩ => ⟨hhalf, ?_⟩)
    omega

namespace Format

variable {f : Format} {m : Magnitude} {d : Decimal}

/-- Rounding sees the number alone. -/
theorem roundRatio_congr {num den num' den' : Nat} (hp : 0 < f.precision) (hden : 0 < den)
    (hden' : 0 < den') (h : (num : ℚ) / den = num' / den') :
    f.roundRatio num den = f.roundRatio num' den' :=
  Nat.le_antisymm (roundRatio_mono hp hden hden' h.le) (roundRatio_mono hp hden' hden h.ge)

/-- A ratio within half a unit of a magnitude is rounded to it, with a tie
    only if it is even. -/
theorem rounded_eq {num den k : Nat} {e : Int} (hden : 0 < den) (hk : 0 < k)
    (hunit : f.unitOf (num / den) = e)
    (hlow : ((k : ℚ) - 1 / 2) * 2 ^ e < num / den ∨
      (((k : ℚ) - 1 / 2) * 2 ^ e = num / den ∧ k % 2 = 0))
    (hhigh : (num : ℚ) / den < (k + 1 / 2) * 2 ^ e ∨
      ((num : ℚ) / den = (k + 1 / 2) * 2 ^ e ∧ k % 2 = 0)) :
    f.rounded num den = ⟨k, e⟩ := by
  have hpos : (0 : ℚ) < 2 ^ e := by positivity
  have hsignificand : (f.rounded num den).significand = k := by
    refine roundHalfEven_eq (scaled_pos hden) hk ?_ ?_
    · rwa [scaled_div, hunit, lt_div_iff₀ hpos, eq_div_iff hpos.ne']
    · rwa [scaled_div, hunit, div_lt_iff₀ hpos, div_eq_iff hpos.ne']
  rw [← hsignificand, ← hunit]
  rfl

/-- Half of a unit. -/
theorem two_zpow_pred (e : Int) : (2 : ℚ) ^ (e - 1) = 1 / 2 * 2 ^ e := by
  rw [zpow_sub₀ two_ne_zero, zpow_one]
  ring

/-- Just below a power of two the unit is half as large, and what is near
    the power is rounded up to it. -/
theorem rounded_below_power {num den : Nat} {e : Int} (hp : 0 < f.precision) (hden : 0 < den)
    (hmin : f.minExponent < e) (hlow : ((f.hiddenBit : ℚ) - 1 / 4) * 2 ^ e ≤ num / den)
    (hhigh : (num : ℚ) / den < f.hiddenBit * 2 ^ e) :
    f.rounded num den = ⟨2 * f.hiddenBit, e - 1⟩ := by
  have hhidden : (1 : ℚ) ≤ f.hiddenBit := by exact_mod_cast f.hiddenBit_pos
  have hpos : (0 : ℚ) < 2 ^ (e - 1) := by positivity
  have hdouble : (2 : ℚ) ^ e = 2 * 2 ^ (e - 1) := by
    rw [two_zpow_pred]
    ring
  rw [hdouble] at hlow hhigh
  have hvalue : (0 : ℚ) < num / den := by
    refine lt_of_lt_of_le ?_ hlow
    have : (0 : ℚ) < f.hiddenBit - 1 / 4 := by linarith
    positivity
  refine rounded_eq hden (Nat.mul_pos two_pos f.hiddenBit_pos) ?_ ?_ (.inl ?_)
  · refine unitOf_eq hp hvalue (Int.le_sub_one_of_lt hmin) (.inr ?_) ?_
    · nlinarith
    · linarith
  · have hle : (((2 * f.hiddenBit : Nat) : ℚ) - 1 / 2) * 2 ^ (e - 1) ≤ num / den := by
      push_cast
      linarith
    exact hle.lt_or_eq.imp_right fun heq => ⟨heq, Nat.mul_mod_right 2 _⟩
  · push_cast
    linarith

/-- A decimal of the rounding interval is within its ends, and on one only
    if the significand is even. -/
theorem holds_ends (hs : 0 < m.significand) (h : (f.roundingInterval m).holds d = true) :
    (m.value - f.gapBelow m < d.value ∨
      (m.value - f.gapBelow m = d.value ∧ m.significand % 2 = 0)) ∧
    (d.value < m.value + 2 ^ (m.exponent - 1) ∨
      (d.value = m.value + 2 ^ (m.exponent - 1) ∧ m.significand % 2 = 0)) := by
  rw [← roundingInterval_low hs, ← roundingInterval_high (f := f), ← d.ratio_div]
  by_cases heven : m.significand % 2 = 0
  · obtain ⟨hlow, hhigh⟩ := Interval.contains_bounds roundingInterval_den_pos d.ratio_pos h
    exact ⟨hlow.lt_or_eq.imp_right fun heq => ⟨heq, heven⟩,
      hhigh.lt_or_eq.imp_right fun heq => ⟨heq, heven⟩⟩
  · have hopen : (f.roundingInterval m).closed = false := decide_eq_false heven
    obtain ⟨hlow, hhigh⟩ :=
      Interval.contains_bounds_of_open hopen roundingInterval_den_pos d.ratio_pos h
    exact ⟨.inl hlow, .inl hhigh⟩

/-- What is read as a magnitude and is still less than the power of two at
    its foot belongs to that power. -/
theorem significand_of_below_power (hm : f.Canonical m) (hmin : f.minExponent < m.exponent) {v : ℚ}
    (hlow : m.value - f.gapBelow m ≤ v) (hshort : v < f.hiddenBit * 2 ^ m.exponent) :
    m.significand = f.hiddenBit := by
  refine Nat.le_antisymm (Nat.le_of_not_lt fun hless => ?_) (hm.full.resolve_left hmin.ne')
  have hnext : (f.hiddenBit : ℚ) + 1 ≤ m.significand := by exact_mod_cast hless
  have hgap := gapBelow_le (f := f) (m := m)
  have hunit : (0 : ℚ) < 2 ^ m.exponent := by positivity
  rw [two_zpow_pred] at hgap
  rw [Magnitude.value] at hlow
  nlinarith

theorem gapBelow_of_power (hmin : f.minExponent < m.exponent) (hpower : m.significand = f.hiddenBit) :
    f.gapBelow m = 1 / 4 * 2 ^ m.exponent := by
  rw [gapBelow, if_pos ⟨hpower, hmin⟩, zpow_sub₀ two_ne_zero]
  ring

/-- The pattern of a power of two, from the next lower exponent. -/
theorem pattern_of_power (hmin : f.minExponent < m.exponent) (hpower : m.significand = f.hiddenBit) :
    f.pattern ⟨2 * f.hiddenBit, m.exponent - 1⟩ = f.pattern m := by
  have hsteps : (m.exponent - f.minExponent).toNat
      = (m.exponent - 1 - f.minExponent).toNat + 1 := by omega
  rw [pattern, pattern, hpower, hsteps]
  ring

/-- What lies in the rounding interval of a magnitude rounds to it. -/
theorem roundRatio_of_holds (hp : 0 < f.precision) (hm : f.Canonical m) (hs : 0 < m.significand)
    (h : (f.roundingInterval m).holds d = true) :
    f.roundRatio d.ratio.1 d.ratio.2 = min (f.pattern m) f.infinityBits := by
  obtain ⟨hlow, hhigh⟩ := holds_ends hs h
  have hbelow : m.value - f.gapBelow m ≤ d.value := hlow.elim le_of_lt fun heq => heq.1.le
  have hpos : 0 < d.value := by
    obtain ⟨hpos, -⟩ := roundingInterval_bounds (f := f) hs
    rw [roundingInterval_low hs] at hpos
    exact hpos.trans_le hbelow
  have hnum : 0 < d.ratio.1 := by
    refine Nat.pos_of_ne_zero fun hzero => ?_
    rw [← d.ratio_div, hzero, Nat.cast_zero, zero_div] at hpos
    exact lt_irrefl _ hpos
  rw [roundRatio_eq hnum d.ratio_pos]
  suffices hpattern : f.pattern (f.rounded d.ratio.1 d.ratio.2) = f.pattern m by rw [hpattern]
  by_cases hshort : f.minExponent < m.exponent ∧ d.value < f.hiddenBit * 2 ^ m.exponent
  · -- the decimal is below the power of two that it is rounded up to
    obtain ⟨hmin, hshort⟩ := hshort
    have hpower := significand_of_below_power hm hmin hbelow hshort
    have hrounded : f.rounded d.ratio.1 d.ratio.2 = ⟨2 * f.hiddenBit, m.exponent - 1⟩ := by
      refine rounded_below_power hp d.ratio_pos hmin ?_ ?_
      · rw [d.ratio_div, sub_mul, ← gapBelow_of_power hmin hpower, ← hpower]
        exact hbelow
      · rw [d.ratio_div]
        exact hshort
    rw [hrounded, pattern_of_power hmin hpower]
  · have hfull : m.exponent = f.minExponent ∨ f.hiddenBit * 2 ^ m.exponent ≤ d.value := by
      rcases hm.low.lt_or_eq with hless | heq
      · exact .inr (not_lt.mp fun hlt => hshort ⟨hless, hlt⟩)
      · exact .inl heq.symm
    have hfits : d.value < 2 * f.hiddenBit * 2 ^ m.exponent := by
      have hs : (m.significand : ℚ) + 1 ≤ 2 * f.hiddenBit := by exact_mod_cast hm.high
      have hle : d.value ≤ m.value + 2 ^ (m.exponent - 1) :=
        hhigh.elim le_of_lt fun heq => heq.1.le
      have hunit : (0 : ℚ) < 2 ^ m.exponent := by positivity
      rw [Magnitude.value, two_zpow_pred] at hle
      nlinarith
    have hgap := gapBelow_le (f := f) (m := m)
    have heq : f.rounded d.ratio.1 d.ratio.2 = ⟨m.significand, m.exponent⟩ := by
      refine rounded_eq d.ratio_pos hs ?_ ?_ ?_
      · rw [d.ratio_div]
        exact unitOf_eq hp hpos hm.low hfull hfits
      · rw [d.ratio_div, sub_mul, ← two_zpow_pred]
        rcases hlow with hlow | ⟨hlow, heven⟩
        · exact .inl (lt_of_le_of_lt (sub_le_sub_left hgap _) hlow)
        · exact ((sub_le_sub_left hgap m.value).trans_eq hlow).lt_or_eq.imp_right
            fun heq => ⟨heq, heven⟩
      · rw [d.ratio_div, add_mul, ← two_zpow_pred]
        exact hhigh
    rw [heq]

/-- The shortest decimal of a magnitude is rounded to it. -/
theorem roundRatio_shortest (tie : TieRule) (hm : f.Canonical m) (hs : 0 < m.significand)
    (hp : 0 < f.precision) (hwide : f.precision ≤ 53) (he : m.exponent ≤ 10000) :
    f.roundRatio (f.shortest tie m).ratio.1 (f.shortest tie m).ratio.2
      = min (f.pattern m) f.infinityBits := by
  obtain ⟨d, hholds, hvalue⟩ := exists_holds_shortest tie hm hs hwide he
  rw [← roundRatio_of_holds hp hm hs hholds]
  refine roundRatio_congr hp (Decimal.ratio_pos _) d.ratio_pos ?_
  rw [Decimal.ratio_div, Decimal.ratio_div, hvalue]

end Format

/-! ## Plain texts -/

/-- The ratio that a positional text spells: its digits over the weight of
    the last of them. -/
def plainRatio (cs : List Char) : Nat × Nat :=
  let (whole, rest) := spanDigits cs
  let fraction := rest.drop 1
  (valueOfDigits (whole ++ fraction), 10 ^ fraction.length)

/-- Read a plain text of a positive number. -/
def Single.readPlain (s : String) : Single :=
  if s = "inf" then ⟨0x7f800000⟩
  else .ofRatio false (plainRatio s.toList).1 (plainRatio s.toList).2

section Positional

variable {ds : List Char}

theorem digits_positional (h : Digits ds) (place : Int) :
    Digits (positional ds place).1 ∧ Digits (positional ds place).2 := by
  rw [positional]
  split
  · exact ⟨digits_replicate 1, fun c hc =>
      (List.mem_append.mp hc).elim (digits_replicate _ c) (h c)⟩
  · exact ⟨fun c hc => (List.mem_append.mp hc).elim (fun hc => h c (List.mem_of_mem_take hc))
      (digits_replicate _ c), fun c hc => h c (List.mem_of_mem_drop hc)⟩

/-- Placing the point multiplies by a power of ten. -/
theorem valueOfDigits_positional (ds : List Char) (place : Int) :
    (valueOfDigits ((positional ds place).1 ++ (positional ds place).2) : ℚ)
      / 10 ^ (positional ds place).2.length = valueOfDigits ds * 10 ^ (place - ds.length) := by
  rw [positional]
  split
  · rename_i hsmall
    have hlength : ((-place).toNat + ds.length : Nat) = ds.length - place := by omega
    dsimp only
    rw [valueOfDigits_append, valueOfDigits_append, valueOfDigits_replicate,
      show valueOfDigits ['0'] = 0 from rfl, List.length_append, List.length_replicate,
      ← zpow_natCast, hlength, ← neg_sub place, zpow_neg, div_inv_eq_mul]
    simp
  · rename_i hlarge
    obtain ⟨p, rfl⟩ := Int.eq_ofNat_of_zero_le (Int.le_of_lt (Int.not_le.mp hlarge))
    dsimp only
    rw [Int.toNat_natCast]
    rcases Nat.lt_or_ge p ds.length with hinside | hbeyond
    · -- the point is among the digits
      obtain ⟨k, hk⟩ := Nat.exists_eq_add_of_lt hinside
      have hplace : ((p : Int) - ds.length) = -((ds.length - p : Nat) : Int) := by omega
      rw [Nat.sub_eq_zero_of_le hinside.le, List.replicate_zero, List.append_nil,
        List.take_append_drop, List.length_drop, hplace, zpow_neg, zpow_natCast, div_eq_mul_inv]
    · have hplace : ((p : Int) - ds.length) = ((p - ds.length : Nat) : Int) := by omega
      rw [List.take_of_length_le hbeyond, List.drop_eq_nil_of_le hbeyond, List.append_nil,
        valueOfDigits_append, valueOfDigits_replicate, List.length_replicate, hplace,
        zpow_natCast]
      simp

end Positional

variable {d : Decimal}

theorem plainRatio_pos (cs : List Char) : 0 < (plainRatio cs).2 := Nat.pow_pos (by decide)

/-- What a plain text spells is the decimal that was written. -/
theorem plainRatio_plainDigits (d : Decimal) :
    ((plainRatio (plainDigits d)).1 : ℚ) / (plainRatio (plainDigits d)).2 = d.value := by
  have hvalue := valueOfDigits_positional (digitsOf d.digits)
    ((digitsOf d.digits).length + d.exponent)
  obtain ⟨hwhole, hfraction⟩ := digits_positional (digits_digitsOf d.digits)
    ((digitsOf d.digits).length + d.exponent)
  rw [valueOfDigits_digitsOf, add_sub_cancel_left] at hvalue
  rw [plainDigits]
  generalize positional (digitsOf d.digits) ((digitsOf d.digits).length + d.exponent) = parts
    at hvalue hwhole hfraction
  obtain ⟨whole, fraction⟩ := parts
  have hratio (r : List Char) (hr : ∀ c ∈ r.head?, c.isDigit = false)
      (hrest : r.drop 1 = fraction) :
      ((plainRatio (whole ++ r)).1 : ℚ) / (plainRatio (whole ++ r)).2 = d.value := by
    rw [plainRatio, spanDigits_append hwhole hr]
    dsimp only
    rw [hrest, Decimal.value, ← hvalue]
    push_cast
    rfl
  dsimp only
  split
  · rename_i hempty
    have hnil : fraction = [] := List.isEmpty_iff.mp hempty
    have hplain := hratio [] (fun c hc => by cases hc) hnil.symm
    rwa [List.append_nil] at hplain
  · exact hratio ('.' :: fraction) (fun c hc => by cases hc; rfl) rfl

theorem mem_plainDigits {c : Char} (h : c ∈ plainDigits d) : c.isDigit = true ∨ c = '.' := by
  obtain ⟨hwhole, hfraction⟩ := digits_positional (digits_digitsOf d.digits)
    ((digitsOf d.digits).length + d.exponent)
  rw [plainDigits] at h
  dsimp only at h
  split at h
  · exact .inl (hwhole c h)
  · rcases List.mem_append.mp h with hc | hc
    · exact .inl (hwhole c hc)
    · rcases List.mem_cons.mp hc with rfl | hc
      · exact .inr rfl
      · exact .inl (hfraction c hc)

/-- A decimal is not written like infinity. -/
theorem ofList_plainDigits_ne (d : Decimal) : String.ofList (plainDigits d) ≠ "inf" := by
  intro h
  have htext : plainDigits d = ['i', 'n', 'f'] := by
    have htoList := congrArg String.toList h
    rwa [String.toList_ofList] at htoList
  have hmem : 'i' ∈ plainDigits d := htext ▸ List.mem_cons_self
  rcases mem_plainDigits hmem with hdigit | hpoint
  · cases hdigit
  · cases hpoint

namespace Single

variable {x y : Single}

/-- A positive number is infinite, or finite with a significand. -/
theorem reading_of_isPositive (h : x.isPositive = true) :
    x = ⟨0x7f800000⟩ ∨
    x.bits.toNat < Format.single.infinityBits ∧
      0 < (Format.single.magnitude x.bits.toNat).significand ∧
      x.reading = .finite false (Format.single.magnitude x.bits.toNat) := by
  simp only [isPositive, isZero, isNaN, Bool.and_eq_true, decide_eq_true_eq, Bool.not_eq_true',
    beq_eq_false_iff_ne, decide_eq_false_iff_not, Nat.not_lt] at h
  obtain ⟨⟨hsign, hzero⟩, hnan⟩ := h
  rw [Nat.mod_eq_of_lt hsign] at hzero hnan
  rcases hnan.lt_or_eq with hfinite | hinfinite
  · refine .inr ⟨hfinite, Nat.pos_of_ne_zero fun hempty => ?_, ?_⟩
    · have hcanonical := Format.single.canonical_magnitude x.bits.toNat
      have hpattern := Format.single.pattern_magnitude x.bits.toNat
      have hexponent := hcanonical.full.resolve_right (by
        rw [hempty]
        exact Nat.not_le.mpr Format.single.hiddenBit_pos)
      rw [Format.pattern, hexponent, hempty, Int.sub_self] at hpattern
      exact hzero (by rw [← hpattern]; simp)
    · have hisFinite : x.isFinite = true :=
        decide_eq_true (by rw [Nat.mod_eq_of_lt hsign]; exact hfinite)
      rw [reading_of_isFinite hisFinite, Nat.mod_eq_of_lt hsign,
        decide_eq_false (Nat.not_le.mpr hsign)]
  · refine .inl ?_
    have hbits : x.bits = 0x7f800000 := UInt32.toNat_inj.mp (hinfinite.trans (by decide))
    cases x
    exact congrArg Single.mk hbits

/-- The plain text of a positive number reads back as that number. -/
theorem readPlain_plainText (h : x.isPositive = true) : readPlain x.plainText = x := by
  rcases reading_of_isPositive h with rfl | ⟨hfinite, hs, hreading⟩
  · rfl
  · generalize hm : Format.single.magnitude x.bits.toNat = m at hs hreading
    have hcanonical : Format.single.Canonical m := hm ▸ Format.single.canonical_magnitude _
    have hexponent : m.exponent ≤ 104 := hm ▸ exponent_magnitude_le hfinite
    have htext : x.plainText = String.ofList (plainDigits (Format.single.shortest .up m)) := by
      rw [plainText, hreading]
      rfl
    generalize hd : Format.single.shortest .up m = d at htext
    have hround : Format.single.roundRatio (plainRatio (plainDigits d)).1
        (plainRatio (plainDigits d)).2 = x.bits.toNat := by
      rw [Format.roundRatio_congr (by decide) (plainRatio_pos _) d.ratio_pos
        ((plainRatio_plainDigits d).trans d.ratio_div.symm), ← hd,
        Format.roundRatio_shortest .up hcanonical hs (by decide) (by decide) (by omega), ← hm,
        Format.pattern_magnitude, min_eq_left hfinite.le]
    rw [htext, readPlain, if_neg (ofList_plainDigits_ne d), String.toList_ofList, ofRatio,
      Format.ofRatio, hround]
    show (⟨UInt32.ofNat x.bits.toNat⟩ : Single) = x
    rw [UInt32.ofNat_toNat]

/-- Different positive numbers are written differently. -/
theorem eq_of_plainText_eq (hx : x.isPositive = true) (hy : y.isPositive = true)
    (h : x.plainText = y.plainText) : x = y := by
  rw [← readPlain_plainText hx, h, readPlain_plainText hy]

end Single

end ServingPlane.Numeric
