import Mathlib.Algebra.Order.Field.Rat
import Mathlib.Algebra.Order.Field.Power
import Mathlib.Tactic.FieldSimp
import Mathlib.Tactic.Linarith
import Mathlib.Tactic.SplitIfs
import MiniLisp.Number.Numeral

/-! Rounding, over the rationals. The double nearest to a number that is a double is that double
(`nearestRank_eq`): the leading digit of the number fixes the power that it is rounded on, and on that
power it is a whole number. So the exact decimal of a double reads back as it, and so does the shortest
one (`decimalRank_shortest`), which was chosen for that. -/

namespace MiniLisp.Number

theorem dyadic_one_pos (e : Int) : 0 < (dyadic 1 e).1 ∧ 0 < (dyadic 1 e).2 := by
  unfold dyadic
  split_ifs <;> simp [Nat.one_shiftLeft]

theorem dyadic_one_div (e : Int) : ((dyadic 1 e).1 : ℚ) / (dyadic 1 e).2 = 2 ^ e := by
  unfold dyadic
  split_ifs with he
  · obtain ⟨m, rfl⟩ := Int.eq_ofNat_of_zero_le he
    simp [Nat.one_shiftLeft]
  · obtain ⟨m, rfl⟩ := Int.exists_eq_neg_ofNat (Int.le_of_lt (Int.not_le.1 he))
    simp [Nat.one_shiftLeft]

theorem log2_le_cast {n : Nat} (h : 0 < n) : (2 : ℚ) ^ (n.log2 : Int) ≤ n := by
  rw [zpow_natCast]
  exact_mod_cast Nat.log2_self_le h.ne'

theorem cast_lt_log2 (n : Nat) : (n : ℚ) < 2 ^ (n.log2 + 1 : Int) := by
  have h : n < 2 ^ (n.log2 + 1) := Nat.lt_log2_self
  exact_mod_cast h

theorem lt_two_zpow_log2 {d : Nat} (n : Nat) (hd : 0 < d) :
    (n / d : ℚ) < 2 ^ ((n.log2 : Int) - d.log2 + 1) := by
  have hd' : (0 : ℚ) < d := by exact_mod_cast hd
  calc (n / d : ℚ) < 2 ^ (n.log2 + 1 : Int) / d := div_lt_div_of_pos_right (cast_lt_log2 n) hd'
    _ ≤ 2 ^ (n.log2 + 1 : Int) / 2 ^ (d.log2 : Int) :=
      div_le_div_of_nonneg_left (by positivity) (by positivity) (log2_le_cast hd)
    _ = 2 ^ ((n.log2 : Int) - d.log2 + 1) := by
      rw [← zpow_sub₀ (by norm_num)]
      congr 1
      omega

theorem two_zpow_log2_lt {n d : Nat} (hn : 0 < n) (hd : 0 < d) :
    (2 : ℚ) ^ ((n.log2 : Int) - d.log2 - 1) < n / d := by
  have hd' : (0 : ℚ) < d := by exact_mod_cast hd
  calc (2 : ℚ) ^ ((n.log2 : Int) - d.log2 - 1) = 2 ^ (n.log2 : Int) / 2 ^ (d.log2 + 1 : Int) := by
        rw [← zpow_sub₀ (by norm_num)]
        congr 1
        omega
    _ < 2 ^ (n.log2 : Int) / d := div_lt_div_of_pos_left (by positivity) hd' (cast_lt_log2 d)
    _ ≤ n / d := div_le_div_of_nonneg_right (log2_le_cast hn) hd'.le

theorem leadingExponent_spec {n d : Nat} (hn : 0 < n) (hd : 0 < d) :
    (2 : ℚ) ^ leadingExponent n d ≤ n / d ∧ (n / d : ℚ) < 2 ^ (leadingExponent n d + 1) := by
  have hd' : (0 : ℚ) < d := by exact_mod_cast hd
  have hb (e : Int) : (0 : ℚ) < (dyadic 1 e).2 := by exact_mod_cast (dyadic_one_pos e).2
  have hcmp (e : Int) : d * (dyadic 1 e).1 ≤ n * (dyadic 1 e).2 ↔ (2 : ℚ) ^ e ≤ n / d := by
    rw [← dyadic_one_div, div_le_div_iff₀ (hb e) hd', mul_comm d]
    norm_cast
  unfold leadingExponent
  dsimp only
  split_ifs with h
  · exact ⟨(hcmp _).1 h, lt_two_zpow_log2 n hd⟩
  · rw [hcmp, not_le] at h
    rw [Int.sub_add_cancel]
    exact ⟨(two_zpow_log2_lt hn hd).le, h⟩

/-- The number that a finite rank stands for. -/
def value (k : Nat) : ℚ := significand k * 2 ^ power k

/-- A rank below `2 ^ 52` is its own significand; any other has a leading digit that is not written. -/
theorem rank_cases (k : Nat) :
    k < 2 ^ 52 ∧ significand k = k ∧ power k = -1074 ∨
    2 ^ 52 ≤ k ∧ significand k = k % 2 ^ 52 + 2 ^ 52 ∧ power k = (k / 2 ^ 52 : Nat) - 1075 := by
  by_cases h : k < 2 ^ 52
  · exact Or.inl ⟨h, if_pos h, if_pos h⟩
  · exact Or.inr ⟨Nat.le_of_not_lt h, if_neg h, if_neg h⟩

theorem significand_pos {k : Nat} (h : 0 < k) : 0 < significand k := by
  rcases rank_cases k with ⟨-, hs, -⟩ | ⟨-, hs, -⟩ <;> omega

theorem value_pos {k : Nat} (h : 0 < k) : 0 < value k := by
  have hs : (0 : ℚ) < significand k := by exact_mod_cast significand_pos h
  unfold value
  positivity

theorem roundDiv_mul (m : Nat) {d : Nat} (hd : 0 < d) : roundDiv (m * d) d = m := by
  simp [roundDiv, Nat.mul_div_cancel _ hd, hd]

theorem value_lt {k m : Nat} (h : significand k < 2 ^ m) : value k < 2 ^ (m + power k) := by
  have hs : (significand k : ℚ) < 2 ^ m := by exact_mod_cast h
  rw [value, zpow_add₀ (by norm_num), zpow_natCast]
  exact mul_lt_mul_of_pos_right hs (by positivity)

theorem le_value {k m : Nat} (h : 2 ^ m ≤ significand k) : 2 ^ (m + power k) ≤ value k := by
  have hs : (2 : ℚ) ^ m ≤ significand k := by exact_mod_cast h
  rw [value, zpow_add₀ (by norm_num), zpow_natCast]
  exact mul_le_mul_of_nonneg_right hs (by positivity)

theorem exponent_lt_of_zpow_lt {a b : Int} (h : (2 : ℚ) ^ a < 2 ^ b) : a < b :=
  (zpow_lt_zpow_iff_right₀ (by norm_num)).1 h

theorem max_leadingExponent {n d k : Nat} (hn : 0 < n) (hd : 0 < d) (h : (n / d : ℚ) = value k) :
    max (leadingExponent n d - 52) (-1074) = power k := by
  obtain ⟨hl, hu⟩ := leadingExponent_spec hn hd
  rw [h] at hl hu
  rcases rank_cases k with ⟨hk, hs, hp⟩ | ⟨hk, hs, hp⟩
  · have hlt := exponent_lt_of_zpow_lt (hl.trans_lt (value_lt (m := 52) (by omega)))
    omega
  · have hlt := exponent_lt_of_zpow_lt (hl.trans_lt (value_lt (m := 53) (by omega)))
    have hgt := exponent_lt_of_zpow_lt ((le_value (m := 52) (by omega)).trans_lt hu)
    omega

theorem nearestRank_eq {n d k : Nat} (hd : 0 < d) (hpos : 0 < k) (hk : k < infinityRank)
    (h : (n / d : ℚ) = value k) : nearestRank n d = k := by
  obtain ⟨ha, hb⟩ := dyadic_one_pos (power k)
  have hd' : (d : ℚ) ≠ 0 := by exact_mod_cast hd.ne'
  have hb' : ((dyadic 1 (power k)).2 : ℚ) ≠ 0 := by exact_mod_cast hb.ne'
  have hn : n ≠ 0 := by
    rintro rfl
    simpa [← h] using value_pos hpos
  have hround : n * (dyadic 1 (power k)).2 = significand k * (d * (dyadic 1 (power k)).1) := by
    rw [value, ← dyadic_one_div] at h
    field_simp at h
    have h' : (n : ℚ) * (dyadic 1 (power k)).2 = significand k * (d * (dyadic 1 (power k)).1) := by
      linarith
    exact_mod_cast h'
  rw [nearestRank, if_neg hn]
  dsimp only
  rw [max_leadingExponent (Nat.pos_of_ne_zero hn) hd h, hround, roundDiv_mul _ (Nat.mul_pos hd ha)]
  have hsum : (power k + 1074).toNat * 2 ^ 52 + significand k = k := by
    rcases rank_cases k with ⟨hlt, hs, hp⟩ | ⟨hge, hs, hp⟩ <;> omega
  change min ((power k + 1074).toNat * 2 ^ 52 + significand k) infinityRank = k
  rw [hsum, Nat.min_eq_left hk.le]

theorem Decimal.fraction_pos (x : Decimal) : 0 < x.fraction.2 := by
  unfold Decimal.fraction
  split_ifs
  · exact Nat.one_pos
  · exact Nat.pow_pos (by norm_num)

theorem Decimal.fraction_div (x : Decimal) :
    (x.fraction.1 / x.fraction.2 : ℚ) = x.digits * 10 ^ x.exponent := by
  obtain ⟨n, e⟩ := x
  unfold Decimal.fraction tenTo
  split_ifs with he
  · obtain ⟨m, rfl⟩ := Int.eq_ofNat_of_zero_le he
    simp
  · obtain ⟨m, rfl⟩ := Int.exists_eq_neg_ofNat (Int.le_of_lt (Int.not_le.1 he))
    simp [div_eq_mul_inv]

theorem exactDecimal_value (k : Nat) :
    ((exactDecimal k).digits * 10 ^ (exactDecimal k).exponent : ℚ) = value k := by
  unfold exactDecimal value
  split_ifs with hp
  · obtain ⟨m, hm⟩ := Int.eq_ofNat_of_zero_le hp
    simp [hm, Nat.shiftLeft_eq]
  · obtain ⟨m, hm⟩ := Int.exists_eq_neg_ofNat (Int.le_of_lt (Int.not_le.1 hp))
    have hten : (10 : ℚ) ^ m = 5 ^ m * 2 ^ m := by rw [← mul_pow]; norm_num
    simp only [hm, Int.neg_neg, Int.toNat_natCast, zpow_neg, zpow_natCast, Nat.pow_eq]
    push_cast
    rw [hten]
    field_simp

theorem decimalRank_of_bounds {x : Decimal} (hn : x.digits ≠ 0) (hu : x.exponent ≤ 310)
    (hl : -1100 ≤ x.digits.log2 + 1 + 3 * x.exponent) :
    decimalRank x = nearestRank x.fraction.1 x.fraction.2 := by
  rw [decimalRank, if_neg hn, if_neg (by omega), if_neg (by omega)]

/-- An exact decimal is well inside the range that is rounded: `5 ^ m` has at least `2 · m` binary
digits. -/
theorem exactDecimal_bounds {k : Nat} (h : 0 < k) :
    (exactDecimal k).digits ≠ 0 ∧ (exactDecimal k).exponent ≤ 310 ∧
      -1100 ≤ (exactDecimal k).digits.log2 + 1 + 3 * (exactDecimal k).exponent := by
  have hs := significand_pos h
  have hp : -1074 ≤ power k := by
    rcases rank_cases k with ⟨-, -, hp⟩ | ⟨hge, -, hp⟩ <;> omega
  unfold exactDecimal
  split_ifs with h0
  · refine ⟨by simp [Nat.shiftLeft_eq, hs.ne'], by norm_num, ?_⟩
    dsimp only
    omega
  · obtain ⟨m, hm⟩ := Int.exists_eq_neg_ofNat (Int.le_of_lt (Int.not_le.1 h0))
    have hpow : 2 ^ (2 * m) ≤ significand k * 5 ^ m := by
      calc 2 ^ (2 * m) = 4 ^ m := by rw [Nat.pow_mul]
        _ ≤ 5 ^ m := Nat.pow_le_pow_left (by norm_num) m
        _ ≤ significand k * 5 ^ m := Nat.le_mul_of_pos_left _ hs
    have hlog := (Nat.le_log2 (by positivity)).2 hpow
    simp only [hm, Int.neg_neg, Int.toNat_natCast, Nat.pow_eq]
    refine ⟨by positivity, ?_, ?_⟩ <;> omega

theorem decimalRank_exactDecimal {k : Nat} (hpos : 0 < k) (hk : k < infinityRank) :
    decimalRank (exactDecimal k) = k := by
  obtain ⟨hdigits, hupper, hlower⟩ := exactDecimal_bounds hpos
  rw [decimalRank_of_bounds hdigits hupper hlower]
  apply nearestRank_eq (Decimal.fraction_pos _) hpos hk
  rw [Decimal.fraction_div, exactDecimal_value]

theorem decimalRank_of_onGrid {k n d : Nat} {e : Int} {x : Decimal} (h : onGrid k n d e = some x) :
    decimalRank x = k := by
  unfold onGrid at h
  dsimp only at h
  split at h
  · rename_i hlower hupper
    rw [beq_iff_eq] at hlower hupper
    split_ifs at h <;> cases h <;> assumption
  · rename_i hlower _
    cases h
    exact beq_iff_eq.1 hlower
  · rename_i _ hupper
    cases h
    exact beq_iff_eq.1 hupper
  · cases h

theorem decimalRank_shortest {k : Nat} (hpos : 0 < k) (hk : k < infinityRank) :
    decimalRank (shortest k) = k := by
  unfold shortest
  dsimp only
  generalize hx : (List.range 18).findSome? _ = x
  cases x with
  | none => exact decimalRank_exactDecimal hpos hk
  | some x =>
    obtain ⟨i, -, hi⟩ := List.exists_of_findSome?_eq_some hx
    exact decimalRank_of_onGrid hi

end MiniLisp.Number
