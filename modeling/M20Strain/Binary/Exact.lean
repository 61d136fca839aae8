import M20Strain.Binary.Format
import Mathlib.Algebra.Order.Field.Power
import Mathlib.Tactic.Ring

/-!
# Values a format holds exactly

A rational with few enough significand bits is rounded to itself
(`Format.Exact.round_eq`), and its bit pattern decodes to it (`value32_float32`).
-/

namespace Binary

theorem roundEven_intCast (k : ℤ) : roundEven (k : ℚ) = k := by
  unfold roundEven
  simp

namespace Format

/-- `q` has at most `prec` significand bits and is no finer than the smallest subnormal. -/
def Exact (F : Format) (q : ℚ) : Prop :=
  ∃ m e : ℤ, |m| < 2 ^ F.prec ∧ F.emin - (F.prec - 1) ≤ e ∧ q = m * 2 ^ e

/-- The value of magnitude bits: an exponent field of 0 is the subnormal range. -/
def value (F : Format) (bits : ℕ) : ℚ :=
  if bits / 2 ^ (F.prec - 1) = 0 then (bits : ℚ) * 2 ^ (F.emin - (F.prec - 1))
  else ((2 ^ (F.prec - 1) + bits % 2 ^ (F.prec - 1) : ℕ) : ℚ) *
    2 ^ (((bits / 2 ^ (F.prec - 1) : ℕ) : ℤ) - 1 + F.emin - (F.prec - 1))

variable {F : Format} {q : ℚ}

/-- An exact value is a whole number of units in its last place. -/
theorem Exact.exists_ulps (hq : F.Exact q) : ∃ k : ℤ, q = k * 2 ^ F.ulpExp q := by
  obtain ⟨m, e, hm, he, rfl⟩ := hq
  rcases eq_or_ne m 0 with rfl | hm0
  · exact ⟨0, by simp⟩
  -- the unit is at most `2 ^ e`: either it is the smallest one, or `|m|` bounds the logarithm
  have hu : F.ulpExp ((m : ℚ) * 2 ^ e) ≤ e := by
    have hlt : |(m : ℚ) * 2 ^ e| < (2 : ℕ) ^ (F.prec + e : ℤ) := by
      have h2 : (0 : ℚ) < 2 ^ e := by positivity
      have hm' : |(m : ℚ)| < 2 ^ F.prec := by exact_mod_cast hm
      rw [abs_mul, abs_of_pos h2, Nat.cast_ofNat, zpow_add₀ (by norm_num), zpow_natCast]
      exact mul_lt_mul_of_pos_right hm' h2
    have hpos : 0 < |(m : ℚ) * 2 ^ e| := by
      apply abs_pos.2
      have : (m : ℚ) ≠ 0 := by exact_mod_cast hm0
      positivity
    have hlog := (Int.lt_zpow_iff_log_lt (by norm_num) hpos).1 hlt
    unfold ulpExp
    omega
  refine ⟨m * 2 ^ (e - F.ulpExp ((m : ℚ) * 2 ^ e)).toNat, ?_⟩
  have hpow : (2 : ℚ) ^ e = 2 ^ (e - F.ulpExp ((m : ℚ) * 2 ^ e)).toNat * 2 ^ F.ulpExp ((m : ℚ) * 2 ^ e) := by
    rw [← zpow_natCast, ← zpow_add₀ (by norm_num), Int.toNat_of_nonneg (by omega)]
    congr 1
    omega
  push_cast
  rw [mul_assoc, ← hpow]

/-- **Exact values are not rounded.** -/
theorem Exact.round_eq (hq : F.Exact q) : F.round q = q := by
  obtain ⟨k, hk⟩ := hq.exists_ulps
  unfold round
  split
  · rename_i h0
    exact h0.symm
  · have h2 : (2 : ℚ) ^ F.ulpExp q ≠ 0 := by positivity
    have hdiv : q / 2 ^ F.ulpExp q = k := by
      rw [div_eq_iff h2]
      exact hk
    rw [hdiv, roundEven_intCast]
    exact hk.symm

/-- The significand: below `2 ^ prec`, and normal exactly when the exponent is in range. -/
theorem Exact.exists_significand (hp : 0 < F.prec) (hq : F.Exact q) (h0 : q ≠ 0) :
    ∃ k : ℕ, |q| = k * 2 ^ F.ulpExp q ∧ k < 2 ^ F.prec ∧
      (Int.log 2 |q| < F.emin → k < 2 ^ (F.prec - 1)) ∧ (F.emin ≤ Int.log 2 |q| → 2 ^ (F.prec - 1) ≤ k) := by
  obtain ⟨k, hk⟩ := hq.exists_ulps
  have h2 : (0 : ℚ) < 2 ^ F.ulpExp q := by positivity
  have habs : |q| = k.natAbs * 2 ^ F.ulpExp q := by
    conv_lhs => rw [hk]
    rw [abs_mul, abs_of_pos h2, Nat.cast_natAbs, Int.cast_abs]
  have hpos : 0 < |q| := abs_pos.2 h0
  have hcast : (((F.prec - 1 : ℕ) : ℤ)) = F.prec - 1 := by omega
  -- a bound on `|q|` by a power of two is one on the significand
  have below (n : ℕ) (hlog : Int.log 2 |q| < n + F.ulpExp q) : k.natAbs < 2 ^ n := by
    have hlt := (Int.lt_zpow_iff_log_lt (by norm_num) hpos).2 hlog
    rw [habs, Nat.cast_ofNat, zpow_add₀ (by norm_num), zpow_natCast] at hlt
    exact_mod_cast lt_of_mul_lt_mul_right hlt h2.le
  have above (n : ℕ) (hlog : n + F.ulpExp q ≤ Int.log 2 |q|) : 2 ^ n ≤ k.natAbs := by
    have hle := (Int.zpow_le_iff_le_log (by norm_num) hpos).2 hlog
    rw [habs, Nat.cast_ofNat, zpow_add₀ (by norm_num), zpow_natCast] at hle
    exact_mod_cast le_of_mul_le_mul_right hle h2
  refine ⟨k.natAbs, habs, below F.prec ?_, fun hl => below (F.prec - 1) ?_, fun hl => above (F.prec - 1) ?_⟩
  · unfold ulpExp
    omega
  · unfold ulpExp
    omega
  · unfold ulpExp
    omega

/-- The magnitude bits of an exact value other than 0: subnormal (the exponent field is 0),
or normal (the leading bit of the significand carries into the exponent field). -/
theorem Exact.magnitude_cases (hp : 0 < F.prec) (hq : F.Exact q) (h0 : q ≠ 0) :
    (∃ k : ℕ, k < 2 ^ (F.prec - 1) ∧ |q| = k * 2 ^ (F.emin - (F.prec - 1)) ∧ F.magnitude q = k) ∨
    ∃ a f : ℕ, f < 2 ^ (F.prec - 1) ∧ Int.log 2 |q| = F.emin + a ∧
      |q| = ((2 ^ (F.prec - 1) + f : ℕ) : ℚ) * 2 ^ (F.emin + a - (F.prec - 1)) ∧
      F.magnitude q = f + 2 ^ (F.prec - 1) * (a + 1) := by
  obtain ⟨k, habs, hlt, hsub, hnor⟩ := hq.exists_significand hp h0
  have h2 : (2 : ℚ) ^ F.ulpExp q ≠ 0 := by positivity
  have hfloor : ⌊|q| / 2 ^ F.ulpExp q⌋ = k := by
    rw [habs, mul_div_assoc, div_self h2, mul_one]
    exact Int.floor_natCast k
  have hm : F.magnitude q = ((F.ulpExp q + (F.prec - 1) - F.emin) * 2 ^ (F.prec - 1) + (k : ℤ)).toNat := by
    unfold magnitude
    rw [if_neg h0, hfloor]
  rcases lt_or_ge (Int.log 2 |q|) F.emin with hl | hl
  · have hu : F.ulpExp q = F.emin - (F.prec - 1) := by
      unfold ulpExp
      rw [max_eq_right hl.le]
    refine .inl ⟨k, hsub hl, by rw [habs, hu], ?_⟩
    rw [hm, hu, show F.emin - ((F.prec : ℤ) - 1) + (F.prec - 1) - F.emin = 0 by ring, zero_mul, zero_add,
      Int.toNat_natCast]
  · obtain ⟨a, ha⟩ := Int.eq_ofNat_of_zero_le (sub_nonneg.2 hl)
    have hlog : Int.log 2 |q| = F.emin + a := by omega
    have hu : F.ulpExp q = F.emin + a - (F.prec - 1) := by
      unfold ulpExp
      rw [max_eq_left hl, hlog]
    have hP : 2 ^ F.prec = 2 * 2 ^ (F.prec - 1) := by
      rw [← pow_succ', Nat.sub_add_cancel hp]
    obtain ⟨f, rfl⟩ := Nat.exists_eq_add_of_le (hnor hl)
    refine .inr ⟨a, f, by omega, hlog, by rw [habs, hu], ?_⟩
    have hbits : (a : ℤ) * 2 ^ (F.prec - 1) + ((2 ^ (F.prec - 1) + f : ℕ) : ℤ) =
        ((f + 2 ^ (F.prec - 1) * (a + 1) : ℕ) : ℤ) := by
      push_cast
      ring
    rw [hm, hu, show F.emin + (a : ℤ) - (F.prec - 1) + (F.prec - 1) - F.emin = a by ring, hbits,
      Int.toNat_natCast]

/-- **The magnitude bits of an exact value decode to it.** -/
theorem Exact.value_magnitude (hp : 0 < F.prec) (hq : F.Exact q) : F.value (F.magnitude q) = |q| := by
  rcases eq_or_ne q 0 with rfl | h0
  · simp [value, magnitude]
  unfold value
  rcases hq.magnitude_cases hp h0 with ⟨k, hk, habs, hm⟩ | ⟨a, f, hf, -, habs, hm⟩
  · rw [hm, if_pos (Nat.div_eq_of_lt hk), habs]
  · rw [hm, Nat.add_mul_div_left _ _ (Nat.two_pow_pos _), Nat.div_eq_of_lt hf, Nat.add_mul_mod_self_left,
      Nat.mod_eq_of_lt hf, if_neg (by omega), habs]
    congr 2
    push_cast
    ring

/-- The exponent field is at most `n`, when the exponent is below `emin + n`. -/
theorem Exact.magnitude_lt (hp : 0 < F.prec) (hq : F.Exact q) {n : ℕ} (hn : |q| < 2 ^ (F.emin + n)) :
    F.magnitude q < 2 ^ (F.prec - 1) * (n + 1) := by
  rcases eq_or_ne q 0 with rfl | h0
  · simp [magnitude]
  rcases hq.magnitude_cases hp h0 with ⟨k, hk, -, hm⟩ | ⟨a, f, hf, hlog, -, hm⟩
  · rw [hm]
    exact hk.trans_le (Nat.le_mul_of_pos_right _ n.succ_pos)
  · have ha : a < n := by
      have hlt := (Int.lt_zpow_iff_log_lt (b := 2) (by norm_num) (abs_pos.2 h0)).1 (by exact_mod_cast hn)
      omega
    calc F.magnitude q = f + 2 ^ (F.prec - 1) * (a + 1) := hm
      _ < 2 ^ (F.prec - 1) * (a + 1 + 1) := by
        rw [Nat.mul_succ _ (a + 1), Nat.add_comm]
        exact Nat.add_lt_add_left hf _
      _ ≤ 2 ^ (F.prec - 1) * (n + 1) := Nat.mul_le_mul_left _ (by omega)

end Format

/-- The number a `binary32` pattern stands for; infinities and NaNs stand for none. -/
def value32 (b : BitVec 32) : Option ℚ :=
  if 0x7F800000 ≤ b.toNat % 2 ^ 31 then none
  else if b.toNat < 2 ^ 31 then some (binary32.value (b.toNat % 2 ^ 31))
  else some (-binary32.value (b.toNat % 2 ^ 31))

/-- **An exact value in range is recovered from its pattern.** -/
theorem value32_float32 {q : ℚ} (hq : binary32.Exact q) (hb : |q| < 2 ^ 128) : value32 (float32 q) = some q := by
  have hm : binary32.magnitude q < 0x7F800000 :=
    hq.magnitude_lt (n := 254) (by decide) (by exact_mod_cast hb)
  have hv : binary32.value (binary32.magnitude q) = |q| := hq.value_magnitude (by decide)
  unfold float32
  simp only [hq.round_eq, min_eq_left hm.le]
  unfold value32
  rw [BitVec.toNat_ofNat]
  split
  · rename_i hneg
    have h32 : (2 ^ 31 + binary32.magnitude q) % 2 ^ 32 = 2 ^ 31 + binary32.magnitude q :=
      Nat.mod_eq_of_lt (by omega)
    have h31 : (2 ^ 31 + binary32.magnitude q) % 2 ^ 31 = binary32.magnitude q := by omega
    rw [h32, h31, if_neg (by omega), if_neg (by omega), hv, abs_of_neg hneg, neg_neg]
  · rename_i hpos
    have h32 : (0 + binary32.magnitude q) % 2 ^ 32 = binary32.magnitude q := by omega
    have h31 : binary32.magnitude q % 2 ^ 31 = binary32.magnitude q := Nat.mod_eq_of_lt (by omega)
    rw [h32, h31, if_neg (by omega), if_pos (by omega), hv, abs_of_nonneg (not_lt.1 hpos)]

end Binary
