import M20Strain.Binary.Exact
import Mathlib.Tactic.Linarith

/-!
# Rounding errors

Rounding ends in the format (`round_exact`), at most half a unit in the last place away
(`abs_round_sub_le`), so the bit pattern of any rational in range is that of its rounded value
(`value32_round`).
-/

namespace Binary

theorem abs_roundEven_sub_le (q : ℚ) : |(roundEven q : ℚ) - q| ≤ 1 / 2 := by
  have hle := Int.floor_le q
  have hlt := Int.lt_floor_add_one q
  unfold roundEven
  dsimp only
  split_ifs
  · rw [abs_le]
    constructor <;> linarith
  · push_cast
    rw [abs_le]
    constructor <;> linarith
  · rw [abs_le]
    constructor <;> linarith
  · push_cast
    rw [abs_le]
    constructor <;> linarith

namespace Format

variable {F : Format} {q : ℚ} {n : ℤ}

/-- The unit in the last place of numbers below `2 ^ n`. -/
theorem ulpExp_le (h0 : q ≠ 0) (hq : |q| < 2 ^ n) (hn : F.emin < n) : F.ulpExp q ≤ n - F.prec := by
  have hlog : Int.log 2 |q| < n :=
    (Int.lt_zpow_iff_log_lt (b := 2) (by norm_num) (abs_pos.2 h0)).1 (by exact_mod_cast hq)
  unfold ulpExp
  omega

/-- **Half a unit in the last place.** -/
theorem abs_round_sub_le (F : Format) (q : ℚ) : |F.round q - q| ≤ 2 ^ F.ulpExp q / 2 := by
  have h2 : (0 : ℚ) < 2 ^ F.ulpExp q := by positivity
  unfold round
  split
  · rename_i h0
    rw [h0, sub_zero, abs_zero]
    positivity
  · have hk := abs_roundEven_sub_le (q / 2 ^ F.ulpExp q)
    have heq : (roundEven (q / 2 ^ F.ulpExp q) : ℚ) * 2 ^ F.ulpExp q - q =
        (roundEven (q / 2 ^ F.ulpExp q) - q / 2 ^ F.ulpExp q) * 2 ^ F.ulpExp q := by
      rw [sub_mul, div_mul_cancel₀ q h2.ne']
    rw [heq, abs_mul, abs_of_pos h2]
    calc |(roundEven (q / 2 ^ F.ulpExp q) : ℚ) - q / 2 ^ F.ulpExp q| * 2 ^ F.ulpExp q
        ≤ 1 / 2 * 2 ^ F.ulpExp q := mul_le_mul_of_nonneg_right hk h2.le
      _ = 2 ^ F.ulpExp q / 2 := by ring

/-- The error of numbers below `2 ^ n`. -/
theorem abs_round_sub_le_of_lt (hq : |q| < 2 ^ n) (hn : F.emin < n) : |F.round q - q| ≤ 2 ^ (n - F.prec) / 2 := by
  rcases eq_or_ne q 0 with rfl | h0
  · have hround : F.round 0 = 0 := if_pos rfl
    rw [hround, sub_zero, abs_zero]
    positivity
  · have hpow : (2 : ℚ) ^ F.ulpExp q ≤ 2 ^ (n - F.prec) :=
      zpow_le_zpow_right₀ (by norm_num) (ulpExp_le h0 hq hn)
    have herr := abs_round_sub_le F q
    linarith

/-- The significand before rounding. -/
theorem abs_div_ulp_lt (F : Format) (q : ℚ) : |q / 2 ^ F.ulpExp q| < 2 ^ F.prec := by
  have h2 : (0 : ℚ) < 2 ^ F.ulpExp q := by positivity
  have hlog : |q| < 2 ^ (Int.log 2 |q| + 1) := by
    exact_mod_cast Int.lt_zpow_succ_log_self (b := 2) (by norm_num) |q|
  have hle : Int.log 2 |q| + 1 ≤ F.prec + F.ulpExp q := by
    unfold ulpExp
    omega
  rw [abs_div, abs_of_pos h2, div_lt_iff₀ h2]
  calc |q| < 2 ^ (Int.log 2 |q| + 1) := hlog
    _ ≤ 2 ^ (F.prec + F.ulpExp q) := zpow_le_zpow_right₀ (by norm_num) hle
    _ = 2 ^ F.prec * 2 ^ F.ulpExp q := by rw [zpow_add₀ (by norm_num), zpow_natCast]

/-- The significand after rounding. -/
theorem abs_roundEven_le (F : Format) (q : ℚ) : |roundEven (q / 2 ^ F.ulpExp q)| ≤ 2 ^ F.prec := by
  have hlt := abs_div_ulp_lt F q
  have hround := abs_roundEven_sub_le (q / 2 ^ F.ulpExp q)
  have htri := abs_sub_abs_le_abs_sub (roundEven (q / 2 ^ F.ulpExp q) : ℚ) (q / 2 ^ F.ulpExp q)
  have habs : |(roundEven (q / 2 ^ F.ulpExp q) : ℚ)| < 2 ^ F.prec + 1 := by linarith
  exact Int.lt_add_one_iff.1 (by exact_mod_cast habs)

/-- **A rounded value is one of the format.** -/
theorem round_exact (hp : 0 < F.prec) (q : ℚ) : F.Exact (F.round q) := by
  have hu : F.emin - (F.prec - 1) ≤ F.ulpExp q := by
    unfold ulpExp
    omega
  unfold round
  split
  · exact ⟨0, F.ulpExp q, by positivity, hu, by simp⟩
  rcases (abs_roundEven_le F q).lt_or_eq with hlt | heq
  · exact ⟨roundEven (q / 2 ^ F.ulpExp q), F.ulpExp q, hlt, hu, rfl⟩
  · -- rounded to the next power of two, it has one bit in the next binade
    obtain ⟨p, hprec⟩ := Nat.exists_eq_succ_of_ne_zero hp.ne'
    rw [hprec, pow_succ] at heq
    obtain ⟨m, hm, hk⟩ : ∃ m : ℤ, |m| = 2 ^ p ∧ roundEven (q / 2 ^ F.ulpExp q) = m * 2 := by
      rcases abs_eq (by positivity) |>.1 heq with hk | hk
      · exact ⟨2 ^ p, abs_of_pos (by positivity), hk⟩
      · exact ⟨-2 ^ p, by rw [abs_neg, abs_of_pos (by positivity)], by rw [hk]; ring⟩
    refine ⟨m, F.ulpExp q + 1, ?_, by omega, ?_⟩
    · rw [hm, hprec]
      exact pow_lt_pow_right₀ (by norm_num) (Nat.lt_succ_self p)
    · rw [hk, zpow_add_one₀ (by norm_num)]
      push_cast
      ring

end Format

/-- **The bit pattern of a rational in range is that of its rounded value.** -/
theorem value32_round {q : ℚ} (hb : |binary32.round q| < 2 ^ 128) :
    value32 (float32 q) = some (binary32.round q) := by
  have hq := Format.round_exact (F := binary32) (by decide) q
  have heq : float32 q = float32 (binary32.round q) := by
    unfold float32
    rw [hq.round_eq]
  rw [heq]
  exact value32_float32 hq hb

end Binary
