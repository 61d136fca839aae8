import M20Strain.Binary.Rounding
import M20Strain.Proof.Wire

/-!
# What the conversions keep of a sample

A sample has 24 bits. `strain_resolves`: the conversion written for the strain gauges keeps the
samples apart and in order, and is right to a thousandth of a microvolt; the one that is called
instead keeps their first 14 bits.
-/

namespace M20Strain

open Binary

/-- The voltage of a sample, in microvolts: 2.5 V over a gain of 128, at full scale. -/
def microvolts (v : Int) : ℚ := v * (2.5 / 128 * 1000000 / (2 ^ 23 - 1))

theorem microvolts_sub (v w : Int) : microvolts w - microvolts v = (w - v) * (78125 / 33554428) := by
  unfold microvolts
  ring

theorem abs_microvolts_lt {v : Int} (hv : |v| ≤ 2 ^ 23) : |microvolts v| < 19532 := by
  have hq : |(v : ℚ)| ≤ 2 ^ 23 := by exact_mod_cast hv
  unfold microvolts
  rw [abs_mul]
  norm_num
  linarith

/-- The products before the last quotient are exact. -/
theorem convertToMicroVStrain_eq (data : BitVec 32) :
    convertToMicroVStrain data = float32 (binary64.round (microvolts data.toInt)) := by
  have hl : -2 ^ 31 ≤ data.toInt := data.le_toInt
  have hu : data.toInt < 2 ^ 31 := data.toInt_lt
  have hfive : |data.toInt * 5| < 2 ^ 53 := by
    rw [abs_lt]
    constructor <;> omega
  have hlast : |data.toInt * 78125| < 2 ^ 53 := by
    rw [abs_lt]
    constructor <;> omega
  have h1 : binary64.Exact (data.toInt * (5 / 2)) := by
    refine ⟨data.toInt * 5, -1, hfive, by decide, ?_⟩
    push_cast
    ring
  have h2 : binary64.Exact (data.toInt * (5 / 2) / 128) := by
    refine ⟨data.toInt * 5, -8, hfive, by decide, ?_⟩
    push_cast
    ring
  have h3 : binary64.Exact (data.toInt * (5 / 2) / 128 * 1000000) := by
    refine ⟨data.toInt * 78125, -2, hlast, by decide, ?_⟩
    push_cast
    ring
  unfold convertToMicroVStrain microvolts
  simp only [h1.round_eq, h2.round_eq, h3.round_eq]
  congr 2
  ring

/-- **The strain conversion is right to a thousandth of a microvolt.** -/
theorem convertToMicroVStrain_value (data : BitVec 32) (hd : |data.toInt| ≤ 2 ^ 23) :
    ∃ x, value32 (convertToMicroVStrain data) = some x ∧ |x - microvolts data.toInt| < 1 / 1000 := by
  have hlt := abs_microvolts_lt hd
  rw [convertToMicroVStrain_eq]
  set a := microvolts data.toInt
  have h64 : |binary64.round a - a| ≤ 2 ^ ((15 : ℤ) - binary64.prec) / 2 :=
    Format.abs_round_sub_le_of_lt (hlt.trans (by norm_num)) (by decide)
  have h64 : |binary64.round a - a| ≤ 1 / 549755813888 := h64.trans (by norm_num [binary64])
  have hb : |binary64.round a| < 19533 := by
    have htri := abs_sub_abs_le_abs_sub (binary64.round a) a
    linarith
  have h32 : |binary32.round (binary64.round a) - binary64.round a| ≤ 2 ^ ((15 : ℤ) - binary32.prec) / 2 :=
    Format.abs_round_sub_le_of_lt (hb.trans (by norm_num)) (by decide)
  have h32 : |binary32.round (binary64.round a) - binary64.round a| ≤ 1 / 1024 := h32.trans (by norm_num [binary32])
  refine ⟨binary32.round (binary64.round a), value32_round ?_, ?_⟩
  · have htri := abs_sub_abs_le_abs_sub (binary32.round (binary64.round a)) (binary64.round a)
    linarith
  · have htri := abs_sub_le (binary32.round (binary64.round a)) (binary64.round a) a
    linarith

theorem sample_bounds (v : BitVec 24) : (v.signExtend 32).toInt = v.toInt ∧ |v.toInt| ≤ 2 ^ 23 := by
  have hl : -2 ^ 23 ≤ v.toInt := v.le_toInt
  have hu : v.toInt < 2 ^ 23 := v.toInt_lt
  exact ⟨BitVec.toInt_signExtend_of_le (by decide), abs_le.2 ⟨hl, hu.le⟩⟩

/-- Two samples are further apart than the errors of both. -/
theorem microvolts_gap {v w : Int} (hvw : v < w) : microvolts v + 1 / 500 < microvolts w := by
  have hsub := microvolts_sub v w
  have hone : (1 : ℚ) ≤ w - v := by
    have hle : v + 1 ≤ w := hvw
    have hcast : (v : ℚ) + 1 ≤ w := by exact_mod_cast hle
    linarith
  linarith

theorem first_bits (v : BitVec 24) : (v.extractLsb' 10 14).toInt = v.toInt / 1024 := by
  have hlt := v.isLt
  rw [BitVec.toInt_eq_toNat_cond, BitVec.toInt_eq_toNat_cond, BitVec.extractLsb'_toNat, Nat.shiftRight_eq_div_pow]
  split <;> split <;> omega

/-- The conversion that is called takes the first 14 bits of a sample. -/
theorem convertToMicroVTemp_first_bits (v : BitVec 24) : convertToMicroVTemp (v.signExtend 32) =
    float32 (binary64.round (binary32.round (v.extractLsb' 10 14).toInt * (1 / 32))) := by
  have hshift : ((v.signExtend 32).sshiftRight 10).toInt = (v.extractLsb' 10 14).toInt := by
    rw [BitVec.toInt_sshiftRight, Int.shiftRight_eq_div_pow, (sample_bounds v).1, first_bits]
    norm_num
  unfold convertToMicroVTemp
  rw [hshift]

/-- **What the conversions keep of a sample**: the one for the gauges its order, the one that is
called its first 14 bits. -/
theorem strain_resolves (v w : BitVec 24) :
    (∃ x y, value32 (convertToMicroVStrain (v.signExtend 32)) = some x ∧
      value32 (convertToMicroVStrain (w.signExtend 32)) = some y ∧ |x - microvolts v.toInt| < 1 / 1000 ∧
        (x < y ↔ v.toInt < w.toInt)) ∧
      (convertToMicroVTemp (v.signExtend 32) = convertToMicroVTemp (w.signExtend 32) ↔
        v.extractLsb' 10 14 = w.extractLsb' 10 14) := by
  obtain ⟨hv, hv23⟩ := sample_bounds v
  obtain ⟨hw, hw23⟩ := sample_bounds w
  constructor
  · obtain ⟨x, hx, hxv⟩ := convertToMicroVStrain_value (v.signExtend 32) (hv ▸ hv23)
    obtain ⟨y, hy, hyw⟩ := convertToMicroVStrain_value (w.signExtend 32) (hw ▸ hw23)
    rw [hv] at hxv
    rw [hw] at hyw
    refine ⟨x, y, hx, hy, hxv, ?_⟩
    rw [abs_lt] at hxv hyw
    rcases lt_trichotomy v.toInt w.toInt with hlt | heq | hgt
    · have hgap := microvolts_gap hlt
      exact iff_of_true (by linarith) hlt
    · obtain rfl := BitVec.toInt_inj.1 heq
      obtain rfl := Option.some.inj (hx.symm.trans hy)
      exact iff_of_false (lt_irrefl x) (lt_irrefl _)
    · have hgap := microvolts_gap hgt
      exact iff_of_false (by linarith) hgt.asymm
  · constructor
    · intro heq
      have hl : -2 ^ 23 ≤ v.toInt := v.le_toInt
      have hu : v.toInt < 2 ^ 23 := v.toInt_lt
      have hl' : -2 ^ 23 ≤ w.toInt := w.le_toInt
      have hu' : w.toInt < 2 ^ 23 := w.toInt_lt
      have hpub := congrArg value32 heq
      rw [convertToMicroVTemp_value (by omega) (by omega), convertToMicroVTemp_value (by omega) (by omega), hv, hw,
        Option.some.injEq, published_value, published_value, floor_div_1024, floor_div_1024] at hpub
      have hdiv : v.toInt / 1024 = w.toInt / 1024 := by
        exact_mod_cast (div_left_inj' (by norm_num)).1 hpub
      rw [← BitVec.toInt_inj, first_bits, first_bits, hdiv]
    · intro heq
      rw [convertToMicroVTemp_first_bits, convertToMicroVTemp_first_bits, heq]

end M20Strain
