import Mathlib.Data.Rat.Floor
import Mathlib.Data.Int.Log

/-!
# Binary floating-point formats

Rounding of rationals to a binary format (nearest, ties to even) and the bit
pattern of a rounded value. A value whose pattern would pass the largest finite
one gets that of an infinity.
-/

namespace Binary

/-- A format: `prec` significand bits (the leading one included), and the exponent
`emin` of the smallest normal number `2 ^ emin`. -/
structure Format where
  prec : ℕ
  emin : ℤ

def binary32 : Format := ⟨24, -126⟩

def binary64 : Format := ⟨53, -1022⟩

/-- The nearest integer, the even one of two. -/
def roundEven (q : ℚ) : ℤ :=
  let f := ⌊q⌋
  if q - f < 1 / 2 then f
  else if 1 / 2 < q - f then f + 1
  else if f % 2 = 0 then f else f + 1

namespace Format

/-- The exponent of the unit in the last place of values near `q`. -/
def ulpExp (F : Format) (q : ℚ) : ℤ := max (Int.log 2 |q|) F.emin - (F.prec - 1)

/-- `q` rounded to the format, with unbounded exponents upwards. -/
def round (F : Format) (q : ℚ) : ℚ :=
  if q = 0 then 0 else roundEven (q / 2 ^ F.ulpExp q) * 2 ^ F.ulpExp q

/-- The magnitude bits (exponent and fraction fields) of a value of the format:
the exponent above `emin` counts in units of `2 ^ (prec - 1)`, the significand
adds to it, and subnormals need no case of their own. -/
def magnitude (F : Format) (q : ℚ) : ℕ :=
  if q = 0 then 0
  else ((F.ulpExp q + (F.prec - 1) - F.emin) * 2 ^ (F.prec - 1) + ⌊|q| / 2 ^ F.ulpExp q⌋).toNat

end Format

/-- The bit pattern of `q`, rounded to `binary32`. -/
def float32 (q : ℚ) : BitVec 32 :=
  let r := binary32.round q
  BitVec.ofNat 32 ((if r < 0 then 2 ^ 31 else 0) + min (binary32.magnitude r) 0x7F800000)

end Binary
