import Mathlib.Algebra.Order.Floor.Defs
import Mathlib.Algebra.Order.Floor.Ring
import Mathlib.Algebra.Order.Ring.Rat
import Mathlib.Data.Nat.Log
import Mathlib.Data.Rat.Floor
import Mathlib.Tactic.FieldSimp
import Mathlib.Tactic.Linarith
import Mathlib.Tactic.Positivity
import Mathlib.Tactic.Ring

/-!
# Decimal arithmetic

Finite decimals as a sign, a coefficient and an exponent. A product or a sum is
exact and then rounded to the precision of the context, half to even. Exponents
are unbounded here.
-/

namespace PyDecimal

/-- A finite `Decimal`. -/
structure Decimal where
  negative : Bool
  coefficient : ℕ
  exponent : ℤ
  deriving DecidableEq

inductive Rounding
  | halfEven
  | halfUp
  deriving DecidableEq

/-- Whether the quotient of a division by a power of ten is increased. -/
def Rounding.increases (mode : Rounding) (quotient remainder divisor : ℕ) : Bool :=
  match mode with
  | .halfEven => divisor < 2 * remainder ∨ divisor = 2 * remainder ∧ quotient % 2 = 1
  | .halfUp => divisor ≤ 2 * remainder

/-- The coefficient that is left when the last digits are rounded off. -/
def dropDigits (mode : Rounding) (coefficient digits : ℕ) : ℕ :=
  let quotient := coefficient / 10 ^ digits
  if mode.increases quotient (coefficient % 10 ^ digits) (10 ^ digits) then quotient + 1
  else quotient

namespace Decimal

def signedCoefficient (x : Decimal) : ℤ := if x.negative then -x.coefficient else x.coefficient

def toRat (x : Decimal) : ℚ := x.signedCoefficient * 10 ^ x.exponent

/-- The signed coefficient at a smaller exponent. -/
def scaled (x : Decimal) (exponent : ℤ) : ℤ :=
  x.signedCoefficient * 10 ^ (x.exponent - exponent).toNat

def copyAbs (x : Decimal) : Decimal := { x with negative := false }

/-- `x < y`, which is exact. -/
def lt (x y : Decimal) : Bool :=
  let exponent := min x.exponent y.exponent
  x.scaled exponent < y.scaled exponent

/-- Rounding to the precision of the context. -/
def fix (precision : ℕ) (x : Decimal) : Decimal :=
  if x.coefficient < 10 ^ precision then x
  else
    let excess := Nat.log 10 x.coefficient + 1 - precision
    let coefficient := dropDigits .halfEven x.coefficient excess
    if coefficient < 10 ^ precision then ⟨x.negative, coefficient, x.exponent + excess⟩
    else ⟨x.negative, coefficient / 10, x.exponent + excess + 1⟩

def mul (precision : ℕ) (x y : Decimal) : Decimal :=
  fix precision ⟨x.negative ^^ y.negative, x.coefficient * y.coefficient, x.exponent + y.exponent⟩

/-- A zero sum is negative only if both terms are. -/
def add (precision : ℕ) (x y : Decimal) : Decimal :=
  let exponent := min x.exponent y.exponent
  let sum := x.scaled exponent + y.scaled exponent
  let negative := if sum = 0 then x.negative && y.negative else decide (sum < 0)
  fix precision ⟨negative, sum.natAbs, exponent⟩

/-- `quantize`, which raises when the result has more digits than the context. -/
def quantize (precision : ℕ) (mode : Rounding) (x : Decimal) (exponent : ℤ) : Option Decimal :=
  let coefficient :=
    if exponent ≤ x.exponent then x.coefficient * 10 ^ (x.exponent - exponent).toNat
    else dropDigits mode x.coefficient (exponent - x.exponent).toNat
  if coefficient < 10 ^ precision then some ⟨x.negative, coefficient, exponent⟩ else none

/-! ## Values -/

variable {x y : Decimal} {precision : ℕ}

theorem toRat_scaled {exponent : ℤ} (h : exponent ≤ x.exponent) :
    x.toRat = x.scaled exponent * 10 ^ exponent := by
  have hpow : (10 : ℚ) ^ x.exponent = 10 ^ (x.exponent - exponent).toNat * 10 ^ exponent := by
    rw [← zpow_natCast, ← zpow_add₀ (by norm_num)]
    congr 1
    omega
  rw [toRat, scaled, hpow]
  push_cast
  ring

theorem lt_iff : x.lt y ↔ x.toRat < y.toRat := by
  have hx := toRat_scaled (x := x) (min_le_left x.exponent y.exponent)
  have hy := toRat_scaled (x := y) (min_le_right x.exponent y.exponent)
  have hpos : (0 : ℚ) < 10 ^ min x.exponent y.exponent := zpow_pos (by norm_num) _
  rw [lt, hx, hy, decide_eq_true_eq, mul_lt_mul_iff_left₀ hpos, Int.cast_lt]

/-- Decimals of one exponent are compared by their coefficients. -/
theorem lt_of_exponent (h : x.exponent = y.exponent) :
    x.lt y = decide (x.signedCoefficient < y.signedCoefficient) := by
  simp [lt, scaled, h]

theorem fix_eq_self (h : x.coefficient < 10 ^ precision) : fix precision x = x := if_pos h

/-- A product that fits the precision is exact. -/
theorem toRat_mul (h : x.coefficient * y.coefficient < 10 ^ precision) :
    (mul precision x y).toRat = x.toRat * y.toRat := by
  have hsign : ∀ a b : Bool, ∀ m n : ℕ,
      ((if a ^^ b then -((m * n : ℕ) : ℤ) else ((m * n : ℕ) : ℤ) : ℤ) : ℚ) =
        ((if a then -(m : ℤ) else m : ℤ) : ℚ) * ((if b then -(n : ℤ) else n : ℤ) : ℚ) := by
    intro a b m n
    cases a <;> cases b <;> simp
  rw [mul, fix_eq_self h]
  simp only [toRat, signedCoefficient, hsign]
  rw [zpow_add₀ (by norm_num)]
  ring

/-- The sign and the magnitude of a sum give the sum. -/
theorem signed_natAbs (zeroSign : Bool) (sum : ℤ) :
    (if (if sum = 0 then zeroSign else decide (sum < 0)) = true then -(sum.natAbs : ℤ)
      else sum.natAbs) = sum := by
  by_cases hzero : sum = 0
  · rw [hzero]
    cases zeroSign <;> rfl
  · simp only [hzero, if_false, decide_eq_true_eq]
    split_ifs <;> omega

/-- A sum that fits the precision is exact. -/
theorem toRat_add
    (h : (x.scaled (min x.exponent y.exponent) + y.scaled (min x.exponent y.exponent)).natAbs <
      10 ^ precision) : (add precision x y).toRat = x.toRat + y.toRat := by
  rw [toRat_scaled (x := x) (min_le_left x.exponent y.exponent),
    toRat_scaled (x := y) (min_le_right x.exponent y.exponent), ← add_mul, ← Int.cast_add, add,
    fix_eq_self h]
  simp only [toRat, signedCoefficient, signed_natAbs]

/-- A sum of positive decimals, the second of which has more places. -/
theorem add_of_nonneg {a b places : ℕ} {larger exponent : ℤ} (hlarger : larger = exponent + places)
    (h : a * 10 ^ places + b < 10 ^ precision) :
    add precision ⟨false, a, larger⟩ ⟨false, b, exponent⟩ =
      ⟨false, a * 10 ^ places + b, exponent⟩ := by
  subst hlarger
  have hmin : min (exponent + places) exponent = exponent := by omega
  have hsum : scaled ⟨false, a, exponent + places⟩ exponent + scaled ⟨false, b, exponent⟩ exponent =
      ((a * 10 ^ places + b : ℕ) : ℤ) := by
    simp [scaled, signedCoefficient]
  unfold add
  simp only [hmin, hsum, Int.natAbs_natCast, Bool.and_self]
  have hsign : (if ((a * 10 ^ places + b : ℕ) : ℤ) = 0 then false
      else decide (((a * 10 ^ places + b : ℕ) : ℤ) < 0)) = false := by
    split_ifs
    · rfl
    · exact decide_eq_false (by omega)
  rw [hsign, fix_eq_self h]

/-! ## Rounding half up -/

theorem dropDigits_halfUp (coefficient digits : ℕ) :
    dropDigits .halfUp coefficient digits =
      (2 * coefficient + 10 ^ digits) / (2 * 10 ^ digits) := by
  have hpos : 0 < 10 ^ digits := by positivity
  unfold dropDigits Rounding.increases
  generalize 10 ^ digits = divisor at hpos ⊢
  have hdivision := Nat.div_add_mod coefficient divisor
  have hremainder := Nat.mod_lt coefficient hpos
  generalize coefficient / divisor = quotient at hdivision ⊢
  generalize coefficient % divisor = remainder at hdivision hremainder ⊢
  subst hdivision
  simp only [decide_eq_true_eq]
  symm
  split_ifs with hhalf
  · apply Nat.div_eq_of_lt_le
    · nlinarith
    · nlinarith
  · apply Nat.div_eq_of_lt_le
    · nlinarith
    · nlinarith

theorem toRat_of_nonneg (hsign : x.negative = false) :
    x.toRat = x.coefficient * 10 ^ x.exponent := by
  simp [toRat, signedCoefficient, hsign]

/-- `quantize` of a decimal with more places rounds its value half up. -/
theorem toRat_quantize_halfUp {exponent : ℤ} {r : Decimal} (hsign : x.negative = false)
    (hexponent : x.exponent < exponent) (h : quantize precision .halfUp x exponent = some r) :
    r.toRat = ⌊x.toRat / 10 ^ exponent + 1 / 2⌋ * 10 ^ exponent := by
  obtain ⟨digits, hdigits⟩ : ∃ digits : ℕ, exponent = x.exponent + digits :=
    ⟨(exponent - x.exponent).toNat, by omega⟩
  have htoNat : (exponent - x.exponent).toNat = digits := by omega
  have hvalue : x.toRat / 10 ^ exponent + 1 / 2 =
      ((2 * x.coefficient + 10 ^ digits : ℕ) : ℤ) / ((2 * 10 ^ digits : ℕ) : ℚ) := by
    have hten : (10 : ℚ) ^ x.exponent ≠ 0 := zpow_ne_zero _ (by norm_num)
    rw [toRat_of_nonneg hsign, hdigits, zpow_add₀ (by norm_num), zpow_natCast]
    push_cast
    field_simp
  unfold quantize at h
  simp only [if_neg (not_le_of_gt hexponent), htoNat, dropDigits_halfUp] at h
  split_ifs at h
  have hr := Option.some.inj h
  have hrsign : r.negative = false := hr ▸ hsign
  rw [hvalue, Rat.floor_intCast_div_natCast, toRat_of_nonneg hrsign, ← hr, ← Int.natCast_div,
    Int.cast_natCast]

/-! ## Exact results -/

theorem natAbs_signedCoefficient (x : Decimal) : x.signedCoefficient.natAbs = x.coefficient := by
  unfold signedCoefficient
  split_ifs <;> omega

/-- Zeros are dropped without rounding. -/
theorem dropDigits_mul (mode : Rounding) (a digits : ℕ) :
    dropDigits mode (a * 10 ^ digits) digits = a := by
  have hpos : 0 < 10 ^ digits := by positivity
  unfold dropDigits
  dsimp only
  rw [Nat.mul_div_cancel _ hpos, Nat.mul_mod_left, if_neg]
  cases mode with
  | halfEven =>
    simp only [Rounding.increases, decide_eq_true_eq]
    omega
  | halfUp =>
    simp only [Rounding.increases, decide_eq_true_eq]
    omega

/-- `quantize` of a decimal whose value fits the places keeps the value. -/
theorem quantize_of_toRat {mode : Rounding} {exponent m : ℤ} (h : x.toRat = m * 10 ^ exponent)
    (hfits : m.natAbs < 10 ^ precision) :
    x.quantize precision mode exponent = some ⟨x.negative, m.natAbs, exponent⟩ := by
  have hten : ∀ e : ℤ, (10 : ℚ) ^ e ≠ 0 := fun e => zpow_ne_zero e (by norm_num)
  unfold quantize
  by_cases hle : exponent ≤ x.exponent
  · have hscaled : x.scaled exponent = m := by
      rw [toRat_scaled hle] at h
      exact_mod_cast mul_right_cancel₀ (hten exponent) h
    have hcoefficient : x.coefficient * 10 ^ (x.exponent - exponent).toNat = m.natAbs := by
      rw [← hscaled, scaled, Int.natAbs_mul, natAbs_signedCoefficient, Int.natAbs_pow]
      rfl
    simp only [if_pos hle, hcoefficient, if_pos hfits]
  · obtain ⟨digits, hdigits⟩ : ∃ digits : ℕ, exponent = x.exponent + digits :=
      ⟨(exponent - x.exponent).toNat, by omega⟩
    have hsigned : x.signedCoefficient = m * 10 ^ digits := by
      rw [toRat, hdigits, zpow_add₀ (by norm_num), mul_comm ((10 : ℚ) ^ x.exponent), ← mul_assoc,
        zpow_natCast] at h
      exact_mod_cast mul_right_cancel₀ (hten x.exponent) h
    have hcoefficient : x.coefficient = m.natAbs * 10 ^ digits := by
      rw [← natAbs_signedCoefficient, hsigned, Int.natAbs_mul, Int.natAbs_pow]
      rfl
    have htoNat : (exponent - x.exponent).toNat = digits := by omega
    simp only [if_neg hle, htoNat, hcoefficient, dropDigits_mul, if_pos hfits]

end Decimal

end PyDecimal
