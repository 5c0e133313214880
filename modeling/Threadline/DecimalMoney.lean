import Threadline.Contracts
import Threadline.PyDecimal

/-!
# Money in decimals

The money functions as the decimal module computes them, with 28 digits. On
amounts in cents they agree with the exact arithmetic of the reconciler.
-/

open PyText PyDecimal

namespace Threadline

namespace DecimalMoney

/-- The precision of the default context. -/
def precision : ℕ := 28

def cent : Decimal := ⟨false, 1, -2⟩

def zeroEur : Decimal := ⟨false, 0, -2⟩

def maxMoney : Decimal := ⟨false, 999999999999999999, -2⟩

inductive MoneyError
  | unsupportedCurrency (currency : Text)
  | unsupportedPaymentMethod (method : Text)
  | outOfRange (value : Decimal)
  | cannotRound (value : Decimal)
  | negativeCapture
  deriving DecidableEq

structure FeeRule where
  fixed : Decimal
  rate : Decimal
  deriving DecidableEq

/-- `FEE_RULES`. -/
def feeRule? (method : Text) : Option FeeRule :=
  if method = txt "CARD" then some ⟨⟨false, 20, -2⟩, ⟨false, 18, -3⟩⟩
  else if method = txt "WALLET" then some ⟨⟨false, 25, -2⟩, ⟨false, 20, -3⟩⟩
  else none

def requireSupportedRange (value : Decimal) : Except MoneyError Decimal :=
  if maxMoney.lt value.copyAbs then .error (.outOfRange value) else .ok value

/-- Round to euro cents with `ROUND_HALF_UP`. -/
def roundEur (value : Decimal) : Except MoneyError Decimal :=
  match value.quantize precision .halfUp cent.exponent with
  | some rounded => requireSupportedRange rounded
  | none => .error (.cannotRound value)

/-- `fixed + captured_amount * rate`. -/
def unroundedFee (rule : FeeRule) (capturedAmount : Decimal) : Decimal :=
  rule.fixed.add precision (capturedAmount.mul precision rule.rate)

/-- The MockPay processing fee of one captured payment. -/
def calculateFee (method : Text) (amount : Decimal) (currency : Text) :
    Except MoneyError Decimal := do
  if currency ≠ eur then throw (.unsupportedCurrency currency)
  match feeRule? method with
  | none => throw (.unsupportedPaymentMethod method)
  | some rule =>
    let capturedAmount ← requireSupportedRange amount
    if capturedAmount.lt zeroEur then throw .negativeCapture
    roundEur (unroundedFee rule capturedAmount)

/-! ## Amounts in cents -/

def ofCents (cents : ℤ) : Decimal := ⟨cents < 0, cents.natAbs, -2⟩

theorem signedCoefficient_ofCents (m : ℤ) : (ofCents m).signedCoefficient = m := by
  unfold ofCents Decimal.signedCoefficient
  simp only [decide_eq_true_eq]
  split_ifs <;> omega

theorem toRat_ofCents (m : ℤ) : (ofCents m).toRat = m / 100 := by
  rw [Decimal.toRat, signedCoefficient_ofCents]
  show (m : ℚ) * 10 ^ (-2 : ℤ) = m / 100
  norm_num
  ring

theorem requireSupportedRange_ofCents (m : ℤ) : requireSupportedRange (ofCents m) =
    if m.natAbs > Threadline.maxMoney.natAbs then .error (.outOfRange (ofCents m))
    else .ok (ofCents m) := by
  have hlt : maxMoney.lt (ofCents m).copyAbs =
      decide (m.natAbs > Threadline.maxMoney.natAbs) := by
    rw [Decimal.lt_of_exponent (show maxMoney.exponent = (ofCents m).copyAbs.exponent from rfl),
      decide_eq_decide]
    show (999999999999999999 : ℤ) < (m.natAbs : ℤ) ↔ 999999999999999999 < m.natAbs
    omega
  unfold requireSupportedRange
  rw [hlt]
  simp only [decide_eq_true_eq]

theorem lt_zeroEur_ofCents (m : ℤ) : (ofCents m).lt zeroEur = decide (m < 0) := by
  rw [Decimal.lt_of_exponent (show (ofCents m).exponent = zeroEur.exponent from rfl),
    signedCoefficient_ofCents]
  rfl

/-- A decimal of five places rounds to cents as the thousandths of a cent do. -/
theorem roundEur_thousandths (n : ℕ) (h : n < 10 ^ precision) :
    roundEur ⟨false, n, -5⟩ = requireSupportedRange (ofCents ((n + 500) / 1000 : ℕ)) := by
  have hrounded : dropDigits .halfUp n 3 = (n + 500) / 1000 := by
    rw [Decimal.dropDigits_halfUp]
    omega
  have hfits : (n + 500) / 1000 < 10 ^ precision := by
    unfold precision at h ⊢
    omega
  have hquantize : (⟨false, n, -5⟩ : Decimal).quantize precision .halfUp (-2) =
      some ⟨false, (n + 500) / 1000, -2⟩ := by
    show (if dropDigits .halfUp n 3 < _ then some (⟨false, dropDigits .halfUp n 3, -2⟩ : Decimal)
      else none) = _
    rw [hrounded, if_pos hfits]
  show (match (⟨false, n, -5⟩ : Decimal).quantize precision .halfUp (-2) with
    | some rounded => requireSupportedRange rounded
    | none => .error (.cannotRound ⟨false, n, -5⟩)) = _
  rw [hquantize]
  congr 1

/-! ## The fee of an amount in cents -/

/-- The rule in cents and thousandths. -/
def ruleOf (rule : Threadline.FeeRule) : FeeRule :=
  ⟨⟨false, rule.fixed.natAbs, -2⟩, ⟨false, rule.rate.natAbs, -3⟩⟩

theorem feeRule?_eq (method : Text) :
    feeRule? method = (Threadline.feeRule? method).map ruleOf := by
  unfold feeRule? Threadline.feeRule?
  split_ifs <;> rfl

theorem feeRule_bounds {method : Text} {rule : Threadline.FeeRule}
    (h : Threadline.feeRule? method = some rule) :
    0 ≤ rule.fixed ∧ rule.fixed ≤ 25 ∧ 0 ≤ rule.rate ∧ rule.rate ≤ 20 := by
  unfold Threadline.feeRule? at h
  split_ifs at h
  · rw [← Option.some.inj h]
    decide
  · rw [← Option.some.inj h]
    decide

section Fee

variable {rule : Threadline.FeeRule} {amount : ℤ}

/-- The product has at most twenty digits. -/
theorem mul_rate (hamount : 0 ≤ amount) (hmax : amount ≤ Threadline.maxMoney)
    (hrate : rule.rate.natAbs ≤ 20) :
    (ofCents amount).mul precision (ruleOf rule).rate =
      ⟨false, amount.natAbs * rule.rate.natAbs, -5⟩ := by
  have hfits : amount.natAbs * rule.rate.natAbs < 10 ^ precision := by
    have hle : amount.natAbs * rule.rate.natAbs ≤ 999999999999999999 * 20 := by
      apply Nat.mul_le_mul
      · unfold Threadline.maxMoney at hmax
        omega
      · exact hrate
    unfold precision
    omega
  have hsign : decide (amount < 0) = false := decide_eq_false (by omega)
  unfold Decimal.mul
  rw [Decimal.fix_eq_self hfits]
  simp [ofCents, ruleOf, hsign]

theorem unroundedFee_eq (hamount : 0 ≤ amount) (hmax : amount ≤ Threadline.maxMoney)
    (hrate : rule.rate.natAbs ≤ 20) (hfixed : rule.fixed.natAbs ≤ 25) :
    unroundedFee (ruleOf rule) (ofCents amount) =
      ⟨false, rule.fixed.natAbs * 10 ^ 3 + amount.natAbs * rule.rate.natAbs, -5⟩ := by
  have hle : amount.natAbs * rule.rate.natAbs ≤ 999999999999999999 * 20 := by
    apply Nat.mul_le_mul
    · unfold Threadline.maxMoney at hmax
      omega
    · exact hrate
  have hfits : rule.fixed.natAbs * 10 ^ 3 + amount.natAbs * rule.rate.natAbs < 10 ^ precision := by
    unfold precision
    omega
  unfold unroundedFee
  rw [mul_rate hamount hmax hrate]
  exact Decimal.add_of_nonneg (by norm_num) hfits

/-- Half up, the thousandths of a cent round to the cents that the reconciler uses. -/
theorem roundHalfUp_natCast (n : ℕ) : roundHalfUp n = ((n + 500) / 1000 : ℕ) := by
  unfold roundHalfUp
  by_cases hn : n = 0
  · rw [hn]
    rfl
  · rw [Int.sign_eq_one_of_pos (by omega), one_mul, Int.natAbs_natCast]

end Fee

/-- The fee of an amount in cents has the cents that exact arithmetic gives it. -/
theorem calculateFee_ofCents {method : Text} {rule : Threadline.FeeRule}
    (hrule : Threadline.feeRule? method = some rule) {amount : ℤ} (hamount : 0 ≤ amount)
    (hmax : amount ≤ Threadline.maxMoney) :
    ∃ fee, Threadline.calculateFee method amount eur = .ok fee ∧
      calculateFee method (ofCents amount) eur = .ok (ofCents fee) ∧
      fee = roundHalfUp (rule.fixed * 1000 + amount * rule.rate) ∧
      0 ≤ fee ∧ fee ≤ Threadline.maxMoney := by
  obtain ⟨hfixed, hfixedMax, hrate, hrateMax⟩ := feeRule_bounds hrule
  have hmaxMoney : Threadline.maxMoney = 999999999999999999 := rfl
  have hrange : ¬ amount.natAbs > Threadline.maxMoney.natAbs := by omega
  have hnonneg : ¬ amount < 0 := by omega
  -- The thousandths of a cent, as a natural number.
  have hproduct : amount * rule.rate = (amount.natAbs * rule.rate.natAbs : ℕ) := by
    push_cast
    rw [abs_of_nonneg hamount, abs_of_nonneg hrate]
  have hle : amount.natAbs * rule.rate.natAbs ≤ 999999999999999999 * 20 := by
    apply Nat.mul_le_mul
    · omega
    · omega
  have hthousandths : rule.fixed * 1000 + amount * rule.rate =
      (rule.fixed.natAbs * 10 ^ 3 + amount.natAbs * rule.rate.natAbs : ℕ) := by
    rw [hproduct]
    omega
  generalize hn : rule.fixed.natAbs * 10 ^ 3 + amount.natAbs * rule.rate.natAbs = n
    at hthousandths
  have hbound : n ≤ 20000000000000025000 := by omega
  have hfee : roundHalfUp (rule.fixed * 1000 + amount * rule.rate) = ((n + 500) / 1000 : ℕ) := by
    rw [hthousandths, roundHalfUp_natCast]
  refine ⟨_, ?_, ?_, rfl, ?_, ?_⟩
  · have hfits : ¬ (roundHalfUp (rule.fixed * 1000 + amount * rule.rate)).natAbs >
        Threadline.maxMoney.natAbs := by
      rw [hfee]
      omega
    simp only [Threadline.calculateFee, hrule, Threadline.requireSupportedRange, Threadline.roundEur,
      if_neg hrange, if_neg hnonneg, if_neg hfits, ne_eq, not_true_eq_false, if_false, bind,
      Except.bind]
  · have hround : roundEur (unroundedFee (ruleOf rule) (ofCents amount)) =
        .ok (ofCents (roundHalfUp (rule.fixed * 1000 + amount * rule.rate))) := by
      have hprecision : n < 10 ^ precision := by
        unfold precision
        omega
      rw [unroundedFee_eq hamount hmax (by omega) (by omega), hn, roundEur_thousandths n hprecision,
        requireSupportedRange_ofCents, if_neg (by omega), hfee]
    simp only [calculateFee, feeRule?_eq, hrule, Option.map_some, requireSupportedRange_ofCents,
      if_neg hrange, lt_zeroEur_ofCents, decide_eq_true_eq, if_neg hnonneg, hround, ne_eq,
      not_true_eq_false, if_false, bind, Except.bind]
  · rw [hfee]
    omega
  · rw [hfee]
    omega

/-! ## Exactness -/

/-- A rational amount rounded half up to cents. -/
def halfUpToCents (x : ℚ) : ℚ := ⌊x * 100 + 1 / 2⌋ / 100

/-- No step of the fee of an amount loses precision, and the fee is in the supported range. -/
structure FeeExact (method : Text) (rule : FeeRule) (amount fee : ℤ) : Prop where
  decimals : calculateFee method (ofCents amount) eur = .ok (ofCents fee)
  cents : Threadline.calculateFee method amount eur = .ok fee
  nonneg : 0 ≤ fee
  supported : fee ≤ Threadline.maxMoney
  product : ((ofCents amount).mul precision rule.rate).toRat = amount / 100 * rule.rate.toRat
  sum : (unroundedFee rule (ofCents amount)).toRat =
    rule.fixed.toRat + amount / 100 * rule.rate.toRat
  rounded : (ofCents fee).toRat = halfUpToCents (rule.fixed.toRat + amount / 100 * rule.rate.toRat)

theorem natAbs_cast {z : ℤ} (h : 0 ≤ z) : ((z.natAbs : ℕ) : ℚ) = z := by
  rw [Nat.cast_natAbs, abs_of_nonneg h]

theorem toRat_fixed {rule : Threadline.FeeRule} (h : 0 ≤ rule.fixed) :
    (ruleOf rule).fixed.toRat = rule.fixed / 100 := by
  rw [Decimal.toRat_of_nonneg rfl]
  show ((rule.fixed.natAbs : ℕ) : ℚ) * 10 ^ (-2 : ℤ) = _
  rw [natAbs_cast h]
  norm_num
  ring

theorem toRat_rate {rule : Threadline.FeeRule} (h : 0 ≤ rule.rate) :
    (ruleOf rule).rate.toRat = rule.rate / 1000 := by
  rw [Decimal.toRat_of_nonneg rfl]
  show ((rule.rate.natAbs : ℕ) : ℚ) * 10 ^ (-3 : ℤ) = _
  rw [natAbs_cast h]
  norm_num
  ring

/-- The cents of a number of thousandths of a cent, as its value rounded half up. -/
theorem halfUpToCents_thousandths (n : ℤ) :
    halfUpToCents (n / 100000) = ((n + 500) / 1000 : ℤ) / 100 := by
  have hvalue : (n / 100000 : ℚ) * 100 + 1 / 2 = ((n + 500 : ℤ) : ℚ) / (1000 : ℕ) := by
    push_cast
    ring
  rw [halfUpToCents, hvalue, Rat.floor_intCast_div_natCast]
  rfl

theorem feeExact {method : Text} {rule : Threadline.FeeRule}
    (hrule : Threadline.feeRule? method = some rule) {amount : ℤ} (hamount : 0 ≤ amount)
    (hmax : amount ≤ Threadline.maxMoney) : ∃ fee, FeeExact method (ruleOf rule) amount fee ∧
      fee = (rule.fixed * 1000 + amount * rule.rate + 500) / 1000 := by
  obtain ⟨fee, hcents, hdecimals, hfee, hnonneg, hsupported⟩ :=
    calculateFee_ofCents hrule hamount hmax
  obtain ⟨hfixed, hfixedMax, hrate, hrateMax⟩ := feeRule_bounds hrule
  have hproduct : ((ofCents amount).mul precision (ruleOf rule).rate).toRat =
      amount / 100 * (ruleOf rule).rate.toRat := by
    rw [mul_rate hamount hmax (by omega), Decimal.toRat_of_nonneg rfl, toRat_rate hrate]
    show ((amount.natAbs * rule.rate.natAbs : ℕ) : ℚ) * 10 ^ (-5 : ℤ) = _
    rw [Nat.cast_mul, natAbs_cast hamount, natAbs_cast hrate]
    norm_num
    ring
  have hsum : (unroundedFee (ruleOf rule) (ofCents amount)).toRat =
      (ruleOf rule).fixed.toRat + amount / 100 * (ruleOf rule).rate.toRat := by
    rw [unroundedFee_eq hamount hmax (by omega) (by omega), Decimal.toRat_of_nonneg rfl,
      toRat_fixed hfixed, toRat_rate hrate]
    show ((rule.fixed.natAbs * 10 ^ 3 + amount.natAbs * rule.rate.natAbs : ℕ) : ℚ) *
      10 ^ (-5 : ℤ) = _
    rw [Nat.cast_add, Nat.cast_mul, Nat.cast_mul, natAbs_cast hfixed, natAbs_cast hamount,
      natAbs_cast hrate]
    norm_num
    ring
  have hthousandths : fee = (rule.fixed * 1000 + amount * rule.rate + 500) / 1000 := by
    have hnonneg : 0 ≤ rule.fixed * 1000 + amount * rule.rate := by positivity
    obtain ⟨n, hn⟩ := Int.eq_ofNat_of_zero_le hnonneg
    rw [hfee, hn, roundHalfUp_natCast]
    omega
  refine ⟨fee, ⟨hdecimals, hcents, hnonneg, hsupported, hproduct, hsum, ?_⟩, hthousandths⟩
  have hvalue : (ruleOf rule).fixed.toRat + amount / 100 * (ruleOf rule).rate.toRat =
      ((rule.fixed * 1000 + amount * rule.rate : ℤ) : ℚ) / 100000 := by
    rw [toRat_fixed hfixed, toRat_rate hrate]
    push_cast
    ring
  rw [hvalue, halfUpToCents_thousandths, toRat_ofCents, hthousandths]

/-- Fee arithmetic is exact. For both payment methods and every amount in the supported range the
fee is the rational fee rounded half up to cents, and it does not fall when the amount grows. -/
theorem fee_arithmetic_exact (method : PaymentMethod) :
    ∃ rule, feeRule? method.value = some rule ∧
      (∀ amount : ℤ, 0 ≤ amount → amount ≤ Threadline.maxMoney →
        ∃ fee, FeeExact method.value rule amount fee) ∧
      ∀ amount amount' fee fee' : ℤ, 0 ≤ amount → amount ≤ amount' →
        amount' ≤ Threadline.maxMoney →
        calculateFee method.value (ofCents amount) eur = .ok (ofCents fee) →
        calculateFee method.value (ofCents amount') eur = .ok (ofCents fee') → fee ≤ fee' := by
  obtain ⟨rule, hrule⟩ : ∃ rule, Threadline.feeRule? method.value = some rule := by
    cases method
    · exact ⟨_, rfl⟩
    · exact ⟨_, rfl⟩
  have hrate := (feeRule_bounds hrule).2.2.1
  refine ⟨ruleOf rule, by rw [feeRule?_eq, hrule]; rfl, fun amount hamount hmax => ?_,
    fun amount amount' fee fee' hamount hle hmax hfee hfee' => ?_⟩
  · obtain ⟨fee, hexact, -⟩ := feeExact hrule hamount hmax
    exact ⟨fee, hexact⟩
  · have hinj : ∀ {a b : ℤ}, ofCents a = ofCents b → a = b := by
      intro a b hab
      rw [← signedCoefficient_ofCents a, hab, signedCoefficient_ofCents]
    obtain ⟨computed, hexact, hcomputed⟩ := feeExact hrule hamount (hle.trans hmax)
    obtain ⟨computed', hexact', hcomputed'⟩ := feeExact hrule (hamount.trans hle) hmax
    rw [← hinj (Except.ok.inj (hexact.decimals.symm.trans hfee)),
      ← hinj (Except.ok.inj (hexact'.decimals.symm.trans hfee')), hcomputed, hcomputed']
    apply Int.ediv_le_ediv (by norm_num)
    have hmul := mul_le_mul_of_nonneg_right hle hrate
    omega

/-- The fee of a capture of 2.50 by card is exact. -/
theorem card_capture_exact : ∃ rule fee, feeRule? (txt "CARD") = some rule ∧
    FeeExact (txt "CARD") rule 250 fee := by
  obtain ⟨rule, hrule, hexact, -⟩ := fee_arithmetic_exact .card
  obtain ⟨fee, hfee⟩ := hexact 250 (by decide) (by decide)
  exact ⟨rule, fee, hrule, hfee⟩

/-- A tie at half a cent is rounded up: 1.8% of 2.50 is 4.5 cents. -/
example : calculateFee (txt "CARD") (ofCents 250) eur = .ok (ofCents 25) := by decide +kernel

end DecimalMoney

end Threadline
