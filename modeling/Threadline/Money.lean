import Threadline.PyText

/-!
# Money

Amounts are exact EUR decimals with two places, kept as an integer number of
cents. Decimal arithmetic rounds only beyond 28 digits, which sums of
`NUMERIC(18, 2)` amounts do not reach.
-/

open PyText

namespace Threadline

def eur : Text := txt "EUR"

def maxMoney : ℤ := 999999999999999999

inductive MoneyError
  | unsupportedCurrency (currency : Text)
  | unsupportedPaymentMethod (method : Text)
  | outOfRange (value : ℤ)
  | negativeCapture
  deriving DecidableEq

/-- A fixed fee in cents and a rate in thousandths. -/
structure FeeRule where
  fixed : ℤ
  rate : ℤ
  deriving DecidableEq

/-- `FEE_RULES`. -/
def feeRule? (method : Text) : Option FeeRule :=
  if method = txt "CARD" then some ⟨20, 18⟩
  else if method = txt "WALLET" then some ⟨25, 20⟩
  else none

def requireSupportedRange (value : ℤ) : Except MoneyError ℤ :=
  if value.natAbs > maxMoney.natAbs then .error (.outOfRange value) else .ok value

/-- `ROUND_HALF_UP` of an amount in thousandths of a cent to whole cents. -/
def roundHalfUp (thousandths : ℤ) : ℤ := thousandths.sign * ((thousandths.natAbs + 500) / 1000 : ℕ)

def roundEur (thousandths : ℤ) : Except MoneyError ℤ :=
  requireSupportedRange (roundHalfUp thousandths)

/-- The MockPay processing fee of one captured payment. -/
def calculateFee (method : Text) (amount : ℤ) (currency : Text) : Except MoneyError ℤ := do
  if currency ≠ eur then throw (.unsupportedCurrency currency)
  match feeRule? method with
  | none => throw (.unsupportedPaymentMethod method)
  | some rule =>
    let capturedAmount ← requireSupportedRange amount
    if capturedAmount < 0 then throw .negativeCapture
    roundEur (rule.fixed * 1000 + capturedAmount * rule.rate)

/-- `format(value, "f")` of a two-decimal amount. -/
def moneyText (m : ℤ) : Text :=
  (if m < 0 then [minus] else []) ++
    (natText (m.natAbs / 100) ++ (ofChar '.' :: padded 2 (m.natAbs % 100)))

theorem moneyText_injective : Function.Injective moneyText := by
  intro a b h
  have hsign : a < 0 ↔ b < 0 := by
    have hn (n : ℕ) (s : Text) : (natText n ++ s).head? ≠ some minus := by
      obtain ⟨c, rest, hc⟩ := List.exists_cons_of_ne_nil (natText_ne_nil n)
      rw [hc]
      intro hm
      have hd := natText_digits n c (by rw [hc]; exact List.mem_cons_self)
      rw [Option.some.inj hm] at hd
      exact absurd hd (by decide)
    have hh := congrArg List.head? h
    unfold moneyText at hh
    constructor <;> intro hlt <;> by_contra hge
    · rw [if_pos hlt, if_neg hge] at hh
      exact hn _ _ hh.symm
    · rw [if_pos hlt, if_neg hge] at hh
      exact hn _ _ hh
  have habs : a.natAbs = b.natAbs := by
    unfold moneyText at h
    simp only [hsign] at h
    have hdot (n : ℕ) : ofChar '.' ∉ natText n := by
      intro hm
      exact absurd (natText_digits n _ hm) (by decide)
    obtain ⟨hq, hr⟩ := append_sep_inj (hdot _) (hdot _) (List.append_cancel_left h)
    have hq := natText_injective hq
    have hr := padded_injective (by omega) (by omega) hr
    omega
  omega

end Threadline
