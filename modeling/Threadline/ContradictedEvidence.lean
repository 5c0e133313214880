import Threadline.CanonicalSpec
import Threadline.TransactionRules

/-!
# Orders with contradicted evidence

A conflicted identity leaves the canonical records, and its conflict is not tied
to an order. The row of an order that a conflicting variant refers to stays
untrusted only if the reports or the rest of the evidence keep it so.
-/

open PyText PyCalendar PySorted

namespace Threadline

/-- The order a record of a payment, refund or fee belongs to. -/
def RefersTo (records : CanonicalRecords) : FinancialRecord → Order → Prop
  | .payment p, o => p.orderId = o.orderId
  | .refund r, o => ∃ p ∈ records.capturedPayments, p.paymentId = r.paymentId ∧
      p.orderId = o.orderId
  | .fee f, o => ∃ p ∈ records.capturedPayments, p.paymentId = f.paymentId ∧
      p.orderId = o.orderId
  | _, _ => False

section

variable {sha256 : Bytes → Text} {envelopes : List (RecordEnvelope sha256)}
  {canonicalization : CanonicalizationResult}

instance (records : CanonicalRecords) (r : FinancialRecord) (o : Order) :
    Decidable (RefersTo records r o) :=
  match r with
  | .payment p => inferInstanceAs (Decidable (p.orderId = o.orderId))
  | .refund _ => inferInstanceAs (Decidable (∃ p ∈ records.capturedPayments, _))
  | .fee _ => inferInstanceAs (Decidable (∃ p ∈ records.capturedPayments, _))
  | .order _ => .isFalse id
  | .settlementLine _ => .isFalse id
  | .payout _ => .isFalse id

/-- A variant of a reported conflict refers to the order. -/
def VariantRefersTo (envelopes : List (RecordEnvelope sha256))
    (canonicalization : CanonicalizationResult) (o : Order) : Prop :=
  ∃ conflict ∈ canonicalization.conflicts, ∃ e ∈ envelopes, e.identity = conflict.identity ∧
    e.sourceVersion = conflict.sourceVersion ∧
    RefersTo (splitCanonicalRecords canonicalization) e.record o

/-- The reported conflicts are the contradicted receipts. -/
theorem contradicted_iff_conflict (hc : canonicalize envelopes = .ok canonicalization)
    {e : RecordEnvelope sha256} (he : e ∈ envelopes) :
    Contradicted envelopes e ↔ ∃ conflict ∈ canonicalization.conflicts,
      e.identity = conflict.identity ∧ e.sourceVersion = conflict.sourceVersion := by
  obtain ⟨receipts, hunique, hspec⟩ := canonicalize_ok hc
  have hcanonical := hunique.canonicalizes hspec
  constructor
  · intro h
    exact ⟨conflictOf envelopes e, (hcanonical.mem_conflicts _).mpr ⟨e, he, h, rfl⟩, rfl, rfl⟩
  · rintro ⟨conflict, hconflict, hi, hv⟩
    obtain ⟨f, hf, hcf, rfl⟩ := (hcanonical.mem_conflicts conflict).mp hconflict
    have hi : e.identity = f.identity := hi
    have hv : e.sourceVersion = f.sourceVersion := hv
    obtain ⟨hs, g, hg, hgi, hgv, hgp⟩ := hcf
    refine ⟨?_, ?_⟩
    · rintro ⟨k, hk, hki, hkv⟩
      exact hs ⟨k, hk, hki.trans hi, hv ▸ hkv⟩
    · by_cases hp : g.payloadHash = e.payloadHash
      · exact ⟨f, hf, hi.symm, hv.symm, fun hfp => hgp (hp.trans hfp.symm)⟩
      · exact ⟨g, hg, hgi.trans hi.symm, hgv.trans hv.symm, hp⟩

end

namespace PaidDay

def refund (amount : ℤ) : Refund where
  sourceVersion := 1
  refundId := txt "REF-1"
  paymentId := txt "PAY-1"
  status := .succeeded
  amount := amount
  currency := eur
  effectiveAtUtc := atTen (september 15 valid15)
  availableOn := some (september 17 valid17)

def contradictedRefundReceipts : DigestTable where
  rows := [orderRow, paymentRow, feeRow,
    ⟨txt "refunds.json:1", .refund (refund 1000),
      txt "d36818fdb76dafd9961e9c78fe527722db4ee586a20adaef8b670acfa2f29fe7"⟩,
    ⟨txt "refunds.json:2", .refund (refund 2000),
      txt "3d8184bc4aeb31f69e0c7ce3a1ab4f609a1bc0553cfddd15561b08e25dedcba1"⟩]
  digest_iff := by decide +kernel
  receiptIds := by decide +kernel
  encodable := by decide +kernel

def contradictedRefundDay : ReplayedDay where
  receipts := contradictedRefundReceipts
  completenessResults := completeReports
  canonicalizes := by decide +kernel
  reconciles := by decide +kernel

def contradictedPaymentReceipts : DigestTable where
  rows := [orderRow, paymentRow,
    ⟨txt "payments.json:2", .payment { payment with amount := 9000 },
      txt "2e505c30f01e3760c98f10958d1641dfed875bff59cd37f9a67cf3b3eabf7f48"⟩, feeRow]
  digest_iff := by decide +kernel
  receiptIds := by decide +kernel
  encodable := by decide +kernel

def contradictedPaymentDay : ReplayedDay where
  receipts := contradictedPaymentReceipts
  completenessResults := completeReports
  canonicalizes := by decide +kernel
  reconciles := by decide +kernel

end PaidDay

end Threadline
