import Threadline.Contracts
import Threadline.PySorted

/-!
# Source-report completeness

One result for each expected source report. Reports for a business date are due
on the next day at a local hour in Berlin, whose time zone data are a parameter.
-/

open PyText PyCalendar PySorted

namespace Threadline

inductive CompletenessIssueCode
  | dataFileMissing
  | manifestMissing
  | manifestInvalid
  | dataSourceMismatch
  | dataReportTypeMismatch
  | dataBusinessDateMismatch
  | manifestSourceMismatch
  | manifestReportTypeMismatch
  | manifestBusinessDateMismatch
  | batchIdMismatch
  | rowCountMismatch
  | checksumMismatch
  | manifestGeneratedAfterReceipt
  deriving DecidableEq

def CompletenessIssueCode.value : CompletenessIssueCode → Text
  | .dataFileMissing => txt "DATA_FILE_MISSING"
  | .manifestMissing => txt "MANIFEST_MISSING"
  | .manifestInvalid => txt "MANIFEST_INVALID"
  | .dataSourceMismatch => txt "DATA_SOURCE_MISMATCH"
  | .dataReportTypeMismatch => txt "DATA_REPORT_TYPE_MISMATCH"
  | .dataBusinessDateMismatch => txt "DATA_BUSINESS_DATE_MISMATCH"
  | .manifestSourceMismatch => txt "MANIFEST_SOURCE_MISMATCH"
  | .manifestReportTypeMismatch => txt "MANIFEST_REPORT_TYPE_MISMATCH"
  | .manifestBusinessDateMismatch => txt "MANIFEST_BUSINESS_DATE_MISMATCH"
  | .batchIdMismatch => txt "BATCH_ID_MISMATCH"
  | .rowCountMismatch => txt "ROW_COUNT_MISMATCH"
  | .checksumMismatch => txt "CHECKSUM_MISMATCH"
  | .manifestGeneratedAfterReceipt => txt "MANIFEST_GENERATED_AFTER_RECEIPT"

structure CompletenessIssue where
  code : CompletenessIssueCode
  message : Text
  deriving DecidableEq

def CompletenessIssue.sortKey (issue : CompletenessIssue) : Text ×ₗ Text :=
  toLex (issue.code.value, issue.message)

/-- The hour of `REPORT_DEADLINES`. -/
def reportDeadline : ReportType → ℕ
  | .orders => 1
  | .payments => 2
  | .refunds => 2
  | .fees => 12
  | .settlementLines => 12
  | .payouts => 12

/-- `REPORT_SOURCES`. -/
def reportSource : ReportType → SourceSystem
  | .orders => .threadlineShop
  | .payments => .mockpay
  | .refunds => .mockpay
  | .fees => .mockpay
  | .settlementLines => .mockpay
  | .payouts => .mockpay

/-- Completeness result for one expected source report. -/
structure SourceReportStatus where
  sourceSystem : SourceSystem
  reportType : ReportType
  businessDate : Date
  state : SourceCompleteness
  batchId : Option Text
  reason : Option Text
  deriving DecidableEq

structure CompletenessResult where
  status : SourceReportStatus
  deadlineAtUtc : UtcDateTime
  issues : List CompletenessIssue
  deriving DecidableEq

def CompletenessResult.sortKey (result : CompletenessResult) : Text ×ₗ Text ×ₗ Text :=
  toLex (result.status.businessDate.isoformat,
    toLex (result.status.sourceSystem.value, result.status.reportType.value))

section Deadline

variable (berlinToUtc : Date → ℕ → UtcDateTime)

/-- `report_deadline_utc`; there is no deadline after the last day of the calendar. -/
def reportDeadlineUtc (businessDate : Date) (reportType : ReportType) : Option UtcDateTime :=
  businessDate.next?.map fun nextDay => berlinToUtc nextDay (reportDeadline reportType)

/-- The issues of a report without any evidence. -/
def missingReportIssues : List CompletenessIssue :=
  [⟨.dataFileMissing, txt "data file was not available by evaluation time"⟩,
   ⟨.manifestMissing, txt "manifest was not available by evaluation time"⟩]

/-- `evaluate_report` without evidence. -/
def evaluateMissingReport (reportType : ReportType) (businessDate : Date) (asOfUtc : UtcDateTime) :
    Option CompletenessResult :=
  (reportDeadlineUtc berlinToUtc businessDate reportType).map fun deadlineAtUtc => {
    status := {
      sourceSystem := reportSource reportType
      reportType := reportType
      businessDate := businessDate
      state := if asOfUtc < deadlineAtUtc then .pending else .incomplete
      batchId := none
      reason := some ((txt "; ").intercalate (missingReportIssues.map CompletenessIssue.message))
    }
    deadlineAtUtc := deadlineAtUtc
    issues := missingReportIssues
  }

end Deadline

end Threadline
