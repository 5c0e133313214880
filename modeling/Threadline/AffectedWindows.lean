import Mathlib.Data.List.Flatten
import Threadline.Contracts
import Threadline.PyDict
import Threadline.PyExcept
import Threadline.PySorted
import Threadline.Worklist

/-!
# Affected windows

The recovery planner: a graph over the records before and after a change, and
the keys that the changed records reach in it.
-/

open PyText PyCalendar PySorted

namespace Threadline

inductive ChangeKind
  | newFact
  | higherVersionCorrection
  | sameVersionConflict
  | exactDuplicate
  | staleVersion
  deriving DecidableEq

inductive RecoveryScope
  | none
  | windows
  | full
  deriving DecidableEq

structure RecordKey where
  entityType : EntityType
  sourceId : Text

namespace RecordKey

instance : DecidableEq RecordKey := fun a b =>
  decidable_of_iff (a.entityType = b.entityType ∧ a.sourceId = b.sourceId)
    (by cases a; cases b; simp)

def sortKey (key : RecordKey) : Text ×ₗ Text := toLex (key.entityType.value, key.sourceId)

end RecordKey

/-- A half-open date range: `startDate ≤ day < endDateExclusive`. -/
structure DateWindow where
  startDate : Date
  endDateExclusive : Date
  deriving DecidableEq

structure AffectedWindowPlan where
  scope : RecoveryScope
  orderIds : List Text
  payoutIds : List Text
  payoutDates : List Date
  payoutWindows : List DateWindow
  sourceKeys : List RecordKey
  reasonCodes : List Text
  deriving DecidableEq

def AffectedWindowPlan.ofScope (scope : RecoveryScope) (reasonCodes : List Text) :
    AffectedWindowPlan := ⟨scope, [], [], [], [], [], reasonCodes⟩

inductive WindowError
  /-- `Record must have a non-empty record_id`. -/
  | recordId
  /-- A window would end after the last representable date. -/
  | dateOverflow
  deriving DecidableEq

/-- `record_key` of a record that has an ID. -/
def keyOf (r : FinancialRecord) : RecordKey := ⟨r.entityType, r.recordId⟩

def recordKey (r : FinancialRecord) : Except WindowError RecordKey :=
  if r.recordId = [] then .error .recordId else .ok (keyOf r)

/-! ## Date compression -/

def dayAfter (d : Date) : Except WindowError Date :=
  match d.next? with
  | some next => .ok next
  | none => .error .dateOverflow

/-- The windows of the ordered days after `previous`, the first of which starts at `start`. -/
def compressFrom (start previous : Date) : List Date → Except WindowError (List DateWindow)
  | [] => do
    let last ← dayAfter previous
    .ok [⟨start, last⟩]
  | current :: rest => do
    let next ← dayAfter previous
    if current ≠ next then
      let windows ← compressFrom current current rest
      .ok (⟨start, next⟩ :: windows)
    else compressFrom start current rest

def compressDates (days : List Date) : Except WindowError (List DateWindow) :=
  match sortedSet days with
  | [] => .ok []
  | start :: rest => compressFrom start start rest

/-! ## The impact graph -/

/-- The dictionaries of `_ImpactGraph`. Sets are lists without repetitions. -/
structure ImpactGraph where
  known : List RecordKey
  neighbors : PyDict RecordKey (List RecordKey)
  dates : PyDict RecordKey (List Date)
  keysByDate : PyDict Date (List RecordKey)
  issues : PyDict RecordKey (List Text)

namespace ImpactGraph

def empty : ImpactGraph := ⟨[], ∅, ∅, ∅, ∅⟩

variable (g : ImpactGraph)

def neighborsOf (key : RecordKey) : List RecordKey := g.neighbors.getD key []

def datesOf (key : RecordKey) : List Date := g.dates.getD key []

def keysOn (day : Date) : List RecordKey := g.keysByDate.getD day []

def issuesOf (key : RecordKey) : List Text := g.issues.getD key []

def addIssue (key : RecordKey) (issue : Text) : ImpactGraph :=
  { g with issues := g.issues.modify key [] (List.insert issue) }

/-- Relationships are followed in both directions. -/
def link (child : RecordKey) (parentType : EntityType) (parentId : Text) : ImpactGraph :=
  if parentId = [] then g.addIssue child (txt "MISSING_RELATIONSHIP_ID")
  else
    let parent : RecordKey := ⟨parentType, parentId⟩
    { g with
      neighbors := (g.neighbors.modify child [] (List.insert parent)).modify parent []
        (List.insert child) }

def addDate (key : RecordKey) (day : Date) : ImpactGraph :=
  { g with
    dates := g.dates.modify key [] (List.insert day)
    keysByDate := g.keysByDate.modify day [] (List.insert key) }

/-- The date of a movement, which a record with effect must have. -/
def addAvailability (key : RecordKey) (availableOn : Option Date) (hasEffect : Bool)
    (issue : Text) : ImpactGraph :=
  match availableOn with
  | some day => g.addDate key day
  | none => if hasEffect then g.addIssue key issue else g

def movementEntity : MovementType → EntityType
  | .capture => .payment
  | .refund => .refund
  | .fee => .fee

def addKnown (key : RecordKey) : ImpactGraph := { g with known := g.known.insert key }

/-- `add` of a record that has an ID. -/
def addRecord (r : FinancialRecord) : ImpactGraph :=
  match r with
  | .order _ => g.addKnown (keyOf r)
  | .payment p =>
    ((g.addKnown (keyOf r)).link (keyOf r) .order p.orderId).addAvailability (keyOf r)
      p.availableOn (p.status = .captured) (txt "CAPTURE_DATE_UNRESOLVED")
  | .refund p =>
    ((g.addKnown (keyOf r)).link (keyOf r) .payment p.paymentId).addAvailability (keyOf r)
      p.availableOn (p.status = .succeeded) (txt "REFUND_DATE_UNRESOLVED")
  | .fee f => (g.addKnown (keyOf r)).link (keyOf r) .payment f.paymentId
  | .settlementLine line =>
    ((g.addKnown (keyOf r)).link (keyOf r) .payout line.payoutId).link (keyOf r)
      (movementEntity line.movementType) line.movementId
  | .payout p => (g.addKnown (keyOf r)).addDate (keyOf r) p.payoutDate

def add (r : FinancialRecord) : Except WindowError ImpactGraph := do
  let _ ← recordKey r
  .ok (g.addRecord r)

/-! ## Expansion -/

/-- A key without a record in the graph. -/
def missingReason (key : RecordKey) : Text :=
  txt "RELATED_RECORD_MISSING:" ++ (key.entityType.value ++ (ofChar ':' :: key.sourceId))

def reasonsOf (key : RecordKey) : List Text :=
  g.issuesOf key ++ if key ∈ g.known then [] else [missingReason key]

/-- What `expand` collects besides the visited keys. -/
structure Collected where
  dates : List Date
  reasons : List Text

/-- The visit of a new key: its dates and reasons, and the keys that depend on it. -/
def visit (s : Collected) (key : RecordKey) : Collected × List RecordKey :=
  let newDays := (g.datesOf key).filter fun day => day ∉ s.dates
  (⟨s.dates ++ newDays, s.reasons.union (g.reasonsOf key)⟩,
    newDays.flatMap g.keysOn ++ g.neighborsOf key)

/-- What a visit pushes at most. -/
def visitCost (key : RecordKey) : ℕ :=
  ((g.datesOf key).flatMap g.keysOn).length + (g.neighborsOf key).length

def edgeKeys : List RecordKey := g.dates.keys ++ g.neighbors.keys

def expandFuel (seeds : List RecordKey) : ℕ :=
  seeds.length + Worklist.weight g.visitCost g.edgeKeys []

theorem visit_length_le (s : Collected) (key : RecordKey) :
    (g.visit s key).2.length ≤ g.visitCost key := by
  simp only [visit, visitCost, List.length_append]
  refine Nat.add_le_add_right ?_ _
  exact (List.filter_sublist.flatMap g.keysOn).length_le

theorem edgeKeys_or_free (key : RecordKey) : key ∈ g.edgeKeys ∨ g.visitCost key = 0 := by
  rw [edgeKeys, List.mem_append, PyDict.mem_keys_iff, PyDict.mem_keys_iff]
  cases hd : g.dates.get? key with
  | some days => exact .inl (.inl ⟨days, rfl⟩)
  | none =>
    cases hn : g.neighbors.get? key with
    | some keys => exact .inl (.inr ⟨keys, rfl⟩)
    | none => exact .inr (by simp [visitCost, datesOf, neighborsOf, PyDict.getD, hd, hn])

theorem expand_isSome (seeds : List RecordKey) :
    (Worklist.run g.visit (g.expandFuel seeds) seeds [] ⟨[], []⟩).isSome :=
  Worklist.run_isSome g.visit_length_le g.edgeKeys_or_free (le_refl _)

/-- `expand`: the visited keys, their dates and the reasons for a full rebuild. -/
def expand (seeds : List RecordKey) : List RecordKey × Collected :=
  (Worklist.run g.visit (g.expandFuel seeds) seeds [] ⟨[], []⟩).get (g.expand_isSome seeds)

end ImpactGraph

/-! ## The plan -/

/-- `plan_affected_windows`. -/
def planAffectedWindows (beforeRecords afterRecords changedRecords : List FinancialRecord)
    (changeKind : ChangeKind) (canonicalChanged completenessChanged : Bool) :
    Except WindowError AffectedWindowPlan :=
  if completenessChanged then
    .ok (.ofScope .full [txt "REPORT_COMPLETENESS_CHANGED"])
  else if !canonicalChanged ∨ changeKind ∈ [.exactDuplicate, .staleVersion] then
    .ok (.ofScope .none [])
  else if changedRecords = [] then .ok (.ofScope .full [txt "CHANGE_EVIDENCE_MISSING"])
  else do
    let graph ← (beforeRecords ++ afterRecords ++ changedRecords).foldlM ImpactGraph.add
      ImpactGraph.empty
    let seeds ← changedRecords.mapM recordKey
    let (keys, collected) := graph.expand seeds.dedup
    let orderedDates := sortedBy id collected.dates
    let payoutWindows ← compressDates orderedDates
    .ok {
      scope := if collected.reasons ≠ [] then .full else .windows
      orderIds := sortedBy id ((keys.filter fun key => key.entityType = .order).map
        RecordKey.sourceId)
      payoutIds := sortedBy id ((keys.filter fun key => key.entityType = .payout).map
        RecordKey.sourceId)
      payoutDates := orderedDates
      payoutWindows := payoutWindows
      sourceKeys := sortedBy RecordKey.sortKey keys
      reasonCodes := sortedBy id collected.reasons
    }

end Threadline
