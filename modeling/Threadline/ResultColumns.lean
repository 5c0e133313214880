import Threadline.ResultRows
import Threadline.StoredResult

/-!
# Columns of the result tables

A row fits its table when each amount is within `NUMERIC(18, 2)` and each
identifier within 128 characters. The rows of a result fit exactly when its
amounts and its identifiers do.
-/

open PyText PyJson PyCalendar PyExcept

namespace Threadline

/-- `MONEY_COLUMNS`. -/
def moneyColumns : List Text :=
  [txt "expected_collection", txt "captured_total", txt "collection_variance",
    txt "successful_refund_total", txt "expected_fee_total", txt "reported_fee_total",
    txt "lifetime_net_collection", txt "expected_payout", txt "reported_line_total",
    txt "reported_net_amount", txt "provider_report_variance", txt "end_to_end_payout_variance",
    txt "expected_amount", txt "actual_amount", txt "variance"]

/-- The columns that hold the ID of an entity. -/
def idColumns : List Text := [txt "order_id", txt "payout_id", txt "entity_id"]

/-- The lengths of these columns. -/
def entityIdLength : ℕ := 128

/-- `Decimal(str(value))`. -/
def columnAmount? : Json → Option ℚ
  | .str s => decimalText? s
  | .num (.int n) => some n
  | _ => none

theorem moneyColumns_not_id : ∀ column ∈ moneyColumns, column ∉ idColumns := by decide +kernel

/-- Each table has one column for the ID of its entity. -/
theorem tables_idColumns :
    ResultTable.transactions.columns.filter (· ∈ idColumns) = [txt "order_id"] ∧
    ResultTable.payouts.columns.filter (· ∈ idColumns) = [txt "payout_id"] ∧
    ResultTable.exceptions.columns.filter (· ∈ idColumns) = [txt "entity_id"] := by decide +kernel

/-- The server takes the value of an amount or an ID: at most `MAX_MONEY`, in cents. -/
def FitsColumn (column : Text) (value : Json) : Prop :=
  (column ∈ moneyColumns → ∀ q, columnAmount? value = some q → |q * 100| ≤ maxMoney) ∧
  (column ∈ idColumns → ∀ s, value = .str s → s.length ≤ entityIdLength)

def ResultRow.Fits (row : ResultRow) : Prop :=
  List.Forall₂ FitsColumn row.table.columns row.values

/-- The sections of a document that `persist_candidate_rows` inserts, with their tables. -/
def storedSections : List (Text × ResultTable) :=
  [(txt "transactions", .transactions), (txt "payouts", .payouts),
    (txt "exceptions", .exceptions)]

/-- Every row that is inserted for a result fits its table. The completeness snapshots hold neither
amounts nor IDs of entities. -/
def RowsFit (r : ReconciliationResult) : Prop :=
  ∀ document, r.document = .ok document → ∀ stored ∈ storedSections, ∀ items,
    documentItems document stored.1 = .ok items → ∀ i ∈ items, ∀ row,
      rowOf stored.2 i = .ok row → row.Fits

/-! ## Amounts and identifiers of a result -/

def TransactionReconciliation.amounts (t : TransactionReconciliation) : List ℤ :=
  [t.expectedCollection, t.capturedTotal, t.collectionVariance, t.successfulRefundTotal,
    t.expectedFeeTotal, t.reportedFeeTotal, t.lifetimeNetCollection]

def PayoutReconciliation.amounts (p : PayoutReconciliation) : List ℤ :=
  [p.expectedPayout, p.reportedLineTotal, p.reportedNetAmount, p.providerReportVariance,
    p.endToEndPayoutVariance]

def ReconciliationException.amounts (x : ReconciliationException) : List ℤ :=
  ([x.expectedAmount, x.actualAmount, x.variance].filterMap id).map Amount.cents

/-- An entity with a name that fits, and amounts that fit. -/
def Fits (entityId : Text) (amounts : List ℤ) : Prop :=
  entityId.length ≤ entityIdLength ∧ ∀ a ∈ amounts, |a| ≤ maxMoney

structure ResultFits (r : ReconciliationResult) : Prop where
  transactions : ∀ t ∈ r.transactions, Fits t.orderId t.amounts
  payouts : ∀ p ∈ r.payouts, Fits p.payoutId p.amounts
  exceptions : ∀ x ∈ r.exceptions, Fits x.entityId x.amounts

/-! ## Columns of a value -/

theorem fitsColumn_amount {column : Text} (hmoney : column ∈ moneyColumns)
    (hid : column ∉ idColumns) (a : Amount) :
    FitsColumn column (.str a.text) ↔ |a.cents| ≤ maxMoney := by
  have hcents : a.value * 100 = (a.cents : ℚ) := by
    cases a with
    | money cents => exact div_mul_cancel₀ _ (by norm_num)
    | count n =>
      rw [Amount.value, Amount.cents, mul_comm]
      norm_cast
  have hvalue : columnAmount? (.str a.text) = some a.value := by
    cases a with
    | money cents => exact decimalText?_moneyText cents
    | count n => exact decimalText?_natText n
  have hbound : |a.value * 100| ≤ maxMoney ↔ |a.cents| ≤ maxMoney := by
    rw [hcents, ← Int.cast_abs, Int.cast_le]
  rw [← hbound]
  constructor
  · intro h
    exact h.1 hmoney _ hvalue
  · intro h
    refine ⟨fun _ q hq => ?_, fun hcolumn => absurd hcolumn hid⟩
    rwa [Option.some.inj (hvalue.symm.trans hq)] at h

theorem fitsColumn_null {column : Text} : FitsColumn column .null :=
  ⟨fun _ _ h => (nomatch h), fun _ _ h => (nomatch h)⟩

theorem fitsColumn_id {column s : Text} (hmoney : column ∉ moneyColumns)
    (hid : column ∈ idColumns) : FitsColumn column (.str s) ↔ s.length ≤ entityIdLength := by
  constructor
  · intro h
    exact h.2 hid s rfl
  · intro h
    refine ⟨fun hcolumn => absurd hcolumn hmoney, fun _ s' hs => ?_⟩
    rwa [← Json.str.inj hs]

theorem fitsColumn_other {column : Text} {value : Json} (hmoney : column ∉ moneyColumns)
    (hid : column ∉ idColumns) : FitsColumn column value :=
  ⟨fun h => absurd h hmoney, fun h => absurd h hid⟩

/-- A field fits a column when its JSON form does. -/
def Value.Fits (v : Value) (column : Text) : Prop :=
  ∀ j, v.jsonValue = some j → FitsColumn column j

theorem forall₂_fits_iff {v : Value} {document : Json} {columns : List Text} {values : List Json}
    (hdocument : v.jsonValue = some document)
    (hvalues : List.Forall₂ (fun column j => item document column = .ok j) columns values)
    (hfields : ∀ column ∈ columns, (v.field? column).isSome) :
    List.Forall₂ FitsColumn columns values ↔
      ∀ column ∈ columns, ∀ w, v.field? column = some w → w.Fits column := by
  induction hvalues with
  | nil => exact iff_of_true .nil nofun
  | @cons column j columns values hitem _ ih =>
    rw [List.forall_mem_cons] at hfields
    rw [List.forall₂_cons, List.forall_mem_cons, ih hfields.2]
    refine and_congr_left fun _ => ?_
    obtain ⟨w, hw⟩ := Option.isSome_iff_exists.mp hfields.1
    obtain ⟨j', hj', hitem'⟩ := Value.item_of_field hdocument hw
    obtain rfl := Except.ok.inj (hitem.symm.trans hitem')
    constructor
    · intro hfits w' hw' i hi
      obtain rfl := Option.some.inj (hw.symm.trans hw')
      rwa [Option.some.inj (hi.symm.trans hj')]
    · intro h
      exact h w hw j hj'

/-- A row fits when each of its fields fits the column of its name. -/
theorem rowOf_fits_iff {table : ResultTable} {v : Value} {document : Json} {row : ResultRow}
    (hdocument : v.jsonValue = some document) (hrow : rowOf table document = .ok row)
    (hfields : ∀ column ∈ table.columns, (v.field? column).isSome) :
    row.Fits ↔ ∀ column ∈ table.columns, ∀ w, v.field? column = some w → w.Fits column := by
  obtain ⟨values, hvalues, hrow⟩ := bind_eq_ok.mp hrow
  obtain rfl := Except.ok.inj hrow
  exact forall₂_fits_iff hdocument (mapM_eq_ok.mp (mapError_eq_ok.mp hvalues)) hfields

/-- A dataclass has a row. -/
theorem exists_rowOf {table : ResultTable} {v : Value} {document : Json}
    (hdocument : v.jsonValue = some document)
    (hfields : ∀ column ∈ table.columns, (v.field? column).isSome) :
    ∃ row, rowOf table document = .ok row := by
  have hitems : ∀ column ∈ table.columns, ∃ j, item document column = .ok j := by
    intro column hcolumn
    obtain ⟨w, hw⟩ := Option.isSome_iff_exists.mp (hfields column hcolumn)
    obtain ⟨j, -, hitem⟩ := Value.item_of_field hdocument hw
    exact ⟨j, hitem⟩
  obtain ⟨values, hvalues⟩ := exists_mapM_eq_ok hitems
  exact ⟨⟨table, values⟩, bind_eq_ok.mpr ⟨values, mapError_eq_ok.mpr hvalues, rfl⟩⟩

/-! ## Fields -/

theorem Value.fits_amount {column : Text} (a : Amount) (hmoney : column ∈ moneyColumns)
    (hid : column ∉ idColumns) :
    (Value.decimal a).Fits column ↔ |a.cents| ≤ maxMoney := by
  rw [← fitsColumn_amount hmoney hid]
  constructor
  · intro h
    exact h _ rfl
  · intro h j hj
    rwa [← Option.some.inj hj]

theorem Value.fits_optional {column : Text} (a : Option Amount) (hmoney : column ∈ moneyColumns)
    (hid : column ∉ idColumns) :
    (Value.optional .decimal a).Fits column ↔ ∀ b ∈ a, |b.cents| ≤ maxMoney := by
  cases a with
  | none =>
    refine iff_of_true (fun j hj => ?_) nofun
    rw [← Option.some.inj hj]
    exact fitsColumn_null
  | some a =>
    have hsome : (∀ b ∈ some a, |b.cents| ≤ maxMoney) ↔ |a.cents| ≤ maxMoney := by simp
    rw [hsome]
    exact Value.fits_amount a hmoney hid

theorem Value.fits_id {column s : Text} (hmoney : column ∉ moneyColumns)
    (hid : column ∈ idColumns) : (Value.text s).Fits column ↔ s.length ≤ entityIdLength := by
  rw [← fitsColumn_id hmoney hid]
  constructor
  · intro h
    exact h _ rfl
  · intro h j hj
    rwa [← Option.some.inj hj]

theorem Value.fits_other {v : Value} {column : Text} (hmoney : column ∉ moneyColumns)
    (hid : column ∉ idColumns) : v.Fits column :=
  fun _ _ => fitsColumn_other hmoney hid

/-- What a dataclass has under the columns of a table: the name of an entity, and amounts. -/
structure DescribesRow (table : ResultTable) (v : Value) (entityId : Text)
    (amounts : List (Option Amount)) : Prop where
  fields : (table.columns.all fun column => (v.field? column).isSome) = true
  name : ∃ column, table.columns.filter (· ∈ idColumns) = [column] ∧
    v.field? column = some (.text entityId)
  amounts : (table.columns.filter (· ∈ moneyColumns)).map v.field? =
    amounts.map fun a => some (.optional .decimal a)

theorem DescribesRow.fits_iff {table : ResultTable} {v : Value} {entityId : Text}
    {amounts : List (Option Amount)} {document : Json} {row : ResultRow}
    (h : DescribesRow table v entityId amounts) (hdocument : v.jsonValue = some document)
    (hrow : rowOf table document = .ok row) :
    row.Fits ↔ Fits entityId ((amounts.filterMap id).map Amount.cents) := by
  obtain ⟨idColumn, hidColumn, hname⟩ := h.name
  have hid : ∀ column, column ∈ table.columns ∧ column ∈ idColumns ↔ column = idColumn := by
    intro column
    rw [← List.mem_singleton, ← hidColumn, List.mem_filter, decide_eq_true_eq]
  have hmoney := moneyColumns_not_id
  have hbounds : (∀ a ∈ (amounts.filterMap id).map Amount.cents, |a| ≤ maxMoney) ↔
      ∀ a ∈ amounts, ∀ b ∈ a, |b.cents| ≤ maxMoney := by
    simp only [List.forall_mem_map, List.mem_filterMap, id_eq, Option.mem_def]
    constructor
    · intro hall a ha b hb
      exact hall b ⟨a, ha, hb⟩
    · rintro hall b ⟨a, ha, hb⟩
      exact hall a ha b hb
  rw [Fits, hbounds, rowOf_fits_iff hdocument hrow (List.all_eq_true.mp h.fields)]
  constructor
  · intro hall
    obtain ⟨hcolumn, hcolumnId⟩ := (hid idColumn).mpr rfl
    refine ⟨?_, fun a ha => ?_⟩
    · have hnot : idColumn ∉ moneyColumns := fun hm => hmoney _ hm hcolumnId
      exact (Value.fits_id hnot hcolumnId).mp (hall _ hcolumn _ hname)
    · have ha := List.mem_map_of_mem (f := fun a => some (Value.optional .decimal a)) ha
      rw [← h.amounts] at ha
      obtain ⟨column, hcolumn, hfield⟩ := List.mem_map.mp ha
      obtain ⟨hcolumn, hcolumnMoney⟩ := List.mem_filter.mp hcolumn
      have hcolumnMoney := of_decide_eq_true hcolumnMoney
      exact (Value.fits_optional a hcolumnMoney (hmoney _ hcolumnMoney)).mp
        (hall _ hcolumn _ hfield)
  · rintro ⟨hlength, hall⟩ column hcolumn w hw
    by_cases hcolumnId : column ∈ idColumns
    · obtain rfl := (hid column).mp ⟨hcolumn, hcolumnId⟩
      obtain rfl := Option.some.inj (hname.symm.trans hw)
      exact (Value.fits_id (fun hm => hmoney _ hm hcolumnId) hcolumnId).mpr hlength
    by_cases hcolumnMoney : column ∈ moneyColumns
    · have hmem : some w ∈ (table.columns.filter (· ∈ moneyColumns)).map v.field? :=
        List.mem_map.mpr ⟨column, List.mem_filter.mpr ⟨hcolumn, decide_eq_true hcolumnMoney⟩, hw⟩
      rw [h.amounts] at hmem
      obtain ⟨a, ha, he⟩ := List.mem_map.mp hmem
      rw [← Option.some.inj he]
      exact (Value.fits_optional a hcolumnMoney hcolumnId).mpr (hall a ha)
    · exact Value.fits_other hcolumnMoney hcolumnId

theorem TransactionReconciliation.describes (t : TransactionReconciliation) :
    DescribesRow .transactions t.toValue t.orderId (t.amounts.map fun a => some (.money a)) where
  fields := rfl
  name := ⟨txt "order_id", tables_idColumns.1, rfl⟩
  amounts := rfl

theorem PayoutReconciliation.describes (p : PayoutReconciliation) :
    DescribesRow .payouts p.toValue p.payoutId (p.amounts.map fun a => some (.money a)) where
  fields := rfl
  name := ⟨txt "payout_id", tables_idColumns.2.1, rfl⟩
  amounts := rfl

theorem ReconciliationException.describes (x : ReconciliationException) :
    DescribesRow .exceptions x.toValue x.entityId [x.expectedAmount, x.actualAmount, x.variance] where
  fields := rfl
  name := ⟨txt "entity_id", tables_idColumns.2.2, rfl⟩
  amounts := rfl

end Threadline
