import Threadline.RetainedDeliveries

/-!
# Stored evidence

The gate that lets a delivery in and the check of the evidence kept in the
database agree: the stored report of an ingested delivery has no problem but the
rows in quarantine, in every later state.
-/

open PyText PyJson PyCalendar PySorted PyExcept Runs

namespace Threadline

/-- No row of the delivery violates the record contract. -/
def VerifiedDelivery.Conforms (platform : Platform) (delivery : VerifiedDelivery) : Prop :=
  ∀ payload ∈ delivery.records,
    ∃ record, parseSourceRecord platform.iso payload (.member delivery.entityType) = .ok record

instance (platform : Platform) (delivery : VerifiedDelivery) :
    Decidable (delivery.Conforms platform) :=
  decidable_of_iff (∀ payload ∈ delivery.records,
    (parseSourceRecord platform.iso payload (.member delivery.entityType)).toOption.isSome) <| by
      simp only [VerifiedDelivery.Conforms, Option.isSome_iff_exists, toOption_eq_some]

section

variable {platform : Platform} {call : IngestionCall} {db db' : Database}
  {delivery : VerifiedDelivery} {deliveryKey : Text} {stored : List (Uuid × SourceReceipt)}

theorem enumMember_eq_some {α : Type} {members : List α} {name value : α → Text} {label : Text}
    {a : α} (h : enumMember members name value label = some a) : label = name a ∨ label = value a := by
  rcases Option.or_eq_some_iff.mp h with h | ⟨-, h⟩
  · have hname := List.find?_some h
    exact .inl (of_decide_eq_true hname).symm
  · have hvalue := List.find?_some h
    exact .inr (of_decide_eq_true hvalue).symm

theorem subscript_of_get? {members : List (Text × Json)} {key : Text} {value : Json}
    (h : (PyDict.ofPairs members).get? key = some value) :
    subscript (.obj members) key = .ok value := by
  rw [subscript, h]

/-- An accepted manifest agrees with the batch and the receipts that are stored for it. -/
theorem Declares.agrees {file : SourceFile} {members : List (Text × Json)} {report : StoredReport}
    (h : Declares platform file delivery (PyDict.ofPairs members)) (hfile : delivery.file = file)
    (hbatch : report.batch = { call.processingBatch platform delivery deliveryKey with
      ingestionStatus := .committed })
    (hcount : report.receiptCount = delivery.records.length) :
    ManifestAgrees report delivery.reportType (.obj members) delivery.records.length := by
  obtain ⟨typeLabel, htype, htypeOf⟩ := h.reportType
  obtain ⟨entityLabel, hentity, hentityOf⟩ := h.entityType
  obtain ⟨sourceLabel, hsource, hsourceOf⟩ := h.sourceSystem
  obtain rfl := entityTypeOf_eq_some.mp hentityOf
  subst hfile
  constructor
  · rw [hbatch]
    exact subscript_of_get? h.filename
  · exact ⟨_, subscript_of_get? htype, by rw [reportTypeOfJson, htypeOf]⟩
  · refine ⟨_, subscript_of_get? hsource, ?_⟩
    rw [← delivery.sourceSystem_eq]
    exact enumMember_eq_some hsourceOf
  · rw [← delivery.entityType_eq]
    exact subscript_of_get? hentity
  · rw [hbatch]
    exact subscript_of_get? h.reportDate
  · exact subscript_of_get? h.schemaVersion
  · rw [hbatch]
    exact subscript_of_get? h.checksum
  · exact subscript_of_get? h.rowCount
  · rw [hbatch]
    rfl
  · rw [hbatch]
    rfl
  · exact hcount.symm

theorem coreRow_quarantined (p : Uuid × SourceReceipt) :
    (coreRow p).2.disposition = .quarantined ↔ p.2.disposition = .quarantined := by
  unfold coreRow
  split_ifs with h <;> simp [h, SourceReceipt.dispose]

/-- The receipts of a retained delivery, counted. -/
theorem Retained.counts (h : Retained platform call delivery deliveryKey stored db)
    (hrows : (delivery.records.zipIdx 1).mapM (call.storedRow platform delivery) = some stored) :
    (db.receiptsOf call.batchId).length = delivery.records.length ∧
      ((∃ p ∈ db.receiptsOf call.batchId, p.2.disposition = .quarantined) ↔
        ¬ delivery.Conforms platform) := by
  obtain ⟨-, hnumbers, hquarantined⟩ := stored_rows hrows
  constructor
  · have hlength := congrArg List.length h.receipts
    have hstored := congrArg List.length hnumbers
    simp only [List.length_map, List.length_zipIdx] at hlength hstored
    rw [hlength, hstored]
  · have hcore : ∀ rows : List (Uuid × SourceReceipt),
        (∃ p ∈ rows, p.2.disposition = .quarantined) ↔
          ∃ p ∈ rows.map coreRow, p.2.disposition = .quarantined := by
      intro rows
      simp only [List.mem_map, exists_exists_and_eq_and, coreRow_quarantined]
    rw [hcore, h.receipts, ← hcore, hquarantined, List.zipIdx_map_fst]
    simp only [VerifiedDelivery.Conforms, not_forall, exists_prop]

/-- The stored report of an ingested delivery has no problem but its rows in quarantine. -/
theorem Retained.verifyStoredReport (h : Retained platform call delivery deliveryKey stored db)
    (hverified : verifyDelivery platform call.file = .ok delivery)
    (hrows : (delivery.records.zipIdx 1).mapM (call.storedRow platform delivery) = some stored) :
    ∃ batch, db.batches.get? call.batchId = some batch ∧
      (delivery.Conforms platform →
        verifyStoredReport platform (db.storedReport (call.batchId, batch)) = none) ∧
      (¬ delivery.Conforms platform →
        verifyStoredReport platform (db.storedReport (call.batchId, batch)) =
          some (txt "QUARANTINED_ROWS")) := by
  obtain ⟨hcount, hquarantined⟩ := h.counts hrows
  obtain ⟨hfile, data, members, hdata, hmanifest, hrecords, hdeclares⟩ :=
    verifyDelivery_eq_ok hverified
  refine ⟨_, h.batch, ?_⟩
  generalize hreport : db.storedReport (call.batchId, { call.processingBatch platform delivery
    deliveryKey with ingestionStatus := .committed }) = report
  have hevidence : report.evidence =
      some ⟨delivery.file.dataBytes, delivery.file.manifestBytes⟩ := by
    rw [← hreport]
    exact h.evidence
  have htype : reportTypeOf report.batch.reportType = some delivery.reportType := by
    rw [← hreport]
    exact reportTypeOf_value delivery.reportType
  have hagrees : ManifestAgrees report delivery.reportType (.obj members)
      delivery.records.length :=
    hdeclares.agrees hfile (by rw [← hreport]; rfl) (by rw [← hreport]; exact hcount)
  have hzero : report.quarantineCount = 0 ↔ delivery.Conforms platform := by
    rw [← not_iff_not, ← hquarantined, ← hreport]
    simp [Database.storedReport, List.length_eq_zero_iff]
  have hcompare := compareManifest_eq_ok.mpr hagrees
  have hchecksum : platform.sha256 call.file.dataBytes = report.batch.fileChecksum := by
    rw [← hreport, ← hfile]
    rfl
  have hmanifestChecksum :
      platform.sha256 call.file.manifestBytes = report.batch.manifestChecksum := by
    rw [← hreport, ← hfile]
    rfl
  rw [← hzero, Threadline.verifyStoredReport]
  simp only [hevidence, hchecksum, hmanifestChecksum, hfile, hdata, hmanifest, hrecords, htype,
    hcompare, ne_eq, not_true_eq_false, if_false]
  exact ⟨fun hnone => if_neg (not_not.mpr hnone), fun hsome => if_pos hsome⟩

end

/-- The gate and the check of the stored evidence agree: in every state after its ingestion, the
stored report of an accepted delivery has no problem if all its rows conform to the record contract,
and rows in quarantine otherwise. -/
theorem stored_evidence_agrees (platform : Platform) (before later : List DatabaseEvent)
    (call : IngestionCall) {outcome : IngestionOutcome}
    (hcommitted : call.committed? platform (Database.after platform before) = some outcome)
    (hnew : outcome.reusedExistingBatch = false) :
    ∃ delivery batch, verifyDelivery platform call.file = .ok delivery ∧
      (Database.after platform (before ++ .ingest call :: later)).batches.get? call.batchId =
        some batch ∧
      (delivery.Conforms platform → verifyStoredReport platform
        ((Database.after platform (before ++ .ingest call :: later)).storedReport
          (call.batchId, batch)) = none) ∧
      (¬ delivery.Conforms platform → verifyStoredReport platform
        ((Database.after platform (before ++ .ingest call :: later)).storedReport
          (call.batchId, batch)) = some (txt "QUARANTINED_ROWS")) := by
  have hsettled : Settled platform (Database.after platform before) := settled_after before
  obtain ⟨hreused, -⟩ | ⟨-, delivery, deliveryKey, stored, hingested, -⟩ :=
    hsettled.commit hcommitted
  · rw [hnew] at hreused
    cases hreused
  · obtain ⟨batch, hbatch, hverify⟩ := (hingested.retained_after later).verifyStoredReport
      hingested.verified hingested.rows
    exact ⟨delivery, batch, hingested.verified, hbatch, hverify⟩

/-! ## The report of a cancelled order -/

namespace CancelledDay

open PaidDay (september atTen)

/-- The stored report of the orders verifies after the payments have been ingested too. -/
theorem stored_evidence_agrees_orders :
    ∃ delivery batch, verifyDelivery inbox.platform
        (orders.ingestion (atTen (september 15 rfl)) orders.name).file = .ok delivery ∧
      (Database.after inbox.platform (received orders ++ received payments)).batches.get?
        orders.name = some batch ∧
      verifyStoredReport inbox.platform ((Database.after inbox.platform
        (received orders ++ received payments)).storedReport (orders.name, batch)) = none := by
  have hany : ((orders.ingestion (atTen (september 15 rfl)) orders.name).committed?
      inbox.platform (Database.after inbox.platform [])).any
      (fun outcome => outcome.reusedExistingBatch = false) = true := by decide +kernel
  obtain ⟨outcome, hcommitted, hnew⟩ := (Option.any_eq_true _ _).mp hany
  obtain ⟨delivery, batch, hverified, hbatch, hconforms, -⟩ :=
    stored_evidence_agrees inbox.platform [] (received payments) _ hcommitted
      (of_decide_eq_true hnew)
  have hall : (verifyDelivery inbox.platform
      (orders.ingestion (atTen (september 15 rfl)) orders.name).file).toOption.all
      (fun delivery => delivery.Conforms inbox.platform) = true := by decide +kernel
  rw [hverified] at hall
  exact ⟨delivery, batch, hverified, hbatch, hconforms (of_decide_eq_true hall)⟩

end CancelledDay

end Threadline
