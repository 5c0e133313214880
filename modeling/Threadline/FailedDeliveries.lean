import Threadline.LedgerRuns

/-!
# Failed deliveries

A rebuild reads the deliveries that were recorded and have failed. Their rows are
published as rejected, and their days need reports; nothing else of a candidate
comes from them.
-/

open PyText PyJson PyCalendar PySorted PyExcept

namespace Threadline

namespace IngestionTables

variable (tables : IngestionTables)

/-- The receipts of the service that a rebuild reads. -/
def failedReceipts : List (Uuid × SourceReceipt) :=
  tables.db.finalizedReceipts.filter fun p => decide (p.2.batchId ∈ tables.details.keys)

/-- The day of a delivery that was recorded and has failed. -/
def FailedDay (day : Date) : Prop :=
  ∃ p ∈ tables.db.batches.items, p.1 ∈ tables.details.keys ∧ p.2.ingestionStatus = .failed ∧
    p.2.reportDate = day

end IngestionTables

section

variable {platform : LedgerPlatform} {call : LedgerCall} {tables : IngestionTables}
  {db : Database} {deliveryKey filename : Text} {rows : List (Uuid × SourceReceipt)}

/-! ## Receipts -/

/-- A prepared row in quarantine can be published. -/
theorem PreparedRow.makeQuarantine {batchId : Uuid} {issues : List Text} {row : Payload × ℕ}
    {p : Uuid × SourceReceipt} (h : PreparedRow platform call batchId issues row p)
    (hquarantined : p.2.disposition = .quarantined) : ∃ q, makeQuarantine p.2 = .ok q := by
  obtain ⟨code, hcode, hstrip⟩ := h.reason hquarantined
  have hdumps : ∃ text, dumps p.2.rawPayload = some text := by
    have hhash := h.hash
    rw [← h.payload, documentFingerprint, Option.map_eq_some_iff] at hhash
    obtain ⟨bytes, hbytes, -⟩ := hhash
    obtain ⟨text, htext, -⟩ := Option.bind_eq_some_iff.mp hbytes
    exact ⟨text, htext⟩
  obtain ⟨text, htext⟩ := hdumps
  unfold Threadline.makeQuarantine
  rw [hcode, h.entityType, htext]
  simp only [if_neg hstrip, Option.bind_some, entityTypeOf_eq_some.mpr rfl]
  exact ⟨_, rfl⟩

/-- All rows of a failed delivery are in quarantine. -/
theorem Kept.quarantined (h : Kept platform call deliveryKey filename rows tables)
    (hfailed : call.batchStatus platform = .failed) {p : Uuid × SourceReceipt} (hp : p ∈ rows) :
    p.2.disposition = .quarantined ∧ ∃ q, makeQuarantine p.2 = .ok q := by
  obtain ⟨row, -, hrow⟩ := (mem_of_mapM_eq_ok h.prepared).mp hp
  have hprepared := prepareReceipt_eq_ok hrow
  have hissues : batchIssues platform call.delivery ≠ [] := by
    intro hnil
    rw [LedgerCall.batchStatus, if_pos hnil] at hfailed
    cases hfailed
  have hquarantined := hprepared.quarantined.mpr fun hpending =>
    hissues (hprepared.pending.mp hpending).1
  exact ⟨hquarantined, hprepared.makeQuarantine hquarantined⟩

/-- The status of a recorded batch that is finalized is `FAILED`. -/
theorem finalized_iff_failed (hinert : tables.db.Inert tables.details.keys) {id : Uuid}
    (hid : id ∈ tables.details.keys) :
    tables.db.finalized id = true ↔ tables.db.batchStatus id = some .failed := by
  obtain ⟨batch, hbatch, hstatus⟩ := hinert.listed id hid
  have hne : tables.db.batchStatus id ≠ some .committed := by
    rw [Database.batchStatus, hbatch]
    exact fun h => hstatus (Option.some.inj h)
  simp [Database.finalized, hne]

/-- A receipt of the service that a rebuild reads is in quarantine. -/
theorem failedReceipt_quarantined (platform : LedgerPlatform) (events : List LedgerEvent)
    (hinert : (IngestionTables.after platform events).db.Inert
      (IngestionTables.after platform events).details.keys)
    {p : Uuid × SourceReceipt} (hp : p ∈ (IngestionTables.after platform events).failedReceipts) :
    p.2.disposition = .quarantined ∧ ∃ q, makeQuarantine p.2 = .ok q := by
  obtain ⟨hp, hid⟩ := List.mem_filter.mp hp
  obtain ⟨hp, hfinalized⟩ := List.mem_filter.mp ((mem_sortedBy _).mp hp)
  have hid := of_decide_eq_true hid
  obtain ⟨call, -, hbatch, deliveryKey, filename, rows, hkept⟩ := exists_kept platform events _ hid
  have hfailed := (finalized_iff_failed hinert hid).mp hfinalized
  rw [← hbatch, Database.batchStatus, hkept.batch, Option.map_some] at hfailed
  have hmem : p ∈ rows := by
    rw [← hkept.receipts]
    exact List.mem_filter.mpr ⟨hp, decide_eq_true hbatch.symm⟩
  exact hkept.quarantined (Option.some.inj hfailed) hmem

end

/-! ## A rebuild -/

section

variable {platform : Platform} {db : Database} {ids : List Uuid}

theorem finalized_without (db : Database) {id : Uuid} (hid : id ∉ ids) :
    (db.without ids).finalized id = db.finalized id := by
  rw [Database.finalized, Database.finalized, batchStatus_without db hid]

theorem finalizedReceipts_without (db : Database) (ids : List Uuid) :
    (db.without ids).finalizedReceipts =
      db.finalizedReceipts.filter fun p => decide (p.2.batchId ∉ ids) := by
  rw [Database.finalizedReceipts, Database.finalizedReceipts, filter_sortedBy]
  change sortedBy _ ((db.receipts.items.filter _).filter _) = _
  rw [List.filter_filter, List.filter_filter]
  refine congrArg (sortedBy _) (List.filter_congr fun p _ => ?_)
  by_cases hid : p.2.batchId ∈ ids
  · simp [hid]
  · simp [hid, finalized_without db hid]

theorem rebuildReceipt_without (db : Database) {p : Uuid × SourceReceipt} (hid : p.2.batchId ∉ ids) :
    (db.without ids).rebuildReceipt platform p = db.rebuildReceipt platform p := by
  rw [Database.rebuildReceipt, Database.rebuildReceipt, batchStatus_without db hid]

/-- Receipts in quarantine add to the rejected rows of a rebuild, and to nothing else. -/
theorem rebuild_split (receipts : List (Uuid × SourceReceipt))
    (hown : ∀ p ∈ receipts, p.2.batchId ∈ ids →
      p.2.disposition = .quarantined ∧ ∃ q, makeQuarantine p.2 = .ok q)
    (hrest : ∀ p ∈ receipts, p.2.batchId ∉ ids → ∃ r, db.rebuildReceipt platform p = .ok r) :
    ∃ rebuilt rest failed, receipts.mapM (db.rebuildReceipt platform) = .ok rebuilt ∧
      (receipts.filter fun p => decide (p.2.batchId ∉ ids)).mapM
        ((db.without ids).rebuildReceipt platform) = .ok rest ∧
      (receipts.filter fun p => decide (p.2.batchId ∈ ids)).mapM
        (fun p => makeQuarantine p.2) = .ok failed ∧
      rebuilt.filterMap Sum.getRight? = rest.filterMap Sum.getRight? ∧
      (rebuilt.filterMap Sum.getLeft?).Perm (rest.filterMap Sum.getLeft? ++ failed) := by
  induction receipts with
  | nil => exact ⟨[], [], [], rfl, rfl, rfl, rfl, .nil⟩
  | cons p receipts ih =>
    obtain ⟨hownHead, hown⟩ := List.forall_mem_cons.mp hown
    obtain ⟨hrestHead, hrest⟩ := List.forall_mem_cons.mp hrest
    obtain ⟨rebuilt, rest, failed, hrebuilt, hrests, hfailed, hright, hleft⟩ := ih hown hrest
    by_cases hid : p.2.batchId ∈ ids
    · obtain ⟨hquarantined, q, hq⟩ := hownHead hid
      have hp : db.rebuildReceipt platform p = .ok (.inl q) := by
        rw [Database.rebuildReceipt, if_pos hquarantined, hq]
        rfl
      refine ⟨.inl q :: rebuilt, rest, q :: failed, ?_, ?_, ?_, ?_, ?_⟩
      · simp only [List.mapM_cons, hp, hrebuilt]
        rfl
      · rwa [List.filter_cons_of_neg (by simpa using hid)]
      · rw [List.filter_cons_of_pos (by simpa using hid), List.mapM_cons, hq, hfailed]
        rfl
      · exact hright
      · exact (hleft.cons q).trans List.perm_middle.symm
    · obtain ⟨r, hr⟩ := hrestHead hid
      refine ⟨r :: rebuilt, r :: rest, failed, ?_, ?_, ?_, ?_, ?_⟩
      · rw [List.mapM_cons, hr, hrebuilt]
        rfl
      · rw [List.filter_cons_of_pos (by simpa using hid), List.mapM_cons,
          rebuildReceipt_without db hid, hr, hrests]
        rfl
      · rwa [List.filter_cons_of_neg (by simpa using hid)]
      · cases r with
        | inl q => exact hright
        | inr e => exact congrArg (List.cons e) hright
      · cases r with
        | inl q => exact hleft.cons q
        | inr e => exact hleft

/-! ## Certified reports -/

theorem delivered_without (hinert : db.Inert ids) {asOfUtc : UtcDateTime} {day : Date}
    {reportType : ReportType} {p : Uuid × IngestionBatch} :
    Delivered (db.without ids) asOfUtc day reportType p ↔ Delivered db asOfUtc day reportType p := by
  constructor
  · rintro ⟨hp, hcommitted, hreceived, hday, htype⟩
    exact ⟨(mem_without_batches.mp hp).1, hcommitted, hreceived, hday, htype⟩
  · rintro ⟨hp, hcommitted, hreceived, hday, htype⟩
    refine ⟨mem_without_batches.mpr ⟨hp, fun hid => ?_⟩, hcommitted, hreceived, hday, htype⟩
    obtain ⟨batch, hbatch, hstatus⟩ := hinert.listed p.1 hid
    rw [PyDict.mem_items_iff.mp hp] at hbatch
    exact hstatus (Option.some.inj hbatch ▸ hcommitted)

theorem latestDelivery_without (hinert : db.Inert ids) {asOfUtc : UtcDateTime} {day : Date}
    {reportType : ReportType} {p : Uuid × IngestionBatch} :
    LatestDelivery (db.without ids) asOfUtc day reportType p ↔
      LatestDelivery db asOfUtc day reportType p := by
  constructor
  · rintro ⟨hp, hlatest⟩
    exact ⟨(delivered_without hinert).mp hp, fun q hq => hlatest q ((delivered_without hinert).mpr hq)⟩
  · rintro ⟨hp, hlatest⟩
    exact ⟨(delivered_without hinert).mpr hp, fun q hq => hlatest q ((delivered_without hinert).mp hq)⟩

/-- The report of a type that is delivered for a day and re-verifies. -/
def CertifiedDay (platform : Platform) (db : Database) (asOfUtc : UtcDateTime)
    (reportType : ReportType) (day : Date) : Prop :=
  ∃ p, LatestDelivery db asOfUtc day reportType p ∧ Reverified platform (db.storedReport p) reportType

theorem certifiedDay_without (hinert : db.Inert ids) {asOfUtc : UtcDateTime} {reportType : ReportType}
    {day : Date} : CertifiedDay platform (db.without ids) asOfUtc reportType day ↔
      CertifiedDay platform db asOfUtc reportType day := by
  refine exists_congr fun p => ?_
  rw [latestDelivery_without hinert]
  refine and_congr_right fun hp => ?_
  have hid : p.1 ∉ ids :=
    (mem_without_batches.mp ((delivered_without hinert).mpr hp.toDelivered).mem).2
  have hreport : (db.without ids).storedReport p = db.storedReport p := by
    unfold Database.storedReport
    rw [receiptsOf_without db hid]
    rfl
  rw [hreport]

end

section

variable {platform : LedgerPlatform} {tables : IngestionTables} {db : Database}

/-- A report is certified where it is certified without the recorded deliveries, and on the days of
those that have failed. -/
theorem Separate.certifiedReport (h : Separate platform tables db) (asOfUtc : UtcDateTime)
    (reportType : ReportType) :
    CertifiedReport platform.toPlatform tables.db asOfUtc reportType ↔
      CertifiedReport platform.toPlatform tables.durable asOfUtc reportType ∧
        ∀ day, tables.FailedDay day →
          CertifiedDay platform.toPlatform tables.durable asOfUtc reportType day := by
  constructor
  · intro hcertified
    refine ⟨fun day hday => ?_, ?_⟩
    · refine (certifiedDay_without h.inert).mpr (hcertified day (hday.imp_right ?_))
      rintro ⟨p, hp, hfinalized, hdate⟩
      obtain ⟨hp, hid⟩ := mem_without_batches.mp hp
      exact ⟨p, hp, (finalized_without _ hid).symm.trans hfinalized, hdate⟩
    · rintro day ⟨p, hp, hid, hfailed, hdate⟩
      refine (certifiedDay_without h.inert).mpr (hcertified day (.inr ⟨p, hp, ?_, hdate⟩))
      refine (finalized_iff_failed h.inert hid).mpr ?_
      rw [Database.batchStatus, PyDict.mem_items_iff.mp hp, Option.map_some, hfailed]
  · rintro ⟨hcertified, hdays⟩ day hday
    refine (certifiedDay_without h.inert).mp ?_
    rcases hday with hday | ⟨p, hp, hfinalized, hdate⟩
    · exact hcertified day (.inl hday)
    · by_cases hid : p.1 ∈ tables.details.keys
      · have hfailed := (finalized_iff_failed h.inert hid).mp hfinalized
        rw [Database.batchStatus, PyDict.mem_items_iff.mp hp, Option.map_some] at hfailed
        exact hdays day ⟨p, hp, hid, Option.some.inj hfailed, hdate⟩
      · exact hcertified day (.inr ⟨p, mem_without_batches.mpr ⟨hp, hid⟩,
          (finalized_without _ hid).trans hfinalized, hdate⟩)

/-- What a rebuild takes from the deliveries that were recorded. -/
structure RebuiltApart (platform : LedgerPlatform) (tables : IngestionTables) : Prop where
  rows : ∃ quarantine envelopes failed merged,
    tables.durable.rebuildReceipts platform.toPlatform = .ok (quarantine, envelopes) ∧
    tables.failedReceipts.mapM (fun p => makeQuarantine p.2) = .ok failed ∧
    tables.db.rebuildReceipts platform.toPlatform = .ok (merged, envelopes) ∧
    merged.Perm (quarantine ++ failed)
  certified : ∀ asOfUtc reportType,
    CertifiedReport platform.toPlatform tables.db asOfUtc reportType ↔
      CertifiedReport platform.toPlatform tables.durable asOfUtc reportType ∧
        ∀ day, tables.FailedDay day →
          CertifiedDay platform.toPlatform tables.durable asOfUtc reportType day

/-- After any run a rebuild reads the records that it would read without the recorded deliveries. The
rows of those that have failed are rejected, and their days need the reports of the durable path. -/
theorem recorded_deliveries_rebuilt (platform : LedgerPlatform) (events : List LedgerEvent) :
    RebuiltApart platform (IngestionTables.after platform events) := by
  obtain ⟨matched, -, hseparate, -⟩ := exists_durable_run platform events
  refine ⟨?_, hseparate.certifiedReport⟩
  obtain ⟨rebuilt, rest, failed, hrebuilt, hrest, hfailed, hright, hleft⟩ := rebuild_split
        (IngestionTables.after platform events).db.finalizedReceipts
    (fun p hp hid => failedReceipt_quarantined platform events hseparate.inert
      (List.mem_filter.mpr ⟨hp, decide_eq_true hid⟩))
    (fun p hp hid => by
      have hmem : p ∈ (IngestionTables.after platform events).durable.receipts.items :=
        mem_without_receipts.mpr ⟨(List.mem_filter.mp ((mem_sortedBy _).mp hp)).1, hid⟩
      rw [hseparate.durable] at hmem
      rw [← rebuildReceipt_without _ hid, ← IngestionTables.durable, hseparate.durable]
      obtain ⟨-, q, hq⟩ | ⟨-, e, he, -⟩ := hseparate.settled.rebuildReceipt hmem
      · exact ⟨_, hq⟩
      · exact ⟨_, he⟩)
  rw [← finalizedReceipts_without] at hrest
  exact ⟨_, _, failed, _, rebuildReceipts_eq_ok.mpr ⟨rest, hrest, rfl, rfl⟩, hfailed,
    rebuildReceipts_eq_ok.mpr ⟨rebuilt, hrebuilt, rfl, hright.symm⟩, hleft⟩

end

end Threadline
