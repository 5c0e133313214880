import Threadline.DeliveredRecords
import Threadline.RunLabels

/-!
# Replayed deliveries

A candidate is the replay of the records that were delivered. Neither the
receipts that hold them nor the run that rebuilds it make a difference.
-/

open PyText PyJson PyCalendar PySorted PyExcept Runs

namespace Threadline

/-! ## Replays of the same records -/

section

variable {sha256 : Bytes → Text} {envelopes others : List (RecordEnvelope sha256)}

/-- Which records are live depends on the records only. -/
theorem live_of_records
    (h : ∀ r, (∃ e ∈ envelopes, e.record = r) ↔ ∃ e ∈ others, e.record = r) {r : FinancialRecord}
    (hlive : Live envelopes r) : Live others r := by
  obtain ⟨e, he, rfl, hs⟩ := hlive
  obtain ⟨f, hf, hfe⟩ := (h e.record).mp ⟨e, he, rfl⟩
  refine ⟨f, hf, hfe, fun ⟨g, hg, hi, hv⟩ => hs ?_⟩
  obtain ⟨g', hg', hgr⟩ := (h g.record).mpr ⟨g, hg, rfl⟩
  have hidentity : ∀ a b : RecordEnvelope sha256, a.record = b.record → a.identity = b.identity :=
    fun a b hab => congrArg FinancialRecord.identity hab
  have hversion : ∀ a b : RecordEnvelope sha256, a.record = b.record →
      a.sourceVersion = b.sourceVersion := fun a b hab => congrArg FinancialRecord.sourceVersion hab
  refine ⟨g', hg', ?_, ?_⟩
  · rw [hidentity g' g hgr, hi, hidentity f e hfe]
  · rwa [hversion g' g hgr, ← hversion f e hfe]

variable {runId : Text} {detectedAt : UtcDateTime} {completenessResults : List CompletenessResult}
  {quarantineRecords quarantineRecords' : List QuarantinedRecord} {r : ReconciliationResult}

/-- The fields of a replay that the records have no part in. -/
theorem replay_frame
    (h : replay sha256 runId detectedAt completenessResults quarantineRecords envelopes = .ok r) :
    r.runId = runId ∧ r.contractVersion = contractVersion ∧ r.detectedAtUtc = detectedAt ∧
      r.sourceCompleteness =
        (sortedBy CompletenessResult.sortKey completenessResults).map CompletenessResult.status ∧
      r.quarantineRecords = sortedBy QuarantinedRecord.sortKey quarantineRecords := by
  obtain ⟨c, -, candidate, hcandidate, hstable⟩ := replay_eq_ok.mp h
  obtain ⟨b, movements, hopened, rfl⟩ := reconcile_ok hcandidate
  obtain ⟨exceptions, rfl⟩ := stabilizeConflictEvidence_rows hstable
  have hrun : b.run = ⟨runId, detectedAt⟩ := hopened.run_eq
  exact ⟨congrArg Run.runId hrun, rfl, congrArg Run.detectedAtUtc hrun, rfl, rfl⟩

/-- Envelopes that hold the same records give the same result, apart from the rejected rows. -/
theorem replay_of_records
    (hrecords : ∀ r, (∃ e ∈ envelopes, e.record = r) ↔ ∃ e ∈ others, e.record = r)
    (hagree : ReceiptsAgree others)
    (hinj : Set.InjOn sha256
      {bytes | ∃ e ∈ envelopes, canonicalRecordBytes e.record = some bytes})
    (h : replay sha256 runId detectedAt completenessResults quarantineRecords envelopes = .ok r)
    (quarantineRecords' : List QuarantinedRecord) :
    replay sha256 runId detectedAt completenessResults quarantineRecords' others =
      .ok { r with quarantineRecords := sortedBy QuarantinedRecord.sortKey quarantineRecords' } := by
  have hinj' : Set.InjOn sha256
      {bytes | ∃ e ∈ others, canonicalRecordBytes e.record = some bytes} := by
    refine hinj.mono ?_
    rintro bytes ⟨e, he, hb⟩
    obtain ⟨f, hf, hfe⟩ := (hrecords e.record).mpr ⟨e, he, rfl⟩
    exact ⟨f, hf, hfe ▸ hb⟩
  have hlive : ∀ r, Live envelopes r ↔ Live others r := fun r =>
    ⟨live_of_records hrecords, live_of_records fun r => (hrecords r).symm⟩
  obtain ⟨c, hc, hr⟩ := replay_eq_ok.mp h
  obtain ⟨c', hc'⟩ := canonicalize_ok_iff.mpr hagree
  obtain ⟨r', hr', hsame⟩ := stabilized_of_live hinj hinj' hlive hc hc'
    (describes_of_agree (canonicalize_ok_iff.mp ⟨c, hc⟩)) (describes_of_agree hagree) rfl
    (fun run => rfl) hr quarantineRecords'
  have hreplay : replay sha256 runId detectedAt completenessResults quarantineRecords' others =
      .ok r' := replay_eq_ok.mpr ⟨c', hc', hr'⟩
  obtain ⟨hid, hversion, hdetected, hsources, -⟩ := replay_frame h
  obtain ⟨hid', hversion', hdetected', hsources', hquarantine'⟩ := replay_frame hreplay
  rw [hreplay]
  -- The sections agree because the records do, and the frame does not depend on them.
  cases r
  cases r'
  obtain ⟨htransactions, hmovements, hpayouts, hexceptions⟩ := hsame
  simp only at *
  subst_vars
  rfl

end

/-! ## Evidence of conflicts -/

section

variable {sha256 : Bytes → Text} {variants others : List SourceVariant}

theorem find?_receiptId
    (hagree : ∀ v ∈ variants, ∀ w ∈ variants, v.receiptId = w.receiptId → v = w) {id : Text}
    {v : SourceVariant} : variants.find? (fun variant => variant.receiptId = id) = some v ↔
      v ∈ variants ∧ v.receiptId = id := by
  constructor
  · intro h
    exact ⟨List.mem_of_find?_eq_some h, by simpa using List.find?_some h⟩
  · rintro ⟨hv, rfl⟩
    cases hfind : variants.find? (fun variant => variant.receiptId = v.receiptId) with
    | none => exact absurd (by simp) (List.find?_eq_none.mp hfind v hv)
    | some w =>
      have hid : w.receiptId = v.receiptId := by simpa using List.find?_some hfind
      rw [hagree w (List.mem_of_find?_eq_some hfind) v hv hid]

/-- Stabilization reads the variants of the receipts in conflict, in any order. -/
theorem stabilizeConflictEvidence_congr {candidate stable : ReconciliationResult}
    (hagree : ∀ v ∈ variants, ∀ w ∈ variants, v.receiptId = w.receiptId → v = w)
    (hagree' : ∀ v ∈ others, ∀ w ∈ others, v.receiptId = w.receiptId → v = w)
    (h : ∀ v : SourceVariant, v.receiptId ∈ conflictReceiptIds candidate →
      (v ∈ variants ↔ v ∈ others)) :
    stabilizeConflictEvidence sha256 variants candidate = .ok stable ↔
      stabilizeConflictEvidence sha256 others candidate = .ok stable := by
  have href : ∀ id ∈ conflictReceiptIds candidate,
      referenceOf sha256 variants id = referenceOf sha256 others id := by
    intro id hid
    have hfind : variants.find? (fun variant => variant.receiptId = id) =
        others.find? (fun variant => variant.receiptId = id) := by
      ext v
      rw [find?_receiptId hagree, find?_receiptId hagree']
      refine and_congr_left fun hv => h v ?_
      rwa [hv]
    rw [referenceOf, referenceOf, hfind]
  have hexceptions : candidate.exceptions.map (resolve (referenceOf sha256 variants)) =
      candidate.exceptions.map (resolve (referenceOf sha256 others)) := by
    refine List.map_congr_left fun x hx => resolve_congr fun hconflict id hid => ?_
    exact href id (mem_conflictReceiptIds.mpr ⟨x, hx, hconflict, hid⟩)
  rw [stabilizeConflictEvidence_eq_ok hagree, stabilizeConflictEvidence_eq_ok hagree', hexceptions]
  refine and_congr_left fun _ => forall₂_congr fun id hid => ?_
  rw [href id hid]

/-- The receipts in the conflicts of a candidate are those of envelopes. -/
theorem exists_envelope_of_conflict {envelopes : List (RecordEnvelope sha256)} {runId : Text}
    {detectedAt : UtcDateTime} {canonicalization : CanonicalizationResult}
    {completenessResults : List CompletenessResult} {quarantineRecords : List QuarantinedRecord}
    {candidate : ReconciliationResult} (hc : canonicalize envelopes = .ok canonicalization)
    (h : reconcile runId detectedAt canonicalization completenessResults quarantineRecords =
      .ok candidate) {id : Text} (hid : id ∈ conflictReceiptIds candidate) :
    ∃ e ∈ envelopes, e.receiptId = id := by
  obtain ⟨receipts, hunique, hspec⟩ := canonicalize_ok hc
  have hcanonicalizes := hunique.canonicalizes hspec
  obtain ⟨b, movements, -, rfl⟩ := reconcile_ok h
  obtain ⟨conflict, hconflict, hid⟩ :=
    (mem_conflictReceiptIds_iff hcanonicalizes.distinctConflicts).mp hid
  obtain ⟨e, -, -, rfl⟩ := (hcanonicalizes.mem_conflicts conflict).mp hconflict
  obtain ⟨f, hf, hid⟩ := mem_conflictOf_receiptIds.mp hid
  exact ⟨f, (mem_sameVersion.mp hf).1, hid⟩

end

/-! ## Rebuilds -/

section

variable {platform : Platform} {db : Database} {records : List FinancialRecord}
  {quarantine : List QuarantinedRecord} {envelopes : List (RecordEnvelope platform.sha256)}

/-- The stored evidence of a conflict is that of the envelopes. -/
theorem Delivering.stabilize_eq_ok (h : Delivering platform db records)
    (hrebuilt : db.rebuildReceipts platform = .ok (quarantine, envelopes))
    {candidate stable : ReconciliationResult}
    (hids : ∀ id ∈ conflictReceiptIds candidate, ∃ e ∈ envelopes, e.receiptId = id) :
    db.stabilize platform candidate = .ok stable ↔
      stabilizeConflictEvidence platform.sha256 (envelopes.map sourceVariant) candidate =
        .ok stable := by
  by_cases hnone : conflictReceiptIds candidate = []
  · rw [Database.stabilize, stabilizeConflictEvidence, if_pos hnone, if_pos hnone]
    simp only [Except.ok.injEq]
  have hmem := fun e => h.settled.mem_envelopes hrebuilt (e := e)
  -- A receipt of a conflict is that of an envelope, whose variant is stored.
  have hstored : ∀ p ∈ db.receipts.items, p.1 ∈ conflictReceiptIds candidate →
      ∃ e ∈ envelopes, e.receiptId = p.1 ∧ db.storedVariant p = .ok (sourceVariant e) := by
    intro p hp hid
    obtain ⟨e, he, hep⟩ := hids p.1 hid
    obtain ⟨q, hq, -, henvelops⟩ := (hmem e).mp he
    obtain rfl : q = p := List.inj_on_of_nodup_map db.receipts.nodup_keys hq hp
      (henvelops.receiptId.symm.trans hep)
    exact ⟨e, he, hep, h.storedVariant hq henvelops⟩
  have hall : ∀ p ∈ db.receipts.items.filter (fun p => p.1 ∈ conflictReceiptIds candidate ∧
      db.batchStatus p.2.batchId = some .committed), p ∈ db.receipts.items ∧
        p.1 ∈ conflictReceiptIds candidate := by
    intro p hp
    obtain ⟨hp, hid⟩ := List.mem_filter.mp hp
    exact ⟨hp, (of_decide_eq_true hid).1⟩
  obtain ⟨variants, hvariants⟩ := exists_mapM_eq_ok fun p hp => by
    obtain ⟨e, -, -, hvariant⟩ := hstored p (hall p hp).1 (hall p hp).2
    exact ⟨_, hvariant⟩
  have hagree := (describes_of_agree (h.settled.receiptsAgree hrebuilt)).agree
  have hsubset : ∀ v ∈ variants, v ∈ envelopes.map sourceVariant := by
    intro v hv
    obtain ⟨p, hp, hpv⟩ := (mem_of_mapM_eq_ok hvariants).mp hv
    obtain ⟨e, he, -, hvariant⟩ := hstored p (hall p hp).1 (hall p hp).2
    obtain rfl := Except.ok.inj (hvariant.symm.trans hpv)
    exact List.mem_map_of_mem he
  have hagree' : ∀ v ∈ variants, ∀ w ∈ variants, v.receiptId = w.receiptId → v = w :=
    fun v hv w hw => hagree v (hsubset v hv) w (hsubset w hw)
  have hsame : ∀ v : SourceVariant, v.receiptId ∈ conflictReceiptIds candidate →
      (v ∈ variants ↔ v ∈ envelopes.map sourceVariant) := by
    refine fun v hid => ⟨hsubset v, fun hv => ?_⟩
    obtain ⟨e, he, rfl⟩ := List.mem_map.mp hv
    obtain ⟨p, hp, -, henvelops⟩ := (hmem e).mp he
    have hkept : p ∈ db.receipts.items.filter (fun p => p.1 ∈ conflictReceiptIds candidate ∧
        db.batchStatus p.2.batchId = some .committed) := by
      refine List.mem_filter.mpr ⟨hp, decide_eq_true ⟨?_, h.settled.batchStatus hp⟩⟩
      exact henvelops.receiptId ▸ hid
    exact (mem_of_mapM_eq_ok hvariants).mpr ⟨p, hkept, h.storedVariant hp henvelops⟩
  rw [Database.stabilize, if_neg hnone, hvariants]
  exact mapError_eq_ok.trans (stabilizeConflictEvidence_congr hagree' hagree hsame)

/-- A rebuild is the replay of its envelopes. -/
theorem Delivering.buildCandidate_eq_ok (h : Delivering platform db records)
    (hrebuilt : db.rebuildReceipts platform = .ok (quarantine, envelopes)) {runId : Text}
    {asOfUtc : UtcDateTime} {result : ReconciliationResult} :
    db.buildCandidate platform runId asOfUtc = .ok result ↔
      ∃ reports, db.loadCompleteness platform asOfUtc = .ok reports ∧
        replay platform.sha256 runId asOfUtc reports quarantine envelopes = .ok result := by
  constructor
  · intro hbuild
    obtain ⟨quarantine', envelopes', c, reports, candidate, hrebuilt', hc, hreports, hcandidate,
      hstable⟩ := buildCandidate_ok hbuild
    obtain ⟨rfl, rfl⟩ := Prod.mk.inj (Except.ok.inj (hrebuilt.symm.trans hrebuilt'))
    refine ⟨reports, hreports, replay_eq_ok.mpr ⟨c, hc, candidate, hcandidate, ?_⟩⟩
    exact (h.stabilize_eq_ok hrebuilt fun id hid =>
      exists_envelope_of_conflict hc hcandidate hid).mp hstable
  · rintro ⟨reports, hreports, hreplay⟩
    obtain ⟨c, hc, candidate, hcandidate, hstable⟩ := replay_eq_ok.mp hreplay
    refine bind_eq_ok.mpr ⟨(quarantine, envelopes), hrebuilt, bind_eq_ok.mpr ⟨c,
      mapError_eq_ok.mpr hc, bind_eq_ok.mpr ⟨reports, mapError_eq_ok.mpr hreports,
      bind_eq_ok.mpr ⟨candidate, mapError_eq_ok.mpr hcandidate, ?_⟩⟩⟩⟩
    exact (h.stabilize_eq_ok hrebuilt fun id hid =>
      exists_envelope_of_conflict hc hcandidate hid).mpr hstable

/-- The envelopes hold these records, whatever receipts they name. -/
structure Envelopes (records : List FinancialRecord) (oracle : List (RecordEnvelope platform.sha256)) :
    Prop where
  agree : ReceiptsAgree oracle
  held : ∀ r, (∃ e ∈ oracle, e.record = r) ↔ r ∈ records
  injective : Set.InjOn platform.sha256
    {bytes | ∃ r ∈ records, canonicalRecordBytes r = some bytes}

variable {oracle : List (RecordEnvelope platform.sha256)}

theorem Envelopes.injOn (h : Envelopes records oracle) : Set.InjOn platform.sha256
    {bytes | ∃ e ∈ oracle, canonicalRecordBytes e.record = some bytes} := by
  refine h.injective.mono ?_
  rintro bytes ⟨e, he, hb⟩
  exact ⟨e.record, (h.held e.record).mp ⟨e, he, rfl⟩, hb⟩

/-- A candidate is the replay of any envelopes that hold the delivered records, under the labels of
its run and with the rejected rows. -/
theorem Delivering.replays (h : Delivering platform db records) (horacle : Envelopes records oracle)
    {run : Run} (hrun : requireRunId run.runId = .ok run.runId) {runId : Text}
    {asOfUtc : UtcDateTime} {reports : List CompletenessResult}
    (hreports : db.loadCompleteness platform asOfUtc = .ok reports) {result : ReconciliationResult}
    (hbuild : db.buildCandidate platform runId asOfUtc = .ok result) :
    replay platform.sha256 run.runId run.detectedAtUtc reports [] oracle =
      .ok { result.relabel run with quarantineRecords := [] } := by
  obtain ⟨quarantine, envelopes, hrebuilt⟩ := h.settled.rebuildReceipts
  obtain ⟨reports', hreports', hreplay⟩ := (h.buildCandidate_eq_ok hrebuilt).mp hbuild
  obtain rfl := Except.ok.inj (hreports.symm.trans hreports')
  have hrecords : ∀ r, (∃ e ∈ envelopes, e.record = r) ↔ ∃ e ∈ oracle, e.record = r := fun r =>
    (h.exists_envelope hrebuilt).trans (horacle.held r).symm
  have hinj : Set.InjOn platform.sha256
      {bytes | ∃ e ∈ envelopes, canonicalRecordBytes e.record = some bytes} := by
    refine horacle.injOn.mono ?_
    rintro bytes ⟨e, he, hb⟩
    obtain ⟨f, hf, hfe⟩ := (hrecords e.record).mp ⟨e, he, rfl⟩
    exact ⟨f, hf, hfe ▸ hb⟩
  exact replay_relabel run hrun (replay_of_records hrecords horacle.agree hinj hreplay [])

/-- What the oracle replays is rebuilt from the database. -/
theorem Delivering.rebuilds (h : Delivering platform db records) (horacle : Envelopes records oracle)
    {run : Run} {runId : Text} (hid : requireRunId runId = .ok runId) {asOfUtc : UtcDateTime}
    {reports : List CompletenessResult}
    (hreports : db.loadCompleteness platform asOfUtc = .ok reports) {replayed : ReconciliationResult}
    (hreplay : replay platform.sha256 run.runId run.detectedAtUtc reports [] oracle = .ok replayed) :
    ∃ result, db.buildCandidate platform runId asOfUtc = .ok result := by
  obtain ⟨quarantine, envelopes, hrebuilt⟩ := h.settled.rebuildReceipts
  have hrecords : ∀ r, (∃ e ∈ oracle, e.record = r) ↔ ∃ e ∈ envelopes, e.record = r := fun r =>
    (horacle.held r).trans (h.exists_envelope hrebuilt).symm
  have hlabelled : replay platform.sha256 runId asOfUtc reports [] oracle =
      .ok (replayed.relabel ⟨runId, asOfUtc⟩) :=
    replay_relabel ⟨runId, asOfUtc⟩ hid hreplay
  exact ⟨_, (h.buildCandidate_eq_ok hrebuilt).mpr ⟨reports, hreports,
    replay_of_records hrecords (h.settled.receiptsAgree hrebuilt) horacle.injOn hlabelled
      quarantine⟩⟩

/-- After any events a candidate is the replay of the records that were delivered, whatever their
receipts, their order and the run: the two return together, say the same apart from the labels and
the rejected rows, and have one fingerprint. -/
theorem rebuilt_candidate_replays (platform : Platform) (events : List DatabaseEvent)
    {oracle : List (RecordEnvelope platform.sha256)}
    (horacle : Envelopes (oracleInputs platform events) oracle) {run : Run}
    (hrun : requireRunId run.runId = .ok run.runId) {runId : Text}
    (hid : requireRunId runId = .ok runId) {asOfUtc : UtcDateTime}
    {reports : List CompletenessResult}
    (hreports : (Database.after platform events).loadCompleteness platform asOfUtc =
      .ok reports) :
    ((∃ result, (Database.after platform events).buildCandidate platform runId asOfUtc =
        .ok result) ↔
      ∃ replayed, replay platform.sha256 run.runId run.detectedAtUtc reports [] oracle =
        .ok replayed) ∧
    ∀ result replayed,
      (Database.after platform events).buildCandidate platform runId asOfUtc = .ok result →
      replay platform.sha256 run.runId run.detectedAtUtc reports [] oracle = .ok replayed →
        replayed = { result.relabel run with quarantineRecords := [] } ∧
          logicalFingerprint platform.sha256 replayed.toValue =
            logicalFingerprint platform.sha256 result.toValue := by
  have hdelivering : Delivering platform (Database.after platform events)
      (oracleInputs platform events) := delivering_after events
  refine ⟨⟨?_, ?_⟩, ?_⟩
  · rintro ⟨result, hbuild⟩
    exact ⟨_, hdelivering.replays horacle hrun hreports hbuild⟩
  · rintro ⟨replayed, hreplay⟩
    exact hdelivering.rebuilds horacle hid hreports hreplay
  · intro result replayed hbuild hreplay
    obtain rfl := Except.ok.inj
      (hreplay.symm.trans (hdelivering.replays horacle hrun hreports hbuild))
    exact ⟨rfl, logicalFingerprint_relabel run platform.sha256 result []⟩

end

/-! ## The oracle -/

/-- The envelopes of `assert_oracle`, named by the positions of the records. -/
def oracleEnvelopes (sha256 : Bytes → Text) (records : List FinancialRecord) :
    Except CanonicalizationError (List (RecordEnvelope sha256)) :=
  records.zipIdx.mapM fun input =>
    RecordEnvelope.make? sha256 (txt "oracle-" ++ natText input.2) input.1

/-- The oracle holds its inputs. -/
theorem oracleEnvelopes_hold {platform : Platform} {records : List FinancialRecord}
    {oracle : List (RecordEnvelope platform.sha256)}
    (hinj : Set.InjOn platform.sha256 {bytes | ∃ r ∈ records, canonicalRecordBytes r = some bytes})
    (h : oracleEnvelopes platform.sha256 records = .ok oracle) : Envelopes records oracle where
  agree := by
    intro a ha b hb hid
    obtain ⟨x, hx, hxa⟩ := (mem_of_mapM_eq_ok h).mp ha
    obtain ⟨y, hy, hyb⟩ := (mem_of_mapM_eq_ok h).mp hb
    have hn : x.2 = y.2 := by
      rw [(make?_eq_ok hxa).1, (make?_eq_ok hyb).1] at hid
      exact natText_injective (List.append_cancel_left hid)
    have hsame : x = y := by
      have hxn := (List.mem_zipIdx' hx).2
      have hyn := (List.mem_zipIdx' hy).2
      refine Prod.ext ?_ hn
      rw [hxn, hyn]
      simp only [hn]
    subst hsame
    obtain rfl := Except.ok.inj (hxa.symm.trans hyb)
    rfl
  held r := by
    constructor
    · rintro ⟨e, he, rfl⟩
      obtain ⟨x, hx, hxe⟩ := (mem_of_mapM_eq_ok h).mp he
      rw [(make?_eq_ok hxe).2, ← List.zipIdx_map_fst 0 records]
      exact List.mem_map_of_mem hx
    · intro hr
      rw [← List.zipIdx_map_fst 0 records] at hr
      obtain ⟨x, hx, rfl⟩ := List.mem_map.mp hr
      obtain ⟨e, he⟩ := exists_of_mapM_eq_ok h hx
      exact ⟨e, (mem_of_mapM_eq_ok h).mpr ⟨x, hx, he⟩, (make?_eq_ok he).2⟩
  injective := hinj

namespace CancelledDay

open PaidDay (september atTen valid15 valid16)

/-- The ingestions of the four reports. -/
def events : List DatabaseEvent :=
  inbox.reports.map fun report =>
    .ingest (report.ingestion (atTen (september 15 valid15)) report.name)

/-- The run of the oracle. -/
def oracleRun : Run := ⟨txt "oracle", atTen (september 16 valid16)⟩

/-- The oracle has one input. -/
theorem exists_oracle : ∃ oracle,
    oracleEnvelopes inbox.platform.sha256 (oracleInputs inbox.platform events) = .ok oracle ∧
      Envelopes (oracleInputs inbox.platform events) oracle := by
  have hone : ((oracleEnvelopes inbox.platform.sha256
      (oracleInputs inbox.platform events)).toOption.any fun oracle => oracle.length = 1) = true := by
    decide +kernel
  obtain ⟨oracle, horacle, hlength⟩ := (Option.any_eq_true _ _).mp hone
  have horacle := toOption_eq_some.mp horacle
  have hinputs : (oracleInputs inbox.platform events).length = 1 := by
    rw [← List.length_zipIdx, (mapM_eq_ok.mp horacle).length_eq]
    exact of_decide_eq_true hlength
  obtain ⟨r, hr⟩ := List.length_eq_one_iff.mp hinputs
  refine ⟨oracle, horacle, oracleEnvelopes_hold (Set.Subsingleton.injOn ?_ _) horacle⟩
  rintro a ⟨x, hx, ha⟩ b ⟨y, hy, hb⟩
  rw [hr, List.mem_singleton] at hx hy
  subst hx hy
  exact Option.some.inj (ha.symm.trans hb)

/-- The oracle replays the cancelled order to the fingerprint of the candidate. -/
theorem rebuilt_candidate_replays_cancelled_day : ∃ oracle reports result replayed,
    oracleEnvelopes inbox.platform.sha256 (oracleInputs inbox.platform events) = .ok oracle ∧
      (Database.after inbox.platform events).buildCandidate inbox.platform (txt "run-1")
        (atTen (september 16 valid16)) = .ok result ∧
      (∃ row ∈ result.transactions, row.state = .reconciled) ∧
      replay inbox.platform.sha256 oracleRun.runId oracleRun.detectedAtUtc reports [] oracle =
        .ok replayed ∧
      logicalFingerprint inbox.platform.sha256 replayed.toValue =
        logicalFingerprint inbox.platform.sha256 result.toValue := by
  have hrun : requireRunId oracleRun.runId = .ok oracleRun.runId := by decide +kernel
  have hid : requireRunId (txt "run-1") = .ok (txt "run-1") := by decide +kernel
  have hany : (((Database.after inbox.platform events).buildCandidate inbox.platform (txt "run-1")
      (atTen (september 16 valid16))).toOption.any fun result =>
        result.transactions.any fun row => row.state = .reconciled) = true := by decide +kernel
  obtain ⟨result, hresult, hrow⟩ := (Option.any_eq_true _ _).mp hany
  obtain ⟨row, hmem, hstate⟩ := List.any_eq_true.mp hrow
  have hbuild := toOption_eq_some.mp hresult
  obtain ⟨-, -, -, reports, -, -, -, hreports, -, -⟩ := buildCandidate_ok hbuild
  obtain ⟨oracle, horacle, hholds⟩ := exists_oracle
  obtain ⟨hiff, hsame⟩ := rebuilt_candidate_replays inbox.platform events hholds hrun hid hreports
  obtain ⟨replayed, hreplay⟩ := hiff.mp ⟨result, hbuild⟩
  exact ⟨oracle, reports, result, replayed, horacle, hbuild, ⟨row, hmem, of_decide_eq_true hstate⟩,
    hreplay, (hsame result replayed hbuild hreplay).2⟩

end CancelledDay

end Threadline
