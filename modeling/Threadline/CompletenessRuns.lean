import Threadline.RetainedDeliveries

/-!
# Completeness over all days

Every evaluation goes through all days of which a report was ever delivered. It
returns one result for each report type as long as each of these days has a next
day, on which its reports are due.
-/

open PyText PyJson PyCalendar PySorted PyExcept Runs

namespace Threadline

/-- `load_completeness` at an aware time, which is converted to UTC once there are report days. The
time of day may have no UTC time in the calendar. -/
def Database.loadCompletenessAt (platform : Platform) (db : Database) (asOf : Option UtcDateTime) :
    Except LoadError (List CompletenessResult) := do
  require (db.reportDays ≠ []) LoadError.noExpectedDays
  let asOfUtc ← orRaise asOf LoadError.asOfOverflow
  db.loadCompleteness platform asOfUtc

/-- One result for each of the six report types. -/
def OneEach (results : List CompletenessResult) : Prop :=
  (results.map fun result => result.status.reportType).Perm ReportType.all

/-- A call in the run has committed the delivery as a new batch. -/
def Delivers (platform : Platform) (events : List DatabaseEvent) (delivery : VerifiedDelivery) :
    Prop :=
  ∃ before call later, events = before ++ .ingest call :: later ∧
    call.committed? platform (Database.after platform before) =
      some ⟨call.batchId, call.requestId, false⟩ ∧
    verifyDelivery platform call.file = .ok delivery

section

variable {platform : Platform} {db : Database} {asOfUtc : UtcDateTime}

/-! ## One evaluation -/

theorem dailyResult_returns {latest : LatestReports} {day : Date} {reportType : ReportType} :
    (∃ result, db.dailyResult platform asOfUtc latest day reportType = .ok result) ↔
      day ≠ Date.last := by
  rw [← Date.next?_isSome]
  unfold Database.dailyResult evaluateMissingReport reportDeadlineUtc
  cases hnext : day.next? with
  | none => simp
  | some next => cases hget : latest.get? (day, reportType) <;> simp

theorem dailyResults_returns {latest : LatestReports} :
    (∃ results, db.dailyResults platform asOfUtc latest = .ok results) ↔
      ∀ day ∈ db.reportDays, day ≠ Date.last := by
  constructor
  · rintro ⟨results, hresults⟩ day hday
    obtain ⟨result, hresult, -⟩ := exists_dailyResult hresults hday .orders
    exact dailyResult_returns.mp ⟨result, hresult⟩
  · intro hdays
    refine exists_mapM_eq_ok fun key hkey => ?_
    obtain ⟨day, hday, hkey⟩ := List.mem_flatMap.mp hkey
    obtain ⟨reportType, -, rfl⟩ := List.mem_map.mp hkey
    exact dailyResult_returns.mpr (hdays day hday)

/-- The labels of the batches are those of report types. -/
def Database.Labelled (db : Database) : Prop :=
  ∀ p ∈ db.batches.items, (reportTypeOf p.2.reportType).isSome

theorem latestReports_returns (hlabels : db.Labelled) :
    ∃ latest, db.latestReports asOfUtc = .ok latest := by
  have hentries : ∃ entries, (db.committedBatches asOfUtc).mapM Database.latestEntry = .ok entries := by
    refine exists_mapM_eq_ok fun p hp => ?_
    obtain ⟨reportType, htype⟩ := Option.isSome_iff_exists.mp (hlabels p (mem_committedBatches.mp hp).1)
    exact ⟨((p.2.reportDate, reportType), p), latestEntry_eq_ok.mpr ⟨htype, rfl, rfl⟩⟩
  obtain ⟨entries, hentries⟩ := hentries
  exact ⟨_, bind_eq_ok.mpr ⟨entries, hentries, rfl⟩⟩

/-- The evaluation returns when there is a report day, and each has a next day. -/
theorem loadCompleteness_returns (hlabels : db.Labelled) :
    (∃ results, db.loadCompleteness platform asOfUtc = .ok results) ↔
      db.reportDays ≠ [] ∧ ∀ day ∈ db.reportDays, day ≠ Date.last := by
  simp only [Database.loadCompleteness, bind_eq_ok, require_eq_ok]
  constructor
  · rintro ⟨_, ⟨⟩, hdays, latest, -, results, hresults, -⟩
    exact ⟨hdays, dailyResults_returns.mp ⟨results, hresults⟩⟩
  · rintro ⟨hnonempty, hdays⟩
    obtain ⟨latest, hlatest⟩ : ∃ latest, db.latestReports asOfUtc = .ok latest :=
      latestReports_returns hlabels
    obtain ⟨results, hresults⟩ := dailyResults_returns.mpr hdays
    exact ⟨_, ⟨⟩, hnonempty, latest, hlatest, results, hresults, rfl⟩

/-- The worst result of each type is of that type. -/
theorem filterMap_worst {results : List CompletenessResult} {reportTypes : List ReportType}
    (h : ∀ reportType ∈ reportTypes, ∃ result ∈ results, result.status.reportType = reportType) :
    (reportTypes.filterMap fun reportType =>
      (results.filter fun result => result.status.reportType = reportType).argmax worstKey).map
        (fun result => result.status.reportType) = reportTypes := by
  induction reportTypes with
  | nil => rfl
  | cons reportType reportTypes ih =>
    obtain ⟨hfirst, hrest⟩ := List.forall_mem_cons.mp h
    obtain ⟨result, hresult, htype⟩ := hfirst
    have hne : (results.filter fun result => result.status.reportType = reportType) ≠ [] :=
      List.ne_nil_of_mem (List.mem_filter.mpr ⟨hresult, decide_eq_true htype⟩)
    obtain ⟨worst, hworst⟩ := Option.ne_none_iff_exists'.mp
      (mt (List.argmax_eq_none (f := worstKey)).mp hne)
    have hworstType := of_decide_eq_true (List.mem_filter.mp (List.argmax_mem hworst)).2
    rw [List.filterMap_cons, hworst]
    show worst.status.reportType :: _ = _
    rw [ih hrest, hworstType]

theorem oneEach_of_loadCompleteness {results : List CompletenessResult}
    (h : db.loadCompleteness platform asOfUtc = .ok results) : OneEach results := by
  obtain ⟨⟨⟩, hdays, h⟩ := bind_eq_ok.mp h
  obtain ⟨latest, -, h⟩ := bind_eq_ok.mp h
  obtain ⟨daily, hdaily, h⟩ := bind_eq_ok.mp h
  obtain rfl := Except.ok.inj h
  obtain ⟨day, hday⟩ := List.exists_mem_of_ne_nil _ (require_eq_ok.mp hdays)
  have hall : ∀ reportType ∈ ReportType.all, ∃ result ∈ daily,
      result.status.reportType = reportType := by
    intro reportType _
    obtain ⟨result, -, hmem⟩ := exists_dailyResult hdaily hday reportType
    exact ⟨result, (List.mem_filter.mp hmem).1, of_decide_eq_true (List.mem_filter.mp hmem).2⟩
  have hperm := (sortedBy_perm CompletenessResult.sortKey (ReportType.all.filterMap fun reportType =>
    (daily.filter fun result => result.status.reportType = reportType).argmax worstKey)).map
      fun result => result.status.reportType
  rwa [filterMap_worst hall] at hperm

/-! ## Report days of a run -/

/-- A batch of the run was delivered in it. -/
theorem delivers_of_mem {events : List DatabaseEvent} {p : Uuid × IngestionBatch}
    (hp : p ∈ (Database.after platform events).batches.items) :
    ∃ delivery, Delivers platform events delivery ∧ delivery.reportDate = p.2.reportDate ∧
      reportTypeOf p.2.reportType = some delivery.reportType := by
  obtain ⟨before, call, later, rfl, hid, hcommitted, delivery, deliveryKey, stored, hingested⟩ :=
    exists_ingested hp
  have hbatch := (hingested.retained_after later).batch
  rw [← hid, PyDict.mem_items_iff.mp hp] at hbatch
  refine ⟨delivery, ⟨before, call, later, rfl, ?_, hingested.verified⟩, ?_, ?_⟩
  · obtain ⟨outcome, houtcome⟩ := Option.isSome_iff_exists.mp hcommitted
    obtain ⟨-, hsame⟩ | ⟨rfl, -⟩ := (settled_after before).commit houtcome
    · -- A call that finds the delivery adds no batch.
      have hnew := congrArg (fun db : Database => db.batches.get? call.batchId)
        (congrArg Prod.fst hsame)
      simp [hingested.batches, hingested.freshBatch] at hnew
    · exact houtcome
  · rw [Option.some.inj hbatch]
    rfl
  · rw [Option.some.inj hbatch]
    exact reportTypeOf_value delivery.reportType

theorem exists_batch_of_delivers {events : List DatabaseEvent} {delivery : VerifiedDelivery}
    (h : Delivers platform events delivery) :
    ∃ p ∈ (Database.after platform events).batches.items,
      p.2.reportDate = delivery.reportDate := by
  obtain ⟨before, call, later, rfl, hcommitted, hverified⟩ := h
  obtain ⟨hreused, -⟩ | ⟨-, delivery', deliveryKey, stored, hingested, -⟩ :=
    (settled_after before).commit hcommitted
  · cases hreused
  · obtain rfl := Except.ok.inj (hverified.symm.trans hingested.verified)
    exact ⟨_, PyDict.mem_items_iff.mpr (hingested.retained_after later).batch, rfl⟩

/-- Only days with a batch are declared. -/
theorem exists_batch_of_expected {events : List DatabaseEvent} {day : Date}
    (h : day ∈ (Database.after platform events).expectedDays) :
    ∃ p ∈ (Database.after platform events).batches.items, p.2.reportDate = day := by
  let Declared (db : Database) : Prop :=
    ∀ day ∈ db.expectedDays, ∃ p ∈ db.batches.items, p.2.reportDate = day
  have hstep : ∀ db event, Declared db ∧ Settled platform db →
      Declared (db.step platform event) ∧ Settled platform (db.step platform event) := by
    rintro db event ⟨hdeclared, hs⟩
    refine ⟨?_, hs.step event⟩
    cases event with
    | ingest call =>
      obtain hsame | ⟨delivery, deliveryKey, stored, hingested, -⟩ := hs.ingest_cases call
      · rw [Database.step, hsame]
        exact hdeclared
      · intro day hday
        rw [Database.step, hingested.batches, PyDict.items_set_of_get?_none hingested.freshBatch]
        have hday : day ∈ db.expectedDays ∨ day = delivery.reportDate := by
          rw [Database.step, hingested.days] at hday
          split_ifs at hday
          · exact .inl hday
          · simpa using hday
        rcases hday with hday | rfl
        · obtain ⟨p, hp, hdate⟩ := hdeclared day hday
          exact ⟨p, List.mem_append_left _ hp, hdate⟩
        · exact ⟨_, List.mem_append_right _ List.mem_cons_self, rfl⟩
    | runNext call => exact hdeclared
    | recordFailure requestId error now done => exact hdeclared
    | requeueFailed requestId additionalAttempts now => exact hdeclared
  have hempty : Declared ∅ := by
    intro _ h
    cases h
  exact (run_invariant hstep ⟨hempty, settled_empty⟩ events).1 day h

/-- The report days of a run are the days of its deliveries. -/
theorem mem_reportDays_after {events : List DatabaseEvent} {day : Date} :
    day ∈ (Database.after platform events).reportDays ↔
      ∃ delivery, Delivers platform events delivery ∧ delivery.reportDate = day := by
  rw [mem_reportDays]
  constructor
  · intro h
    have hbatch : ∃ p ∈ (Database.after platform events).batches.items, p.2.reportDate = day := by
      rcases h with h | ⟨p, hp, -, hday⟩
      · exact exists_batch_of_expected h
      · exact ⟨p, hp, hday⟩
    obtain ⟨p, hp, rfl⟩ := hbatch
    obtain ⟨delivery, hdelivers, hdate, -⟩ := delivers_of_mem hp
    exact ⟨delivery, hdelivers, hdate⟩
  · rintro ⟨delivery, hdelivers, rfl⟩
    obtain ⟨p, hp, hdate⟩ := exists_batch_of_delivers hdelivers
    have hcommitted := (settled_after events).committed p hp
    exact .inr ⟨p, hp, (finalized_iff hp).mpr (.inl hcommitted), hdate⟩

end

/-- After any run, the completeness of the reports is evaluated, one result for each report type,
exactly when the time is in the UTC calendar, a delivery was committed, and none was for the last
day of the calendar. -/
theorem completeness_evaluates_iff (platform : Platform) (events : List DatabaseEvent)
    (asOf : Option UtcDateTime) :
    (∃ results, (Database.after platform events).loadCompletenessAt platform asOf = .ok results ∧
      OneEach results) ↔
      asOf.isSome ∧ (∃ delivery, Delivers platform events delivery) ∧
        ∀ delivery, Delivers platform events delivery → delivery.reportDate ≠ Date.last := by
  have hlabels : (Database.after platform events).Labelled := by
    intro p hp
    obtain ⟨delivery, -, -, htype⟩ := delivers_of_mem hp
    exact Option.isSome_of_eq_some htype
  have hnonempty : (Database.after platform events).reportDays ≠ [] ↔
      ∃ delivery, Delivers platform events delivery := by
    simp only [Ne, List.eq_nil_iff_forall_not_mem, not_forall, not_not, mem_reportDays_after]
    exact ⟨fun ⟨_, delivery, h, _⟩ => ⟨delivery, h⟩, fun ⟨delivery, h⟩ => ⟨_, delivery, h, rfl⟩⟩
  have hdays : (∀ day ∈ (Database.after platform events).reportDays, day ≠ Date.last) ↔
      ∀ delivery, Delivers platform events delivery → delivery.reportDate ≠ Date.last := by
    simp only [mem_reportDays_after]
    exact ⟨fun h delivery hdelivers => h _ ⟨delivery, hdelivers, rfl⟩,
      fun h _ ⟨delivery, hdelivers, hday⟩ => hday ▸ h delivery hdelivers⟩
  rw [← hnonempty, ← hdays]
  simp only [Database.loadCompletenessAt, bind_eq_ok, require_eq_ok, orRaise_eq_ok]
  constructor
  · rintro ⟨results, ⟨⟨⟩, -, asOfUtc, rfl, hresults⟩, -⟩
    exact ⟨rfl, (loadCompleteness_returns hlabels).mp ⟨results, hresults⟩⟩
  · rintro ⟨hasOf, hreturns⟩
    obtain ⟨asOfUtc, rfl⟩ := Option.isSome_iff_exists.mp hasOf
    obtain ⟨results, hresults⟩ : ∃ results,
        (Database.after platform events).loadCompleteness platform asOfUtc = .ok results :=
      (loadCompleteness_returns hlabels).mpr hreturns
    exact ⟨results, ⟨⟨⟩, hreturns.1, asOfUtc, rfl, hresults⟩, oneEach_of_loadCompleteness hresults⟩

namespace LastDay

open PaidDay (september atTen valid15)

/-- A report without orders for the last day of the calendar. -/
def report : DigestedReport :=
  ⟨.orders, Date.last, [], hexDigest CancelledDay.emptyDigest,
    hexDigest 0x5ee7f838689d4dd771f66ad421ebac6767e17b80109d80ec8c39beaf0a24f844⟩

def inbox : Inbox where
  reports := [report]
  digests :=
    [(CancelledDay.emptyKey ++ txt "5ee7",
        hexDigest 0x99eb647021e2f6df239e7927071d1a38995145d85e294dc19628bc2d28fe6c3b),
     (txt "\x7b\"verified_delivery\":\"99eb",
        hexDigest 0x3c442d887db86414fd978107e9ef7709841c005429b62d1bf36641d911342653)]
  times := []
  days := [Date.last]

def call : IngestionCall := report.ingestion (atTen (september 15 valid15)) report.name

/-- The report is ingested, and no evaluation returns any more. -/
theorem completeness_overflows :
    (call.ingestSourceFile inbox.platform (Database.after inbox.platform [])).2 =
        .ok ⟨call.batchId, call.requestId, false⟩ ∧
      (Database.after inbox.platform [.ingest call]).loadCompletenessAt inbox.platform
        (some (atTen (september 16 rfl))) = .error .deadlineOverflow := by
  decide +kernel

end LastDay

end Threadline
