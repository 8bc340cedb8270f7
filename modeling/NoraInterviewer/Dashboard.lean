import NoraInterviewer.ReviewQueues
import NoraInterviewer.LatestRuns
import NoraInterviewer.WithdrawnEvidence
import NoraInterviewer.ExceptRules

/-! The three scans agree, and answer for one organization only. -/

namespace NoraInterviewer

open FallibleScans ExceptRules

/-- A session that is shown, with its job and its report. -/
structure Reported where
  session : StoredSession
  job : JobSpec
  report : RecruiterSessionReport

def ReviewStore.picked (store : ReviewStore) (jobId organizationId : Option String)
    (session : StoredSession) : Option JobSpec :=
  if ofOtherJob jobId session then none
  else if ofOther organizationId session then none
  else store.getJob session.jobId

def Reported.reevaluations (reported : Reported) : List EvidenceReevaluationQueueItem :=
  (reported.report.evidenceJudgeRuns.filter fun run => run.stale || run.failed).map
    (reevaluationItem reported.session reported.job)

def Reported.item (reported : Reported) : ReviewQueueItem := toQueueItem reported.report

/-- What the scans use of a report. -/
structure ReportShows (session : StoredSession) (report : RecruiterSessionReport) : Prop where
  sessionId : report.sessionId = session.id
  status : report.status = session.status.value
  runs : report.evidenceJudgeRuns = (latestRuns session.toInterviewSession).map
    (judgeRunSummary session.toInterviewSession)
  stale : report.staleEvidenceRuns = report.evidenceJudgeRuns.countP fun run => run.stale
  failed : report.failedEvidenceRuns = report.evidenceJudgeRuns.countP fun run => run.failed

/-- The dashboard of the two queues: nine sums over the review queue, the runs that need to be
evaluated again as they are in the other queue. -/
structure DashboardAgrees (summary : ReviewDashboardSummary) (items : List ReviewQueueItem)
    (reevaluations : List EvidenceReevaluationQueueItem) : Prop where
  total : summary.totalSessions = items.length
  required : summary.reviewRequired = items.countP fun item => item.requiresHumanReview
  appeals : summary.pendingAppeals = (items.map fun item => item.pendingAppeals).sum
  signals : summary.pendingIntegritySignals = (items.map fun item => item.integritySignals).sum
  tools : summary.unresolvedTools = (items.map fun item => item.unresolvedTools).sum
  stale_items : summary.staleEvidenceRuns = (items.map fun item => item.staleEvidenceRuns).sum
  failed_items : summary.failedEvidenceRuns = (items.map fun item => item.failedEvidenceRuns).sum
  stale_runs : summary.staleEvidenceRuns = reevaluations.countP fun item => item.stale
  failed_runs : summary.failedEvidenceRuns = reevaluations.countP fun item => item.failed
  assigned : summary.assignedReviews = items.countP fun item => item.assignedReviewerId.isSome
  unassigned : summary.unassignedReviewRequired =
    items.countP fun item => item.requiresHumanReview && item.assignedReviewerId.isNone
  completed : summary.completedSessions = items.countP fun item => item.status = "completed"

section

variable [Printable]

def reportOf (session : StoredSession) (job : JobSpec) : Except PyError Reported :=
  (buildRecruiterReport session job).map fun report => { session, job, report }

/-- The reports of the sessions that are shown. -/
def ReviewStore.reports (store : ReviewStore) (jobId organizationId : Option String) :
    Except PyError (List Reported) :=
  collect (worked (store.picked jobId organizationId) reportOf store.sessions)

theorem report_then {σ : Type} (add : σ → Reported → σ) (account : σ) (session : StoredSession)
    (job : JobSpec) :
    (do let report ← buildRecruiterReport session job
        pure (add account { session, job, report })) = (reportOf session job).map (add account) := by
  unfold reportOf
  cases buildRecruiterReport session job with
  | error e => rfl
  | ok report => rfl

/-- A scan of the sessions is a fold over their reports. -/
theorem ReviewStore.foldlM_reports {σ : Type} (store : ReviewStore)
    (jobId organizationId : Option String) (add : σ → Reported → σ) (account : σ) :
    store.sessions.foldlM (fun account session =>
      if ofOtherJob jobId session then pure account
      else if ofOther organizationId session then pure account
      else match store.getJob session.jobId with
        | none => pure account
        | some job => do
          let report ← buildRecruiterReport session job
          pure (add account { session, job, report })) account =
      (store.reports jobId organizationId).map (List.foldl add account) := by
  refine foldlM_scan (store.picked jobId organizationId) reportOf add _ ?_ ?_ _ _
  · intro account session hp
    unfold picked at hp
    split
    next => rfl
    next hj =>
      split
      next => rfl
      next ho =>
        rw [if_neg hj, if_neg ho] at hp
        rw [hp]
        rfl
  · intro account session job hp
    unfold picked at hp
    split
    next hj =>
      rw [if_pos hj] at hp
      cases hp
    next hj =>
      split
      next ho =>
        rw [if_neg hj, if_pos ho] at hp
        cases hp
      next ho =>
        rw [if_neg hj, if_neg ho] at hp
        rw [hp]
        exact report_then add account session job

theorem ReviewStore.summary_scan (store : ReviewStore) (organizationId : Option String) :
    store.summary organizationId = (store.reports none organizationId).map
      (List.foldl (fun summary r => summary.add r.session r.report) {}) := by
  refine Eq.trans ?_ (store.foldlM_reports none organizationId
    (fun (summary : ReviewDashboardSummary) r => summary.add r.session r.report) {})
  unfold summary
  refine congrArg (fun step => store.sessions.foldlM step ({} : ReviewDashboardSummary)) ?_
  funext summary session
  have hnone : ¬ofOtherJob none session := fun h => h.1 rfl
  exact (if_neg hnone).symm

omit [Printable] in
theorem foldl_append_flatMap {α β : Type} (f : α → List β) (items : List α) (start : List β) :
    items.foldl (fun out item => out ++ f item) start = start ++ items.flatMap f := by
  induction items generalizing start with
  | nil => simp
  | cons item items ih => rw [List.foldl_cons, ih, List.flatMap_cons, List.append_assoc]

theorem ReviewStore.reevaluation_scan (store : ReviewStore) (jobId organizationId : Option String) :
    store.evidenceReevaluationQueue jobId organizationId =
      (store.reports jobId organizationId).map fun rs =>
        sortOn EvidenceReevaluationQueueItem.key (rs.flatMap Reported.reevaluations) := by
  refine (congrArg (· >>= fun items => pure (sortOn EvidenceReevaluationQueueItem.key items))
    (store.foldlM_reports jobId organizationId (fun items r => items ++ r.reevaluations) [])).trans ?_
  cases store.reports jobId organizationId with
  | error e => rfl
  | ok rs =>
    simp only [Except.map, foldl_append_flatMap, List.nil_append]
    rfl

theorem ReviewStore.queue_scan (store : ReviewStore) (requiresReviewOnly : Bool)
    (jobId organizationId : Option String) :
    store.queue requiresReviewOnly jobId organizationId =
      (store.reports jobId organizationId).map fun rs =>
        sortOn ReviewQueueItem.key ((rs.map Reported.item).filter fun item =>
          !requiresReviewOnly || item.requiresHumanReview) := by
  have hbody : ∀ session job (items : List ReviewQueueItem),
      (do let report ← buildRecruiterReport session job
          let item := toQueueItem report
          if requiresReviewOnly && !item.requiresHumanReview then pure items
          else pure (items ++ [item])) =
      (do let report ← buildRecruiterReport session job
          pure (items ++ [toQueueItem report].filter fun item =>
            !requiresReviewOnly || item.requiresHumanReview) : Except PyError _) := by
    intro session job items
    refine congrArg (buildRecruiterReport session job >>= ·) (funext fun report => ?_)
    cases requiresReviewOnly with
    | false => rfl
    | true =>
      cases hreview : (toQueueItem report).requiresHumanReview with
      | false => simp [hreview]
      | true => simp [hreview]
  unfold queue
  simp only [hbody]
  refine (congrArg (· >>= fun items => pure (sortOn ReviewQueueItem.key items))
    (store.foldlM_reports jobId organizationId (fun items r => items ++ [r.item].filter fun item =>
      !requiresReviewOnly || item.requiresHumanReview) [])).trans ?_
  cases store.reports jobId organizationId with
  | error e => rfl
  | ok rs =>
    simp only [Except.map, foldl_append_flatMap, List.nil_append]
    rw [← List.filter_flatMap, List.map_eq_flatMap]
    rfl

/-- What is reported is a session that is shown, with the report made of it. -/
theorem ReviewStore.mem_reports {store : ReviewStore} {jobId organizationId : Option String}
    {rs : List Reported} (h : store.reports jobId organizationId = .ok rs) (r : Reported) :
    r ∈ rs ↔ r.session ∈ store.sessions ∧
      store.picked jobId organizationId r.session = some r.job ∧
      buildRecruiterReport r.session r.job = .ok r.report := by
  have hall := collect_ok.mp h
  have hmem : r ∈ rs ↔ Except.ok r ∈ worked (store.picked jobId organizationId) reportOf
      store.sessions := by
    rw [hall, List.mem_map]
    constructor
    · exact fun hr => ⟨r, hr, rfl⟩
    · rintro ⟨r', hr', heq⟩
      cases heq
      exact hr'
  rw [hmem]
  unfold worked
  rw [List.mem_filterMap]
  constructor
  · rintro ⟨session, hs, hr⟩
    obtain ⟨job, hjob, hr⟩ := Option.map_eq_some_iff.mp hr
    obtain ⟨report, hreport, rfl⟩ := map_ok hr
    exact ⟨hs, hjob, hreport⟩
  · rintro ⟨hs, hjob, hreport⟩
    refine ⟨r.session, hs, ?_⟩
    rw [hjob, Option.map_some]
    unfold reportOf
    rw [hreport]
    rfl

/-- The sessions reported are some of the store's, in its order. -/
theorem ReviewStore.reports_sublist {store : ReviewStore} {jobId organizationId : Option String}
    {rs : List Reported} (h : store.reports jobId organizationId = .ok rs) :
    (rs.map Reported.session).Sublist store.sessions := by
  have hall := collect_ok.mp h
  have hsub : ∀ (sessions : List StoredSession) (rs : List Reported),
      worked (store.picked jobId organizationId) reportOf sessions = rs.map Except.ok →
      (rs.map Reported.session).Sublist sessions := by
    intro sessions
    induction sessions with
    | nil =>
      intro rs hrs
      have hnil : rs = [] := List.map_eq_nil_iff.mp hrs.symm
      simp [hnil]
    | cons session sessions ih =>
      intro rs hrs
      unfold worked at hrs
      cases hp : store.picked jobId organizationId session with
      | none =>
        rw [List.filterMap_cons_none (by rw [hp]; rfl)] at hrs
        exact (ih rs hrs).cons _
      | some job =>
        rw [List.filterMap_cons_some (by rw [hp]; rfl)] at hrs
        cases rs with
        | nil => cases hrs
        | cons r rs =>
          obtain ⟨hr, hrest⟩ := List.cons.inj hrs
          obtain ⟨report, -, rfl⟩ := map_ok hr
          exact (ih rs hrest).cons_cons _
  exact hsub _ _ hall

omit [Printable] in
theorem find?_reverse_isSome {α : Type} (p : α → Bool) (items : List α) :
    (items.reverse.find? p).isSome = (items.find? p).isSome := by
  rw [Bool.eq_iff_iff, List.find?_isSome, List.find?_isSome]
  simp

theorem buildRecruiterReport_shows {session : StoredSession} {job : JobSpec}
    {report : RecruiterSessionReport} (h : buildRecruiterReport session job = .ok report) :
    ReportShows session report := by
  unfold buildRecruiterReport at h
  obtain ⟨reasons, -, hreport⟩ := bind_ok h
  cases hreport
  exact { sessionId := rfl, status := rfl, runs := rfl, stale := rfl, failed := rfl }

omit [Printable] in
/-- One more session on the dashboard, and in the two queues. -/
theorem DashboardAgrees.add {summary : ReviewDashboardSummary} {items : List ReviewQueueItem}
    {reevaluations : List EvidenceReevaluationQueueItem} (h : DashboardAgrees summary items reevaluations)
    {r : Reported} (hr : ReportShows r.session r.report) :
    DashboardAgrees (summary.add r.session r.report) (items ++ [r.item])
      (reevaluations ++ r.reevaluations) := by
  have hactive : (activeAssignment r.report.reviewAssignments).isSome =
      r.item.assignedReviewerId.isSome := by
    show _ = ((lastActive r.report.reviewAssignments).map ReviewAssignment.reviewerId).isSome
    rw [Option.isSome_map]
    exact (find?_reverse_isSome _ _).symm
  have hruns : ∀ p : EvidenceJudgeRunSummary → Bool,
      (∀ run, p run = true → (run.stale || run.failed) = true) →
      (r.report.evidenceJudgeRuns.filter fun run => run.stale || run.failed).countP p =
        r.report.evidenceJudgeRuns.countP p := by
    intro p hp
    rw [List.countP_filter]
    refine List.countP_congr fun run _ => ?_
    cases hrun : p run with
    | false => simp
    | true => simp [hp run hrun]
  have hstale : r.reevaluations.countP (fun item => item.stale) = r.report.staleEvidenceRuns := by
    rw [hr.stale, Reported.reevaluations, List.countP_map]
    exact hruns _ fun run hrun => by rw [show run.stale = true from hrun, Bool.true_or]
  have hfailed : r.reevaluations.countP (fun item => item.failed) = r.report.failedEvidenceRuns := by
    rw [hr.failed, Reported.reevaluations, List.countP_map]
    exact hruns _ fun run hrun => by rw [show run.failed = true from hrun, Bool.or_true]
  have hitem : r.item = toQueueItem r.report := rfl
  exact
    { total := by
        rw [List.length_append, ← h.total]
        rfl
      required := by
        rw [List.countP_append, ← h.required, List.countP_singleton]
        show _ = _ + if r.report.requiresHumanReview = true then 1 else 0
        cases hreview : r.report.requiresHumanReview with
        | false => simp [ReviewDashboardSummary.add, hreview]
        | true => simp [ReviewDashboardSummary.add, hreview]
      appeals := by simp [ReviewDashboardSummary.add, h.appeals, hitem, toQueueItem]
      signals := by simp [ReviewDashboardSummary.add, h.signals, hitem, toQueueItem]
      tools := by simp [ReviewDashboardSummary.add, h.tools, hitem, toQueueItem]
      stale_items := by simp [ReviewDashboardSummary.add, h.stale_items, hitem, toQueueItem]
      failed_items := by simp [ReviewDashboardSummary.add, h.failed_items, hitem, toQueueItem]
      stale_runs := by rw [List.countP_append, ← h.stale_runs, hstale]; rfl
      failed_runs := by rw [List.countP_append, ← h.failed_runs, hfailed]; rfl
      assigned := by
        rw [List.countP_append, ← h.assigned, List.countP_singleton]
        simp only [ReviewDashboardSummary.add, hactive]
        split
        next => rfl
        next => rfl
      unassigned := by
        rw [List.countP_append, ← h.unassigned, List.countP_singleton]
        simp only [ReviewDashboardSummary.add, hactive]
        show _ = _ + if (r.report.requiresHumanReview && r.item.assignedReviewerId.isNone) = true
          then 1 else 0
        cases r.item.assignedReviewerId with
        | some reviewerId => simp
        | none =>
          cases hreview : r.report.requiresHumanReview with
          | false => simp
          | true => simp
      completed := by
        rw [List.countP_append, ← h.completed, List.countP_singleton]
        show _ = _ + if decide (r.report.status = "completed") = true then 1 else 0
        simp only [ReviewDashboardSummary.add, hr.status, decide_eq_true_eq]
        split
        next => rfl
        next => rfl }

omit [Printable] in
theorem dashboard_agrees {rs : List Reported} (h : ∀ r ∈ rs, ReportShows r.session r.report) :
    DashboardAgrees (rs.foldl (fun summary r => summary.add r.session r.report) {})
      (rs.map Reported.item) (rs.flatMap Reported.reevaluations) := by
  induction rs using List.reverseRecOn with
  | nil => constructor <;> rfl
  | append_singleton rs r ih =>
    rw [List.foldl_append, List.map_append, List.flatMap_append, List.foldl_cons, List.foldl_nil,
      List.map_singleton, List.flatMap_singleton]
    exact (ih fun r hr => h r (List.mem_append_left _ hr)).add (h r (by simp))

omit [Printable] in
/-- The order of the two queues does not matter to the dashboard. -/
theorem DashboardAgrees.perm {summary : ReviewDashboardSummary} {items items' : List ReviewQueueItem}
    {reevaluations reevaluations' : List EvidenceReevaluationQueueItem}
    (h : DashboardAgrees summary items reevaluations) (hi : items.Perm items')
    (hr : reevaluations.Perm reevaluations') : DashboardAgrees summary items' reevaluations' where
  total := h.total.trans hi.length_eq
  required := h.required.trans (hi.countP_eq _)
  appeals := h.appeals.trans (hi.map _).sum_eq
  signals := h.signals.trans (hi.map _).sum_eq
  tools := h.tools.trans (hi.map _).sum_eq
  stale_items := h.stale_items.trans (hi.map _).sum_eq
  failed_items := h.failed_items.trans (hi.map _).sum_eq
  stale_runs := h.stale_runs.trans (hr.countP_eq _)
  failed_runs := h.failed_runs.trans (hr.countP_eq _)
  assigned := h.assigned.trans (hi.countP_eq _)
  unassigned := h.unassigned.trans (hi.countP_eq _)
  completed := h.completed.trans (hi.countP_eq _)

end

end NoraInterviewer
