import NoraInterviewer.Dashboard

namespace NoraInterviewer

open FallibleScans ExceptRules

/-- The latest run failed, or the answer was corrected since. -/
def NeedsReevaluation (session : StoredSession) (run : EvidenceJudgeRun) : Prop :=
  run.error ≠ none ∨
    run.transcriptRevisionCount ≠ currentRevisions session.toInterviewSession run.answerTurnId

/-- One item for each answer of the organization whose latest run needs another evaluation. -/
structure OnePerAnswer (store : ReviewStore) (organizationId : String)
    (items : List EvidenceReevaluationQueueItem) : Prop where
  mem : ∀ item, item ∈ items ↔ ∃ session ∈ store.sessions,
    session.organizationId = some organizationId ∧ ∃ job, store.getJob session.jobId = some job ∧
      ∃ run, IsLatestRun session.evidenceJudgeRuns run ∧ NeedsReevaluation session run ∧
        item = reevaluationItem session job (judgeRunSummary session.toInterviewSession run)
  distinct : (items.map fun item => (item.sessionId, item.answerTurnId)).Nodup

/-- The stores hold the same sessions of the organization, in whatever order, and what else they
hold is not looked at. -/
structure SameFor (organizationId : String) (store other : ReviewStore) : Prop where
  sessions : (store.sessions.filter fun session =>
      session.organizationId = some organizationId).Perm
    (other.sessions.filter fun session => session.organizationId = some organizationId)
  jobs : ∀ session ∈ store.sessions, session.organizationId = some organizationId →
    store.getJob session.jobId = other.getJob session.jobId

section

variable [Printable]

theorem ReviewStore.reported_ids_nodup {store : ReviewStore} {jobId organizationId : Option String}
    {rs : List Reported} (h : store.reports jobId organizationId = .ok rs) :
    (rs.map fun r => r.session.id).Nodup := by
  have hsub := ((reports_sublist h).map fun session => session.id).nodup store.ids_nodup
  rwa [List.map_map] at hsub

/-- What is reported of a session is one thing. -/
theorem ReviewStore.reported_unique {store : ReviewStore} {jobId organizationId : Option String}
    {rs : List Reported} (h : store.reports jobId organizationId = .ok rs) {r r' : Reported}
    (hr : r ∈ rs) (hr' : r' ∈ rs) (hid : r.session.id = r'.session.id) : r = r' :=
  List.inj_on_of_nodup_map (reported_ids_nodup h) hr hr' hid

theorem ReviewStore.item_key {store : ReviewStore} {jobId organizationId : Option String}
    {rs : List Reported} (h : store.reports jobId organizationId = .ok rs)
    (keep : ReviewQueueItem → Bool) :
    ∀ a ∈ (rs.map Reported.item).filter keep, ∀ b ∈ (rs.map Reported.item).filter keep,
      a.key = b.key → a = b := by
  intro a ha b hb hkey
  obtain ⟨r, hr, rfl⟩ := List.mem_map.mp (List.mem_filter.mp ha).1
  obtain ⟨r', hr', rfl⟩ := List.mem_map.mp (List.mem_filter.mp hb).1
  have hid : r.item.sessionId = r'.item.sessionId := by
    unfold ReviewQueueItem.key at hkey
    simp only [toLex_inj, Prod.mk.injEq] at hkey
    exact hkey.2.2.2.2.2.2.2
  have hshows := buildRecruiterReport_shows ((mem_reports h r).mp hr).2.2
  have hshows' := buildRecruiterReport_shows ((mem_reports h r').mp hr').2.2
  exact congrArg Reported.item
    (reported_unique h hr hr' (hshows.sessionId.symm.trans (hid.trans hshows'.sessionId)))

omit [Printable] in
/-- The items of a session, by its latest runs. -/
theorem ReportShows.mem_reevaluations {r : Reported} (h : ReportShows r.session r.report)
    (item : EvidenceReevaluationQueueItem) :
    item ∈ r.reevaluations ↔ ∃ run, IsLatestRun r.session.evidenceJudgeRuns run ∧
      NeedsReevaluation r.session run ∧
      item = reevaluationItem r.session r.job (judgeRunSummary r.session.toInterviewSession run) := by
  have hneeds : ∀ run, (((judgeRunSummary r.session.toInterviewSession run).stale ||
      (judgeRunSummary r.session.toInterviewSession run).failed) = true ↔
      NeedsReevaluation r.session run) := by
    intro run
    simp only [judgeRunSummary, NeedsReevaluation, Bool.or_eq_true, decide_eq_true_eq,
      Option.isSome_iff_ne_none]
    exact Or.comm
  unfold Reported.reevaluations
  rw [h.runs]
  simp only [List.mem_map, List.mem_filter]
  constructor
  · rintro ⟨_, ⟨⟨run, hrun, rfl⟩, hneed⟩, rfl⟩
    exact ⟨run, mem_latestRuns.mp hrun, (hneeds run).mp hneed, rfl⟩
  · rintro ⟨run, hrun, hneed, rfl⟩
    exact ⟨_, ⟨⟨run, mem_latestRuns.mpr hrun, rfl⟩, (hneeds run).mpr hneed⟩, rfl⟩

omit [Printable] in
/-- A session has no two items of one answer. -/
theorem ReportShows.reevaluations_nodup {r : Reported} (h : ReportShows r.session r.report) :
    (r.reevaluations.map fun item => item.answerTurnId).Nodup := by
  unfold Reported.reevaluations
  rw [List.map_map]
  have hsub : (r.report.evidenceJudgeRuns.filter fun run => run.stale || run.failed).Sublist
      r.report.evidenceJudgeRuns := List.filter_sublist
  refine (hsub.map EvidenceJudgeRunSummary.answerTurnId).nodup ?_
  rw [h.runs, List.map_map]
  exact latestRuns_answers_nodup r.session.toInterviewSession

theorem ReviewStore.reevaluations_nodup {store : ReviewStore} {jobId organizationId : Option String}
    {rs : List Reported} (h : store.reports jobId organizationId = .ok rs) :
    ((rs.flatMap Reported.reevaluations).map fun item =>
      (item.sessionId, item.answerTurnId)).Nodup := by
  have hshows : ∀ r ∈ rs, ReportShows r.session r.report :=
    fun r hr => buildRecruiterReport_shows ((mem_reports h r).mp hr).2.2
  have hids := reported_ids_nodup h
  clear h
  induction rs with
  | nil => exact List.nodup_nil
  | cons r rs ih =>
    obtain ⟨hnew, hids⟩ := List.nodup_cons.mp hids
    have hrest := ih (fun r hr => hshows r (List.mem_cons_of_mem _ hr)) hids
    rw [List.flatMap_cons, List.map_append]
    refine List.Nodup.append ?_ hrest ?_
    · have hanswers := (hshows r List.mem_cons_self).reevaluations_nodup
      refine List.Nodup.of_map Prod.snd ?_
      rwa [List.map_map]
    · intro pair hp hp'
      obtain ⟨item, hitem, rfl⟩ := List.mem_map.mp hp
      obtain ⟨item', hitem', heq⟩ := List.mem_map.mp hp'
      obtain ⟨r', hr', hitem'⟩ := List.mem_flatMap.mp hitem'
      obtain ⟨run, -, rfl⟩ := List.mem_map.mp hitem
      obtain ⟨run', -, rfl⟩ := List.mem_map.mp hitem'
      have hid : r'.session.id = r.session.id := (Prod.mk.inj heq).1
      exact hnew (List.mem_map.mpr ⟨r', hr', hid⟩)

/-- The one exception of a report: a reason is too long to be told. -/
def TooLong (e : PyError) : Prop :=
  e = .raised (.validationError "ReviewReason: summary: string_too_long")

omit [Printable] in
theorem reviewReason_raises (code : String) (severity : Severity) (text : String) :
    Meets (do let reason ← reviewReason code severity text
              pure [reason]) (fun _ => True) TooLong := by
  have h : Meets (reviewReason code severity text) (fun _ => True) TooLong := by
    unfold reviewReason
    split
    next => exact trivial
    next => exact rfl
  exact h.bind fun _ _ _ => trivial

attribute [local irreducible] reviewReason

omit [Printable] in
theorem countReason_raises (code : String) (severity : Severity) (count : Nat) (text : String) :
    Meets (countReason code severity count text) (fun _ => True) TooLong := by
  unfold countReason
  split
  next => exact trivial
  next => exact reviewReason_raises _ _ _

theorem competencyReason_raises (item : CompetencyReviewSummary) :
    Meets (competencyReason item) (fun _ => True) TooLong := by
  unfold competencyReason
  cases item.state with
  | contradicted => exact reviewReason_raises _ _ _
  | unknown => exact reviewReason_raises _ _ _
  | insufficient => exact reviewReason_raises _ _ _
  | claimed => exact reviewReason_raises _ _ _
  | demonstrated => exact trivial
  | verified => exact trivial

theorem judgeRunReason_raises (item : EvidenceJudgeRunSummary) :
    Meets (judgeRunReason item) (fun _ => True) TooLong := by
  unfold judgeRunReason
  exact Meets.ite (fun _ => reviewReason_raises _ _ _) fun _ =>
    Meets.ite (fun _ => reviewReason_raises _ _ _) fun _ => trivial

theorem reviewReasons_raises (session : InterviewSession)
    (competencies : List CompetencyReviewSummary) (runs : List EvidenceJudgeRunSummary) :
    Meets (reviewReasons session competencies runs) (fun _ => True) TooLong := by
  have hcompetencies : Meets (competencies.mapM competencyReason) (fun _ => True) TooLong :=
    .mapM fun item _ => competencyReason_raises item
  have hruns : Meets (runs.mapM judgeRunReason) (fun _ => True) TooLong :=
    .mapM fun item _ => judgeRunReason_raises item
  unfold reviewReasons
  exact hcompetencies.bind fun _ _ _ => hruns.bind fun _ _ _ =>
    (countReason_raises _ _ _ _).bind fun _ _ _ => (countReason_raises _ _ _ _).bind fun _ _ _ =>
    (countReason_raises _ _ _ _).bind fun _ _ _ => (countReason_raises _ _ _ _).bind fun _ _ _ =>
    trivial

theorem buildRecruiterReport_raises {session : StoredSession} {job : JobSpec} {e : PyError}
    (h : buildRecruiterReport session job = .error e) : TooLong e := by
  simp only [buildRecruiterReport] at h
  cases hreasons : reviewReasons session.toInterviewSession
      (job.competencies.map (competencySummary session.evidenceGraph))
      ((latestRuns session.toInterviewSession).map (judgeRunSummary session.toInterviewSession)) with
  | error e' =>
    rw [hreasons] at h
    cases h
    exact (reviewReasons_raises _ _ _).of_error hreasons
  | ok reasons =>
    rw [hreasons] at h
    cases h

/-- What a scan looks at is the sessions of the organization. -/
theorem SameFor.reports {organizationId : String} {store other : ReviewStore}
    (h : SameFor organizationId store other) (jobId : Option String) :
    (worked (store.picked jobId (some organizationId)) reportOf store.sessions).Perm
      (worked (other.picked jobId (some organizationId)) reportOf other.sessions) := by
  have hother : ∀ (store : ReviewStore) (session : StoredSession),
      decide (session.organizationId = some organizationId) = false →
      store.picked jobId (some organizationId) session = none := by
    intro store session ho
    unfold ReviewStore.picked
    split
    next => rfl
    next => rw [if_pos ⟨by simp, of_decide_eq_false ho⟩]
  rw [← worked_filter reportOf (hother store), ← worked_filter reportOf (hother other)]
  have hsame : worked (store.picked jobId (some organizationId)) reportOf
        (store.sessions.filter fun session => session.organizationId = some organizationId) =
      worked (other.picked jobId (some organizationId)) reportOf
        (store.sessions.filter fun session => session.organizationId = some organizationId) := by
    unfold worked
    refine List.filterMap_congr fun session hs => ?_
    obtain ⟨hs, ho⟩ := List.mem_filter.mp hs
    unfold ReviewStore.picked
    rw [h.jobs session hs (of_decide_eq_true ho)]
  rw [hsame]
  exact h.sessions.filterMap _

/-- What is made of the reports, if their order does not matter to it, does not change with what
other organizations have. -/
theorem SameFor.map_reports {organizationId : String} {store other : ReviewStore} {α : Type}
    (h : SameFor organizationId store other) (jobId : Option String) {make : List Reported → α}
    (hmake : ∀ rs rs', store.reports jobId (some organizationId) = .ok rs → rs.Perm rs' →
      make rs = make rs') :
    (store.reports jobId (some organizationId)).map make =
      (other.reports jobId (some organizationId)).map make := by
  have hone : ∀ e, .error e ∈ worked (store.picked jobId (some organizationId)) reportOf
      store.sessions → TooLong e := by
    intro e he
    obtain ⟨session, -, hr⟩ := List.mem_filterMap.mp he
    obtain ⟨job, -, hr⟩ := Option.map_eq_some_iff.mp hr
    unfold reportOf at hr
    cases hreport : buildRecruiterReport session job with
    | ok report =>
      rw [hreport] at hr
      cases hr
    | error e' =>
      rw [hreport] at hr
      cases hr
      exact buildRecruiterReport_raises hreport
  exact collect_perm (h.reports jobId) hone hmake

omit [Printable] in
theorem picked_organization {store : ReviewStore} {organizationId : String} {session : StoredSession}
    {job : JobSpec} : store.picked none (some organizationId) session = some job ↔
      session.organizationId = some organizationId ∧ store.getJob session.jobId = some job := by
  simp only [ReviewStore.picked, ofOtherJob, ofOther, ne_eq, not_true_eq_false, false_and, if_false,
    reduceCtorEq, not_false_eq_true, true_and, ite_eq_iff, false_and]
  tauto

theorem onePerAnswer {store : ReviewStore} {organizationId : String} {rs : List Reported}
    (h : store.reports none (some organizationId) = .ok rs) :
    OnePerAnswer store organizationId
      (sortOn EvidenceReevaluationQueueItem.key (rs.flatMap Reported.reevaluations)) where
  mem := by
    intro item
    rw [(sortOn_perm _ _).mem_iff, List.mem_flatMap]
    constructor
    · rintro ⟨r, hr, hitem⟩
      obtain ⟨hs, hp, hreport⟩ := (ReviewStore.mem_reports h r).mp hr
      obtain ⟨ho, hjob⟩ := picked_organization.mp hp
      exact ⟨r.session, hs, ho, r.job, hjob,
        ((buildRecruiterReport_shows hreport).mem_reevaluations item).mp hitem⟩
    · rintro ⟨session, hs, ho, job, hjob, hitem⟩
      have hall : ∃ report, buildRecruiterReport session job = .ok report := by
        have hmem : reportOf session job ∈
            worked (store.picked none (some organizationId)) reportOf store.sessions :=
          List.mem_filterMap.mpr ⟨session, hs, by rw [picked_organization.mpr ⟨ho, hjob⟩]; rfl⟩
        rw [collect_ok.mp h] at hmem
        obtain ⟨r, -, hr⟩ := List.mem_map.mp hmem
        obtain ⟨report, hreport, -⟩ := map_ok hr.symm
        exact ⟨report, hreport⟩
      obtain ⟨report, hreport⟩ := hall
      exact ⟨⟨session, job, report⟩, (ReviewStore.mem_reports h _).mpr
        ⟨hs, picked_organization.mpr ⟨ho, hjob⟩, hreport⟩,
        ((buildRecruiterReport_shows hreport).mem_reevaluations item).mpr hitem⟩
  distinct := ((sortOn_perm _ _).map _).nodup_iff.mpr (ReviewStore.reevaluations_nodup h)

omit [Printable] in
/-- Two sessions may be added to the dashboard in either order. -/
theorem ReviewDashboardSummary.add_comm (summary : ReviewDashboardSummary) (r r' : Reported) :
    (summary.add r.session r.report).add r'.session r'.report =
      (summary.add r'.session r'.report).add r.session r.report := by
  simp only [ReviewDashboardSummary.add, ReviewDashboardSummary.mk.injEq]
  refine ⟨trivial, by omega, by omega, by omega, by omega, by omega, by omega, ?_, ?_, ?_⟩
  · grind
  · grind
  · grind

theorem SameFor.summary {organizationId : String} {store other : ReviewStore}
    (h : SameFor organizationId store other) :
    store.summary (some organizationId) = other.summary (some organizationId) := by
  rw [ReviewStore.summary_scan, ReviewStore.summary_scan]
  refine h.map_reports none fun rs rs' _ hperm => ?_
  have : RightCommutative fun (summary : ReviewDashboardSummary) (r : Reported) =>
      summary.add r.session r.report := ⟨ReviewDashboardSummary.add_comm⟩
  exact hperm.foldl_eq _

theorem SameFor.queue {organizationId : String} {store other : ReviewStore}
    (h : SameFor organizationId store other) (requiresReviewOnly : Bool) (jobId : Option String) :
    store.queue requiresReviewOnly jobId (some organizationId) =
      other.queue requiresReviewOnly jobId (some organizationId) := by
  rw [ReviewStore.queue_scan, ReviewStore.queue_scan]
  exact h.map_reports jobId fun rs rs' hrs hperm =>
    sortOn_eq_of_perm (ReviewStore.item_key hrs _) ((hperm.map _).filter _)

theorem SameFor.evidenceReevaluationQueue {organizationId : String} {store other : ReviewStore}
    (h : SameFor organizationId store other) (jobId : Option String) :
    store.evidenceReevaluationQueue jobId (some organizationId) =
      other.evidenceReevaluationQueue jobId (some organizationId) := by
  rw [ReviewStore.reevaluation_scan, ReviewStore.reevaluation_scan]
  refine h.map_reports jobId fun rs rs' hrs hperm =>
    sortOn_eq_of_perm (fun a ha b hb hkey => ?_) (hperm.flatMap_right _)
  unfold EvidenceReevaluationQueueItem.key at hkey
  simp only [toLex_inj, Prod.mk.injEq] at hkey
  refine List.inj_on_of_nodup_map (ReviewStore.reevaluations_nodup hrs) ha hb ?_
  rw [Prod.mk.injEq]
  exact hkey.2.2

/-- The dashboard of an organization is that of its two queues, the evaluations to repeat are one
for each answer, and none of the three depends on other organizations or on the order in which the
store lists its sessions. Where a report cannot be made, all three raise. -/
theorem dashboard_isolated (store : ReviewStore) (organizationId : String) :
    ((∃ e, (∃ session ∈ store.sessions, session.organizationId = some organizationId ∧
          ∃ job, store.getJob session.jobId = some job ∧
            buildRecruiterReport session job = .error e) ∧
        store.summary (some organizationId) = .error e ∧
        store.queue false none (some organizationId) = .error e ∧
        store.evidenceReevaluationQueue none (some organizationId) = .error e) ∨
      ∃ summary items reevaluations, store.summary (some organizationId) = .ok summary ∧
        store.queue false none (some organizationId) = .ok items ∧
        store.evidenceReevaluationQueue none (some organizationId) = .ok reevaluations ∧
        DashboardAgrees summary items reevaluations ∧
        OnePerAnswer store organizationId reevaluations) ∧
    ∀ other, SameFor organizationId store other →
      store.summary (some organizationId) = other.summary (some organizationId) ∧
      (∀ requiresReviewOnly jobId, store.queue requiresReviewOnly jobId (some organizationId) =
        other.queue requiresReviewOnly jobId (some organizationId)) ∧
      ∀ jobId, store.evidenceReevaluationQueue jobId (some organizationId) =
        other.evidenceReevaluationQueue jobId (some organizationId) := by
  refine ⟨?_, fun other h => ⟨h.summary, h.queue, h.evidenceReevaluationQueue⟩⟩
  rw [ReviewStore.summary_scan, ReviewStore.queue_scan, ReviewStore.reevaluation_scan]
  cases hrs : store.reports none (some organizationId) with
  | error e =>
    refine .inl ⟨e, ?_, rfl, rfl, rfl⟩
    obtain ⟨session, hs, hr⟩ := List.mem_filterMap.mp (collect_error hrs)
    obtain ⟨job, hp, hr⟩ := Option.map_eq_some_iff.mp hr
    obtain ⟨ho, hjob⟩ := picked_organization.mp hp
    refine ⟨session, hs, ho, job, hjob, ?_⟩
    unfold reportOf at hr
    cases hreport : buildRecruiterReport session job with
    | ok report =>
      rw [hreport] at hr
      cases hr
    | error e' =>
      rw [hreport] at hr
      cases hr
      rfl
  | ok rs =>
    refine .inr ⟨_, _, _, rfl, rfl, rfl, ?_, onePerAnswer hrs⟩
    have hall : (rs.map Reported.item).filter (fun item => !false || item.requiresHumanReview) =
        rs.map Reported.item := by simp
    have hagrees := dashboard_agrees fun r hr =>
      buildRecruiterReport_shows ((ReviewStore.mem_reports hrs r).mp hr).2.2
    refine hagrees.perm ?_ (sortOn_perm _ _).symm
    simp only [hall]
    exact (sortOn_perm _ _).symm

end

section Runs

attribute [local instance] asciiPrintable

/-- A run of the judge over the answer `turn-1`. -/
def judgedRun (id : String) (createdAt : DateTime) (error : Option String) : EvidenceJudgeRun where
  id := id
  judgeId := "judge"
  questionTurnId := "turn-0"
  answerTurnId := "turn-1"
  competencyIds := ["systems"]
  createdAt := createdAt
  error := error

/-- A session of an organization, with the runs that its answer had. -/
def tenantSession (id organizationId : String) (runs : List EvidenceJudgeRun) : StoredSession :=
  { claimedSession with id, organizationId := some organizationId, evidenceJudgeRuns := runs }

/-- Two runs at one time, of which the one recorded first failed, and a run that did not. -/
def tenantStore : ReviewStore where
  jobs := [("job", plainJob)]
  sessions := [
    tenantSession "first" "nora" [judgedRun "run-0" 5 (some "timeout"), judgedRun "run-1" 5 none],
    tenantSession "other" "acme" [judgedRun "run-2" 6 (some "timeout")],
    tenantSession "second" "nora" [judgedRun "run-3" 4 none]]
  ids_nodup := by decide

/-- The same sessions in another order, without that of the other organization. -/
def tenantStoreReordered : ReviewStore where
  jobs := [("job", plainJob)]
  sessions := [
    tenantSession "second" "nora" [judgedRun "run-3" 4 none],
    tenantSession "first" "nora" [judgedRun "run-0" 5 (some "timeout"), judgedRun "run-1" 5 none]]
  ids_nodup := by decide

theorem dashboard_isolated_reordered :
    tenantStore.summary (some "nora") = tenantStoreReordered.summary (some "nora") ∧
      (tenantStoreReordered.evidenceReevaluationQueue none (some "nora")).map
        (fun items => items.map fun item => (item.sessionId, item.latestRunId)) =
          .ok [("first", "run-0")] := by
  refine ⟨((dashboard_isolated tenantStore "nora").2 tenantStoreReordered
    ⟨List.Perm.swap _ _ _, fun session _ _ => rfl⟩).1, ?_⟩
  decide +kernel

end Runs

end NoraInterviewer
