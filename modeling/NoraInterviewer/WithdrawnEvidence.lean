import NoraInterviewer.ReviewReports
import NoraInterviewer.EvidenceBundles
import NoraInterviewer.StickyContradictions

namespace NoraInterviewer

open ExceptRules

def CompetencyEvidence.withoutInactive (node : CompetencyEvidence) : CompetencyEvidence :=
  { node with evidence := node.evidence.filter EvidenceItem.active }

/-- The session without the inactive items of its evidence graph. -/
def StoredSession.withoutInactive (session : StoredSession) : StoredSession :=
  { session with evidenceGraph :=
      session.evidenceGraph.map fun entry => (entry.1, entry.2.withoutInactive) }

/-- What the recruiter report says of the competencies, and why they need review. -/
def RecruiterSessionReport.findings (report : RecruiterSessionReport) :
    List CompetencyReviewSummary × List ReviewReason :=
  (report.competencies, report.reasons)

section

variable [Printable] [Sha256]

/-- What is withdrawn shows in none of the four consumers of the evidence graph. -/
structure Uninfluenced (session : StoredSession) (job : JobSpec) : Prop where
  report : (buildRecruiterReport session.withoutInactive job).map RecruiterSessionReport.findings =
    (buildRecruiterReport session job).map RecruiterSessionReport.findings
  feedback : buildCandidateFeedback session.withoutInactive.toInterviewSession job =
    buildCandidateFeedback session.toInterviewSession job
  records : evidenceRecords session.withoutInactive.toInterviewSession =
    evidenceRecords session.toInterviewSession
  queue : (buildRecruiterReport session.withoutInactive job).map toQueueItem =
    (buildRecruiterReport session job).map toQueueItem

/-- No competency of the job has an item that was withdrawn. -/
def NoneWithdrawn (session : StoredSession) (job : JobSpec) : Prop :=
  ∀ competency ∈ job.competencies, ∀ node, session.evidenceGraph.lookup competency.id = some node →
    ∀ item ∈ node.evidence, item.active = true

section

omit [Printable] [Sha256]

theorem lookup_map_snd {α β : Type} (f : α → β) (key : String) (d : Dict α) :
    List.lookup key (d.map fun entry => (entry.1, f entry.2)) = (d.lookup key).map f := by
  induction d with
  | nil => rfl
  | cons entry rest ih =>
    obtain ⟨k, v⟩ := entry
    simp only [List.map_cons, List.lookup_cons]
    cases key == k with
    | true => rfl
    | false => exact ih

theorem withoutInactive_lookup (session : StoredSession) (key : String) :
    session.withoutInactive.evidenceGraph.lookup key =
      (session.evidenceGraph.lookup key).map CompetencyEvidence.withoutInactive :=
  lookup_map_snd _ key _

theorem NoneWithdrawn.lookup {session : StoredSession} {job : JobSpec}
    (h : NoneWithdrawn session job) {competency : Competency} (hc : competency ∈ job.competencies) :
    session.withoutInactive.evidenceGraph.lookup competency.id =
      session.evidenceGraph.lookup competency.id := by
  rw [withoutInactive_lookup]
  cases hnode : session.evidenceGraph.lookup competency.id with
  | none => rfl
  | some node =>
    have hall : node.evidence.filter EvidenceItem.active = node.evidence :=
      List.filter_eq_self.mpr (h competency hc node hnode)
    simp only [Option.map_some, CompetencyEvidence.withoutInactive, hall]

/-- Withdrawn items do not enter into the reasons of the report. -/
theorem competencySummary_erased (session : StoredSession) (competency : Competency) :
    competencySummary session.withoutInactive.evidenceGraph competency =
      { competencySummary session.evidenceGraph competency with
        evidenceCount :=
          (competencySummary session.withoutInactive.evidenceGraph competency).evidenceCount
        sourceTypes :=
          (competencySummary session.withoutInactive.evidenceGraph competency).sourceTypes } := by
  unfold competencySummary
  rw [withoutInactive_lookup]
  cases session.evidenceGraph.lookup competency.id with
  | none => rfl
  | some node => rfl

end

omit [Sha256] in
theorem competencyReason_erased (session : StoredSession) (competency : Competency) :
    competencyReason (competencySummary session.withoutInactive.evidenceGraph competency) =
      competencyReason (competencySummary session.evidenceGraph competency) := by
  rw [competencySummary_erased]
  rfl

omit [Sha256] in
/-- The two reports differ in what they say of the competencies, if at all. -/
theorem buildRecruiterReport_erased (session : StoredSession) (job : JobSpec) :
    buildRecruiterReport session.withoutInactive job =
      (buildRecruiterReport session job).map fun report => { report with
        competencies := job.competencies.map
          (competencySummary session.withoutInactive.evidenceGraph) } := by
  have hreasons : (job.competencies.map
        (competencySummary session.withoutInactive.evidenceGraph)).mapM competencyReason =
      (job.competencies.map (competencySummary session.evidenceGraph)).mapM competencyReason := by
    rw [List.mapM_map, List.mapM_map]
    exact congrArg (List.mapM · job.competencies)
      (funext fun competency => competencyReason_erased session competency)
  have hsame : ∀ runs, reviewReasons session.withoutInactive.toInterviewSession
        (job.competencies.map (competencySummary session.withoutInactive.evidenceGraph)) runs =
      reviewReasons session.toInterviewSession
        (job.competencies.map (competencySummary session.evidenceGraph)) runs := by
    intro runs
    unfold reviewReasons
    rw [hreasons]
    rfl
  unfold buildRecruiterReport
  simp only [show (latestRuns session.withoutInactive.toInterviewSession).map
      (judgeRunSummary session.withoutInactive.toInterviewSession) =
    (latestRuns session.toInterviewSession).map (judgeRunSummary session.toInterviewSession)
    from rfl, hsame]
  cases reviewReasons session.toInterviewSession
      (job.competencies.map (competencySummary session.evidenceGraph))
      ((latestRuns session.toInterviewSession).map (judgeRunSummary session.toInterviewSession)) with
  | error => rfl
  | ok => rfl

omit [Printable] in
theorem evidenceRecords_erased (session : StoredSession) :
    evidenceRecords session.withoutInactive.toInterviewSession =
      evidenceRecords session.toInterviewSession := by
  have hkeys : session.withoutInactive.evidenceGraph.map Prod.fst =
      session.evidenceGraph.map Prod.fst := by
    simp [StoredSession.withoutInactive]
  unfold evidenceRecords
  rw [hkeys]
  refine congrArg (List.flatMap · _) (funext fun competencyId => ?_)
  rw [withoutInactive_lookup]
  cases session.evidenceGraph.lookup competencyId with
  | none => rfl
  | some node =>
    simp only [Option.map_some, Option.getD_some, CompetencyEvidence.withoutInactive,
      List.filterMap_filter]
    refine congrArg (List.filterMap · _) (funext fun item => ?_)
    split
    next => rfl
    next => rfl

omit [Printable] [Sha256] in
theorem buildCandidateFeedback_erased {session : StoredSession} {job : JobSpec}
    (h : NoneWithdrawn session job) :
    buildCandidateFeedback session.withoutInactive.toInterviewSession job =
      buildCandidateFeedback session.toInterviewSession job := by
  have hloop : ∀ (competencies : List Competency) (report : CandidateFeedbackReport),
      (∀ competency ∈ competencies, competency ∈ job.competencies) →
      competencies.foldl (competencyFeedback session.withoutInactive.evidenceGraph) report =
        competencies.foldl (competencyFeedback session.evidenceGraph) report := by
    intro competencies
    induction competencies with
    | nil => exact fun _ _ => rfl
    | cons competency rest ih =>
      intro report hmem
      have hsame : competencyFeedback session.withoutInactive.evidenceGraph report competency =
          competencyFeedback session.evidenceGraph report competency := by
        unfold competencyFeedback
        rw [h.lookup (hmem competency List.mem_cons_self)]
      rw [List.foldl_cons, List.foldl_cons, hsame]
      exact ih _ fun other hother => hmem other (List.mem_cons_of_mem _ hother)
  exact hloop job.competencies _ fun _ hmem => hmem

omit [Printable] [Sha256] in
theorem competencySummary_count {session : StoredSession} {competency : Competency}
    (h : competencySummary session.withoutInactive.evidenceGraph competency =
      competencySummary session.evidenceGraph competency) {node : CompetencyEvidence}
    (hnode : session.evidenceGraph.lookup competency.id = some node) :
    ∀ item ∈ node.evidence, item.active = true := by
  have hcount := congrArg CompetencyReviewSummary.evidenceCount h
  simp only [competencySummary, withoutInactive_lookup, hnode, Option.map_some, Option.getD_some,
    CompetencyEvidence.withoutInactive] at hcount
  exact List.length_filter_eq_length_iff.mp hcount

/-- Withdrawn items are without influence where no competency of the job has one; and where the report
can be built, only there. -/
theorem withdrawn_uninfluential (session : StoredSession) (job : JobSpec) :
    (NoneWithdrawn session job → Uninfluenced session job) ∧
      ∀ report, buildRecruiterReport session job = .ok report → Uninfluenced session job →
        NoneWithdrawn session job := by
  have hreport := buildRecruiterReport_erased session job
  refine ⟨fun h => ⟨?_, buildCandidateFeedback_erased h, evidenceRecords_erased session, ?_⟩,
    fun report hok huninfluenced competency hc node hnode => ?_⟩
  · have hcompetencies : job.competencies.map
          (competencySummary session.withoutInactive.evidenceGraph) =
        job.competencies.map (competencySummary session.evidenceGraph) := by
      refine List.map_congr_left fun competency hc => ?_
      unfold competencySummary
      rw [h.lookup hc]
    rw [hreport]
    unfold buildRecruiterReport
    simp only [hcompetencies]
    cases reviewReasons session.toInterviewSession
        (job.competencies.map (competencySummary session.evidenceGraph))
        ((latestRuns session.toInterviewSession).map
          (judgeRunSummary session.toInterviewSession)) with
    | error => rfl
    | ok => rfl
  · rw [hreport]
    cases buildRecruiterReport session job with
    | error => rfl
    | ok => rfl
  · have hfindings := huninfluenced.report
    rw [hreport, hok] at hfindings
    have hcompetencies : job.competencies.map
          (competencySummary session.withoutInactive.evidenceGraph) = report.competencies :=
      congrArg Prod.fst (Except.ok.inj hfindings)
    have hbuilt : report.competencies =
        job.competencies.map (competencySummary session.evidenceGraph) := by
      obtain ⟨_, _, hbuilt⟩ := bind_ok hok
      cases hbuilt
      rfl
    rw [hbuilt] at hcompetencies
    exact competencySummary_count (List.map_inj_left.mp hcompetencies competency hc) hnode

end

section Runs

attribute [local instance] checksumDigest

/-- The printable characters of ASCII. -/
@[reducible] def asciiPrintable : Printable where
  isPrintable c := 0x20 ≤ c.toNat && c.toNat < 0x7f

/-- A stand-in for SHA-256. -/
@[reducible] def byteSum : Sha256 where
  hexdigest data := String.ofList (Nat.toDigits 16 (data.foldl (fun sum byte => sum + byte.toNat) 0))

attribute [local instance] asciiPrintable byteSum

/-- A session with one claim. -/
def claimedSession : StoredSession where
  id := "session"
  createdAt := 0
  jobId := "job"
  candidateRef := "candidate"
  locale := "en"
  evidenceGraph := [("systems", {
    competencyId := "systems"
    state := .claimed
    evidence := [{ id := "evidence-0", turnId := "turn-1", state := .claimed, confidence := half
                   note := "claims a queue" }] })]

theorem withdrawn_uninfluential_claimed : Uninfluenced claimedSession plainJob := by
  refine (withdrawn_uninfluential claimedSession plainJob).1 fun competency hc node hnode => ?_
  simp only [plainJob, List.mem_singleton] at hc
  subst hc
  cases hnode
  simp

def evidenceCounts (session : StoredSession) : Option (List Nat) :=
  (buildRecruiterReport session plainJob).toOption.map fun report =>
    report.competencies.map CompetencyReviewSummary.evidenceCount

theorem evidenceCounts_erased {session : StoredSession} (h : Uninfluenced session plainJob) :
    evidenceCounts session.withoutInactive = evidenceCounts session := by
  have hcounts : ∀ session, evidenceCounts session =
      ((buildRecruiterReport session plainJob).map RecruiterSessionReport.findings).toOption.map
        fun findings => findings.1.map CompetencyReviewSummary.evidenceCount := by
    intro session
    unfold evidenceCounts
    cases buildRecruiterReport session plainJob with
    | ok => rfl
    | error => rfl
  rw [hcounts, hcounts, h.report]

/-- An answer whose claim a verdict of the judge joins, and that is then corrected. -/
theorem withdrawn_item_counted :
    ¬∀ backend versions, History backend (Admits fun _ _ => True) versions →
      ∀ session : StoredSession, session.toInterviewSession ∈ versions →
        ∀ job, job.id = session.jobId → Uninfluenced session job := by
  intro hclaim
  have hrun : (jobRun plainJob .json clearedCalls).any (fun versions => versions.head?.any
      fun session => session.jobId = plainJob.id &&
        evidenceCounts ⟨session, [], []⟩ = some [3] &&
        evidenceCounts (StoredSession.withoutInactive ⟨session, [], []⟩) = some [2]) = true := by
    decide +kernel
  obtain ⟨session, past, hhistory, hcheck⟩ := jobRun_last (fun _ _ => True)
    (fun _ _ => trivial) hrun
  simp only [Bool.and_eq_true, decide_eq_true_eq] at hcheck
  obtain ⟨⟨hjob, hcounts⟩, herased⟩ := hcheck
  have hsame := evidenceCounts_erased (hclaim _ _ hhistory ⟨session, [], []⟩ List.mem_cons_self
    plainJob hjob.symm)
  rw [hcounts, herased] at hsame
  cases hsame

end Runs

end NoraInterviewer
