import NoraInterviewer.ReviewReports
import NoraInterviewer.FallibleScans
import Mathlib.Data.Prod.Lex
import Mathlib.Data.String.Basic

/-! The three scans of `ReviewService` over the sessions of a store. -/

namespace NoraInterviewer

open FallibleScans
open scoped Prod.Lex

/-- What a store holds, its sessions in the order of `list_sessions`. -/
structure ReviewStore where
  jobs : Dict JobSpec := []
  sessions : List StoredSession := []
  ids_nodup : (sessions.map fun session => session.id).Nodup

def ReviewStore.getJob (store : ReviewStore) (jobId : String) : Option JobSpec :=
  store.jobs.lookup jobId

structure ReviewDashboardSummary where
  totalSessions : Nat := 0
  reviewRequired : Nat := 0
  pendingAppeals : Nat := 0
  pendingIntegritySignals : Nat := 0
  unresolvedTools : Nat := 0
  staleEvidenceRuns : Nat := 0
  failedEvidenceRuns : Nat := 0
  assignedReviews : Nat := 0
  unassignedReviewRequired : Nat := 0
  completedSessions : Nat := 0
  deriving DecidableEq

structure EvidenceReevaluationQueueItem where
  sessionId : String
  jobId : String
  candidateRef : String
  role : String
  answerTurnId : String
  latestRunId : String
  judgeId : String
  stale : Bool
  failed : Bool
  transcriptRevisionCount : Nat
  currentTranscriptRevisionCount : Nat
  deriving DecidableEq

/-- The session is of another organization than the one asked for. -/
def ofOther (organizationId : Option String) (session : StoredSession) : Prop :=
  organizationId ≠ none ∧ session.organizationId ≠ organizationId

instance (organizationId : Option String) (session : StoredSession) :
    Decidable (ofOther organizationId session) :=
  inferInstanceAs (Decidable (_ ∧ _))

/-- The session is of another job than the one asked for. -/
def ofOtherJob (jobId : Option String) (session : StoredSession) : Prop :=
  jobId ≠ none ∧ some session.jobId ≠ jobId

instance (jobId : Option String) (session : StoredSession) : Decidable (ofOtherJob jobId session) :=
  inferInstanceAs (Decidable (_ ∧ _))

/-- `next((item for item in report.review_assignments if …), None)`. -/
def activeAssignment (assignments : List ReviewAssignment) : Option ReviewAssignment :=
  assignments.find? fun item => item.status.active

def ReviewDashboardSummary.add (summary : ReviewDashboardSummary) (session : StoredSession)
    (report : RecruiterSessionReport) : ReviewDashboardSummary where
  totalSessions := summary.totalSessions + 1
  reviewRequired := summary.reviewRequired + report.requiresHumanReview.toNat
  pendingAppeals := summary.pendingAppeals + report.pendingAppeals
  pendingIntegritySignals := summary.pendingIntegritySignals + report.integritySignals
  unresolvedTools := summary.unresolvedTools + report.unresolvedTools
  staleEvidenceRuns := summary.staleEvidenceRuns + report.staleEvidenceRuns
  failedEvidenceRuns := summary.failedEvidenceRuns + report.failedEvidenceRuns
  assignedReviews := if (activeAssignment report.reviewAssignments).isSome
    then summary.assignedReviews + 1 else summary.assignedReviews
  unassignedReviewRequired := if (activeAssignment report.reviewAssignments).isSome
    then summary.unassignedReviewRequired
    else if report.requiresHumanReview then summary.unassignedReviewRequired + 1
    else summary.unassignedReviewRequired
  completedSessions := if session.status.value = "completed"
    then summary.completedSessions + 1 else summary.completedSessions

def reevaluationItem (session : StoredSession) (job : JobSpec) (run : EvidenceJudgeRunSummary) :
    EvidenceReevaluationQueueItem where
  sessionId := session.id
  jobId := session.jobId
  candidateRef := session.candidateRef
  role := job.title
  answerTurnId := run.answerTurnId
  latestRunId := run.id
  judgeId := run.judgeId
  stale := run.stale
  failed := run.failed
  transcriptRevisionCount := run.transcriptRevisionCount
  currentTranscriptRevisionCount := run.currentTranscriptRevisionCount

def EvidenceReevaluationQueueItem.key (item : EvidenceReevaluationQueueItem) :
    Bool ×ₗ Bool ×ₗ String ×ₗ String :=
  toLex (!item.failed, toLex (!item.stale, toLex (item.sessionId, item.answerTurnId)))

def ReviewQueueItem.key (item : ReviewQueueItem) :
    Bool ×ₗ Bool ×ₗ Int ×ₗ Int ×ₗ Int ×ₗ Int ×ₗ Int ×ₗ String :=
  toLex (!item.requiresHumanReview, toLex (item.assignedReviewerId.isSome,
    toLex (-(item.failedEvidenceRuns : Int), toLex (-(item.staleEvidenceRuns : Int),
      toLex (-(item.pendingAppeals : Int), toLex (-(item.integritySignals : Int),
        toLex (-(item.unresolvedTools : Int), item.sessionId)))))))

namespace ReviewStore

variable [Printable]

def summary (store : ReviewStore) (organizationId : Option String) :
    Except PyError ReviewDashboardSummary :=
  store.sessions.foldlM (fun summary session =>
    if ofOther organizationId session then pure summary
    else match store.getJob session.jobId with
      | none => pure summary
      | some job => do
        let report ← buildRecruiterReport session job
        pure (summary.add session report)) {}

def evidenceReevaluationQueue (store : ReviewStore) (jobId organizationId : Option String) :
    Except PyError (List EvidenceReevaluationQueueItem) := do
  let items ← store.sessions.foldlM (fun items session =>
    if ofOtherJob jobId session then pure items
    else if ofOther organizationId session then pure items
    else match store.getJob session.jobId with
      | none => pure items
      | some job => do
        let report ← buildRecruiterReport session job
        pure (items ++ (report.evidenceJudgeRuns.filter fun run => run.stale || run.failed).map
          (reevaluationItem session job))) []
  pure (sortOn EvidenceReevaluationQueueItem.key items)

def queue (store : ReviewStore) (requiresReviewOnly : Bool) (jobId organizationId : Option String) :
    Except PyError (List ReviewQueueItem) := do
  let items ← store.sessions.foldlM (fun items session =>
    if ofOtherJob jobId session then pure items
    else if ofOther organizationId session then pure items
    else match store.getJob session.jobId with
      | none => pure items
      | some job => do
        let report ← buildRecruiterReport session job
        let item := toQueueItem report
        if requiresReviewOnly && !item.requiresHumanReview then pure items
        else pure (items ++ [item])) []
  pure (sortOn ReviewQueueItem.key items)

end ReviewStore

end NoraInterviewer
