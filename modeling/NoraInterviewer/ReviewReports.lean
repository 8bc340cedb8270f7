import NoraInterviewer.SessionRecords
import NoraInterviewer.Traces
import NoraInterviewer.Counterfactual

/-! `build_recruiter_report` and `to_queue_item`. -/

namespace NoraInterviewer

/-- `str.isprintable` of one character. -/
class Printable where
  isPrintable : Char → Bool

def hexDigits (width n : Nat) : List Char :=
  let digits := Nat.toDigits 16 n
  List.replicate (width - digits.length) '0' ++ digits

def reprChar [Printable] (quote c : Char) : List Char :=
  if c = quote ∨ c = '\\' then ['\\', c]
  else if c = '\n' then ['\\', 'n']
  else if c = '\r' then ['\\', 'r']
  else if c = '\t' then ['\\', 't']
  else if Printable.isPrintable c then [c]
  else if c.toNat < 0x100 then ['\\', 'x'] ++ hexDigits 2 c.toNat
  else if c.toNat < 0x10000 then ['\\', 'u'] ++ hexDigits 4 c.toNat
  else ['\\', 'U'] ++ hexDigits 8 c.toNat

/-- `repr(s)`. -/
def pyRepr [Printable] (s : String) : String :=
  let quote := if s.toList.contains '\'' && !s.toList.contains '"' then '"' else '\''
  String.ofList ([quote] ++ s.toList.flatMap (reprChar quote) ++ [quote])

structure CompetencyReviewSummary where
  competencyId : String
  description : String
  state : EvidenceState
  confidence : Option UnitScore
  evidenceCount : Nat
  sourceTypes : List String
  deriving DecidableEq

structure EvidenceJudgeRunSummary where
  id : String
  judgeId : String
  answerTurnId : String
  createdAt : DateTime
  transcriptRevisionCount : Nat
  currentTranscriptRevisionCount : Nat
  observationCount : Nat
  failed : Bool
  stale : Bool
  supersedesRunId : Option String
  deriving DecidableEq

inductive Severity where
  | info | attention | high
  deriving DecidableEq, Repr

structure ReviewReason where
  code : String
  summary : String
  severity : Severity
  deriving DecidableEq

/-- The validation of a `ReviewReason`; its summary may be too long. -/
def reviewReason (code : String) (severity : Severity) (summary : String) :
    Except PyError ReviewReason :=
  if summary.length ≤ 500 then .ok { code, summary, severity }
  else .error (.raised (.validationError "ReviewReason: summary: string_too_long"))

structure IntegrityReviewSummary where
  id : String
  kind : String
  confidence : UnitScore
  note : String
  requiresHumanReview : Bool
  reviewStatus : IntegrityReviewStatus
  reviewedBy : Option String
  reviewNote : Option String

def IntegritySignal.reviewed (signal : IntegritySignal) : IntegrityReviewSummary where
  id := signal.id
  kind := signal.kind
  confidence := signal.confidence
  note := signal.note
  requiresHumanReview := signal.requiresHumanReview
  reviewStatus := signal.reviewStatus
  reviewedBy := signal.reviewedBy
  reviewNote := signal.reviewNote

structure RecruiterSessionReport where
  sessionId : String
  jobId : String
  role : String
  candidateRef : String
  status : String
  competencies : List CompetencyReviewSummary
  evidenceJudgeRuns : List EvidenceJudgeRunSummary
  reviewAssignments : List ReviewAssignment
  reasons : List ReviewReason
  appeals : List CandidateAppeal
  integrity : List IntegrityReviewSummary
  pendingAppeals : Nat
  integritySignals : Nat
  unresolvedTools : Nat
  staleEvidenceRuns : Nat
  failedEvidenceRuns : Nat
  transcriptRevisions : Nat
  requiresHumanReview : Bool
  note : String := "This report summarizes interview evidence and review conditions. " ++
    "It does not make or recommend a final hiring decision."

structure ReviewQueueItem where
  sessionId : String
  jobId : String
  candidateRef : String
  role : String
  status : String
  requiresHumanReview : Bool
  reasonCodes : List String
  pendingAppeals : Nat
  integritySignals : Nat
  unresolvedTools : Nat
  staleEvidenceRuns : Nat
  failedEvidenceRuns : Nat
  assignedReviewerId : Option String
  assignmentStatus : Option ReviewAssignmentStatus
  deriving DecidableEq

/-- What `build_recruiter_report` says of one competency. -/
def competencySummary (graph : Dict CompetencyEvidence) (competency : Competency) :
    CompetencyReviewSummary :=
  let node := graph.lookup competency.id
  let evidence := (node.map CompetencyEvidence.evidence).getD []
  { competencyId := competency.id
    description := competency.description
    state := (node.map CompetencyEvidence.state).getD .unknown
    confidence := node.bind CompetencyEvidence.confidence
    evidenceCount := evidence.length
    sourceTypes := sortedSet (evidence.map EvidenceItem.source) }

/-- `revisions_by_turn.get(turn_id, 0)`. -/
def currentRevisions (session : InterviewSession) (turnId : String) : Nat :=
  session.transcriptRevisions.countP fun revision => revision.turnId = turnId

/-- `latest_run_by_answer`. -/
def latestRunByAnswer (runs : List EvidenceJudgeRun) : Dict EvidenceJudgeRun :=
  runs.foldl (fun latest run =>
    match latest.lookup run.answerTurnId with
    | none => Dict.set run.answerTurnId run latest
    | some current =>
      if run.createdAt > current.createdAt then Dict.set run.answerTurnId run latest else latest) []

def latestRuns (session : InterviewSession) : List EvidenceJudgeRun :=
  ((latestRunByAnswer session.evidenceJudgeRuns).map Prod.snd).mergeSort
    fun a b => b.createdAt ≤ a.createdAt

def judgeRunSummary (session : InterviewSession) (run : EvidenceJudgeRun) :
    EvidenceJudgeRunSummary where
  id := run.id
  judgeId := run.judgeId
  answerTurnId := run.answerTurnId
  createdAt := run.createdAt
  transcriptRevisionCount := run.transcriptRevisionCount
  currentTranscriptRevisionCount := currentRevisions session run.answerTurnId
  observationCount := run.observationIds.length
  failed := run.error.isSome
  stale := run.transcriptRevisionCount ≠ currentRevisions session run.answerTurnId
  supersedesRunId := run.supersedesRunId

section

variable [Printable]

/-- The reason, if there is one, for which a competency needs review. -/
def competencyReason (item : CompetencyReviewSummary) : Except PyError (List ReviewReason) :=
  match item.state with
  | .contradicted => do
    let reason ← reviewReason "conflicting_evidence" .high
      ("Competency " ++ pyRepr item.competencyId ++ " contains contradicted evidence.")
    pure [reason]
  | .unknown | .insufficient | .claimed => do
    let reason ← reviewReason "insufficient_evidence" .attention
      ("Competency " ++ pyRepr item.competencyId ++ " lacks demonstrated or verified evidence.")
    pure [reason]
  | _ => pure []

def judgeRunReason (item : EvidenceJudgeRunSummary) : Except PyError (List ReviewReason) :=
  if item.failed then do
    let reason ← reviewReason "evidence_judge_failed" .attention
      ("Latest evidence judge run for answer " ++ pyRepr item.answerTurnId ++
        " failed and requires review.")
    pure [reason]
  else if item.stale then do
    let reason ← reviewReason "evidence_reevaluation_needed" .attention
      ("Answer " ++ pyRepr item.answerTurnId ++
        " changed after its latest semantic evidence evaluation.")
    pure [reason]
  else pure []

/-- A reason that gives a number, if it is not zero. -/
def countReason (code : String) (severity : Severity) (count : Nat) (text : String) :
    Except PyError (List ReviewReason) :=
  if count = 0 then pure []
  else do
    let reason ← reviewReason code severity (toString count ++ text)
    pure [reason]

def pendingAppeals (session : InterviewSession) : Nat :=
  session.appeals.countP fun item => item.status = .pending

def pendingSignals (session : InterviewSession) : Nat :=
  session.integritySignals.countP fun item => item.reviewStatus = .pending

def unresolvedTools (session : InterviewSession) : Nat :=
  (session.tools.countP fun tool => tool.status = .open ∨ tool.status = .submitted) +
    session.toolEvaluations.countP fun evaluation => evaluation.passed = none

/-- The reasons of the report, in their order. -/
def reviewReasons (session : InterviewSession) (competencies : List CompetencyReviewSummary)
    (evidenceJudgeRuns : List EvidenceJudgeRunSummary) : Except PyError (List ReviewReason) := do
  let competencyReasons ← competencies.mapM competencyReason
  let runReasons ← evidenceJudgeRuns.mapM judgeRunReason
  let appealReasons ← countReason "pending_appeal" .high (pendingAppeals session)
    " candidate appeal(s) require review."
  let signalReasons ← countReason "integrity_signal" .high (pendingSignals session)
    " pending integrity signal(s) require human review."
  let toolReasons ← countReason "tool_review_pending" .attention (unresolvedTools session)
    " practical artifact review item(s) remain unresolved."
  let revisionReasons ← countReason "transcript_revised" .info session.transcriptRevisions.length
    " candidate transcript revision(s) are present in the audit history."
  pure (competencyReasons.flatten ++ runReasons.flatten ++ appealReasons ++ signalReasons ++
    toolReasons ++ revisionReasons)

/-- `build_recruiter_report`. -/
def buildRecruiterReport (session : StoredSession) (job : JobSpec) :
    Except PyError RecruiterSessionReport := do
  let competencies := job.competencies.map (competencySummary session.evidenceGraph)
  let evidenceJudgeRuns := (latestRuns session.toInterviewSession).map
    (judgeRunSummary session.toInterviewSession)
  let reasons ← reviewReasons session.toInterviewSession competencies evidenceJudgeRuns
  pure {
    sessionId := session.id
    jobId := session.jobId
    role := job.title
    candidateRef := session.candidateRef
    status := session.status.value
    competencies
    evidenceJudgeRuns
    reviewAssignments := session.reviewAssignments
    reasons
    appeals := session.appeals
    integrity := session.integritySignals.map IntegritySignal.reviewed
    pendingAppeals := pendingAppeals session.toInterviewSession
    integritySignals := pendingSignals session.toInterviewSession
    unresolvedTools := unresolvedTools session.toInterviewSession
    staleEvidenceRuns := evidenceJudgeRuns.countP fun item => item.stale
    failedEvidenceRuns := evidenceJudgeRuns.countP fun item => item.failed
    transcriptRevisions := session.transcriptRevisions.length
    requiresHumanReview := reasons.any fun reason =>
      reason.severity = .attention || reason.severity = .high }

end

/-- The active assignment that `to_queue_item` finds first, from the end. -/
def lastActive (assignments : List ReviewAssignment) : Option ReviewAssignment :=
  assignments.reverse.find? fun item => item.status.active

def toQueueItem (report : RecruiterSessionReport) : ReviewQueueItem where
  sessionId := report.sessionId
  jobId := report.jobId
  candidateRef := report.candidateRef
  role := report.role
  status := report.status
  requiresHumanReview := report.requiresHumanReview
  reasonCodes := (report.reasons.map ReviewReason.code).reverse.dedup.reverse
  pendingAppeals := report.pendingAppeals
  integritySignals := report.integritySignals
  unresolvedTools := report.unresolvedTools
  staleEvidenceRuns := report.staleEvidenceRuns
  failedEvidenceRuns := report.failedEvidenceRuns
  assignedReviewerId := (lastActive report.reviewAssignments).map ReviewAssignment.reviewerId
  assignmentStatus := (lastActive report.reviewAssignments).map ReviewAssignment.status

end NoraInterviewer
