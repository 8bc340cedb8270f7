import NoraInterviewer.Values

namespace NoraInterviewer

/-- Microseconds since the epoch, UTC. -/
abbrev DateTime := Nat

inductive SessionStatus where
  | created | running | completed | cancelled
  deriving DecidableEq, Repr

inductive Speaker where
  | interviewer | candidate | system
  deriving DecidableEq, Repr

inductive QuestionLane where
  | anchor | adaptive | closing
  deriving DecidableEq, Repr

inductive EvidenceState where
  | unknown | claimed | demonstrated | verified | contradicted | insufficient
  deriving DecidableEq, Repr

inductive AppealStatus where
  | pending | reviewed
  deriving DecidableEq, Repr

inductive IntegrityReviewStatus where
  | pending | reviewed
  deriving DecidableEq, Repr

inductive IntegrityLevel where
  | none | identity | passiveSignals | secure | proctored
  deriving DecidableEq, Repr

inductive CandidateControlKind where
  | repeat | clarify | thinkingTime | resume | correctLastAnswer | candidateQuestion
  deriving DecidableEq, Repr

inductive ToolKind where
  | coding | caseStudy | whiteboard | document | dataset
  deriving DecidableEq, Repr

inductive ToolStatus where
  | open | submitted | evaluated | cancelled
  deriving DecidableEq, Repr

inductive EventType where
  | sessionCreated | interviewStarted | interviewerTurn | candidateTurn | candidateControl
  | transcriptCorrected | appealSubmitted | appealReviewed | evidenceObserved
  | evidenceJudgeFailed | evidenceJudgeDisagreement | evidenceJudgeRunRecorded
  | evidenceSuperseded | integritySignal | integrityReviewed | reviewAssigned | reviewStarted
  | reviewCompleted | reviewAssignmentCancelled | toolOpened | toolSubmitted | toolEvaluated
  | toolCancelled | voiceSpeechStarted | voiceTranscriptPartial | voiceTranscriptFinal
  | voiceResponseReady | voiceTtsStarted | voiceTtsCompleted | voiceTtsCancelled
  | voiceBargeIn | voiceProviderFailed | voiceTransportSelected | voiceTransportFallback
  | voiceVadEndpoint | artifactCreated | artifactAccessed | artifactDeleted
  | webhookDelivery | sessionCompleted | sessionCancelled
  deriving DecidableEq, Repr

def QuestionLane.value : QuestionLane → String
  | anchor => "anchor"
  | adaptive => "adaptive"
  | closing => "closing"

def EvidenceState.value : EvidenceState → String
  | unknown => "unknown"
  | claimed => "claimed"
  | demonstrated => "demonstrated"
  | verified => "verified"
  | contradicted => "contradicted"
  | insufficient => "insufficient_evidence"

def IntegrityLevel.value : IntegrityLevel → String
  | none => "none"
  | identity => "identity"
  | passiveSignals => "passive_signals"
  | secure => "secure"
  | proctored => "proctored"

def CandidateControlKind.value : CandidateControlKind → String
  | .repeat => "repeat"
  | clarify => "clarify"
  | thinkingTime => "thinking_time"
  | resume => "resume"
  | correctLastAnswer => "correct_last_answer"
  | candidateQuestion => "candidate_question"

def ToolKind.value : ToolKind → String
  | coding => "coding"
  | caseStudy => "case_study"
  | whiteboard => "whiteboard"
  | document => "document"
  | dataset => "dataset"

def ToolStatus.value : ToolStatus → String
  | .open => "open"
  | submitted => "submitted"
  | evaluated => "evaluated"
  | cancelled => "cancelled"

def EventType.value : EventType → String
  | sessionCreated => "session_created"
  | interviewStarted => "interview_started"
  | interviewerTurn => "interviewer_turn"
  | candidateTurn => "candidate_turn"
  | candidateControl => "candidate_control"
  | transcriptCorrected => "transcript_corrected"
  | appealSubmitted => "appeal_submitted"
  | appealReviewed => "appeal_reviewed"
  | evidenceObserved => "evidence_observed"
  | evidenceJudgeFailed => "evidence_judge_failed"
  | evidenceJudgeDisagreement => "evidence_judge_disagreement"
  | evidenceJudgeRunRecorded => "evidence_judge_run_recorded"
  | evidenceSuperseded => "evidence_superseded"
  | integritySignal => "integrity_signal"
  | integrityReviewed => "integrity_reviewed"
  | reviewAssigned => "review_assigned"
  | reviewStarted => "review_started"
  | reviewCompleted => "review_completed"
  | reviewAssignmentCancelled => "review_assignment_cancelled"
  | toolOpened => "tool_opened"
  | toolSubmitted => "tool_submitted"
  | toolEvaluated => "tool_evaluated"
  | toolCancelled => "tool_cancelled"
  | voiceSpeechStarted => "voice_speech_started"
  | voiceTranscriptPartial => "voice_transcript_partial"
  | voiceTranscriptFinal => "voice_transcript_final"
  | voiceResponseReady => "voice_response_ready"
  | voiceTtsStarted => "voice_tts_started"
  | voiceTtsCompleted => "voice_tts_completed"
  | voiceTtsCancelled => "voice_tts_cancelled"
  | voiceBargeIn => "voice_barge_in"
  | voiceProviderFailed => "voice_provider_failed"
  | voiceTransportSelected => "voice_transport_selected"
  | voiceTransportFallback => "voice_transport_fallback"
  | voiceVadEndpoint => "voice_vad_endpoint"
  | artifactCreated => "artifact_created"
  | artifactAccessed => "artifact_accessed"
  | artifactDeleted => "artifact_deleted"
  | webhookDelivery => "webhook_delivery"
  | sessionCompleted => "session_completed"
  | sessionCancelled => "session_cancelled"

/-- A float field with `ge=0.0, le=1.0`. -/
abbrev UnitScore := { q : ℚ // 0 ≤ q ∧ q ≤ 1 }

structure JobToolTemplate where
  templateId : String
  purpose : String
  competencyIds : List String

structure Competency where
  id : String
  description : String
  weight : ℚ := 1
  anchorQuestion : Option String := none

/-- A job; the fields after `maxTools` are what its validators admit. -/
structure JobSpec where
  id : String
  organizationId : Option String := none
  title : String
  description : String
  competencies : List Competency
  maxQuestions : Nat := 8
  anchorRatio : ℚ := 2 / 5
  toolTemplates : List JobToolTemplate := []
  maxTools : Nat := 2
  competencies_ne_nil : competencies ≠ []
  anchor_questions_given : ∀ c ∈ competencies, ∀ q, c.anchorQuestion = some q → 4 ≤ q.length
  maxQuestions_range : 1 ≤ maxQuestions ∧ maxQuestions ≤ 30
  anchorRatio_range : 0 ≤ anchorRatio ∧ anchorRatio ≤ 1
  maxTools_range : maxTools ≤ 10
  competency_ids_nodup : (competencies.map Competency.id).Nodup
  template_ids_nodup : (toolTemplates.map JobToolTemplate.templateId).Nodup
  template_competencies_known :
    ∀ item ∈ toolTemplates, ∀ id ∈ item.competencyIds, id ∈ competencies.map Competency.id

def JobSpec.competencyIds (job : JobSpec) : List String := job.competencies.map Competency.id

structure CreateSession where
  jobId : String
  candidateRef : String
  locale : String := "en"
  consentToAiInterview : Bool
  consentToTranscript : Bool
  integrityLevel : IntegrityLevel := .none

structure Turn where
  id : String
  speaker : Speaker
  text : String
  parentTurnId : Option String := none
  competencyTags : List String := []
  responseLatencyMs : Option Nat := none
  metadata : Dict Json := []

/-- `turn.metadata.get(key)` read as a condition. -/
def Turn.flagged (turn : Turn) (key : String) : Bool :=
  (turn.metadata.lookup key).any Json.truthy

structure CandidateControlRequest where
  kind : CandidateControlKind
  text : Option String := none

structure CandidateControlResult where
  kind : CandidateControlKind
  interviewerTurn : Option Turn := none
  targetTurnId : Option String := none
  pausesInterview : Bool := false

structure EvidenceItem where
  id : String
  turnId : String
  state : EvidenceState
  confidence : UnitScore
  quote : Option String := none
  note : String
  source : String := "interview"
  judgeRunId : Option String := none
  active : Bool := true

structure EvidenceJudgeRun where
  id : String
  judgeId : String
  questionTurnId : String
  answerTurnId : String
  competencyIds : List String := []
  createdAt : DateTime
  transcriptRevisionCount : Nat := 0
  observationIds : List String := []
  audit : Dict Json := []
  errorType : Option String := none
  error : Option String := none
  supersedesRunId : Option String := none

structure CompetencyEvidence where
  competencyId : String
  state : EvidenceState := .unknown
  confidence : Option UnitScore := none
  evidence : List EvidenceItem := []

structure TranscriptRevision where
  id : String
  turnId : String
  originalText : String
  correctedText : String
  reason : Option String := none

structure TranscriptCorrectionRequest where
  turnId : String
  correctedText : String
  reason : Option String := none

structure CandidateAppeal where
  id : String
  message : String
  turnIds : List String := []
  status : AppealStatus := .pending
  reviewedBy : Option String := none
  reviewNote : Option String := none

structure CandidateAppealRequest where
  message : String
  turnIds : List String := []

structure AppealReviewRequest where
  reviewerId : String
  note : String

structure IntegritySignal where
  id : String
  kind : String
  confidence : UnitScore
  note : String
  evidence : Dict Json := []
  requiresHumanReview : Bool := true
  reviewStatus : IntegrityReviewStatus := .pending
  reviewedBy : Option String := none
  reviewNote : Option String := none

structure IntegritySignalRequest where
  kind : String
  confidence : UnitScore
  note : String
  evidence : Dict Json := []

structure IntegrityReviewRequest where
  reviewerId : String
  note : String

structure ToolInvocation where
  id : String
  kind : ToolKind
  title : String
  instructions : String
  competencyTags : List String := []
  status : ToolStatus := .open
  payload : Dict Json := []
  openedFromTurnId : Option String := none

structure ToolSubmissionRequest where
  content : Dict Json := []

structure ToolSubmission where
  id : String
  toolId : String
  content : Dict Json := []

structure ToolEvaluation where
  toolId : String
  submissionId : String
  passed : Option Bool := none
  score : Option UnitScore := none
  summary : String
  evidence : Dict Json := []

structure InterviewEvent where
  seq : Nat
  type : EventType
  turnId : Option String := none
  payload : Dict Json := []
  createdAt : DateTime
  hashVersion : Option Nat := none
  prevHash : Option String := none
  eventHash : Option String := none

/-- A session as one Python object graph. `sharedMetadata` lists the places where
two parts of it are one dict: `(e, t)` says that the `"metadata"` entry of the
payload of `events[e]` is the very dict that `turns[t].metadata` holds. -/
structure InterviewSession where
  id : String
  version : Nat := 0
  createdAt : DateTime
  completedAt : Option DateTime := none
  cancelledAt : Option DateTime := none
  cancellationReason : Option String := none
  jobId : String
  candidateRef : String
  organizationId : Option String := none
  locale : String
  integrityLevel : IntegrityLevel := .none
  status : SessionStatus := .created
  paused : Bool := false
  turns : List Turn := []
  coveredCompetencies : List String := []
  followupsByCompetency : Dict Nat := []
  askedAnchorCompetencies : List String := []
  askedQuestions : Nat := 0
  evidenceGraph : Dict CompetencyEvidence := []
  evidenceJudgeRuns : List EvidenceJudgeRun := []
  transcriptRevisions : List TranscriptRevision := []
  appeals : List CandidateAppeal := []
  integritySignals : List IntegritySignal := []
  tools : List ToolInvocation := []
  toolSubmissions : List ToolSubmission := []
  toolEvaluations : List ToolEvaluation := []
  events : List InterviewEvent := []
  sharedMetadata : List (Nat × Nat) := []

structure CancelSessionRequest where
  reason : String

structure AgentToolRequest where
  templateId : String

structure AgentDecision where
  text : String
  competencyTags : List String := []
  parentTurnId : Option String := none
  completesInterview : Bool := false
  toolRequest : Option AgentToolRequest := none
  reason : String

structure SessionStep where
  sessionId : String
  status : SessionStatus
  interviewerTurn : Option Turn := none
  toolInvocation : Option ToolInvocation := none

structure ToolStep where
  toolId : String
  evaluation : ToolEvaluation
  interviewerTurn : Option Turn := none
  nextToolInvocation : Option ToolInvocation := none
  status : SessionStatus

structure EvidenceObservation where
  competencyId : String
  turnId : String
  state : EvidenceState
  confidence : UnitScore
  quote : Option String := none
  note : String
  source : String := "evaluator"
  judgeRunId : Option String := none

/-- A judge finding; the last two fields are its validator. -/
structure JudgeFinding where
  competencyId : String
  state : EvidenceState
  confidence : UnitScore
  quote : Option String := none
  rationale : String
  not_verified : state ≠ .verified
  quoted : state = .demonstrated ∨ state = .contradicted → given quote = true

structure JudgeResponse where
  findings : List JudgeFinding := []
  audit : Dict Json := []

end NoraInterviewer
