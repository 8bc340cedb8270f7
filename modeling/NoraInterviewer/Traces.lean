import NoraInterviewer.Audit

/-! `export_voxrubric`. The values that `model_dump` renders are kept as they are. -/

namespace NoraInterviewer

def Speaker.value : Speaker → String
  | .interviewer => "interviewer"
  | .candidate => "candidate"
  | .system => "system"

def SessionStatus.value : SessionStatus → String
  | .created => "created"
  | .running => "running"
  | .completed => "completed"
  | .cancelled => "cancelled"

structure TraceTurn where
  id : String
  speaker : String
  text : String
  parentTurnId : Option String
  rubricTags : List String
  responseLatencyMs : Option Nat
  metadata : Dict Json

structure TraceVoiceEvent where
  seq : Nat
  type : String
  turnId : Option String
  payload : Dict Json

structure TraceJudgeFailure where
  seq : Nat
  turnId : Option String
  payload : Dict Json

structure LanguageProfile where
  turnId : String
  locale : Json
  dialect : Json
  codeSwitchDetected : Json
  codeSwitchExpected : Json
  technicalVocabularyPacks : Json
  technicalTermsDetected : Json
  asrReferenceText : Json
  asrCriticalTerms : Json

/-- Of the audit chain: whether it was verified, its head and its length. -/
structure AuditAnchor where
  verified : Option Bool
  headHash : Option String
  eventCount : Nat
  hashVersion : Option Nat
  deriving DecidableEq

structure TraceMetadata where
  source : String := "nora-interviewer"
  jobId : String
  candidateRef : String
  status : String
  anchorRatioTarget : ℚ
  anchorTurns : Nat
  interviewerTurns : Nat
  candidateControls : List (Dict Json)
  voiceEvents : List TraceVoiceEvent
  languageProfiles : List LanguageProfile
  asrPreservationTurnIds : List String
  codeSwitchTurnIds : List String
  evidenceJudgeFailures : List TraceJudgeFailure
  auditChain : AuditAnchor
  auditEvents : List InterviewEvent
  evidenceGraph : Dict CompetencyEvidence
  evidenceJudgeRuns : List EvidenceJudgeRun
  transcriptRevisions : List TranscriptRevision
  appeals : List CandidateAppeal
  integrityLevel : String
  integritySignals : List IntegritySignal
  tools : List ToolInvocation
  toolSubmissions : List ToolSubmission
  toolEvaluations : List ToolEvaluation
  eventCount : Nat

/-- `VoxRubricTrace`; the service never sets its scorecards. -/
structure VoxRubricTrace where
  sessionId : String
  role : String
  locale : String
  turns : List TraceTurn
  scorecards : List (Dict Json) := []
  metadata : TraceMetadata

def Turn.traced (turn : Turn) : TraceTurn where
  id := turn.id
  speaker := turn.speaker.value
  text := turn.text
  parentTurnId := turn.parentTurnId
  rubricTags := turn.competencyTags
  responseLatencyMs := turn.responseLatencyMs
  metadata := turn.metadata

/-- `turn.metadata.get("question_lane") == lane` of an interviewer turn. -/
def Turn.asksInLane (turn : Turn) (lane : QuestionLane) : Bool :=
  turn.speaker = .interviewer && (turn.metadata.lookup "question_lane").any (Json.isStr lane.value)

def languageProfile (turn : Turn) : Option LanguageProfile :=
  let has key := (turn.metadata.lookup key).isSome
  let get key := (turn.metadata.lookup key).getD .null
  let getList key := (turn.metadata.lookup key).getD (.arr [])
  if turn.speaker = .candidate ∧
      (has "asr_locale" ∨ has "asr_reference_text" ∨ has "asr_critical_terms") then
    some {
      turnId := turn.id
      locale := get "asr_locale"
      dialect := get "asr_dialect"
      codeSwitchDetected := get "code_switch_detected"
      codeSwitchExpected := get "code_switch_expected"
      technicalVocabularyPacks := getList "technical_vocabulary_packs"
      technicalTermsDetected := getList "technical_terms_detected"
      asrReferenceText := get "asr_reference_text"
      asrCriticalTerms := getList "asr_critical_terms" }
  else none

def Json.isNull : Json → Bool
  | .null => true
  | _ => false

def auditAnchor (head : Option String) (events : List InterviewEvent) : AuditAnchor where
  verified := if head.isSome then some true else none
  headHash := head
  eventCount := events.length
  hashVersion := if head.isSome then some 1 else none

variable [CanonicalDigest]

/-- `InterviewService.export_voxrubric` on the session and the job that it loaded. -/
def exportVoxrubric (session : InterviewSession) (job : JobSpec) : Except PyError VoxRubricTrace := do
  let languageProfiles := session.turns.filterMap languageProfile
  let auditHeadHash ← verifyEventChain session.events
  pure {
    sessionId := session.id
    role := job.title
    locale := session.locale
    turns := session.turns.map Turn.traced
    metadata := {
      jobId := job.id
      candidateRef := session.candidateRef
      status := session.status.value
      anchorRatioTarget := job.anchorRatio
      anchorTurns := session.turns.countP fun turn => turn.asksInLane .anchor
      interviewerTurns := session.askedQuestions
      candidateControls := (session.events.filter fun event => event.type = .candidateControl).map
        InterviewEvent.payload
      voiceEvents := (session.events.filter fun event => startsWith event.type.value "voice_").map
        fun event => ⟨event.seq, event.type.value, event.turnId, event.payload⟩
      languageProfiles
      asrPreservationTurnIds := (languageProfiles.filter fun item =>
        !item.asrReferenceText.isNull || item.asrCriticalTerms.truthy).map LanguageProfile.turnId
      codeSwitchTurnIds := (languageProfiles.filter fun item => item.codeSwitchDetected.truthy).map
        LanguageProfile.turnId
      evidenceJudgeFailures :=
        (session.events.filter fun event => event.type = .evidenceJudgeFailed).map
          fun event => ⟨event.seq, event.turnId, event.payload⟩
      auditChain := auditAnchor auditHeadHash session.events
      auditEvents := session.events
      evidenceGraph := session.evidenceGraph
      evidenceJudgeRuns := session.evidenceJudgeRuns
      transcriptRevisions := session.transcriptRevisions
      appeals := session.appeals
      integrityLevel := session.integrityLevel.value
      integritySignals := session.integritySignals
      tools := session.tools
      toolSubmissions := session.toolSubmissions
      toolEvaluations := session.toolEvaluations
      eventCount := session.events.length } }

end NoraInterviewer
