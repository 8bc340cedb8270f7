import NoraInterviewer.Decisions
import NoraInterviewer.Judging

namespace NoraInterviewer

variable [CanonicalDigest]

/-- `InterviewService.create_session` up to its commit; the session is stored as version 1. -/
def createSession (call : Call) (request : CreateSession) (organizationId : Option String) :
    Except PyError InterviewSession :=
  if !request.consentToAiInterview || !request.consentToTranscript then
    .error (.http 400 "Explicit consent to the AI interview and transcript is required." [])
  else
    match call.job with
    | none => .error (.http 404 "Job not found" [])
    | some job =>
      if organizationId.isSome ∧ job.organizationId = none then
        .error (.http 403
          "Organization-scoped identity cannot create a session for an unscoped job" [])
      else if organizationId.isSome ∧ job.organizationId ≠ organizationId then
        .error (.http 403 "Job belongs to a different organization" [])
      else
        appendEvent call.toAmbient {
            id := call.uuid .session 0
            createdAt := call.now .created
            jobId := job.id
            candidateRef := request.candidateRef
            organizationId := job.organizationId
            locale := request.locale
            integrityLevel := request.integrityLevel
            evidenceGraph := initializeEvidence job [] } .sessionCreated none [
          ("job_id", .str job.id),
          ("organization_id", .ofOption job.organizationId),
          ("locale", .str request.locale),
          ("integrity_level", .str request.integrityLevel.value)]

/-- The first decision: the planner's anchor, or else the brain's opening. -/
def openingDecision (call : Call) (session : InterviewSession) (job : JobSpec) :
    Except PyError (InterviewSession × AgentDecision × Nat) :=
  match nextAnchor session job with
  | some decision => .ok (session, decision, 0)
  | none => do
    let (decision, covered) ← liftRaised (call.brain.opening session job)
    pure ({ session with coveredCompetencies := covered }, decision, call.latencyMs)

/-- `InterviewService.start` on the session it loaded. -/
def start (call : Call) (session : InterviewSession) (job : JobSpec) :
    Except PyError (Outcome SessionStep) :=
  if session.status = .completed ∨ session.status = .cancelled then
    .ok (.keep { sessionId := session.id, status := session.status })
  else if session.status = .running ∧ session.turns ≠ [] then
    .ok (.keep {
      sessionId := session.id
      status := session.status
      interviewerTurn := session.turns.getLast?.filter fun last => last.speaker = .interviewer })
  else do
    let session ← appendEvent call.toAmbient session .interviewStarted
    let (session, decision, latencyMs) ← openingDecision call session job
    let (session, turn) ← applyDecision call.toAmbient session decision latencyMs
    let (session, toolInvocation) ← openRequestedTool call session job decision turn.id
    let session := { session with status := .running }
    pure (.commit session {
      sessionId := session.id, status := session.status, interviewerTurn := some turn, toolInvocation })

/-- The interviewer turn that the next answer replies to. -/
def Turn.evaluative (turn : Turn) : Bool :=
  turn.speaker = .interviewer && !turn.flagged "non_evaluative" && !turn.flagged "candidate_control"

def previousQuestion (session : InterviewSession) : Option Turn :=
  session.turns.reverse.find? Turn.evaluative

def claimPayload (item : EvidenceItem) : Dict Json := [
  ("evidence_id", .str item.id),
  ("state", .str item.state.value),
  ("source", .str item.source)]

def recordClaimEvents (call : Ambient) (candidate : Turn) :
    List EvidenceItem → InterviewSession → Except PyError InterviewSession
  | [], session => .ok session
  | item :: rest, session => do
    let session ← appendEvent call session .evidenceObserved (some candidate) (claimPayload item)
    recordClaimEvents call candidate rest session

/-- The candidate turn and its event. The payload holds the turn's own metadata dict, not a copy. -/
def recordAnswerTurn (call : Ambient) (session : InterviewSession) (text : String)
    (turnMetadata : Dict Json) : Except PyError (InterviewSession × Turn) := do
  let candidate : Turn := {
    id := call.uuid .turn session.turns.length
    speaker := .candidate
    text
    parentTurnId := (previousQuestion session).map Turn.id
    metadata := turnMetadata }
  let session := { session with
    turns := session.turns ++ [candidate]
    sharedMetadata := session.sharedMetadata ++ [(session.events.length, session.turns.length)] }
  let session ← appendEvent call session .candidateTurn (some candidate) [
    ("parent_turn_id", .ofOption candidate.parentTurnId),
    ("metadata", .obj candidate.metadata)]
  pure (session, candidate)

/-- The claims that an answer to a tagged question records, and their judgement. -/
def recordAnswerEvidence (call : Call) (session : InterviewSession) (job : JobSpec)
    (question : Option Turn) (candidate : Turn) : Except PyError InterviewSession :=
  match question with
  | none => .ok session
  | some question =>
    if question.competencyTags = [] then .ok session
    else do
      let (session, created) ← recordCandidateClaim call.toAmbient session question.id candidate.id
        question.competencyTags
      let session ← recordClaimEvents call.toAmbient candidate created session
      let (session, _) ← judgeCandidateEvidence call session job question candidate
      pure session

/-- A follow-up of the brain goes first; otherwise the planner may put an anchor in its place. -/
def decideAfterAnswer (call : Call) (session : InterviewSession) (job : JobSpec) :
    Except PyError (InterviewSession × AgentDecision × Nat) := do
  let (adaptiveDecision, covered) ← liftRaised (call.brain.afterAnswer session job)
  let session := { session with coveredCompetencies := covered }
  if given adaptiveDecision.parentTurnId then pure (session, adaptiveDecision, call.latencyMs)
  else
    let decision := (nextAnchor session job).getD adaptiveDecision
    pure (session, decision, if laneFor decision = .anchor then 0 else call.latencyMs)

/-- `answer` up to the session that the brain is shown. -/
def prepareAnswer (call : Call) (session : InterviewSession) (job : JobSpec) (text : String)
    (turnMetadata : Dict Json) : Except PyError InterviewSession :=
  if session.status = .completed then .error alreadyComplete
  else if session.status = .cancelled then .error isCancelled
  else if session.paused then
    .error (.http 409 "Interview is paused; send a resume candidate control first." [])
  else do
    let question := previousQuestion session
    let (session, candidate) ← recordAnswerTurn call.toAmbient session text turnMetadata
    recordAnswerEvidence call session job question candidate

/-- `InterviewService.answer` on the session it loaded last, which has been started. -/
def answer (call : Call) (session : InterviewSession) (job : JobSpec) (text : String)
    (turnMetadata : Dict Json) : Except PyError (Outcome SessionStep) := do
  let session ← prepareAnswer call session job text turnMetadata
  let (session, decision, latencyMs) ← decideAfterAnswer call session job
  let (session, interviewer) ← applyDecision call.toAmbient session decision latencyMs
  let session := countFollowup session decision
  let (session, toolInvocation) ← openRequestedTool call session job decision interviewer.id
  let session ← completeIfAsked call.toAmbient session decision
  pure (.commit session {
    sessionId := session.id, status := session.status, interviewerTurn := some interviewer,
    toolInvocation })

/-- The loop of `cancel_session`: `before` are the tools it has passed. -/
def cancelTools (call : Ambient) (before : List ToolInvocation) :
    List ToolInvocation → InterviewSession → Except PyError (InterviewSession × List String)
  | [], session => .ok (session, [])
  | tool :: rest, session =>
    if tool.status = .open ∨ tool.status = .submitted then do
      let cancelled := { tool with status := .cancelled }
      let session ← appendEvent call { session with tools := before ++ cancelled :: rest }
        .toolCancelled none [
          ("tool_id", .str tool.id),
          ("kind", .str tool.kind.value),
          ("reason", .str "session_cancelled")]
      let (session, cancelledTools) ← cancelTools call (before ++ [cancelled]) rest session
      pure (session, tool.id :: cancelledTools)
    else cancelTools call (before ++ [tool]) rest session

/-- `InterviewService.cancel_session` on the session it loaded. -/
def cancelSession (call : Call) (session : InterviewSession) (request : CancelSessionRequest) :
    Except PyError (Outcome InterviewSession) :=
  if session.status = .completed then
    .error (.http 409 "Completed interviews cannot be cancelled" [])
  else if session.status = .cancelled then .ok (.keep session)
  else do
    let (session, cancelledTools) ← cancelTools call.toAmbient [] session.tools session
    let session := { session with
      paused := false
      status := .cancelled
      cancelledAt := some (call.now .cancelled)
      cancellationReason := some request.reason }
    let session ← appendEvent call.toAmbient session .sessionCancelled none [
      ("reason", .str request.reason),
      ("cancelled_tool_ids", .ofList cancelledTools)]
    pure (.commit session session)

end NoraInterviewer
