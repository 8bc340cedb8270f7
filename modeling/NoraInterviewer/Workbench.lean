import NoraInterviewer.Interview

namespace NoraInterviewer

variable [CanonicalDigest]

/-- `InterviewService.open_tool`. -/
def openTool (call : Call) (session : InterviewSession) (job : JobSpec)
    (invocation : ToolInvocation) : Except PyError (Outcome ToolInvocation) := do
  let session ← appendTool call.toAmbient session job invocation
  pure (.commit session invocation)

/-- `InterviewService.open_coding_challenge`. -/
def openCodingChallenge (call : Call) (session : InterviewSession) (job : JobSpec)
    (request : CodingChallengeRequest) : Except PyError (Outcome ToolInvocation) :=
  let unknown := request.competencyTags.filter fun tag => tag ∉ job.competencyIds
  if unknown ≠ [] then
    .error (.http 400 "Coding challenge references unknown competencies: {unknown}" unknown)
  else if given request.openedFromTurnId ∧
      request.openedFromTurnId.getD "" ∉ session.turns.map Turn.id then
    .error (.http 400 "Coding challenge references unknown opening turn" [])
  else do
    let invocation := createChallenge call.toAmbient session.tools.length request
    let session ← appendTool call.toAmbient session job invocation
    pure (.commit session invocation)

/-- `invocation.status = status` on the tool object that `next(...)` found. -/
def setToolStatus (toolId : String) (status : ToolStatus) : List ToolInvocation → List ToolInvocation
  | [] => []
  | tool :: rest =>
    if tool.id = toolId then { tool with status } :: rest
    else tool :: setToolStatus toolId status rest

def artifactTurn (call : Ambient) (session : InterviewSession) (invocation : ToolInvocation)
    (submission : ToolSubmission) : Turn where
  id := call.uuid .turn session.turns.length
  speaker := .candidate
  text := s!"[{invocation.kind.value} artifact submitted]"
  parentTurnId := invocation.openedFromTurnId
  competencyTags := invocation.competencyTags
  metadata := [
    ("artifact", .bool true),
    ("tool_id", .str invocation.id),
    ("tool_submission_id", .str submission.id),
    ("tool_kind", .str invocation.kind.value)]

/-- The submission, its event, the artifact turn and its event. -/
def recordSubmission (call : Ambient) (session : InterviewSession) (invocation : ToolInvocation)
    (submission : ToolSubmission) : Except PyError (InterviewSession × Turn) := do
  let session := { session with
    toolSubmissions := session.toolSubmissions ++ [submission]
    tools := setToolStatus invocation.id .submitted session.tools }
  let session ← appendEvent call session .toolSubmitted none [
    ("tool_id", .str invocation.id),
    ("submission_id", .str submission.id),
    ("artifact_keys", .ofList ((submission.content.map Prod.fst).mergeSort (· ≤ ·)))]
  let turn := artifactTurn call session invocation submission
  let session ← appendEvent call { session with turns := session.turns ++ [turn] }
    .candidateTurn (some turn) [
      ("artifact", .bool true),
      ("tool_id", .str invocation.id),
      ("submission_id", .str submission.id)]
  pure (session, turn)

def recordEvaluation (call : Ambient) (session : InterviewSession) (invocation : ToolInvocation)
    (submission : ToolSubmission) (evaluation : ToolEvaluation) : Except PyError InterviewSession :=
  appendEvent call { session with
      toolEvaluations := session.toolEvaluations ++ [evaluation]
      tools := setToolStatus invocation.id .evaluated session.tools } .toolEvaluated none [
    ("tool_id", .str invocation.id),
    ("submission_id", .str submission.id),
    ("passed", evaluation.passed.elim .null .bool),
    ("score", evaluation.score.elim .null fun score => .num score.val),
    ("summary", .str evaluation.summary)]

/-- One observation for each competency of an evaluated tool. -/
def observeTool (call : Ambient) (job : JobSpec) (invocation : ToolInvocation) (turn : Turn)
    (evaluation : ToolEvaluation) (state : EvidenceState) :
    List String → InterviewSession → Except PyError InterviewSession
  | [], session => .ok session
  | competencyId :: rest, session => do
    let observation : EvidenceObservation := {
      competencyId
      turnId := turn.id
      state
      confidence := UnitScore.one
      note := evaluation.summary
      source := s!"tool:{invocation.kind.value}" }
    let (session, item) ← applyObservation call session job observation
    let session ← appendEvent call session .evidenceObserved (some turn) [
      ("evidence_id", .str item.id),
      ("competency_id", .str competencyId),
      ("state", .str state.value),
      ("confidence", .num observation.confidence.val),
      ("source", .str observation.source)]
    observeTool call job invocation turn evaluation state rest session

def recordToolEvidence (call : Ambient) (session : InterviewSession) (job : JobSpec)
    (invocation : ToolInvocation) (turn : Turn) (evaluation : ToolEvaluation) :
    Except PyError InterviewSession :=
  match evaluation.passed with
  | none => .ok session
  | some passed =>
    observeTool call job invocation turn evaluation
      (if passed then .demonstrated else .insufficient) invocation.competencyTags session

/-- What `submit_tool` shows to the brain. -/
structure ToolWork where
  session : InterviewSession
  invocation : ToolInvocation
  submission : ToolSubmission
  evaluation : ToolEvaluation

/-- `submit_tool` up to the brain's turn. -/
def prepareTool (call : Call) (session : InterviewSession) (job : JobSpec) (toolId : String)
    (request : ToolSubmissionRequest) : Except PyError ToolWork :=
  if session.status = .completed then .error alreadyComplete
  else if session.status = .cancelled then .error isCancelled
  else
    match session.tools.find? fun tool => tool.id = toolId with
    | none => .error (.http 404 "Tool invocation not found" [])
    | some invocation =>
      if invocation.status ≠ .open then
        .error (.http 409 "Tool is not open: {status}" [invocation.status.value])
      else do
        let submission : ToolSubmission := {
          id := call.uuid .submission session.toolSubmissions.length
          toolId
          content := request.content }
        let (session, turn) ← recordSubmission call.toAmbient session invocation submission
        let submitted := { invocation with status := .submitted }
        let evaluation ← badRequestOnValueError (call.evaluate submitted submission session job)
        let session ← recordEvaluation call.toAmbient session invocation submission evaluation
        let session ← recordToolEvidence call.toAmbient session job invocation turn evaluation
        pure { session, invocation := { invocation with status := .evaluated }, submission, evaluation }

def decideAfterTool (call : Call) (work : ToolWork) (job : JobSpec) :
    Except PyError (InterviewSession × AgentDecision) := do
  let (decision, covered) ← liftRaised
    (call.brain.afterTool work.session job work.invocation work.submission work.evaluation)
  pure ({ work.session with coveredCompetencies := covered }, decision)

/-- `InterviewService.submit_tool` on the session it loaded. -/
def submitTool (call : Call) (session : InterviewSession) (job : JobSpec) (toolId : String)
    (request : ToolSubmissionRequest) : Except PyError (Outcome ToolStep) := do
  let work ← prepareTool call session job toolId request
  let (session, decision) ← decideAfterTool call work job
  let (session, interviewer) ← applyDecision call.toAmbient session decision call.latencyMs
  let (session, nextToolInvocation) ← openRequestedTool call session job decision interviewer.id
  let session := countFollowup session decision
  let session ← completeIfAsked call.toAmbient session decision
  pure (.commit session {
    toolId, evaluation := work.evaluation, interviewerTurn := some interviewer, nextToolInvocation,
    status := session.status })

end NoraInterviewer
