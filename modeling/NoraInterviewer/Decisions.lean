import NoraInterviewer.Planner
import NoraInterviewer.Collaborators

namespace NoraInterviewer

/-- What a service call does once it has loaded the session: commit a new value of it,
or return without a write. -/
inductive Outcome (α : Type) where
  | commit (session : InterviewSession) (result : α)
  | keep (result : α)

/-- The session value that the call commits. -/
def Outcome.written {α : Type} : Outcome α → Option InterviewSession
  | commit session _ => some session
  | keep _ => none

def liftRaised {α : Type} : Except Raised α → Except PyError α
  | .ok a => .ok a
  | .error e => .error (.raised e)

/-- `except ValueError as exc: raise HTTPException(400, str(exc))`. -/
def badRequestOnValueError {α : Type} : Except Raised α → Except PyError α
  | .ok a => .ok a
  | .error e => .error (if e.isValueError then .http 400 e.message [] else .raised e)

def alreadyComplete : PyError := .http 409 "Interview is already complete" []

def isCancelled : PyError := .http 409 "Interview is cancelled" []

variable [CanonicalDigest]

def decisionTurn (call : Ambient) (session : InterviewSession) (decision : AgentDecision)
    (latencyMs : Nat) : Turn where
  id := call.uuid .turn session.turns.length
  speaker := .interviewer
  text := decision.text
  parentTurnId := decision.parentTurnId
  competencyTags := decision.competencyTags
  responseLatencyMs := some latencyMs
  metadata := [
    ("decision_reason", .str decision.reason),
    ("latency_scope", .str (if latencyMs ≠ 0 then "brain_only" else "planner")),
    ("question_lane", .str (laneFor decision).value)]

/-- `for id in tags: if id not in asked: asked.append(id)`. -/
def markAsked (asked : List String) (tags : List String) : List String :=
  tags.foldl (fun asked id => if asked.contains id then asked else asked ++ [id]) asked

/-- The counters of `_apply_decision`. -/
def countDecision (session : InterviewSession) (decision : AgentDecision) : InterviewSession :=
  { session with
    askedQuestions :=
      if laneFor decision = .closing then session.askedQuestions else session.askedQuestions + 1
    askedAnchorCompetencies :=
      if laneFor decision = .anchor
      then markAsked session.askedAnchorCompetencies decision.competencyTags
      else session.askedAnchorCompetencies }

def decisionPayload (session : InterviewSession) (decision : AgentDecision) : Dict Json := [
  ("question_lane", .str (laneFor decision).value),
  ("decision_reason", .str decision.reason),
  ("competency_tags", .ofList decision.competencyTags),
  ("covered_competencies", .ofList session.coveredCompetencies),
  ("asked_questions", .nat session.askedQuestions)]

def applyDecision (call : Ambient) (session : InterviewSession) (decision : AgentDecision)
    (latencyMs : Nat) : Except PyError (InterviewSession × Turn) := do
  let turn := decisionTurn call session decision latencyMs
  let session := countDecision { session with turns := session.turns ++ [turn] } decision
  let session ← appendEvent call session .interviewerTurn (some turn) (decisionPayload session decision)
  pure (session, turn)

def toolOpenedPayload (invocation : ToolInvocation) : Dict Json := [
  ("tool_id", .str invocation.id),
  ("kind", .str invocation.kind.value),
  ("competency_tags", .ofList invocation.competencyTags),
  ("opened_from_turn_id", .ofOption invocation.openedFromTurnId)]

def appendTool (call : Ambient) (session : InterviewSession) (job : JobSpec)
    (invocation : ToolInvocation) : Except PyError InterviewSession :=
  if session.status = .completed then .error alreadyComplete
  else if session.status = .cancelled then .error isCancelled
  else if invocation.id ∈ session.tools.map ToolInvocation.id then
    .error (.http 409 "Tool invocation id already exists" [])
  else
    let unknown := invocation.competencyTags.filter fun tag => tag ∉ job.competencyIds
    if unknown ≠ [] then .error (.http 400 "Tool references unknown competencies: {unknown}" unknown)
    else if given invocation.openedFromTurnId ∧
        invocation.openedFromTurnId.getD "" ∉ session.turns.map Turn.id then
      .error (.http 400 "Tool references unknown opening turn" [])
    else
      appendEvent call { session with tools := session.tools ++ [invocation] } .toolOpened none
        (toolOpenedPayload invocation)

/-- `str(payload["template_id"])` of the tools that have one. -/
def usedTemplates (session : InterviewSession) : List String :=
  session.tools.filterMap fun tool =>
    match tool.payload.lookup "template_id" with
    | some value => if value.truthy then some value.toStr else none
    | none => none

def openRequestedTool (call : Call) (session : InterviewSession) (job : JobSpec)
    (decision : AgentDecision) (openedFromTurnId : String) :
    Except PyError (InterviewSession × Option ToolInvocation) :=
  match decision.toolRequest with
  | none => .ok (session, none)
  | some request =>
    if job.maxTools ≤ session.tools.length then
      .error (.http 409 "Job tool budget has been exhausted" [])
    else if request.templateId ∈ usedTemplates session then
      .error (.http 409 "Tool template already used in this session: {template_id}"
        [request.templateId])
    else
      match job.toolTemplates.find? fun item => item.templateId = request.templateId with
      | none => .error (.http 400 "Brain requested tool template not allowed by job: {template_id}"
          [request.templateId])
      | some allowed =>
        let outside := decision.competencyTags.filter fun tag => tag ∉ allowed.competencyIds
        if allowed.competencyIds ≠ [] ∧ outside ≠ [] then
          .error (.http 400 "Tool request uses competencies outside its job policy: {outside}"
            (outside.dedup.mergeSort (· ≤ ·)))
        else do
          let invocation ← badRequestOnValueError (instantiateTemplate call session
            request.templateId decision.competencyTags (some openedFromTurnId))
          let session ← appendTool call.toAmbient session job invocation
          pure (session, some invocation)

/-- The tail of `answer` and of `submit_tool`: count a follow-up on its first competency. -/
def countFollowup (session : InterviewSession) (decision : AgentDecision) : InterviewSession :=
  match decision.competencyTags with
  | [] => session
  | key :: _ =>
    if given decision.parentTurnId then
      let count := (session.followupsByCompetency.lookup key).getD 0 + 1
      { session with
        followupsByCompetency := Dict.set key count session.followupsByCompetency }
    else session

/-- `if decision.completes_interview: ...` at the end of `answer` and of `submit_tool`. -/
def completeIfAsked (call : Ambient) (session : InterviewSession) (decision : AgentDecision) :
    Except PyError InterviewSession :=
  if decision.completesInterview then
    appendEvent call { session with
      status := .completed
      completedAt := session.completedAt.or (some (call.now .completed)) } .sessionCompleted
  else .ok session

end NoraInterviewer
