import NoraInterviewer.RuleBased

namespace NoraInterviewer

inductive BrainAction where
  | followUp | advance | openTool | complete
  deriving DecidableEq, Repr

def BrainAction.value : BrainAction → String
  | followUp => "follow_up"
  | advance => "advance"
  | openTool => "open_tool"
  | complete => "complete"

/-- What a model replies; the last three fields are the bounds of the schema. -/
structure BrainOutput where
  action : BrainAction
  text : String
  competencyIds : List String := []
  toolTemplateId : Option String := none
  reason : String
  text_range : 2 ≤ text.length ∧ text.length ≤ 2000
  toolTemplateId_range : ∀ id, toolTemplateId = some id → id.length ≤ 160
  reason_range : 2 ≤ reason.length ∧ reason.length ≤ 500

theorem no_template_range (id : String) (h : none = some id) : id.length ≤ 160 := by
  cases h

/-- What the prompt tells the model besides the session and the job. -/
inductive Phase where
  | opening
  | afterAnswer
  | afterTool (invocation : ToolInvocation) (submission : ToolSubmission) (evaluation : ToolEvaluation)

/-- A model: its reply to the prompt, or what the request, the parser or the schema raises. -/
abbrev Model := Phase → InterviewSession → JobSpec → Except Raised BrainOutput

namespace LlmBrain

/-- The checks of an `open_tool` action. -/
def checkTool (session : InterviewSession) (job : JobSpec) (output : BrainOutput) :
    Except Raised BrainOutput :=
  if !given output.toolTemplateId then
    .error (.valueError "open_tool action requires tool_template_id")
  else
    let templateId := output.toolTemplateId.getD ""
    match job.toolTemplates.find? fun item => item.templateId = templateId with
    | none => .error (.valueError s!"model requested unauthorized tool template: {templateId}")
    | some allowed =>
      if job.maxTools ≤ session.tools.length then
        .error (.valueError "model requested a tool after the job tool budget was exhausted")
      else if templateId ∈ usedTemplates session then
        .error (.valueError s!"model requested a tool template already used: {templateId}")
      else
        let outside := output.competencyIds.filter fun id => id ∉ allowed.competencyIds
        if allowed.competencyIds ≠ [] ∧ outside ≠ [] then
          .error (.valueError ("tool request uses competencies outside policy: " ++
            (Json.ofList (outside.dedup.mergeSort (· ≤ ·))).repr))
        else .ok output

/-- The checks of `_complete` on a reply that meets the schema. -/
def check (session : InterviewSession) (job : JobSpec) (output : BrainOutput) :
    Except Raised BrainOutput :=
  let unknown := output.competencyIds.filter fun id => id ∉ job.competencyIds
  if unknown ≠ [] then
    .error (.valueError ("model returned unknown competency ids: " ++ (Json.ofList unknown).repr))
  else if output.action ≠ .complete ∧ output.competencyIds = [] then
    .error (.valueError "non-complete action must name at least one competency")
  else if output.action = .openTool then checkTool session job output
  else if output.toolTemplateId.isSome then
    .error (.valueError "tool_template_id must be null unless action is open_tool")
  else .ok output

/-- `_complete`. -/
def complete (model : Model) (phase : Phase) (session : InterviewSession) (job : JobSpec) :
    Except Raised BrainOutput := do
  let output ← model phase session job
  check session job output

def latestCandidate (session : InterviewSession) : Option Turn :=
  session.turns.reverse.find? fun turn => turn.speaker = .candidate

/-- `_to_decision`. -/
def toDecision (output : BrainOutput) (session : InterviewSession) (job : JobSpec)
    (allowParent : Bool) : Except Raised AgentDecision :=
  if output.action = .complete ∨ job.maxQuestions ≤ session.askedQuestions then
    .ok { text := output.text, completesInterview := true, reason := output.reason }
  else if output.action = .followUp ∨ output.action = .openTool then
    match if allowParent then latestCandidate session else none with
    | none => .error (.valueError
        s!"{output.action.value} requested without a candidate answer")
    | some latest =>
      if output.action = .openTool then
        match output.toolTemplateId with
        | none => .error (.valueError "open_tool requires a validated template id")
        | some templateId => .ok {
            text := output.text
            competencyTags := output.competencyIds
            parentTurnId := some latest.id
            toolRequest := some ⟨templateId⟩
            reason := output.reason }
      else .ok {
        text := output.text
        competencyTags := output.competencyIds
        parentTurnId := some latest.id
        reason := output.reason }
  else .ok { text := output.text, competencyTags := output.competencyIds, reason := output.reason }

/-- A model neither completes an interview nor opens a tool in its opening. -/
def openingOutput (output : BrainOutput) : BrainOutput :=
  if output.action = .complete ∨ output.action = .openTool then
    { output with action := .advance, toolTemplateId := none, toolTemplateId_range := no_template_range }
  else output

def opening (model : Model) (session : InterviewSession) (job : JobSpec) : BrainReply := do
  let output ← complete model .opening session job
  let decision ← toDecision (openingOutput output) session job false
  pure (decision, session.coveredCompetencies)

def afterAnswer (model : Model) (session : InterviewSession) (job : JobSpec) : BrainReply := do
  let output ← complete model .afterAnswer session job
  let decision ← toDecision output session job true
  pure (decision, session.coveredCompetencies)

def afterTool (model : Model) (session : InterviewSession) (job : JobSpec)
    (invocation : ToolInvocation) (submission : ToolSubmission) (evaluation : ToolEvaluation) :
    BrainReply := do
  let output ← complete model (.afterTool invocation submission evaluation) session job
  let decision ← toDecision output session job true
  pure (decision, session.coveredCompetencies)

end LlmBrain

/-- `LLMInterviewBrain` over a model. -/
def llmBrain (model : Model) : Brain where
  opening := LlmBrain.opening model
  afterAnswer := LlmBrain.afterAnswer model
  afterTool := LlmBrain.afterTool model

namespace FallbackBrain

/-- `_degraded`. -/
def degraded (decision : AgentDecision) (e : Raised) : AgentDecision :=
  { decision with reason := s!"degraded_fallback:{e.className}:{decision.reason}" }

/-- The primary's reply, or else the marked reply of the fallback. -/
def reply (primary fallback : BrainReply) : BrainReply :=
  match primary with
  | .ok result => .ok result
  | .error e => fallback.map fun (decision, covered) => (degraded decision e, covered)

end FallbackBrain

/-- `FallbackBrain`; a primary that raises has left the session as it was. -/
def fallbackBrain (primary fallback : Brain) : Brain where
  opening session job :=
    FallbackBrain.reply (primary.opening session job) (fallback.opening session job)
  afterAnswer session job :=
    FallbackBrain.reply (primary.afterAnswer session job) (fallback.afterAnswer session job)
  afterTool session job invocation submission evaluation :=
    FallbackBrain.reply (primary.afterTool session job invocation submission evaluation)
      (fallback.afterTool session job invocation submission evaluation)

end NoraInterviewer
