import NoraInterviewer.Audit

namespace NoraInterviewer

/-- A brain answers with a decision, and with `session.covered_competencies` as it leaves
them: the rule-based brain appends to that list while it decides. -/
abbrev BrainReply := Except Raised (AgentDecision × List String)

/-- `InterviewBrain`. -/
structure Brain where
  opening : InterviewSession → JobSpec → BrainReply
  afterAnswer : InterviewSession → JobSpec → BrainReply
  afterTool : InterviewSession → JobSpec → ToolInvocation → ToolSubmission → ToolEvaluation → BrainReply

/-- `EvidenceJudge`; `evaluate` gets the question, the answer and the competency ids. -/
structure EvidenceJudge where
  judgeId : String
  evaluate : Turn → Turn → JobSpec → List String → Except Raised JudgeResponse

def disabledEvidenceJudge : EvidenceJudge where
  judgeId := "disabled"
  evaluate _ _ _ _ := .ok {}

structure CodingChallengeRequest where
  title : String
  instructions : String
  competencyTags : List String := []
  starterCode : String := ""
  publicTests : List String := []
  hiddenTests : List String := []
  openedFromTurnId : Option String := none

/-- The templates of a `ToolTemplateRegistry`: `StaticToolTemplate` and `CodingToolTemplate`. -/
inductive ToolTemplate where
  | static (templateId : String) (kind : ToolKind) (title instructions : String) (payload : Dict Json)
  | coding (templateId title instructions starterCode : String) (publicTests hiddenTests : List String)

def ToolTemplate.templateId : ToolTemplate → String
  | static id _ _ _ _ => id
  | coding id _ _ _ _ _ => id

/-- One service call's surroundings: the job its `_get` reads, and what its collaborators
answer. Each call has its own, so a brain or a judge may answer differently every time. -/
structure Call extends Ambient where
  job : Option JobSpec
  brain : Brain
  judge : EvidenceJudge := disabledEvidenceJudge
  evaluate : ToolInvocation → ToolSubmission → InterviewSession → JobSpec → Except Raised ToolEvaluation
  templates : List ToolTemplate := []
  latencyMs : Nat := 0

/-- `CodingChallengeManager.create`; `index` is the number of tools the session has. -/
def createChallenge (call : Ambient) (index : Nat) (request : CodingChallengeRequest) :
    ToolInvocation where
  id := call.uuid .tool index
  kind := .coding
  title := request.title
  instructions := request.instructions
  competencyTags := request.competencyTags
  openedFromTurnId := request.openedFromTurnId
  payload := [
    ("challenge_id", .str (call.uuid .challenge index)),
    ("language", .str "python"),
    ("starter_code", .str request.starterCode),
    ("public_tests", .ofList request.publicTests),
    ("hidden_test_count", .nat request.hiddenTests.length)]

def ToolTemplate.instantiate (call : Ambient) (session : InterviewSession) (tags : List String)
    (openedFromTurnId : Option String) : ToolTemplate → ToolInvocation
  | static templateId kind title instructions payload => {
      id := call.uuid .tool session.tools.length
      kind, title, instructions, competencyTags := tags, openedFromTurnId
      payload := Dict.set "template_id" (.str templateId) payload }
  | coding templateId title instructions starterCode publicTests hiddenTests =>
    let invocation := createChallenge call session.tools.length
      { title, instructions, competencyTags := tags, starterCode, publicTests, hiddenTests,
        openedFromTurnId }
    { invocation with payload := Dict.set "template_id" (.str templateId) invocation.payload }

/-- `ToolTemplateRegistry.instantiate`. -/
def instantiateTemplate (call : Call) (session : InterviewSession) (templateId : String)
    (tags : List String) (openedFromTurnId : Option String) : Except Raised ToolInvocation :=
  match call.templates.find? fun template => template.templateId = templateId with
  | none => .error (.valueError s!"unknown tool template: {templateId}")
  | some template => .ok (template.instantiate call.toAmbient session tags openedFromTurnId)

theorem instantiate_id (call : Ambient) (session : InterviewSession) (tags : List String)
    (opened : Option String) (template : ToolTemplate) :
    (template.instantiate call session tags opened).id = call.uuid .tool session.tools.length := by
  cases template <;> rfl

theorem instantiate_status (call : Ambient) (session : InterviewSession) (tags : List String)
    (opened : Option String) (template : ToolTemplate) :
    (template.instantiate call session tags opened).status = .open := by
  cases template <;> rfl

end NoraInterviewer
