import NoraInterviewer.Interview

namespace NoraInterviewer

/-- `len(_WORD.findall(text))`: the runs of characters that `\w` matches. -/
def wordCount (isWord : Char → Bool) (text : String) : Nat :=
  (text.toList.foldl (fun (count, inside) c =>
    (if isWord c && !inside then count + 1 else count, isWord c)) (0, false)).1

def JobSpec.first (job : JobSpec) : Competency := job.competencies.head job.competencies_ne_nil

/-- The turn that the answer is about, the answer itself being the last one. -/
def questionBefore (turns : List Turn) : Option Turn := turns.dropLast.reverse.find? Turn.evaluative

namespace RuleBasedBrain

/-- `_close`. -/
def close : AgentDecision where
  text := "Thank you. That completes the interview. Your responses will now " ++
    "be made available for the configured human review process."
  completesInterview := true
  reason := "all_required_coverage_complete"

def opening (session : InterviewSession) (job : JobSpec) : BrainReply :=
  .ok ({
    text := s!"Welcome. We’ll discuss your experience for the {job.title} role. " ++
      s!"First, tell me about a concrete example that demonstrates {job.first.description}"
    competencyTags := [job.first.id]
    reason := "opening_first_required_competency" }, session.coveredCompetencies)

/-- The competency that the answer is about. -/
def active (session : InterviewSession) (job : JobSpec) : String :=
  match (questionBefore session.turns).map Turn.competencyTags with
  | some (tag :: _) => tag
  | _ => job.first.id

def cover (covered : List String) (id : String) : List String :=
  if covered.contains id then covered else covered ++ [id]

/-- The first template of the job that is not used up and that takes `id`. -/
def templateFor (session : InterviewSession) (job : JobSpec) (id : String) : Option JobToolTemplate :=
  if session.tools.length < job.maxTools then
    job.toolTemplates.find? fun item => item.templateId ∉ usedTemplates session &&
      (item.competencyIds.isEmpty || item.competencyIds.contains id)
  else none

/-- What follows an answer that says enough: a tool, the next competency, or the end. -/
def advance (session : InterviewSession) (job : JobSpec) (latest : Turn) (covered : List String) :
    AgentDecision :=
  match templateFor session job (active session job) with
  | some item => {
      text := "I have enough conversational context here. " ++
        "Let’s add one short practical artifact before we move on."
      competencyTags := [active session job]
      parentTurnId := some latest.id
      toolRequest := some ⟨item.templateId⟩
      reason := "open_allowed_practical_tool" }
  | none =>
    match job.competencies.find? fun c => c.id ∉ covered with
    | none => close
    | some next => {
        text := "Let’s move to another area. Tell me about a situation that " ++
          s!"demonstrates {next.description}"
        competencyTags := [next.id]
        reason := "advance_to_uncovered_competency" }

def afterAnswer (isWord : Char → Bool) (session : InterviewSession) (job : JobSpec) : BrainReply :=
  match (session.turns.filter fun turn => turn.speaker = .candidate).getLast? with
  | none => .error (.valueError "after_answer requires a candidate turn")
  | some latest =>
    let tag := active session job
    if job.maxQuestions ≤ session.askedQuestions then .ok (close, session.coveredCompetencies)
    else if wordCount isWord latest.text < 18 ∧
        (session.followupsByCompetency.lookup tag).getD 0 < 1 then
      .ok ({
        text := "Could you make that more concrete—what did you personally do, " ++
          "what trade-off did you make, and what was the measurable result?"
        competencyTags := [tag]
        parentTurnId := some latest.id
        reason := "answer_lacks_specific_evidence" }, session.coveredCompetencies)
    else
      let covered := cover session.coveredCompetencies tag
      .ok (advance session job latest covered, covered)

def probe : Option Bool → String
  | some true => "The automated checks passed. Explain one design choice in your " ++
      "artifact, its trade-off, and what you would change for a larger-scale case."
  | some false => "Some automated checks did not pass. Without guessing at hidden tests, " ++
      "walk me through how you would diagnose the failure and validate the fix."
  | none => "The artifact has been recorded for review. Before we move on, explain " ++
      "the reasoning behind your approach and the main trade-off you considered."

/-- The turn that `submit_tool` recorded for the submission. -/
def artifactTurn (session : InterviewSession) (submission : ToolSubmission) : Option Turn :=
  session.turns.reverse.find? fun turn => turn.speaker = .candidate &&
    (turn.metadata.lookup "tool_submission_id").any (Json.isStr submission.id)

def afterTool (session : InterviewSession) (job : JobSpec) (invocation : ToolInvocation)
    (submission : ToolSubmission) (evaluation : ToolEvaluation) : BrainReply :=
  .ok ({
    text := probe evaluation.passed
    competencyTags :=
      if invocation.competencyTags.isEmpty then [job.first.id] else invocation.competencyTags
    parentTurnId := (artifactTurn session submission).map Turn.id
    reason := "post_tool_reasoning_probe" }, session.coveredCompetencies)

end RuleBasedBrain

/-- `RuleBasedBrain`. -/
def ruleBasedBrain (isWord : Char → Bool) : Brain where
  opening := RuleBasedBrain.opening
  afterAnswer := RuleBasedBrain.afterAnswer isWord
  afterTool := RuleBasedBrain.afterTool

end NoraInterviewer
