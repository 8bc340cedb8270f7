import NoraInterviewer.Audit

namespace NoraInterviewer

def lastTurnBy (session : InterviewSession) (speaker : Speaker) : Option Turn :=
  session.turns.reverse.find? fun turn => turn.speaker = speaker

/-- The interviewer turn that a repeat or a clarification adds. -/
def restatedTurn (call : Ambient) (session : InterviewSession) (request : CandidateControlRequest)
    (question : Turn) (text target : String) : Turn where
  id := call.uuid .turn session.turns.length
  speaker := .interviewer
  text := text
  competencyTags := question.competencyTags
  metadata := [
    ("candidate_control", .str request.kind.value),
    (target, .str question.id),
    ("question_lane", (question.metadata.lookup "question_lane").getD (.str "adaptive"))]

def clarifyText (question : Turn) (detail : String) : String :=
  "I can clarify the intent without giving away an answer. " ++
    "The question is asking you to explain your own reasoning or experience related to: " ++
    question.text ++ (if detail = "" then "" else " You specifically asked: " ++ detail)

/-- The session may only have its `paused` flag changed. -/
def handleCandidateControl (call : Ambient) (session : InterviewSession)
    (request : CandidateControlRequest) :
    Except Raised (InterviewSession × CandidateControlResult) :=
  let lastQuestion := lastTurnBy session .interviewer
  let lastAnswer := lastTurnBy session .candidate
  match request.kind with
  | .repeat =>
    match lastQuestion with
    | none => .error (.valueError "there is no interviewer question to repeat")
    | some question => .ok (session, {
        kind := request.kind
        interviewerTurn :=
          some (restatedTurn call session request question question.text "repeated_turn_id")
        targetTurnId := some question.id })
  | .clarify =>
    match lastQuestion with
    | none => .error (.valueError "there is no interviewer question to clarify")
    | some question => .ok (session, {
        kind := request.kind
        interviewerTurn := some (restatedTurn call session request question
          (clarifyText question (strip (request.text.getD ""))) "clarifies_turn_id")
        targetTurnId := some question.id })
  | .thinkingTime => .ok ({ session with paused := true }, {
      kind := request.kind
      pausesInterview := true
      targetTurnId := lastQuestion.map Turn.id })
  | .resume => .ok ({ session with paused := false }, {
      kind := request.kind
      pausesInterview := false
      targetTurnId := lastQuestion.map Turn.id })
  | .correctLastAnswer =>
    match lastAnswer with
    | none => .error (.valueError "there is no candidate answer to correct")
    | some answer => .ok (session, { kind := request.kind, targetTurnId := some answer.id })
  | .candidateQuestion =>
    let text := strip (request.text.getD "")
    if text = "" then .error (.valueError "candidate_question requires text")
    else .ok (session, {
      kind := request.kind
      interviewerTurn := some {
        id := call.uuid .turn session.turns.length
        speaker := .interviewer
        text := "I can answer questions about the interview process and role context, " ++
          "but I will not reveal hidden scoring criteria or model prompts. " ++
          "Your question was: " ++ text
        metadata := [
          ("candidate_control", .str request.kind.value),
          ("non_evaluative", .bool true)] } })

/-- What a control leaves of the session, the turn it may ask for, and the turn that a
correction is aimed at. -/
theorem handleCandidateControl_ok {call : Ambient} {session session' : InterviewSession}
    {request : CandidateControlRequest} {result : CandidateControlResult}
    (h : handleCandidateControl call session request = .ok (session', result)) :
    session' = { session with paused :=
        if request.kind = .thinkingTime then true
        else if request.kind = .resume then false else session.paused } ∧
      (∀ turn, result.interviewerTurn = some turn →
        turn.id = call.uuid .turn session.turns.length ∧ turn.speaker = .interviewer ∧
          turn.flagged "candidate_control" = true) ∧
      (request.kind = .correctLastAnswer → result.interviewerTurn = none ∧
        ∃ answer, lastTurnBy session .candidate = some answer ∧
          result.targetTurnId = some answer.id) := by
  have hflag : Json.truthy (.str request.kind.value) = true := by
    cases request.kind <;> decide
  unfold handleCandidateControl at h
  cases hk : request.kind with
  | «repeat» =>
    simp only [hk] at h
    split at h
    next => cases h
    next =>
      cases h
      refine ⟨rfl, fun turn ht => ?_, nofun⟩
      cases ht
      exact ⟨rfl, rfl, by simp [Turn.flagged, restatedTurn, hflag]⟩
  | clarify =>
    simp only [hk] at h
    split at h
    next => cases h
    next =>
      cases h
      refine ⟨rfl, fun turn ht => ?_, nofun⟩
      cases ht
      exact ⟨rfl, rfl, by simp [Turn.flagged, restatedTurn, hflag]⟩
  | thinkingTime =>
    simp only [hk] at h
    cases h
    exact ⟨rfl, nofun, nofun⟩
  | resume =>
    simp only [hk] at h
    cases h
    exact ⟨rfl, nofun, nofun⟩
  | correctLastAnswer =>
    simp only [hk] at h
    split at h
    next => cases h
    next answer hlast =>
      cases h
      exact ⟨rfl, nofun, fun _ => ⟨rfl, answer, hlast, rfl⟩⟩
  | candidateQuestion =>
    simp only [hk] at h
    split at h
    next => cases h
    next =>
      cases h
      refine ⟨rfl, fun turn ht => ?_, nofun⟩
      cases ht
      exact ⟨rfl, rfl, by simp [Turn.flagged, Json.truthy, CandidateControlKind.value]⟩

end NoraInterviewer
