import NoraInterviewer.RightsEffects

namespace NoraInterviewer

open ExceptRules

/-- The operations of `InterviewService` that mutate a stored session. -/
inductive Operation where
  | start
  | answer (text : String) (turnMetadata : Dict Json)
  | cancelSession (request : CancelSessionRequest)
  | reevaluateEvidence (answerTurnId : String)
  | candidateControl (request : CandidateControlRequest)
  | openCodingChallenge (request : CodingChallengeRequest)
  | openTool (invocation : ToolInvocation)
  | submitTool (toolId : String) (request : ToolSubmissionRequest)
  | correctTranscript (request : TranscriptCorrectionRequest)
  | submitAppeal (request : CandidateAppealRequest)
  | reviewAppeal (appealId : String) (request : AppealReviewRequest)
  | submitIntegritySignal (request : IntegritySignalRequest)
  | reviewIntegritySignal (signalId : String) (request : IntegrityReviewRequest)
  | observeEvidence (observation : EvidenceObservation)

/-- `answer` starts a session that is still CREATED, and loads it again. -/
def Operation.ready (session : InterviewSession) : Operation → Prop
  | .answer _ _ => session.status ≠ .created
  | _ => True

/-- The turn that the operation would correct. -/
def Operation.target (session : InterviewSession) : Operation → Option String
  | .correctTranscript request => some request.turnId
  | .candidateControl request => controlTarget session request
  | _ => none

def missingJob : PyError := .http 500 "Session references a missing job" []

variable [CanonicalDigest]

/-- The session value that the operation commits over the one it loaded, if it commits one. -/
def perform (call : Call) (job : JobSpec) (session : InterviewSession) :
    Operation → Except PyError (Option InterviewSession)
  | .start => (start call session job).map Outcome.written
  | .answer text turnMetadata =>
    (answer call session job text turnMetadata).map Outcome.written
  | .cancelSession request => (cancelSession call session request).map Outcome.written
  | .reevaluateEvidence answerTurnId =>
    (reevaluateEvidence call session job answerTurnId).map Outcome.written
  | .candidateControl request =>
    (candidateControl call session request).map Outcome.written
  | .openCodingChallenge request =>
    (openCodingChallenge call session job request).map Outcome.written
  | .openTool invocation => (openTool call session job invocation).map Outcome.written
  | .submitTool toolId request =>
    (submitTool call session job toolId request).map Outcome.written
  | .correctTranscript request =>
    (correctTranscript call session request).map Outcome.written
  | .submitAppeal request => (submitAppeal call session request).map Outcome.written
  | .reviewAppeal appealId request =>
    (reviewAppeal call session appealId request).map Outcome.written
  | .submitIntegritySignal request =>
    (submitIntegritySignal call session request).map Outcome.written
  | .reviewIntegritySignal signalId request =>
    (reviewIntegritySignal call session signalId request).map Outcome.written
  | .observeEvidence observation =>
    (observeEvidence call session job observation).map Outcome.written

/-- `_get` reads the job, then the operation runs. -/
def mutate (call : Call) (operation : Operation) (session : InterviewSession) :
    Except PyError (Option InterviewSession) :=
  match call.job with
  | none => .error missingJob
  | some job => perform call job session operation

/-- The decision that starts `session`, if the operation does. -/
def Operation.Starts (call : Call) (job : JobSpec) (session : InterviewSession)
    (decision : AgentDecision) : Operation → Prop
  | .start => StartDecision call session job decision
  | _ => False

/-- The decision that the operation goes on with when it runs on `session`. -/
def Operation.Takes (call : Call) (job : JobSpec) (session : InterviewSession)
    (decision : AgentDecision) : Operation → Prop
  | .answer text turnMetadata => AnswerDecision call session job text turnMetadata decision
  | .submitTool toolId request => ToolDecision call session job toolId request decision
  | _ => False

/-- What one call chooses, as narrowly as its effects need it. -/
def Operation.policy (call : Call) (job : JobSpec) (session : InterviewSession)
    (operation : Operation) : Policy where
  starts stance decision := stance = session.stance ∧ operation.Starts call job session decision
  decides stance decision := stance = session.stance ∧ operation.Takes call job session decision
  opens tool := tool.id ≠ "" ∧ tool.status = .open ∨ operation = .openTool tool
  corrects shared index := shared = session.sharedMetadata ∧
    ∃ turnId, operation.target session = some turnId ∧
      index = session.turns.findIdx fun turn => turn.id = turnId

theorem perform_meets (call : Call) (job : JobSpec) (session : InterviewSession)
    (operation : Operation) :
    Meets (perform call job session operation)
      (fun written => ∀ session', written = some session' →
        Effects (operation.policy call job session) session session')
      (fun e => (∀ turnId, operation.target session = some turnId → ¬session.sharesTurn turnId) →
        Refusal session.events e) := by
  have hopens : ∀ tool : ToolInvocation, tool.id ≠ "" → tool.status = .open →
      (operation.policy call job session).opens tool := fun tool hi hs => Or.inl ⟨hi, hs⟩
  have hcommits : ∀ {α : Type} {x : Except PyError (Outcome α)},
      Commits (operation.policy call job session) session x →
      Meets (x.map Outcome.written)
        (fun written => ∀ session', written = some session' →
          Effects (operation.policy call job session) session session')
        (fun e => (∀ turnId, operation.target session = some turnId →
          ¬session.sharesTurn turnId) → Refusal session.events e) :=
    fun h => Meets.map (Meets.weaken h fun _ he _ => he)
  cases operation with
  | start => exact hcommits (start_commits call session job (fun d h => ⟨rfl, h⟩) hopens)
  | answer text turnMetadata =>
    exact hcommits (answer_commits call session job text turnMetadata
      (fun d h => ⟨rfl, h⟩) hopens)
  | cancelSession request => exact hcommits (cancelSession_commits call session request)
  | reevaluateEvidence answerTurnId =>
    exact hcommits (reevaluateEvidence_commits call session job answerTurnId)
  | candidateControl request =>
    exact Meets.map (candidateControl_commits call session request
      fun turnId h => ⟨rfl, turnId, h, rfl⟩)
  | openCodingChallenge request =>
    exact hcommits (openCodingChallenge_commits call session job request hopens)
  | openTool invocation => exact hcommits (openTool_commits call session job invocation (Or.inr rfl))
  | submitTool toolId request =>
    exact hcommits (submitTool_commits call session job toolId request
      (fun d h => ⟨rfl, h⟩) hopens)
  | correctTranscript request =>
    exact Meets.map (Meets.weaken (correctTranscript_commits call session request
      ⟨rfl, _, rfl, rfl⟩) fun _ he h => he (h _ rfl))
  | submitAppeal request => exact hcommits (submitAppeal_commits call session request)
  | reviewAppeal appealId request =>
    exact hcommits (reviewAppeal_commits call session appealId request)
  | submitIntegritySignal request =>
    exact hcommits (submitIntegritySignal_commits call session request)
  | reviewIntegritySignal signalId request =>
    exact hcommits (reviewIntegritySignal_commits call session signalId request)
  | observeEvidence observation =>
    exact hcommits (observeEvidence_commits call session job observation)

/-- What any operation does to the session it loaded. -/
theorem mutate_ok {call : Call} {operation : Operation} {session session' : InterviewSession}
    (h : mutate call operation session = .ok (some session')) :
    ∃ job, call.job = some job ∧ Effects (operation.policy call job session) session session' := by
  unfold mutate at h
  split at h
  next => cases h
  next job hj => exact ⟨job, hj, (perform_meets call job session operation).of_ok h session' rfl⟩

/-- On a sealed log an operation raises an `AuditChainError` only for a correction of a turn
whose metadata dict an event payload holds too. -/
theorem mutate_error {call : Call} {operation : Operation} {session : InterviewSession} {e : PyError}
    (h : mutate call operation session = .error e)
    (ht : ∀ turnId, operation.target session = some turnId → ¬session.sharesTurn turnId) :
    Refusal session.events e := by
  unfold mutate at h
  split at h
  next => cases h; exact fun _ => rfl
  next job hj => exact (perform_meets call job session operation).of_error h ht

end NoraInterviewer
