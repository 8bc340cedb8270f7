import NoraInterviewer.Lifecycle
import NoraInterviewer.GuardedRuns

namespace NoraInterviewer

open ExceptRules OptimisticRuns

inductive ActorRole where
  | candidate | recruiter | reviewer | service
  deriving DecidableEq, Repr

/-- The permissions that the session mutations ask for. -/
inductive Permission where
  | runInterview | cancelSession | candidateControl | correctTranscript | submitAppeal | openTool
  | submitTool | writeEvidence | writeIntegrity | reviewAppeal | reviewIntegrity | reevaluateEvidence
  deriving DecidableEq, Repr

def ActorRole.value : ActorRole → String
  | candidate => "candidate"
  | recruiter => "recruiter"
  | reviewer => "reviewer"
  | service => "service"

def Permission.value : Permission → String
  | runInterview => "run_interview"
  | cancelSession => "cancel_session"
  | candidateControl => "candidate_control"
  | correctTranscript => "correct_transcript"
  | submitAppeal => "submit_appeal"
  | openTool => "open_tool"
  | submitTool => "submit_tool"
  | writeEvidence => "write_evidence"
  | writeIntegrity => "write_integrity"
  | reviewAppeal => "review_appeal"
  | reviewIntegrity => "review_integrity"
  | reevaluateEvidence => "reevaluate_evidence"

/-- `_ROLE_PERMISSIONS`. -/
def ActorRole.allows : ActorRole → Permission → Bool
  | candidate, permission => permission ∈ [.runInterview, .cancelSession, .candidateControl,
      .correctTranscript, .submitAppeal, .submitTool]
  | recruiter, permission => permission ∈ [.cancelSession, .openTool, .reviewAppeal,
      .reviewIntegrity, .reevaluateEvidence]
  | reviewer, permission => permission ∈ [.writeEvidence, .writeIntegrity, .reviewAppeal,
      .reviewIntegrity, .reevaluateEvidence]
  | service, _ => true

structure Principal where
  id : String
  role : ActorRole
  candidateRef : Option String := none
  organizationId : Option String := none

/-- `AccessPolicy.require` for a session. -/
def requireAccess (principal : Principal) (permission : Permission) (session : InterviewSession) :
    Except PyError Unit :=
  if !principal.role.allows permission then
    .error (.http 403 "Role {principal.role.value!r} does not have permission {permission.value!r}"
      [principal.role.value, permission.value])
  else if (principal.role ≠ .service ∨ principal.organizationId.isSome) ∧
      (principal.organizationId.isSome ∨ session.organizationId.isSome) ∧
      principal.organizationId ≠ session.organizationId then
    .error (.http 403 "Principal cannot access a session owned by another organization" [])
  else if principal.role = .candidate then
    match principal.candidateRef with
    | none => .error (.http 403 "Candidate principal is missing candidate_ref" [])
    | some candidateRef =>
      if candidateRef ≠ session.candidateRef then
        .error (.http 403 "Candidate principal cannot access another candidate session" [])
      else .ok ()
  else .ok ()

/-- The entity tag of a version of a session. -/
def etag (id : String) (version : Nat) : String :=
  "\"nora-session-" ++ (id ++ ("-v" ++ (toString version ++ "\"")))

def sessionEtag (session : InterviewSession) : String := etag session.id session.version

def preconditionFailed (session : InterviewSession) : PyError := .http 412
  "Session version precondition failed. Reload the session and retry with the current ETag."
  [sessionEtag session, toString session.version]

def enforceSessionPrecondition (session : InterviewSession) (ifMatch : Option String) :
    Except PyError Unit :=
  match ifMatch with
  | none => .ok ()
  | some tag =>
    if tag = "*" then .ok ()
    else if strip tag ≠ sessionEtag session then .error (preconditionFailed session)
    else .ok ()

def Operation.permission : Operation → Permission
  | .start | .answer _ _ => .runInterview
  | .cancelSession _ => .cancelSession
  | .reevaluateEvidence _ => .reevaluateEvidence
  | .candidateControl _ => .candidateControl
  | .openCodingChallenge _ | .openTool _ => .openTool
  | .submitTool _ _ => .submitTool
  | .correctTranscript _ => .correctTranscript
  | .submitAppeal _ => .submitAppeal
  | .reviewAppeal _ _ => .reviewAppeal
  | .submitIntegritySignal _ => .writeIntegrity
  | .reviewIntegritySignal _ _ => .reviewIntegrity
  | .observeEvidence _ => .writeEvidence

/-- What `close_session` reads of the voice state of the session. -/
structure VoiceState where
  generation : Nat := 0
  activeTtsTurnId : Option String := none

/-- What `VoiceSessionManager._persist` raises for a `StoreConflictError`. -/
def voiceChangedConcurrently : PyError := .http 409
  "Voice state changed concurrently. Reload the session and retry the voice event." []

/-- One HTTP mutation of the session. -/
structure MutationRequest where
  principal : Principal
  ifMatch : Option String
  operation : Operation
  startCall : Call
  call : Call
  voice : VoiceState := {}

/-- `require_session_permission` and `enforce_session_precondition` on the session that the
route has loaded. -/
def MutationRequest.preconditions (request : MutationRequest) (session : InterviewSession) :
    Except PyError Unit := do
  requireAccess request.principal request.operation.permission session
  enforceSessionPrecondition session request.ifMatch

def MutationRequest.guard (request : MutationRequest) (session : InterviewSession) :
    Option (Except PyError Unit) :=
  match request.preconditions session with
  | .error e => some (.error e)
  | .ok () => none

variable [CanonicalDigest]

/-- `VoiceSessionManager.close_session`, and the load of the response after it. -/
def closeVoice (call : Ambient) (voice : VoiceState) : ServiceProg :=
  .load fun session =>
    match voice.activeTtsTurnId with
    | none => .load fun _ => .done (.ok ())
    | some turnId =>
      match appendEvent call session .voiceTtsCancelled
          (session.turns.find? fun turn => turn.id = turnId) [
            ("generation", .nat (voice.generation + 1)),
            ("reason", .str "session_cancelled")] with
      | .error e => .done (.error e)
      | .ok session' => .put session' fun committed =>
        if committed then .load fun _ => .done (.ok ())
        else .done (.error voiceChangedConcurrently)

/-- What the route does once the request is admitted. -/
def MutationRequest.service (request : MutationRequest) : ServiceProg :=
  (request.operation.program request.startCall request.call).bind fun result =>
    match request.operation, result with
    | .cancelSession _, .ok () => closeVoice request.call.toAmbient request.voice
    | _, result => .done result

/-- The route of the mutation, as a client of the store. -/
def MutationRequest.route (request : MutationRequest) : ServiceProg :=
  Prog.guarded request.guard request.service

end NoraInterviewer
