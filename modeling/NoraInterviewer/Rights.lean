import NoraInterviewer.Interview
import NoraInterviewer.Controls

namespace NoraInterviewer

variable [CanonicalDigest]

/-- `turn.metadata` at `index` becomes `metadata` in place: every event payload that holds
the same dict shows the change. -/
def writeMetadata (session : InterviewSession) (index : Nat) (text : String)
    (metadata : Dict Json) : InterviewSession :=
  { session with
    turns := session.turns.modify index fun turn => { turn with text, metadata }
    events := session.events.mapIdx fun i event =>
      if (i, index) ∈ session.sharedMetadata then
        { event with payload := Dict.set "metadata" (.obj metadata) event.payload }
      else event }

/-- The first turn with the id holds a dict that some event payload holds too. -/
def InterviewSession.sharesTurn (session : InterviewSession) (turnId : String) : Prop :=
  ∃ event, (event, session.turns.findIdx fun turn => turn.id = turnId) ∈ session.sharedMetadata

def correctedMetadata (session : InterviewSession) (turn : Turn) (revision : TranscriptRevision) :
    Dict Json :=
  let count := session.transcriptRevisions.countP fun item => item.turnId = turn.id
  Dict.set "transcript_revision_count" (.nat count)
    (Dict.set "transcript_revision_id" (.str revision.id) turn.metadata)

def recordStale (call : Ambient) (turn : Turn) :
    List EvidenceItem → InterviewSession → Except PyError InterviewSession
  | [], session => .ok session
  | item :: rest, session => do
    let session ← appendEvent call session .evidenceSuperseded (some turn) [
      ("evidence_id", .str item.id),
      ("judge_run_id", .ofOption item.judgeRunId),
      ("answer_turn_id", .str turn.id),
      ("reason", .str "transcript_corrected")]
    recordStale call turn rest session

/-- The revision, the corrected turn and the event that records it. -/
def recordRevision (call : Ambient) (session : InterviewSession) (index : Nat) (turn : Turn)
    (revision : TranscriptRevision) : Except PyError InterviewSession :=
  let session := { session with transcriptRevisions := session.transcriptRevisions ++ [revision] }
  appendEvent call
    (writeMetadata session index revision.correctedText (correctedMetadata session turn revision))
    .transcriptCorrected (some turn) [
      ("revision_id", .str revision.id),
      ("original_text", .str revision.originalText),
      ("corrected_text", .str revision.correctedText),
      ("reason", .ofOption revision.reason)]

/-- `_apply_transcript_correction`. -/
def applyTranscriptCorrection (call : Ambient) (session : InterviewSession)
    (request : TranscriptCorrectionRequest) :
    Except PyError (InterviewSession × TranscriptRevision) :=
  let index := session.turns.findIdx fun turn => turn.id = request.turnId
  match session.turns[index]? with
  | none => .error (.http 404 "Turn not found" [])
  | some turn =>
    if turn.speaker ≠ .candidate then
      .error (.http 400 "Only candidate transcript turns can be corrected" [])
    else do
      let revision : TranscriptRevision := {
        id := call.uuid .revision session.transcriptRevisions.length
        turnId := turn.id
        originalText := turn.text
        correctedText := request.correctedText
        reason := request.reason }
      let session ← recordRevision call session index turn revision
      let (session, superseded) := supersedeSemanticEvidenceForTurn session turn.id
      let session ← recordStale call turn superseded session
      pure (session, revision)

/-- `InterviewService.correct_transcript`. -/
def correctTranscript (call : Call) (session : InterviewSession)
    (request : TranscriptCorrectionRequest) : Except PyError (Outcome TranscriptRevision) := do
  let (session, revision) ← applyTranscriptCorrection call.toAmbient session request
  pure (.commit session revision)

/-- The interviewer turn that a control adds, with its event. -/
def recordControlTurn (call : Ambient) (session : InterviewSession) (kind : CandidateControlKind) :
    Option Turn → Except PyError InterviewSession
  | none => .ok session
  | some turn =>
    appendEvent call { session with turns := session.turns ++ [turn] } .interviewerTurn (some turn) [
      ("candidate_control", .str kind.value),
      ("non_evaluative", .bool true)]

/-- The correction that a control asks for: `CORRECT_LAST_ANSWER` with a target and a text. -/
def requestedCorrection (request : CandidateControlRequest) (result : CandidateControlResult) :
    Option TranscriptCorrectionRequest :=
  if request.kind = .correctLastAnswer ∧ given result.targetTurnId ∧ given request.text then
    some {
      turnId := result.targetTurnId.getD ""
      correctedText := request.text.getD ""
      reason := some "Candidate correction requested during live interview." }
  else none

/-- The turn that a `CORRECT_LAST_ANSWER` with a text is about. -/
def controlTarget (session : InterviewSession) (request : CandidateControlRequest) : Option String :=
  if request.kind = .correctLastAnswer ∧ given request.text
  then (lastTurnBy session .candidate).map Turn.id else none

/-- `candidate_control` up to the correction it may ask for. -/
def recordControl (call : Ambient) (session : InterviewSession) (request : CandidateControlRequest) :
    Except PyError (InterviewSession × CandidateControlResult) :=
  if session.status = .completed then .error alreadyComplete
  else if session.status = .cancelled then .error isCancelled
  else do
    let (session, result) ← badRequestOnValueError (handleCandidateControl call session request)
    let session ← appendEvent call session .candidateControl none [
      ("kind", .str request.kind.value),
      ("text", .ofOption request.text),
      ("target_turn_id", .ofOption result.targetTurnId),
      ("pauses_interview", .bool result.pausesInterview)]
    let session ← recordControlTurn call session request.kind result.interviewerTurn
    pure (session, result)

/-- `InterviewService.candidate_control` on the session it loaded. -/
def candidateControl (call : Call) (session : InterviewSession) (request : CandidateControlRequest) :
    Except PyError (Outcome CandidateControlResult) := do
  let (session, result) ← recordControl call.toAmbient session request
  match requestedCorrection request result with
  | none => pure (.commit session result)
  | some correction =>
    let (session, _) ← applyTranscriptCorrection call.toAmbient session correction
    pure (.commit session result)

/-- `InterviewService.submit_appeal`. -/
def submitAppeal (call : Call) (session : InterviewSession) (request : CandidateAppealRequest) :
    Except PyError (Outcome CandidateAppeal) :=
  let unknown := request.turnIds.filter fun id => id ∉ session.turns.map Turn.id
  if unknown ≠ [] then .error (.http 400 "Appeal references unknown turns: {unknown}" unknown)
  else do
    let appeal : CandidateAppeal := {
      id := call.uuid .appeal session.appeals.length
      message := request.message
      turnIds := request.turnIds }
    let session ← appendEvent call.toAmbient { session with appeals := session.appeals ++ [appeal] }
      .appealSubmitted none [("appeal_id", .str appeal.id), ("turn_ids", .ofList appeal.turnIds)]
    pure (.commit session appeal)

/-- `InterviewService.review_appeal`. -/
def reviewAppeal (call : Call) (session : InterviewSession) (appealId : String)
    (request : AppealReviewRequest) : Except PyError (Outcome CandidateAppeal) :=
  let index := session.appeals.findIdx fun item => item.id = appealId
  match session.appeals[index]? with
  | none => .error (.http 404 "Appeal not found" [])
  | some appeal =>
    if appeal.status = .reviewed then .error (.http 409 "Appeal is already reviewed" [])
    else do
      let reviewed := { appeal with
        status := .reviewed, reviewedBy := some request.reviewerId, reviewNote := some request.note }
      let session ← appendEvent call.toAmbient
        { session with appeals := session.appeals.set index reviewed } .appealReviewed none [
          ("appeal_id", .str appeal.id),
          ("reviewer_id", .str request.reviewerId),
          ("note", .str request.note)]
      pure (.commit session reviewed)

/-- `InterviewService.submit_integrity_signal`. -/
def submitIntegritySignal (call : Call) (session : InterviewSession)
    (request : IntegritySignalRequest) : Except PyError (Outcome IntegritySignal) := do
  let signal : IntegritySignal := {
    id := call.uuid .signal session.integritySignals.length
    kind := request.kind
    confidence := request.confidence
    note := request.note
    evidence := request.evidence
    requiresHumanReview := true }
  let session ← appendEvent call.toAmbient
    { session with integritySignals := session.integritySignals ++ [signal] } .integritySignal none [
      ("signal_id", .str signal.id),
      ("kind", .str signal.kind),
      ("confidence", .num signal.confidence.val),
      ("requires_human_review", .bool true)]
  pure (.commit session signal)

/-- `InterviewService.review_integrity_signal`. -/
def reviewIntegritySignal (call : Call) (session : InterviewSession) (signalId : String)
    (request : IntegrityReviewRequest) : Except PyError (Outcome IntegritySignal) :=
  let index := session.integritySignals.findIdx fun item => item.id = signalId
  match session.integritySignals[index]? with
  | none => .error (.http 404 "Integrity signal not found" [])
  | some signal =>
    if signal.reviewStatus = .reviewed then
      .error (.http 409 "Integrity signal is already reviewed" [])
    else do
      let reviewed := { signal with
        reviewStatus := .reviewed
        reviewedBy := some request.reviewerId
        reviewNote := some request.note }
      let session ← appendEvent call.toAmbient
        { session with integritySignals := session.integritySignals.set index reviewed }
        .integrityReviewed none [
          ("signal_id", .str signal.id),
          ("reviewer_id", .str request.reviewerId),
          ("note", .str request.note),
          ("requires_human_review", .bool true)]
      pure (.commit session reviewed)

/-- `InterviewService.observe_evidence`. -/
def observeEvidence (call : Call) (session : InterviewSession) (job : JobSpec)
    (observation : EvidenceObservation) : Except PyError (Outcome (Option CompetencyEvidence)) :=
  match applyObservation call.toAmbient session job observation with
  | .error (.raised e) => .error (if e.isValueError then .http 400 e.message [] else .raised e)
  | .error e => .error e
  | .ok (session, item) => do
    let turn := session.turns.find? fun turn => turn.id = observation.turnId
    let session ← appendEvent call.toAmbient session .evidenceObserved turn [
      ("evidence_id", .str item.id),
      ("competency_id", .str observation.competencyId),
      ("state", .str observation.state.value),
      ("confidence", .num observation.confidence.val),
      ("source", .str item.source)]
    pure (.commit session (session.evidenceGraph.lookup observation.competencyId))

/-- The latest run by `created_at`; `max` keeps the first of equals. -/
def latestRun (runs : List EvidenceJudgeRun) : Option EvidenceJudgeRun :=
  runs.foldl (fun latest run =>
    match latest with
    | none => some run
    | some best => if best.createdAt < run.createdAt then some run else some best) none

/-- `InterviewService.reevaluate_evidence`. -/
def reevaluateEvidence (call : Call) (session : InterviewSession) (job : JobSpec)
    (answerTurnId : String) : Except PyError (Outcome EvidenceJudgeRun) :=
  if call.judge.judgeId = "disabled" then
    .error (.http 409 "Evidence judge is disabled for this deployment" [])
  else
    match session.turns.find? fun turn => turn.id = answerTurnId with
    | none => .error (.http 404 "Candidate answer turn not found" [])
    | some answer =>
      if answer.speaker ≠ .candidate then
        .error (.http 400 "Evidence re-evaluation requires a candidate answer turn" [])
      else if !given answer.parentTurnId then
        .error (.http 400 "Candidate answer has no linked interviewer question" [])
      else
        let question := (session.turns.find? fun turn => some turn.id = answer.parentTurnId).filter
          fun turn => turn.speaker = .interviewer
        match question with
        | none => .error (.http 400 "Candidate answer references an invalid interviewer question" [])
        | some question => do
          let priorRuns := session.evidenceJudgeRuns.filter fun run => run.answerTurnId = answer.id
          let (session, run) ← judgeCandidateEvidence call session job question answer true
            ((latestRun priorRuns).map EvidenceJudgeRun.id)
          match run with
          | none => .error (.http 400 "No competency-tagged evidence could be re-evaluated" [])
          | some run => pure (.commit session run)

end NoraInterviewer
