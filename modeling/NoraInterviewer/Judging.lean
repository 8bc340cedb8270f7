import NoraInterviewer.Evidence
import NoraInterviewer.Collaborators

namespace NoraInterviewer

/-- `GroundedEvidenceGate.validate`; an `EvidenceObservation` source has at most 160 characters. -/
def validateFindings (answer : Turn) (judgeId : String) :
    List JudgeFinding → Except Raised (List EvidenceObservation)
  | [] => .ok []
  | finding :: rest =>
    if finding.state = .verified then
      .error (.evidenceJudgeError "transcript judge attempted to emit verified evidence")
    else if finding.quote.any fun quote => !isSubstring quote answer.text then
      .error (.evidenceJudgeError
        "evidence judge quote is not a literal substring of the candidate answer")
    else if (finding.state = .demonstrated ∨ finding.state = .contradicted) ∧ !given finding.quote then
      .error (.evidenceJudgeError s!"{finding.state.value} finding is missing a grounded quote")
    else if 160 < ("semantic_judge:" ++ judgeId).length then
      .error (.validationError "EvidenceObservation source is too long")
    else do
      let observations ← validateFindings answer judgeId rest
      pure ({
        competencyId := finding.competencyId
        turnId := answer.id
        state := finding.state
        confidence := finding.confidence
        quote := finding.quote
        note := finding.rationale
        source := "semantic_judge:" ++ judgeId } :: observations)

/-- The items a `for` over a JSON value yields; numbers, booleans and `None` do not iterate. -/
def iterate : Json → Except Raised (List Json)
  | .arr items => .ok items
  | .obj fields => .ok (fields.map fun field => .str field.1)
  | .str text => .ok (text.toList.map fun c => .str (String.singleton c))
  | _ => .error (.typeError "object is not iterable")

def isDict : Json → Bool
  | .obj _ => true
  | _ => false

def belowThreshold : Json → Bool
  | .obj fields => !((fields.lookup "threshold_met").any Json.truthy)
  | _ => false

/-- The session and the run record while a judge run is under way. An exception leaves
them as far as they got. -/
structure JudgeWork where
  session : InterviewSession
  run : EvidenceJudgeRun

abbrev Judging := EStateM PyError JudgeWork

def Judging.attempt {α : Type} (x : Except Raised α) : Judging α := fun work =>
  match x with
  | .ok a => .ok a work
  | .error e => .error (.raised e) work

def Judging.onSession (f : InterviewSession → Except PyError InterviewSession) : Judging Unit :=
  fun work =>
    match f work.session with
    | .ok session => .ok () { work with session }
    | .error e => .error e work

variable [CanonicalDigest]

def supersededPayload (item : EvidenceItem) (answerTurnId runId : String) : Dict Json := [
  ("evidence_id", .str item.id),
  ("judge_run_id", .ofOption item.judgeRunId),
  ("answer_turn_id", .str answerTurnId),
  ("superseded_by_run_id", .str runId)]

def recordSuperseded (call : Ambient) (answer : Turn) (runId : String) :
    List EvidenceItem → Judging Unit
  | [] => pure ()
  | item :: rest => do
    Judging.onSession fun session => appendEvent call session .evidenceSuperseded (some answer)
      (supersededPayload item answer.id runId)
    recordSuperseded call answer runId rest

def recordDisagreement (call : Ambient) (judgeId : String) (question answer : Turn)
    (audit : Dict Json) : Judging Unit := do
  let competencies ← Judging.attempt (iterate ((audit.lookup "competencies").getD (.arr [])))
  let failures ← Judging.attempt (iterate ((audit.lookup "failures").getD (.arr [])))
  let work ← get
  if competencies.filter belowThreshold = [] ∧ failures.filter isDict = [] then pure ()
  else
    Judging.onSession fun session => appendEvent call session .evidenceJudgeDisagreement (some answer) [
      ("judge_run_id", .str work.run.id),
      ("judge_id", .str judgeId),
      ("question_turn_id", .str question.id),
      ("answer_turn_id", .str answer.id),
      ("agreement_threshold", (audit.lookup "agreement_threshold").getD .null),
      ("required_votes", (audit.lookup "required_votes").getD .null),
      ("disagreements", .arr (competencies.filter belowThreshold)),
      ("subjudge_failures", .arr (failures.filter isDict))]

def observedPayload (item : EvidenceItem) (observation : EvidenceObservation) (runId : String) :
    Dict Json := [
  ("evidence_id", .str item.id),
  ("judge_run_id", .str runId),
  ("competency_id", .str observation.competencyId),
  ("state", .str observation.state.value),
  ("confidence", .num observation.confidence.val),
  ("quote", .ofOption observation.quote),
  ("source", .str observation.source)]

def observeOne (call : Ambient) (job : JobSpec) (answer : Turn) (observation : EvidenceObservation) :
    Judging Unit := fun work =>
  match applyObservation call work.session job observation with
  | .error e => .error e work
  | .ok (session, item) =>
    let run := { work.run with observationIds := work.run.observationIds ++ [item.id] }
    Judging.onSession (fun session => appendEvent call session .evidenceObserved (some answer)
      (observedPayload item observation run.id)) { session, run }

def observeAll (call : Ambient) (job : JobSpec) (answer : Turn) :
    List EvidenceObservation → Judging Unit
  | [] => pure ()
  | observation :: rest => do
    observeOne call job answer observation
    observeAll call job answer rest

def runRecordedPayload (run : EvidenceJudgeRun) (observationIds : List String) (failed : Bool) :
    Dict Json := [
  ("judge_run_id", .str run.id),
  ("judge_id", .str run.judgeId),
  ("question_turn_id", .str run.questionTurnId),
  ("answer_turn_id", .str run.answerTurnId),
  ("observation_ids", .ofList observationIds),
  ("transcript_revision_count", .nat run.transcriptRevisionCount),
  ("supersedes_run_id", .ofOption run.supersedesRunId),
  ("failed", .bool failed)]

/-- `session.evidence_judge_runs.append(run)`. -/
def JudgeWork.keepRun (work : JudgeWork) : JudgeWork :=
  { work with session := { work.session with
      evidenceJudgeRuns := work.session.evidenceJudgeRuns ++ [work.run] } }

def JudgeWork.supersede (work : JudgeWork) (turnId : String) : JudgeWork :=
  { work with session := (supersedeSemanticEvidenceForTurn work.session turnId).1 }

/-- On a re-evaluation the active semantic evidence of the answer gives way. -/
def supersedePrior (call : Ambient) (answer : Turn) (supersedeExisting : Bool) : Judging Unit :=
  if supersedeExisting then do
    let work ← get
    modify fun work => work.supersede answer.id
    recordSuperseded call answer work.run.id
      (supersedeSemanticEvidenceForTurn work.session answer.id).2
  else pure ()

def recordEnsemble (call : Ambient) (judgeId : String) (question answer : Turn)
    (audit : Dict Json) : Judging Unit :=
  match audit.lookup "kind" with
  | some (.str "evidence_judge_ensemble") => recordDisagreement call judgeId question answer audit
  | _ => pure ()

/-- The run joins the session, and its event the log. -/
def recordRun (call : Ambient) (answer : Turn) : Judging Unit := do
  modify JudgeWork.keepRun
  let work ← get
  Judging.onSession fun session => appendEvent call session .evidenceJudgeRunRecorded
    (some answer) (runRecordedPayload work.run work.run.observationIds false)

/-- The body of the `try` in `_judge_candidate_evidence`. -/
def judgeAttempt (call : Call) (job : JobSpec) (question answer : Turn) (competencyIds : List String)
    (supersedeExisting : Bool) : Judging Unit := do
  let response ← Judging.attempt (call.judge.evaluate question answer job competencyIds)
  let observations ← Judging.attempt (validateFindings answer call.judge.judgeId response.findings)
  supersedePrior call.toAmbient answer supersedeExisting
  modify fun work => { work with run := { work.run with audit := response.audit } }
  recordEnsemble call.toAmbient call.judge.judgeId question answer response.audit
  let work ← get
  observeAll call.toAmbient job answer
    (observations.map fun observation => { observation with judgeRunId := some work.run.id })
  recordRun call.toAmbient answer

/-- `except (EvidenceJudgeError, ValueError, TypeError)`; an `AuditChainError` is a `ValueError`. -/
def PyError.caughtByJudging : PyError → Bool
  | .auditChain _ => true
  | .raised (.valueError _) => true
  | .raised (.validationError _) => true
  | .raised (.typeError _) => true
  | .raised (.evidenceJudgeError _) => true
  | _ => false

def truncate (limit : Nat) (text : String) : String := String.ofList (text.toList.take limit)

/-- The handler: the run is recorded as failed. -/
def recordFailure (call : Call) (question answer : Turn) (competencyIds : List String)
    (e : PyError) : Judging Unit := do
  modify fun work => { work with run := { work.run with
    errorType := some e.className, error := some (truncate 2000 e.message) } }
  modify JudgeWork.keepRun
  let work ← get
  Judging.onSession fun session => appendEvent call.toAmbient session .evidenceJudgeFailed
    (some answer) [
      ("judge_run_id", .str work.run.id),
      ("judge_id", .str call.judge.judgeId),
      ("question_turn_id", .str question.id),
      ("answer_turn_id", .str answer.id),
      ("competency_ids", .ofList competencyIds),
      ("error_type", .ofOption work.run.errorType),
      ("error", .ofOption work.run.error)]
  Judging.onSession fun session => appendEvent call.toAmbient session .evidenceJudgeRunRecorded
    (some answer) (runRecordedPayload work.run [] true)

def judgeRun (call : Call) (job : JobSpec) (question answer : Turn) (competencyIds : List String)
    (supersedeExisting : Bool) : Judging Unit := fun work =>
  match judgeAttempt call job question answer competencyIds supersedeExisting work with
  | .ok () work => .ok () work
  | .error e work =>
    if e.caughtByJudging then recordFailure call question answer competencyIds e work
    else .error e work

def afterRun : EStateM.Result PyError JudgeWork Unit →
    Except PyError (InterviewSession × Option EvidenceJudgeRun)
  | .ok () work => .ok (work.session, some work.run)
  | .error e _ => .error e

/-- `_judge_candidate_evidence`. -/
def judgeCandidateEvidence (call : Call) (session : InterviewSession) (job : JobSpec)
    (question answer : Turn) (supersedeExisting : Bool := false)
    (supersedesRunId : Option String := none) :
    Except PyError (InterviewSession × Option EvidenceJudgeRun) :=
  let competencyIds := question.competencyTags.reverse.dedup.reverse
  if call.judge.judgeId = "disabled" then .ok (session, none)
  else if competencyIds.isEmpty then .ok (session, none)
  else if call.judge.judgeId = "" ∨ 500 < call.judge.judgeId.length then
    .error (.raised (.validationError "EvidenceJudgeRun judge_id is out of range"))
  else
    let run : EvidenceJudgeRun := {
      id := call.uuid .judgeRun session.evidenceJudgeRuns.length
      judgeId := call.judge.judgeId
      questionTurnId := question.id
      answerTurnId := answer.id
      competencyIds
      createdAt := call.now .judgeRun
      transcriptRevisionCount :=
        session.transcriptRevisions.countP fun revision => revision.turnId = answer.id
      supersedesRunId }
    afterRun (judgeRun call job question answer competencyIds supersedeExisting { session, run })

end NoraInterviewer
