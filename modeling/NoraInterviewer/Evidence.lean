import NoraInterviewer.Audit
import Mathlib.Algebra.Order.Ring.Unbundled.Rat

namespace NoraInterviewer

def stateRank : EvidenceState → Nat
  | .unknown => 0
  | .insufficient => 1
  | .claimed => 2
  | .demonstrated => 3
  | .verified => 4
  | .contradicted => 5

def UnitScore.one : UnitScore := ⟨1, by decide, by decide⟩

def initializeEvidence (job : JobSpec) (graph : Dict CompetencyEvidence) : Dict CompetencyEvidence :=
  job.competencies.foldl (fun graph c => Dict.setDefault c.id { competencyId := c.id } graph) graph

/-- How many items a graph holds: the index of the next item id. -/
def itemCount (graph : Dict CompetencyEvidence) : Nat :=
  (graph.flatMap fun entry => entry.2.evidence).length

/-- The loop of `record_candidate_claim`. -/
def recordClaims (call : Ambient) (questionTurnId answerTurnId : String)
    (graph : Dict CompetencyEvidence) : List String → Dict CompetencyEvidence × List EvidenceItem
  | [] => (graph, [])
  | competencyId :: rest =>
    let node := (graph.lookup competencyId).getD { competencyId }
    let item : EvidenceItem := {
      id := call.uuid .evidence (itemCount graph)
      turnId := answerTurnId
      state := .claimed
      confidence := UnitScore.one
      note := s!"Candidate supplied an answer to interviewer turn {questionTurnId}."
      source := "candidate_response" }
    let node := { node with evidence := node.evidence ++ [item] }
    let node := if stateRank node.state < stateRank .claimed
      then { node with state := .claimed, confidence := none } else node
    let (graph, created) :=
      recordClaims call questionTurnId answerTurnId (Dict.set competencyId node graph) rest
    (graph, item :: created)

def recordCandidateClaim (call : Ambient) (session : InterviewSession)
    (questionTurnId answerTurnId : String) (competencyIds : List String) :
    Except PyError (InterviewSession × List EvidenceItem) :=
  -- `by_id` is a dict comprehension, so the last turn with an id wins.
  let byId (id : String) := session.turns.reverse.find? fun turn => turn.id = id
  match byId questionTurnId, byId answerTurnId with
  | some question, some answer =>
    if question.speaker ≠ .interviewer ∨ answer.speaker ≠ .candidate then
      .error (.raised (.valueError
        "claim evidence requires interviewer question and candidate answer"))
    else
      let (evidenceGraph, created) :=
        recordClaims call questionTurnId answerTurnId session.evidenceGraph competencyIds
      .ok ({ session with evidenceGraph }, created)
  | _, _ => .error (.raised (.valueError "question and answer turns must exist"))

/-- The item is recorded; the node's state only ever climbs, and never leaves a contradiction. -/
def CompetencyEvidence.observe (node : CompetencyEvidence) (item : EvidenceItem) : CompetencyEvidence :=
  let node := { node with evidence := node.evidence ++ [item] }
  if node.state = .contradicted then node
  else if item.state = .contradicted then
    { node with state := .contradicted, confidence := some item.confidence }
  else if stateRank node.state ≤ stateRank item.state then
    { node with state := item.state, confidence := some item.confidence }
  else node

def applyObservation (call : Ambient) (session : InterviewSession) (job : JobSpec)
    (observation : EvidenceObservation) : Except PyError (InterviewSession × EvidenceItem) :=
  if observation.competencyId ∉ job.competencyIds then
    .error (.raised (.valueError "unknown competency"))
  else
    match session.turns.find? fun turn => turn.id = observation.turnId with
    | none => .error (.raised (.valueError "evidence observation references unknown turn"))
    | some turn =>
      if observation.quote.any fun quote => !isSubstring quote turn.text then
        .error (.raised (.valueError
          "evidence quote must be a literal substring of the referenced turn"))
      else if startsWith observation.source "semantic_judge:" ∧ observation.state = .verified then
        .error (.raised (.valueError
          "semantic transcript judges may not emit verified evidence"))
      else
        let item : EvidenceItem := {
          id := call.uuid .evidence (itemCount session.evidenceGraph)
          turnId := observation.turnId
          state := observation.state
          confidence := observation.confidence
          quote := observation.quote
          note := observation.note
          source := observation.source
          judgeRunId := observation.judgeRunId }
        let node := (session.evidenceGraph.lookup observation.competencyId).getD
          { competencyId := observation.competencyId }
        .ok ({ session with
          evidenceGraph := Dict.set observation.competencyId (node.observe item) session.evidenceGraph },
          item)

def recomputeNode (node : CompetencyEvidence) : CompetencyEvidence :=
  let active := node.evidence.filter EvidenceItem.active
  let strongestRank := (active.map fun item => stateRank item.state).foldl max 0
  let strongest := active.filter fun item => stateRank item.state = strongestRank
  match strongest with
  | [] => { node with state := .unknown, confidence := none }
  | first :: _ =>
    let confidences := (strongest.filter fun item =>
      item.state ≠ .claimed ∧ item.state ≠ .unknown).map EvidenceItem.confidence
    { node with state := first.state, confidence := confidences.max? }

def EvidenceItem.semanticOf (turnId : String) (item : EvidenceItem) : Bool :=
  item.active && item.turnId = turnId && startsWith item.source "semantic_judge:"

def supersedeNode (turnId : String) (node : CompetencyEvidence) : CompetencyEvidence :=
  if node.evidence.any (EvidenceItem.semanticOf turnId) then
    recomputeNode { node with
      evidence := node.evidence.map fun item =>
        if item.semanticOf turnId then { item with active := false } else item }
  else node

def supersedeSemanticEvidenceForTurn (session : InterviewSession) (turnId : String) :
    InterviewSession × List EvidenceItem :=
  let superseded := session.evidenceGraph.flatMap fun entry =>
    (entry.2.evidence.filter (EvidenceItem.semanticOf turnId)).map fun item =>
      { item with active := false }
  let evidenceGraph := session.evidenceGraph.map fun entry => (entry.1, supersedeNode turnId entry.2)
  ({ session with evidenceGraph }, superseded)

end NoraInterviewer
