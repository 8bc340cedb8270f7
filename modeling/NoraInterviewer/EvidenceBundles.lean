import NoraInterviewer.SessionRecords
import NoraInterviewer.Traces
import NoraInterviewer.Counterfactual

/-! `build_candidate_feedback` and `build_portable_evidence_bundle`. -/

namespace NoraInterviewer

structure FeedbackItem where
  competencyId : String
  competency : String
  status : String
  summary : String
  evidenceTurnIds : List String
  deriving DecidableEq

structure CandidateFeedbackReport where
  sessionId : String
  role : String
  supportedEvidence : List FeedbackItem := []
  needsMoreEvidence : List FeedbackItem := []
  conflictingEvidence : List FeedbackItem := []
  note : String := "This report summarizes job-related evidence observed in the interview. " ++
    "It is not a final hiring decision or a personality assessment."
  deriving DecidableEq

/-- `list(dict.fromkeys(items))`. -/
def fromKeys (items : List String) : List String := items.reverse.dedup.reverse

/-- One pass of the loop of `build_candidate_feedback`. -/
def competencyFeedback (graph : Dict CompetencyEvidence) (report : CandidateFeedbackReport)
    (competency : Competency) : CandidateFeedbackReport :=
  let node := graph.lookup competency.id
  let state := (node.map CompetencyEvidence.state).getD .unknown
  let evidence := (node.map CompetencyEvidence.evidence).getD []
  let item summary : FeedbackItem := {
    competencyId := competency.id
    competency := competency.description
    status := state.value
    summary
    evidenceTurnIds := fromKeys (evidence.map EvidenceItem.turnId) }
  match state with
  | .demonstrated | .verified =>
    { report with supportedEvidence := report.supportedEvidence ++ [item
        ("The interview contains " ++ state.value ++ " job-related evidence for " ++
          competency.description ++ ".")] }
  | .contradicted =>
    { report with conflictingEvidence := report.conflictingEvidence ++ [item
        ("The interview contains conflicting evidence for " ++ competency.description ++
          "; human review is recommended.")] }
  | .unknown | .claimed | .insufficient =>
    { report with needsMoreEvidence := report.needsMoreEvidence ++ [item
        ("There is insufficient evidence to make a strong evidence-based statement about " ++
          competency.description ++ ".")] }

/-- `build_candidate_feedback`. -/
def buildCandidateFeedback (session : InterviewSession) (job : JobSpec) : CandidateFeedbackReport :=
  job.competencies.foldl (competencyFeedback session.evidenceGraph)
    { sessionId := session.id, role := job.title }

structure PortableArtifactReference where
  artifactId : String
  kind : String
  mediaType : String
  sizeBytes : Nat
  sha256 : String
  deleted : Bool
  deriving DecidableEq

structure PortableEvidenceRecord where
  competencyId : String
  state : String
  confidence : UnitScore
  turnId : String
  source : String
  note : String
  quote : Option String
  quoteSha256 : Option String
  deriving DecidableEq

structure PortableVoxRubricAnchor where
  traceSha256 : String
  turnCount : Nat
  scorecardCount : Nat
  deriving DecidableEq

/-- `sha256(data).hexdigest()`. -/
class Sha256 where
  hexdigest : List UInt8 → String

/-- `_evidence_records`. -/
def evidenceRecords [Sha256] (session : InterviewSession) : List PortableEvidenceRecord :=
  (sortedSet (session.evidenceGraph.map Prod.fst)).flatMap fun competencyId =>
    (((session.evidenceGraph.lookup competencyId).map CompetencyEvidence.evidence).getD []).filterMap
      fun item =>
        if item.active then some {
          competencyId
          state := item.state.value
          confidence := item.confidence
          turnId := item.turnId
          source := item.source
          note := item.note
          quote := item.quote
          quoteSha256 := item.quote.map fun quote => Sha256.hexdigest quote.toUTF8.toList }
        else none

/-- `_artifact_refs`. -/
def artifactRefs (session : StoredSession) : List PortableArtifactReference :=
  (session.artifacts.mergeSort fun a b => a.id ≤ b.id).map fun item => {
    artifactId := item.id
    kind := item.kind
    mediaType := item.mediaType
    sizeBytes := item.sizeBytes
    sha256 := item.sha256
    deleted := item.deletedAt.isSome }

end NoraInterviewer
