import NoraInterviewer.LockstepRuns
import NoraInterviewer.SemanticProvenance

namespace NoraInterviewer

open LockstepRuns

/-- What a session keeps of its evidence and of its past: nothing that a candidate is shown. -/
structure Backstage where
  graph : Dict CompetencyEvidence
  runs : List EvidenceJudgeRun
  events : List InterviewEvent
  shared : List (Nat × Nat)

def InterviewSession.backstage (session : InterviewSession) (stage : Backstage) : InterviewSession :=
  { session with
    evidenceGraph := stage.graph
    evidenceJudgeRuns := stage.runs
    events := stage.events
    sharedMetadata := stage.shared }

/-- The claims among the items, up to their ids. -/
def claimsIn (items : List EvidenceItem) : List EvidenceItem :=
  (items.filter fun item => item.source = "candidate_response").map fun item =>
    { item with id := "" }

/-- The claims that the answers of a candidate left for a competency. -/
def claimsOf (graph : Dict CompetencyEvidence) (competencyId : String) : List EvidenceItem :=
  claimsIn (nodeFor graph competencyId).evidence

def SameClaims (graph graph' : Dict CompetencyEvidence) : Prop :=
  ∀ competencyId, claimsOf graph competencyId = claimsOf graph' competencyId

/-- What an observation adds to the claims, if it says that it is one. -/
def addedClaim (call : Ambient) (observation : EvidenceObservation) (competencyId : String) :
    List EvidenceItem :=
  if competencyId = observation.competencyId ∧ observation.source = "candidate_response" then
    [{ observedItem call [] observation with id := "" }]
  else []

/-- A judge whose id a run record can carry, and that raises only what the service handles. -/
structure EvidenceJudge.Tame (judge : EvidenceJudge) : Prop where
  named : judge.judgeId ≠ "" ∧ judge.judgeId.length ≤ 500
  handled : ∀ question answer job competencyIds e,
    judge.evaluate question answer job competencyIds = .error e →
      (PyError.raised e).caughtByJudging = true

section Claims

variable {call : Ambient} {graph graph' : Dict CompetencyEvidence}

theorem claimsIn_append (items more : List EvidenceItem) :
    claimsIn (items ++ more) = claimsIn items ++ claimsIn more := by
  unfold claimsIn
  rw [List.filter_append, List.map_append]

theorem claimsOf_set (competencyId : String) (node : CompetencyEvidence) (other : String) :
    claimsOf (Dict.set competencyId node graph) other =
      if other = competencyId then claimsIn node.evidence else claimsOf graph other := by
  unfold claimsOf nodeFor
  rw [Dict.lookup_set]
  split
  next => rfl
  next => rfl

theorem claimsIn_observed (observation : EvidenceObservation) :
    claimsIn [observedItem call graph observation] =
      addedClaim call observation observation.competencyId := by
  unfold claimsIn addedClaim
  by_cases hsource : observation.source = "candidate_response"
  · rw [List.filter_singleton, if_pos ⟨rfl, hsource⟩]
    simp [observedItem, hsource]
  · rw [List.filter_singleton, if_neg (fun h => hsource h.2)]
    simp [observedItem, hsource]

theorem claimsOf_place (observation : EvidenceObservation) (competencyId : String) :
    claimsOf (place call graph observation) competencyId =
      claimsOf graph competencyId ++ addedClaim call observation competencyId := by
  unfold place
  rw [claimsOf_set, observe_evidence, claimsIn_append, claimsIn_observed]
  by_cases hid : competencyId = observation.competencyId
  · rw [if_pos hid, hid]
    rfl
  · have hnone : addedClaim call observation competencyId = [] := if_neg fun h => hid h.1
    rw [if_neg hid, hnone, List.append_nil]

theorem claimsOf_placeClaim (questionTurnId answerTurnId competencyId other : String) :
    claimsOf (placeClaim call questionTurnId answerTurnId graph competencyId) other =
      claimsOf graph other ++ if other = competencyId then
        [{ claimItem call questionTurnId answerTurnId [] with id := "" }] else [] := by
  unfold placeClaim
  rw [claimsOf_set, claimNode_evidence, claimsIn_append]
  by_cases hid : other = competencyId
  · rw [if_pos hid, if_pos hid, hid]
    rfl
  · rw [if_neg hid, if_neg hid, List.append_nil]

theorem SameClaims.place (h : SameClaims graph graph') (observation : EvidenceObservation) :
    SameClaims (place call graph observation) (place call graph' observation) := by
  intro competencyId
  rw [claimsOf_place, claimsOf_place, h competencyId]

theorem SameClaims.recordClaims (questionTurnId answerTurnId : String)
    (h : SameClaims graph graph') (competencyIds : List String) :
    SameClaims (recordClaims call questionTurnId answerTurnId graph competencyIds).1
      (recordClaims call questionTurnId answerTurnId graph' competencyIds).1 := by
  induction competencyIds generalizing graph graph' with
  | nil => exact h
  | cons competencyId rest ih =>
    rw [recordClaims_cons, recordClaims_cons]
    refine ih fun other => ?_
    rw [claimsOf_placeClaim, claimsOf_placeClaim, h other]

end Claims

variable [CanonicalDigest]

/-- The two differ backstage only, both logs verify, and the claims are the same. -/
def Beside (session session' : InterviewSession) : Prop :=
  ∃ stage, session' = session.backstage stage ∧ Appendable session.events ∧
    Appendable stage.events ∧ SameClaims session.evidenceGraph stage.graph

variable {session session' : InterviewSession}

theorem Beside.refl (h : Appendable session.events) : Beside session session :=
  ⟨⟨session.evidenceGraph, session.evidenceJudgeRuns, session.events, session.sharedMetadata⟩, rfl,
    h, h, fun _ => rfl⟩

theorem Beside.append (h : Beside session session') (call : Ambient) (type : EventType)
    (turn : Option Turn) (payload payload' : Dict Json) :
    Agree Beside (appendEvent call session type turn payload)
      (appendEvent call session' type turn payload') := by
  obtain ⟨stage, rfl, happ, happ', hclaims⟩ := h
  obtain ⟨events, he, hevents⟩ := happ.append call type turn payload
  have hstage : Appendable (session.backstage stage).events := happ'
  obtain ⟨events', he', hevents'⟩ := hstage.append call type turn payload'
  rw [he, he']
  exact .ok ⟨{ stage with events := events' }, rfl, hevents, hevents', hclaims⟩

end NoraInterviewer
