import NoraInterviewer.Evidence
import NoraInterviewer.Collaborators

namespace NoraInterviewer

/-- What of a session the evidence rests on. -/
structure Dossier where
  turns : List Turn
  revisions : List TranscriptRevision
  graph : Dict CompetencyEvidence
  runs : List EvidenceJudgeRun

def InterviewSession.dossier (session : InterviewSession) : Dossier :=
  ⟨session.turns, session.transcriptRevisions, session.evidenceGraph, session.evidenceJudgeRuns⟩

/-- What `apply_observation` asks of an observation. -/
structure Accepts (turns : List Turn) (job : JobSpec) (observation : EvidenceObservation) : Prop where
  known : observation.competencyId ∈ job.competencyIds
  grounded : ∃ turn, turns.find? (fun turn => turn.id = observation.turnId) = some turn ∧
    ∀ quote, observation.quote = some quote → isSubstring quote turn.text = true
  unverified : startsWith observation.source "semantic_judge:" = true → observation.state ≠ .verified

/-- The item that an observation becomes in a graph. -/
def observedItem (call : Ambient) (graph : Dict CompetencyEvidence)
    (observation : EvidenceObservation) : EvidenceItem where
  id := call.uuid .evidence (itemCount graph)
  turnId := observation.turnId
  state := observation.state
  confidence := observation.confidence
  quote := observation.quote
  note := observation.note
  source := observation.source
  judgeRunId := observation.judgeRunId

def nodeFor (graph : Dict CompetencyEvidence) (competencyId : String) : CompetencyEvidence :=
  (graph.lookup competencyId).getD { competencyId }

/-- The graph with an accepted observation in it. -/
def place (call : Ambient) (graph : Dict CompetencyEvidence) (observation : EvidenceObservation) :
    Dict CompetencyEvidence :=
  Dict.set observation.competencyId
    ((nodeFor graph observation.competencyId).observe (observedItem call graph observation)) graph

def placeAll (call : Ambient) (graph : Dict CompetencyEvidence) :
    List EvidenceObservation → Dict CompetencyEvidence × List String
  | [] => (graph, [])
  | observation :: rest =>
    let (placed, ids) := placeAll call (place call graph observation) rest
    (placed, (observedItem call graph observation).id :: ids)

theorem applyObservation_of_accepts (call : Ambient) {session : InterviewSession} {job : JobSpec}
    {observation : EvidenceObservation} (h : Accepts session.turns job observation) :
    applyObservation call session job observation = .ok
      ({ session with evidenceGraph := place call session.evidenceGraph observation },
        observedItem call session.evidenceGraph observation) := by
  obtain ⟨turn, hturn, hquote⟩ := h.grounded
  have hgrounded : (observation.quote.any fun quote => !isSubstring quote turn.text) = false := by
    cases hq : observation.quote with
    | none => rfl
    | some quote => simp [hquote quote hq]
  have hstate : ¬(startsWith observation.source "semantic_judge:" = true ∧
      observation.state = .verified) := fun hc => h.unverified hc.1 hc.2
  rw [applyObservation, if_neg (not_not.mpr h.known), hturn]
  simp only
  rw [if_neg (by simp [hgrounded]), if_neg hstate]
  rfl

theorem applyObservation_of_refuses (call : Ambient) {session : InterviewSession} {job : JobSpec}
    {observation : EvidenceObservation} (h : ¬Accepts session.turns job observation) :
    ∃ message, applyObservation call session job observation =
      .error (.raised (.valueError message)) := by
  unfold applyObservation
  split
  next => exact ⟨_, rfl⟩
  next hknown =>
    split
    next => exact ⟨_, rfl⟩
    next turn hturn =>
      split
      next => exact ⟨_, rfl⟩
      next hquote =>
        split
        next => exact ⟨_, rfl⟩
        next hstate =>
          refine absurd ⟨not_not.mp hknown, ⟨turn, hturn, fun quote hq => ?_⟩, fun hs hv => ?_⟩ h
          · simpa [hq] using hquote
          · exact hstate ⟨hs, hv⟩

theorem applyObservation_ok {call : Ambient} {session session' : InterviewSession} {job : JobSpec}
    {observation : EvidenceObservation} {item : EvidenceItem}
    (h : applyObservation call session job observation = .ok (session', item)) :
    Accepts session.turns job observation ∧
      session' = { session with evidenceGraph := place call session.evidenceGraph observation } ∧
      item = observedItem call session.evidenceGraph observation := by
  by_cases ha : Accepts session.turns job observation
  · rw [applyObservation_of_accepts call ha] at h
    cases h
    exact ⟨ha, rfl, rfl⟩
  · obtain ⟨message, he⟩ := applyObservation_of_refuses call ha
    rw [he] at h
    cases h

/-- Either every observation passes, or one is the first that does not. -/
theorem accepted_or_refused (turns : List Turn) (job : JobSpec)
    (observations : List EvidenceObservation) :
    (∀ observation ∈ observations, Accepts turns job observation) ∨
      ∃ placed observation rest, observations = placed ++ observation :: rest ∧
        (∀ other ∈ placed, Accepts turns job other) ∧ ¬Accepts turns job observation := by
  induction observations with
  | nil => exact .inl (by simp)
  | cons first rest ih =>
    by_cases hfirst : Accepts turns job first
    · rcases ih with hall | ⟨placed, observation, after, rfl, hplaced, hrefused⟩
      · exact .inl (List.forall_mem_cons.mpr ⟨hfirst, hall⟩)
      · exact .inr ⟨first :: placed, observation, after, rfl,
          List.forall_mem_cons.mpr ⟨hfirst, hplaced⟩, hrefused⟩
    · exact .inr ⟨[], first, rest, rfl, by simp, hfirst⟩

def supersedeGraph (turnId : String) (graph : Dict CompetencyEvidence) : Dict CompetencyEvidence :=
  graph.map fun entry => (entry.1, supersedeNode turnId entry.2)

/-- The graph that the new observations go into. -/
def priorGraph (supersedeExisting : Bool) (turnId : String) (graph : Dict CompetencyEvidence) :
    Dict CompetencyEvidence :=
  if supersedeExisting then supersedeGraph turnId graph else graph

theorem recomputeNode_evidence (node : CompetencyEvidence) :
    (recomputeNode node).evidence = node.evidence := by
  unfold recomputeNode
  simp only
  split
  next => rfl
  next => rfl

theorem map_eq_self_iff {α : Type} {f : α → α} {items : List α} :
    items.map f = items ↔ ∀ item ∈ items, f item = item := by
  have h := List.map_inj_left (l := items) (f := f) (g := id)
  rw [List.map_id] at h
  exact h

end NoraInterviewer
