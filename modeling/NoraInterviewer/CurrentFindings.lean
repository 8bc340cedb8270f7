import NoraInterviewer.SemanticProvenance
import NoraInterviewer.BuiltInJudges

namespace NoraInterviewer

/-- The run is the last that did not fail for its answer, and judged the wording of now. -/
structure Latest (dossier : Dossier) (index : Nat) (run : EvidenceJudgeRun) : Prop where
  succeeded : run.error = none
  last : ∀ later run', index < later → dossier.runs[later]? = some run' →
    run'.answerTurnId = run.answerTurnId → run'.error ≠ none
  current : run.transcriptRevisionCount = dossier.revisionCount run.answerTurnId

/-- What the active items of the runs rest on. -/
structure FindingsCurrent (dossier : Dossier) : Prop where
  answered : ∀ run ∈ dossier.runs, run.answerTurnId ∈ dossier.turns.map Turn.id
  known : ∀ run ∈ dossier.runs, ∀ id ∈ run.observationIds,
    id ∈ (evidenceItems dossier.graph).map EvidenceItem.id
  owned : ∀ run ∈ dossier.runs, ∀ item ∈ evidenceItems dossier.graph,
    item.id ∈ run.observationIds →
      item.turnId = run.answerTurnId ∧ startsWith item.source "semantic_judge:" = true
  latest : ∀ index run, dossier.runs[index]? = some run → ∀ item ∈ evidenceItems dossier.graph,
    item.id ∈ run.observationIds → item.active = true → Latest dossier index run

variable {dossier dossier' : Dossier}

theorem retire_turnId (turnId : String) (item : EvidenceItem) :
    (retire turnId item).turnId = item.turnId := by
  obtain ⟨active, hretire⟩ := retire_eq turnId item
  rw [hretire]

/-- New items and new turns leave the runs current. -/
theorem FindingsCurrent.extend {call : Ambient} {graph : Dict CompetencyEvidence}
    {added : List EvidenceItem} (h : FindingsCurrent dossier)
    (hfresh : FreshEvidence call dossier.graph) (hgrown : GrownBy call dossier.graph graph added)
    (turns : List Turn) :
    FindingsCurrent { dossier with graph, turns := dossier.turns ++ turns } := by
  have hold : ∀ run ∈ dossier.runs, ∀ item ∈ evidenceItems graph, item.id ∈ run.observationIds →
      item ∈ evidenceItems dossier.graph := by
    intro run hrun item hitem hid
    rcases hgrown.mem.mp hitem with hold | hnew
    · exact hold
    · exact absurd (h.known run hrun _ hid) (hfresh.new hgrown hnew)
  constructor
  · intro run hrun
    rw [List.map_append]
    exact List.mem_append_left _ (h.answered run hrun)
  · intro run hrun id hid
    obtain ⟨item, hitem, rfl⟩ := List.mem_map.mp (h.known run hrun id hid)
    exact List.mem_map_of_mem (hgrown.mem.mpr (.inl hitem))
  · exact fun run hrun item hitem hid => h.owned run hrun item (hold run hrun item hitem hid) hid
  · intro index run hget item hitem hid hactive
    have hitem' := hold run (List.mem_of_getElem? hget) item hitem hid
    obtain ⟨hsucceeded, hlast, hcurrent⟩ := h.latest index run hget item hitem' hid hactive
    exact ⟨hsucceeded, hlast, hcurrent⟩

theorem FindingsCurrent.grow {call : Ambient} {graph : Dict CompetencyEvidence}
    {added : List EvidenceItem} (h : FindingsCurrent dossier)
    (hfresh : FreshEvidence call dossier.graph) (hgrown : GrownBy call dossier.graph graph added) :
    FindingsCurrent { dossier with graph } := by
  have hextended := h.extend hfresh hgrown []
  rw [List.append_nil] at hextended
  exact hextended

/-- A correction takes the findings on the old wording out. -/
theorem FindingsCurrent.revised {position : Nat} {turn : Turn} {text : String} {metadata : Dict Json}
    {revision : TranscriptRevision} (h : FindingsCurrent dossier) (hr : revision.turnId = turn.id) :
    FindingsCurrent { dossier with
      turns := dossier.turns.modify position fun turn => { turn with text, metadata }
      revisions := dossier.revisions ++ [revision]
      graph := supersedeGraph turn.id dossier.graph } := by
  have hold : ∀ item ∈ evidenceItems (supersedeGraph turn.id dossier.graph),
      ∃ before ∈ evidenceItems dossier.graph, item = retire turn.id before := by
    intro item hitem
    rw [evidenceItems_supersedeGraph] at hitem
    obtain ⟨before, hbefore, heq⟩ := List.mem_map.mp hitem
    exact ⟨before, hbefore, heq.symm⟩
  constructor
  · intro run hrun
    have hids := modify_ids (f := fun turn => { turn with text, metadata }) (fun _ => rfl)
      dossier.turns position
    rw [hids]
    exact h.answered run hrun
  · intro run hrun id hid
    have hids := supersedeGraph_ids turn.id dossier.graph
    rw [hids]
    exact h.known run hrun id hid
  · intro run hrun item hitem hid
    obtain ⟨before, hbefore, rfl⟩ := hold item hitem
    rw [retire_id] at hid
    rw [retire_turnId, retire_source]
    exact h.owned run hrun before hbefore hid
  · intro index run hget item hitem hid hactive
    obtain ⟨before, hbefore, rfl⟩ := hold item hitem
    obtain ⟨hsame, hother⟩ := retire_active hactive
    rw [hsame] at hid hactive
    obtain ⟨hturn, hsource⟩ := h.owned run (List.mem_of_getElem? hget) before hbefore hid
    obtain ⟨hsucceeded, hlast, hcurrent⟩ := h.latest index run hget before hbefore hid hactive
    have hne : ¬revision.turnId = run.answerTurnId := by
      intro heq
      rw [hr, ← hturn] at heq
      simp [EvidenceItem.semanticOf, hactive, hsource, heq] at hother
    refine ⟨hsucceeded, hlast, ?_⟩
    rw [hcurrent, Dossier.revisionCount, Dossier.revisionCount, List.countP_append]
    simp [hne]

/-- A run whose findings settle whole is current, and leaves the runs of other answers so. -/
theorem FindingsCurrent.judge {call : Call} {job : JobSpec} {question answer : Turn}
    {supersedeExisting : Bool} {supersedesRunId : Option String} {graph : Dict CompetencyEvidence}
    {run' : EvidenceJudgeRun} (h : FindingsCurrent dossier)
    (hfresh : FreshEvidence call.toAmbient dossier.graph)
    (ha : answer.id ∈ dossier.turns.map Turn.id)
    (hfirst : supersedeExisting = false → ∀ run ∈ dossier.runs, run.answerTurnId ≠ answer.id)
    (hwhole : SettlesWhole call job dossier question answer
      (openRun call dossier question answer supersedesRunId))
    (ho : JudgeOutcome call job dossier question answer supersedeExisting
      (openRun call dossier question answer supersedesRunId) graph run') :
    FindingsCurrent { dossier with graph, runs := dossier.runs ++ [run'] } := by
  obtain ⟨superseding, placed, hp, hsuccess, hsuperseding⟩ := ho.settled hwhole rfl rfl
  have hsame := ho.same
  have hprior := hfresh.of_ids (priorGraph_ids superseding answer.id dossier.graph)
  have hgrown := placeAll_grown call.toAmbient (priorGraph superseding answer.id dossier.graph) placed
  rw [← hp.graph_eq] at hgrown
  -- An item that an old run lists was there before, up to superseding.
  have hold : ∀ run ∈ dossier.runs, ∀ item ∈ evidenceItems graph, item.id ∈ run.observationIds →
      ∃ before ∈ evidenceItems dossier.graph, before.id = item.id ∧ before.turnId = item.turnId ∧
        before.source = item.source ∧ (item.active = true → before.active = true ∧
          (superseding = true → before.semanticOf answer.id = false)) := by
    intro run hrun item hitem hid
    rcases hgrown.mem.mp hitem with hkept | hnew
    · cases superseding with
      | false => exact ⟨item, hkept, rfl, rfl, rfl, fun hactive => ⟨hactive, fun hc => (by cases hc)⟩⟩
      | true =>
        have hretired : item ∈ evidenceItems (supersedeGraph answer.id dossier.graph) := hkept
        rw [evidenceItems_supersedeGraph] at hretired
        obtain ⟨before, hbefore, rfl⟩ := List.mem_map.mp hretired
        refine ⟨before, hbefore, (retire_id _ _).symm, (retire_turnId _ _).symm,
          (retire_source _ _).symm, fun hactive => ?_⟩
        obtain ⟨hunchanged, hother⟩ := retire_active hactive
        rw [hunchanged] at hactive
        exact ⟨hactive, fun _ => hother⟩
    · have hunused := hprior.new hgrown hnew
      rw [priorGraph_ids] at hunused
      exact absurd (h.known run hrun _ hid) hunused
  have hnewIds : ∀ item ∈ evidenceItems graph, item.id ∈ run'.observationIds →
      ∃ observation ∈ placed, item.turnId = observation.turnId ∧ item.source = observation.source := by
    intro item hitem hid
    rw [hp.ids_eq] at hid
    obtain ⟨placedItem, hplaced, heq⟩ := List.mem_map.mp hid
    rcases hgrown.mem.mp hitem with hkept | hnew
    · have hunused := hprior.new hgrown hplaced
      rw [heq] at hunused
      exact absurd (List.mem_map_of_mem hkept) hunused
    · obtain ⟨observation, hobservation, before, rfl⟩ := mem_placedItems hnew
      exact ⟨observation, hobservation, rfl, rfl⟩
  constructor
  · intro run hrun
    rcases List.mem_append.mp hrun with hmem | hnew
    · exact h.answered run hmem
    · rw [List.mem_singleton.mp hnew, hsame.answerTurnId]
      exact ha
  · intro run hrun id hid
    rcases List.mem_append.mp hrun with hmem | hnew
    · have hknown := h.known run hmem id hid
      rw [← priorGraph_ids superseding answer.id] at hknown
      obtain ⟨item, hitem, rfl⟩ := List.mem_map.mp hknown
      exact List.mem_map_of_mem (hgrown.mem.mpr (.inl hitem))
    · rw [List.mem_singleton.mp hnew, hp.ids_eq] at hid
      obtain ⟨item, hitem, rfl⟩ := List.mem_map.mp hid
      exact List.mem_map_of_mem (hgrown.mem.mpr (.inr hitem))
  · intro run hrun item hitem hid
    rcases List.mem_append.mp hrun with hmem | hnew
    · obtain ⟨before, hbefore, hsameId, hturn, hsource, _⟩ := hold run hmem item hitem hid
      rw [← hsameId] at hid
      have howned := h.owned run hmem before hbefore hid
      rw [hturn, hsource] at howned
      exact howned
    · rw [List.mem_singleton.mp hnew] at hid ⊢
      obtain ⟨observation, hobservation, hturn, hsource⟩ := hnewIds item hitem hid
      have hjudged := hp.judged observation hobservation
      rw [hturn, hsource, hjudged.turnId, hjudged.source, hsame.answerTurnId]
      exact ⟨rfl, startsWith_append _ _⟩
  · intro index run hget item hitem hid hactive
    by_cases hlt : index < dossier.runs.length
    · have hget' : dossier.runs[index]? = some run := by
        rw [List.getElem?_append_left hlt] at hget
        exact hget
      have hmem := List.mem_of_getElem? hget'
      obtain ⟨before, hbefore, hsameId, hturn, hsource, hkept⟩ := hold run hmem item hitem hid
      rw [← hsameId] at hid
      obtain ⟨hactive', hother⟩ := hkept hactive
      obtain ⟨hsucceeded, hlast, hcurrent⟩ := h.latest index run hget' before hbefore hid hactive'
      refine ⟨hsucceeded, fun later run'' hafter hget'' hanswer => ?_, hcurrent⟩
      by_cases hlater : later < dossier.runs.length
      · rw [List.getElem?_append_left hlater] at hget''
        exact hlast later run'' hafter hget'' hanswer
      · rw [List.getElem?_append_right (by omega)] at hget''
        have hlatest : run'' = run' := List.mem_singleton.mp (List.mem_of_getElem? hget'')
        intro herror
        rw [hlatest] at hanswer herror
        rw [hsame.answerTurnId] at hanswer
        have hrun : run.answerTurnId = answer.id := hanswer.symm
        have hse := hsuperseding herror
        cases superseding with
        | false => exact hfirst hse.symm run hmem hrun
        | true =>
          obtain ⟨hbeforeTurn, hsemantic⟩ := h.owned run hmem before hbefore hid
          have hnot := hother rfl
          simp [EvidenceItem.semanticOf, hactive', hsemantic, hbeforeTurn, hrun] at hnot
    · have hindex : index = dossier.runs.length := by
        obtain ⟨hbound, _⟩ := List.getElem?_eq_some_iff.mp hget
        rw [List.length_append, List.length_singleton] at hbound
        omega
      have hrun : run = run' := by
        rw [hindex, List.getElem?_append_right le_rfl] at hget
        exact List.mem_singleton.mp (List.mem_of_getElem? hget)
      rw [hrun] at hid ⊢
      obtain ⟨observation, hobservation, _, _⟩ := hnewIds item hitem hid
      refine ⟨hsuccess (List.ne_nil_of_mem hobservation), fun later run'' hafter hget'' => ?_, ?_⟩
      · obtain ⟨hbound, _⟩ := List.getElem?_eq_some_iff.mp hget''
        rw [List.length_append, List.length_singleton] at hbound
        omega
      · rw [hsame.transcriptRevisionCount, hsame.answerTurnId]
        rfl

/-- The judges that come with the service; an ensemble may be over any judges. -/
inductive BuiltInJudge : EvidenceJudge → Prop where
  | disabled : BuiltInJudge disabledEvidenceJudge
  | llm (complete : JudgeModel) (judgeId : String) : BuiltInJudge (llmEvidenceJudge complete judgeId)
  | ensemble (ensemble : EvidenceJudgeEnsemble) : BuiltInJudge (ensembleEvidenceJudge ensemble)

/-- `list(dict.fromkeys(question.competency_tags))`. -/
def requestedCompetencies (question : Turn) : List String :=
  question.competencyTags.reverse.dedup.reverse

/-- If the first competency of a question is one of the job, all of them are. -/
def KnownThroughout (job : JobSpec) (question : Turn) : Prop :=
  ∀ first rest, requestedCompetencies question = first :: rest → first ∈ job.competencyIds →
    ∀ competencyId ∈ rest, competencyId ∈ job.competencyIds

theorem validateFindings_ids {answer : Turn} {judgeId : String} {findings : List JudgeFinding}
    {raw : List EvidenceObservation} (h : validateFindings answer judgeId findings = .ok raw) :
    raw.map EvidenceObservation.competencyId = findings.map JudgeFinding.competencyId := by
  induction findings generalizing raw with
  | nil =>
    cases h
    rfl
  | cons finding rest ih =>
    unfold validateFindings at h
    obtain ⟨_, h⟩ := ExceptRules.ite_error_ok h
    obtain ⟨_, h⟩ := ExceptRules.ite_error_ok h
    obtain ⟨_, h⟩ := ExceptRules.ite_error_ok h
    obtain ⟨_, h⟩ := ExceptRules.ite_error_ok h
    obtain ⟨others, hothers, h⟩ := ExceptRules.bind_ok h
    cases h
    exact congrArg (finding.competencyId :: ·) (ih hothers)

theorem Gated.ids {call : Call} {job : JobSpec} {question answer : Turn} {run : EvidenceJudgeRun}
    {response : JudgeResponse} {observations : List EvidenceObservation}
    (h : Gated call job question answer run response observations) :
    observations.map EvidenceObservation.competencyId =
      response.findings.map JudgeFinding.competencyId := by
  obtain ⟨raw, hraw, rfl⟩ := h.passed
  rw [← validateFindings_ids hraw, List.map_map]
  rfl

theorem select_known {job : JobSpec} {competencyIds : List String} {selected : List Competency}
    (h : LLMEvidenceJudge.select job competencyIds = .ok selected) :
    ∀ competencyId ∈ competencyIds, competencyId ∈ job.competencyIds := by
  induction competencyIds generalizing selected with
  | nil => exact fun _ hmem => (by cases hmem)
  | cons competencyId rest ih =>
    unfold LLMEvidenceJudge.select at h
    split at h
    next => cases h
    next competency hfind =>
      obtain ⟨others, hothers, _⟩ := ExceptRules.bind_ok h
      have hfound := List.find?_some hfind
      have hid : competency.id = competencyId := of_decide_eq_true hfound
      have hknown : competencyId ∈ job.competencyIds := by
        rw [← hid]
        exact List.mem_map_of_mem (List.mem_of_find?_eq_some hfind)
      exact List.forall_mem_cons.mpr ⟨hknown, ih hothers⟩

/-- A single judge answers for competencies of the job alone. -/
theorem llmEvidenceJudge_known {complete : JudgeModel} {question answer : Turn} {job : JobSpec}
    {competencyIds : List String} {response : JudgeResponse}
    (h : LLMEvidenceJudge.evaluate complete question answer job competencyIds = .ok response) :
    ∀ finding ∈ response.findings, finding.competencyId ∈ job.competencyIds := by
  obtain ⟨selected, hselected, h⟩ := ExceptRules.bind_ok h
  obtain ⟨reply, _, h⟩ := ExceptRules.bind_ok h
  obtain ⟨hexpected, h⟩ := ExceptRules.ite_error_ok h
  cases h
  intro finding hfinding
  have hnone := List.filter_eq_nil_iff.mp (not_not.mp hexpected)
  have hrequested := hnone finding.competencyId (List.mem_map_of_mem hfinding)
  exact select_known hselected _ (by simpa using hrequested)

theorem validateFinding_id {competencyId : String} {state : EvidenceState} {confidence : ℚ}
    {quote : Option String} {rationale : String} {finding : JudgeFinding}
    (h : validateFinding competencyId state confidence quote rationale = .ok finding) :
    finding.competencyId = competencyId := by
  unfold validateFinding at h
  obtain ⟨_, h⟩ := ExceptRules.ite_error_ok h
  split at h
  next =>
    obtain ⟨_, h⟩ := ExceptRules.ite_error_ok h
    obtain ⟨_, h⟩ := ExceptRules.ite_error_ok h
    split at h
    next =>
      split at h
      next => cases h; rfl
      next => cases h
    next => cases h
  next => cases h

theorem consensus_id {ensemble : EvidenceJudgeEnsemble}
    {hearings : List EvidenceJudgeEnsemble.Hearing} {competencyId : String}
    {decided : JudgeFinding × Json} (h : ensemble.consensus hearings competencyId = .ok decided) :
    decided.1.competencyId = competencyId := by
  unfold EvidenceJudgeEnsemble.consensus at h
  simp only at h
  split at h
  next =>
    obtain ⟨finding, hfinding, h⟩ := ExceptRules.bind_ok h
    cases h
    unfold EvidenceJudgeEnsemble.consensusFinding at hfinding
    simp only at hfinding
    split at hfinding
    next => cases hfinding
    next => exact validateFinding_id hfinding
  next =>
    obtain ⟨finding, hfinding, h⟩ := ExceptRules.bind_ok h
    cases h
    exact validateFinding_id hfinding

/-- An ensemble answers for every competency that it is asked about, known or not. -/
theorem consensusAll_ids {ensemble : EvidenceJudgeEnsemble}
    {hearings : List EvidenceJudgeEnsemble.Hearing} {competencyIds : List String}
    {decided : List (JudgeFinding × Json)}
    (h : ensemble.consensusAll hearings competencyIds = .ok decided) :
    (decided.map Prod.fst).map JudgeFinding.competencyId = competencyIds := by
  induction competencyIds generalizing decided with
  | nil =>
    cases h
    rfl
  | cons competencyId rest ih =>
    obtain ⟨first, hfirst, h⟩ := ExceptRules.bind_ok h
    obtain ⟨others, hothers, h⟩ := ExceptRules.bind_ok h
    cases h
    rw [List.map_cons, List.map_cons, ih hothers, consensus_id hfirst]

theorem ensemble_ids {ensemble : EvidenceJudgeEnsemble} {question answer : Turn} {job : JobSpec}
    {competencyIds : List String} {response : JudgeResponse}
    (h : ensemble.evaluate question answer job competencyIds = .ok response) :
    response.findings.map JudgeFinding.competencyId = competencyIds := by
  obtain ⟨decided, hdecided, h⟩ := ExceptRules.bind_ok h
  cases h
  exact consensusAll_ids hdecided

/-- What the gate lets through is acceptable if the graph knows the competency. -/
theorem Judged.accepts {call : Call} {job : JobSpec} {answer : Turn} {run : EvidenceJudgeRun}
    {observation : EvidenceObservation} {turns : List Turn} (h : Judged call answer run observation)
    (hanswer : turns.find? (fun turn => turn.id = answer.id) = some answer)
    (hknown : observation.competencyId ∈ job.competencyIds) : Accepts turns job observation := by
  refine ⟨hknown, ⟨answer, ?_, h.literal⟩, fun _ => h.unverified⟩
  rw [h.turnId]
  exact hanswer

/-- What a call's judge has to meet: an ensemble whose findings get through the gate was asked
about competencies of the job alone, or about one first that the job does not have. -/
def AskedWhole (call : Call) (operation : Operation) (session : InterviewSession) : Prop :=
  ∀ job dossier question answer supersedeExisting supersedesRunId response observations,
    call.job = some job →
    operation.Judges call.toAmbient session.dossier dossier question answer supersedeExisting →
    (∃ ensemble, call.judge = ensembleEvidenceJudge ensemble) →
    Gated call job question answer (openRun call dossier question answer supersedesRunId) response
      observations → KnownThroughout job question

/-- `uuid4` gives the next turn an id that no turn has. -/
def FreshTurn (call : Ambient) (session : InterviewSession) : Prop :=
  call.uuid .turn session.turns.length ∉ session.turns.map Turn.id

/-- The judged answer is the one that its id finds. -/
theorem Operation.Judges.answer_found {call : Ambient} {operation : Operation}
    {session : InterviewSession} {question answer : Turn} {supersedeExisting : Bool}
    (hfresh : FreshTurn call session)
    (h : operation.Judges call session.dossier dossier question answer supersedeExisting) :
    dossier.turns.find? (fun turn => turn.id = answer.id) = some answer := by
  cases h with
  | answered hq =>
    have hnone : session.turns.find? (fun turn => turn.id = call.uuid .turn session.turns.length) =
        none := by
      refine List.find?_eq_none.mpr fun turn hturn hid => hfresh ?_
      rw [← of_decide_eq_true hid]
      exact List.mem_map_of_mem hturn
    have hturns : session.dossier.turns = session.turns := rfl
    simp only [Dossier.answered, answerTurn, hturns]
    rw [List.find?_append, hnone]
    simp
  | reevaluated ha hs hq =>
    have hfound := List.find?_some ha
    have hid := of_decide_eq_true hfound
    rw [hid]
    exact ha

/-- With a built-in judge the findings settle whole. -/
theorem settlesWhole_of_builtIn {call : Call} {operation : Operation} {session : InterviewSession}
    {job : JobSpec} {question answer : Turn} {supersedeExisting : Bool}
    {supersedesRunId : Option String} (hjob : call.job = some job) (hbuilt : BuiltInJudge call.judge)
    (hfresh : FreshTurn call.toAmbient session) (hasked : AskedWhole call operation session)
    (hj : operation.Judges call.toAmbient session.dossier dossier question answer supersedeExisting) :
    SettlesWhole call job dossier question answer
      (openRun call dossier question answer supersedesRunId) := by
  intro response first rest hg _ hfirst observation hobservation
  have hjudged := hg.judged observation (List.mem_cons_of_mem _ hobservation)
  refine hjudged.accepts (hj.answer_found hfresh) ?_
  have hids := hg.ids
  have hevaluated := hg.evaluated
  generalize hjudge : call.judge = judge at hbuilt hevaluated
  cases hbuilt with
  | disabled =>
    cases hevaluated
    cases hids
  | llm complete judgeId =>
    have hmem : observation.competencyId ∈ response.findings.map JudgeFinding.competencyId := by
      rw [← hids]
      exact List.mem_map_of_mem (List.mem_cons_of_mem _ hobservation)
    obtain ⟨finding, hfinding, hid⟩ := List.mem_map.mp hmem
    rw [← hid]
    exact llmEvidenceJudge_known hevaluated finding hfinding
  | ensemble ensemble =>
    have hknown := hasked _ _ _ _ _ _ _ _ hjob hj ⟨ensemble, hjudge⟩ hg
    have hrequested : requestedCompetencies question =
        first.competencyId :: rest.map EvidenceObservation.competencyId := by
      rw [← List.map_cons (f := EvidenceObservation.competencyId), hids, ensemble_ids hevaluated]
      rfl
    exact hknown _ _ hrequested hfirst.known _ (List.mem_map_of_mem hobservation)

/-- A first judgement finds no run of its answer. -/
theorem Operation.Judges.first_run {call : Ambient} {operation : Operation}
    {session : InterviewSession} {question answer : Turn}
    (hcurrent : FindingsCurrent session.dossier) (hfresh : FreshTurn call session)
    (h : operation.Judges call session.dossier dossier question answer false) :
    ∀ run ∈ dossier.runs, run.answerTurnId ≠ answer.id := by
  cases h with
  | answered hq =>
    intro run hrun heq
    have hmem := hcurrent.answered run hrun
    rw [heq] at hmem
    exact hfresh hmem

theorem FindingsCurrent.step {call : Call} {job : JobSpec} {operation : Operation}
    {start : InterviewSession} (hjob : call.job = some job) (hbuilt : BuiltInJudge call.judge)
    (hturn : FreshTurn call.toAmbient start) (hasked : AskedWhole call operation start)
    (hstart : FindingsCurrent start.dossier) (h : FindingsCurrent dossier)
    (hfresh : FreshEvidence call.toAmbient dossier.graph)
    (hstep : DossierStep call job operation start dossier dossier') : FindingsCurrent dossier' := by
  cases hstep with
  | turned hid => exact h.extend hfresh (.nil call.toAmbient dossier.graph) _
  | claimed competencyIds ha => exact h.grow hfresh (recordClaims_grown _ _ _ _ _)
  | observed ho ha hfirst => exact h.grow hfresh (place_grown _ _ _)
  | judged hj ha ho =>
    refine h.judge hfresh ha ?_ (settlesWhole_of_builtIn hjob hbuilt hturn hasked hj) ho
    rintro rfl
    exact hj.first_run hstart hturn
  | revised hc hd ht hi hr ho => exact h.revised hr

section

variable [CanonicalDigest]

/-- With the built-in judges, asked about competencies that the job has, no active finding rests
on an earlier run or an earlier wording. -/
theorem active_findings_current {backend : Backend} {versions : List InterviewSession}
    (h : History backend (fun call operation session =>
      BuiltInJudge call.judge ∧ FreshEvidence call.toAmbient session.evidenceGraph ∧
        FreshTurn call.toAmbient session ∧ AskedWhole call operation session) versions) :
    ∀ session ∈ versions, ∀ index run, session.evidenceJudgeRuns[index]? = some run →
      ∀ item ∈ evidenceItems session.evidenceGraph, item.id ∈ run.observationIds →
        item.active = true → Latest session.dossier index run := by
  have hcurrent : ∀ session ∈ versions, FindingsCurrent session.dossier := by
    refine h.dossier_invariant (fun job => ?_) ?_
    · refine ⟨fun _ hmem => (by cases hmem), fun _ hmem => (by cases hmem),
        fun _ hmem => (by cases hmem), fun index run hget => ?_⟩
      have hmem : run ∈ ([] : List EvidenceJudgeRun) := List.mem_of_getElem? hget
      cases hmem
    · rintro call job operation start dossier hjob ⟨hbuilt, hfresh, hturn, hasked⟩ hstart hrun
      have hboth := hrun.invariant (P := fun dossier =>
        FindingsCurrent dossier ∧ FreshEvidence call.toAmbient dossier.graph)
        (fun h hstep => ⟨FindingsCurrent.step hjob hbuilt hturn hasked hstart h.1 h.2 hstep,
          hstep.fresh h.2⟩)
        ⟨hstart, hfresh⟩
      exact hboth.1
  exact fun session hs => (hcurrent session hs).latest

end

section Runs

attribute [local instance] checksumDigest

/-- A model that quotes the queue. -/
def queueModel : JudgeModel := fun _ _ _ _ => .ok { findings := [knownFinding] }

def queueEnsemble : EvidenceJudgeEnsemble where
  judges := [llmEvidenceJudge queueModel "first", llmEvidenceJudge queueModel "second"]
  agreementThreshold := 2 / 3
  two := by decide
  unique := by decide
  threshold_range := by decide +kernel

/-- A call on `job` that asks about both competencies and lets the ensemble judge. -/
def pairCall (job : JobSpec) : Call :=
  { jobCall job (steadyBrain { askDecision with competencyTags := ["systems", "storage"] }) with
    toAmbient := tallyAmbient
    judge := ensembleEvidenceJudge queueEnsemble }

def talliedSession (session : InterviewSession) : Bool :=
  talliedIds session.evidenceGraph &&
    decide (tallyAmbient.uuid .turn session.turns.length ∉ session.turns.map Turn.id)

theorem talliedSession_fresh {session : InterviewSession} (h : talliedSession session = true) :
    FreshEvidence tallyAmbient session.evidenceGraph ∧ FreshTurn tallyAmbient session := by
  obtain ⟨hids, hturn⟩ := Bool.and_eq_true_iff.mp h
  have hunused := of_decide_eq_true hturn
  exact ⟨tallied_fresh hids, hunused⟩

/-- A call with a single judge. -/
def llmCall : Call :=
  { plainCall askDecision with toAmbient := tallyAmbient, judge := llmEvidenceJudge queueModel "queue" }

theorem llmCall_asked (operation : Operation) (session : InterviewSession) :
    AskedWhole llmCall operation session := by
  intro _ _ _ _ _ _ _ _ _ _ hensemble
  obtain ⟨ensemble, heq⟩ := hensemble
  have hid : "queue" = "ensemble:" ++ _ := congrArg EvidenceJudge.judgeId heq
  have hfirst := congrArg (fun id => id.toList.head?) hid
  simp only [String.toList_append] at hfirst
  cases hfirst

/-- The answer is judged, and then judged again. -/
def rejudgedCalls : List (Call × Operation) := [
  (llmCall, .start), (llmCall, .answer "I built a queue." []), (llmCall, .reevaluateEvidence "turn||")]

theorem active_findings_current_rejudged :
    ∃ session : InterviewSession, ∃ run, session.evidenceJudgeRuns[1]? = some run ∧
      ∃ item ∈ evidenceItems session.evidenceGraph, item.id ∈ run.observationIds ∧
        item.active = true ∧ Latest session.dossier 1 run := by
  have hrun : (checkedRun (fun _ session => talliedSession session) plainJob .json
      rejudgedCalls).any (fun versions => versions.head?.any fun session =>
        (session.evidenceJudgeRuns[1]?).any fun run =>
          (evidenceItems session.evidenceGraph).any fun item =>
            decide (item.id ∈ run.observationIds) && item.active) = true := by
    decide +kernel
  obtain ⟨session, past, hhistory, hcheck⟩ := checkedRun_last
    (fun call _ => call = llmCall) (by simp [rejudgedCalls]) hrun
  have hcurrent : History .json (fun call operation session =>
      BuiltInJudge call.judge ∧ FreshEvidence call.toAmbient session.evidenceGraph ∧
        FreshTurn call.toAmbient session ∧ AskedWhole call operation session) (session :: past) := by
    refine hhistory.mono ?_
    rintro call operation session ⟨⟨_, rfl⟩, htallied⟩
    obtain ⟨hevidence, hturn⟩ := talliedSession_fresh htallied
    exact ⟨.llm queueModel "queue", hevidence, hturn, llmCall_asked operation session⟩
  obtain ⟨run, hget, hany⟩ := (Option.any_eq_true _ _).mp hcheck
  obtain ⟨item, hitem, hboth⟩ := List.any_eq_true.mp hany
  obtain ⟨hlisted, hactive⟩ := Bool.and_eq_true_iff.mp hboth
  refine ⟨session, run, hget, item, hitem, of_decide_eq_true hlisted, hactive, ?_⟩
  exact active_findings_current hcurrent session List.mem_cons_self 1 run hget item hitem
    (of_decide_eq_true hlisted) hactive

/-- The job loses a competency between the question and the answer. -/
def replacedCalls : List (Call × Operation) := [
  (pairCall pairJob, .start),
  (pairCall plainJob, .answer "I built a queue." [])]

/-- The ensemble finds something for both competencies; the run fails on the second, and the item
of the first stays active. -/
theorem failed_run_finding_active :
    ¬∀ (backend : Backend) (versions : List InterviewSession),
      History backend (fun call _ session => BuiltInJudge call.judge ∧
        FreshEvidence call.toAmbient session.evidenceGraph ∧ FreshTurn call.toAmbient session)
        versions → ∀ session ∈ versions, ∀ index run,
          session.evidenceJudgeRuns[index]? = some run →
          ∀ item ∈ evidenceItems session.evidenceGraph, item.id ∈ run.observationIds →
            item.active = true → Latest session.dossier index run := by
  intro hclaim
  have hrun : (checkedRun (fun _ session => talliedSession session) pairJob .memory
      replacedCalls).any (fun versions => versions.head?.any fun session =>
        (session.evidenceJudgeRuns[0]?).any fun run => run.error.isSome &&
          (evidenceItems session.evidenceGraph).any fun item =>
            decide (item.id ∈ run.observationIds) && item.active) = true := by
    decide +kernel
  obtain ⟨session, past, hhistory, hcheck⟩ := checkedRun_last
    (fun call _ => call = pairCall pairJob ∨ call = pairCall plainJob) (by simp [replacedCalls]) hrun
  have hadmitted : History .memory (fun call _ session => BuiltInJudge call.judge ∧
      FreshEvidence call.toAmbient session.evidenceGraph ∧ FreshTurn call.toAmbient session)
      (session :: past) := by
    refine hhistory.mono ?_
    rintro call operation session ⟨⟨_, rfl | rfl⟩, htallied⟩
    · exact ⟨.ensemble queueEnsemble, talliedSession_fresh htallied⟩
    · exact ⟨.ensemble queueEnsemble, talliedSession_fresh htallied⟩
  obtain ⟨run, hget, hfailed⟩ := (Option.any_eq_true _ _).mp hcheck
  obtain ⟨herror, hany⟩ := Bool.and_eq_true_iff.mp hfailed
  obtain ⟨item, hitem, hboth⟩ := List.any_eq_true.mp hany
  obtain ⟨hlisted, hactive⟩ := Bool.and_eq_true_iff.mp hboth
  have hlatest := hclaim .memory _ hadmitted session List.mem_cons_self 0 run hget item hitem
    (of_decide_eq_true hlisted) hactive
  rw [hlatest.succeeded] at herror
  cases herror

end Runs

end NoraInterviewer
