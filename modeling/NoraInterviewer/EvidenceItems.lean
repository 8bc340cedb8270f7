import NoraInterviewer.DossierSteps
import Mathlib.Data.List.Perm.Basic

namespace NoraInterviewer

/-- Overwriting an entry with a longer one adds what is new in it. -/
theorem Dict.flatMap_set_perm {α β : Type} {f : α → List β} {key : String} {value : α} {added : List β}
    {d : Dict α} (h : f value = (d.lookup key).elim [] f ++ added) :
    ((Dict.set key value d).flatMap fun entry => f entry.2).Perm
      ((d.flatMap fun entry => f entry.2) ++ added) := by
  induction d with
  | nil =>
    have hvalue : f value = added := by simpa using h
    simp [Dict.set, hvalue]
  | cons entry rest ih =>
    obtain ⟨k, v⟩ := entry
    by_cases hk : k = key
    · subst hk
      have hvalue : f value = f v ++ added := by simpa using h
      rw [Dict.set, if_pos rfl, List.flatMap_cons, List.flatMap_cons, hvalue, List.append_assoc,
        List.append_assoc]
      exact List.Perm.append_left _ List.perm_append_comm
    · have hne : (key == k) = false := by simpa using fun e => hk e.symm
      rw [List.lookup_cons, hne] at h
      rw [Dict.set, if_neg hk, List.flatMap_cons, List.flatMap_cons, List.append_assoc]
      exact (ih h).append_left _

def evidenceItems (graph : Dict CompetencyEvidence) : List EvidenceItem :=
  graph.flatMap fun entry => entry.2.evidence

theorem length_evidenceItems (graph : Dict CompetencyEvidence) :
    (evidenceItems graph).length = itemCount graph := rfl

theorem mem_evidenceItems {graph : Dict CompetencyEvidence} {item : EvidenceItem} :
    item ∈ evidenceItems graph ↔ ∃ entry ∈ graph, item ∈ entry.2.evidence :=
  List.mem_flatMap

theorem evidenceItems_setDefault (competencyId : String) (graph : Dict CompetencyEvidence) :
    evidenceItems (Dict.setDefault competencyId { competencyId } graph) = evidenceItems graph := by
  unfold Dict.setDefault
  split
  next => rfl
  next =>
    unfold evidenceItems
    rw [List.flatMap_append]
    exact List.append_nil _

/-- What holds of no nodes and survives a blank one holds of a job's graph. -/
theorem initializeEvidence_induction {P : Dict CompetencyEvidence → Prop} (hnil : P [])
    (hstep : ∀ competencyId graph, P graph → P (Dict.setDefault competencyId { competencyId } graph))
    (job : JobSpec) : P (initializeEvidence job []) := by
  have hfold : ∀ (competencies : List Competency) (graph : Dict CompetencyEvidence), P graph →
      P (competencies.foldl
        (fun graph c => Dict.setDefault c.id { competencyId := c.id } graph) graph) := by
    intro competencies
    induction competencies with
    | nil => exact fun _ h => h
    | cons c rest ih => exact fun graph h => ih _ (hstep c.id graph h)
  exact hfold job.competencies [] hnil

theorem evidenceItems_initializeEvidence (job : JobSpec) :
    evidenceItems (initializeEvidence job []) = [] :=
  initializeEvidence_induction (P := fun graph => evidenceItems graph = []) rfl
    (fun competencyId graph h => (evidenceItems_setDefault competencyId graph).trans h) job

theorem observe_evidence (node : CompetencyEvidence) (item : EvidenceItem) :
    (node.observe item).evidence = node.evidence ++ [item] := by
  unfold CompetencyEvidence.observe
  simp only
  split
  next => rfl
  next =>
    split
    next => rfl
    next =>
      split
      next => rfl
      next => rfl

theorem nodeFor_evidence (graph : Dict CompetencyEvidence) (competencyId : String) :
    (nodeFor graph competencyId).evidence =
      (graph.lookup competencyId).elim [] CompetencyEvidence.evidence := by
  unfold nodeFor
  cases graph.lookup competencyId with
  | none => rfl
  | some node => rfl

/-- Placing an observation adds its item, and no other. -/
theorem evidenceItems_place (call : Ambient) (graph : Dict CompetencyEvidence)
    (observation : EvidenceObservation) :
    (evidenceItems (place call graph observation)).Perm
      (evidenceItems graph ++ [observedItem call graph observation]) := by
  refine Dict.flatMap_set_perm ?_
  rw [observe_evidence, nodeFor_evidence]

/-- The items that a list of observations becomes. -/
def placedItems (call : Ambient) (graph : Dict CompetencyEvidence) :
    List EvidenceObservation → List EvidenceItem
  | [] => []
  | observation :: rest =>
    observedItem call graph observation :: placedItems call (place call graph observation) rest

theorem placeAll_ids (call : Ambient) (graph : Dict CompetencyEvidence)
    (observations : List EvidenceObservation) :
    (placeAll call graph observations).2 =
      (placedItems call graph observations).map EvidenceItem.id := by
  induction observations generalizing graph with
  | nil => rfl
  | cons observation rest ih => rw [placeAll, placedItems, List.map_cons, ← ih]

theorem mem_placedItems {call : Ambient} {graph : Dict CompetencyEvidence}
    {observations : List EvidenceObservation} {item : EvidenceItem}
    (h : item ∈ placedItems call graph observations) :
    ∃ observation ∈ observations, ∃ before, item = observedItem call before observation := by
  induction observations generalizing graph with
  | nil => cases h
  | cons observation rest ih =>
    rcases List.mem_cons.mp h with rfl | h
    · exact ⟨observation, List.mem_cons_self, graph, rfl⟩
    · obtain ⟨other, hother, before, hitem⟩ := ih h
      exact ⟨other, List.mem_cons_of_mem _ hother, before, hitem⟩

/-- An item that says no more than that an answer was given. -/
structure Claimed (answerTurnId : String) (item : EvidenceItem) : Prop where
  turnId : item.turnId = answerTurnId
  state : item.state = .claimed
  confidence : item.confidence = UnitScore.one
  quote : item.quote = none
  source : item.source = "candidate_response"
  judgeRunId : item.judgeRunId = none
  active : item.active = true

/-- The item that one answer leaves for a competency. -/
def claimItem (call : Ambient) (questionTurnId answerTurnId : String)
    (graph : Dict CompetencyEvidence) : EvidenceItem where
  id := call.uuid .evidence (itemCount graph)
  turnId := answerTurnId
  state := .claimed
  confidence := UnitScore.one
  note := s!"Candidate supplied an answer to interviewer turn {questionTurnId}."
  source := "candidate_response"

def claimNode (node : CompetencyEvidence) (item : EvidenceItem) : CompetencyEvidence :=
  if stateRank node.state < stateRank .claimed
  then { node with evidence := node.evidence ++ [item], state := .claimed, confidence := none }
  else { node with evidence := node.evidence ++ [item] }

/-- The graph with the claim of one competency in it. -/
def placeClaim (call : Ambient) (questionTurnId answerTurnId : String)
    (graph : Dict CompetencyEvidence) (competencyId : String) : Dict CompetencyEvidence :=
  Dict.set competencyId
    (claimNode (nodeFor graph competencyId) (claimItem call questionTurnId answerTurnId graph)) graph

theorem recordClaims_cons (call : Ambient) (questionTurnId answerTurnId : String)
    (graph : Dict CompetencyEvidence) (competencyId : String) (rest : List String) :
    recordClaims call questionTurnId answerTurnId graph (competencyId :: rest) =
      ((recordClaims call questionTurnId answerTurnId
          (placeClaim call questionTurnId answerTurnId graph competencyId) rest).1,
        claimItem call questionTurnId answerTurnId graph ::
          (recordClaims call questionTurnId answerTurnId
            (placeClaim call questionTurnId answerTurnId graph competencyId) rest).2) := rfl

theorem claimItem_claimed (call : Ambient) (questionTurnId answerTurnId : String)
    (graph : Dict CompetencyEvidence) :
    Claimed answerTurnId (claimItem call questionTurnId answerTurnId graph) :=
  ⟨rfl, rfl, rfl, rfl, rfl, rfl, rfl⟩

theorem recordClaims_claimed (call : Ambient) (questionTurnId answerTurnId : String)
    (graph : Dict CompetencyEvidence) (competencyIds : List String) :
    ∀ item ∈ (recordClaims call questionTurnId answerTurnId graph competencyIds).2,
      Claimed answerTurnId item := by
  induction competencyIds generalizing graph with
  | nil => exact fun _ h => (by cases h)
  | cons competencyId rest ih =>
    rw [recordClaims_cons]
    exact List.forall_mem_cons.mpr ⟨claimItem_claimed _ _ _ _, ih _⟩

theorem claimNode_evidence (node : CompetencyEvidence) (item : EvidenceItem) :
    (claimNode node item).evidence = node.evidence ++ [item] := by
  unfold claimNode
  split
  next => rfl
  next => rfl

/-- What a correction or a new run does to an item. -/
def retire (turnId : String) (item : EvidenceItem) : EvidenceItem :=
  if item.semanticOf turnId then { item with active := false } else item

theorem supersedeNode_evidence (turnId : String) (node : CompetencyEvidence) :
    (supersedeNode turnId node).evidence = node.evidence.map (retire turnId) := by
  unfold supersedeNode
  split
  next =>
    rw [recomputeNode_evidence]
    rfl
  next hnone =>
    refine (map_eq_self_iff.mpr fun item hmem => ?_).symm
    refine if_neg fun hitem => hnone (List.any_eq_true.mpr ⟨item, hmem, hitem⟩)

theorem evidenceItems_supersedeGraph (turnId : String) (graph : Dict CompetencyEvidence) :
    evidenceItems (supersedeGraph turnId graph) = (evidenceItems graph).map (retire turnId) := by
  unfold evidenceItems supersedeGraph
  rw [List.flatMap_map, List.map_flatMap]
  refine congrArg (fun f => List.flatMap f graph) (funext fun entry => ?_)
  exact supersedeNode_evidence turnId entry.2

/-- What the gate makes of a finding, once it belongs to a run. -/
structure Judged (call : Call) (answer : Turn) (run : EvidenceJudgeRun)
    (observation : EvidenceObservation) : Prop where
  turnId : observation.turnId = answer.id
  source : observation.source = "semantic_judge:" ++ call.judge.judgeId
  judgeRunId : observation.judgeRunId = some run.id
  unverified : observation.state ≠ .verified
  literal : ∀ quote, observation.quote = some quote → isSubstring quote answer.text = true
  quoted : observation.state = .demonstrated ∨ observation.state = .contradicted →
    given observation.quote = true

theorem validateFindings_judged {call : Call} {answer : Turn} {run : EvidenceJudgeRun}
    {findings : List JudgeFinding} {raw : List EvidenceObservation}
    (h : validateFindings answer call.judge.judgeId findings = .ok raw) :
    ∀ observation ∈ raw,
      Judged call answer run { observation with judgeRunId := some run.id } := by
  induction findings generalizing raw with
  | nil =>
    cases h
    exact fun _ hmem => (by cases hmem)
  | cons finding rest ih =>
    unfold validateFindings at h
    obtain ⟨hverified, h⟩ := ExceptRules.ite_error_ok h
    obtain ⟨hliteral, h⟩ := ExceptRules.ite_error_ok h
    obtain ⟨hquoted, h⟩ := ExceptRules.ite_error_ok h
    obtain ⟨_, h⟩ := ExceptRules.ite_error_ok h
    obtain ⟨others, hothers, h⟩ := ExceptRules.bind_ok h
    cases h
    intro observation hmem
    rcases List.mem_cons.mp hmem with rfl | hmem
    · refine ⟨rfl, rfl, rfl, hverified, fun quote hq => ?_, fun hstate => ?_⟩
      · have hq' : finding.quote = some quote := hq
        simpa [hq'] using hliteral
      · by_contra hgiven
        exact hquoted ⟨hstate, by simpa using hgiven⟩
    · exact ih hothers observation hmem

theorem Gated.judged {call : Call} {job : JobSpec} {question answer : Turn} {run : EvidenceJudgeRun}
    {response : JudgeResponse} {observations : List EvidenceObservation}
    (h : Gated call job question answer run response observations) :
    ∀ observation ∈ observations, Judged call answer run observation := by
  obtain ⟨raw, hraw, rfl⟩ := h.passed
  intro observation hmem
  obtain ⟨bare, hbare, rfl⟩ := List.mem_map.mp hmem
  exact validateFindings_judged hraw bare hbare

/-- The observations that a run got into the graph: the accepted ones before the first refusal. -/
structure PlacedBy (call : Call) (job : JobSpec) (dossier : Dossier) (question answer : Turn)
    (superseding : Bool) (run : EvidenceJudgeRun) (graph : Dict CompetencyEvidence)
    (run' : EvidenceJudgeRun) (placed : List EvidenceObservation) : Prop where
  judged : ∀ observation ∈ placed, Judged call answer run observation
  accepted : ∀ observation ∈ placed, Accepts dossier.turns job observation
  graph_eq : graph = (placeAll call.toAmbient
    (priorGraph superseding answer.id dossier.graph) placed).1
  ids_eq : run'.observationIds = (placedItems call.toAmbient
    (priorGraph superseding answer.id dossier.graph) placed).map EvidenceItem.id

/-- A run that was refused places nothing and supersedes nothing. -/
theorem JudgeOutcome.placed {call : Call} {job : JobSpec} {dossier : Dossier} {question answer : Turn}
    {supersedeExisting : Bool} {run run' : EvidenceJudgeRun} {graph : Dict CompetencyEvidence}
    (hnew : run.observationIds = [])
    (h : JudgeOutcome call job dossier question answer supersedeExisting run graph run') :
    ∃ superseding placed,
      PlacedBy call job dossier question answer superseding run graph run' placed := by
  cases h with
  | refused h =>
    exact ⟨false, [], fun _ hmem => (by cases hmem), fun _ hmem => (by cases hmem), rfl, hnew⟩
  | unreadable hg hr =>
    exact ⟨supersedeExisting, [], fun _ hmem => (by cases hmem), fun _ hmem => (by cases hmem),
      rfl, hnew⟩
  | interrupted hg hr ha ho =>
    refine ⟨supersedeExisting, _, fun observation hmem => ?_, ha, rfl, placeAll_ids _ _ _⟩
    exact hg.judged observation (List.mem_append_left _ hmem)
  | completed hg hr ha =>
    exact ⟨supersedeExisting, _, hg.judged, ha, rfl, placeAll_ids _ _ _⟩

/-- `uuid4` gives an evidence item no id twice. -/
structure FreshEvidence (call : Ambient) (graph : Dict CompetencyEvidence) : Prop where
  distinct : ∀ m n, call.uuid .evidence m = call.uuid .evidence n → m = n
  unused : ∀ n, itemCount graph ≤ n →
    call.uuid .evidence n ∉ (evidenceItems graph).map EvidenceItem.id

theorem FreshEvidence.of_ids {call : Ambient} {graph graph' : Dict CompetencyEvidence}
    (h : FreshEvidence call graph)
    (hids : (evidenceItems graph').map EvidenceItem.id = (evidenceItems graph).map EvidenceItem.id) :
    FreshEvidence call graph' := by
  refine ⟨h.distinct, fun n hn => ?_⟩
  have hcount := congrArg List.length hids
  rw [List.length_map, List.length_map, length_evidenceItems, length_evidenceItems] at hcount
  rw [hids]
  exact h.unused n (by omega)

/-- The items that a graph grew by, in the order of their ids. -/
structure GrownBy (call : Ambient) (graph graph' : Dict CompetencyEvidence)
    (added : List EvidenceItem) : Prop where
  items : (evidenceItems graph').Perm (evidenceItems graph ++ added)
  ids : added.map EvidenceItem.id =
    (List.range' (itemCount graph) added.length).map (call.uuid .evidence)

theorem GrownBy.mem {call : Ambient} {graph graph' : Dict CompetencyEvidence}
    {added : List EvidenceItem} (h : GrownBy call graph graph' added) {item : EvidenceItem} :
    item ∈ evidenceItems graph' ↔ item ∈ evidenceItems graph ∨ item ∈ added :=
  h.items.mem_iff.trans List.mem_append

theorem GrownBy.index {call : Ambient} {graph graph' : Dict CompetencyEvidence}
    {added : List EvidenceItem} (h : GrownBy call graph graph' added) {item : EvidenceItem}
    (hitem : item ∈ added) :
    ∃ n, itemCount graph ≤ n ∧ n < itemCount graph' ∧ item.id = call.uuid .evidence n := by
  have hmem : item.id ∈ added.map EvidenceItem.id := List.mem_map_of_mem hitem
  have hcount := h.items.length_eq
  rw [List.length_append, length_evidenceItems, length_evidenceItems] at hcount
  rw [h.ids] at hmem
  obtain ⟨n, hn, hid⟩ := List.mem_map.mp hmem
  obtain ⟨hlow, hhigh⟩ := List.mem_range'_1.mp hn
  exact ⟨n, hlow, by omega, hid.symm⟩

theorem FreshEvidence.new {call : Ambient} {graph graph' : Dict CompetencyEvidence}
    {added : List EvidenceItem} (h : FreshEvidence call graph)
    (hgrown : GrownBy call graph graph' added) {item : EvidenceItem} (hitem : item ∈ added) :
    item.id ∉ (evidenceItems graph).map EvidenceItem.id := by
  obtain ⟨n, hn, _, hid⟩ := hgrown.index hitem
  rw [hid]
  exact h.unused n hn

theorem FreshEvidence.grow {call : Ambient} {graph graph' : Dict CompetencyEvidence}
    {added : List EvidenceItem} (h : FreshEvidence call graph)
    (hgrown : GrownBy call graph graph' added) : FreshEvidence call graph' := by
  refine ⟨h.distinct, fun n hn hmem => ?_⟩
  have hcount := hgrown.items.length_eq
  rw [List.length_append, length_evidenceItems, length_evidenceItems] at hcount
  obtain ⟨item, hitem, hid⟩ := List.mem_map.mp hmem
  rcases hgrown.mem.mp hitem with hold | hnew
  · exact h.unused n (by omega) (hid ▸ List.mem_map_of_mem hold)
  · obtain ⟨m, _, hm, hid'⟩ := hgrown.index hnew
    have heq := h.distinct n m (hid.symm.trans hid')
    omega

theorem place_grown (call : Ambient) (graph : Dict CompetencyEvidence)
    (observation : EvidenceObservation) :
    GrownBy call graph (place call graph observation) [observedItem call graph observation] :=
  ⟨evidenceItems_place call graph observation, rfl⟩

theorem placeClaim_grown (call : Ambient) (questionTurnId answerTurnId : String)
    (graph : Dict CompetencyEvidence) (competencyId : String) :
    GrownBy call graph (placeClaim call questionTurnId answerTurnId graph competencyId)
      [claimItem call questionTurnId answerTurnId graph] := by
  refine ⟨Dict.flatMap_set_perm (f := CompetencyEvidence.evidence) ?_, rfl⟩
  rw [claimNode_evidence, nodeFor_evidence]

/-- Growing by one item, and then by more. -/
theorem GrownBy.cons {call : Ambient} {graph mid graph' : Dict CompetencyEvidence}
    {item : EvidenceItem} {added : List EvidenceItem} (hfirst : GrownBy call graph mid [item])
    (hrest : GrownBy call mid graph' added) : GrownBy call graph graph' (item :: added) := by
  have hcount := hfirst.items.length_eq
  rw [List.length_append, length_evidenceItems, length_evidenceItems] at hcount
  have hitem : item.id = call.uuid .evidence (itemCount graph) := by
    have hids := hfirst.ids
    simpa using hids
  constructor
  · have hitems := hrest.items.trans (hfirst.items.append_right added)
    rw [List.append_assoc] at hitems
    exact hitems
  · have hmid : itemCount mid = itemCount graph + 1 := hcount
    have hlength : (item :: added).length = added.length + 1 := rfl
    rw [List.map_cons, hrest.ids, hmid, hitem, hlength, List.range'_succ]
    rfl

theorem GrownBy.nil (call : Ambient) (graph : Dict CompetencyEvidence) :
    GrownBy call graph graph [] :=
  ⟨by rw [List.append_nil], rfl⟩

theorem placeAll_grown (call : Ambient) (graph : Dict CompetencyEvidence)
    (observations : List EvidenceObservation) :
    GrownBy call graph (placeAll call graph observations).1 (placedItems call graph observations) := by
  induction observations generalizing graph with
  | nil => exact .nil call graph
  | cons observation rest ih => exact (place_grown call graph observation).cons (ih _)

theorem recordClaims_grown (call : Ambient) (questionTurnId answerTurnId : String)
    (graph : Dict CompetencyEvidence) (competencyIds : List String) :
    GrownBy call graph (recordClaims call questionTurnId answerTurnId graph competencyIds).1
      (recordClaims call questionTurnId answerTurnId graph competencyIds).2 := by
  induction competencyIds generalizing graph with
  | nil => exact .nil call graph
  | cons competencyId rest ih =>
    rw [recordClaims_cons]
    exact (placeClaim_grown _ _ _ _ _).cons (ih _)

theorem retire_id (turnId : String) (item : EvidenceItem) : (retire turnId item).id = item.id := by
  unfold retire
  split
  next => rfl
  next => rfl

theorem supersedeGraph_ids (turnId : String) (graph : Dict CompetencyEvidence) :
    (evidenceItems (supersedeGraph turnId graph)).map EvidenceItem.id =
      (evidenceItems graph).map EvidenceItem.id := by
  rw [evidenceItems_supersedeGraph, List.map_map]
  exact List.map_congr_left fun item _ => retire_id turnId item

theorem priorGraph_ids (superseding : Bool) (turnId : String) (graph : Dict CompetencyEvidence) :
    (evidenceItems (priorGraph superseding turnId graph)).map EvidenceItem.id =
      (evidenceItems graph).map EvidenceItem.id := by
  cases superseding with
  | false => rfl
  | true => exact supersedeGraph_ids turnId graph

/-- The ids stay fresh while an operation runs. -/
theorem DossierStep.fresh {call : Call} {job : JobSpec} {operation : Operation}
    {start : InterviewSession} {dossier dossier' : Dossier}
    (h : FreshEvidence call.toAmbient dossier.graph)
    (hstep : DossierStep call job operation start dossier dossier') :
    FreshEvidence call.toAmbient dossier'.graph := by
  cases hstep with
  | turned hid => exact h
  | claimed competencyIds ha => exact h.grow (recordClaims_grown _ _ _ _ _)
  | observed ho ha hfirst => exact h.grow (place_grown _ _ _)
  | @judged _ answer _ _ graph run hj ha ho =>
    obtain ⟨superseding, placed, hplaced⟩ := ho.placed rfl
    have hprior := h.of_ids (priorGraph_ids superseding answer.id dossier.graph)
    have hgrown := hprior.grow (placeAll_grown call.toAmbient _ placed)
    rw [← hplaced.graph_eq] at hgrown
    exact hgrown
  | revised hc hd ht hi hr ho => exact h.of_ids (supersedeGraph_ids _ _)

theorem Dict.mem_set {α : Type} {key : String} {value : α} {d : Dict α} {entry : String × α}
    (h : entry ∈ Dict.set key value d) : entry = (key, value) ∨ entry ∈ d := by
  induction d with
  | nil => exact .inl (List.mem_singleton.mp h)
  | cons first rest ih =>
    obtain ⟨k, v⟩ := first
    unfold Dict.set at h
    split at h
    next =>
      rcases List.mem_cons.mp h with rfl | hrest
      · exact .inl rfl
      · exact .inr (List.mem_cons_of_mem _ hrest)
    next =>
      rcases List.mem_cons.mp h with rfl | hrest
      · exact .inr List.mem_cons_self
      · exact (ih hrest).imp_right (List.mem_cons_of_mem _)

def NodesHold (P : CompetencyEvidence → Prop) (graph : Dict CompetencyEvidence) : Prop :=
  ∀ entry ∈ graph, P entry.2

namespace NodesHold

variable {P : CompetencyEvidence → Prop} {graph : Dict CompetencyEvidence}

theorem set (h : NodesHold P graph) {competencyId : String} {node : CompetencyEvidence}
    (hn : P node) : NodesHold P (Dict.set competencyId node graph) := by
  intro entry hentry
  rcases Dict.mem_set hentry with rfl | hold
  · exact hn
  · exact h entry hold

theorem nodeFor (h : NodesHold P graph) (hblank : ∀ competencyId, P { competencyId })
    (competencyId : String) : P (nodeFor graph competencyId) := by
  unfold NoraInterviewer.nodeFor
  cases hl : graph.lookup competencyId with
  | none => exact hblank competencyId
  | some node =>
    obtain ⟨before, after, hgraph, _⟩ := List.lookup_eq_some_iff.mp hl
    exact h (competencyId, node) (by simp [hgraph])

theorem initial (hblank : ∀ competencyId, P { competencyId }) (job : JobSpec) :
    NodesHold P (initializeEvidence job []) := by
  refine initializeEvidence_induction (fun _ hentry => (by cases hentry)) ?_ job
  intro competencyId graph h entry hentry
  unfold Dict.setDefault at hentry
  split at hentry
  next => exact h entry hentry
  next =>
    rcases List.mem_append.mp hentry with hold | hnew
    · exact h entry hold
    · rw [List.mem_singleton.mp hnew]
      exact hblank competencyId

theorem supersede (h : NodesHold P graph) {turnId : String}
    (hnode : ∀ node, P node → P (supersedeNode turnId node)) :
    NodesHold P (supersedeGraph turnId graph) := by
  intro entry hentry
  obtain ⟨before, hbefore, rfl⟩ := List.mem_map.mp hentry
  exact hnode before.2 (h before hbefore)

theorem prior (h : NodesHold P graph) {turnId : String}
    (hnode : ∀ node, P node → P (supersedeNode turnId node)) (superseding : Bool) :
    NodesHold P (priorGraph superseding turnId graph) := by
  cases superseding with
  | false => exact h
  | true => exact h.supersede hnode

theorem recordClaims (h : NodesHold P graph) (hblank : ∀ competencyId, P { competencyId })
    (hclaim : ∀ node item, item.active = true → item.state = .claimed → P node →
      P (claimNode node item))
    (call : Ambient) (questionTurnId answerTurnId : String) (competencyIds : List String) :
    NodesHold P (recordClaims call questionTurnId answerTurnId graph competencyIds).1 := by
  induction competencyIds generalizing graph with
  | nil => exact h
  | cons competencyId rest ih =>
    rw [recordClaims_cons]
    exact ih (h.set (hclaim _ _ rfl rfl (h.nodeFor hblank competencyId)))

end NodesHold

end NoraInterviewer
