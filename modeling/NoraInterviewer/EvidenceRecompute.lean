import NoraInterviewer.EvidenceItems
import NoraInterviewer.Execution
import NoraInterviewer.Grading

namespace NoraInterviewer

open Grading

def evidenceScale : Scale EvidenceState where
  rank := stateRank
  lowest := .unknown
  highest := .contradicted
  bare state := state = .claimed ∨ state = .unknown
  rank_injective s s' h := by
    cases s <;> cases s' <;> first | rfl | cases h
  lowest_le s := Nat.zero_le _
  le_highest s := by cases s <;> decide
  bare_lowest := rfl
  bare_highest := rfl

def EvidenceItem.mark (item : EvidenceItem) : EvidenceState × UnitScore :=
  (item.state, item.confidence)

/-- What the active items of a competency say. -/
def CompetencyEvidence.marks (node : CompetencyEvidence) : List (EvidenceState × UnitScore) :=
  (node.evidence.filter EvidenceItem.active).map EvidenceItem.mark

theorem mem_marks {node : CompetencyEvidence} {mark : EvidenceState × UnitScore} :
    mark ∈ node.marks ↔
      ∃ item ∈ node.evidence.filter EvidenceItem.active, item.mark = mark :=
  List.mem_map

/-- The greatest rank, as `recompute_node` finds it. -/
theorem strongestRank_greatest {items : List EvidenceItem} (hne : items ≠ []) :
    (∃ item ∈ items, stateRank item.state =
      (items.map fun item => stateRank item.state).foldl max 0) ∧
    ∀ item ∈ items, stateRank item.state ≤
      (items.map fun item => stateRank item.state).foldl max 0 := by
  have hmax : (0 :: items.map fun item => stateRank item.state).max? =
      some ((items.map fun item => stateRank item.state).foldl max 0) := List.max?_cons'
  obtain ⟨hmem, hle⟩ := List.max?_eq_some_iff.mp hmax
  have habove : ∀ item ∈ items, stateRank item.state ≤
      (items.map fun item => stateRank item.state).foldl max 0 :=
    fun item hitem => hle _ (List.mem_cons_of_mem _ (List.mem_map_of_mem hitem))
  refine ⟨?_, habove⟩
  rcases List.mem_cons.mp hmem with hzero | hmem
  · obtain ⟨first, rest, rfl⟩ := List.exists_cons_of_ne_nil hne
    have hfirst := habove first List.mem_cons_self
    exact ⟨first, List.mem_cons_self, by omega⟩
  · obtain ⟨item, hitem, hrank⟩ := List.mem_map.mp hmem
    exact ⟨item, hitem, hrank⟩

/-- The greatest confidence in a state, as `recompute_node` finds it. -/
theorem strongest_confidence {items : List EvidenceItem} {state : EvidenceState}
    (hne : ∃ item ∈ items, item.state = state) (hstate : ∀ item ∈ items, item.state = state)
    (hweighed : evidenceScale.bare state = false) :
    ∃ c, ((items.filter fun item => item.state ≠ .claimed ∧ item.state ≠ .unknown).map
        EvidenceItem.confidence).max? = some c ∧
      (∃ item ∈ items, item.confidence = c) ∧ ∀ item ∈ items, item.confidence ≤ c := by
  have hall : (items.filter fun item => item.state ≠ .claimed ∧ item.state ≠ .unknown) = items := by
    refine List.filter_eq_self.mpr fun item hitem => ?_
    rw [hstate item hitem]
    simpa [evidenceScale] using hweighed
  rw [hall]
  cases hmax : (items.map EvidenceItem.confidence).max? with
  | none =>
    obtain ⟨item, hitem, _⟩ := hne
    rw [List.max?_eq_none_iff, List.map_eq_nil_iff] at hmax
    rw [hmax] at hitem
    cases hitem
  | some c =>
    obtain ⟨hmem, hle⟩ := List.max?_eq_some_iff.mp hmax
    exact ⟨c, rfl, List.mem_map.mp hmem, fun item hitem => hle _ (List.mem_map_of_mem hitem)⟩

theorem bare_confidences {items : List EvidenceItem} {state : EvidenceState}
    (hstate : ∀ item ∈ items, item.state = state) (hbare : evidenceScale.bare state = true) :
    ((items.filter fun item => item.state ≠ .claimed ∧ item.state ≠ .unknown).map
      EvidenceItem.confidence).max? = none := by
  have hnone : (items.filter fun item => item.state ≠ .claimed ∧ item.state ≠ .unknown) = [] := by
    refine List.filter_eq_nil_iff.mpr fun item hitem => ?_
    rw [hstate item hitem]
    have hcases : state = .claimed ∨ state = .unknown := of_decide_eq_true hbare
    rcases hcases with rfl | rfl
    · decide
    · decide
  rw [hnone]
  rfl

/-- `recompute_node` finds the standing of the active items. -/
theorem recomputeNode_standing (node : CompetencyEvidence) :
    Standing evidenceScale node.marks (recomputeNode node).state (recomputeNode node).confidence := by
  unfold recomputeNode CompetencyEvidence.marks
  generalize node.evidence.filter EvidenceItem.active = active
  simp only
  split
  next hstrongest =>
    refine .blank (List.map_eq_nil_iff.mpr ?_)
    by_contra hne
    obtain ⟨⟨item, hitem, hrank⟩, _⟩ := strongestRank_greatest hne
    have hkept := List.filter_eq_nil_iff.mp hstrongest item hitem
    simp [hrank] at hkept
  next first rest hstrongest =>
    have hstrong : ∀ item ∈ first :: rest, item ∈ active ∧ stateRank item.state =
        (active.map fun item => stateRank item.state).foldl max 0 := by
      intro item hitem
      rw [← hstrongest] at hitem
      obtain ⟨hmem, hrank⟩ := List.mem_filter.mp hitem
      exact ⟨hmem, of_decide_eq_true hrank⟩
    obtain ⟨hfirst, hrank⟩ := hstrong first List.mem_cons_self
    obtain ⟨_, habove⟩ := strongestRank_greatest (List.ne_nil_of_mem hfirst)
    have hstate : ∀ item ∈ first :: rest, item.state = first.state := by
      intro item hitem
      exact evidenceScale.rank_injective _ _ ((hstrong item hitem).2.trans hrank.symm)
    have hleads : Leads evidenceScale (active.map EvidenceItem.mark) first.state := by
      refine ⟨⟨first.confidence, List.mem_map_of_mem hfirst⟩, fun mark hmark => ?_⟩
      obtain ⟨item, hitem, rfl⟩ := List.mem_map.mp hmark
      exact (habove item hitem).trans hrank.symm.le
    rw [hstrongest]
    cases hbare : evidenceScale.bare first.state with
    | true =>
      rw [bare_confidences hstate hbare]
      exact .bare hleads hbare
    | false =>
      obtain ⟨c, hmax, ⟨item, hitem, hc⟩, hle⟩ :=
        strongest_confidence ⟨first, List.mem_cons_self, rfl⟩ hstate hbare
      rw [hmax]
      refine .weighed hleads hbare ⟨?_, fun d hd => ?_⟩
      · have hmark : (first.state, c) = item.mark :=
          Prod.ext (hstate item hitem).symm hc.symm
        have hmem : item.mark ∈ active.map EvidenceItem.mark :=
          List.mem_map_of_mem (hstrong item hitem).1
        rw [← hmark] at hmem
        exact hmem
      · obtain ⟨other, hother, hmark⟩ := List.mem_map.mp hd
        have hsame : other.state = first.state := congrArg Prod.fst hmark
        have hd' : other.confidence = d := congrArg Prod.snd hmark
        have hkept : other ∈ first :: rest := by
          rw [← hstrongest]
          refine List.mem_filter.mpr ⟨hother, decide_eq_true ?_⟩
          rw [hsame, hrank]
        rw [← hd']
        exact hle other hkept

/-- A node is up to date exactly if it has the standing of its active items. -/
theorem recomputeNode_eq_iff (node : CompetencyEvidence) :
    recomputeNode node = node ↔ Standing evidenceScale node.marks node.state node.confidence := by
  constructor
  · intro h
    have hstanding := recomputeNode_standing node
    rw [h] at hstanding
    exact hstanding
  · intro h
    obtain ⟨hstate, hconfidence⟩ := (recomputeNode_standing node).unique h
    have hevidence := recomputeNode_evidence node
    have hcompetency : (recomputeNode node).competencyId = node.competencyId := by
      unfold recomputeNode
      simp only
      split
      next => rfl
      next => rfl
    cases hr : recomputeNode node with
    | mk competencyId state confidence evidence =>
      rw [hr] at hstate hconfidence hevidence hcompetency
      cases node
      congr

theorem marks_append {node node' : CompetencyEvidence} {item : EvidenceItem}
    (he : node'.evidence = node.evidence ++ [item]) (ha : item.active = true) :
    node'.marks = node.marks ++ [item.mark] := by
  unfold CompetencyEvidence.marks
  rw [he, List.filter_append, List.map_append]
  simp [ha]

/-- `apply_observation` updates the node by the mark of the new item. -/
theorem observe_update (node : CompetencyEvidence) (item : EvidenceItem) :
    ((node.observe item).state, (node.observe item).confidence) =
      update evidenceScale node.state node.confidence item.mark := by
  have hupdate : update evidenceScale node.state node.confidence item.mark =
      if node.state = .contradicted then (node.state, node.confidence)
      else if stateRank node.state ≤ stateRank item.state then (item.state, some item.confidence)
      else (node.state, node.confidence) := rfl
  rw [hupdate]
  unfold CompetencyEvidence.observe
  simp only
  split
  next => rfl
  next =>
    split
    next hitem =>
      have hle : stateRank node.state ≤ stateRank item.state := by
        rw [hitem]
        exact evidenceScale.le_highest node.state
      rw [if_pos hle, hitem]
    next =>
      split
      next => rfl
      next => rfl

/-- The update and the recomputation of an observed node agree exactly if the new item does. -/
theorem observe_recomputed_iff {node : CompetencyEvidence} {item : EvidenceItem}
    (h : recomputeNode node = node) (ha : item.active = true) :
    recomputeNode (node.observe item) = node.observe item ↔
      Grading.Agrees evidenceScale node.marks item.mark := by
  have hupdate := observe_update node item
  rw [recomputeNode_eq_iff, marks_append (observe_evidence node item) ha,
    ← update_standing_iff ((recomputeNode_eq_iff node).mp h), ← hupdate]

/-- A claim never puts a node out of date. -/
theorem claimNode_recomputed {node : CompetencyEvidence} {item : EvidenceItem}
    (h : recomputeNode node = node) (ha : item.active = true) (hs : item.state = .claimed) :
    recomputeNode (claimNode node item) = claimNode node item := by
  have hstanding := (recomputeNode_eq_iff node).mp h
  have hmark : item.mark.1 = EvidenceState.claimed := hs
  rw [recomputeNode_eq_iff, marks_append (claimNode_evidence node item) ha]
  unfold claimNode
  by_cases hlt : stateRank node.state < stateRank .claimed
  · rw [if_pos hlt]
    have habove : ∀ other ∈ node.marks,
        evidenceScale.rank other.1 ≤ evidenceScale.rank item.mark.1 := by
      intro other hother
      have hle := hstanding.above other hother
      rw [hmark]
      exact hle.trans hlt.le
    have hleads := leads_append habove
    rw [hmark] at hleads
    exact .bare hleads rfl
  · rw [if_neg hlt]
    by_cases heq : node.state = .claimed
    · have hbare : evidenceScale.bare node.state = true := decide_eq_true (.inl heq)
      exact hstanding.append_bare hbare (hmark.trans heq.symm)
    · have hstronger : evidenceScale.rank item.mark.1 < evidenceScale.rank node.state := by
        have hne : stateRank node.state ≠ stateRank .claimed :=
          fun hrank => heq (evidenceScale.rank_injective _ _ hrank)
        rw [hmark]
        have hge := Nat.le_of_not_lt hlt
        exact Nat.lt_of_le_of_ne hge hne.symm
      exact hstanding.append_weaker hstronger

/-- The node is what `recompute_node` makes of it. -/
def Recomputed (node : CompetencyEvidence) : Prop := recomputeNode node = node

/-- Every node says what its active items say. -/
def UpToDate (graph : Dict CompetencyEvidence) : Prop :=
  ∀ entry ∈ graph, recomputeNode entry.2 = entry.2

theorem UpToDate.recomputed {graph : Dict CompetencyEvidence} (h : UpToDate graph)
    (competencyId : String) :
    recomputeNode (nodeFor graph competencyId) = nodeFor graph competencyId :=
  NodesHold.nodeFor (P := Recomputed) h (fun _ => rfl) competencyId

theorem upToDate_initializeEvidence (job : JobSpec) : UpToDate (initializeEvidence job []) :=
  NodesHold.initial (P := Recomputed) (fun _ => rfl) job

theorem recomputeNode_marks (node : CompetencyEvidence) :
    (recomputeNode node).marks = node.marks := by
  unfold CompetencyEvidence.marks
  rw [recomputeNode_evidence]

theorem recomputeNode_recomputed (node : CompetencyEvidence) :
    recomputeNode (recomputeNode node) = recomputeNode node := by
  rw [recomputeNode_eq_iff, recomputeNode_marks]
  exact recomputeNode_standing node

theorem supersedeNode_recomputed {node : CompetencyEvidence} (h : recomputeNode node = node)
    (turnId : String) : recomputeNode (supersedeNode turnId node) = supersedeNode turnId node := by
  unfold supersedeNode
  split
  next => exact recomputeNode_recomputed _
  next => exact h

theorem UpToDate.supersede {graph : Dict CompetencyEvidence} (h : UpToDate graph) (turnId : String) :
    UpToDate (supersedeGraph turnId graph) :=
  NodesHold.supersede (P := Recomputed) h fun _ hnode => supersedeNode_recomputed hnode turnId

theorem UpToDate.prior {graph : Dict CompetencyEvidence} (h : UpToDate graph) (superseding : Bool)
    (turnId : String) : UpToDate (priorGraph superseding turnId graph) :=
  NodesHold.prior (P := Recomputed) h (fun _ hnode => supersedeNode_recomputed hnode turnId) superseding

theorem UpToDate.recordClaims {graph : Dict CompetencyEvidence} (h : UpToDate graph) (call : Ambient)
    (questionTurnId answerTurnId : String) (competencyIds : List String) :
    UpToDate (recordClaims call questionTurnId answerTurnId graph competencyIds).1 :=
  NodesHold.recordClaims (P := Recomputed) h (fun _ => rfl)
    (fun _ _ ha hs hnode => claimNode_recomputed hnode ha hs) call questionTurnId answerTurnId
    competencyIds

/-- What the active items of a competency say in a graph. -/
def activeMarks (graph : Dict CompetencyEvidence) (competencyId : String) :
    List (EvidenceState × UnitScore) :=
  (nodeFor graph competencyId).marks

def EvidenceObservation.mark (observation : EvidenceObservation) : EvidenceState × UnitScore :=
  (observation.state, observation.confidence)

/-- What the observations say about a competency, in order. -/
def observedMarks (competencyId : String) (observations : List EvidenceObservation) :
    List (EvidenceState × UnitScore) :=
  (observations.filter fun observation => observation.competencyId = competencyId).map
    EvidenceObservation.mark

theorem UpToDate.place {graph : Dict CompetencyEvidence} {observation : EvidenceObservation}
    (h : UpToDate graph) (call : Ambient)
    (ha : Grading.Agrees evidenceScale (activeMarks graph observation.competencyId)
      observation.mark) :
    UpToDate (place call graph observation) :=
  NodesHold.set (P := Recomputed) h ((observe_recomputed_iff (h.recomputed observation.competencyId) rfl).mpr ha)

theorem activeMarks_place (call : Ambient) (graph : Dict CompetencyEvidence)
    (observation : EvidenceObservation) (competencyId : String) :
    activeMarks (place call graph observation) competencyId =
      if observation.competencyId = competencyId
      then activeMarks graph competencyId ++ [observation.mark]
      else activeMarks graph competencyId := by
  unfold activeMarks place
  by_cases hown : observation.competencyId = competencyId
  · subst hown
    have hnode : nodeFor (Dict.set observation.competencyId
        ((nodeFor graph observation.competencyId).observe (observedItem call graph observation)) graph)
        observation.competencyId =
        (nodeFor graph observation.competencyId).observe (observedItem call graph observation) := by
      rw [nodeFor, Dict.lookup_set_self]
      rfl
    rw [if_pos rfl, hnode]
    exact marks_append (observe_evidence _ _) rfl
  · have hnode : nodeFor (Dict.set observation.competencyId
        ((nodeFor graph observation.competencyId).observe (observedItem call graph observation)) graph)
        competencyId = nodeFor graph competencyId := by
      rw [nodeFor, Dict.lookup_set_ne (fun heq => hown heq.symm)]
      rfl
    rw [if_neg hown, hnode]

theorem UpToDate.placeAll {graph : Dict CompetencyEvidence} {observations : List EvidenceObservation}
    (h : UpToDate graph) (call : Ambient)
    (ha : ∀ competencyId, AgreesInOrder evidenceScale (activeMarks graph competencyId)
      (observedMarks competencyId observations)) :
    UpToDate (placeAll call graph observations).1 := by
  induction observations generalizing graph with
  | nil => exact h
  | cons observation rest ih =>
    have hfirst := ha observation.competencyId
    rw [observedMarks, List.filter_cons, if_pos (decide_eq_true rfl)] at hfirst
    refine ih (h.place call hfirst.1) fun competencyId => ?_
    have hrest := ha competencyId
    rw [activeMarks_place]
    by_cases hown : observation.competencyId = competencyId
    · rw [observedMarks, List.filter_cons, if_pos (decide_eq_true hown)] at hrest
      rw [if_pos hown]
      exact hrest.2
    · rw [observedMarks, List.filter_cons, if_neg (by simpa using hown)] at hrest
      rw [if_neg hown]
      exact hrest

/-- The observations of an operation agree with what is active when they come. -/
structure AgreesThroughout (call : Call) (operation : Operation) (session : InterviewSession) : Prop where
  reviewed : ∀ observation, operation = .observeEvidence observation →
    Grading.Agrees evidenceScale (activeMarks session.evidenceGraph observation.competencyId)
      observation.mark
  judged : ∀ job dossier question answer supersedeExisting supersedesRunId response placed rest,
    call.job = some job →
    operation.Judges call.toAmbient session.dossier dossier question answer supersedeExisting →
    Gated call job question answer (openRun call dossier question answer supersedesRunId) response
      (placed ++ rest) →
    (∀ observation ∈ placed, Accepts dossier.turns job observation) →
    ∀ competencyId, AgreesInOrder evidenceScale
      (activeMarks (priorGraph supersedeExisting answer.id dossier.graph) competencyId)
      (observedMarks competencyId placed)

/-- A tool's verdict always agrees. -/
theorem ToolObservation.agrees {observation : EvidenceObservation} (h : ToolObservation observation)
    (marks : List (EvidenceState × UnitScore)) :
    Grading.Agrees evidenceScale marks observation.mark := by
  have hbare : evidenceScale.bare observation.mark.1 = false := by
    rcases h.state with hs | hs
    · exact decide_eq_false (by simp [EvidenceObservation.mark, hs])
    · exact decide_eq_false (by simp [EvidenceObservation.mark, hs])
  have hhighest : observation.mark.1 ≠ evidenceScale.highest := by
    intro heq
    have hstate : observation.state = .contradicted := heq
    rcases h.state with hs | hs
    · rw [hs] at hstate
      cases hstate
    · rw [hs] at hstate
      cases hstate
  refine .inr ⟨hbare, fun heq => absurd heq hhighest, fun _ other _ _ => ?_⟩
  have hone : observation.mark.2 = UnitScore.one := h.confidence
  rw [hone]
  exact other.2.property.2

theorem UpToDate.judged {call : Call} {job : JobSpec} {dossier : Dossier} {question answer : Turn}
    {supersedeExisting : Bool} {run run' : EvidenceJudgeRun} {graph : Dict CompetencyEvidence}
    (h : UpToDate dossier.graph)
    (ha : ∀ response placed rest, Gated call job question answer run response (placed ++ rest) →
      (∀ observation ∈ placed, Accepts dossier.turns job observation) →
      ∀ competencyId, AgreesInOrder evidenceScale
        (activeMarks (priorGraph supersedeExisting answer.id dossier.graph) competencyId)
        (observedMarks competencyId placed))
    (ho : JudgeOutcome call job dossier question answer supersedeExisting run graph run') :
    UpToDate graph := by
  have hprior := h.prior supersedeExisting answer.id
  cases ho with
  | refused => exact h
  | unreadable => exact hprior
  | interrupted hg hr haccepts ho => exact hprior.placeAll _ (ha _ _ _ hg haccepts)
  | @completed response observations hg hr haccepts =>
    refine hprior.placeAll _ (ha response observations [] ?_ haccepts)
    rw [List.append_nil]
    exact hg

theorem UpToDate.step {call : Call} {job : JobSpec} {operation : Operation} {start : InterviewSession}
    {dossier dossier' : Dossier} (hjob : call.job = some job)
    (ha : AgreesThroughout call operation start) (h : UpToDate dossier.graph)
    (hstep : DossierStep call job operation start dossier dossier') : UpToDate dossier'.graph := by
  cases hstep with
  | turned hid => exact h
  | claimed competencyIds hmem => exact h.recordClaims _ _ _ _
  | observed ho haccepts hfirst =>
    refine h.place _ ?_
    cases ho with
    | reviewer =>
      have hreviewed := ha.reviewed _ rfl
      rw [hfirst rfl]
      exact hreviewed
    | tool htool => exact htool.agrees _
  | judged hj hmem ho => exact h.judged (fun _ _ _ => ha.judged _ _ _ _ _ _ _ _ _ hjob hj) ho
  | revised hc hd ht hi hr ho => exact h.supersede _

section

variable [CanonicalDigest]

theorem upToDate_throughout {backend : Backend} {versions : List InterviewSession}
    (h : History backend AgreesThroughout versions) :
    ∀ session ∈ versions, UpToDate session.evidenceGraph := by
  refine h.dossier_invariant (P := fun dossier => UpToDate dossier.graph)
    upToDate_initializeEvidence ?_
  intro call job operation start dossier hjob ha hstart hrun
  exact hrun.invariant (P := fun dossier => UpToDate dossier.graph)
    (fun h hstep => h.step hjob ha hstep) hstart

/-- If every observation agrees with what is active when it comes, each node is what
`recompute_node` makes of it, whatever the order in which its active items came. -/
theorem incremental_equals_recomputed {backend backend' : Backend}
    {versions versions' : List InterviewSession} (h : History backend AgreesThroughout versions)
    (h' : History backend' AgreesThroughout versions') :
    ∀ session ∈ versions, ∀ entry ∈ session.evidenceGraph, recomputeNode entry.2 = entry.2 ∧
      ∀ session' ∈ versions', ∀ entry' ∈ session'.evidenceGraph, entry.2.marks.Perm entry'.2.marks →
        entry.2.state = entry'.2.state ∧ entry.2.confidence = entry'.2.confidence := by
  intro session hs entry hentry
  have hnode := upToDate_throughout h session hs entry hentry
  refine ⟨hnode, fun session' hs' entry' hentry' hperm => ?_⟩
  have hstanding := (recomputeNode_eq_iff _).mp (upToDate_throughout h' session' hs' entry' hentry')
  exact (((recomputeNode_eq_iff _).mp hnode).perm hperm).unique hstanding

end

section Runs

attribute [local instance] checksumDigest

def half : UnitScore := ⟨1 / 2, by decide +kernel, by decide +kernel⟩

/-- A reviewer's verdict on the first answer. -/
def verdict (confidence : UnitScore) : EvidenceObservation where
  competencyId := "systems"
  turnId := "turn-1"
  state := .demonstrated
  confidence := confidence
  note := "names a structure"

/-- One answer, and two verdicts on it. -/
def verdictCalls (first second : UnitScore) : List (Call × Operation) := [
  (plainCall askDecision, .start),
  (plainCall askDecision, .answer "I built a queue." []),
  (plainCall askDecision, .observeEvidence (verdict first)),
  (plainCall askDecision, .observeEvidence (verdict second))]

def reviewAgrees (operation : Operation) (session : InterviewSession) : Bool :=
  match operation with
  | .observeEvidence observation => decide (Grading.Agrees evidenceScale
      (activeMarks session.evidenceGraph observation.competencyId) observation.mark)
  | _ => true

theorem reviewAgrees_sound {call : Call} {operation : Operation} {session : InterviewSession}
    (hcall : call = plainCall askDecision) (h : reviewAgrees operation session = true) :
    AgreesThroughout call operation session := by
  refine ⟨fun observation hobserved => ?_, ?_⟩
  · rw [hobserved] at h
    exact of_decide_eq_true h
  · intro job dossier question answer _ _ response placed rest _ _ hg _ competencyId
    obtain ⟨raw, hraw, hobservations⟩ := hg.passed
    have hresponse : response = {} := by
      have hevaluated := hg.evaluated
      rw [hcall] at hevaluated
      exact (Except.ok.inj hevaluated).symm
    rw [hresponse] at hraw
    cases hraw
    have hplaced : placed = [] := (List.append_eq_nil_iff.mp hobservations).1
    rw [hplaced]
    trivial

theorem incremental_equals_recomputed_verdicts :
    ∃ session : InterviewSession, ∃ entry ∈ session.evidenceGraph,
      entry.2.confidence = some UnitScore.one ∧ recomputeNode entry.2 = entry.2 := by
  have hrun : (checkedRun reviewAgrees plainJob .memory (verdictCalls half UnitScore.one)).any
      (fun versions => versions.head?.any fun session => session.evidenceGraph.any fun entry =>
        decide (entry.2.confidence = some UnitScore.one)) = true := by
    decide +kernel
  obtain ⟨session, past, hhistory, hcheck⟩ := checkedRun_last
    (fun call _ => call = plainCall askDecision) (by simp [verdictCalls]) hrun
  obtain ⟨entry, hentry, hconfidence⟩ := List.any_eq_true.mp hcheck
  have hagrees : History .memory AgreesThroughout (session :: past) :=
    hhistory.mono fun _ _ _ h => reviewAgrees_sound h.1.2 h.2
  refine ⟨session, entry, hentry, of_decide_eq_true hconfidence, ?_⟩
  exact (incremental_equals_recomputed hagrees hagrees session List.mem_cons_self entry hentry).1

/-- The second verdict lowers the confidence, which `recompute_node` would not. -/
theorem incremental_forgets_confidence :
    ¬∀ (backend : Backend) (versions : List InterviewSession),
      History backend (fun _ _ _ => True) versions → ∀ session ∈ versions,
        ∀ entry ∈ session.evidenceGraph, recomputeNode entry.2 = entry.2 := by
  intro hclaim
  have hrun : (jobRun plainJob .memory (verdictCalls UnitScore.one half)).any (fun versions =>
      versions.head?.any fun session => session.evidenceGraph.any fun entry =>
        decide ((recomputeNode entry.2).confidence ≠ entry.2.confidence)) = true := by
    decide +kernel
  obtain ⟨session, past, hhistory, hcheck⟩ := jobRun_last (fun _ _ => True) (fun _ _ => trivial) hrun
  obtain ⟨entry, hentry, hne⟩ := List.any_eq_true.mp hcheck
  have hsame := hclaim .memory _ (hhistory.mono fun _ _ _ _ => trivial) session List.mem_cons_self
    entry hentry
  exact of_decide_eq_true hne (congrArg CompetencyEvidence.confidence hsame)

end Runs

end NoraInterviewer
