import NoraInterviewer.EvidenceRecompute

namespace NoraInterviewer

open Grading

/-- The state of the node is the highest-ranked one of its active items. -/
def StateGraded (node : CompetencyEvidence) : Prop := Graded evidenceScale node.marks node.state

theorem StateGraded.observe {node : CompetencyEvidence} {item : EvidenceItem} (h : StateGraded node)
    (ha : item.active = true) : StateGraded (node.observe item) := by
  have hupdate := congrArg Prod.fst (observe_update node item)
  rw [StateGraded, marks_append (observe_evidence node item) ha]
  simp only at hupdate
  rw [hupdate]
  exact h.update

theorem StateGraded.claim {node : CompetencyEvidence} {item : EvidenceItem} (h : StateGraded node)
    (ha : item.active = true) (hs : item.state = .claimed) : StateGraded (claimNode node item) := by
  have hmark : item.mark.1 = EvidenceState.claimed := hs
  rw [StateGraded, marks_append (claimNode_evidence node item) ha]
  unfold claimNode
  by_cases hlt : stateRank node.state < stateRank .claimed
  · rw [if_pos hlt]
    have hled : Graded evidenceScale (node.marks ++ [item.mark]) item.mark.1 := by
      apply h.append_stronger
      rw [hmark]
      exact hlt.le
    rw [hmark] at hled
    exact hled
  · rw [if_neg hlt]
    have hge : stateRank .claimed ≤ stateRank node.state := Nat.le_of_not_lt hlt
    by_cases heq : node.state = .claimed
    · have hled : Graded evidenceScale (node.marks ++ [item.mark]) item.mark.1 := by
        apply h.append_stronger
        rw [hmark, heq]
      rw [hmark, ← heq] at hled
      exact hled
    · apply h.append_weaker
      have hne : stateRank node.state ≠ stateRank .claimed :=
        fun hrank => heq (evidenceScale.rank_injective _ _ hrank)
      rw [hmark]
      show stateRank .claimed < stateRank node.state
      omega

theorem StateGraded.supersede {node : CompetencyEvidence} (h : StateGraded node) (turnId : String) :
    StateGraded (supersedeNode turnId node) := by
  unfold supersedeNode
  split
  next =>
    rw [StateGraded, recomputeNode_marks]
    exact (recomputeNode_standing _).graded
  next => exact h

/-- What the rules of the evidence graph keep of a node, every node of it has. -/
structure NodeRules (P : CompetencyEvidence → Prop) : Prop where
  blank : ∀ competencyId, P { competencyId }
  claim : ∀ node item, item.active = true → item.state = .claimed → P node → P (claimNode node item)
  observe : ∀ node item, item.active = true → P node → P (node.observe item)
  supersede : ∀ turnId node, P node → P (supersedeNode turnId node)

theorem stateGraded_rules : NodeRules StateGraded where
  blank _ := .blank rfl
  claim _ _ ha hs h := h.claim ha hs
  observe _ _ ha h := h.observe ha
  supersede turnId _ h := h.supersede turnId

namespace NodesHold

variable {P : CompetencyEvidence → Prop} {graph : Dict CompetencyEvidence}

theorem place (hrules : NodeRules P) (h : NodesHold P graph) (call : Ambient)
    (observation : EvidenceObservation) : NodesHold P (place call graph observation) :=
  h.set (hrules.observe _ _ rfl (h.nodeFor hrules.blank observation.competencyId))

theorem placeAll (hrules : NodeRules P) (h : NodesHold P graph) (call : Ambient)
    (observations : List EvidenceObservation) : NodesHold P (placeAll call graph observations).1 := by
  induction observations generalizing graph with
  | nil => exact h
  | cons observation rest ih => exact ih (h.place hrules call observation)

theorem step (hrules : NodeRules P) {call : Call} {job : JobSpec} {operation : Operation}
    {start : InterviewSession} {dossier dossier' : Dossier} (h : NodesHold P dossier.graph)
    (hstep : DossierStep call job operation start dossier dossier') :
    NodesHold P dossier'.graph := by
  cases hstep with
  | turned hid => exact h
  | claimed competencyIds ha => exact h.recordClaims hrules.blank hrules.claim _ _ _ _
  | observed ho ha hfirst => exact h.place hrules _ _
  | @judged _ answer _ _ graph run hj ha ho =>
    obtain ⟨superseding, placed, hplaced⟩ := ho.placed rfl
    have hprior := h.prior (hrules.supersede answer.id) superseding
    have hgraph := hprior.placeAll hrules call.toAmbient placed
    rw [← hplaced.graph_eq] at hgraph
    exact hgraph
  | revised hc hd ht hi hr ho => exact h.supersede (hrules.supersede _)

end NodesHold

theorem History.nodes_hold [CanonicalDigest] {P : CompetencyEvidence → Prop} (hrules : NodeRules P)
    {backend : Backend} {admissible : Call → Operation → InterviewSession → Prop}
    {versions : List InterviewSession} (h : History backend admissible versions) :
    ∀ session ∈ versions, NodesHold P session.evidenceGraph := by
  refine h.dossier_invariant (P := fun dossier => NodesHold P dossier.graph)
    (NodesHold.initial hrules.blank) ?_
  intro call job operation start dossier _ _ hstart hrun
  exact hrun.invariant (P := fun dossier => NodesHold P dossier.graph)
    (fun h hstep => h.step hrules hstep) hstart

/-- The items of the node are still there, in their places; they may have been superseded. -/
def Outlives (node node' : CompetencyEvidence) : Prop :=
  ∀ (i : ℕ) (item : EvidenceItem), node.evidence[i]? = some item →
    node'.evidence[i]? = some item ∨ node'.evidence[i]? = some { item with active := false }

theorem Outlives.refl (node : CompetencyEvidence) : Outlives node node :=
  fun _ _ h => .inl h

theorem Outlives.trans {a b c : CompetencyEvidence} (hab : Outlives a b) (hbc : Outlives b c) :
    Outlives a c := by
  intro i item hitem
  rcases hab i item hitem with hkept | hretired
  · exact hbc i item hkept
  · rcases hbc i _ hretired with hkept | hretired
    · exact .inr hkept
    · exact .inr hretired

theorem Outlives.append {node node' : CompetencyEvidence} {item : EvidenceItem}
    (h : node'.evidence = node.evidence ++ [item]) : Outlives node node' := by
  intro i other hother
  obtain ⟨hlt, _⟩ := List.getElem?_eq_some_iff.mp hother
  rw [h, List.getElem?_append_left hlt]
  exact .inl hother

theorem Outlives.supersede (turnId : String) (node : CompetencyEvidence) :
    Outlives node (supersedeNode turnId node) := by
  intro i item hitem
  rw [supersedeNode_evidence, List.getElem?_map, hitem, Option.map_some]
  unfold retire
  split
  next => exact .inr rfl
  next => exact .inl rfl

/-- Every node of the first graph lives on in the second. -/
def GraphOutlives (graph graph' : Dict CompetencyEvidence) : Prop :=
  ∀ competencyId node, graph.lookup competencyId = some node →
    ∃ node', graph'.lookup competencyId = some node' ∧ Outlives node node'

namespace GraphOutlives

variable {graph graph' : Dict CompetencyEvidence}

theorem refl (graph : Dict CompetencyEvidence) : GraphOutlives graph graph :=
  fun _ node h => ⟨node, h, .refl node⟩

theorem trans {mid : Dict CompetencyEvidence} (h : GraphOutlives graph mid)
    (h' : GraphOutlives mid graph') : GraphOutlives graph graph' := by
  intro competencyId node hnode
  obtain ⟨other, hother, hfirst⟩ := h competencyId node hnode
  obtain ⟨last, hlast, hsecond⟩ := h' competencyId other hother
  exact ⟨last, hlast, hfirst.trans hsecond⟩

theorem set {competencyId : String} {node : CompetencyEvidence}
    (h : Outlives (nodeFor graph competencyId) node) :
    GraphOutlives graph (Dict.set competencyId node graph) := by
  intro other before hbefore
  rw [Dict.lookup_set]
  by_cases hother : other = competencyId
  · rw [if_pos hother]
    rw [hother] at hbefore
    rw [nodeFor, hbefore] at h
    exact ⟨node, rfl, h⟩
  · rw [if_neg hother]
    exact ⟨before, hbefore, .refl before⟩

theorem supersede (turnId : String) (graph : Dict CompetencyEvidence) :
    GraphOutlives graph (supersedeGraph turnId graph) := by
  intro competencyId node hnode
  refine ⟨supersedeNode turnId node, ?_, .supersede turnId node⟩
  induction graph with
  | nil => cases hnode
  | cons entry rest ih =>
    obtain ⟨key, value⟩ := entry
    rw [List.lookup_cons] at hnode
    rw [supersedeGraph, List.map_cons, List.lookup_cons]
    split at hnode
    next hkey =>
      cases hnode
      rw [hkey]
    next hkey =>
      rw [hkey]
      exact ih hnode

theorem prior (superseding : Bool) (turnId : String) (graph : Dict CompetencyEvidence) :
    GraphOutlives graph (priorGraph superseding turnId graph) := by
  cases superseding with
  | false => exact .refl graph
  | true => exact .supersede turnId graph

theorem place (call : Ambient) (graph : Dict CompetencyEvidence)
    (observation : EvidenceObservation) :
    GraphOutlives graph (place call graph observation) :=
  set (.append (observe_evidence _ _))

theorem placeAll (call : Ambient) (graph : Dict CompetencyEvidence)
    (observations : List EvidenceObservation) :
    GraphOutlives graph (placeAll call graph observations).1 := by
  induction observations generalizing graph with
  | nil => exact .refl graph
  | cons observation rest ih => exact (place call graph observation).trans (ih _)

theorem recordClaims (call : Ambient) (questionTurnId answerTurnId : String)
    (graph : Dict CompetencyEvidence) (competencyIds : List String) :
    GraphOutlives graph (recordClaims call questionTurnId answerTurnId graph competencyIds).1 := by
  induction competencyIds generalizing graph with
  | nil => exact .refl graph
  | cons competencyId rest ih =>
    rw [recordClaims_cons]
    exact (set (.append (claimNode_evidence _ _))).trans (ih _)

theorem step {call : Call} {job : JobSpec} {operation : Operation} {start : InterviewSession}
    {dossier dossier' : Dossier}
    (hstep : DossierStep call job operation start dossier dossier') :
    GraphOutlives dossier.graph dossier'.graph := by
  cases hstep with
  | turned hid => exact .refl _
  | claimed competencyIds ha => exact .recordClaims _ _ _ _ _
  | observed ho ha hfirst => exact .place _ _ _
  | @judged _ answer _ _ graph run hj ha ho =>
    obtain ⟨superseding, placed, hplaced⟩ := ho.placed rfl
    have hgraph := (GraphOutlives.prior superseding answer.id dossier.graph).trans
      (.placeAll call.toAmbient _ placed)
    rw [← hplaced.graph_eq] at hgraph
    exact hgraph
  | revised hc hd ht hi hr ho => exact .supersede _ _

end GraphOutlives

section

variable [CanonicalDigest] {backend : Backend}
  {admissible : Call → Operation → InterviewSession → Prop} {versions : List InterviewSession}

theorem History.evidence_outlives (h : History backend admissible versions) :
    versions.Pairwise fun later earlier =>
      GraphOutlives earlier.evidenceGraph later.evidenceGraph := by
  refine h.pairwise GraphOutlives.trans ?_
  intro call operation session session' hm
  obtain ⟨job, _, hrun⟩ := mutate_dossier hm
  have hgraph : ∀ dossier, DossierRun call job operation session session.dossier dossier →
      GraphOutlives session.evidenceGraph dossier.graph := by
    intro dossier hrun
    exact hrun.invariant (P := fun dossier => GraphOutlives session.evidenceGraph dossier.graph)
      (fun h hstep => h.trans (.step hstep)) (.refl _)
  have hstored := congrArg Dossier.graph (stored_dossier backend session')
  show GraphOutlives session.evidenceGraph (backend.stored session').dossier.graph
  rw [hstored]
  exact hgraph _ hrun

omit [CanonicalDigest] in
theorem stateGraded_contradicted {node : CompetencyEvidence} (h : StateGraded node) :
    node.state = .contradicted ↔
      ∃ item ∈ node.evidence, item.active = true ∧ item.state = .contradicted := by
  refine (Graded.highest_iff h).trans ⟨?_, ?_⟩
  · rintro ⟨mark, hmem, hstate⟩
    obtain ⟨item, hitem, rfl⟩ := mem_marks.mp hmem
    obtain ⟨hkept, hactive⟩ := List.mem_filter.mp hitem
    exact ⟨item, hkept, hactive, hstate⟩
  · rintro ⟨item, hitem, hactive, hstate⟩
    exact ⟨item.mark, mem_marks.mpr ⟨item, List.mem_filter.mpr ⟨hitem, hactive⟩, rfl⟩, hstate⟩

/-- The state ranks highest among the active items, and is UNKNOWN when there are none. -/
structure CompetencyEvidence.Strongest (node : CompetencyEvidence) : Prop where
  occurs : (∃ item ∈ node.evidence, item.active = true ∧ item.state = node.state) ∨
    node.state = .unknown ∧ ∀ item ∈ node.evidence, item.active = false
  above : ∀ item ∈ node.evidence, item.active = true → stateRank item.state ≤ stateRank node.state

omit [CanonicalDigest] in
theorem StateGraded.strongest {node : CompetencyEvidence} (h : StateGraded node) :
    node.Strongest := by
  constructor
  · have hgraded : Graded evidenceScale node.marks node.state := h
    generalize node.state = state at hgraded ⊢
    cases hgraded with
    | blank hnil =>
      refine .inr ⟨rfl, fun item hitem => ?_⟩
      have hinactive := List.filter_eq_nil_iff.mp (List.map_eq_nil_iff.mp hnil) item hitem
      exact Bool.eq_false_iff.mpr hinactive
    | led hl =>
      obtain ⟨c, hc⟩ := hl.occurs
      obtain ⟨item, hitem, hmark⟩ := mem_marks.mp hc
      obtain ⟨hkept, hactive⟩ := List.mem_filter.mp hitem
      exact .inl ⟨item, hkept, hactive, congrArg Prod.fst hmark⟩
  · intro item hitem hactive
    exact h.above _ (mem_marks.mpr ⟨item, List.mem_filter.mpr ⟨hitem, hactive⟩, rfl⟩)

/-- A competency is contradicted exactly as long as an active item contradicts it, and otherwise in
the strongest state of its active items: a later version clears a contradiction only if it has
superseded every item that made it. -/
theorem contradiction_sticky (h : History backend admissible versions) :
    (∀ session ∈ versions, ∀ entry ∈ session.evidenceGraph,
      (entry.2.state = .contradicted ↔
        ∃ item ∈ entry.2.evidence, item.active = true ∧ item.state = .contradicted) ∧
      entry.2.Strongest) ∧
    versions.Pairwise fun later earlier => ∀ competencyId node,
      earlier.evidenceGraph.lookup competencyId = some node → node.state = .contradicted →
        ∃ node', later.evidenceGraph.lookup competencyId = some node' ∧ Outlives node node' ∧
          (node'.state ≠ .contradicted → ∀ (i : ℕ) (item : EvidenceItem),
            node.evidence[i]? = some item → item.active = true → item.state = .contradicted →
              node'.evidence[i]? = some { item with active := false }) := by
  have hgraded := h.nodes_hold stateGraded_rules
  refine ⟨fun session hs entry hentry => ?_, ?_⟩
  · have hnode := hgraded session hs entry hentry
    exact ⟨stateGraded_contradicted hnode, hnode.strongest⟩
  · refine h.evidence_outlives.imp_of_mem ?_
    intro later earlier hlater _ houtlives competencyId node hnode _
    obtain ⟨node', hnode', hkept⟩ := houtlives competencyId node hnode
    refine ⟨node', hnode', hkept, fun hcleared i item hitem hactive hstate => ?_⟩
    rcases hkept i item hitem with hsame | hretired
    · obtain ⟨before, after, hgraph, _⟩ := List.lookup_eq_some_iff.mp hnode'
      have hlast := hgraded later hlater (competencyId, node') (by simp [hgraph])
      have hcontradicted := (stateGraded_contradicted hlast).mpr
        ⟨item, List.mem_of_getElem? hsame, hactive, hstate⟩
      exact absurd hcontradicted hcleared
    · exact hretired

end

section Runs

attribute [local instance] checksumDigest

/-- A finding that speaks against the first answer. -/
def contradiction : EvidenceObservation where
  competencyId := "systems"
  turnId := "turn-1"
  state := .contradicted
  confidence := half
  note := "built no queue"
  source := "semantic_judge:review"

/-- A contradiction, a verdict that does not clear it, and a correction that does. -/
def clearedCalls : List (Call × Operation) := [
  (plainCall askDecision, .start),
  (plainCall askDecision, .answer "I built a queue." []),
  (plainCall askDecision, .observeEvidence contradiction),
  (plainCall askDecision, .observeEvidence (verdict half)),
  (plainCall askDecision, .correctTranscript ⟨"turn-1", "I built a log.", none⟩)]

def systemsState (session : InterviewSession) : Option EvidenceState :=
  (session.evidenceGraph.lookup "systems").map CompetencyEvidence.state

theorem contradiction_sticky_cleared : ∃ later earlier past,
    History .json (Admits fun _ _ => True) (later :: earlier :: past) ∧
    systemsState earlier = some .contradicted ∧ systemsState later = some .demonstrated ∧
    ∃ node node', earlier.evidenceGraph.lookup "systems" = some node ∧
      later.evidenceGraph.lookup "systems" = some node' ∧ Outlives node node' := by
  have hrun : (jobRun plainJob .json clearedCalls).any (fun versions =>
      (versions.map systemsState).take 3 =
        [some .demonstrated, some .contradicted, some .contradicted]) = true := by decide +kernel
  obtain ⟨versions, hversions, hcheck⟩ := (Option.any_eq_true _ _).mp hrun
  have hhistory := jobRun_history (fun _ _ => True) hversions fun _ _ => trivial
  have hstates := of_decide_eq_true hcheck
  cases versions with
  | nil => cases hstates
  | cons later rest =>
    cases rest with
    | nil =>
      have hlength := congrArg List.length hstates
      cases hlength
    | cons earlier past =>
      simp only [List.map_cons, List.take_succ_cons, List.cons.injEq] at hstates
      obtain ⟨hlater, hearlier, _⟩ := hstates
      obtain ⟨node, hnode, hstate⟩ := Option.map_eq_some_iff.mp hearlier
      have hsticky := (List.pairwise_cons.mp (contradiction_sticky hhistory).2).1 earlier
        List.mem_cons_self
      obtain ⟨node', hnode', hkept, _⟩ := hsticky "systems" node hnode hstate
      exact ⟨later, earlier, past, hhistory, hearlier, hlater, node, node', hnode, hnode', hkept⟩

end Runs

end NoraInterviewer
