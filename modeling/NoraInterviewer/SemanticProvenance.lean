import NoraInterviewer.Grounding
import NoraInterviewer.FailedRuns

namespace NoraInterviewer

def Dossier.revisionCount (dossier : Dossier) (turnId : String) : Nat :=
  dossier.revisions.countP fun revision => revision.turnId = turnId

/-- The text of a turn at the time when it had been revised so many times. -/
def Dossier.textAt (dossier : Dossier) (turnId : String) (count : Nat) : Option String :=
  match (dossier.revisions.filter fun revision => revision.turnId = turnId)[count]? with
  | some revision => some revision.originalText
  | none => (dossier.turns.find? fun turn => turn.id = turnId).map Turn.text

/-- One run of the dossier, which did not fail, brought the item in. -/
structure JudgedBy (dossier : Dossier) (item : EvidenceItem) (index : Nat)
    (run : EvidenceJudgeRun) : Prop where
  recorded : dossier.runs[index]? = some run
  listed : item.id ∈ run.observationIds
  alone : ∀ other run', dossier.runs[other]? = some run' → item.id ∈ run'.observationIds →
    other = index
  succeeded : run.error = none
  runId : item.judgeRunId = some run.id
  turnId : item.turnId = run.answerTurnId
  unverified : item.state ≠ .verified
  quoted : item.state = .demonstrated ∨ item.state = .contradicted →
    ∃ quote text, item.quote = some quote ∧ quote ≠ "" ∧
      dossier.textAt item.turnId run.transcriptRevisionCount = some text ∧
      isSubstring quote text = true

/-- The findings of a judge go in as a whole, or not at all. -/
def SettlesWhole (call : Call) (job : JobSpec) (dossier : Dossier) (question answer : Turn)
    (run : EvidenceJudgeRun) : Prop :=
  ∀ response first rest, Gated call job question answer run response (first :: rest) →
    auditReadable response.audit = true → Accepts dossier.turns job first →
    ∀ observation ∈ rest, Accepts dossier.turns job observation

/-- No reviewer signs as a judge, and no run is interrupted half way. -/
structure Unforged (call : Call) (operation : Operation) (session : InterviewSession) : Prop where
  signed : ∀ observation, operation = .observeEvidence observation →
    startsWith observation.source "semantic_judge:" = false
  whole : ∀ job dossier question answer supersedeExisting supersedesRunId, call.job = some job →
    operation.Judges call.toAmbient session.dossier dossier question answer supersedeExisting →
    SettlesWhole call job dossier question answer (openRun call dossier question answer supersedesRunId)

/-- What the runs of a dossier say about its items. -/
structure Provenance (dossier : Dossier) : Prop where
  judged : ∀ item ∈ evidenceItems dossier.graph, startsWith item.source "semantic_judge:" = true →
    ∃ index run, JudgedBy dossier item index run
  known : ∀ run ∈ dossier.runs, ∀ id ∈ run.observationIds,
    id ∈ (evidenceItems dossier.graph).map EvidenceItem.id
  timely : ∀ run ∈ dossier.runs,
    run.transcriptRevisionCount ≤ dossier.revisionCount run.answerTurnId

theorem startsWith_append (lead rest : String) : startsWith (lead ++ rest) lead = true := by
  rw [startsWith, String.toList_append]
  exact List.isPrefixOf_iff_prefix.mpr (List.prefix_append _ _)

theorem tool_source (kind : ToolKind) :
    startsWith ("tool:" ++ kind.value) "semantic_judge:" = false := by
  cases kind <;> decide

variable {dossier dossier' : Dossier} {item : EvidenceItem} {index : Nat} {run : EvidenceJudgeRun}

theorem retire_eq (turnId : String) (item : EvidenceItem) :
    ∃ active, retire turnId item = { item with active } := by
  unfold retire
  split
  next => exact ⟨false, rfl⟩
  next => exact ⟨item.active, rfl⟩

theorem JudgedBy.retire (h : JudgedBy dossier item index run) (turnId : String) :
    JudgedBy dossier (retire turnId item) index run := by
  obtain ⟨active, hretire⟩ := retire_eq turnId item
  rw [hretire]
  exact ⟨h.recorded, h.listed, h.alone, h.succeeded, h.runId, h.turnId, h.unverified, h.quoted⟩

/-- An item stays with its run while later runs list other items. -/
theorem JudgedBy.mono {added : List EvidenceJudgeRun} (h : JudgedBy dossier item index run)
    (hruns : dossier'.runs = dossier.runs ++ added)
    (hadded : ∀ other ∈ added, item.id ∉ other.observationIds)
    (htext : ∀ text, dossier.textAt item.turnId run.transcriptRevisionCount = some text →
      dossier'.textAt item.turnId run.transcriptRevisionCount = some text) :
    JudgedBy dossier' item index run := by
  refine ⟨?_, h.listed, fun other run' hget hmem => ?_, h.succeeded, h.runId, h.turnId,
    h.unverified, fun hstate => ?_⟩
  · have hlt := (List.getElem?_eq_some_iff.mp h.recorded).1
    rw [hruns, List.getElem?_append_left hlt]
    exact h.recorded
  · rw [hruns] at hget
    by_cases hlt : other < dossier.runs.length
    · rw [List.getElem?_append_left hlt] at hget
      exact h.alone other run' hget hmem
    · rw [List.getElem?_append_right (by omega)] at hget
      exact absurd hmem (hadded run' (List.mem_of_getElem? hget))
  · obtain ⟨quote, text, hq, hne, ht, hsub⟩ := h.quoted hstate
    exact ⟨quote, text, hq, hne, htext text ht, hsub⟩

theorem textAt_now {turnId : String} {turn : Turn}
    (h : dossier.turns.find? (fun turn => turn.id = turnId) = some turn) :
    dossier.textAt turnId (dossier.revisionCount turnId) = some turn.text := by
  rw [Dossier.textAt, Dossier.revisionCount, List.countP_eq_length_filter,
    List.getElem?_eq_none le_rfl, h]
  rfl

theorem textAt_turned {turn : Turn} {turnId text : String} {count : Nat}
    (h : dossier.textAt turnId count = some text) :
    Dossier.textAt { dossier with turns := dossier.turns ++ [turn] } turnId count = some text := by
  unfold Dossier.textAt at h ⊢
  split at h
  next revision hget =>
    rw [hget]
    exact h
  next hget =>
    rw [hget]
    simp only
    obtain ⟨found, hfound, htext⟩ := Option.map_eq_some_iff.mp h
    rw [List.find?_append, hfound]
    exact congrArg some htext

/-- A revision keeps the text that it replaces. -/
theorem textAt_revised {position : Nat} {turn : Turn} {text turnId before : String}
    {metadata : Dict Json} {revision : TranscriptRevision} {graph : Dict CompetencyEvidence} {count : Nat}
    (ht : dossier.turns[position]? = some turn)
    (hi : position = dossier.turns.findIdx fun other => other.id = turn.id)
    (hr : revision.turnId = turn.id) (ho : revision.originalText = turn.text)
    (hcount : count ≤ dossier.revisionCount turnId)
    (h : dossier.textAt turnId count = some before) :
    Dossier.textAt { dossier with
      turns := dossier.turns.modify position fun turn => { turn with text, metadata }
      revisions := dossier.revisions ++ [revision]
      graph := graph } turnId count = some before := by
  have hfind : dossier.turns.find? (fun other => other.id = turn.id) = some turn := by
    rw [List.find?_eq_getElem?_findIdx, ← hi]
    exact ht
  have hlookup := find?_modify_first (f := fun turn => { turn with text, metadata }) (fun _ => rfl)
    dossier.turns turn.id turnId
  rw [← hi] at hlookup
  rw [Dossier.revisionCount, List.countP_eq_length_filter] at hcount
  unfold Dossier.textAt at h ⊢
  simp only
  rw [List.filter_append, hlookup]
  by_cases hlt : count < (dossier.revisions.filter fun revision => revision.turnId = turnId).length
  · rw [List.getElem?_append_left hlt]
    rw [List.getElem?_eq_getElem hlt] at h ⊢
    exact h
  · rw [List.getElem?_eq_none (by omega)] at h
    rw [List.getElem?_append_right (by omega)]
    by_cases hown : turn.id = turnId
    · have hlast : count -
          (dossier.revisions.filter fun revision => revision.turnId = turnId).length = 0 := by
        omega
      subst hown
      rw [hfind] at h
      simp only [Option.map_some, Option.some.injEq] at h
      simp [hlast, hr, ho, h]
    · have hother : ¬revision.turnId = turnId := fun hc => hown (hr.symm.trans hc)
      simpa [hown, hother] using h

/-- What a run was opened for, it keeps. -/
structure SameRun (run run' : EvidenceJudgeRun) : Prop where
  id : run'.id = run.id
  answerTurnId : run'.answerTurnId = run.answerTurnId
  transcriptRevisionCount : run'.transcriptRevisionCount = run.transcriptRevisionCount

theorem JudgeOutcome.same {call : Call} {job : JobSpec} {question answer : Turn}
    {supersedeExisting : Bool} {graph : Dict CompetencyEvidence} {run' : EvidenceJudgeRun}
    (h : JudgeOutcome call job dossier question answer supersedeExisting run graph run') :
    SameRun run run' := by
  cases h with
  | refused h => exact ⟨rfl, rfl, rfl⟩
  | unreadable hg hr => exact ⟨rfl, rfl, rfl⟩
  | interrupted hg hr ha ho => exact ⟨rfl, rfl, rfl⟩
  | completed hg hr ha => exact ⟨rfl, rfl, rfl⟩

/-- A run that settles whole has placed something only if it did not fail, and one that did not
fail has superseded what it was asked to. -/
theorem JudgeOutcome.settled {call : Call} {job : JobSpec} {question answer : Turn}
    {supersedeExisting : Bool} {graph : Dict CompetencyEvidence} {run' : EvidenceJudgeRun}
    (hwhole : SettlesWhole call job dossier question answer run)
    (hnew : run.observationIds = []) (hopen : run.error = none)
    (h : JudgeOutcome call job dossier question answer supersedeExisting run graph run') :
    ∃ superseding placed,
      PlacedBy call job dossier question answer superseding run graph run' placed ∧
        (placed ≠ [] → run'.error = none) ∧
          (run'.error = none → superseding = supersedeExisting) := by
  cases h with
  | refused h =>
    refine ⟨false, [], ⟨fun _ hmem => (by cases hmem), fun _ hmem => (by cases hmem), rfl, hnew⟩,
      fun hne => absurd rfl hne, fun herror => (by cases herror)⟩
  | unreadable hg hr =>
    exact ⟨supersedeExisting, [], ⟨fun _ hmem => (by cases hmem), fun _ hmem => (by cases hmem),
      rfl, hnew⟩, fun hne => absurd rfl hne, fun _ => rfl⟩
  | @interrupted response placed rest observation e hg hr ha ho =>
    refine ⟨supersedeExisting, placed, ⟨fun observation hmem => ?_, ha, rfl, placeAll_ids _ _ _⟩,
      fun hne => ?_, fun _ => rfl⟩
    · exact hg.judged observation (List.mem_append_left _ hmem)
    · cases placed with
      | nil => exact absurd rfl hne
      | cons first others =>
        have hfirst := ha first List.mem_cons_self
        have hlast := hwhole _ _ _ hg hr hfirst observation (by simp)
        exact absurd hlast ho
  | completed hg hr ha =>
    exact ⟨supersedeExisting, _, ⟨hg.judged, ha, rfl, placeAll_ids _ _ _⟩, fun _ => hopen,
      fun _ => rfl⟩

/-- What a step has to leave in place. -/
structure Carries (dossier dossier' : Dossier) (added : List EvidenceJudgeRun) : Prop where
  runs : dossier'.runs = dossier.runs ++ added
  ids : ∀ id ∈ (evidenceItems dossier.graph).map EvidenceItem.id,
    id ∈ (evidenceItems dossier'.graph).map EvidenceItem.id
  counts : ∀ turnId, dossier.revisionCount turnId ≤ dossier'.revisionCount turnId
  texts : ∀ turnId count text, count ≤ dossier.revisionCount turnId →
    dossier.textAt turnId count = some text → dossier'.textAt turnId count = some text
  listed : ∀ run ∈ added, ∀ id ∈ run.observationIds,
    id ∈ (evidenceItems dossier'.graph).map EvidenceItem.id ∧
      id ∉ (evidenceItems dossier.graph).map EvidenceItem.id
  timely : ∀ run ∈ added,
    run.transcriptRevisionCount ≤ dossier'.revisionCount run.answerTurnId
  items : ∀ item ∈ evidenceItems dossier'.graph, startsWith item.source "semantic_judge:" = true →
    (∃ before ∈ evidenceItems dossier.graph, ∃ turnId, item = before ∨ item = retire turnId before) ∨
      ∃ index run, JudgedBy dossier' item index run

theorem retire_source (turnId : String) (item : EvidenceItem) :
    (retire turnId item).source = item.source := by
  obtain ⟨active, hretire⟩ := retire_eq turnId item
  rw [hretire]

theorem Provenance.carry (h : Provenance dossier) (added : List EvidenceJudgeRun)
    (hc : Carries dossier dossier' added) : Provenance dossier' := by
  constructor
  · intro item hitem hsource
    rcases hc.items item hitem hsource with ⟨before, hbefore, turnId, hold⟩ | hnew
    · have hsource' : startsWith before.source "semantic_judge:" = true := by
        rcases hold with rfl | rfl
        · exact hsource
        · rw [retire_source] at hsource
          exact hsource
      obtain ⟨index, run, hrun⟩ := h.judged before hbefore hsource'
      have htimely := h.timely run (List.mem_of_getElem? hrun.recorded)
      rw [← hrun.turnId] at htimely
      have hkept : JudgedBy dossier' before index run := by
        refine hrun.mono hc.runs (fun other hother hmem => ?_)
          fun text => hc.texts _ _ text htimely
        exact (hc.listed other hother _ hmem).2 (List.mem_map_of_mem hbefore)
      refine ⟨index, run, ?_⟩
      rcases hold with rfl | rfl
      · exact hkept
      · exact hkept.retire turnId
    · exact hnew
  · intro run hrun id hid
    rw [hc.runs] at hrun
    rcases List.mem_append.mp hrun with hold | hnew
    · exact hc.ids id (h.known run hold id hid)
    · exact (hc.listed run hnew id hid).1
  · intro run hrun
    rw [hc.runs] at hrun
    rcases List.mem_append.mp hrun with hold | hnew
    · exact (h.timely run hold).trans (hc.counts _)
    · exact hc.timely run hnew

/-- Items that are not from a judge need no run. -/
theorem Provenance.extend {call : Ambient} {added : List EvidenceItem} {graph : Dict CompetencyEvidence}
    (h : Provenance dossier) (hgrown : GrownBy call dossier.graph graph added)
    (hhuman : ∀ item ∈ added, startsWith item.source "semantic_judge:" = false) :
    Provenance { dossier with graph } := by
  refine h.carry [] ⟨(List.append_nil _).symm, fun id hid => ?_, fun _ => le_rfl,
    fun _ _ _ _ htext => htext, fun _ hmem => (by cases hmem), fun _ hmem => (by cases hmem),
    fun item hitem hsource => ?_⟩
  · obtain ⟨item, hitem, rfl⟩ := List.mem_map.mp hid
    exact List.mem_map_of_mem (hgrown.mem.mpr (.inl hitem))
  · rcases hgrown.mem.mp hitem with hold | hnew
    · exact .inl ⟨item, hold, "", .inl rfl⟩
    · rw [hhuman item hnew] at hsource
      cases hsource

theorem Provenance.turned (h : Provenance dossier) (turn : Turn) :
    Provenance { dossier with turns := dossier.turns ++ [turn] } := by
  refine h.carry [] ⟨(List.append_nil _).symm, fun _ hid => hid, fun _ => le_rfl,
    fun _ _ _ _ htext => textAt_turned htext, fun _ hmem => (by cases hmem),
    fun _ hmem => (by cases hmem), fun item hitem _ => ?_⟩
  exact .inl ⟨item, hitem, "", .inl rfl⟩

theorem Provenance.revised {position : Nat} {turn : Turn} {text : String} {metadata : Dict Json}
    {revision : TranscriptRevision} (h : Provenance dossier)
    (ht : dossier.turns[position]? = some turn)
    (hi : position = dossier.turns.findIdx fun other => other.id = turn.id)
    (hr : revision.turnId = turn.id) (ho : revision.originalText = turn.text) :
    Provenance { dossier with
      turns := dossier.turns.modify position fun turn => { turn with text, metadata }
      revisions := dossier.revisions ++ [revision]
      graph := supersedeGraph turn.id dossier.graph } := by
  refine h.carry [] ⟨(List.append_nil _).symm, fun id hid => ?_, fun turnId => ?_,
    fun _ _ _ hcount htext => textAt_revised ht hi hr ho hcount htext,
    fun _ hmem => (by cases hmem), fun _ hmem => (by cases hmem), fun item hitem _ => ?_⟩
  · have hids := supersedeGraph_ids turn.id dossier.graph
    rw [hids]
    exact hid
  · unfold Dossier.revisionCount
    rw [List.countP_append]
    omega
  · have hretired : item ∈ (evidenceItems dossier.graph).map (retire turn.id) := by
      rw [← evidenceItems_supersedeGraph]
      exact hitem
    obtain ⟨before, hbefore, rfl⟩ := List.mem_map.mp hretired
    exact .inl ⟨before, hbefore, turn.id, .inr rfl⟩

/-- An item that a run places is judged by it. -/
theorem PlacedBy.judges {call : Call} {job : JobSpec} {question answer : Turn} {superseding : Bool}
    {run run' : EvidenceJudgeRun} {graph : Dict CompetencyEvidence}
    {placed : List EvidenceObservation} (h : Provenance dossier)
    (hfresh : FreshEvidence call.toAmbient dossier.graph)
    (hp : PlacedBy call job dossier question answer superseding run graph run' placed)
    (hsame : SameRun run run') (hanswer : run.answerTurnId = answer.id)
    (hcount : run.transcriptRevisionCount = dossier.revisionCount answer.id)
    (hsuccess : placed ≠ [] → run'.error = none)
    (hitem : item ∈ placedItems call.toAmbient
      (priorGraph superseding answer.id dossier.graph) placed) :
    JudgedBy { dossier with graph, runs := dossier.runs ++ [run'] } item dossier.runs.length run' := by
  have hnew := (hfresh.of_ids (priorGraph_ids superseding answer.id dossier.graph)).new
    (placeAll_grown _ _ _) hitem
  rw [priorGraph_ids] at hnew
  have hlisted : item.id ∈ run'.observationIds := by
    rw [hp.ids_eq]
    exact List.mem_map_of_mem hitem
  obtain ⟨observation, hobservation, before, rfl⟩ := mem_placedItems hitem
  have hjudged := hp.judged observation hobservation
  have hturn : observation.turnId = run'.answerTurnId := by
    rw [hjudged.turnId, hsame.answerTurnId, hanswer]
  refine ⟨by simp, hlisted, fun other run'' hget hmem => ?_,
    hsuccess (List.ne_nil_of_mem hobservation), ?_, hturn, hjudged.unverified, fun hstate => ?_⟩
  · by_cases hlt : other < dossier.runs.length
    · have hold : dossier.runs[other]? = some run'' := by
        rw [List.getElem?_append_left hlt] at hget
        exact hget
      exact absurd (h.known run'' (List.mem_of_getElem? hold) _ hmem) hnew
    · obtain ⟨hbound, _⟩ := List.getElem?_eq_some_iff.mp hget
      rw [List.length_append, List.length_singleton] at hbound
      omega
  · exact hjudged.judgeRunId.trans (congrArg some hsame.id.symm)
  · have hgiven := hjudged.quoted hstate
    obtain ⟨turn, hfind, hquote⟩ := (hp.accepted observation hobservation).grounded
    cases hq : observation.quote with
    | none =>
      rw [hq] at hgiven
      cases hgiven
    | some quote =>
      rw [hq] at hgiven
      have htext := textAt_now hfind
      rw [hjudged.turnId, ← hcount, ← hsame.transcriptRevisionCount, ← hjudged.turnId] at htext
      exact ⟨quote, turn.text, hq, of_decide_eq_true hgiven, htext, hquote quote hq⟩

theorem Provenance.judge {call : Call} {job : JobSpec} {question answer : Turn}
    {supersedeExisting : Bool} {supersedesRunId : Option String} {graph : Dict CompetencyEvidence}
    {run' : EvidenceJudgeRun} (h : Provenance dossier)
    (hfresh : FreshEvidence call.toAmbient dossier.graph)
    (hwhole : SettlesWhole call job dossier question answer
      (openRun call dossier question answer supersedesRunId))
    (ho : JudgeOutcome call job dossier question answer supersedeExisting
      (openRun call dossier question answer supersedesRunId) graph run') :
    Provenance { dossier with graph, runs := dossier.runs ++ [run'] } := by
  obtain ⟨superseding, placed, hp, hsuccess, _⟩ := ho.settled hwhole rfl rfl
  have hsame := ho.same
  have hprior := hfresh.of_ids (priorGraph_ids superseding answer.id dossier.graph)
  have hgrown := placeAll_grown call.toAmbient (priorGraph superseding answer.id dossier.graph) placed
  rw [← hp.graph_eq] at hgrown
  have hids : ∀ id ∈ (evidenceItems dossier.graph).map EvidenceItem.id,
      id ∈ (evidenceItems graph).map EvidenceItem.id := by
    intro id hid
    rw [← priorGraph_ids superseding answer.id] at hid
    obtain ⟨item, hitem, rfl⟩ := List.mem_map.mp hid
    exact List.mem_map_of_mem (hgrown.mem.mpr (.inl hitem))
  refine h.carry [run'] ⟨rfl, hids, fun _ => le_rfl, fun _ _ _ _ htext => htext, fun other hother id hid => ?_,
    fun other hother => ?_, fun item hitem _ => ?_⟩
  · rw [List.mem_singleton.mp hother, hp.ids_eq] at hid
    obtain ⟨item, hitem, rfl⟩ := List.mem_map.mp hid
    have hnew := hprior.new hgrown hitem
    rw [priorGraph_ids] at hnew
    exact ⟨List.mem_map_of_mem (hgrown.mem.mpr (.inr hitem)), hnew⟩
  · rw [List.mem_singleton.mp hother, hsame.transcriptRevisionCount, hsame.answerTurnId]
    exact le_rfl
  · rcases hgrown.mem.mp hitem with hold | hnew
    · left
      cases superseding with
      | false => exact ⟨item, hold, "", .inl rfl⟩
      | true =>
        have hretired : item ∈ evidenceItems (supersedeGraph answer.id dossier.graph) := hold
        rw [evidenceItems_supersedeGraph] at hretired
        obtain ⟨before, hbefore, rfl⟩ := List.mem_map.mp hretired
        exact ⟨before, hbefore, answer.id, .inr rfl⟩
    · exact .inr ⟨_, run', hp.judges h hfresh hsame rfl rfl hsuccess hnew⟩

/-- Every step of an unforged operation keeps the provenance. -/
theorem Provenance.step {call : Call} {job : JobSpec} {operation : Operation}
    {start : InterviewSession} (hjob : call.job = some job) (hu : Unforged call operation start)
    (h : Provenance dossier) (hfresh : FreshEvidence call.toAmbient dossier.graph)
    (hstep : DossierStep call job operation start dossier dossier') : Provenance dossier' := by
  cases hstep with
  | turned hid => exact h.turned _
  | claimed competencyIds ha =>
    refine h.extend (recordClaims_grown _ _ _ _ _) fun item hitem => ?_
    rw [(recordClaims_claimed _ _ _ _ _ item hitem).source]
    decide
  | observed ho ha hfirst =>
    refine h.extend (place_grown _ _ _) fun item hitem => ?_
    rw [List.mem_singleton.mp hitem]
    cases ho with
    | reviewer => exact hu.signed _ rfl
    | tool htool =>
      obtain ⟨kind, hsource⟩ := htool.source
      rw [observedItem, hsource]
      exact tool_source kind
  | judged hj ha ho => exact h.judge hfresh (hu.whole _ _ _ _ _ _ hjob hj) ho
  | revised hc hd ht hi hr ho => exact h.revised ht hi hr ho

section

variable [CanonicalDigest]

/-- If no reviewer signs as a judge and no judge run is interrupted half way, every semantic item
comes from one run that succeeded. -/
theorem semantic_items_judged {backend : Backend} {versions : List InterviewSession}
    (h : History backend (fun call operation session =>
      FreshEvidence call.toAmbient session.evidenceGraph ∧ Unforged call operation session) versions) :
    ∀ session ∈ versions, ∀ item ∈ evidenceItems session.evidenceGraph,
      startsWith item.source "semantic_judge:" = true →
      ∃ index run, JudgedBy session.dossier item index run := by
  have hprovenance : ∀ session ∈ versions, Provenance session.dossier := by
    refine h.dossier_invariant (fun job => ?_) ?_
    · have hnone : evidenceItems (Dossier.graph ⟨[], [], initializeEvidence job [], []⟩) = [] :=
        evidenceItems_initializeEvidence job
      refine ⟨fun item hitem => ?_, fun _ hmem => (by cases hmem), fun _ hmem => (by cases hmem)⟩
      rw [hnone] at hitem
      cases hitem
    · rintro call job operation start dossier hjob ⟨hfresh, hu⟩ hstart hrun
      have hboth := hrun.invariant (P := fun dossier =>
        Provenance dossier ∧ FreshEvidence call.toAmbient dossier.graph)
        (fun h hstep => ⟨h.1.step hjob hu h.2 hstep, hstep.fresh h.2⟩) ⟨hstart, hfresh⟩
      exact hboth.1
  exact fun session hs => (hprovenance session hs).judged

end

section Runs

attribute [local instance] checksumDigest

/-- Ids in unary, so that no two draws agree. -/
def tallyAmbient : Ambient where
  uuid kind n := kind.label ++ String.ofList (List.replicate (n + 1) '|')
  uuid_ne kind n := by
    intro h
    have hlen := congrArg String.length h
    rw [String.length_append, String.length_ofList, List.length_replicate] at hlen
    have hzero : ("" : String).length = 0 := rfl
    omega
  now _ := 0

/-- Every evidence id of the graph was drawn under an index that the graph has passed. -/
def talliedIds (graph : Dict CompetencyEvidence) : Bool :=
  (evidenceItems graph).all fun item =>
    (List.range (itemCount graph)).any fun n => tallyAmbient.uuid .evidence n = item.id

theorem tallied_fresh {graph : Dict CompetencyEvidence} (h : talliedIds graph = true) :
    FreshEvidence tallyAmbient graph := by
  have hdistinct : ∀ m n, tallyAmbient.uuid .evidence m = tallyAmbient.uuid .evidence n → m = n := by
    intro m n heq
    have hlen := congrArg String.length heq
    simp only [tallyAmbient, String.length_append, String.length_ofList, List.length_replicate]
      at hlen
    omega
  refine ⟨hdistinct, fun n hn hmem => ?_⟩
  obtain ⟨item, hitem, hid⟩ := List.mem_map.mp hmem
  obtain ⟨m, hm, hdrawn⟩ := List.any_eq_true.mp (List.all_eq_true.mp h item hitem)
  have heq := hdistinct m n ((of_decide_eq_true hdrawn).trans hid)
  have hlt := List.mem_range.mp hm
  omega

theorem validateFindings_length {answer : Turn} {judgeId : String} {findings : List JudgeFinding}
    {raw : List EvidenceObservation} (h : validateFindings answer judgeId findings = .ok raw) :
    raw.length = findings.length := by
  induction findings generalizing raw with
  | nil =>
    cases h
    rfl
  | cons finding rest ih =>
    unfold validateFindings at h
    obtain ⟨_, h⟩ := ExceptRules.ite_error_ok h
    obtain ⟨_, h⟩ := ExceptRules.ite_error_ok h
    obtain ⟨_, h⟩ := ExceptRules.ite_error_ok h
    obtain ⟨_, h⟩ := ExceptRules.ite_error_ok h
    obtain ⟨others, hothers, h⟩ := ExceptRules.bind_ok h
    cases h
    exact congrArg (· + 1) (ih hothers)

/-- A judge with one finding. -/
def queueJudge : EvidenceJudge where
  judgeId := "queue"
  evaluate _ _ _ _ := .ok { findings := [knownFinding] }

def queueCall : Call :=
  { plainCall askDecision with toAmbient := tallyAmbient, judge := queueJudge }

theorem queueCall_settles (job : JobSpec) (dossier : Dossier) (question answer : Turn)
    (run : EvidenceJudgeRun) : SettlesWhole queueCall job dossier question answer run := by
  intro response first rest hg _ _ observation hmem
  obtain ⟨raw, hraw, hobservations⟩ := hg.passed
  have hresponse : response = { findings := [knownFinding] } := (Except.ok.inj hg.evaluated).symm
  have hlength := congrArg List.length hobservations
  rw [List.length_map, validateFindings_length hraw, hresponse] at hlength
  have hrest : rest = [] := List.eq_nil_of_length_eq_zero (by simpa using hlength)
  rw [hrest] at hmem
  cases hmem

def queueCalls : List (Call × Operation) := [
  (queueCall, .start), (queueCall, .answer "I built a queue." [])]

theorem semantic_items_judged_queue :
    ∃ session : InterviewSession, ∃ item ∈ evidenceItems session.evidenceGraph,
      startsWith item.source "semantic_judge:" = true ∧
        ∃ index run, JudgedBy session.dossier item index run := by
  have hrun : (checkedRun (fun _ session => talliedIds session.evidenceGraph) plainJob .json
      queueCalls).any (fun versions => versions.head?.any fun session =>
        (evidenceItems session.evidenceGraph).any fun item =>
          startsWith item.source "semantic_judge:") = true := by
    decide +kernel
  obtain ⟨session, past, hhistory, hcheck⟩ := checkedRun_last
    (fun call operation => call = queueCall ∧ ∀ observation, operation ≠ .observeEvidence observation)
    (by simp [queueCalls]) hrun
  obtain ⟨item, hitem, hsource⟩ := List.any_eq_true.mp hcheck
  have hunforged : History .json (fun call operation session =>
      FreshEvidence call.toAmbient session.evidenceGraph ∧ Unforged call operation session)
      (session :: past) := by
    refine hhistory.mono ?_
    rintro call operation session ⟨⟨_, rfl, hoperation⟩, hids⟩
    exact ⟨tallied_fresh hids, fun observation h => absurd h (hoperation observation),
      fun _ _ _ _ _ _ _ _ => queueCall_settles _ _ _ _ _⟩
  exact ⟨session, item, hitem, hsource,
    semantic_items_judged hunforged session List.mem_cons_self item hitem hsource⟩

/-- A reviewer's observation under a judge's name. -/
def signedAsJudge : EvidenceObservation where
  competencyId := "systems"
  turnId := "turn||"
  state := .demonstrated
  confidence := UnitScore.one
  note := "looks right"
  source := "semantic_judge:reviewer"

def plainTally : Call := { plainCall askDecision with toAmbient := tallyAmbient }

/-- The reviewer's item passes for a judge's, and no run has it. -/
theorem semantic_source_forged :
    ¬∀ (backend : Backend) (versions : List InterviewSession),
      History backend (fun call _ session => FreshEvidence call.toAmbient session.evidenceGraph)
        versions → ∀ session ∈ versions, ∀ item ∈ evidenceItems session.evidenceGraph,
          startsWith item.source "semantic_judge:" = true →
          ∃ index run, JudgedBy session.dossier item index run := by
  intro hclaim
  have hrun : (checkedRun (fun _ session => talliedIds session.evidenceGraph) plainJob .memory
      [(plainTally, .start), (plainTally, .answer "I built a queue." []),
        (plainTally, .observeEvidence signedAsJudge)]).any (fun versions =>
      versions.head?.any fun session => session.evidenceJudgeRuns.isEmpty &&
        (evidenceItems session.evidenceGraph).any fun item =>
          startsWith item.source "semantic_judge:") = true := by
    decide +kernel
  obtain ⟨session, past, hhistory, hcheck⟩ :=
    checkedRun_last (fun call _ => call = plainTally) (by simp) hrun
  rw [Bool.and_eq_true, List.isEmpty_iff] at hcheck
  obtain ⟨hruns, hany⟩ := hcheck
  obtain ⟨item, hitem, hsource⟩ := List.any_eq_true.mp hany
  have hfresh : History .memory (fun call _ session =>
      FreshEvidence call.toAmbient session.evidenceGraph) (session :: past) := by
    refine hhistory.mono ?_
    rintro call operation session ⟨⟨_, rfl⟩, hids⟩
    exact tallied_fresh hids
  obtain ⟨index, run, hjudged⟩ := hclaim .memory _ hfresh session List.mem_cons_self item hitem hsource
  have hrecorded : session.evidenceJudgeRuns[index]? = some run := hjudged.recorded
  rw [hruns] at hrecorded
  cases hrecorded

end Runs

end NoraInterviewer
