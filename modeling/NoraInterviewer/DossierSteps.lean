import NoraInterviewer.JudgeOutcome
import NoraInterviewer.History
import Mathlib.Logic.Relation

namespace NoraInterviewer

open ExceptRules

/-- The candidate turn that `answer` adds. -/
def answerTurn (call : Ambient) (turns : List Turn) (text : String) (turnMetadata : Dict Json) :
    Turn where
  id := call.uuid .turn turns.length
  speaker := .candidate
  text := text
  parentTurnId := (turns.reverse.find? Turn.evaluative).map Turn.id
  metadata := turnMetadata

/-- What a passed or failed tool leaves as evidence. -/
structure ToolObservation (observation : EvidenceObservation) : Prop where
  source : ∃ kind : ToolKind, observation.source = "tool:" ++ kind.value
  quote : observation.quote = none
  confidence : observation.confidence = UnitScore.one
  state : observation.state = .demonstrated ∨ observation.state = .insufficient

/-- The observations that an operation may bring in without a judge. -/
inductive Operation.Observes : Operation → EvidenceObservation → Prop where
  | reviewer (observation : EvidenceObservation) : Observes (.observeEvidence observation) observation
  | tool {toolId : String} {request : ToolSubmissionRequest} {observation : EvidenceObservation}
    (h : ToolObservation observation) : Observes (.submitTool toolId request) observation

/-- The dossier after the answer and its claims were recorded. -/
def Dossier.answered (call : Ambient) (dossier : Dossier) (question : Turn) (text : String)
    (turnMetadata : Dict Json) : Dossier :=
  let answer := answerTurn call dossier.turns text turnMetadata
  { dossier with
    turns := dossier.turns ++ [answer]
    graph := (recordClaims call question.id answer.id dossier.graph question.competencyTags).1 }

/-- The judge runs of an operation: on which dossier, for which question and answer, and whether
the findings before it give way. -/
inductive Operation.Judges (call : Ambient) (start : Dossier) :
    Operation → Dossier → Turn → Turn → Bool → Prop where
  | answered {text : String} {turnMetadata : Dict Json} {question : Turn}
    (hq : start.turns.reverse.find? Turn.evaluative = some question) :
    Judges call start (.answer text turnMetadata)
      (start.answered call question text turnMetadata) question
      (answerTurn call start.turns text turnMetadata) false
  | reevaluated {answerTurnId : String} {question answer : Turn}
    (ha : start.turns.find? (fun turn => turn.id = answerTurnId) = some answer)
    (hs : answer.speaker = .candidate)
    (hq : start.turns.find? (fun turn => some turn.id = answer.parentTurnId) = some question) :
    Judges call start (.reevaluateEvidence answerTurnId) start question answer true

/-- The turn that an operation corrects, and the text it gives it. -/
def Operation.correction (session : InterviewSession) : Operation → Option (String × String)
  | .correctTranscript request => some (request.turnId, request.correctedText)
  | .candidateControl request =>
    (controlTarget session request).map fun turnId => (turnId, request.text.getD "")
  | _ => none

/-- What one operation, started on `start`, may do to the dossier at a time. -/
inductive DossierStep (call : Call) (job : JobSpec) (operation : Operation)
    (start : InterviewSession) : Dossier → Dossier → Prop where
  | turned {dossier : Dossier} {turn : Turn} (hid : turn.id = call.uuid .turn dossier.turns.length) :
    DossierStep call job operation start dossier { dossier with turns := dossier.turns ++ [turn] }
  | claimed {dossier : Dossier} {questionTurnId answerTurnId : String} (competencyIds : List String)
    (ha : answerTurnId ∈ dossier.turns.map Turn.id) :
    DossierStep call job operation start dossier { dossier with
      graph := (recordClaims call.toAmbient questionTurnId answerTurnId dossier.graph
        competencyIds).1 }
  | observed {dossier : Dossier} {observation : EvidenceObservation}
    (ho : operation.Observes observation) (ha : Accepts dossier.turns job observation)
    (hfirst : operation = .observeEvidence observation → dossier = start.dossier) :
    DossierStep call job operation start dossier
      { dossier with graph := place call.toAmbient dossier.graph observation }
  | judged {dossier : Dossier} {question answer : Turn} {supersedeExisting : Bool}
    {supersedesRunId : Option String} {graph : Dict CompetencyEvidence} {run : EvidenceJudgeRun}
    (hj : operation.Judges call.toAmbient start.dossier dossier question answer supersedeExisting)
    (ha : answer.id ∈ dossier.turns.map Turn.id)
    (ho : JudgeOutcome call job dossier question answer supersedeExisting
      (openRun call dossier question answer supersedesRunId) graph run) :
    DossierStep call job operation start dossier
      { dossier with graph := graph, runs := dossier.runs ++ [run] }
  | revised {dossier : Dossier} {index : Nat} {turn : Turn} {text : String} {metadata : Dict Json}
    {revision : TranscriptRevision}
    (hc : operation.correction start = some (turn.id, text)) (hd : dossier = start.dossier)
    (ht : dossier.turns[index]? = some turn)
    (hi : index = dossier.turns.findIdx fun other => other.id = turn.id)
    (hr : revision.turnId = turn.id) (ho : revision.originalText = turn.text) :
    DossierStep call job operation start dossier { dossier with
      turns := dossier.turns.modify index fun turn => { turn with text, metadata }
      revisions := dossier.revisions ++ [revision]
      graph := supersedeGraph turn.id dossier.graph }

abbrev DossierRun (call : Call) (job : JobSpec) (operation : Operation) (start : InterviewSession) :
    Dossier → Dossier → Prop :=
  Relation.ReflTransGen (DossierStep call job operation start)

variable [CanonicalDigest]

theorem appendEvent_dossier {call : Ambient} {session session' : InterviewSession} {type : EventType}
    {turn : Option Turn} {payload : Dict Json}
    (h : appendEvent call session type turn payload = .ok session') :
    session'.dossier = session.dossier := by
  obtain ⟨events, rfl, _⟩ := appendEvent_ok h
  rfl

theorem applyDecision_dossier {call : Ambient} {session session' : InterviewSession}
    {decision : AgentDecision} {latencyMs : Nat} {turn : Turn}
    (h : applyDecision call session decision latencyMs = .ok (session', turn)) :
    turn = decisionTurn call session decision latencyMs ∧
      session'.dossier = { session.dossier with turns := session.turns ++ [turn] } := by
  obtain ⟨logged, hlogged, h⟩ := bind_ok h
  cases h
  exact ⟨rfl, appendEvent_dossier hlogged⟩

theorem openRequestedTool_dossier {call : Call} {session session' : InterviewSession} {job : JobSpec}
    {decision : AgentDecision} {openedFromTurnId : String} {tool : Option ToolInvocation}
    (h : openRequestedTool call session job decision openedFromTurnId = .ok (session', tool)) :
    session'.dossier = session.dossier := by
  rcases (openRequestedTool_meets call session job decision openedFromTurnId).of_ok h with
    h | ⟨_, _, _, _, _, _, _, _, _, h⟩
  · exact congrArg InterviewSession.dossier h
  · have hdossier := congrArg InterviewSession.dossier h
    exact hdossier

theorem completeIfAsked_dossier {call : Ambient} {session session' : InterviewSession}
    {decision : AgentDecision} (h : completeIfAsked call session decision = .ok session') :
    session'.dossier = session.dossier := by
  unfold completeIfAsked at h
  split at h
  next =>
    have hdossier := appendEvent_dossier h
    exact hdossier
  next => cases h; rfl

omit [CanonicalDigest] in
theorem countFollowup_dossier (session : InterviewSession) (decision : AgentDecision) :
    (countFollowup session decision).dossier = session.dossier := by
  obtain ⟨counts, h⟩ := countFollowup_eq session decision
  rw [h]
  rfl

omit [CanonicalDigest] in
theorem liftRaised_ok {α : Type} {x : Except Raised α} {a : α} (h : liftRaised x = .ok a) :
    x = .ok a := by
  cases x with
  | error e => cases h
  | ok b =>
    cases h
    rfl

omit [CanonicalDigest] in
theorem badRequestOnValueError_ok {α : Type} {x : Except Raised α} {a : α}
    (h : badRequestOnValueError x = .ok a) : x = .ok a := by
  cases x with
  | error e => cases h
  | ok b =>
    cases h
    rfl

theorem openingDecision_dossier {call : Call} {session session' : InterviewSession} {job : JobSpec}
    {decision : AgentDecision} {latencyMs : Nat}
    (h : openingDecision call session job = .ok (session', decision, latencyMs)) :
    session'.dossier = session.dossier := by
  obtain ⟨covered, h⟩ := (openingDecision_meets call session job).of_ok h
  have hdossier := congrArg InterviewSession.dossier h
  exact hdossier

omit [CanonicalDigest] in
theorem decideAfterAnswer_dossier {call : Call} {session session' : InterviewSession}
    {job : JobSpec} {decision : AgentDecision} {latencyMs : Nat}
    (h : decideAfterAnswer call session job = .ok (session', decision, latencyMs)) :
    session'.dossier = session.dossier := by
  obtain ⟨reply, _, h⟩ := bind_ok h
  simp only at h
  split at h
  next => cases h; rfl
  next => cases h; rfl

variable {call : Call} {job : JobSpec} {start : InterviewSession}

omit [CanonicalDigest] in
/-- A turn whose id was minted for the next place. -/
theorem DossierRun.turn {operation : Operation} {session session' : InterviewSession} {turn : Turn}
    (hid : turn.id = call.uuid .turn session.turns.length)
    (h : session'.dossier = { session.dossier with turns := session.turns ++ [turn] }) :
    DossierRun call job operation start session.dossier session'.dossier := by
  rw [h]
  exact .single (.turned hid)

omit [CanonicalDigest] in
theorem DossierRun.kept {operation : Operation} {dossier : Dossier} {session session' : InterviewSession}
    (hrun : DossierRun call job operation start dossier session.dossier)
    (h : session'.dossier = session.dossier) :
    DossierRun call job operation start dossier session'.dossier := by
  rw [h]
  exact hrun

theorem start_dossier {session session' : InterviewSession} {step : SessionStep}
    (h : NoraInterviewer.start call session job = .ok (.commit session' step)) :
    DossierRun call job .start session session.dossier session'.dossier := by
  unfold NoraInterviewer.start at h
  split at h
  next => cases h
  next =>
    split at h
    next => cases h
    next =>
      obtain ⟨begun, hbegun, h⟩ := bind_ok h
      obtain ⟨⟨opened, decision, latencyMs⟩, hopened, h⟩ := bind_ok h
      obtain ⟨⟨asked, turn⟩, hasked, h⟩ := bind_ok h
      obtain ⟨⟨tooled, tool⟩, htooled, h⟩ := bind_ok h
      cases h
      have hbefore : opened.dossier = session.dossier :=
        (openingDecision_dossier hopened).trans (appendEvent_dossier hbegun)
      obtain ⟨hturn, hturns⟩ := applyDecision_dossier hasked
      have hrun : DossierRun call job .start session opened.dossier asked.dossier :=
        DossierRun.turn (hturn ▸ rfl) hturns
      rw [← hbefore]
      have hkept := openRequestedTool_dossier htooled
      exact hrun.kept hkept

theorem recordAnswerTurn_dossier {session session' : InterviewSession} {candidate : Turn}
    {text : String} {turnMetadata : Dict Json}
    (h : recordAnswerTurn call.toAmbient session text turnMetadata = .ok (session', candidate)) :
    candidate = answerTurn call.toAmbient session.turns text turnMetadata ∧
      session'.dossier = { session.dossier with turns := session.turns ++ [candidate] } := by
  obtain ⟨logged, hlogged, h⟩ := bind_ok h
  cases h
  have hdossier := appendEvent_dossier hlogged
  exact ⟨rfl, hdossier⟩

theorem recordClaimEvents_dossier {call : Ambient} {candidate : Turn} {items : List EvidenceItem}
    {session session' : InterviewSession}
    (h : recordClaimEvents call candidate items session = .ok session') :
    session'.dossier = session.dossier := by
  induction items generalizing session with
  | nil => cases h; rfl
  | cons item rest ih =>
    obtain ⟨logged, hlogged, h⟩ := bind_ok h
    exact (ih h).trans (appendEvent_dossier hlogged)

omit [CanonicalDigest] in
theorem recordCandidateClaim_dossier {call : Ambient} {session session' : InterviewSession}
    {questionTurnId answerTurnId : String} {competencyIds : List String} {items : List EvidenceItem}
    (h : recordCandidateClaim call session questionTurnId answerTurnId competencyIds =
      .ok (session', items)) :
    session'.dossier = { session.dossier with
      graph := (recordClaims call questionTurnId answerTurnId session.evidenceGraph
        competencyIds).1 } := by
  unfold recordCandidateClaim at h
  simp only at h
  split at h
  next =>
    obtain ⟨_, h⟩ := ite_error_ok h
    cases h
    rfl
  next => cases h

/-- A call of the judge keeps the dossier, or it adds a run with its outcome. -/
theorem judgeCandidateEvidence_dossier {session session' : InterviewSession} {question answer : Turn}
    {supersedeExisting : Bool} {supersedesRunId : Option String} {result : Option EvidenceJudgeRun}
    (h : judgeCandidateEvidence call session job question answer supersedeExisting
      supersedesRunId = .ok (session', result)) :
    session'.dossier = session.dossier ∨
      ∃ run graph, JudgeOutcome call job session.dossier question answer supersedeExisting
          (openRun call session.dossier question answer supersedesRunId) graph run ∧
        session'.dossier = { session.dossier with
          graph := graph, runs := session.evidenceJudgeRuns ++ [run] } := by
  cases result with
  | none =>
    rw [judgeCandidateEvidence_none h]
    exact .inl rfl
  | some run =>
    obtain ⟨hout, hsession⟩ := judgeCandidateEvidence_outcome h
    refine .inr ⟨run, session'.evidenceGraph, hout, ?_⟩
    have hdossier := congrArg InterviewSession.dossier hsession
    exact hdossier

theorem recordAnswerEvidence_dossier {session recorded session' : InterviewSession} {text : String}
    {turnMetadata : Dict Json} {question : Option Turn} {candidate : Turn}
    (hq : previousQuestion session = question)
    (hc : candidate = answerTurn call.toAmbient session.turns text turnMetadata)
    (hr : recorded.dossier = { session.dossier with turns := session.turns ++ [candidate] })
    (h : recordAnswerEvidence call recorded job question candidate = .ok session') :
    DossierRun call job (.answer text turnMetadata) session recorded.dossier session'.dossier := by
  unfold recordAnswerEvidence at h
  split at h
  next => cases h; exact .refl
  next question =>
    split at h
    next => cases h; exact .refl
    next =>
      obtain ⟨⟨claimed, created⟩, hclaimed, h⟩ := bind_ok h
      obtain ⟨logged, hlogged, h⟩ := bind_ok h
      obtain ⟨⟨judged, run⟩, hjudged, h⟩ := bind_ok h
      cases h
      have hmem : candidate.id ∈ recorded.dossier.turns.map Turn.id := by
        rw [hr]
        simp
      have hclaims := recordCandidateClaim_dossier hclaimed
      have hlog := (recordClaimEvents_dossier hlogged).trans hclaims
      have hrun : DossierRun call job (.answer text turnMetadata) session recorded.dossier
          logged.dossier := by
        rw [hlog]
        exact .single (.claimed _ hmem)
      rcases judgeCandidateEvidence_dossier hjudged with hsame | ⟨run, graph, hout, hdossier⟩
      · exact hrun.kept hsame
      · refine hrun.tail ?_
        rw [hdossier]
        have hgraph : recorded.evidenceGraph = session.evidenceGraph := congrArg Dossier.graph hr
        have hanswered : logged.dossier =
            session.dossier.answered call.toAmbient question text turnMetadata := by
          rw [hlog, hr, hgraph, hc]
          rfl
        refine DossierStep.judged ?_ ?_ hout
        · rw [hanswered, hc]
          exact .answered hq
        · rw [hlog]
          exact hmem

theorem prepareAnswer_dossier {session shown : InterviewSession} {text : String}
    {turnMetadata : Dict Json}
    (h : prepareAnswer call session job text turnMetadata = .ok shown) :
    DossierRun call job (.answer text turnMetadata) session session.dossier shown.dossier := by
  unfold prepareAnswer at h
  obtain ⟨_, h⟩ := ite_error_ok h
  obtain ⟨_, h⟩ := ite_error_ok h
  obtain ⟨_, h⟩ := ite_error_ok h
  obtain ⟨⟨recorded, candidate⟩, hrecorded, h⟩ := bind_ok h
  obtain ⟨hcandidate, hdossier⟩ := recordAnswerTurn_dossier hrecorded
  have hturn : DossierRun call job (.answer text turnMetadata) session session.dossier
      recorded.dossier :=
    DossierRun.turn (hcandidate ▸ rfl) hdossier
  exact hturn.trans (recordAnswerEvidence_dossier rfl hcandidate hdossier h)

theorem answer_dossier {session session' : InterviewSession} {text : String}
    {turnMetadata : Dict Json} {step : SessionStep}
    (h : answer call session job text turnMetadata = .ok (.commit session' step)) :
    DossierRun call job (.answer text turnMetadata) session session.dossier session'.dossier := by
  obtain ⟨shown, hshown, h⟩ := bind_ok h
  obtain ⟨⟨decided, decision, latencyMs⟩, hdecided, h⟩ := bind_ok h
  obtain ⟨⟨asked, turn⟩, hasked, h⟩ := bind_ok h
  obtain ⟨⟨tooled, tool⟩, htooled, h⟩ := bind_ok h
  obtain ⟨completed, hcompleted, h⟩ := bind_ok h
  cases h
  obtain ⟨hturn, hturns⟩ := applyDecision_dossier hasked
  have hask : DossierRun call job (.answer text turnMetadata) session decided.dossier
      asked.dossier :=
    DossierRun.turn (hturn ▸ rfl) hturns
  rw [decideAfterAnswer_dossier hdecided] at hask
  have hafter : session'.dossier = asked.dossier :=
    (completeIfAsked_dossier hcompleted).trans
      ((openRequestedTool_dossier htooled).trans (countFollowup_dossier asked decision))
  exact DossierRun.kept ((prepareAnswer_dossier hshown).trans hask) hafter

theorem cancelTools_dossier {call : Ambient} {before rest : List ToolInvocation}
    {session session' : InterviewSession} {ids : List String}
    (h : cancelTools call before rest session = .ok (session', ids)) :
    session'.dossier = session.dossier := by
  induction rest generalizing before session session' ids with
  | nil => cases h; rfl
  | cons tool rest ih =>
    unfold cancelTools at h
    split at h
    next =>
      obtain ⟨logged, hlogged, h⟩ := bind_ok h
      obtain ⟨⟨cancelled, others⟩, hrest, h⟩ := bind_ok h
      cases h
      have hkept := appendEvent_dossier hlogged
      exact (ih hrest).trans hkept
    next => exact ih h

theorem cancelSession_dossier {session session' : InterviewSession} {request : CancelSessionRequest}
    {result : InterviewSession}
    (h : cancelSession call session request = .ok (.commit session' result)) :
    session'.dossier = session.dossier := by
  unfold cancelSession at h
  obtain ⟨_, h⟩ := ite_error_ok h
  split at h
  next => cases h
  next =>
    obtain ⟨⟨cancelled, ids⟩, hcancelled, h⟩ := bind_ok h
    obtain ⟨logged, hlogged, h⟩ := bind_ok h
    cases h
    have hkept := appendEvent_dossier hlogged
    have htools := cancelTools_dossier hcancelled
    exact hkept.trans htools

theorem appendTool_dossier {call : Ambient} {session session' : InterviewSession} {job : JobSpec}
    {tool : ToolInvocation} (h : appendTool call session job tool = .ok session') :
    session'.dossier = session.dossier := by
  obtain ⟨_, _, _, _, _, _, h⟩ := (appendTool_meets call session job tool).of_ok h
  rw [h]
  rfl

theorem observeTool_dossier {toolId : String} {request : ToolSubmissionRequest}
    {invocation : ToolInvocation} {turn : Turn} {evaluation : ToolEvaluation} {state : EvidenceState}
    (hstate : state = .demonstrated ∨ state = .insufficient) {ids : List String}
    {session session' : InterviewSession}
    (h : observeTool call.toAmbient job invocation turn evaluation state ids session = .ok session') :
    DossierRun call job (.submitTool toolId request) start session.dossier session'.dossier := by
  induction ids generalizing session with
  | nil => cases h; exact .refl
  | cons competencyId rest ih =>
    obtain ⟨⟨observed, item⟩, hobserved, h⟩ := bind_ok h
    obtain ⟨logged, hlogged, h⟩ := bind_ok h
    obtain ⟨haccepts, hplaced, _⟩ := applyObservation_ok hobserved
    refine Relation.ReflTransGen.head ?_ (ih h)
    rw [appendEvent_dossier hlogged, hplaced]
    exact DossierStep.observed (.tool ⟨⟨invocation.kind, rfl⟩, rfl, rfl, hstate⟩) haccepts
      fun hop => (by cases hop)

theorem prepareTool_dossier {session : InterviewSession} {toolId : String}
    {request : ToolSubmissionRequest} {work : ToolWork}
    (h : prepareTool call session job toolId request = .ok work) :
    DossierRun call job (.submitTool toolId request) session session.dossier
      work.session.dossier := by
  unfold prepareTool at h
  obtain ⟨_, h⟩ := ite_error_ok h
  obtain ⟨_, h⟩ := ite_error_ok h
  split at h
  next => cases h
  next invocation _ =>
    obtain ⟨_, h⟩ := ite_error_ok h
    obtain ⟨⟨submitted, turn⟩, hsubmitted, h⟩ := bind_ok h
    obtain ⟨evaluation, _, h⟩ := bind_ok h
    obtain ⟨evaluated, hevaluated, h⟩ := bind_ok h
    obtain ⟨final, hfinal, h⟩ := bind_ok h
    cases h
    obtain ⟨first, hfirst, hsubmitted⟩ := bind_ok hsubmitted
    obtain ⟨second, hsecond, hsubmitted⟩ := bind_ok hsubmitted
    cases hsubmitted
    have hbefore := appendEvent_dossier hfirst
    have hturns := appendEvent_dossier hsecond
    have hkept := appendEvent_dossier hevaluated
    have hturn : DossierRun call job (.submitTool toolId request) session first.dossier
        submitted.dossier :=
      DossierRun.turn rfl hturns
    rw [hbefore] at hturn
    have hsecond' : DossierRun call job (.submitTool toolId request) session session.dossier
        evaluated.dossier :=
      DossierRun.kept hturn hkept
    refine hsecond'.trans ?_
    unfold recordToolEvidence at hfinal
    split at hfinal
    next => cases hfinal; exact .refl
    next passed _ =>
      refine observeTool_dossier ?_ hfinal
      cases passed with
      | true => exact .inl rfl
      | false => exact .inr rfl

theorem submitTool_dossier {session session' : InterviewSession} {toolId : String}
    {request : ToolSubmissionRequest} {step : ToolStep}
    (h : submitTool call session job toolId request = .ok (.commit session' step)) :
    DossierRun call job (.submitTool toolId request) session session.dossier session'.dossier := by
  obtain ⟨work, hwork, h⟩ := bind_ok h
  obtain ⟨⟨decided, decision⟩, hdecided, h⟩ := bind_ok h
  obtain ⟨⟨asked, turn⟩, hasked, h⟩ := bind_ok h
  obtain ⟨⟨tooled, tool⟩, htooled, h⟩ := bind_ok h
  obtain ⟨completed, hcompleted, h⟩ := bind_ok h
  cases h
  obtain ⟨reply, _, hreply⟩ := bind_ok hdecided
  cases hreply
  obtain ⟨hturn, hturns⟩ := applyDecision_dossier hasked
  have hask : DossierRun call job (.submitTool toolId request) session work.session.dossier
      asked.dossier :=
    DossierRun.turn (hturn ▸ rfl) hturns
  have hafter : session'.dossier = asked.dossier :=
    (completeIfAsked_dossier hcompleted).trans
      ((countFollowup_dossier tooled _).trans (openRequestedTool_dossier htooled))
  exact DossierRun.kept ((prepareTool_dossier hwork).trans hask) hafter

theorem recordStale_dossier {call : Ambient} {turn : Turn} {items : List EvidenceItem}
    {session session' : InterviewSession}
    (h : recordStale call turn items session = .ok session') :
    session'.dossier = session.dossier := by
  induction items generalizing session with
  | nil => cases h; rfl
  | cons item rest ih =>
    obtain ⟨logged, hlogged, h⟩ := bind_ok h
    exact (ih h).trans (appendEvent_dossier hlogged)

/-- A correction of the turn that the operation names. -/
theorem applyTranscriptCorrection_dossier {operation : Operation} {session session' : InterviewSession}
    {request : TranscriptCorrectionRequest} {revision : TranscriptRevision}
    (hc : operation.correction start = some (request.turnId, request.correctedText))
    (hs : session.dossier = start.dossier)
    (h : applyTranscriptCorrection call.toAmbient session request = .ok (session', revision)) :
    DossierStep call job operation start session.dossier session'.dossier := by
  unfold applyTranscriptCorrection at h
  simp only at h
  split at h
  next => cases h
  next turn hturn =>
    obtain ⟨_, h⟩ := ite_error_ok h
    obtain ⟨revised, hrevised, h⟩ := bind_ok h
    obtain ⟨stale, hstale, h⟩ := bind_ok h
    cases h
    have hid : turn.id = request.turnId := by
      obtain ⟨hlt, hget⟩ := List.getElem?_eq_some_iff.mp hturn
      have hfound := List.findIdx_getElem (w := hlt)
      rw [hget] at hfound
      simpa using hfound
    have hafter := recordStale_dossier hstale
    have hwritten := appendEvent_dossier hrevised
    have hgraph : (supersedeSemanticEvidenceForTurn revised turn.id).1.dossier =
        { revised.dossier with graph := supersedeGraph turn.id revised.dossier.graph } := rfl
    rw [hafter, hgraph, hwritten]
    exact DossierStep.revised (hid ▸ hc) hs hturn (by rw [hid]; rfl) rfl rfl

theorem correctTranscript_dossier {session session' : InterviewSession}
    {request : TranscriptCorrectionRequest} {revision : TranscriptRevision}
    (h : correctTranscript call session request = .ok (.commit session' revision)) :
    DossierRun call job (.correctTranscript request) session session.dossier session'.dossier := by
  obtain ⟨⟨corrected, result⟩, hcorrected, h⟩ := bind_ok h
  cases h
  exact .single (applyTranscriptCorrection_dossier rfl rfl hcorrected)

/-- A control adds at most the turn that it replies with. -/
theorem recordControl_dossier {operation : Operation} {session session' : InterviewSession}
    {request : CandidateControlRequest} {result : CandidateControlResult}
    (h : recordControl call.toAmbient session request = .ok (session', result)) :
    DossierRun call job operation start session.dossier session'.dossier ∧
      (request.kind = .correctLastAnswer → session'.dossier = session.dossier ∧
        ∃ answer, lastTurnBy session .candidate = some answer ∧
          result.targetTurnId = some answer.id) := by
  unfold recordControl at h
  obtain ⟨_, h⟩ := ite_error_ok h
  obtain ⟨_, h⟩ := ite_error_ok h
  obtain ⟨⟨handled, reply⟩, hhandled, h⟩ := bind_ok h
  obtain ⟨logged, hlogged, h⟩ := bind_ok h
  obtain ⟨replied, hreplied, h⟩ := bind_ok h
  cases h
  obtain ⟨rfl, hturn, hcorrect⟩ := handleCandidateControl_ok (badRequestOnValueError_ok hhandled)
  have hlog := appendEvent_dossier hlogged
  have hbefore : logged.dossier = session.dossier := hlog
  unfold recordControlTurn at hreplied
  split at hreplied
  next =>
    cases hreplied
    refine ⟨?_, fun hk => ⟨hbefore, (hcorrect hk).2⟩⟩
    exact DossierRun.kept .refl hbefore
  next turn hsome =>
    obtain ⟨hid, _, _⟩ := hturn turn hsome
    have hadded := appendEvent_dossier hreplied
    have hlength : logged.turns = session.turns := congrArg Dossier.turns hbefore
    refine ⟨?_, fun hk => ?_⟩
    · rw [← hbefore]
      exact DossierRun.turn (hlength ▸ hid) hadded
    · obtain ⟨hnone, _⟩ := hcorrect hk
      rw [hsome] at hnone
      cases hnone

theorem candidateControl_dossier {session session' : InterviewSession}
    {request : CandidateControlRequest} {result : CandidateControlResult}
    (h : candidateControl call session request = .ok (.commit session' result)) :
    DossierRun call job (.candidateControl request) session session.dossier session'.dossier := by
  obtain ⟨⟨handled, reply⟩, hhandled, h⟩ := bind_ok h
  obtain ⟨hrun, hcorrect⟩ := recordControl_dossier hhandled
  simp only at h
  split at h
  next => cases h; exact hrun
  next correction hreq =>
    obtain ⟨⟨corrected, revision⟩, hcorrected, h⟩ := bind_ok h
    cases h
    have hkind : request.kind = .correctLastAnswer ∧ correction.correctedText = request.text.getD "" := by
      unfold requestedCorrection at hreq
      split at hreq
      next hc =>
        cases hreq
        exact ⟨hc.1, rfl⟩
      next => cases hreq
    obtain ⟨hsame, answer, hlast, htarget⟩ := hcorrect hkind.1
    have hcontrol := requestedCorrection_target hreq hlast htarget
    refine hrun.tail (applyTranscriptCorrection_dossier ?_ hsame hcorrected)
    rw [Operation.correction, hcontrol, hkind.2]
    rfl

theorem observeEvidence_dossier {session session' : InterviewSession}
    {observation : EvidenceObservation} {node : Option CompetencyEvidence}
    (h : observeEvidence call session job observation = .ok (.commit session' node)) :
    DossierRun call job (.observeEvidence observation) session session.dossier session'.dossier := by
  unfold observeEvidence at h
  split at h
  next => cases h
  next => cases h
  next observed item hobserved =>
    obtain ⟨logged, hlogged, h⟩ := bind_ok h
    cases h
    obtain ⟨haccepts, rfl, _⟩ := applyObservation_ok hobserved
    have hkept := appendEvent_dossier hlogged
    rw [hkept]
    exact .single (DossierStep.observed (.reviewer observation) haccepts fun _ => rfl)

theorem reevaluateEvidence_dossier {session session' : InterviewSession} {answerTurnId : String}
    {run : EvidenceJudgeRun}
    (h : reevaluateEvidence call session job answerTurnId = .ok (.commit session' run)) :
    DossierRun call job (.reevaluateEvidence answerTurnId) session session.dossier
      session'.dossier := by
  unfold reevaluateEvidence at h
  obtain ⟨_, h⟩ := ite_error_ok h
  split at h
  next => cases h
  next answer hanswer =>
    obtain ⟨hspeaker, h⟩ := ite_error_ok h
    obtain ⟨_, h⟩ := ite_error_ok h
    simp only at h
    split at h
    next => cases h
    next question hquestion =>
      obtain ⟨⟨judged, result⟩, hjudged, h⟩ := bind_ok h
      split at h
      next => cases h
      next =>
        cases h
        have hfind := (Option.filter_eq_some_iff.mp hquestion).1
        have hmem : answer.id ∈ session.dossier.turns.map Turn.id :=
          List.mem_map.mpr ⟨answer, List.mem_of_find?_eq_some hanswer, rfl⟩
        rcases judgeCandidateEvidence_dossier hjudged with hsame | ⟨run, graph, hout, hdossier⟩
        · exact DossierRun.kept .refl hsame
        · rw [hdossier]
          exact .single (DossierStep.judged
            (.reevaluated hanswer (not_not.mp hspeaker) hfind) hmem hout)

theorem openTool_dossier {session session' : InterviewSession} {invocation result : ToolInvocation}
    (h : openTool call session job invocation = .ok (.commit session' result)) :
    session'.dossier = session.dossier := by
  obtain ⟨opened, hopened, h⟩ := bind_ok h
  cases h
  exact appendTool_dossier hopened

theorem openCodingChallenge_dossier {session session' : InterviewSession}
    {request : CodingChallengeRequest} {result : ToolInvocation}
    (h : openCodingChallenge call session job request = .ok (.commit session' result)) :
    session'.dossier = session.dossier := by
  unfold openCodingChallenge at h
  obtain ⟨_, h⟩ := ite_error_ok h
  obtain ⟨_, h⟩ := ite_error_ok h
  obtain ⟨opened, hopened, h⟩ := bind_ok h
  cases h
  exact appendTool_dossier hopened

theorem submitAppeal_dossier {session session' : InterviewSession}
    {request : CandidateAppealRequest} {appeal : CandidateAppeal}
    (h : submitAppeal call session request = .ok (.commit session' appeal)) :
    session'.dossier = session.dossier := by
  unfold submitAppeal at h
  obtain ⟨_, h⟩ := ite_error_ok h
  obtain ⟨logged, hlogged, h⟩ := bind_ok h
  cases h
  have hkept := appendEvent_dossier hlogged
  exact hkept

theorem submitIntegritySignal_dossier {session session' : InterviewSession}
    {request : IntegritySignalRequest} {signal : IntegritySignal}
    (h : submitIntegritySignal call session request = .ok (.commit session' signal)) :
    session'.dossier = session.dossier := by
  obtain ⟨logged, hlogged, h⟩ := bind_ok h
  cases h
  have hkept := appendEvent_dossier hlogged
  exact hkept

theorem reviewAppeal_dossier {session session' : InterviewSession} {appealId : String}
    {request : AppealReviewRequest} {appeal : CandidateAppeal}
    (h : reviewAppeal call session appealId request = .ok (.commit session' appeal)) :
    session'.dossier = session.dossier := by
  unfold reviewAppeal at h
  simp only at h
  split at h
  next => cases h
  next =>
    obtain ⟨_, h⟩ := ite_error_ok h
    obtain ⟨logged, hlogged, h⟩ := bind_ok h
    cases h
    have hkept := appendEvent_dossier hlogged
    exact hkept

theorem reviewIntegritySignal_dossier {session session' : InterviewSession} {signalId : String}
    {request : IntegrityReviewRequest} {signal : IntegritySignal}
    (h : reviewIntegritySignal call session signalId request = .ok (.commit session' signal)) :
    session'.dossier = session.dossier := by
  unfold reviewIntegritySignal at h
  simp only at h
  split at h
  next => cases h
  next =>
    obtain ⟨_, h⟩ := ite_error_ok h
    obtain ⟨logged, hlogged, h⟩ := bind_ok h
    cases h
    have hkept := appendEvent_dossier hlogged
    exact hkept

/-- What an operation commits, seen from the dossier, is a run of steps. -/
theorem mutate_dossier {operation : Operation} {session session' : InterviewSession}
    (h : mutate call operation session = .ok (some session')) :
    ∃ job, call.job = some job ∧
      DossierRun call job operation session session.dossier session'.dossier := by
  unfold mutate at h
  split at h
  next => cases h
  next job hjob =>
    refine ⟨job, hjob, ?_⟩
    cases operation with
    | start =>
      obtain ⟨_ | ⟨_, _⟩, hout, hw⟩ := map_ok h <;> cases hw
      exact start_dossier hout
    | answer text turnMetadata =>
      obtain ⟨_ | ⟨_, _⟩, hout, hw⟩ := map_ok h <;> cases hw
      exact answer_dossier hout
    | cancelSession request =>
      obtain ⟨_ | ⟨_, _⟩, hout, hw⟩ := map_ok h <;> cases hw
      exact DossierRun.kept .refl (cancelSession_dossier hout)
    | reevaluateEvidence answerTurnId =>
      obtain ⟨_ | ⟨_, _⟩, hout, hw⟩ := map_ok h <;> cases hw
      exact reevaluateEvidence_dossier hout
    | candidateControl request =>
      obtain ⟨_ | ⟨_, _⟩, hout, hw⟩ := map_ok h <;> cases hw
      exact candidateControl_dossier hout
    | openCodingChallenge request =>
      obtain ⟨_ | ⟨_, _⟩, hout, hw⟩ := map_ok h <;> cases hw
      exact DossierRun.kept .refl (openCodingChallenge_dossier hout)
    | openTool invocation =>
      obtain ⟨_ | ⟨_, _⟩, hout, hw⟩ := map_ok h <;> cases hw
      exact DossierRun.kept .refl (openTool_dossier hout)
    | submitTool toolId request =>
      obtain ⟨_ | ⟨_, _⟩, hout, hw⟩ := map_ok h <;> cases hw
      exact submitTool_dossier hout
    | correctTranscript request =>
      obtain ⟨_ | ⟨_, _⟩, hout, hw⟩ := map_ok h <;> cases hw
      exact correctTranscript_dossier hout
    | submitAppeal request =>
      obtain ⟨_ | ⟨_, _⟩, hout, hw⟩ := map_ok h <;> cases hw
      exact DossierRun.kept .refl (submitAppeal_dossier hout)
    | reviewAppeal appealId request =>
      obtain ⟨_ | ⟨_, _⟩, hout, hw⟩ := map_ok h <;> cases hw
      exact DossierRun.kept .refl (reviewAppeal_dossier hout)
    | submitIntegritySignal request =>
      obtain ⟨_ | ⟨_, _⟩, hout, hw⟩ := map_ok h <;> cases hw
      exact DossierRun.kept .refl (submitIntegritySignal_dossier hout)
    | reviewIntegritySignal signalId request =>
      obtain ⟨_ | ⟨_, _⟩, hout, hw⟩ := map_ok h <;> cases hw
      exact DossierRun.kept .refl (reviewIntegritySignal_dossier hout)
    | observeEvidence observation =>
      obtain ⟨_ | ⟨_, _⟩, hout, hw⟩ := map_ok h <;> cases hw
      exact observeEvidence_dossier hout

theorem createSession_dossier {request : CreateSession} {organizationId : Option String}
    {session : InterviewSession} (h : createSession call request organizationId = .ok session) :
    ∃ job, call.job = some job ∧ session.dossier = ⟨[], [], initializeEvidence job [], []⟩ := by
  unfold createSession at h
  obtain ⟨_, h⟩ := ite_error_ok h
  split at h
  next => cases h
  next job hjob =>
    obtain ⟨_, h⟩ := ite_error_ok h
    obtain ⟨_, h⟩ := ite_error_ok h
    have hdossier := appendEvent_dossier h
    exact ⟨job, hjob, hdossier⟩

omit [CanonicalDigest] in
theorem stored_dossier (backend : Backend) (session : InterviewSession) :
    (backend.stored session).dossier = session.dossier := by
  cases backend with
  | memory => rfl
  | json => rfl

omit [CanonicalDigest] in
/-- What every step keeps, the whole operation keeps. -/
theorem DossierRun.invariant {P : Dossier → Prop} {operation : Operation}
    (hstep : ∀ {dossier dossier' : Dossier}, P dossier →
      DossierStep call job operation start dossier dossier' → P dossier')
    {dossier dossier' : Dossier} (h : DossierRun call job operation start dossier dossier')
    (hs : P dossier) : P dossier' := by
  induction h with
  | refl => exact hs
  | tail _ hlast ih => exact hstep ih hlast

/-- What holds of a fresh dossier and survives every admissible operation holds of every
version's dossier. -/
theorem History.dossier_invariant {backend : Backend}
    {admissible : Call → Operation → InterviewSession → Prop} {P : Dossier → Prop}
    (hfresh : ∀ job, P ⟨[], [], initializeEvidence job [], []⟩)
    (hrun : ∀ {call : Call} {job : JobSpec} {operation : Operation} {start : InterviewSession}
      {dossier : Dossier}, call.job = some job → admissible call operation start → P start.dossier →
      DossierRun call job operation start start.dossier dossier → P dossier)
    {versions : List InterviewSession} (h : History backend admissible versions) :
    ∀ session ∈ versions, P session.dossier := by
  induction h with
  | created h =>
    intro session hs
    obtain ⟨job, _, hdossier⟩ := createSession_dossier h
    rw [List.mem_singleton.mp hs, stored_dossier, hdossier]
    exact hfresh job
  | committed _ ha hm ih =>
    intro session hs
    rcases List.mem_cons.mp hs with rfl | hs
    · obtain ⟨job, hjob, hsteps⟩ := mutate_dossier hm
      rw [stored_dossier]
      exact hrun hjob ha (ih _ List.mem_cons_self) hsteps
    · exact ih session hs

end NoraInterviewer
