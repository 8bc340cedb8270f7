import NoraInterviewer.Transcripts
import NoraInterviewer.ToolStatuses

namespace NoraInterviewer

open ExceptRules

/-- The tools of a session and the work done with them. -/
structure Bench where
  tools : List ToolInvocation
  toolSubmissions : List ToolSubmission
  toolEvaluations : List ToolEvaluation

def InterviewSession.bench (session : InterviewSession) : Bench :=
  ⟨session.tools, session.toolSubmissions, session.toolEvaluations⟩

/-- What `_append_tool` checks of a tool against the job and the transcript. -/
structure Opens (job : JobSpec) (turns : List Turn) (tool : ToolInvocation) : Prop where
  tags : ∀ tag ∈ tool.competencyTags, tag ∈ job.competencyIds
  source : ∀ turnId, tool.openedFromTurnId = some turnId → turnId ≠ "" →
    turnId ∈ turns.map Turn.id

/-- What `_open_requested_tool` opens beside `tools`. -/
structure Requested (job : JobSpec) (turns : List Turn) (tools : List ToolInvocation)
    (tool : ToolInvocation) : Prop where
  id : tool.id ∉ tools.map ToolInvocation.id
  status : tool.status = .open
  tags : ∀ tag ∈ tool.competencyTags, tag ∈ job.competencyIds
  source : ∃ turnId ∈ turns.map Turn.id, tool.openedFromTurnId = some turnId
  budget : tools.length < job.maxTools
  template : ∃ item ∈ job.toolTemplates,
    tool.payload.lookup "template_id" = some (.str item.templateId) ∧
    ∀ other ∈ tools, other.payload.lookup "template_id" ≠ some (.str item.templateId) ∨
      item.templateId = ""

/-- The turn that a client says a tool was opened from. -/
def Operation.opensFrom : Operation → Option (Option String)
  | .openTool invocation => some invocation.openedFromTurnId
  | .openCodingChallenge request => some request.openedFromTurnId
  | _ => none

variable [CanonicalDigest] {call : Call} {job : JobSpec}

theorem appendEvent_bench {call : Ambient} {session session' : InterviewSession}
    {type : EventType} {turn : Option Turn} {payload : Dict Json}
    (h : appendEvent call session type turn payload = .ok session') :
    session'.bench = session.bench := by
  obtain ⟨events, rfl, _⟩ := appendEvent_ok h
  rfl

theorem RecordsEvidence.bench {session session' : InterviewSession}
    (h : RecordsEvidence session session') : session'.bench = session.bench := by
  obtain ⟨graph, runs, events, entries, rfl, _⟩ := h
  rfl

omit [CanonicalDigest] in
theorem instantiateTemplate_template {session : InterviewSession} {templateId : String}
    {tags : List String} {opened : Option String} {tool : ToolInvocation}
    (h : instantiateTemplate call session templateId tags opened = .ok tool) :
    tool.status = .open ∧ tool.openedFromTurnId = opened ∧
      tool.payload.lookup "template_id" = some (.str templateId) := by
  unfold instantiateTemplate at h
  split at h
  next => cases h
  next template hfind =>
    have hid : template.templateId = templateId := by simpa using List.find?_some hfind
    cases h
    refine ⟨instantiate_status _ _ _ _ _, ?_⟩
    cases template with
    | static =>
      rw [← hid]
      exact ⟨rfl, Dict.lookup_set_self _ _ _⟩
    | coding =>
      rw [← hid]
      exact ⟨rfl, Dict.lookup_set_self _ _ _⟩

theorem appendTool_opens {call : Ambient} {session session' : InterviewSession}
    {tool : ToolInvocation} (h : appendTool call session job tool = .ok session') :
    Opens job session.turns tool := by
  unfold appendTool at h
  obtain ⟨_, h⟩ := ite_error_ok h
  obtain ⟨_, h⟩ := ite_error_ok h
  obtain ⟨_, h⟩ := ite_error_ok h
  obtain ⟨hknown, h⟩ := ite_error_ok h
  obtain ⟨hsource, _⟩ := ite_error_ok h
  refine ⟨fun tag htag => ?_, fun turnId hturn hgiven => ?_⟩
  · simpa using List.filter_eq_nil_iff.mp (not_not.mp hknown) tag htag
  · rw [hturn] at hsource
    simpa [given, hgiven] using hsource

omit [CanonicalDigest] in
theorem not_mem_usedTemplates {session : InterviewSession} {templateId : String}
    (h : templateId ∉ usedTemplates session) :
    ∀ other ∈ session.tools, other.payload.lookup "template_id" ≠ some (.str templateId) ∨
      templateId = "" := by
  intro other hother
  by_cases hempty : templateId = ""
  · exact .inr hempty
  · refine .inl fun hused => h ?_
    refine List.mem_filterMap.mpr ⟨other, hother, ?_⟩
    rw [hused]
    simp [Json.truthy, Json.toStr, hempty]

theorem openRequestedTool_bench {session session' : InterviewSession} {decision : AgentDecision}
    {openedFromTurnId : String} {result : Option ToolInvocation}
    (h : openRequestedTool call session job decision openedFromTurnId = .ok (session', result))
    (hfrom : openedFromTurnId ∈ session.turns.map Turn.id) :
    session'.turns = session.turns ∧ ∃ opened : Option ToolInvocation,
      (∀ tool ∈ opened, Requested job session.turns session.tools tool) ∧
      session'.bench = { session.bench with tools := session.tools ++ opened.toList } := by
  unfold openRequestedTool at h
  split at h
  next =>
    cases h
    refine ⟨rfl, none, by simp, ?_⟩
    rw [Option.toList_none, List.append_nil]
    rfl
  next request _ =>
    obtain ⟨hbudget, h⟩ := ite_error_ok h
    obtain ⟨hunused, h⟩ := ite_error_ok h
    split at h
    next => cases h
    next allowed hallowed =>
      obtain ⟨_, h⟩ := ite_error_ok h
      obtain ⟨tool, htool, h⟩ := bind_ok h
      obtain ⟨opened, hopened, h⟩ := bind_ok h
      cases h
      have hid : allowed.templateId = request.templateId := by
        simpa using List.find?_some hallowed
      obtain ⟨hstatus, hsource, htemplate⟩ :=
        instantiateTemplate_template (badRequestOnValueError_ok htool)
      have hopens := appendTool_opens hopened
      obtain ⟨entry, events, ha, hnew, he, hg, rfl⟩ := (appendTool_meets _ _ _ _).of_ok hopened
      refine ⟨rfl, some tool, fun other hother => ?_, rfl⟩
      cases Option.mem_some.mp hother
      refine ⟨hnew, hstatus, hopens.tags, ⟨_, hfrom, hsource⟩, Nat.lt_of_not_le hbudget, allowed,
        List.mem_of_find?_eq_some hallowed, ?_, ?_⟩
      · rw [hid]
        exact htemplate
      · rw [hid]
        exact not_mem_usedTemplates hunused

theorem applyDecision_bench {call : Ambient} {session session' : InterviewSession}
    {decision : AgentDecision} {latencyMs : Nat} {turn : Turn}
    (h : applyDecision call session decision latencyMs = .ok (session', turn)) :
    session'.bench = session.bench := by
  obtain ⟨logged, hlogged, h⟩ := bind_ok h
  cases h
  have hkept := appendEvent_bench hlogged
  exact hkept

theorem applyDecision_source {call : Ambient} {session session' : InterviewSession}
    {decision : AgentDecision} {latencyMs : Nat} {turn : Turn}
    (h : applyDecision call session decision latencyMs = .ok (session', turn)) :
    turn.id ∈ session'.turns.map Turn.id := by
  have hturns : session'.turns = session.turns ++ [turn] :=
    congrArg Conduct.turns (applyDecision_conduct h).2
  rw [hturns]
  exact List.mem_map_of_mem (List.mem_append_right _ (List.mem_singleton_self _))

theorem completeIfAsked_bench {call : Ambient} {session session' : InterviewSession}
    {decision : AgentDecision} (h : completeIfAsked call session decision = .ok session') :
    session'.bench = session.bench := by
  unfold completeIfAsked at h
  split at h
  next =>
    have hkept := appendEvent_bench h
    exact hkept
  next => cases h; rfl

omit [CanonicalDigest] in
theorem countFollowup_bench (session : InterviewSession) (decision : AgentDecision) :
    (countFollowup session decision).bench = session.bench := by
  obtain ⟨counts, h⟩ := countFollowup_eq session decision
  rw [h]
  rfl

omit [CanonicalDigest] in
theorem covered_bench (session : InterviewSession) (ids : List String) :
    { session with coveredCompetencies := ids }.bench = session.bench := rfl

theorem prepareAnswer_bench {session shown : InterviewSession} {text : String}
    {turnMetadata : Dict Json} (h : prepareAnswer call session job text turnMetadata = .ok shown) :
    shown.bench = session.bench := by
  unfold prepareAnswer at h
  obtain ⟨_, h⟩ := ite_error_ok h
  obtain ⟨_, h⟩ := ite_error_ok h
  obtain ⟨_, h⟩ := ite_error_ok h
  obtain ⟨⟨recorded, candidate⟩, hrecorded, h⟩ := bind_ok h
  have hevidence : shown.bench = recorded.bench :=
    ((recordAnswerEvidence_meets call recorded job _ candidate).of_ok h).bench
  obtain ⟨logged, hlogged, hrecorded⟩ := bind_ok hrecorded
  cases hrecorded
  rw [hevidence, appendEvent_bench hlogged]
  rfl

/-- What an operation that commits makes of the workbench, beside the transcript it leaves. -/
inductive Handles (call : Call) (job : JobSpec) (session : InterviewSession) :
    Operation → List Turn → Bench → Prop where
  | asked {operation : Operation} {turns : List Turn} {opened : Option ToolInvocation}
    (ha : operation.asks = true) (hw : ∀ toolId request, operation ≠ .submitTool toolId request)
    (ho : ∀ tool ∈ opened, Requested job turns session.tools tool) :
    Handles call job session operation turns
      { session.bench with tools := session.tools ++ opened.toList }
  | worked {toolId : String} {request : ToolSubmissionRequest} {work : ToolWork}
    {turns : List Turn} {opened : Option ToolInvocation}
    (hwork : prepareTool call session job toolId request = .ok work)
    (ho : ∀ tool ∈ opened, Requested job turns work.session.tools tool) :
    Handles call job session (.submitTool toolId request) turns
      { work.session.bench with tools := work.session.tools ++ opened.toList }
  | opened {operation : Operation} {tool : ToolInvocation} (ha : operation.asks = false)
    (hnew : tool.id ∉ session.tools.map ToolInvocation.id) (ho : Opens job session.turns tool)
    (hf : operation.opensFrom = some tool.openedFromTurnId)
    (hs : tool.status = .open ∨ operation = .openTool tool) :
    Handles call job session operation session.turns
      { session.bench with tools := session.tools ++ [tool] }
  | cancelled {request : CancelSessionRequest} {turns : List Turn} :
    Handles call job session (.cancelSession request) turns
      { session.bench with tools := session.tools.map ToolInvocation.cancel }
  | kept {operation : Operation} {turns : List Turn} (ha : operation.asks = false) :
    Handles call job session operation turns session.bench

theorem start_handles {session session' : InterviewSession} {step : SessionStep}
    (h : start call session job = .ok (.commit session' step)) :
    Handles call job session .start session'.turns session'.bench := by
  unfold start at h
  split at h
  next => cases h
  next =>
    split at h
    next => cases h
    next =>
      obtain ⟨shown, hshown, h⟩ := bind_ok h
      obtain ⟨⟨decided, decision, latencyMs⟩, hdecided, h⟩ := bind_ok h
      obtain ⟨⟨asked, turn⟩, hasked, h⟩ := bind_ok h
      obtain ⟨⟨tooled, tool⟩, htooled, h⟩ := bind_ok h
      cases h
      obtain ⟨covered, rfl⟩ := openingDecision_covered hdecided
      have hshow : shown.bench = session.bench := appendEvent_bench hshown
      have hask : asked.bench = session.bench := (applyDecision_bench hasked).trans hshow
      obtain ⟨hturns, opened, ho, hopened⟩ :=
        openRequestedTool_bench htooled (applyDecision_source hasked)
      have htools : asked.tools = session.tools := congrArg Bench.tools hask
      have hfinal : { tooled with status := .running : InterviewSession }.bench =
          { session.bench with tools := session.tools ++ opened.toList } := by
        show tooled.bench = _
        rw [hopened, hask, htools]
      rw [hfinal]
      rw [htools, ← hturns] at ho
      exact .asked rfl (fun _ _ hw => by cases hw) ho

theorem answer_handles {session session' : InterviewSession} {text : String}
    {turnMetadata : Dict Json} {step : SessionStep}
    (h : answer call session job text turnMetadata = .ok (.commit session' step)) :
    Handles call job session (.answer text turnMetadata) session'.turns session'.bench := by
  obtain ⟨shown, hshown, h⟩ := bind_ok h
  obtain ⟨⟨decided, decision, latencyMs⟩, hdecided, h⟩ := bind_ok h
  obtain ⟨⟨asked, turn⟩, hasked, h⟩ := bind_ok h
  obtain ⟨⟨tooled, tool⟩, htooled, h⟩ := bind_ok h
  obtain ⟨completed, hcompleted, h⟩ := bind_ok h
  cases h
  obtain ⟨covered, rfl⟩ := decideAfterAnswer_covered hdecided
  have happly : asked.bench = session.bench :=
    (applyDecision_bench hasked).trans ((covered_bench _ _).trans (prepareAnswer_bench hshown))
  have hask : (countFollowup asked decision).bench = session.bench :=
    (countFollowup_bench _ _).trans happly
  have hcounted : (countFollowup asked decision).turns = asked.turns :=
    congrArg Conduct.turns (countFollowup_conduct asked decision)
  obtain ⟨hturns, opened, ho, hopened⟩ :=
    openRequestedTool_bench htooled (hcounted ▸ applyDecision_source hasked)
  have htools : (countFollowup asked decision).tools = session.tools := congrArg Bench.tools hask
  have hfinal : session'.turns = tooled.turns :=
    congrArg Conduct.turns (completeIfAsked_conduct hcompleted)
  rw [completeIfAsked_bench hcompleted, hopened, hask, htools]
  rw [htools, ← hturns, ← hfinal] at ho
  exact .asked rfl (fun _ _ hw => by cases hw) ho

theorem submitTool_handles {session session' : InterviewSession} {toolId : String}
    {request : ToolSubmissionRequest} {step : ToolStep}
    (h : submitTool call session job toolId request = .ok (.commit session' step)) :
    Handles call job session (.submitTool toolId request) session'.turns session'.bench := by
  obtain ⟨work, hwork, h⟩ := bind_ok h
  obtain ⟨⟨decided, decision⟩, hdecided, h⟩ := bind_ok h
  obtain ⟨⟨asked, turn⟩, hasked, h⟩ := bind_ok h
  obtain ⟨⟨tooled, tool⟩, htooled, h⟩ := bind_ok h
  obtain ⟨completed, hcompleted, h⟩ := bind_ok h
  cases h
  obtain ⟨⟨given, covered⟩, hreply, hd⟩ := bind_ok hdecided
  cases hd
  have hask : asked.bench = work.session.bench :=
    (applyDecision_bench hasked).trans (covered_bench _ _)
  obtain ⟨hturns, opened, ho, hopened⟩ :=
    openRequestedTool_bench htooled (applyDecision_source hasked)
  have htools : asked.tools = work.session.tools := congrArg Bench.tools hask
  have hfinal : session'.turns = tooled.turns := by
    have hcounted : (countFollowup tooled decision).turns = tooled.turns :=
      congrArg Conduct.turns (countFollowup_conduct tooled decision)
    exact (congrArg Conduct.turns (completeIfAsked_conduct hcompleted)).trans hcounted
  rw [completeIfAsked_bench hcompleted, countFollowup_bench, hopened, hask, htools]
  rw [htools, ← hturns, ← hfinal] at ho
  exact .worked hwork ho

theorem OpensTool.handles {operation : Operation} {session session' : InterviewSession}
    {tool : ToolInvocation} (h : OpensTool session tool session') (ha : operation.asks = false)
    (ho : Opens job session.turns tool) (hf : operation.opensFrom = some tool.openedFromTurnId)
    (hs : tool.status = .open ∨ operation = .openTool tool) :
    Handles call job session operation session'.turns session'.bench := by
  obtain ⟨entry, events, _, hnew, _, _, rfl⟩ := h
  exact .opened ha hnew ho hf hs

theorem openTool_handles {session session' : InterviewSession} {invocation result : ToolInvocation}
    (h : openTool call session job invocation = .ok (.commit session' result)) :
    Handles call job session (.openTool invocation) session'.turns session'.bench := by
  obtain ⟨opened, hopened, h⟩ := bind_ok h
  cases h
  exact ((appendTool_meets _ _ _ _).of_ok hopened).handles rfl (appendTool_opens hopened) rfl
    (.inr rfl)

theorem openCodingChallenge_handles {session session' : InterviewSession}
    {request : CodingChallengeRequest} {result : ToolInvocation}
    (h : openCodingChallenge call session job request = .ok (.commit session' result)) :
    Handles call job session (.openCodingChallenge request) session'.turns session'.bench := by
  unfold openCodingChallenge at h
  obtain ⟨_, h⟩ := ite_error_ok h
  obtain ⟨_, h⟩ := ite_error_ok h
  obtain ⟨opened, hopened, h⟩ := bind_ok h
  cases h
  exact ((appendTool_meets _ _ _ _).of_ok hopened).handles rfl (appendTool_opens hopened) rfl
    (.inl rfl)

theorem cancelSession_handles {session session' : InterviewSession} {request : CancelSessionRequest}
    {result : InterviewSession}
    (h : cancelSession call session request = .ok (.commit session' result)) :
    Handles call job session (.cancelSession request) session'.turns session'.bench := by
  unfold cancelSession at h
  obtain ⟨_, h⟩ := ite_error_ok h
  split at h
  next => cases h
  next =>
    obtain ⟨⟨cancelled, ids⟩, hcancelled, h⟩ := bind_ok h
    obtain ⟨logged, hlogged, h⟩ := bind_ok h
    cases h
    obtain ⟨events, entries, hfinal, _⟩ := (cancelTools_meets _ _ _ _ rfl).of_ok hcancelled
    have htools : cancelled.bench =
        { session.bench with tools := session.tools.map ToolInvocation.cancel } := by
      have hfinal : cancelled = _ := hfinal
      rw [hfinal]
      rfl
    have hkept : session'.bench = cancelled.bench := by
      have hsame := appendEvent_bench hlogged
      exact hsame
    rw [hkept, htools]
    exact .cancelled

theorem recordStale_bench {call : Ambient} {turn : Turn} {items : List EvidenceItem}
    {session session' : InterviewSession} (h : recordStale call turn items session = .ok session') :
    session'.bench = session.bench := by
  induction items generalizing session with
  | nil => cases h; rfl
  | cons item rest ih =>
    obtain ⟨logged, hlogged, h⟩ := bind_ok h
    exact (ih h).trans (appendEvent_bench hlogged)

theorem applyTranscriptCorrection_bench {call : Ambient} {session session' : InterviewSession}
    {request : TranscriptCorrectionRequest} {revision : TranscriptRevision}
    (h : applyTranscriptCorrection call session request = .ok (session', revision)) :
    session'.bench = session.bench := by
  unfold applyTranscriptCorrection at h
  simp only at h
  split at h
  next => cases h
  next turn _ =>
    obtain ⟨_, h⟩ := ite_error_ok h
    obtain ⟨revised, hrevised, h⟩ := bind_ok h
    obtain ⟨stale, hstale, h⟩ := bind_ok h
    cases h
    have hgraph : (supersedeSemanticEvidenceForTurn revised turn.id).1.bench = revised.bench := rfl
    have hwritten : revised.bench = session.bench := by
      have hlogged := appendEvent_bench hrevised
      exact hlogged
    rw [recordStale_bench hstale, hgraph, hwritten]

theorem recordControl_bench {call : Ambient} {session session' : InterviewSession}
    {request : CandidateControlRequest} {result : CandidateControlResult}
    (h : recordControl call session request = .ok (session', result)) :
    session'.bench = session.bench := by
  unfold recordControl at h
  obtain ⟨_, h⟩ := ite_error_ok h
  obtain ⟨_, h⟩ := ite_error_ok h
  obtain ⟨⟨handled, reply⟩, hhandled, h⟩ := bind_ok h
  obtain ⟨logged, hlogged, h⟩ := bind_ok h
  obtain ⟨replied, hreplied, h⟩ := bind_ok h
  cases h
  obtain ⟨rfl, _⟩ := handleCandidateControl_ok (badRequestOnValueError_ok hhandled)
  have hlog : logged.bench = session.bench := by
    have hsame := appendEvent_bench hlogged
    exact hsame
  unfold recordControlTurn at hreplied
  split at hreplied
  next =>
    cases hreplied
    exact hlog
  next =>
    have hreply := appendEvent_bench hreplied
    exact Eq.trans hreply hlog

theorem candidateControl_bench {session session' : InterviewSession}
    {request : CandidateControlRequest} {result : CandidateControlResult}
    (h : candidateControl call session request = .ok (.commit session' result)) :
    session'.bench = session.bench := by
  obtain ⟨⟨handled, reply⟩, hhandled, h⟩ := bind_ok h
  have hcontrol := recordControl_bench hhandled
  simp only at h
  split at h
  next => cases h; exact hcontrol
  next =>
    obtain ⟨⟨corrected, revision⟩, hcorrected, h⟩ := bind_ok h
    cases h
    exact (applyTranscriptCorrection_bench hcorrected).trans hcontrol

theorem correctTranscript_bench {session session' : InterviewSession}
    {request : TranscriptCorrectionRequest} {revision : TranscriptRevision}
    (h : correctTranscript call session request = .ok (.commit session' revision)) :
    session'.bench = session.bench := by
  obtain ⟨⟨corrected, result⟩, hcorrected, h⟩ := bind_ok h
  cases h
  exact applyTranscriptCorrection_bench hcorrected

theorem observeEvidence_bench {session session' : InterviewSession}
    {observation : EvidenceObservation} {node : Option CompetencyEvidence}
    (h : observeEvidence call session job observation = .ok (.commit session' node)) :
    session'.bench = session.bench := by
  unfold observeEvidence at h
  split at h
  next => cases h
  next => cases h
  next observed item hobserved =>
    obtain ⟨logged, hlogged, h⟩ := bind_ok h
    cases h
    obtain ⟨_, hplaced, _⟩ := applyObservation_ok hobserved
    have hobserve : observed.bench = session.bench := by
      rw [hplaced]
      rfl
    exact (appendEvent_bench hlogged).trans hobserve

theorem reevaluateEvidence_bench {session session' : InterviewSession} {answerTurnId : String}
    {run : EvidenceJudgeRun}
    (h : reevaluateEvidence call session job answerTurnId = .ok (.commit session' run)) :
    session'.bench = session.bench := by
  unfold reevaluateEvidence at h
  obtain ⟨_, h⟩ := ite_error_ok h
  split at h
  next => cases h
  next =>
    obtain ⟨_, h⟩ := ite_error_ok h
    obtain ⟨_, h⟩ := ite_error_ok h
    simp only at h
    split at h
    next => cases h
    next =>
      obtain ⟨⟨judged, result⟩, hjudged, h⟩ := bind_ok h
      have hrecords := (judgeCandidateEvidence_meets _ _ _ _ _ _ _).of_ok hjudged
      split at h
      next => cases h
      next =>
        cases h
        exact hrecords.bench

theorem submitAppeal_bench {session session' : InterviewSession}
    {request : CandidateAppealRequest} {appeal : CandidateAppeal}
    (h : submitAppeal call session request = .ok (.commit session' appeal)) :
    session'.bench = session.bench := by
  unfold submitAppeal at h
  obtain ⟨_, h⟩ := ite_error_ok h
  obtain ⟨logged, hlogged, h⟩ := bind_ok h
  cases h
  have hkept := appendEvent_bench hlogged
  exact hkept

theorem submitIntegritySignal_bench {session session' : InterviewSession}
    {request : IntegritySignalRequest} {signal : IntegritySignal}
    (h : submitIntegritySignal call session request = .ok (.commit session' signal)) :
    session'.bench = session.bench := by
  obtain ⟨logged, hlogged, h⟩ := bind_ok h
  cases h
  have hkept := appendEvent_bench hlogged
  exact hkept

theorem reviewAppeal_bench {session session' : InterviewSession} {appealId : String}
    {request : AppealReviewRequest} {appeal : CandidateAppeal}
    (h : reviewAppeal call session appealId request = .ok (.commit session' appeal)) :
    session'.bench = session.bench := by
  unfold reviewAppeal at h
  simp only at h
  split at h
  next => cases h
  next =>
    obtain ⟨_, h⟩ := ite_error_ok h
    obtain ⟨logged, hlogged, h⟩ := bind_ok h
    cases h
    have hkept := appendEvent_bench hlogged
    exact hkept

theorem reviewIntegritySignal_bench {session session' : InterviewSession} {signalId : String}
    {request : IntegrityReviewRequest} {signal : IntegritySignal}
    (h : reviewIntegritySignal call session signalId request = .ok (.commit session' signal)) :
    session'.bench = session.bench := by
  unfold reviewIntegritySignal at h
  simp only at h
  split at h
  next => cases h
  next =>
    obtain ⟨_, h⟩ := ite_error_ok h
    obtain ⟨logged, hlogged, h⟩ := bind_ok h
    cases h
    have hkept := appendEvent_bench hlogged
    exact hkept

/-- What an operation that commits makes of the workbench. -/
theorem mutate_handles {operation : Operation} {session session' : InterviewSession}
    (h : mutate call operation session = .ok (some session')) :
    ∃ job, call.job = some job ∧
      Handles call job session operation session'.turns session'.bench := by
  unfold mutate at h
  split at h
  next => cases h
  next job hjob =>
    refine ⟨job, hjob, ?_⟩
    have hkept : ∀ {operation : Operation}, operation.asks = false →
        session'.bench = session.bench →
        Handles call job session operation session'.turns session'.bench := by
      intro operation hq hsame
      rw [hsame]
      exact .kept hq
    cases operation with
    | start =>
      obtain ⟨_ | ⟨_, _⟩, hout, hw⟩ := map_ok h <;> cases hw
      exact start_handles hout
    | answer text turnMetadata =>
      obtain ⟨_ | ⟨_, _⟩, hout, hw⟩ := map_ok h <;> cases hw
      exact answer_handles hout
    | cancelSession request =>
      obtain ⟨_ | ⟨_, _⟩, hout, hw⟩ := map_ok h <;> cases hw
      exact cancelSession_handles hout
    | reevaluateEvidence answerTurnId =>
      obtain ⟨_ | ⟨_, _⟩, hout, hw⟩ := map_ok h <;> cases hw
      exact hkept rfl (reevaluateEvidence_bench hout)
    | candidateControl request =>
      obtain ⟨_ | ⟨_, _⟩, hout, hw⟩ := map_ok h <;> cases hw
      exact hkept rfl (candidateControl_bench hout)
    | openCodingChallenge request =>
      obtain ⟨_ | ⟨_, _⟩, hout, hw⟩ := map_ok h <;> cases hw
      exact openCodingChallenge_handles hout
    | openTool invocation =>
      obtain ⟨_ | ⟨_, _⟩, hout, hw⟩ := map_ok h <;> cases hw
      exact openTool_handles hout
    | submitTool toolId request =>
      obtain ⟨_ | ⟨_, _⟩, hout, hw⟩ := map_ok h <;> cases hw
      exact submitTool_handles hout
    | correctTranscript request =>
      obtain ⟨_ | ⟨_, _⟩, hout, hw⟩ := map_ok h <;> cases hw
      exact hkept rfl (correctTranscript_bench hout)
    | submitAppeal request =>
      obtain ⟨_ | ⟨_, _⟩, hout, hw⟩ := map_ok h <;> cases hw
      exact hkept rfl (submitAppeal_bench hout)
    | reviewAppeal appealId request =>
      obtain ⟨_ | ⟨_, _⟩, hout, hw⟩ := map_ok h <;> cases hw
      exact hkept rfl (reviewAppeal_bench hout)
    | submitIntegritySignal request =>
      obtain ⟨_ | ⟨_, _⟩, hout, hw⟩ := map_ok h <;> cases hw
      exact hkept rfl (submitIntegritySignal_bench hout)
    | reviewIntegritySignal signalId request =>
      obtain ⟨_ | ⟨_, _⟩, hout, hw⟩ := map_ok h <;> cases hw
      exact hkept rfl (reviewIntegritySignal_bench hout)
    | observeEvidence observation =>
      obtain ⟨_ | ⟨_, _⟩, hout, hw⟩ := map_ok h <;> cases hw
      exact hkept rfl (observeEvidence_bench hout)

theorem createSession_bench {request : CreateSession} {organizationId : Option String}
    {session : InterviewSession} (h : createSession call request organizationId = .ok session) :
    session.bench = ⟨[], [], []⟩ := by
  unfold createSession at h
  obtain ⟨_, h⟩ := ite_error_ok h
  split at h
  next => cases h
  next =>
    obtain ⟨_, h⟩ := ite_error_ok h
    obtain ⟨_, h⟩ := ite_error_ok h
    have hkept := appendEvent_bench h
    exact hkept

omit [CanonicalDigest] in
theorem stored_bench (backend : Backend) (session : InterviewSession) :
    (backend.stored session).bench = session.bench := by
  cases backend with
  | memory => rfl
  | json => rfl

/-- A submission records the work on one open tool, and evaluates it. -/
theorem prepareTool_bench {session : InterviewSession} {toolId : String}
    {request : ToolSubmissionRequest} {work : ToolWork}
    (h : prepareTool call session job toolId request = .ok work) :
    ∃ invocation, session.tools.find? (fun tool => tool.id = toolId) = some invocation ∧
      invocation.status = .open ∧ work.invocation = { invocation with status := .evaluated } ∧
      work.submission.toolId = toolId ∧
      (∃ submitted, call.evaluate { invocation with status := .submitted } work.submission
        submitted job = .ok work.evaluation) ∧
      work.session.bench =
        ⟨setToolStatus toolId .evaluated (setToolStatus toolId .submitted session.tools),
          session.toolSubmissions ++ [work.submission],
          session.toolEvaluations ++ [work.evaluation]⟩ := by
  unfold prepareTool at h
  obtain ⟨_, h⟩ := ite_error_ok h
  obtain ⟨_, h⟩ := ite_error_ok h
  split at h
  next => cases h
  next invocation hfind =>
    have hid : invocation.id = toolId := by simpa using List.find?_some hfind
    obtain ⟨hopen, h⟩ := ite_error_ok h
    obtain ⟨⟨submitted, turn⟩, hsubmitted, h⟩ := bind_ok h
    obtain ⟨evaluation, hevaluation, h⟩ := bind_ok h
    obtain ⟨evaluated, hevaluated, h⟩ := bind_ok h
    obtain ⟨final, hfinal, h⟩ := bind_ok h
    cases h
    obtain ⟨first, hfirst, hsubmitted⟩ := bind_ok hsubmitted
    obtain ⟨second, hsecond, hsubmitted⟩ := bind_ok hsubmitted
    cases hsubmitted
    have hrecorded : RecordsEvidence evaluated final :=
      (recordToolEvidence_meets _ _ _ _ _ _).of_ok hfinal
    have hbegun := appendEvent_bench hfirst
    have hadded := appendEvent_bench hsecond
    have hscored := appendEvent_bench hevaluated
    refine ⟨invocation, hfind, not_not.mp hopen, rfl, rfl,
      ⟨_, badRequestOnValueError_ok hevaluation⟩, ?_⟩
    subst hid
    have hsub : submitted.bench = ⟨setToolStatus invocation.id .submitted session.tools,
        session.toolSubmissions ++ [⟨call.uuid .submission session.toolSubmissions.length,
          invocation.id, request.content⟩], session.toolEvaluations⟩ := Eq.trans hadded hbegun
    have hmid : evaluated.bench = ⟨setToolStatus invocation.id .evaluated submitted.tools,
        submitted.toolSubmissions, submitted.toolEvaluations ++ [evaluation]⟩ := hscored
    have htools : submitted.tools = _ := congrArg Bench.tools hsub
    have hsubmissions : submitted.toolSubmissions = _ := congrArg Bench.toolSubmissions hsub
    have hevaluations : submitted.toolEvaluations = _ := congrArg Bench.toolEvaluations hsub
    refine hrecorded.bench.trans ?_
    rw [hmid, htools, hsubmissions, hevaluations]

end NoraInterviewer
