import NoraInterviewer.DossierSteps

namespace NoraInterviewer

open ExceptRules

/-- What an INTERVIEWER_TURN entry says of which turn: the competencies covered by then. -/
def LogEntry.announces (entry : LogEntry) : Option (Option String × Option Json) :=
  if entry.type = .interviewerTurn then
    some (entry.turnId, entry.payload.lookup "covered_competencies")
  else none

/-- What of a session the course of the interview is made of. -/
structure Conduct where
  status : SessionStatus
  turns : List Turn
  askedQuestions : Nat
  askedAnchorCompetencies : List String
  followupsByCompetency : Dict Nat
  coveredCompetencies : List String
  toolPayloads : List (Dict Json)
  announced : List (Option String × Option Json)

def InterviewSession.conduct (session : InterviewSession) : Conduct where
  status := session.status
  turns := session.turns
  askedQuestions := session.askedQuestions
  askedAnchorCompetencies := session.askedAnchorCompetencies
  followupsByCompetency := session.followupsByCompetency
  coveredCompetencies := session.coveredCompetencies
  toolPayloads := session.tools.map ToolInvocation.payload
  announced := session.log.filterMap LogEntry.announces

/-- One more follow-up for the first competency of a question that has a parent. -/
def followedUp (counts : Dict Nat) (parentTurnId : Option String) (competencyTags : List String) :
    Dict Nat :=
  match competencyTags with
  | [] => counts
  | key :: _ =>
    if given parentTurnId then Dict.set key ((counts.lookup key).getD 0 + 1) counts else counts

/-- The conduct once `turn` has put `decision`. -/
def Conduct.asked (conduct : Conduct) (decision : AgentDecision) (covered : List String)
    (turn : Turn) (opened : List (Dict Json)) : Conduct where
  status := conduct.status
  turns := conduct.turns ++ [turn]
  askedQuestions :=
    if laneFor decision = .closing then conduct.askedQuestions else conduct.askedQuestions + 1
  askedAnchorCompetencies :=
    if laneFor decision = .anchor
    then markAsked conduct.askedAnchorCompetencies decision.competencyTags
    else conduct.askedAnchorCompetencies
  followupsByCompetency := conduct.followupsByCompetency
  coveredCompetencies := covered
  toolPayloads := conduct.toolPayloads ++ opened
  announced := conduct.announced ++ [(some turn.id, some (.ofList covered))]

/-- The conduct once `turn` has gone on with `decision`, which may be the end. -/
def Conduct.decided (conduct : Conduct) (decision : AgentDecision) (covered : List String)
    (turn : Turn) (opened : List (Dict Json)) : Conduct :=
  { conduct.asked decision covered turn opened with
    status := if decision.completesInterview then .completed else conduct.status
    followupsByCompetency :=
      followedUp conduct.followupsByCompetency decision.parentTurnId decision.competencyTags }

/-- The operations that put a question of the brain or of the planner. -/
def Operation.asks : Operation → Bool
  | .start | .answer _ _ | .submitTool _ _ => true
  | _ => false

variable [CanonicalDigest]

/-- What an operation that commits makes of the conduct. -/
inductive Conducts (call : Call) (job : JobSpec) (session : InterviewSession) :
    Operation → Conduct → Prop where
  | started {shown : InterviewSession} {decision : AgentDecision} {covered : List String}
    {latencyMs : Nat} (opened : List (Dict Json))
    (hs : session.status = .created ∨ session.status = .running ∧ session.turns = [])
    (hshown : shown.conduct = session.conduct)
    (hd : openingDecision call shown job =
      .ok ({ shown with coveredCompetencies := covered }, decision, latencyMs)) :
    Conducts call job session .start
      { shown.conduct.asked decision covered
          (decisionTurn call.toAmbient shown decision latencyMs) opened with status := .running }
  | answered {text : String} {turnMetadata : Dict Json} {shown : InterviewSession}
    {decision : AgentDecision} {covered : List String} {latencyMs : Nat} (opened : List (Dict Json))
    (hshown : prepareAnswer call session job text turnMetadata = .ok shown)
    (hd : decideAfterAnswer call shown job =
      .ok ({ shown with coveredCompetencies := covered }, decision, latencyMs)) :
    Conducts call job session (.answer text turnMetadata)
      (shown.conduct.decided decision covered
        (decisionTurn call.toAmbient shown decision latencyMs) opened)
  | worked {toolId : String} {request : ToolSubmissionRequest} {work : ToolWork}
    {decision : AgentDecision} {covered : List String} (opened : List (Dict Json))
    (hwork : prepareTool call session job toolId request = .ok work)
    (hd : decideAfterTool call work job =
      .ok ({ work.session with coveredCompetencies := covered }, decision)) :
    Conducts call job session (.submitTool toolId request)
      (work.session.conduct.decided decision covered
        (decisionTurn call.toAmbient work.session decision call.latencyMs) opened)
  | replied {request : CandidateControlRequest} {turn : Turn} (ha : session.active)
    (hs : turn.speaker = .interviewer) (hf : turn.flagged "candidate_control" = true) :
    Conducts call job session (.candidateControl request) { session.conduct with
      turns := session.turns ++ [turn]
      announced := session.conduct.announced ++ [(some turn.id, none)] }
  | revised {operation : Operation} {index : Nat} {turn : Turn} {text : String}
    {metadata : Dict Json} (hc : (operation.correction session).isSome)
    (ht : session.turns[index]? = some turn) (hs : turn.speaker = .candidate) :
    Conducts call job session operation { session.conduct with
      turns := session.turns.modify index fun turn => { turn with text, metadata } }
  | opened {operation : Operation} (hq : operation.asks = false) (payload : Dict Json)
    (ha : session.active) :
    Conducts call job session operation { session.conduct with
      toolPayloads := session.conduct.toolPayloads ++ [payload] }
  | cancelled {request : CancelSessionRequest} :
    Conducts call job session (.cancelSession request) { session.conduct with status := .cancelled }
  | kept {operation : Operation} (hq : operation.asks = false) :
    Conducts call job session operation session.conduct

omit [CanonicalDigest] in
/-- Entries of other types announce nothing. -/
theorem announced_append {log more : List LogEntry}
    (h : ∀ entry ∈ more, entry.type ≠ .interviewerTurn) :
    (log ++ more).filterMap LogEntry.announces = log.filterMap LogEntry.announces := by
  have hnone : more.filterMap LogEntry.announces = [] := by
    rw [List.filterMap_eq_nil_iff]
    intro entry he
    rw [LogEntry.announces, if_neg (h entry he)]
  rw [List.filterMap_append, hnone, List.append_nil]

theorem appendEvent_conduct {call : Ambient} {session session' : InterviewSession} {type : EventType}
    {turn : Option Turn} {payload : Dict Json} (hk : type ≠ .interviewerTurn)
    (h : appendEvent call session type turn payload = .ok session') :
    session'.conduct = session.conduct := by
  obtain ⟨events, rfl, hlog, _⟩ := appendEvent_ok h
  simp only [InterviewSession.conduct, InterviewSession.log] at hlog ⊢
  rw [hlog, announced_append]
  intro entry he
  rw [List.mem_singleton.mp he]
  exact hk

theorem appendEvent_announces {call : Ambient} {session session' : InterviewSession} {turn : Turn}
    {payload : Dict Json}
    (h : appendEvent call session .interviewerTurn (some turn) payload = .ok session') :
    session'.conduct = { session.conduct with announced :=
      session.conduct.announced ++ [(some turn.id, payload.lookup "covered_competencies")] } := by
  obtain ⟨events, rfl, hlog, _⟩ := appendEvent_ok h
  simp only [InterviewSession.conduct, InterviewSession.log] at hlog ⊢
  rw [hlog, List.filterMap_append]
  simp [LogEntry.announces, withTrace_lookup]

theorem RecordsEvidence.conduct {session session' : InterviewSession}
    (h : RecordsEvidence session session') : session'.conduct = session.conduct := by
  obtain ⟨graph, runs, events, entries, rfl, hg, hx⟩ := h
  have hlog := hg.log
  simp only [InterviewSession.conduct, InterviewSession.log] at hlog ⊢
  rw [hlog, announced_append]
  intro entry he htype
  have habout := hx entry he
  rw [htype] at habout
  cases habout

theorem OpensTool.conduct {session session' : InterviewSession} {tool : ToolInvocation}
    (h : OpensTool session tool session') :
    session.active ∧ session'.conduct = { session.conduct with
      toolPayloads := session.conduct.toolPayloads ++ [tool.payload] } := by
  obtain ⟨entry, events, ha, _, hentry, hg, rfl⟩ := h
  refine ⟨ha, ?_⟩
  have hlog := hg.log
  simp only [InterviewSession.conduct, InterviewSession.log, List.map_append, List.map_cons,
    List.map_nil] at hlog ⊢
  rw [hlog, announced_append]
  intro other ho htype
  rw [List.mem_singleton.mp ho, hentry.type] at htype
  cases htype

theorem applyDecision_conduct {call : Ambient} {session session' : InterviewSession}
    {decision : AgentDecision} {latencyMs : Nat} {turn : Turn}
    (h : applyDecision call session decision latencyMs = .ok (session', turn)) :
    turn = decisionTurn call session decision latencyMs ∧
      session'.conduct = session.conduct.asked decision session.coveredCompetencies turn [] := by
  obtain ⟨logged, hlogged, h⟩ := bind_ok h
  cases h
  refine ⟨rfl, ?_⟩
  rw [appendEvent_announces hlogged]
  simp only [InterviewSession.conduct, Conduct.asked, countDecision, List.append_nil]
  rfl

theorem openRequestedTool_conduct {call : Call} {session session' : InterviewSession} {job : JobSpec}
    {decision : AgentDecision} {openedFromTurnId : String} {tool : Option ToolInvocation}
    (h : openRequestedTool call session job decision openedFromTurnId = .ok (session', tool)) :
    ∃ opened, session'.conduct = { session.conduct with
      toolPayloads := session.conduct.toolPayloads ++ opened } := by
  rcases (openRequestedTool_meets call session job decision openedFromTurnId).of_ok h with
    h | ⟨tool, _, _, hopens⟩
  · have hsame : session' = session := h
    exact ⟨[], by rw [hsame, List.append_nil]⟩
  · exact ⟨[tool.payload], hopens.conduct.2⟩

omit [CanonicalDigest] in
theorem countFollowup_conduct (session : InterviewSession) (decision : AgentDecision) :
    (countFollowup session decision).conduct = { session.conduct with
      followupsByCompetency := followedUp session.followupsByCompetency decision.parentTurnId
        decision.competencyTags } := by
  unfold countFollowup followedUp
  cases decision.competencyTags with
  | nil => rfl
  | cons key rest =>
    simp only
    split
    next => rfl
    next => rfl

theorem completeIfAsked_conduct {call : Ambient} {session session' : InterviewSession}
    {decision : AgentDecision} (h : completeIfAsked call session decision = .ok session') :
    session'.conduct = { session.conduct with
      status := if decision.completesInterview then .completed else session.status } := by
  unfold completeIfAsked at h
  split at h
  next hc =>
    rw [appendEvent_conduct (by decide) h, if_pos hc]
    rfl
  next hc =>
    cases h
    rw [if_neg hc]
    rfl

theorem openingDecision_covered {call : Call} {session session' : InterviewSession} {job : JobSpec}
    {decision : AgentDecision} {latencyMs : Nat}
    (h : openingDecision call session job = .ok (session', decision, latencyMs)) :
    ∃ covered, session' = { session with coveredCompetencies := covered } :=
  (openingDecision_meets call session job).of_ok h

omit [CanonicalDigest] in
theorem decideAfterAnswer_covered {call : Call} {session session' : InterviewSession}
    {job : JobSpec} {decision : AgentDecision} {latencyMs : Nat}
    (h : decideAfterAnswer call session job = .ok (session', decision, latencyMs)) :
    ∃ covered, session' = { session with coveredCompetencies := covered } := by
  obtain ⟨reply, _, h⟩ := bind_ok h
  simp only at h
  split at h
  next => cases h; exact ⟨_, rfl⟩
  next => cases h; exact ⟨_, rfl⟩

omit [CanonicalDigest] in
theorem Conduct.asked_opened (conduct : Conduct) (decision : AgentDecision) (covered : List String)
    (turn : Turn) (opened : List (Dict Json)) :
    { conduct.asked decision covered turn [] with
      toolPayloads := (conduct.asked decision covered turn []).toolPayloads ++ opened } =
    conduct.asked decision covered turn opened := by
  simp [Conduct.asked]

variable {call : Call} {job : JobSpec}

theorem start_conducts {session session' : InterviewSession} {step : SessionStep}
    (h : start call session job = .ok (.commit session' step)) :
    Conducts call job session .start session'.conduct := by
  unfold start at h
  split at h
  next => cases h
  next hended =>
    split at h
    next => cases h
    next hrunning =>
      obtain ⟨shown, hshown, h⟩ := bind_ok h
      obtain ⟨⟨decided, decision, latencyMs⟩, hdecided, h⟩ := bind_ok h
      obtain ⟨⟨asked, turn⟩, hasked, h⟩ := bind_ok h
      obtain ⟨⟨tooled, tool⟩, htooled, h⟩ := bind_ok h
      cases h
      have hfresh : session.status = .created ∨ session.status = .running ∧ session.turns = [] := by
        cases hs : session.status with
        | created => exact Or.inl rfl
        | running => exact Or.inr ⟨rfl, by simpa [hs] using hrunning⟩
        | completed => exact absurd (Or.inl hs) hended
        | cancelled => exact absurd (Or.inr hs) hended
      obtain ⟨covered, rfl⟩ := openingDecision_covered hdecided
      obtain ⟨rfl, hask⟩ := applyDecision_conduct hasked
      obtain ⟨opened, hopened⟩ := openRequestedTool_conduct htooled
      have hfinal : { tooled with status := .running : InterviewSession }.conduct =
          { shown.conduct.asked decision covered
              (decisionTurn call.toAmbient shown decision latencyMs) opened with
            status := .running } := by
        rw [← Conduct.asked_opened]
        exact congrArg (fun conduct : Conduct => { conduct with status := .running })
          (hopened.trans (congrArg (fun conduct : Conduct => { conduct with
            toolPayloads := conduct.toolPayloads ++ opened }) hask))
      rw [hfinal]
      exact Conducts.started opened hfresh (appendEvent_conduct (by decide) hshown) hdecided

theorem recordClaimEvents_conduct {call : Ambient} {candidate : Turn} {items : List EvidenceItem}
    {session session' : InterviewSession}
    (h : recordClaimEvents call candidate items session = .ok session') :
    session'.conduct = session.conduct := by
  induction items generalizing session with
  | nil => cases h; rfl
  | cons item rest ih =>
    obtain ⟨logged, hlogged, h⟩ := bind_ok h
    exact (ih h).trans (appendEvent_conduct (by decide) hlogged)

/-- The brain is shown the session with the answer at the end of its transcript. -/
theorem prepareAnswer_conduct {session shown : InterviewSession} {text : String}
    {turnMetadata : Dict Json} (h : prepareAnswer call session job text turnMetadata = .ok shown) :
    session.active ∧ shown.conduct = { session.conduct with
      turns := session.turns ++ [answerTurn call.toAmbient session.turns text turnMetadata] } := by
  have ha := ((prepareAnswer_meets ⟨fun _ _ => True, fun _ _ => True, fun _ => True,
    fun _ _ => True⟩ call session job text turnMetadata).of_ok h).1
  refine ⟨ha, ?_⟩
  unfold prepareAnswer at h
  obtain ⟨_, h⟩ := ite_error_ok h
  obtain ⟨_, h⟩ := ite_error_ok h
  obtain ⟨_, h⟩ := ite_error_ok h
  obtain ⟨⟨recorded, candidate⟩, hrecorded, h⟩ := bind_ok h
  have hevidence : shown.conduct = recorded.conduct :=
    ((recordAnswerEvidence_meets call recorded job _ candidate).of_ok h).conduct
  obtain ⟨logged, hlogged, hrecorded⟩ := bind_ok hrecorded
  cases hrecorded
  rw [hevidence, appendEvent_conduct (by decide) hlogged]
  rfl

theorem answer_conducts {session session' : InterviewSession} {text : String}
    {turnMetadata : Dict Json} {step : SessionStep}
    (h : answer call session job text turnMetadata = .ok (.commit session' step)) :
    Conducts call job session (.answer text turnMetadata) session'.conduct := by
  obtain ⟨shown, hshown, h⟩ := bind_ok h
  obtain ⟨⟨decided, decision, latencyMs⟩, hdecided, h⟩ := bind_ok h
  obtain ⟨⟨asked, turn⟩, hasked, h⟩ := bind_ok h
  obtain ⟨⟨tooled, tool⟩, htooled, h⟩ := bind_ok h
  obtain ⟨completed, hcompleted, h⟩ := bind_ok h
  cases h
  obtain ⟨covered, rfl⟩ := decideAfterAnswer_covered hdecided
  obtain ⟨rfl, hask⟩ := applyDecision_conduct hasked
  obtain ⟨opened, hopened⟩ := openRequestedTool_conduct htooled
  have hfinal : session'.conduct = shown.conduct.decided decision covered
      (decisionTurn call.toAmbient shown decision latencyMs) opened := by
    have hstatus : tooled.status = shown.status := by
      have hconduct := congrArg Conduct.status hopened
      rw [countFollowup_conduct, hask] at hconduct
      exact hconduct
    have hcounts : asked.followupsByCompetency = shown.followupsByCompetency :=
      congrArg Conduct.followupsByCompetency hask
    rw [completeIfAsked_conduct hcompleted, hopened, countFollowup_conduct, hask, hstatus, hcounts]
    simp only [Conduct.decided, Conduct.asked, List.append_nil]
    rfl
  rw [hfinal]
  exact Conducts.answered opened hshown hdecided

theorem observeTool_conduct {invocation : ToolInvocation} {turn : Turn} {evaluation : ToolEvaluation}
    {state : EvidenceState} {ids : List String} {session session' : InterviewSession}
    (h : observeTool call.toAmbient job invocation turn evaluation state ids session = .ok session') :
    session'.conduct = session.conduct := by
  induction ids generalizing session with
  | nil => cases h; rfl
  | cons competencyId rest ih =>
    obtain ⟨⟨observed, item⟩, hobserved, h⟩ := bind_ok h
    obtain ⟨logged, hlogged, h⟩ := bind_ok h
    obtain ⟨_, hplaced, _⟩ := applyObservation_ok hobserved
    have hkept : observed.conduct = session.conduct := by
      rw [hplaced]
      rfl
    exact (ih h).trans ((appendEvent_conduct (by decide) hlogged).trans hkept)

omit [CanonicalDigest] in
theorem setToolStatus_payload (toolId : String) (status : ToolStatus) (tools : List ToolInvocation) :
    (setToolStatus toolId status tools).map ToolInvocation.payload =
      tools.map ToolInvocation.payload := by
  induction tools with
  | nil => rfl
  | cons tool rest ih =>
    unfold setToolStatus
    split
    next => rfl
    next => rw [List.map_cons, List.map_cons, ih]

/-- The brain is shown the session with the artifact at the end of its transcript. -/
theorem prepareTool_conduct {session : InterviewSession} {toolId : String}
    {request : ToolSubmissionRequest} {work : ToolWork}
    (h : prepareTool call session job toolId request = .ok work) :
    session.active ∧ ∃ turn : Turn, turn.speaker = .candidate ∧ turn.flagged "artifact" = true ∧
      work.session.conduct = { session.conduct with turns := session.turns ++ [turn] } := by
  have ha := ((prepareTool_meets ⟨fun _ _ => True, fun _ _ => True, fun _ => True,
    fun _ _ => True⟩ call session job toolId request).of_ok h).1
  refine ⟨ha, ?_⟩
  unfold prepareTool at h
  obtain ⟨_, h⟩ := ite_error_ok h
  obtain ⟨_, h⟩ := ite_error_ok h
  split at h
  next => cases h
  next invocation _ =>
    obtain ⟨_, h⟩ := ite_error_ok h
    obtain ⟨⟨submitted, turn⟩, hsubmitted, h⟩ := bind_ok h
    obtain ⟨evaluation, _, h⟩ := bind_ok h
    obtain ⟨evaluated, hevaluated, h⟩ := bind_ok h
    obtain ⟨final, hfinal, h⟩ := bind_ok h
    cases h
    obtain ⟨first, hfirst, hsubmitted⟩ := bind_ok hsubmitted
    obtain ⟨second, hsecond, hsubmitted⟩ := bind_ok hsubmitted
    cases hsubmitted
    have hbegun : first.conduct = session.conduct := by
      rw [appendEvent_conduct (by decide) hfirst]
      simp only [InterviewSession.conduct, setToolStatus_payload]
      rfl
    have hevidence : final.conduct = evaluated.conduct := by
      unfold recordToolEvidence at hfinal
      split at hfinal
      next => cases hfinal; rfl
      next => exact observeTool_conduct hfinal
    have hevaluation : evaluated.conduct = submitted.conduct := by
      rw [appendEvent_conduct (by decide) hevaluated]
      simp only [InterviewSession.conduct, setToolStatus_payload]
      rfl
    have hturns : first.turns = session.turns := congrArg Conduct.turns hbegun
    let submission : ToolSubmission := {
      id := call.uuid .submission session.toolSubmissions.length
      toolId
      content := request.content }
    refine ⟨artifactTurn call.toAmbient first invocation submission, rfl, rfl, ?_⟩
    rw [hevidence, hevaluation, appendEvent_conduct (by decide) hsecond, ← hbegun, ← hturns]
    rfl

theorem submitTool_conducts {session session' : InterviewSession} {toolId : String}
    {request : ToolSubmissionRequest} {step : ToolStep}
    (h : submitTool call session job toolId request = .ok (.commit session' step)) :
    Conducts call job session (.submitTool toolId request) session'.conduct := by
  obtain ⟨work, hwork, h⟩ := bind_ok h
  obtain ⟨⟨decided, decision⟩, hdecided, h⟩ := bind_ok h
  obtain ⟨⟨asked, turn⟩, hasked, h⟩ := bind_ok h
  obtain ⟨⟨tooled, tool⟩, htooled, h⟩ := bind_ok h
  obtain ⟨completed, hcompleted, h⟩ := bind_ok h
  cases h
  obtain ⟨⟨given, covered⟩, hreply, hd⟩ := bind_ok hdecided
  cases hd
  obtain ⟨rfl, hask⟩ := applyDecision_conduct hasked
  obtain ⟨opened, hopened⟩ := openRequestedTool_conduct htooled
  have hfinal : session'.conduct = work.session.conduct.decided decision covered
      (decisionTurn call.toAmbient work.session decision call.latencyMs) opened := by
    have hstatus : tooled.status = work.session.status := by
      have hconduct := congrArg Conduct.status hopened
      rw [hask] at hconduct
      exact hconduct
    have hcounts : tooled.followupsByCompetency = work.session.followupsByCompetency := by
      have hconduct := congrArg Conduct.followupsByCompetency hopened
      rw [hask] at hconduct
      exact hconduct
    have hkept : (countFollowup tooled decision).status = tooled.status :=
      congrArg Conduct.status (countFollowup_conduct tooled decision)
    rw [completeIfAsked_conduct hcompleted, hkept, countFollowup_conduct, hopened, hask, hstatus,
      hcounts]
    simp only [Conduct.decided, Conduct.asked, List.append_nil]
    rfl
  rw [hfinal]
  exact Conducts.worked opened hwork hdecided

omit [CanonicalDigest] in
theorem cancel_payload (tool : ToolInvocation) : tool.cancel.payload = tool.payload := by
  unfold ToolInvocation.cancel
  split
  next => rfl
  next => rfl

theorem cancelTools_conduct {call : Ambient} {before rest : List ToolInvocation}
    {session session' : InterviewSession} {ids : List String}
    (h : cancelTools call before rest session = .ok (session', ids))
    (hpayloads : session.tools.map ToolInvocation.payload =
      (before ++ rest).map ToolInvocation.payload) :
    session'.conduct = session.conduct := by
  induction rest generalizing before session session' ids with
  | nil => cases h; rfl
  | cons tool rest ih =>
    unfold cancelTools at h
    split at h
    next =>
      obtain ⟨logged, hlogged, h⟩ := bind_ok h
      obtain ⟨⟨cancelled, others⟩, hrest, h⟩ := bind_ok h
      cases h
      have hkept : logged.conduct = session.conduct := by
        rw [appendEvent_conduct (by decide) hlogged]
        simp only [InterviewSession.conduct, hpayloads, List.map_append, List.map_cons]
        rfl
      have hafter : logged.tools.map ToolInvocation.payload =
          session.tools.map ToolInvocation.payload := congrArg Conduct.toolPayloads hkept
      refine (ih hrest ?_).trans hkept
      rw [hafter, hpayloads]
      simp
    next => exact ih h (by rw [hpayloads]; simp)

theorem cancelSession_conducts {session session' : InterviewSession} {request : CancelSessionRequest}
    {result : InterviewSession}
    (h : cancelSession call session request = .ok (.commit session' result)) :
    Conducts call job session (.cancelSession request) session'.conduct := by
  unfold cancelSession at h
  obtain ⟨_, h⟩ := ite_error_ok h
  split at h
  next => cases h
  next =>
    obtain ⟨⟨cancelled, ids⟩, hcancelled, h⟩ := bind_ok h
    obtain ⟨logged, hlogged, h⟩ := bind_ok h
    cases h
    have htools := cancelTools_conduct hcancelled rfl
    have hfinal : session'.conduct = { session.conduct with status := .cancelled } := by
      rw [appendEvent_conduct (by decide) hlogged, ← htools]
      rfl
    rw [hfinal]
    exact .cancelled

theorem recordStale_conduct {call : Ambient} {turn : Turn} {items : List EvidenceItem}
    {session session' : InterviewSession} (h : recordStale call turn items session = .ok session') :
    session'.conduct = session.conduct := by
  induction items generalizing session with
  | nil => cases h; rfl
  | cons item rest ih =>
    obtain ⟨logged, hlogged, h⟩ := bind_ok h
    exact (ih h).trans (appendEvent_conduct (by decide) hlogged)

omit [CanonicalDigest] in
/-- A shared dict shows up under `metadata` only. -/
theorem writeMetadata_announced (session : InterviewSession) (index : Nat) (text : String)
    (metadata : Dict Json) :
    (writeMetadata session index text metadata).log.filterMap LogEntry.announces =
      session.log.filterMap LogEntry.announces := by
  have hpoint : (writeMetadata session index text metadata).events.map
      (fun event => event.entry.announces) =
      session.events.map fun event => event.entry.announces := by
    apply List.ext_getElem?
    intro i
    simp only [writeMetadata, List.getElem?_map, List.getElem?_mapIdx]
    cases session.events[i]? with
    | none => rfl
    | some event =>
      simp only [Option.map_some]
      split
      next =>
        simp only [LogEntry.announces, InterviewEvent.entry]
        rw [Dict.lookup_set_ne (by decide)]
        rfl
      next => rfl
  have hfilter : ∀ events : List InterviewEvent,
      (events.map InterviewEvent.entry).filterMap LogEntry.announces =
        (events.map fun event => event.entry.announces).filterMap id := by
    intro events
    rw [List.filterMap_map, List.filterMap_map]
    rfl
  simp only [InterviewSession.log]
  rw [hfilter, hfilter, hpoint]

omit [CanonicalDigest] in
theorem writeMetadata_conduct (session : InterviewSession) (index : Nat) (text : String)
    (metadata : Dict Json) :
    (writeMetadata session index text metadata).conduct = { session.conduct with
      turns := session.turns.modify index fun turn => { turn with text, metadata } } := by
  have hannounced := writeMetadata_announced session index text metadata
  simp only [InterviewSession.conduct]
  rw [hannounced]
  rfl

theorem recordRevision_conduct {call : Ambient} {session session' : InterviewSession} {index : Nat}
    {turn : Turn} {revision : TranscriptRevision}
    (h : recordRevision call session index turn revision = .ok session') :
    ∃ text metadata, session'.conduct = { session.conduct with
      turns := session.turns.modify index fun turn => { turn with text, metadata } } := by
  have hwritten := appendEvent_conduct (by decide) h
  rw [writeMetadata_conduct] at hwritten
  exact ⟨_, _, hwritten⟩

/-- A correction keeps everything but the text and the metadata of one candidate turn. -/
theorem applyTranscriptCorrection_conduct {session session' : InterviewSession}
    {request : TranscriptCorrectionRequest} {revision : TranscriptRevision}
    (h : applyTranscriptCorrection call.toAmbient session request = .ok (session', revision)) :
    ∃ index turn text metadata, session.turns[index]? = some turn ∧ turn.speaker = .candidate ∧
      session'.conduct = { session.conduct with
        turns := session.turns.modify index fun turn => { turn with text, metadata } } := by
  unfold applyTranscriptCorrection at h
  simp only at h
  split at h
  next => cases h
  next turn hturn =>
    obtain ⟨hspeaker, h⟩ := ite_error_ok h
    obtain ⟨revised, hrevised, h⟩ := bind_ok h
    obtain ⟨stale, hstale, h⟩ := bind_ok h
    cases h
    have hgraph : (supersedeSemanticEvidenceForTurn revised turn.id).1.conduct =
        revised.conduct := rfl
    obtain ⟨text, metadata, hwritten⟩ := recordRevision_conduct hrevised
    refine ⟨_, turn, text, metadata, hturn, not_not.mp hspeaker, ?_⟩
    rw [recordStale_conduct hstale, hgraph, hwritten]

theorem correctTranscript_conducts {session session' : InterviewSession}
    {request : TranscriptCorrectionRequest} {revision : TranscriptRevision}
    (h : correctTranscript call session request = .ok (.commit session' revision)) :
    Conducts call job session (.correctTranscript request) session'.conduct := by
  obtain ⟨⟨corrected, result⟩, hcorrected, h⟩ := bind_ok h
  cases h
  obtain ⟨index, turn, text, metadata, hturn, hspeaker, hfinal⟩ :=
    applyTranscriptCorrection_conduct hcorrected
  rw [hfinal]
  exact .revised rfl hturn hspeaker

/-- A control adds at most one turn, which is marked as its own. -/
theorem recordControl_conduct {session session' : InterviewSession}
    {request : CandidateControlRequest} {result : CandidateControlResult}
    (h : recordControl call.toAmbient session request = .ok (session', result)) :
    session.active ∧
      (request.kind = .correctLastAnswer → ∃ answer, lastTurnBy session .candidate = some answer ∧
        result.targetTurnId = some answer.id) ∧
      (session'.conduct = session.conduct ∨
        request.kind ≠ .correctLastAnswer ∧ ∃ turn : Turn, turn.speaker = .interviewer ∧
          turn.flagged "candidate_control" = true ∧ session'.conduct = { session.conduct with
            turns := session.turns ++ [turn]
            announced := session.conduct.announced ++ [(some turn.id, none)] }) := by
  unfold recordControl at h
  obtain ⟨hcompleted, h⟩ := ite_error_ok h
  obtain ⟨hcancelled, h⟩ := ite_error_ok h
  obtain ⟨⟨handled, reply⟩, hhandled, h⟩ := bind_ok h
  obtain ⟨logged, hlogged, h⟩ := bind_ok h
  obtain ⟨replied, hreplied, h⟩ := bind_ok h
  cases h
  obtain ⟨rfl, hturn, hcorrect⟩ := handleCandidateControl_ok (badRequestOnValueError_ok hhandled)
  refine ⟨⟨hcompleted, hcancelled⟩, fun hk => (hcorrect hk).2, ?_⟩
  have hlog := appendEvent_conduct (by decide) hlogged
  have hbefore : logged.conduct = session.conduct := hlog
  unfold recordControlTurn at hreplied
  split at hreplied
  next =>
    cases hreplied
    exact Or.inl hbefore
  next turn hsome =>
    obtain ⟨_, hspeaker, hflag⟩ := hturn turn hsome
    refine Or.inr ⟨fun hk => ?_, turn, hspeaker, hflag, ?_⟩
    · obtain ⟨hnone, _⟩ := hcorrect hk
      rw [hsome] at hnone
      cases hnone
    · rw [appendEvent_announces hreplied, ← hbefore]
      have hturns : logged.turns = session.turns := congrArg Conduct.turns hbefore
      rw [← hturns]
      rfl

theorem candidateControl_conducts {session session' : InterviewSession}
    {request : CandidateControlRequest} {result : CandidateControlResult}
    (h : candidateControl call session request = .ok (.commit session' result)) :
    Conducts call job session (.candidateControl request) session'.conduct := by
  obtain ⟨⟨handled, reply⟩, hhandled, h⟩ := bind_ok h
  obtain ⟨ha, hcorrect, hconduct⟩ := recordControl_conduct hhandled
  simp only at h
  split at h
  next =>
    cases h
    rcases hconduct with hkept | ⟨_, turn, hspeaker, hflag, hadded⟩
    · rw [hkept]
      exact .kept rfl
    · rw [hadded]
      exact .replied ha hspeaker hflag
  next correction hreq =>
    obtain ⟨⟨corrected, revision⟩, hcorrected, h⟩ := bind_ok h
    cases h
    have hkind : request.kind = .correctLastAnswer := by
      unfold requestedCorrection at hreq
      split at hreq
      next hc => exact hc.1
      next => cases hreq
    obtain ⟨answer, hlast, htarget⟩ := hcorrect hkind
    have hcontrol := requestedCorrection_target hreq hlast htarget
    rcases hconduct with hkept | ⟨hother, _⟩
    · obtain ⟨index, turn, text, metadata, hturn, hspeaker, hfinal⟩ :=
        applyTranscriptCorrection_conduct hcorrected
      have hturns : handled.turns = session.turns := congrArg Conduct.turns hkept
      rw [hfinal, hkept, hturns]
      rw [hturns] at hturn
      refine .revised ?_ hturn hspeaker
      rw [Operation.correction, hcontrol]
      rfl
    · exact absurd hkind hother

theorem openTool_conducts {session session' : InterviewSession} {invocation result : ToolInvocation}
    (h : openTool call session job invocation = .ok (.commit session' result)) :
    Conducts call job session (.openTool invocation) session'.conduct := by
  obtain ⟨opened, hopened, h⟩ := bind_ok h
  cases h
  obtain ⟨ha, hfinal⟩ := ((appendTool_meets _ _ _ _).of_ok hopened).conduct
  rw [hfinal]
  exact .opened rfl _ ha

theorem openCodingChallenge_conducts {session session' : InterviewSession}
    {request : CodingChallengeRequest} {result : ToolInvocation}
    (h : openCodingChallenge call session job request = .ok (.commit session' result)) :
    Conducts call job session (.openCodingChallenge request) session'.conduct := by
  unfold openCodingChallenge at h
  obtain ⟨_, h⟩ := ite_error_ok h
  obtain ⟨_, h⟩ := ite_error_ok h
  obtain ⟨opened, hopened, h⟩ := bind_ok h
  cases h
  obtain ⟨ha, hfinal⟩ := ((appendTool_meets _ _ _ _).of_ok hopened).conduct
  rw [hfinal]
  exact .opened rfl _ ha

theorem observeEvidence_conduct {session session' : InterviewSession}
    {observation : EvidenceObservation} {node : Option CompetencyEvidence}
    (h : observeEvidence call session job observation = .ok (.commit session' node)) :
    session'.conduct = session.conduct := by
  unfold observeEvidence at h
  split at h
  next => cases h
  next => cases h
  next observed item hobserved =>
    obtain ⟨logged, hlogged, h⟩ := bind_ok h
    cases h
    obtain ⟨_, hplaced, _⟩ := applyObservation_ok hobserved
    rw [appendEvent_conduct (by decide) hlogged, hplaced]
    rfl

theorem reevaluateEvidence_conduct {session session' : InterviewSession} {answerTurnId : String}
    {run : EvidenceJudgeRun}
    (h : reevaluateEvidence call session job answerTurnId = .ok (.commit session' run)) :
    session'.conduct = session.conduct := by
  unfold reevaluateEvidence at h
  obtain ⟨_, h⟩ := ite_error_ok h
  split at h
  next => cases h
  next answer _ =>
    obtain ⟨_, h⟩ := ite_error_ok h
    obtain ⟨_, h⟩ := ite_error_ok h
    simp only at h
    split at h
    next => cases h
    next question _ =>
      obtain ⟨⟨judged, result⟩, hjudged, h⟩ := bind_ok h
      have hrecords := (judgeCandidateEvidence_meets _ _ _ _ _ _ _).of_ok hjudged
      split at h
      next => cases h
      next =>
        cases h
        exact hrecords.conduct

theorem submitAppeal_conduct {session session' : InterviewSession}
    {request : CandidateAppealRequest} {appeal : CandidateAppeal}
    (h : submitAppeal call session request = .ok (.commit session' appeal)) :
    session'.conduct = session.conduct := by
  unfold submitAppeal at h
  obtain ⟨_, h⟩ := ite_error_ok h
  obtain ⟨logged, hlogged, h⟩ := bind_ok h
  cases h
  have hkept := appendEvent_conduct (by decide) hlogged
  exact hkept

theorem submitIntegritySignal_conduct {session session' : InterviewSession}
    {request : IntegritySignalRequest} {signal : IntegritySignal}
    (h : submitIntegritySignal call session request = .ok (.commit session' signal)) :
    session'.conduct = session.conduct := by
  obtain ⟨logged, hlogged, h⟩ := bind_ok h
  cases h
  have hkept := appendEvent_conduct (by decide) hlogged
  exact hkept

theorem reviewAppeal_conduct {session session' : InterviewSession} {appealId : String}
    {request : AppealReviewRequest} {appeal : CandidateAppeal}
    (h : reviewAppeal call session appealId request = .ok (.commit session' appeal)) :
    session'.conduct = session.conduct := by
  unfold reviewAppeal at h
  simp only at h
  split at h
  next => cases h
  next =>
    obtain ⟨_, h⟩ := ite_error_ok h
    obtain ⟨logged, hlogged, h⟩ := bind_ok h
    cases h
    have hkept := appendEvent_conduct (by decide) hlogged
    exact hkept

theorem reviewIntegritySignal_conduct {session session' : InterviewSession} {signalId : String}
    {request : IntegrityReviewRequest} {signal : IntegritySignal}
    (h : reviewIntegritySignal call session signalId request = .ok (.commit session' signal)) :
    session'.conduct = session.conduct := by
  unfold reviewIntegritySignal at h
  simp only at h
  split at h
  next => cases h
  next =>
    obtain ⟨_, h⟩ := ite_error_ok h
    obtain ⟨logged, hlogged, h⟩ := bind_ok h
    cases h
    have hkept := appendEvent_conduct (by decide) hlogged
    exact hkept

/-- What an operation commits, seen from the course of the interview. -/
theorem mutate_conducts {operation : Operation} {session session' : InterviewSession}
    (h : mutate call operation session = .ok (some session')) :
    ∃ job, call.job = some job ∧ Conducts call job session operation session'.conduct := by
  unfold mutate at h
  split at h
  next => cases h
  next job hjob =>
    refine ⟨job, hjob, ?_⟩
    have hkept : ∀ {operation : Operation}, operation.asks = false →
        session'.conduct = session.conduct →
        Conducts call job session operation session'.conduct := by
      intro operation hq hsame
      rw [hsame]
      exact .kept hq
    cases operation with
    | start =>
      obtain ⟨_ | ⟨_, _⟩, hout, hw⟩ := map_ok h <;> cases hw
      exact start_conducts hout
    | answer text turnMetadata =>
      obtain ⟨_ | ⟨_, _⟩, hout, hw⟩ := map_ok h <;> cases hw
      exact answer_conducts hout
    | cancelSession request =>
      obtain ⟨_ | ⟨_, _⟩, hout, hw⟩ := map_ok h <;> cases hw
      exact cancelSession_conducts hout
    | reevaluateEvidence answerTurnId =>
      obtain ⟨_ | ⟨_, _⟩, hout, hw⟩ := map_ok h <;> cases hw
      exact hkept rfl (reevaluateEvidence_conduct hout)
    | candidateControl request =>
      obtain ⟨_ | ⟨_, _⟩, hout, hw⟩ := map_ok h <;> cases hw
      exact candidateControl_conducts hout
    | openCodingChallenge request =>
      obtain ⟨_ | ⟨_, _⟩, hout, hw⟩ := map_ok h <;> cases hw
      exact openCodingChallenge_conducts hout
    | openTool invocation =>
      obtain ⟨_ | ⟨_, _⟩, hout, hw⟩ := map_ok h <;> cases hw
      exact openTool_conducts hout
    | submitTool toolId request =>
      obtain ⟨_ | ⟨_, _⟩, hout, hw⟩ := map_ok h <;> cases hw
      exact submitTool_conducts hout
    | correctTranscript request =>
      obtain ⟨_ | ⟨_, _⟩, hout, hw⟩ := map_ok h <;> cases hw
      exact correctTranscript_conducts hout
    | submitAppeal request =>
      obtain ⟨_ | ⟨_, _⟩, hout, hw⟩ := map_ok h <;> cases hw
      exact hkept rfl (submitAppeal_conduct hout)
    | reviewAppeal appealId request =>
      obtain ⟨_ | ⟨_, _⟩, hout, hw⟩ := map_ok h <;> cases hw
      exact hkept rfl (reviewAppeal_conduct hout)
    | submitIntegritySignal request =>
      obtain ⟨_ | ⟨_, _⟩, hout, hw⟩ := map_ok h <;> cases hw
      exact hkept rfl (submitIntegritySignal_conduct hout)
    | reviewIntegritySignal signalId request =>
      obtain ⟨_ | ⟨_, _⟩, hout, hw⟩ := map_ok h <;> cases hw
      exact hkept rfl (reviewIntegritySignal_conduct hout)
    | observeEvidence observation =>
      obtain ⟨_ | ⟨_, _⟩, hout, hw⟩ := map_ok h <;> cases hw
      exact hkept rfl (observeEvidence_conduct hout)

theorem createSession_conduct {request : CreateSession} {organizationId : Option String}
    {session : InterviewSession} (h : createSession call request organizationId = .ok session) :
    session.conduct = ⟨.created, [], 0, [], [], [], [], []⟩ := by
  unfold createSession at h
  obtain ⟨_, h⟩ := ite_error_ok h
  split at h
  next => cases h
  next =>
    obtain ⟨_, h⟩ := ite_error_ok h
    obtain ⟨_, h⟩ := ite_error_ok h
    rw [appendEvent_conduct (by decide) h]
    rfl

omit [CanonicalDigest] in
theorem stored_conduct (backend : Backend) (session : InterviewSession) :
    (backend.stored session).conduct = session.conduct := by
  cases backend with
  | memory => rfl
  | json => rfl

/-- What an empty conduct has and every operation keeps, every version has. -/
theorem History.conduct_invariant {backend : Backend}
    {admissible : Call → Operation → InterviewSession → Prop} {P : Conduct → Prop}
    {versions : List InterviewSession} (h : History backend admissible versions)
    (hfresh : P ⟨.created, [], 0, [], [], [], [], []⟩)
    (hstep : ∀ {call : Call} {job : JobSpec} {operation : Operation} {session : InterviewSession}
      {conduct : Conduct}, call.job = some job → admissible call operation session →
      P session.conduct → Conducts call job session operation conduct → P conduct) :
    ∀ session ∈ versions, P session.conduct := by
  induction h with
  | created h =>
    intro session hs
    rw [List.mem_singleton.mp hs, stored_conduct, createSession_conduct h]
    exact hfresh
  | committed _ ha hm ih =>
    intro session hs
    rcases List.mem_cons.mp hs with rfl | hs
    · obtain ⟨job, hjob, hconducts⟩ := mutate_conducts hm
      rw [stored_conduct]
      exact hstep hjob ha (ih _ List.mem_cons_self) hconducts
    · exact ih session hs

end NoraInterviewer
