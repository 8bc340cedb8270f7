import NoraInterviewer.EvidenceItems
import NoraInterviewer.Ledgers

namespace NoraInterviewer

open ExceptRules Ledgers

/-- What an entry of the log says about the evidence. -/
def LogEntry.fact (entry : LogEntry) : Option (Fact String String) :=
  match entry.type with
  | .evidenceObserved => some (.added (entry.text "evidence_id"))
  | .evidenceSuperseded => some (.withdrawn (entry.text "evidence_id"))
  | .evidenceJudgeFailed => some (.broke (entry.text "judge_run_id"))
  | .evidenceJudgeRunRecorded => some (.closed (entry.text "judge_run_id")
      ((entry.payload.lookup "failed").any Json.truthy))
  | _ => none

def EventType.factual : EventType → Bool
  | .evidenceObserved | .evidenceSuperseded | .evidenceJudgeFailed | .evidenceJudgeRunRecorded => true
  | _ => false

def eventFacts (events : List InterviewEvent) : List (Fact String String) :=
  (events.map InterviewEvent.entry).filterMap LogEntry.fact

/-- The evidence of a session and its judge runs, and what the log says about them. -/
def InterviewSession.ledger (session : InterviewSession) : Ledger String String where
  items := (evidenceItems session.evidenceGraph).map fun item => (item.id, item.active)
  runs := session.evidenceJudgeRuns.map fun run => (run.id, run.errorType.isSome)
  facts := eventFacts session.events

theorem LogEntry.fact_none {entry : LogEntry} (h : entry.type.factual = false) :
    entry.fact = none := by
  unfold LogEntry.fact
  cases htype : entry.type <;> rw [htype] at h <;> first | rfl | cases h

variable [CanonicalDigest]

theorem Grows.facts {events events' : List InterviewEvent} {entries : List LogEntry}
    (h : Grows events events' entries) :
    eventFacts events' = eventFacts events ++ entries.filterMap LogEntry.fact := by
  rw [eventFacts, h.log, List.filterMap_append]
  rfl

/-- An event adds what its entry says. -/
theorem appendEvent_facts {call : Ambient} {session session' : InterviewSession} {type : EventType}
    {turn : Option Turn} {payload : Dict Json}
    (h : appendEvent call session type turn payload = .ok session') :
    ∃ events, session' = { session with events := events } ∧
      eventFacts events = eventFacts session.events ++
        (LogEntry.fact ⟨type, turn.map Turn.id, withTrace call.correlationId payload⟩).toList := by
  obtain ⟨events, hevents, hgrows⟩ := (appendEvent_meets call session type turn payload).of_ok h
  refine ⟨events, hevents, ?_⟩
  rw [hgrows.facts]
  cases hf : LogEntry.fact ⟨type, turn.map Turn.id, withTrace call.correlationId payload⟩ with
  | none => rw [List.filterMap_cons_none hf]; rfl
  | some fact => rw [List.filterMap_cons_some hf]; rfl

omit [CanonicalDigest] in
theorem fact_observed {turnId : Option String} {payload : Dict Json} {id : String}
    (correlationId : Option String) (h : payload.lookup "evidence_id" = some (.str id)) :
    LogEntry.fact ⟨.evidenceObserved, turnId, withTrace correlationId payload⟩ = some (.added id) :=
  congrArg (fun name => some (Fact.added name)) (entry_names correlationId (by decide) h).text

omit [CanonicalDigest] in
theorem fact_superseded {turnId : Option String} {payload : Dict Json} {id : String}
    (correlationId : Option String) (h : payload.lookup "evidence_id" = some (.str id)) :
    LogEntry.fact ⟨.evidenceSuperseded, turnId, withTrace correlationId payload⟩ =
      some (.withdrawn id) :=
  congrArg (fun name => some (Fact.withdrawn name)) (entry_names correlationId (by decide) h).text

theorem appendEvent_ledger {call : Ambient} {session session' : InterviewSession} {type : EventType}
    {turn : Option Turn} {payload : Dict Json} (ht : type.factual = false)
    (h : appendEvent call session type turn payload = .ok session') :
    session'.ledger = session.ledger := by
  obtain ⟨events, rfl, hfacts⟩ := appendEvent_facts h
  rw [LogEntry.fact_none ht] at hfacts
  simp only [InterviewSession.ledger]
  rw [hfacts]
  simp

section Neutral

variable {call : Call} {job : JobSpec}

theorem applyDecision_ledger {call : Ambient} {session session' : InterviewSession}
    {decision : AgentDecision} {latencyMs : Nat} {turn : Turn}
    (h : applyDecision call session decision latencyMs = .ok (session', turn)) :
    session'.ledger = session.ledger := by
  obtain ⟨logged, hlogged, h⟩ := bind_ok h
  cases h
  have hkept := appendEvent_ledger rfl hlogged
  exact hkept

theorem OpensTool.ledger {session session' : InterviewSession} {tool : ToolInvocation}
    (h : OpensTool session tool session') : session'.ledger = session.ledger := by
  obtain ⟨entry, events, _, _, hentry, hgrows, rfl⟩ := h
  have hnone : entry.fact = none := LogEntry.fact_none (by rw [hentry.type]; rfl)
  simp only [InterviewSession.ledger]
  rw [hgrows.facts, List.filterMap_cons_none hnone, List.filterMap_nil, List.append_nil]

theorem openRequestedTool_ledger {session session' : InterviewSession} {decision : AgentDecision}
    {openedFromTurnId : String} {tool : Option ToolInvocation}
    (h : openRequestedTool call session job decision openedFromTurnId = .ok (session', tool)) :
    session'.ledger = session.ledger := by
  rcases (openRequestedTool_meets call session job decision openedFromTurnId).of_ok h with
    h | ⟨_, _, _, hopens⟩
  · exact congrArg InterviewSession.ledger h
  · exact hopens.ledger

theorem completeIfAsked_ledger {call : Ambient} {session session' : InterviewSession}
    {decision : AgentDecision} (h : completeIfAsked call session decision = .ok session') :
    session'.ledger = session.ledger := by
  unfold completeIfAsked at h
  split at h
  next =>
    have hkept := appendEvent_ledger rfl h
    exact hkept
  next => cases h; rfl

omit [CanonicalDigest] in
theorem countFollowup_ledger (session : InterviewSession) (decision : AgentDecision) :
    (countFollowup session decision).ledger = session.ledger := by
  obtain ⟨counts, h⟩ := countFollowup_eq session decision
  rw [h]
  rfl

theorem openingDecision_ledger {session session' : InterviewSession} {decision : AgentDecision}
    {latencyMs : Nat} (h : openingDecision call session job = .ok (session', decision, latencyMs)) :
    session'.ledger = session.ledger := by
  obtain ⟨covered, h⟩ := (openingDecision_meets call session job).of_ok h
  have hledger := congrArg InterviewSession.ledger h
  exact hledger

omit [CanonicalDigest] in
theorem decideAfterAnswer_ledger {session session' : InterviewSession} {decision : AgentDecision}
    {latencyMs : Nat} (h : decideAfterAnswer call session job = .ok (session', decision, latencyMs)) :
    session'.ledger = session.ledger := by
  obtain ⟨reply, _, h⟩ := bind_ok h
  simp only at h
  split at h
  next => cases h; rfl
  next => cases h; rfl

theorem start_ledger {session session' : InterviewSession} {step : SessionStep}
    (h : NoraInterviewer.start call session job = .ok (.commit session' step)) :
    session'.ledger = session.ledger := by
  unfold NoraInterviewer.start at h
  split at h
  next => cases h
  next =>
    split at h
    next => cases h
    next =>
      obtain ⟨begun, hbegun, h⟩ := bind_ok h
      obtain ⟨⟨opened, decision, latencyMs⟩, hopened, h⟩ := bind_ok h
      obtain ⟨⟨asked, turn⟩, hasked, h⟩ := bind_ok h
      obtain ⟨⟨tooled, tool⟩, htooled, h⟩ := bind_ok h
      cases h
      exact (openRequestedTool_ledger htooled).trans ((applyDecision_ledger hasked).trans
        ((openingDecision_ledger hopened).trans (appendEvent_ledger rfl hbegun)))

theorem cancelTools_ledger {call : Ambient} {before rest : List ToolInvocation}
    {session session' : InterviewSession} {ids : List String}
    (h : cancelTools call before rest session = .ok (session', ids)) :
    session'.ledger = session.ledger := by
  induction rest generalizing before session session' ids with
  | nil => cases h; rfl
  | cons tool rest ih =>
    unfold cancelTools at h
    split at h
    next =>
      obtain ⟨logged, hlogged, h⟩ := bind_ok h
      obtain ⟨⟨cancelled, others⟩, hrest, h⟩ := bind_ok h
      cases h
      have hkept := appendEvent_ledger rfl hlogged
      exact (ih hrest).trans hkept
    next => exact ih h

theorem cancelSession_ledger {session session' : InterviewSession} {request : CancelSessionRequest}
    {result : InterviewSession}
    (h : cancelSession call session request = .ok (.commit session' result)) :
    session'.ledger = session.ledger := by
  unfold cancelSession at h
  obtain ⟨_, h⟩ := ite_error_ok h
  split at h
  next => cases h
  next =>
    obtain ⟨⟨cancelled, ids⟩, hcancelled, h⟩ := bind_ok h
    obtain ⟨logged, hlogged, h⟩ := bind_ok h
    cases h
    have hkept := appendEvent_ledger rfl hlogged
    have htools := cancelTools_ledger hcancelled
    exact hkept.trans htools

theorem openTool_ledger {session session' : InterviewSession} {invocation result : ToolInvocation}
    (h : openTool call session job invocation = .ok (.commit session' result)) :
    session'.ledger = session.ledger := by
  obtain ⟨opened, hopened, h⟩ := bind_ok h
  cases h
  exact ((appendTool_meets _ _ _ _).of_ok hopened).ledger

theorem openCodingChallenge_ledger {session session' : InterviewSession}
    {request : CodingChallengeRequest} {result : ToolInvocation}
    (h : openCodingChallenge call session job request = .ok (.commit session' result)) :
    session'.ledger = session.ledger := by
  unfold openCodingChallenge at h
  obtain ⟨_, h⟩ := ite_error_ok h
  obtain ⟨_, h⟩ := ite_error_ok h
  obtain ⟨opened, hopened, h⟩ := bind_ok h
  cases h
  exact ((appendTool_meets _ _ _ _).of_ok hopened).ledger

theorem submitAppeal_ledger {session session' : InterviewSession}
    {request : CandidateAppealRequest} {appeal : CandidateAppeal}
    (h : submitAppeal call session request = .ok (.commit session' appeal)) :
    session'.ledger = session.ledger := by
  unfold submitAppeal at h
  obtain ⟨_, h⟩ := ite_error_ok h
  obtain ⟨logged, hlogged, h⟩ := bind_ok h
  cases h
  have hkept := appendEvent_ledger rfl hlogged
  exact hkept

theorem submitIntegritySignal_ledger {session session' : InterviewSession}
    {request : IntegritySignalRequest} {signal : IntegritySignal}
    (h : submitIntegritySignal call session request = .ok (.commit session' signal)) :
    session'.ledger = session.ledger := by
  obtain ⟨logged, hlogged, h⟩ := bind_ok h
  cases h
  have hkept := appendEvent_ledger rfl hlogged
  exact hkept

theorem reviewAppeal_ledger {session session' : InterviewSession} {appealId : String}
    {request : AppealReviewRequest} {appeal : CandidateAppeal}
    (h : reviewAppeal call session appealId request = .ok (.commit session' appeal)) :
    session'.ledger = session.ledger := by
  unfold reviewAppeal at h
  simp only at h
  split at h
  next => cases h
  next =>
    obtain ⟨_, h⟩ := ite_error_ok h
    obtain ⟨logged, hlogged, h⟩ := bind_ok h
    cases h
    have hkept := appendEvent_ledger rfl hlogged
    exact hkept

theorem reviewIntegritySignal_ledger {session session' : InterviewSession} {signalId : String}
    {request : IntegrityReviewRequest} {signal : IntegritySignal}
    (h : reviewIntegritySignal call session signalId request = .ok (.commit session' signal)) :
    session'.ledger = session.ledger := by
  unfold reviewIntegritySignal at h
  simp only at h
  split at h
  next => cases h
  next =>
    obtain ⟨_, h⟩ := ite_error_ok h
    obtain ⟨logged, hlogged, h⟩ := bind_ok h
    cases h
    have hkept := appendEvent_ledger rfl hlogged
    exact hkept

theorem recordControl_ledger {session session' : InterviewSession} {request : CandidateControlRequest}
    {result : CandidateControlResult}
    (h : recordControl call.toAmbient session request = .ok (session', result)) :
    session'.ledger = session.ledger := by
  unfold recordControl at h
  obtain ⟨_, h⟩ := ite_error_ok h
  obtain ⟨_, h⟩ := ite_error_ok h
  obtain ⟨⟨handled, reply⟩, hhandled, h⟩ := bind_ok h
  obtain ⟨logged, hlogged, h⟩ := bind_ok h
  obtain ⟨replied, hreplied, h⟩ := bind_ok h
  cases h
  obtain ⟨rfl, _, _⟩ := handleCandidateControl_ok (badRequestOnValueError_ok hhandled)
  have hlog := appendEvent_ledger rfl hlogged
  have hbefore : logged.ledger = session.ledger := hlog
  unfold recordControlTurn at hreplied
  split at hreplied
  next => cases hreplied; exact hbefore
  next =>
    have hkept := appendEvent_ledger rfl hreplied
    exact Eq.trans hkept hbefore

theorem createSession_ledger {request : CreateSession} {organizationId : Option String}
    {session : InterviewSession} (h : createSession call request organizationId = .ok session) :
    session.ledger = { items := [], runs := [], facts := [] } := by
  unfold createSession at h
  obtain ⟨_, h⟩ := ite_error_ok h
  split at h
  next => cases h
  next job hjob =>
    obtain ⟨_, h⟩ := ite_error_ok h
    obtain ⟨_, h⟩ := ite_error_ok h
    have hkept := appendEvent_ledger rfl h
    refine Eq.trans hkept ?_
    simp only [InterviewSession.ledger, evidenceItems_initializeEvidence]
    rfl

end Neutral

section Superseding

omit [CanonicalDigest]

/-- The active judged items of a turn are withdrawn; nothing else changes. -/
theorem supersede_perm (turnId : String) (graph : Dict CompetencyEvidence) :
    ∃ kept : List (String × Bool),
      ((evidenceItems graph).map fun item => (item.id, item.active)).Perm (kept ++
        (((evidenceItems graph).filter (EvidenceItem.semanticOf turnId)).map EvidenceItem.id).map
          (·, true)) ∧
      ((evidenceItems (supersedeGraph turnId graph)).map fun item => (item.id, item.active)).Perm
        (kept ++ (((evidenceItems graph).filter (EvidenceItem.semanticOf turnId)).map
          EvidenceItem.id).map (·, false)) := by
  rw [evidenceItems_supersedeGraph]
  generalize evidenceItems graph = items
  refine ⟨(items.filter fun item => !item.semanticOf turnId).map fun item => (item.id, item.active),
    ?_, ?_⟩
  · have hsplit := (List.filter_append_perm (EvidenceItem.semanticOf turnId) items).symm.map
      fun item => (item.id, item.active)
    refine hsplit.trans ?_
    rw [List.map_append, List.map_map]
    refine List.perm_append_comm.trans (List.Perm.append_left _ (.of_eq ?_))
    refine List.map_congr_left fun item hitem => ?_
    have hsemantic := (List.mem_filter.mp hitem).2
    simp only [EvidenceItem.semanticOf, Bool.and_eq_true] at hsemantic
    rw [Function.comp, hsemantic.1.1]
  · have hsplit := (List.filter_append_perm (EvidenceItem.semanticOf turnId) items).symm.map
      fun item => ((retire turnId item).id, (retire turnId item).active)
    rw [List.map_map]
    refine hsplit.trans ?_
    rw [List.map_append, List.map_map]
    refine List.perm_append_comm.trans (List.Perm.append (.of_eq ?_) (.of_eq ?_))
    · refine List.map_congr_left fun item hitem => ?_
      have hother := (List.mem_filter.mp hitem).2
      rw [retire, if_neg (by simpa using hother)]
    · refine List.map_congr_left fun item hitem => ?_
      rw [retire, if_pos (List.mem_filter.mp hitem).2]
      rfl

theorem superseded_ids (session : InterviewSession) (turnId : String) :
    (supersedeSemanticEvidenceForTurn session turnId).2.map EvidenceItem.id =
      ((evidenceItems session.evidenceGraph).filter (EvidenceItem.semanticOf turnId)).map
        EvidenceItem.id := by
  simp only [supersedeSemanticEvidenceForTurn, evidenceItems]
  rw [List.map_flatMap, List.filter_flatMap, List.map_flatMap]
  refine congrArg (fun f => List.flatMap f session.evidenceGraph) (funext fun entry => ?_)
  rw [List.map_map]
  rfl

/-- Superseding together with the events that say so. -/
theorem supersede_run {session session' : InterviewSession} {turnId : String}
    (hgraph : session'.evidenceGraph = supersedeGraph turnId session.evidenceGraph)
    (hruns : session'.evidenceJudgeRuns = session.evidenceJudgeRuns)
    (hfacts : eventFacts session'.events = eventFacts session.events ++
      ((supersedeSemanticEvidenceForTurn session turnId).2.map EvidenceItem.id).map .withdrawn) :
    Run session.ledger session'.ledger := by
  obtain ⟨kept, hbefore, hafter⟩ := supersede_perm turnId session.evidenceGraph
  rw [superseded_ids] at hfacts
  refine .single (Step.withdraws hbefore ?_ ?_ hfacts)
  · simp only [InterviewSession.ledger]
    rw [hgraph]
    exact hafter
  · simp only [InterviewSession.ledger]
    rw [hruns]

/-- Items that come in together with the events that say so. -/
theorem observe_run {session session' : InterviewSession} {added : List EvidenceItem}
    (hitems : (evidenceItems session'.evidenceGraph).Perm
      (evidenceItems session.evidenceGraph ++ added))
    (hactive : ∀ item ∈ added, item.active = true)
    (hruns : session'.evidenceJudgeRuns = session.evidenceJudgeRuns)
    (hfacts : eventFacts session'.events = eventFacts session.events ++
      (added.map EvidenceItem.id).map .added) :
    Run session.ledger session'.ledger := by
  refine .single (Step.adds ?_ ?_ hfacts)
  · refine (hitems.map _).trans ?_
    rw [List.map_append, List.map_map]
    refine List.Perm.append_left _ (.of_eq (List.map_congr_left fun item hitem => ?_))
    rw [hactive item hitem]
    rfl
  · simp only [InterviewSession.ledger]
    rw [hruns]

end Superseding

section Recording

variable {call : Call} {job : JobSpec}

theorem recordClaimEvents_facts {call : Ambient} {candidate : Turn} {items : List EvidenceItem}
    {session session' : InterviewSession}
    (h : recordClaimEvents call candidate items session = .ok session') :
    ∃ events, session' = { session with events := events } ∧
      eventFacts events = eventFacts session.events ++ (items.map EvidenceItem.id).map .added := by
  induction items generalizing session with
  | nil =>
    cases h
    exact ⟨_, rfl, (List.append_nil _).symm⟩
  | cons item rest ih =>
    obtain ⟨logged, hlogged, h⟩ := bind_ok h
    obtain ⟨first, rfl, hfirst⟩ := appendEvent_facts hlogged
    obtain ⟨events, rfl, hevents⟩ := ih h
    refine ⟨events, rfl, ?_⟩
    rw [hevents, hfirst, fact_observed call.correlationId rfl, List.append_assoc]
    rfl

theorem recordStale_facts {call : Ambient} {turn : Turn} {items : List EvidenceItem}
    {session session' : InterviewSession}
    (h : recordStale call turn items session = .ok session') :
    ∃ events, session' = { session with events := events } ∧
      eventFacts events = eventFacts session.events ++ (items.map EvidenceItem.id).map .withdrawn := by
  induction items generalizing session with
  | nil =>
    cases h
    exact ⟨_, rfl, (List.append_nil _).symm⟩
  | cons item rest ih =>
    obtain ⟨logged, hlogged, h⟩ := bind_ok h
    obtain ⟨first, rfl, hfirst⟩ := appendEvent_facts hlogged
    obtain ⟨events, rfl, hevents⟩ := ih h
    refine ⟨events, rfl, ?_⟩
    rw [hevents, hfirst, fact_superseded call.correlationId rfl, List.append_assoc]
    rfl

omit [CanonicalDigest] in
theorem recordCandidateClaim_ok {call : Ambient} {session session' : InterviewSession}
    {questionTurnId answerTurnId : String} {competencyIds : List String} {items : List EvidenceItem}
    (h : recordCandidateClaim call session questionTurnId answerTurnId competencyIds =
      .ok (session', items)) :
    session' = { session with evidenceGraph :=
        (recordClaims call questionTurnId answerTurnId session.evidenceGraph competencyIds).1 } ∧
      items = (recordClaims call questionTurnId answerTurnId session.evidenceGraph competencyIds).2 := by
  unfold recordCandidateClaim at h
  simp only at h
  split at h
  next =>
    obtain ⟨_, h⟩ := ite_error_ok h
    cases h
    exact ⟨rfl, rfl⟩
  next => cases h

/-- The claims of an answer and their events. -/
theorem recordClaims_run {session claimed session' : InterviewSession} {questionTurnId : String}
    {candidate : Turn} {competencyIds : List String} {items : List EvidenceItem}
    (hc : recordCandidateClaim call.toAmbient session questionTurnId candidate.id competencyIds =
      .ok (claimed, items))
    (h : recordClaimEvents call.toAmbient candidate items claimed = .ok session') :
    Run session.ledger session'.ledger := by
  obtain ⟨rfl, rfl⟩ := recordCandidateClaim_ok hc
  obtain ⟨events, rfl, hfacts⟩ := recordClaimEvents_facts h
  exact observe_run (recordClaims_grown _ _ _ _ _).items
    (fun item hitem => (recordClaims_claimed _ _ _ _ _ item hitem).active) rfl hfacts

/-- An applied observation and its event. -/
theorem observation_run {session observed session' : InterviewSession}
    {observation : EvidenceObservation} {item : EvidenceItem} {turn : Option Turn}
    {payload : Dict Json}
    (ho : applyObservation call.toAmbient session job observation = .ok (observed, item))
    (hp : payload.lookup "evidence_id" = some (.str item.id))
    (h : appendEvent call.toAmbient observed .evidenceObserved turn payload = .ok session') :
    Run session.ledger session'.ledger := by
  obtain ⟨_, rfl, rfl⟩ := applyObservation_ok ho
  obtain ⟨events, rfl, hfacts⟩ := appendEvent_facts h
  rw [fact_observed _ hp] at hfacts
  refine observe_run (evidenceItems_place _ _ _) (fun item hitem => ?_) rfl hfacts
  rw [List.mem_singleton.mp hitem]
  rfl

theorem observeTool_run {invocation : ToolInvocation} {turn : Turn} {evaluation : ToolEvaluation}
    {state : EvidenceState} {ids : List String} {session session' : InterviewSession}
    (h : observeTool call.toAmbient job invocation turn evaluation state ids session = .ok session') :
    Run session.ledger session'.ledger := by
  induction ids generalizing session with
  | nil => cases h; exact .refl
  | cons competencyId rest ih =>
    obtain ⟨⟨observed, item⟩, hobserved, h⟩ := bind_ok h
    obtain ⟨logged, hlogged, h⟩ := bind_ok h
    exact (observation_run hobserved rfl hlogged).trans (ih h)

theorem prepareTool_run {session : InterviewSession} {toolId : String}
    {request : ToolSubmissionRequest} {work : ToolWork}
    (h : prepareTool call session job toolId request = .ok work) :
    Run session.ledger work.session.ledger := by
  unfold prepareTool at h
  obtain ⟨_, h⟩ := ite_error_ok h
  obtain ⟨_, h⟩ := ite_error_ok h
  split at h
  next => cases h
  next invocation _ =>
    obtain ⟨_, h⟩ := ite_error_ok h
    obtain ⟨⟨submitted, turn⟩, hsubmitted, h⟩ := bind_ok h
    obtain ⟨evaluation, _, h⟩ := bind_ok h
    obtain ⟨evaluated, hevaluated, h⟩ := bind_ok h
    obtain ⟨final, hfinal, h⟩ := bind_ok h
    cases h
    obtain ⟨first, hfirst, hsubmitted⟩ := bind_ok hsubmitted
    obtain ⟨second, hsecond, hsubmitted⟩ := bind_ok hsubmitted
    cases hsubmitted
    have hstarted := appendEvent_ledger rfl hfirst
    have hanswered := appendEvent_ledger rfl hsecond
    have hkept := appendEvent_ledger rfl hevaluated
    have hbefore : first.ledger = session.ledger := hstarted
    have hturns : submitted.ledger = first.ledger := hanswered
    have hafter : evaluated.ledger = submitted.ledger := hkept
    rw [← hbefore, ← hturns, ← hafter]
    unfold recordToolEvidence at hfinal
    split at hfinal
    next => cases hfinal; exact .refl
    next => exact observeTool_run hfinal

theorem submitTool_run {session session' : InterviewSession} {toolId : String}
    {request : ToolSubmissionRequest} {step : ToolStep}
    (h : submitTool call session job toolId request = .ok (.commit session' step)) :
    Run session.ledger session'.ledger := by
  obtain ⟨work, hwork, h⟩ := bind_ok h
  obtain ⟨⟨decided, decision⟩, hdecided, h⟩ := bind_ok h
  obtain ⟨⟨asked, turn⟩, hasked, h⟩ := bind_ok h
  obtain ⟨⟨tooled, tool⟩, htooled, h⟩ := bind_ok h
  obtain ⟨completed, hcompleted, h⟩ := bind_ok h
  cases h
  obtain ⟨reply, _, hreply⟩ := bind_ok hdecided
  cases hreply
  have hturn := applyDecision_ledger hasked
  have hdecision : asked.ledger = work.session.ledger := hturn
  rw [completeIfAsked_ledger hcompleted, countFollowup_ledger, openRequestedTool_ledger htooled,
    hdecision]
  exact prepareTool_run hwork

theorem observeEvidence_run {session session' : InterviewSession}
    {observation : EvidenceObservation} {node : Option CompetencyEvidence}
    (h : observeEvidence call session job observation = .ok (.commit session' node)) :
    Run session.ledger session'.ledger := by
  unfold observeEvidence at h
  split at h
  next => cases h
  next => cases h
  next observed item hobserved =>
    obtain ⟨logged, hlogged, h⟩ := bind_ok h
    cases h
    exact observation_run hobserved rfl hlogged

omit [CanonicalDigest] in
/-- A shared dict shows up under `metadata` only. -/
theorem writeMetadata_facts (session : InterviewSession) (index : Nat) (text : String)
    (metadata : Dict Json) :
    eventFacts (writeMetadata session index text metadata).events = eventFacts session.events := by
  have hpoint : (writeMetadata session index text metadata).events.map
      (fun event => event.entry.fact) = session.events.map fun event => event.entry.fact := by
    apply List.ext_getElem?
    intro i
    simp only [writeMetadata, List.getElem?_map, List.getElem?_mapIdx]
    cases session.events[i]? with
    | none => rfl
    | some event =>
      simp only [Option.map_some]
      split
      next =>
        have htext : ∀ key, key ≠ "metadata" → LogEntry.text ⟨event.type, event.turnId,
            Dict.set "metadata" (.obj metadata) event.payload⟩ key = event.entry.text key := by
          intro key hkey
          rw [LogEntry.text, Dict.lookup_set_ne hkey]
          rfl
        simp only [LogEntry.fact, InterviewEvent.entry]
        rw [htext "evidence_id" (by decide), htext "judge_run_id" (by decide),
          Dict.lookup_set_ne (by decide)]
        rfl
      next => rfl
  have hfilter : ∀ events : List InterviewEvent,
      eventFacts events = (events.map fun event => event.entry.fact).filterMap id := by
    intro events
    rw [eventFacts, List.filterMap_map, List.filterMap_map]
    rfl
  rw [hfilter, hfilter, hpoint]

theorem applyTranscriptCorrection_run {session session' : InterviewSession}
    {request : TranscriptCorrectionRequest} {revision : TranscriptRevision}
    (h : applyTranscriptCorrection call.toAmbient session request = .ok (session', revision)) :
    Run session.ledger session'.ledger := by
  unfold applyTranscriptCorrection at h
  simp only at h
  split at h
  next => cases h
  next turn hturn =>
    obtain ⟨_, h⟩ := ite_error_ok h
    obtain ⟨revised, hrevised, h⟩ := bind_ok h
    obtain ⟨stale, hstale, h⟩ := bind_ok h
    cases h
    have hwritten : revised.ledger = session.ledger := by
      have hkept := appendEvent_ledger rfl hrevised
      refine Eq.trans hkept ?_
      simp only [InterviewSession.ledger]
      rw [writeMetadata_facts]
      rfl
    obtain ⟨events, rfl, hfacts⟩ := recordStale_facts hstale
    rw [← hwritten]
    exact supersede_run rfl rfl hfacts

theorem correctTranscript_run {session session' : InterviewSession}
    {request : TranscriptCorrectionRequest} {revision : TranscriptRevision}
    (h : correctTranscript call session request = .ok (.commit session' revision)) :
    Run session.ledger session'.ledger := by
  obtain ⟨⟨corrected, result⟩, hcorrected, h⟩ := bind_ok h
  cases h
  exact applyTranscriptCorrection_run hcorrected

theorem candidateControl_run {session session' : InterviewSession}
    {request : CandidateControlRequest} {result : CandidateControlResult}
    (h : candidateControl call session request = .ok (.commit session' result)) :
    Run session.ledger session'.ledger := by
  obtain ⟨⟨handled, reply⟩, hhandled, h⟩ := bind_ok h
  have hbefore := recordControl_ledger hhandled
  simp only at h
  split at h
  next => cases h; rw [hbefore]
  next correction hreq =>
    obtain ⟨⟨corrected, revision⟩, hcorrected, h⟩ := bind_ok h
    cases h
    rw [← hbefore]
    exact applyTranscriptCorrection_run hcorrected

end Recording

end NoraInterviewer
