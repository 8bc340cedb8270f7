import NoraInterviewer.InterviewEffects

namespace NoraInterviewer

open ExceptRules

variable [CanonicalDigest]

theorem openTool_commits {policy : Policy} (call : Call) (session : InterviewSession)
    (job : JobSpec) (invocation : ToolInvocation) (ho : policy.opens invocation) :
    Commits policy session (openTool call session job invocation) := by
  refine (appendTool_meets _ session job invocation).bind fun session' _ h => ?_
  exact (h.effects ho).commits _

theorem openCodingChallenge_commits {policy : Policy} (call : Call) (session : InterviewSession)
    (job : JobSpec) (request : CodingChallengeRequest)
    (ho : ∀ tool : ToolInvocation, tool.id ≠ "" → tool.status = .open → policy.opens tool) :
    Commits policy session (openCodingChallenge call session job request) := by
  unfold openCodingChallenge
  refine Meets.ite (fun _ _ => rfl) fun _ => Meets.ite (fun _ _ => rfl) fun _ => ?_
  refine (appendTool_meets _ session job _).bind fun session' _ h => ?_
  exact (h.effects (ho _ (call.uuid_ne _ _) rfl)).commits _

theorem observeTool_meets (call : Ambient) (job : JobSpec) (invocation : ToolInvocation)
    (turn : Turn) (evaluation : ToolEvaluation) (state : EvidenceState) (ids : List String)
    (session : InterviewSession) :
    EvidenceOnly session (observeTool call job invocation turn evaluation state ids session) id := by
  induction ids generalizing session with
  | nil => exact RecordsEvidence.refl session
  | cons competencyId rest ih =>
    refine Meets.bind (Meets.weaken (applyObservation_meets call session job _) fun _ he _ => he)
      fun observed _ h => ?_
    obtain ⟨observed, item⟩ := observed
    obtain ⟨graph, rfl⟩ := h
    refine (RecordsEvidence.writes session graph session.evidenceJudgeRuns).then ?_
    refine (evidenceEvent_meets call _ rfl _ _).bind fun logged _ h => ?_
    exact h.then (ih logged)

theorem recordToolEvidence_meets (call : Ambient) (session : InterviewSession) (job : JobSpec)
    (invocation : ToolInvocation) (turn : Turn) (evaluation : ToolEvaluation) :
    EvidenceOnly session (recordToolEvidence call session job invocation turn evaluation) id := by
  unfold recordToolEvidence
  split
  next => exact RecordsEvidence.refl session
  next => exact observeTool_meets call job invocation turn evaluation _ _ session

/-- The decision that `submit_tool` puts. -/
def ToolDecision (call : Call) (session : InterviewSession) (job : JobSpec) (toolId : String)
    (request : ToolSubmissionRequest) (decision : AgentDecision) : Prop :=
  ∃ work result, prepareTool call session job toolId request = .ok work ∧
    decideAfterTool call work job = .ok (result, decision)

theorem recordSubmission_meets (call : Ambient) (session : InterviewSession)
    (invocation : ToolInvocation) (submission : ToolSubmission) :
    Meets (recordSubmission call session invocation submission)
      (fun result => ∃ first second events, result.1 = { session with
          toolSubmissions := session.toolSubmissions ++ [submission]
          tools := setToolStatus invocation.id .submitted session.tools
          turns := session.turns ++ [result.2]
          events := events } ∧
        result.2.id ≠ "" ∧ result.2.speaker = .candidate ∧
        LogEntry.Names first .toolSubmitted "tool_id" invocation.id ∧
        LogEntry.IsTurn second .candidateTurn result.2 ∧
        Grows session.events events [first, second])
      (Refusal session.events) := by
  refine (appendEvent_meets _ _ _ _ _).bind fun submitted _ h => ?_
  obtain ⟨first, rfl, hfirst⟩ := h
  refine Meets.weaken ?_ fun _ he => hfirst.refusal he
  refine (appendEvent_meets _ _ _ _ _).bind fun session' _ h => ?_
  obtain ⟨events, rfl, hg⟩ := h
  exact ⟨_, _, events, rfl, call.uuid_ne _ _, rfl, entry_names _ (by decide) rfl,
    turnEntry_isTurn _ _ _, hfirst.trans hg⟩

theorem recordEvaluation_meets (call : Ambient) (session : InterviewSession)
    (invocation : ToolInvocation) (submission : ToolSubmission) (evaluation : ToolEvaluation) :
    Meets (recordEvaluation call session invocation submission evaluation)
      (fun session' => ∃ entry events, session' = { session with
          toolEvaluations := session.toolEvaluations ++ [evaluation]
          tools := setToolStatus invocation.id .evaluated session.tools
          events := events } ∧
        LogEntry.Names entry .toolEvaluated "tool_id" invocation.id ∧
        Grows session.events events [entry])
      (Refusal session.events) := by
  refine (appendEvent_meets _ _ _ _ _).imp fun session' h => ?_
  obtain ⟨events, rfl, hg⟩ := h
  exact ⟨_, events, rfl, entry_names _ (by decide) rfl, hg⟩

theorem prepareTool_meets (policy : Policy) (call : Call) (session : InterviewSession)
    (job : JobSpec) (toolId : String) (request : ToolSubmissionRequest) :
    Meets (prepareTool call session job toolId request)
      (fun work => session.active ∧ Effects policy session work.session ∧
        work.session.stance = session.stance)
      (Refusal session.events) := by
  unfold prepareTool
  refine Meets.ite (fun _ _ => rfl) fun hcompleted => Meets.ite (fun _ _ => rfl) fun hcancelled => ?_
  split
  next => exact fun _ => rfl
  next invocation hfind =>
    have hid : invocation.id = toolId := by simpa using List.find?_some hfind
    subst hid
    refine Meets.ite (fun _ _ => rfl) fun hopen => ?_
    have ha : session.active := ⟨hcompleted, hcancelled⟩
    refine (recordSubmission_meets _ session invocation _).bind fun recorded _ h => ?_
    obtain ⟨recorded, turn⟩ := recorded
    simp only at h
    obtain ⟨first, second, events, rfl, hi, hc, h1, h2, hg⟩ := h
    refine Meets.weaken ?_ fun _ he => hg.refusal he
    refine (badRequestOnValueError_meets events _).bind fun evaluation _ _ => ?_
    refine (recordEvaluation_meets _ _ invocation _ evaluation).bind fun evaluated _ h => ?_
    obtain ⟨third, events', rfl, h3, hg'⟩ := h
    refine Meets.weaken ?_ fun _ he => hg'.refusal he
    refine (recordToolEvidence_meets _ _ job invocation turn evaluation).bind fun final _ h => ?_
    refine ⟨ha, ?_, h.stance⟩
    exact (Effects.nil.snoc (.worked ha hfind (not_not.mp hopen) rfl hi hc h1 h2 h3
      (hg.trans hg'))).snoc (.evidence h)

theorem decideAfterTool_meets (policy : Policy) (call : Call) (work : ToolWork) (job : JobSpec) :
    Meets (decideAfterTool call work job)
      (fun result => Effects policy work.session result.1 ∧
        result.1.stance = work.session.stance)
      (Refusal work.session.events) := by
  refine (liftRaised_meets _ _).bind fun reply _ _ => ?_
  exact ⟨Effects.nil.snoc (.covered reply.2), rfl⟩

theorem submitTool_commits {policy : Policy} (call : Call) (session : InterviewSession)
    (job : JobSpec) (toolId : String) (request : ToolSubmissionRequest)
    (hd : ∀ decision, ToolDecision call session job toolId request decision →
      policy.decides session.stance decision)
    (ho : ∀ tool : ToolInvocation, tool.id ≠ "" → tool.status = .open → policy.opens tool) :
    Commits policy session (submitTool call session job toolId request) := by
  refine (prepareTool_meets policy call session job toolId request).bind fun work hwork h => ?_
  obtain ⟨ha, heffects, hstance⟩ := h
  refine Meets.weaken ?_ fun _ he => heffects.refusal he
  refine (decideAfterTool_meets policy call work job).bind fun reply hreply h => ?_
  obtain ⟨decided, decision⟩ := reply
  obtain ⟨hcovered, hsame⟩ := h
  have hdecided : decided.stance = session.stance := hsame.trans hstance
  have hdecides : policy.decides decided.stance decision :=
    hdecided ▸ hd decision ⟨_, _, hwork, hreply⟩
  have ha' : decided.active := InterviewSession.active_of_stance hdecided ha
  refine Meets.weaken ?_ fun _ he => hcovered.refusal he
  refine (applyDecision_pursues _ ha' hdecides call.latencyMs).bind fun applied _ hasked => ?_
  refine (hasked.then (openRequestedTool_pursues call job decision ho applied.2.id)).bind
    fun opened _ hopened => ?_
  have hpursued := hopened.trans (countFollowup_pursues opened.1 decision)
  refine (hpursued.completes _ ha' hdecides).bind fun final _ hfinal => ?_
  exact ((heffects.trans hcovered).trans hfinal).commits _

end NoraInterviewer
