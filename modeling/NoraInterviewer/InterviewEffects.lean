import NoraInterviewer.DecisionEffects

namespace NoraInterviewer

open ExceptRules

variable [CanonicalDigest]

/-- A service call whose commit, if it makes one, is a run of effects. -/
abbrev Commits {α : Type} (policy : Policy) (session : InterviewSession)
    (x : Except PyError (Outcome α)) : Prop :=
  Meets x (fun outcome => ∀ session', outcome.written = some session' → Effects policy session session')
    (Refusal session.events)

theorem Effects.commits {α : Type} {policy : Policy} {session session' : InterviewSession}
    (h : Effects policy session session') (result : α) :
    ∀ written, (Outcome.commit session' result).written = some written → Effects policy session written := by
  intro written hw
  cases hw
  exact h

/-- A session as `create_session` leaves it. -/
structure Fresh (session : InterviewSession) : Prop where
  log : ∃ payload, session.log = [⟨.sessionCreated, none, payload⟩]
  sealed : Sealed session.events
  status : session.status = .created
  paused : session.paused = false
  turns : session.turns = []
  tools : session.tools = []
  toolSubmissions : session.toolSubmissions = []
  transcriptRevisions : session.transcriptRevisions = []
  appeals : session.appeals = []
  completedAt : session.completedAt = none
  cancelledAt : session.cancelledAt = none
  cancellationReason : session.cancellationReason = none
  askedQuestions : session.askedQuestions = 0
  askedAnchorCompetencies : session.askedAnchorCompetencies = []
  sharedMetadata : session.sharedMetadata = []
  version : session.version = 0

theorem createSession_meets (call : Call) (request : CreateSession) (organizationId : Option String) :
    Meets (createSession call request organizationId) Fresh (fun e => e.isAuditChain = false) := by
  have hnil : Sealed [] := ⟨trivial, rfl⟩
  unfold createSession
  refine Meets.ite (fun _ => rfl) fun _ => ?_
  split
  next => exact rfl
  next job _ =>
    refine Meets.ite (fun _ => rfl) fun _ => Meets.ite (fun _ => rfl) fun _ => ?_
    refine Meets.weaken (Meets.imp (appendEvent_meets _ _ _ _ _) fun session h => ?_)
      fun _ he => he hnil
    obtain ⟨events, rfl, hg⟩ := h
    constructor
    case log => exact ⟨_, hg.log⟩
    case sealed => exact hg.seals hnil
    all_goals rfl

theorem openingDecision_meets (call : Call) (session : InterviewSession) (job : JobSpec) :
    Meets (openingDecision call session job)
      (fun result => ∃ covered, result.1 = { session with coveredCompetencies := covered })
      (Refusal session.events) := by
  unfold openingDecision
  split
  next => exact ⟨_, rfl⟩
  next => exact (liftRaised_meets _ _).bind fun reply _ _ => ⟨reply.2, rfl⟩

/-- The decision that `start` puts. -/
def StartDecision (call : Call) (session : InterviewSession) (job : JobSpec)
    (decision : AgentDecision) : Prop :=
  ∃ shown result latencyMs, appendEvent call.toAmbient session .interviewStarted = .ok shown ∧
    openingDecision call shown job = .ok (result, decision, latencyMs)

theorem start_commits {policy : Policy} (call : Call) (session : InterviewSession) (job : JobSpec)
    (hd : ∀ decision, StartDecision call session job decision → policy.starts session.stance decision)
    (ho : ∀ tool : ToolInvocation, tool.id ≠ "" → tool.status = .open → policy.opens tool) :
    Commits policy session (start call session job) := by
  unfold start
  refine Meets.ite (fun _ _ h => by cases h) fun hterminal => ?_
  refine Meets.ite (fun _ _ h => by cases h) fun hrunning => ?_
  have hs : session.status = .created ∨ session.status = .running ∧ session.turns = [] := by
    cases hst : session.status <;> simp_all
  refine (appendEvent_meets _ _ _ _ _).bind fun shown hshown h => ?_
  obtain ⟨first, rfl, hfirst⟩ := h
  refine Meets.weaken ?_ fun _ he => hfirst.refusal he
  refine (openingDecision_meets call _ job).bind fun opened hopened hcov => ?_
  obtain ⟨opened, decision, latencyMs⟩ := opened
  obtain ⟨covered, rfl⟩ := hcov
  refine (applyDecision_meets _ _ decision latencyMs).bind fun applied _ h => ?_
  obtain ⟨applied, turn⟩ := applied
  simp only at h
  obtain ⟨entry, second, rfl, ht, he, hsecond⟩ := h
  refine Meets.weaken ?_ fun _ he => hsecond.refusal he
  refine (openRequestedTool_meets call _ job decision turn.id).bind fun final _ h => ?_
  refine Effects.commits ?_ _
  have hstart : Effects policy session
      { countDecision { session with
          coveredCompetencies := covered, turns := session.turns ++ [turn] } decision with
        status := .running, events := second } :=
    (Effects.nil.snoc (.covered covered)).snoc
      (.started hs (hd decision ⟨_, _, _, hshown, hopened⟩) ht rfl he (hfirst.trans hsecond))
  rcases h with h | ⟨tool, hi, hopen, entry, events, _, hnew, hnames, hg, h⟩
  · rw [h]
    exact hstart
  · rw [h]
    exact hstart.snoc (.opened ⟨nofun, nofun⟩ hnew (ho tool hi hopen) hnames hg)

theorem recordCandidateClaim_meets (call : Ambient) (session : InterviewSession)
    (questionTurnId answerTurnId : String) (competencyIds : List String) :
    Meets (recordCandidateClaim call session questionTurnId answerTurnId competencyIds)
      (fun result => RecordsEvidence session result.1) (Refusal session.events) := by
  unfold recordCandidateClaim
  simp only
  split
  next =>
    exact Meets.ite (fun _ _ => rfl) fun _ =>
      RecordsEvidence.writes session _ session.evidenceJudgeRuns
  next => exact fun _ => rfl

theorem recordClaimEvents_meets (call : Ambient) (candidate : Turn) (items : List EvidenceItem)
    (session : InterviewSession) :
    EvidenceOnly session (recordClaimEvents call candidate items session) id := by
  induction items generalizing session with
  | nil => exact RecordsEvidence.refl session
  | cons item rest ih =>
    refine (evidenceEvent_meets call session rfl _ _).bind fun mid _ h => ?_
    exact h.then (ih mid)

theorem recordAnswerTurn_meets (policy : Policy) (call : Ambient) {session : InterviewSession}
    (ha : session.active) (hp : session.paused = false) (text : String) (turnMetadata : Dict Json) :
    Meets (recordAnswerTurn call session text turnMetadata)
      (fun result => Effects policy session result.1 ∧ result.1.stance = session.stance)
      (Refusal session.events) := by
  refine (appendEvent_meets _ _ _ _ _).bind fun session' _ h => ?_
  obtain ⟨events, rfl, hg⟩ := h
  exact ⟨Effects.nil.snoc (.answered ha hp (call.uuid_ne _ _) rfl (turnEntry_isTurn _ _ _) hg), rfl⟩

theorem recordAnswerEvidence_meets (call : Call) (session : InterviewSession) (job : JobSpec)
    (question : Option Turn) (candidate : Turn) :
    EvidenceOnly session (recordAnswerEvidence call session job question candidate) id := by
  unfold recordAnswerEvidence
  split
  next => exact RecordsEvidence.refl session
  next question =>
    refine Meets.ite (fun _ => RecordsEvidence.refl session) fun _ => ?_
    refine (recordCandidateClaim_meets _ session _ _ _).bind fun claimed _ h => ?_
    refine RecordsEvidence.then h ?_
    refine (recordClaimEvents_meets _ candidate _ _).bind fun logged _ h => ?_
    refine RecordsEvidence.then h ?_
    exact (judgeCandidateEvidence_meets call logged job question candidate _ _).bind fun _ _ h => h

theorem RecordsEvidence.stance {session session' : InterviewSession}
    (h : RecordsEvidence session session') : session'.stance = session.stance := by
  obtain ⟨_, _, _, _, rfl, _⟩ := h
  rfl

theorem prepareAnswer_meets (policy : Policy) (call : Call) (session : InterviewSession)
    (job : JobSpec) (text : String) (turnMetadata : Dict Json) :
    Meets (prepareAnswer call session job text turnMetadata)
      (fun shown => session.active ∧ Effects policy session shown ∧ shown.stance = session.stance)
      (Refusal session.events) := by
  unfold prepareAnswer
  refine Meets.ite (fun _ _ => rfl) fun hcompleted => Meets.ite (fun _ _ => rfl) fun hcancelled => ?_
  refine Meets.ite (fun _ _ => rfl) fun hpaused => ?_
  have ha : session.active := ⟨hcompleted, hcancelled⟩
  refine (recordAnswerTurn_meets policy _ ha (Bool.eq_false_iff.mpr hpaused) text turnMetadata).bind
    fun recorded _ h => ?_
  obtain ⟨heffects, hstance⟩ := h
  refine Meets.weaken (Meets.imp (recordAnswerEvidence_meets call _ job _ _) fun shown h => ?_)
    fun _ he => heffects.refusal he
  exact ⟨ha, heffects.snoc (.evidence h), h.stance.trans hstance⟩

theorem decideAfterAnswer_meets (policy : Policy) (call : Call) (session : InterviewSession)
    (job : JobSpec) :
    Meets (decideAfterAnswer call session job)
      (fun result => Effects policy session result.1 ∧ result.1.stance = session.stance)
      (Refusal session.events) := by
  refine (liftRaised_meets _ _).bind fun reply _ _ => ?_
  have h : Effects policy session { session with coveredCompetencies := reply.2 } :=
    Effects.nil.snoc (.covered reply.2)
  exact Meets.ite (fun _ => ⟨h, rfl⟩) fun _ => ⟨h, rfl⟩

/-- The decision that `answer` puts. -/
def AnswerDecision (call : Call) (session : InterviewSession) (job : JobSpec) (text : String)
    (turnMetadata : Dict Json) (decision : AgentDecision) : Prop :=
  ∃ shown result latencyMs, prepareAnswer call session job text turnMetadata = .ok shown ∧
    decideAfterAnswer call shown job = .ok (result, decision, latencyMs)

omit [CanonicalDigest] in
theorem InterviewSession.active_of_stance {session session' : InterviewSession}
    (h : session'.stance = session.stance) (ha : session.active) : session'.active := by
  have hs : session'.status = session.status := congrArg Stance.status h
  rw [InterviewSession.active, hs]
  exact ha

theorem answer_commits {policy : Policy} (call : Call) (session : InterviewSession) (job : JobSpec)
    (text : String) (turnMetadata : Dict Json)
    (hd : ∀ decision, AnswerDecision call session job text turnMetadata decision →
      policy.decides session.stance decision)
    (ho : ∀ tool : ToolInvocation, tool.id ≠ "" → tool.status = .open → policy.opens tool) :
    Commits policy session (answer call session job text turnMetadata) := by
  refine (prepareAnswer_meets policy call session job text turnMetadata).bind fun shown hshown h => ?_
  obtain ⟨ha, heffects, hstance⟩ := h
  refine Meets.weaken ?_ fun _ he => heffects.refusal he
  refine (decideAfterAnswer_meets policy call shown job).bind fun reply hreply h => ?_
  obtain ⟨decided, decision, latencyMs⟩ := reply
  obtain ⟨hcovered, hsame⟩ := h
  have hdecided : decided.stance = session.stance := hsame.trans hstance
  have hdecides : policy.decides decided.stance decision :=
    hdecided ▸ hd decision ⟨_, _, _, hshown, hreply⟩
  have ha' : decided.active := InterviewSession.active_of_stance hdecided ha
  refine Meets.weaken ?_ fun _ he => hcovered.refusal he
  refine (applyDecision_pursues _ ha' hdecides latencyMs).bind fun applied _ hasked => ?_
  have hfollow := hasked.trans (countFollowup_pursues applied.1 decision)
  refine (hfollow.then (openRequestedTool_pursues call job decision ho applied.2.id)).bind
    fun opened _ hpursued => ?_
  refine (hpursued.completes _ ha' hdecides).bind fun final _ hfinal => ?_
  exact ((heffects.trans hcovered).trans hfinal).commits _

theorem cancelTools_meets (call : Ambient) (rest before : List ToolInvocation)
    (session : InterviewSession) (ht : session.tools = before ++ rest) :
    Meets (cancelTools call before rest session)
      (fun result => ∃ events entries, result.1 = { session with
          tools := before ++ rest.map ToolInvocation.cancel, events := events } ∧
        List.Forall₂ (fun tool entry => LogEntry.Names entry .toolCancelled "tool_id" tool.id)
          (rest.filter ToolInvocation.pending) entries ∧
        Grows session.events events entries)
      (Refusal session.events) := by
  induction rest generalizing before session with
  | nil =>
    refine ⟨session.events, [], ?_, .nil, Grows.refl _⟩
    rw [List.map_nil, ← ht]
  | cons tool rest ih =>
    unfold cancelTools
    refine Meets.ite (fun hopen => ?_) fun hclosed => ?_
    · refine (appendEvent_meets _ _ _ _ _).bind fun session' _ h => ?_
      obtain ⟨first, rfl, hfirst⟩ := h
      refine Meets.weaken ?_ fun _ he => hfirst.refusal he
      have htools : before ++ { tool with status := .cancelled } :: rest =
          (before ++ [{ tool with status := .cancelled }]) ++ rest := List.append_cons _ _ _
      refine (ih _ { session with
        tools := before ++ { tool with status := .cancelled } :: rest, events := first }
        htools).bind fun cancelled _ h => ?_
      obtain ⟨events, entries, hc, hnames, hg⟩ := h
      refine ⟨events, _ :: entries, ?_, ?_, hfirst.trans hg⟩
      · simp only [hc, List.map_cons, ToolInvocation.cancel, if_pos hopen, List.append_assoc,
          List.singleton_append]
      · have hp : tool.pending = true := by simpa [ToolInvocation.pending] using hopen
        rw [List.filter_cons_of_pos hp]
        exact .cons (entry_names _ (by decide) rfl) hnames
    · have hp : ¬tool.pending = true := by simpa [ToolInvocation.pending] using hclosed
      refine (ih (before ++ [tool]) session (by rw [ht, List.append_cons])).imp fun result h => ?_
      obtain ⟨events, entries, hc, hnames, hg⟩ := h
      refine ⟨events, entries, ?_, ?_, hg⟩
      · simp only [hc, List.map_cons, ToolInvocation.cancel, if_neg hclosed, List.append_assoc,
          List.singleton_append]
      · rw [List.filter_cons_of_neg hp]
        exact hnames

theorem cancelSession_commits {policy : Policy} (call : Call) (session : InterviewSession)
    (request : CancelSessionRequest) :
    Commits policy session (cancelSession call session request) := by
  unfold cancelSession
  refine Meets.ite (fun _ _ => rfl) fun hcompleted => ?_
  refine Meets.ite (fun _ _ h => by cases h) fun hcancelled => ?_
  refine (cancelTools_meets _ session.tools [] session rfl).bind fun result _ h => ?_
  obtain ⟨cancelled, ids⟩ := result
  simp only at h
  obtain ⟨first, entries, rfl, hnames, hfirst⟩ := h
  refine Meets.weaken ?_ fun _ he => hfirst.refusal he
  refine (appendEvent_meets _ _ _ _ _).bind fun session' _ h => ?_
  obtain ⟨events, rfl, hg⟩ := h
  refine Effects.commits ?_ _
  exact Effects.nil.snoc (.cancelled ⟨hcompleted, hcancelled⟩ _ hnames rfl (hfirst.trans hg))

end NoraInterviewer
