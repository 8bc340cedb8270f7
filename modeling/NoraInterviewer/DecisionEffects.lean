import NoraInterviewer.Effects

namespace NoraInterviewer

open ExceptRules

theorem withTrace_lookup {key : String} (hk : key ≠ "_trace") (correlationId : Option String)
    (payload : Dict Json) : (withTrace correlationId payload).lookup key = payload.lookup key := by
  unfold withTrace
  split
  next => rfl
  next id =>
    split
    next => rfl
    next => exact Dict.lookup_set_ne hk _ _

/-- The entry that `append_event` writes is the turn's. -/
theorem turnEntry_isTurn (type : EventType) (turn : Turn) (payload : Dict Json) :
    LogEntry.IsTurn ⟨type, (some turn).map Turn.id, payload⟩ type turn :=
  ⟨rfl, rfl⟩

theorem entry_names {type : EventType} {turnId : Option String} {key value : String}
    {payload : Dict Json} (correlationId : Option String) (hk : key ≠ "_trace")
    (hl : payload.lookup key = some (.str value)) :
    LogEntry.Names ⟨type, turnId, withTrace correlationId payload⟩ type key value := by
  refine ⟨rfl, ?_⟩
  rw [LogEntry.text, withTrace_lookup hk, hl]
  rfl

theorem decisionTurn_puts (call : Ambient) (session : InterviewSession) (decision : AgentDecision)
    (latencyMs : Nat) : (decisionTurn call session decision latencyMs).Puts decision :=
  ⟨call.uuid_ne _ _, rfl, rfl, rfl, rfl⟩

theorem instantiateTemplate_ok {call : Call} {session : InterviewSession} {templateId : String}
    {tags : List String} {opened : Option String} {tool : ToolInvocation}
    (h : instantiateTemplate call session templateId tags opened = .ok tool) :
    tool.id ≠ "" ∧ tool.status = .open := by
  unfold instantiateTemplate at h
  split at h
  next => cases h
  next template _ =>
    cases h
    rw [instantiate_id, instantiate_status]
    exact ⟨call.uuid_ne _ _, rfl⟩

theorem countFollowup_eq (session : InterviewSession) (decision : AgentDecision) :
    ∃ counts, countFollowup session decision = { session with followupsByCompetency := counts } := by
  unfold countFollowup
  split
  next => exact ⟨_, rfl⟩
  next =>
    split
    next => exact ⟨_, rfl⟩
    next => exact ⟨_, rfl⟩

variable [CanonicalDigest]

theorem liftRaised_meets {α : Type} (events : List InterviewEvent) (x : Except Raised α) :
    Meets (liftRaised x) (fun a => x = .ok a) (Refusal events) := by
  cases x with
  | ok a => exact rfl
  | error e => exact fun _ => rfl

theorem badRequestOnValueError_meets {α : Type} (events : List InterviewEvent) (x : Except Raised α) :
    Meets (badRequestOnValueError x) (fun a => x = .ok a) (Refusal events) := by
  cases x with
  | ok a => exact rfl
  | error e =>
    intro _
    split <;> rfl

/-- A fallible step that runs effects. -/
abbrev Performs {α : Type} (policy : Policy) (session : InterviewSession) (x : Except PyError α)
    (after : α → InterviewSession) : Prop :=
  Meets x (fun result => Effects policy session (after result)) (Refusal session.events)

/-- What comes after some effects may have more of them. -/
theorem Effects.then {α : Type} {policy : Policy} {session mid : InterviewSession}
    {x : Except PyError α} {after : α → InterviewSession} (h : Effects policy session mid)
    (hx : Performs policy mid x after) : Performs policy session x after :=
  Meets.weaken (Meets.imp hx fun _ hr => h.trans hr) fun _ he => h.refusal he

theorem applyDecision_meets (call : Ambient) (session : InterviewSession) (decision : AgentDecision)
    (latencyMs : Nat) :
    Meets (applyDecision call session decision latencyMs)
      (fun result => ∃ entry events, result.1 =
          { countDecision { session with turns := session.turns ++ [result.2] } decision with
            events := events } ∧
        result.2.Puts decision ∧ LogEntry.IsTurn entry .interviewerTurn result.2 ∧
        Grows session.events events [entry])
      (Refusal session.events) := by
  refine (appendEvent_meets call _ _ _ _).bind fun session' _ h => ?_
  obtain ⟨events, rfl, hg⟩ := h
  exact ⟨_, events, rfl, decisionTurn_puts call session decision latencyMs,
    turnEntry_isTurn _ _ _, hg⟩

/-- `session'` is `session` with a freshly opened tool. -/
def OpensTool (session : InterviewSession) (tool : ToolInvocation) (session' : InterviewSession) : Prop :=
  ∃ entry events, session.active ∧ tool.id ∉ session.tools.map ToolInvocation.id ∧
    LogEntry.Names entry .toolOpened "tool_id" tool.id ∧ Grows session.events events [entry] ∧
    session' = { session with tools := session.tools ++ [tool], events := events }

theorem OpensTool.effects {policy : Policy} {session session' : InterviewSession}
    {tool : ToolInvocation} (h : OpensTool session tool session') (ho : policy.opens tool) :
    Effects policy session session' := by
  obtain ⟨entry, events, ha, hn, he, hg, rfl⟩ := h
  exact Effects.nil.snoc (.opened ha hn ho he hg)

theorem appendTool_meets (call : Ambient) (session : InterviewSession) (job : JobSpec)
    (tool : ToolInvocation) :
    Meets (appendTool call session job tool) (OpensTool session tool) (Refusal session.events) := by
  unfold appendTool
  refine Meets.ite (fun _ _ => rfl) fun hcompleted => ?_
  refine Meets.ite (fun _ _ => rfl) fun hcancelled => ?_
  refine Meets.ite (fun _ _ => rfl) fun hnew => ?_
  refine Meets.ite (fun _ _ => rfl) fun _ => ?_
  refine Meets.ite (fun _ _ => rfl) fun _ => ?_
  refine (appendEvent_meets call _ _ _ _).imp fun session' h => ?_
  obtain ⟨events, rfl, hg⟩ := h
  exact ⟨_, events, ⟨hcompleted, hcancelled⟩, hnew, entry_names _ (by decide) rfl, hg, rfl⟩

/-- A tool request opens one tool, with a fresh id of the service's own. -/
theorem openRequestedTool_meets (call : Call) (session : InterviewSession) (job : JobSpec)
    (decision : AgentDecision) (openedFromTurnId : String) :
    Meets (openRequestedTool call session job decision openedFromTurnId)
      (fun result => result.1 = session ∨ ∃ tool : ToolInvocation, tool.id ≠ "" ∧
        tool.status = .open ∧ OpensTool session tool result.1)
      (Refusal session.events) := by
  unfold openRequestedTool
  split
  next => exact Or.inl rfl
  next request _ =>
    refine Meets.ite (fun _ _ => rfl) fun _ => Meets.ite (fun _ _ => rfl) fun _ => ?_
    split
    next => exact fun _ => rfl
    next allowed _ =>
      refine Meets.ite (fun _ _ => rfl) fun _ => ?_
      refine (badRequestOnValueError_meets _ _).bind fun tool _ htool => ?_
      refine (appendTool_meets _ session job tool).bind fun session' _ hs => ?_
      obtain ⟨hi, ho⟩ := instantiateTemplate_ok htool
      exact Or.inr ⟨tool, hi, ho, hs⟩

theorem completeIfAsked_performs {policy : Policy} (call : Ambient) {session : InterviewSession}
    {decision : AgentDecision} (ha : session.active)
    (hd : decision.completesInterview = true → policy.decides session.stance decision) :
    Performs policy session (completeIfAsked call session decision) id := by
  unfold completeIfAsked
  refine Meets.ite (fun hc => ?_) fun _ => Effects.nil
  refine (appendEvent_meets call _ _ _ _).imp fun session' h => ?_
  obtain ⟨events, rfl, hg⟩ := h
  exact Effects.nil.snoc (.completed ha (hd hc) hc _ rfl hg)

/-- Effects of `decision` after which it may still complete the session. -/
structure Pursues (policy : Policy) (decision : AgentDecision) (session session' : InterviewSession) :
    Prop where
  effects : Effects policy session session'
  status : session'.status = session.status
  stance : decision.completesInterview = true → session'.stance = session.stance

theorem Pursues.trans {policy : Policy} {decision : AgentDecision} {a b c : InterviewSession}
    (hab : Pursues policy decision a b) (hbc : Pursues policy decision b c) :
    Pursues policy decision a c :=
  ⟨hab.effects.trans hbc.effects, hbc.status.trans hab.status,
    fun hd => (hbc.stance hd).trans (hab.stance hd)⟩

theorem Pursues.then {α : Type} {policy : Policy} {decision : AgentDecision}
    {session mid : InterviewSession} {x : Except PyError α} {after : α → InterviewSession}
    (h : Pursues policy decision session mid)
    (hx : Meets x (fun result => Pursues policy decision mid (after result)) (Refusal mid.events)) :
    Meets x (fun result => Pursues policy decision session (after result)) (Refusal session.events) :=
  Meets.weaken (Meets.imp hx fun _ hr => h.trans hr) fun _ he => h.effects.refusal he

theorem applyDecision_pursues {policy : Policy} (call : Ambient) {session : InterviewSession}
    {decision : AgentDecision} (ha : session.active) (hd : policy.decides session.stance decision)
    (latencyMs : Nat) :
    Meets (applyDecision call session decision latencyMs)
      (fun result => Pursues policy decision session result.1) (Refusal session.events) := by
  refine (applyDecision_meets call session decision latencyMs).imp fun result h => ?_
  obtain ⟨entry, events, hs, ht, he, hg⟩ := h
  rw [hs]
  refine ⟨Effects.nil.snoc (.asked ha hd ht he hg), rfl, fun hc => ?_⟩
  have hlane : laneFor decision = .closing := if_pos hc
  simp [InterviewSession.stance, countDecision, hlane]

theorem openRequestedTool_pursues {policy : Policy} (call : Call) {session : InterviewSession}
    (job : JobSpec) (decision : AgentDecision)
    (ho : ∀ tool : ToolInvocation, tool.id ≠ "" → tool.status = .open → policy.opens tool)
    (openedFromTurnId : String) :
    Meets (openRequestedTool call session job decision openedFromTurnId)
      (fun result => Pursues policy decision session result.1) (Refusal session.events) := by
  refine (openRequestedTool_meets call session job decision openedFromTurnId).imp fun result h => ?_
  rcases h with h | ⟨tool, hi, hs, h⟩
  · rw [h]
    exact ⟨.nil, rfl, fun _ => rfl⟩
  · have heffects := h.effects (ho tool hi hs)
    obtain ⟨_, _, _, _, _, _, h⟩ := h
    rw [h] at heffects ⊢
    exact ⟨heffects, rfl, fun _ => rfl⟩

theorem countFollowup_pursues {policy : Policy} (session : InterviewSession)
    (decision : AgentDecision) :
    Pursues policy decision session (countFollowup session decision) := by
  obtain ⟨counts, h⟩ := countFollowup_eq session decision
  rw [h]
  exact ⟨Effects.nil.snoc (.followups counts), rfl, fun _ => rfl⟩

/-- Once a decision has been pursued it may complete the session. -/
theorem Pursues.completes {policy : Policy} {decision : AgentDecision}
    {session session' : InterviewSession} (h : Pursues policy decision session session')
    (call : Ambient) (ha : session.active) (hd : policy.decides session.stance decision) :
    Performs policy session (completeIfAsked call session' decision) id := by
  have ha' : session'.active := by
    rw [InterviewSession.active, h.status]
    exact ha
  refine h.effects.then (completeIfAsked_performs call ha' fun hc => ?_)
  rw [h.stance hc]
  exact hd

end NoraInterviewer
