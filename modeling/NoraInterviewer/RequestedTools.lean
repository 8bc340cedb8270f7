import NoraInterviewer.ToolRequests
import NoraInterviewer.DecisionReplay

namespace NoraInterviewer

open ExceptRules

section

variable [CanonicalDigest] {call : Call} {job : JobSpec}

/-- The operation comes to `_open_requested_tool` with `asked`, the decision, and its turn. -/
inductive Reaches (call : Call) (job : JobSpec) (session : InterviewSession) :
    Operation → InterviewSession → AgentDecision → Turn → Prop where
  | started {begun shown asked : InterviewSession} {decision : AgentDecision} {latencyMs : Nat}
    {turn : Turn} (ha : session.active) (hs : ¬(session.status = .running ∧ session.turns ≠ []))
    (hbegun : appendEvent call.toAmbient session .interviewStarted = .ok begun)
    (hdecided : openingDecision call begun job = .ok (shown, decision, latencyMs))
    (hasked : applyDecision call.toAmbient shown decision latencyMs = .ok (asked, turn)) :
    Reaches call job session .start asked decision turn
  | answered {text : String} {turnMetadata : Dict Json} {shown decided asked : InterviewSession}
    {decision : AgentDecision} {latencyMs : Nat} {turn : Turn}
    (hshown : prepareAnswer call session job text turnMetadata = .ok shown)
    (hdecided : decideAfterAnswer call shown job = .ok (decided, decision, latencyMs))
    (hasked : applyDecision call.toAmbient decided decision latencyMs = .ok (asked, turn)) :
    Reaches call job session (.answer text turnMetadata) (countFollowup asked decision) decision
      turn
  | worked {toolId : String} {request : ToolSubmissionRequest} {work : ToolWork}
    {decided asked : InterviewSession} {decision : AgentDecision} {turn : Turn}
    (hwork : prepareTool call session job toolId request = .ok work)
    (hdecided : decideAfterTool call work job = .ok (decided, decision))
    (hasked : applyDecision call.toAmbient decided decision call.latencyMs = .ok (asked, turn)) :
    Reaches call job session (.submitTool toolId request) asked decision turn

/-- A session that a lawful decision has been put to. -/
structure Asks (job : JobSpec) (session asked : InterviewSession) (decision : AgentDecision)
    (turn : Turn) : Prop where
  lawful : Lawful job asked decision
  active : asked.active
  appendable : Appendable asked.events
  ids : asked.tools.map ToolInvocation.id = session.tools.map ToolInvocation.id
  turn : turn.id ∈ asked.turns.map Turn.id

theorem appendEvent_appendable {ambient : Ambient} {session session' : InterviewSession}
    {type : EventType} {turn : Option Turn} {payload : Dict Json}
    (h : appendEvent ambient session type turn payload = .ok session') :
    Appendable session'.events := by
  obtain ⟨events, rfl, _, hlinked, _⟩ := appendEvent_ok h
  exact ⟨_, sealEventChain_of_linked hlinked⟩

theorem applyDecision_appendable {ambient : Ambient} {session session' : InterviewSession}
    {decision : AgentDecision} {latencyMs : Nat} {turn : Turn}
    (h : applyDecision ambient session decision latencyMs = .ok (session', turn)) :
    Appendable session'.events := by
  obtain ⟨logged, hlogged, h⟩ := bind_ok h
  cases h
  exact appendEvent_appendable hlogged

omit [CanonicalDigest] in
theorem Lawful.congr {shown asked : InterviewSession} {decision : AgentDecision}
    (h : Lawful job shown decision) (ht : asked.tools = shown.tools) :
    Lawful job asked decision := by
  intro request hr
  obtain ⟨hbudget, hunused, hpolicy⟩ := h request hr
  refine ⟨by rw [ht]; exact hbudget, ?_, hpolicy⟩
  unfold usedTemplates
  rw [ht]
  exact hunused

omit [CanonicalDigest] in
theorem openingDecision_lawful {shown decided : InterviewSession} {decision : AgentDecision}
    {latencyMs : Nat} (hb : call.brain.Lawful)
    (h : openingDecision call shown job = .ok (decided, decision, latencyMs)) :
    decision.toolRequest = none := by
  unfold openingDecision at h
  split at h
  next hanchor =>
    cases h
    exact nextAnchor_request hanchor
  next =>
    obtain ⟨reply, hreply, h⟩ := bind_ok h
    cases h
    exact hb.opening (liftRaised_ok hreply)

omit [CanonicalDigest] in
theorem decideAfterAnswer_lawful {shown decided : InterviewSession} {decision : AgentDecision}
    {latencyMs : Nat} (hb : call.brain.Lawful)
    (h : decideAfterAnswer call shown job = .ok (decided, decision, latencyMs)) :
    Lawful job shown decision := by
  obtain ⟨⟨adaptive, covered⟩, hreply, h⟩ := bind_ok h
  have hadaptive : Lawful job shown adaptive := hb.afterAnswer (liftRaised_ok hreply)
  simp only at h
  split at h
  next =>
    cases h
    exact hadaptive
  next =>
    cases h
    cases hanchor : nextAnchor { shown with coveredCompetencies := covered } job with
    | none => exact hadaptive
    | some anchor => exact .none (nextAnchor_request hanchor)

omit [CanonicalDigest] in
theorem decideAfterTool_lawful {work : ToolWork} {decided : InterviewSession}
    {decision : AgentDecision} (hb : call.brain.Lawful)
    (h : decideAfterTool call work job = .ok (decided, decision)) :
    decided.bench = work.session.bench ∧ decided.conduct.turns = work.session.turns ∧
      decided.status = work.session.status ∧ Lawful job work.session decision := by
  obtain ⟨⟨given, covered⟩, hreply, h⟩ := bind_ok h
  cases h
  exact ⟨rfl, rfl, rfl, hb.afterTool (liftRaised_ok hreply)⟩

/-- The turn of a decision leaves the tools and the status as they were. -/
theorem Asks.of_applied {shown session asked : InterviewSession} {decision : AgentDecision}
    {latencyMs : Nat} {turn : Turn} (hl : Lawful job shown decision) (ha : shown.active)
    (hids : shown.tools.map ToolInvocation.id = session.tools.map ToolInvocation.id)
    (h : applyDecision call.toAmbient shown decision latencyMs = .ok (asked, turn)) :
    Asks job session asked decision turn := by
  have htools : asked.tools = shown.tools := congrArg Bench.tools (applyDecision_bench h)
  have hstatus : asked.status = shown.status :=
    congrArg Conduct.status (applyDecision_conduct h).2
  refine ⟨hl.congr htools, ?_, applyDecision_appendable h, ?_, applyDecision_source h⟩
  · unfold InterviewSession.active
    rw [hstatus]
    exact ha
  · rw [htools]
    exact hids

theorem Asks.counted {session asked : InterviewSession} {decision : AgentDecision} {turn : Turn}
    (h : Asks job session asked decision turn) :
    Asks job session (countFollowup asked decision) decision turn := by
  obtain ⟨counts, hcounted⟩ := countFollowup_eq asked decision
  rw [hcounted]
  exact ⟨h.lawful.congr rfl, h.active, h.appendable, h.ids, h.turn⟩

theorem Reaches.asks {session asked : InterviewSession} {operation : Operation}
    {decision : AgentDecision} {turn : Turn} (hb : call.brain.Lawful)
    (h : Reaches call job session operation asked decision turn) :
    Asks job session asked decision turn := by
  have hactive : ∀ {shown : InterviewSession}, session.active →
      shown.status = session.status → shown.active := by
    intro shown ha hstatus
    unfold InterviewSession.active
    rw [hstatus]
    exact ha
  cases h with
  | @started begun shown _ _ latencyMs _ ha hs hbegun hdecided hasked =>
    obtain ⟨covered, rfl⟩ := openingDecision_covered hdecided
    have hstatus : begun.status = session.status :=
      congrArg Conduct.status (appendEvent_conduct (by decide) hbegun)
    have htools : begun.tools = session.tools := congrArg Bench.tools (appendEvent_bench hbegun)
    have hlawful : Lawful job { begun with coveredCompetencies := covered } _ :=
      .none (openingDecision_lawful hb hdecided)
    refine .of_applied hlawful (hactive ha hstatus) ?_ hasked
    rw [← htools]
  | @answered text turnMetadata shown decided asked _ latencyMs _ hshown hdecided hasked =>
    obtain ⟨covered, rfl⟩ := decideAfterAnswer_covered hdecided
    obtain ⟨ha, hconduct⟩ := prepareAnswer_conduct hshown
    have htools : shown.tools = session.tools := congrArg Bench.tools (prepareAnswer_bench hshown)
    have hstatus : shown.status = session.status := congrArg Conduct.status hconduct
    have hlawful : Lawful job { shown with coveredCompetencies := covered } _ :=
      (decideAfterAnswer_lawful hb hdecided).congr rfl
    have hasks : Asks job session asked decision turn := by
      refine .of_applied hlawful (hactive ha hstatus) ?_ hasked
      rw [← htools]
    exact hasks.counted
  | @worked toolId request work decided _ _ _ hwork hdecided hasked =>
    obtain ⟨hbench, _, hsame, hlawful⟩ := decideAfterTool_lawful hb hdecided
    obtain ⟨ha, artifact, _, _, hconduct⟩ := prepareTool_conduct hwork
    obtain ⟨_, _, _, _, _, _, hwork⟩ := prepareTool_bench hwork
    have hkept : decided.tools = work.session.tools := congrArg Bench.tools hbench
    have hstatus : decided.status = session.status :=
      hsame.trans (congrArg Conduct.status hconduct)
    refine .of_applied (hlawful.congr hkept) (hactive ha hstatus) ?_ hasked
    have htools : work.session.tools =
        setToolStatus toolId .evaluated (setToolStatus toolId .submitted session.tools) :=
      congrArg Bench.tools hwork
    rw [hkept, htools, setToolStatus_ids, setToolStatus_ids]

theorem completeIfAsked_of {ambient : Ambient} {session : InterviewSession}
    (h : Appendable session.events) (decision : AgentDecision) :
    ∃ session', completeIfAsked ambient session decision = .ok session' := by
  unfold completeIfAsked
  split
  next =>
    have hcompleted : Appendable { session with
        status := .completed
        completedAt := session.completedAt.or (some (ambient.now .completed)) }.events := h
    obtain ⟨events, hevents, _⟩ := hcompleted.append ambient .sessionCompleted none []
    exact ⟨_, hevents⟩
  next => exact ⟨session, rfl⟩

/-- What follows `_open_requested_tool` in the operation, which no longer raises. -/
theorem Reaches.mutate_eq {session asked : InterviewSession} {operation : Operation}
    {decision : AgentDecision} {turn : Turn} (hjob : call.job = some job)
    (h : Reaches call job session operation asked decision turn) :
    ∃ finish : InterviewSession × Option ToolInvocation →
        Except PyError (Option InterviewSession),
      mutate call operation session =
        (openRequestedTool call asked job decision turn.id >>= finish) ∧
      ∀ result, Appendable result.1.events → ∃ session', finish result = .ok (some session') := by
  unfold mutate
  rw [hjob]
  cases h with
  | @started begun shown _ _ latencyMs _ ha hs hbegun hdecided hasked =>
    refine ⟨fun result => .ok (some { result.1 with status := .running }), ?_,
      fun result _ => ⟨_, rfl⟩⟩
    show (start call session job).map Outcome.written = _
    unfold start
    rw [if_neg (not_or.mpr ha), if_neg hs]
    simp only [hbegun, hdecided, hasked, ok_bind, bind_then_map]
    rfl
  | @answered text turnMetadata shown decided asked _ latencyMs _ hshown hdecided hasked =>
    refine ⟨fun result => (completeIfAsked call.toAmbient result.1 decision).map some, ?_,
      fun result happ => ?_⟩
    · show (answer call session job text turnMetadata).map Outcome.written = _
      unfold answer
      simp only [hshown, hdecided, hasked, ok_bind, bind_then_map]
      rfl
    · obtain ⟨session', hcompleted⟩ := completeIfAsked_of happ decision
      exact ⟨session', congrArg (Except.map some) hcompleted⟩
  | @worked toolId request work decided _ _ _ hwork hdecided hasked =>
    refine ⟨fun result =>
      (completeIfAsked call.toAmbient (countFollowup result.1 decision) decision).map some, ?_,
      fun result happ => ?_⟩
    · show (submitTool call session job toolId request).map Outcome.written = _
      unfold submitTool
      simp only [hwork, hdecided, hasked, ok_bind, bind_then_map]
      rfl
    · obtain ⟨counts, hcounted⟩ := countFollowup_eq result.1 decision
      have hkept : Appendable (countFollowup result.1 decision).events := by
        rw [hcounted]
        exact happ
      obtain ⟨session', hcompleted⟩ := completeIfAsked_of hkept decision
      exact ⟨session', congrArg (Except.map some) hcompleted⟩

/-- A decision after turns and tools about the job's competencies names only these. -/
theorem Reaches.known {session asked : InterviewSession} {operation : Operation}
    {decision : AgentDecision} {turn : Turn} (hb : call.brain.Follows)
    (hk : KnownTags job session.turns session.tools)
    (h : Reaches call job session operation asked decision turn) :
    ∀ tag ∈ decision.competencyTags, tag ∈ job.competencyIds := by
  cases h with
  | started _ _ _ hdecided _ => exact (openingDecision_follows hb hdecided).tags
  | @answered text turnMetadata shown _ _ _ _ _ hshown hdecided _ =>
    have hturns : shown.turns =
        session.turns ++ [answerTurn call.toAmbient session.turns text turnMetadata] :=
      congrArg Conduct.turns (prepareAnswer_conduct hshown).2
    refine (decideAfterAnswer_follows hb ?_ hdecided).tags
    rw [hturns]
    intro turn hturn tag htag
    rcases List.mem_append.mp hturn with hold | hnew
    · exact hk.turns turn hold tag htag
    · rw [List.mem_singleton.mp hnew] at htag
      cases htag
  | @worked toolId request work _ _ _ _ hwork hdecided _ =>
    obtain ⟨_, ⟨invocation, hfind, _, hevaluated⟩, hturns, _⟩ := prepareTool_transcript hwork
    refine (decideAfterTool_follows hb hturns ?_ hdecided).tags
    rw [hevaluated]
    exact hk.tools invocation (List.mem_of_find?_eq_some hfind)

/-- A tool that a built-in brain requests opens, and the operation goes through, exactly when its
template is registered and its competencies are the job's. `create_job` sees to the former, and
the latter holds as long as the session's job stays as it is. -/
theorem requested_tool_opens {session asked : InterviewSession} {operation : Operation}
    {decision : AgentDecision} {turn : Turn} (hjob : call.job = some job)
    (hbrain : BuiltIn call.brain)
    (hid : call.uuid .tool session.tools.length ∉ session.tools.map ToolInvocation.id)
    (h : Reaches call job session operation asked decision turn) :
    ((∃ result, openRequestedTool call asked job decision turn.id = .ok result) ↔
      decision.Grantable call.templates job) ∧
    ((∃ session', mutate call operation session = .ok (some session')) ↔
      decision.Grantable call.templates job) ∧
    (∀ raw organizationId, createJob call.templates raw organizationId = .ok job →
      ∀ request, decision.toolRequest = some request →
        request.templateId ∈ call.templates.map ToolTemplate.templateId) ∧
    (∀ backend versions,
      History backend (fun call operation _ => UnderBuiltIn job call operation) versions →
      session ∈ versions → ∀ tag ∈ decision.competencyTags, tag ∈ job.competencyIds) := by
  obtain ⟨hlawful, hactive, happ, hids, hturn⟩ := h.asks hbrain.lawful
  obtain ⟨finish, hmutate, hfinish⟩ := h.mutate_eq hjob
  have hlength : asked.tools.length = session.tools.length := by
    simpa using congrArg List.length hids
  have hopens := fun hgrant => openRequestedTool_of hlawful hactive happ
    (by rw [hlength, hids]; exact hid) hturn hgrant
  refine ⟨⟨?_, ?_⟩, ⟨?_, ?_⟩, ?_, ?_⟩
  · rintro ⟨result, hopened⟩
    exact openRequestedTool_grantable hopened
  · intro hgrant
    obtain ⟨result, hopened, _⟩ := hopens hgrant
    exact ⟨result, hopened⟩
  · rintro ⟨session', hcommits⟩
    rw [hmutate] at hcommits
    obtain ⟨result, hopened, _⟩ := bind_ok hcommits
    exact openRequestedTool_grantable hopened
  · intro hgrant
    obtain ⟨result, hopened, hlogged⟩ := hopens hgrant
    rw [hmutate, hopened]
    exact hfinish result hlogged
  · intro raw organizationId hcreated request hr
    obtain ⟨_, _, allowed, hallowed, _⟩ := hlawful request hr
    have hsame : allowed.templateId = request.templateId := by simpa using List.find?_some hallowed
    rw [← hsame]
    exact createJob_registered hcreated allowed (List.mem_of_find?_eq_some hallowed)
  · intro backend versions hhistory hm
    exact h.known hbrain.follows (hhistory.known_tags session hm)

end

/-- The first steps of `answer`, up to the request for a tool. -/
def askAfterAnswer [CanonicalDigest] (call : Call) (job : JobSpec) (session : InterviewSession)
    (text : String) : Except PyError (InterviewSession × AgentDecision × Turn) := do
  let shown ← prepareAnswer call session job text []
  let (decided, decision, latencyMs) ← decideAfterAnswer call shown job
  let (asked, turn) ← applyDecision call.toAmbient decided decision latencyMs
  pure (countFollowup asked decision, decision, turn)

theorem askAfterAnswer_reaches [CanonicalDigest] {call : Call} {job : JobSpec}
    {session asked : InterviewSession} {text : String} {decision : AgentDecision} {turn : Turn}
    (h : askAfterAnswer call job session text = .ok (asked, decision, turn)) :
    Reaches call job session (.answer text []) asked decision turn := by
  obtain ⟨shown, hshown, h⟩ := bind_ok h
  obtain ⟨⟨decided, given, latencyMs⟩, hdecided, h⟩ := bind_ok h
  obtain ⟨⟨applied, put⟩, hasked, h⟩ := bind_ok h
  cases h
  exact .answered hshown hdecided hasked

section Runs

attribute [local instance] checksumDigest

/-- The answer asks for the tool `templateId`, and the next tool's id is free. -/
def requestsTool (call : Call) (job : JobSpec) (text templateId : String)
    (session : InterviewSession) : Bool :=
  call.uuid .tool session.tools.length ∉ session.tools.map ToolInvocation.id &&
    match askAfterAnswer call job session text with
    | .ok (_, decision, _) => decision.toolRequest.any fun request =>
        request.templateId = templateId
    | .error _ => false

theorem requestsTool_reaches {call : Call} {job : JobSpec} {text templateId : String}
    {session : InterviewSession} (h : requestsTool call job text templateId session = true) :
    call.uuid .tool session.tools.length ∉ session.tools.map ToolInvocation.id ∧
    ∃ asked decision turn, Reaches call job session (.answer text []) asked decision turn ∧
      decision.toolRequest = some ⟨templateId⟩ := by
  obtain ⟨hid, hrequest⟩ := Bool.and_eq_true_iff.mp h
  refine ⟨of_decide_eq_true hid, ?_⟩
  split at hrequest
  next asked decision turn hasks =>
    refine ⟨asked, decision, turn, askAfterAnswer_reaches hasks, ?_⟩
    cases hr : decision.toolRequest with
    | none =>
      rw [hr] at hrequest
      cases hrequest
    | some request =>
      rw [hr] at hrequest
      rw [← of_decide_eq_true hrequest]
  next => cases hrequest

def longText : String := "I split the queue into shards, moved the hot keys to " ++
  "their own shard, and cut the tail latency in half within a week."

theorem requested_tool_opens_note : ∃ session past session',
    History .memory (fun call operation _ => UnderBuiltIn workshopJob call operation)
      (session :: past) ∧
    createJob workshopCall.templates workshopJob none = .ok workshopJob ∧
    mutate workshopCall (.answer longText []) session = .ok (some session') := by
  have hrun : (jobRun workshopJob .memory [(workshopCall, .start)]).any (fun versions =>
      versions.head?.any (requestsTool workshopCall workshopJob longText "note")) = true := by
    decide +kernel
  obtain ⟨session, past, hhistory, hcheck⟩ := jobRun_last (fun call _ => call = workshopCall)
    (by simp) hrun
  have hbrain : BuiltIn workshopCall.brain := Or.inl ⟨asciiWord, rfl⟩
  have hunder : History .memory (fun call operation _ => UnderBuiltIn workshopJob call operation)
      (session :: past) := hhistory.mono fun call operation _ ha => by
    rw [show call = workshopCall from ha.2]
    exact ⟨rfl, hbrain⟩
  have hcreated : createJob workshopCall.templates workshopJob none = .ok workshopJob := rfl
  obtain ⟨hid, asked, decision, turn, hreaches, _⟩ := requestsTool_reaches hcheck
  obtain ⟨_, hcommits, hregistered, hknown⟩ :=
    requested_tool_opens rfl hbrain hid hreaches
  have hgrant : decision.Grantable workshopCall.templates workshopJob := fun request hr =>
    ⟨hregistered workshopJob none hcreated request hr,
      hknown .memory (session :: past) hunder List.mem_cons_self⟩
  obtain ⟨session', hsession⟩ := hcommits.mpr hgrant
  exact ⟨session, past, session', hunder, hcreated, hsession⟩

def ghostJob : JobSpec := ghostApproval.job (by decide) "job" none

def ghostCall : Call := { workshopCall with job := some ghostJob }

/-- The answer requests the tool, and fails on it. -/
def refusesGhost (session : InterviewSession) : Bool :=
  requestsTool ghostCall ghostJob longText "ghost" session &&
    match mutate ghostCall (.answer longText []) session with
    | .error (.http 400 message []) => message = "unknown tool template: ghost"
    | _ => false

/-- An answer to a job that a rubric approval stored ends in an error. -/
theorem requested_tool_refused : ∃ approved session past,
    approveRubricDraft systemsDraft ghostApproval "job" "recruiter" none 0 =
      .ok (approved, ghostJob) ∧
    History .memory (fun call operation _ => UnderBuiltIn ghostJob call operation)
      (session :: past) ∧
    ghostCall.uuid .tool session.tools.length ∉ session.tools.map ToolInvocation.id ∧
    (∃ asked decision turn, Reaches ghostCall ghostJob session (.answer longText []) asked decision
      turn ∧ decision.toolRequest = some ⟨"ghost"⟩) ∧
    mutate ghostCall (.answer longText []) session =
      .error (.http 400 "unknown tool template: ghost" []) := by
  have hrun : (jobRun ghostJob .memory [(ghostCall, .start)]).any (fun versions =>
      versions.head?.any refusesGhost) = true := by
    decide +kernel
  obtain ⟨session, past, hhistory, hcheck⟩ := jobRun_last (fun call _ => call = ghostCall)
    (by simp) hrun
  have hbrain : BuiltIn ghostCall.brain := Or.inl ⟨asciiWord, rfl⟩
  have hunder : History .memory (fun call operation _ => UnderBuiltIn ghostJob call operation)
      (session :: past) := hhistory.mono fun call operation _ ha => by
    rw [show call = ghostCall from ha.2]
    exact ⟨rfl, hbrain⟩
  obtain ⟨hrequests, herror⟩ := Bool.and_eq_true_iff.mp hcheck
  obtain ⟨hid, hreaches⟩ := requestsTool_reaches hrequests
  refine ⟨_, session, past, rfl, hunder, hid, hreaches, ?_⟩
  split at herror
  next message hmutate => rw [hmutate, of_decide_eq_true herror]
  next => cases herror

end Runs

end NoraInterviewer
