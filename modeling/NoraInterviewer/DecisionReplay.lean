import NoraInterviewer.QuestionCounters

namespace NoraInterviewer

open ExceptRules CounterfactualReplayer

/-- Every candidate turn is answered by a question further on. -/
def Answered : List Turn → Prop
  | [] => True
  | turn :: rest =>
    (turn.speaker = .candidate → (rest.find? isEvaluativeInterviewer).isSome) ∧ Answered rest

theorem Answered.append {turns more : List Turn} (h : Answered turns) (hm : Answered more) :
    Answered (turns ++ more) := by
  induction turns with
  | nil => exact hm
  | cons turn rest ih =>
    obtain ⟨hturn, hrest⟩ := h
    refine ⟨fun hc => ?_, ih hrest⟩
    obtain ⟨next, hnext⟩ := Option.isSome_iff_exists.mp (hturn hc)
    show ((rest ++ more).find? isEvaluativeInterviewer).isSome = true
    rw [List.find?_append, hnext]
    rfl

/-- Where every candidate turn is answered, more turns only add points of their own. -/
theorem decisionPointsFrom_append {turns more : List Turn} (before : List Turn)
    (h : Answered turns) :
    decisionPointsFrom before (turns ++ more) =
      decisionPointsFrom before turns ++ decisionPointsFrom (before ++ turns) more := by
  induction turns generalizing before with
  | nil => rw [List.nil_append, List.append_nil]; rfl
  | cons turn rest ih =>
    obtain ⟨hturn, hrest⟩ := h
    have hmore : before ++ turn :: rest = before ++ [turn] ++ rest := by simp
    rw [List.cons_append, decisionPointsFrom, decisionPointsFrom, ih _ hrest, hmore]
    split
    next hc =>
      obtain ⟨next, hnext⟩ := Option.isSome_iff_exists.mp (hturn hc)
      rw [List.find?_append, hnext]
      rfl
    next => rfl

theorem mem_decisionPointsFrom {before turns : List Turn} {point : DecisionPoint}
    (h : point ∈ decisionPointsFrom before turns) :
    point.turn ∈ point.turns ∧ point.turn.speaker = .candidate := by
  induction turns generalizing before with
  | nil => cases h
  | cons turn rest ih =>
    rw [decisionPointsFrom] at h
    split at h
    next hc =>
      split at h
      next => exact ih h
      next =>
        rcases List.mem_cons.mp h with rfl | h
        · exact ⟨by simp, hc⟩
        · exact ih h
    next => exact ih h

theorem decisionPointsFrom_question {before : List Turn} {question : Turn}
    (h : question.speaker = .interviewer) : decisionPointsFrom before [question] = [] := by
  simp [decisionPointsFrom, h]

theorem decisionPointsFrom_exchange {before : List Turn} {candidate question : Turn}
    (hc : candidate.speaker = .candidate) (hq : question.evaluative = true) :
    decisionPointsFrom before [candidate, question] =
      [⟨before ++ [candidate], candidate, question⟩] := by
  have hs : question.speaker = .interviewer := by
    simp only [Turn.evaluative, Bool.and_eq_true, decide_eq_true_eq] at hq
    exact hq.1.1
  rw [decisionPointsFrom, decisionPointsFrom_question hs]
  simp [hc, isEvaluativeInterviewer_eq, hq]

/-- The first announcement of a turn is what the event search of the snapshot finds. -/
theorem announced_find (events : List InterviewEvent) (id : String) :
    ((events.map InterviewEvent.entry).filterMap LogEntry.announces).find?
        (fun item => item.1 = some id) =
      (events.find? fun item => item.turnId = some id && item.type = .interviewerTurn).map
        fun item => (item.turnId, item.payload.lookup "covered_competencies") := by
  induction events with
  | nil => rfl
  | cons event rest ih =>
    by_cases ht : event.type = .interviewerTurn
    · by_cases hid : event.turnId = some id
      · simp [LogEntry.announces, InterviewEvent.entry, ht, hid]
      · simp [LogEntry.announces, InterviewEvent.entry, ht, hid, ← ih]
    · simp [LogEntry.announces, InterviewEvent.entry, ht, ← ih]

theorem strings_ofList (items : List String) : (Json.ofList items).strings = some items := by
  unfold Json.ofList Json.strings
  simp only [List.filterMap_map]
  exact congrArg some List.filterMap_some

theorem usedTemplates_eq (session : InterviewSession) :
    usedTemplates session = session.conduct.toolPayloads.filterMap fun payload =>
      match payload.lookup "template_id" with
      | some value => if value.truthy then some value.toStr else none
      | none => none := by
  rw [InterviewSession.conduct, List.filterMap_map]
  rfl

/-- A session that has the tools of another one, and maybe more, has no template left for a
competency that the other one has none left for. -/
theorem RuleBasedBrain.templateFor_none {earlier later : InterviewSession} {job : JobSpec}
    {id : String} (hp : earlier.conduct.toolPayloads <+: later.conduct.toolPayloads)
    (h : templateFor earlier job id = none) : templateFor later job id = none := by
  obtain ⟨more, hmore⟩ := hp
  have hlength : earlier.tools.length ≤ later.tools.length := by
    have hcount := congrArg List.length hmore
    simp only [InterviewSession.conduct, List.length_append, List.length_map] at hcount
    omega
  have hused : usedTemplates earlier ⊆ usedTemplates later := by
    rw [usedTemplates_eq, usedTemplates_eq, ← hmore, List.filterMap_append]
    exact List.subset_append_left _ _
  unfold templateFor at h ⊢
  split
  next hroom =>
    rw [if_pos (by omega), List.find?_eq_none] at h
    rw [List.find?_eq_none]
    intro item hitem
    have hfree := h item hitem
    simp only [Bool.and_eq_true, decide_eq_true_eq, not_and] at hfree ⊢
    exact fun hnew => hfree fun hold => hnew (hused hold)
  next => rfl

/-- The decision says the same to the candidate and counts the same. -/
def AgentDecision.Same (left right : AgentDecision) : Prop :=
  left.text = right.text ∧ left.competencyTags = right.competencyTags ∧
    left.parentTurnId = right.parentTurnId ∧ left.completesInterview = right.completesInterview

theorem AgentDecision.Same.refl (decision : AgentDecision) : decision.Same decision :=
  ⟨rfl, rfl, rfl, rfl⟩

theorem RuleBasedBrain.cover_idem (covered : List String) (id : String) :
    cover (cover covered id) id = cover covered id := by
  unfold cover
  split
  next => rfl
  next => rw [if_pos (by simp)]

/-- The reason that marks a decision to open a tool. -/
def toolReason : String := "open_allowed_practical_tool"

namespace RuleBasedBrain

theorem advance_tool {session : InterviewSession} {job : JobSpec} {item : JobToolTemplate}
    (h : templateFor session job (active session job) = some item) (latest : Turn)
    (covered : List String) :
    (advance session job latest covered).text = "I have enough conversational context here. " ++
        "Let’s add one short practical artifact before we move on." ∧
      (advance session job latest covered).competencyTags = [active session job] ∧
      (advance session job latest covered).parentTurnId = some latest.id ∧
      (advance session job latest covered).completesInterview = false ∧
      (advance session job latest covered).reason = toolReason := by
  unfold advance
  rw [h]
  exact ⟨rfl, rfl, rfl, rfl, rfl⟩

/-- Without a tool the brain talks on, and not in the words that open one. -/
theorem advance_talk {session : InterviewSession} {job : JobSpec}
    (h : templateFor session job (active session job) = none) (latest : Turn)
    (covered : List String) :
    (advance session job latest covered).reason ≠ toolReason ∧
      (advance session job latest covered).text ≠ "I have enough conversational context here. " ++
        "Let’s add one short practical artifact before we move on." := by
  unfold advance
  rw [h]
  simp only
  split
  next => exact ⟨by decide, by decide⟩
  next next _ =>
    refine ⟨by simp [toolReason], fun htext => ?_⟩
    have hfirst := congrArg (fun text : String => text.toList.head?) htext
    simp at hfirst

theorem advance_congr {earlier later : InterviewSession} {job : JobSpec}
    (hturns : later.turns = earlier.turns)
    (h : templateFor earlier job (active earlier job) = none)
    (h' : templateFor later job (active earlier job) = none) (latest : Turn)
    (covered : List String) :
    advance later job latest covered = advance earlier job latest covered := by
  have hactive : active later job = active earlier job := by
    unfold active
    rw [hturns]
  unfold advance
  rw [hactive, h, h']

/-- On the same turns the brain goes on the same way, unless it opened a tool and has none left
to open; then it does not even say the same. -/
theorem advance_again {earlier later : InterviewSession} {job : JobSpec}
    (hturns : later.turns = earlier.turns)
    (htools : earlier.conduct.toolPayloads <+: later.conduct.toolPayloads) (latest : Turn)
    (covered : List String) :
    ((advance later job latest covered).text = (advance earlier job latest covered).text →
      (advance earlier job latest covered).reason = toolReason →
        (templateFor later job (active earlier job)).isSome) ∧
    (((advance earlier job latest covered).reason = toolReason →
        (templateFor later job (active earlier job)).isSome) →
      (advance later job latest covered).Same (advance earlier job latest covered)) := by
  have hactive : active later job = active earlier job := by
    unfold active
    rw [hturns]
  cases htool : templateFor earlier job (active earlier job) with
  | none =>
    have hnone := templateFor_none htools htool
    rw [advance_congr hturns htool hnone]
    refine ⟨fun _ hreason => ?_, fun _ => AgentDecision.Same.refl _⟩
    exact absurd hreason (advance_talk htool latest covered).1
  | some item =>
    obtain ⟨htext, htags, hparent, hcompletes, hreason⟩ := advance_tool htool latest covered
    cases hlater : templateFor later job (active earlier job) with
    | none =>
      rw [← hactive] at hlater
      refine ⟨fun hsame => ?_, fun himp => ?_⟩
      · exact absurd (hsame.trans htext) (advance_talk hlater latest covered).2
      · have hsome := himp hreason
        cases hsome
    | some item' =>
      rw [← hactive] at hlater
      obtain ⟨htext', htags', hparent', hcompletes', _⟩ := advance_tool hlater latest covered
      refine ⟨fun _ _ => rfl, fun _ => ⟨?_, ?_, ?_, ?_⟩⟩
      · rw [htext, htext']
      · rw [htags, htags', hactive]
      · rw [hparent, hparent']
      · rw [hcompletes, hcompletes']

/-- The same for an answer, the session being what the decision left but for the tools. -/
theorem afterAnswer_again {isWord : Char → Bool} {earlier : InterviewSession} {job : JobSpec}
    {decision : AgentDecision} {covered : List String}
    (h : afterAnswer isWord earlier job = .ok (decision, covered)) (later : InterviewSession)
    (hturns : later.turns = earlier.turns) (hcounters : later.counters = earlier.counters)
    (hcovered : later.coveredCompetencies = covered)
    (htools : earlier.conduct.toolPayloads <+: later.conduct.toolPayloads) :
    ∃ again covered', afterAnswer isWord later job = .ok (again, covered') ∧
      (again.text = decision.text → decision.reason = toolReason →
        (templateFor later job (active earlier job)).isSome) ∧
      ((decision.reason = toolReason → (templateFor later job (active earlier job)).isSome) →
        again.Same decision) := by
  have hactive : active later job = active earlier job := by
    unfold active
    rw [hturns]
  have hasked : later.askedQuestions = earlier.askedQuestions :=
    congrArg QuestionCounters.askedQuestions hcounters
  have hfollowups : later.followupsByCompetency = earlier.followupsByCompetency :=
    congrArg QuestionCounters.followupsByCompetency hcounters
  unfold afterAnswer at h ⊢
  rw [hturns, hactive, hasked, hfollowups]
  split at h
  next => cases h
  next latest _ =>
    simp only at h ⊢
    split at h
    next hlimit =>
      cases h
      rw [if_pos hlimit]
      refine ⟨_, _, rfl, fun _ hreason => ?_, fun _ => AgentDecision.Same.refl _⟩
      exact absurd hreason (by decide)
    next hlimit =>
      rw [if_neg hlimit]
      split at h
      next hshort =>
        cases h
        rw [if_pos hshort]
        refine ⟨_, _, rfl, fun _ hreason => ?_, fun _ => AgentDecision.Same.refl _⟩
        exact absurd hreason (by simp [toolReason])
      next hshort =>
        cases h
        rw [if_neg hshort, hcovered, cover_idem]
        exact ⟨_, _, rfl, advance_again hturns htools latest _⟩

/-- Whatever the transcript, there is an answer to decide on. -/
theorem afterAnswer_total (isWord : Char → Bool) (session : InterviewSession) (job : JobSpec)
    {turn : Turn} (hm : turn ∈ session.turns) (hs : turn.speaker = .candidate) :
    ∃ reply, afterAnswer isWord session job = .ok reply := by
  unfold afterAnswer
  split
  next hnone =>
    rw [List.getLast?_eq_none_iff, List.filter_eq_nil_iff] at hnone
    exact absurd (decide_eq_true hs) (hnone turn hm)
  next =>
    simp only
    split
    next => exact ⟨_, rfl⟩
    next =>
      split
      next => exact ⟨_, rfl⟩
      next => exact ⟨_, rfl⟩

theorem afterAnswer_tool {isWord : Char → Bool} {session : InterviewSession} {job : JobSpec}
    {decision : AgentDecision} {covered : List String}
    (h : afterAnswer isWord session job = .ok (decision, covered))
    (hreason : decision.reason = toolReason) : decision.competencyTags = [active session job] := by
  unfold afterAnswer at h
  split at h
  next => cases h
  next latest _ =>
    simp only at h
    split at h
    next =>
      cases h
      exact absurd hreason (by decide)
    next =>
      split at h
      next =>
        cases h
        exact absurd hreason (by simp [toolReason])
      next =>
        cases h
        cases htool : templateFor session job (active session job) with
        | none => exact absurd hreason (advance_talk htool _ _).1
        | some item => exact (advance_tool htool _ _).2.1

end RuleBasedBrain

/-- How the question of a decision point came about: the brain decided it on a session with the
same transcript, and since then the tools have only become more. -/
def Recorded (isWord : Char → Bool) (job : JobSpec) (conduct : Conduct) (point : DecisionPoint) :
    Prop :=
  ∃ (call : Ambient) (shown : InterviewSession) (decision : AgentDecision) (covered : List String)
    (latencyMs : Nat),
    point.originalNext = decisionTurn call shown decision latencyMs ∧
    shown.turns = point.turns ∧ shown.counters = countQuestions point.turns ∧
    RuleBasedBrain.afterAnswer isWord shown job = .ok (decision, covered) ∧
    conduct.announced.find? (fun item => item.1 = some point.originalNext.id) =
      some (some point.originalNext.id, some (.ofList covered)) ∧
    shown.conduct.toolPayloads <+: conduct.toolPayloads

/-- The points that a replay has to reproduce. -/
def DecisionPoint.Adaptive (point : DecisionPoint) : Prop :=
  point.turn.flagged "artifact" = false ∧ point.originalNext.inLane .anchor = false

/-- What holds of every recorded interview whose transcript nobody corrected. -/
structure Replayable (isWord : Char → Bool) (job : JobSpec) (conduct : Conduct) : Prop where
  counted : conduct.Counted
  answered : Answered conduct.turns
  announced : ∀ item ∈ conduct.announced, ∃ turn ∈ conduct.turns, item.1 = some turn.id
  recorded : ∀ point ∈ decisionPointsFrom [] conduct.turns, point.Adaptive →
    Recorded isWord job conduct point

theorem Recorded.grow {isWord : Char → Bool} {job : JobSpec} {conduct conduct' : Conduct}
    {point : DecisionPoint} (h : Recorded isWord job conduct point)
    (hannounced : conduct.announced <+: conduct'.announced)
    (htools : conduct.toolPayloads <+: conduct'.toolPayloads) :
    Recorded isWord job conduct' point := by
  obtain ⟨call, shown, decision, covered, latencyMs, hnext, hturns, hcounters, hgiven, hfound,
    hpayloads⟩ := h
  obtain ⟨more, hmore⟩ := hannounced
  refine ⟨call, shown, decision, covered, latencyMs, hnext, hturns, hcounters, hgiven, ?_,
    hpayloads.trans htools⟩
  rw [← hmore, List.find?_append, hfound]
  rfl

/-- The recorded decision and the replayed one say the same. -/
structure DecisionComparison.Reproduced (comparison : DecisionComparison) : Prop where
  text : comparison.originalText = comparison.alternateText
  competencies : comparison.originalCompetencies = comparison.alternateCompetencies
  followup : comparison.originalFollowup = comparison.alternateFollowup
  complete : comparison.originalComplete = comparison.alternateComplete

def Turn.opensTool (turn : Turn) : Bool :=
  (turn.metadata.lookup "decision_reason").any (Json.isStr toolReason)

/-- For the question of the point, if it opened a tool, the session still has one to open. -/
def DecisionPoint.ToolRemains (session : InterviewSession) (job : JobSpec) (point : DecisionPoint) :
    Prop :=
  point.originalNext.opensTool = true →
    ∀ tag ∈ point.originalNext.competencyTags, (RuleBasedBrain.templateFor session job tag).isSome

theorem decisionTurn_opensTool (call : Ambient) (session : InterviewSession)
    (decision : AgentDecision) (latencyMs : Nat) :
    (decisionTurn call session decision latencyMs).opensTool = decide (decision.reason = toolReason) := by
  have hlookup : (decisionTurn call session decision latencyMs).metadata.lookup "decision_reason" =
      some (.str decision.reason) := rfl
  rw [Turn.opensTool, hlookup]
  rfl

theorem snapshot_covered {session : InterviewSession} {turns : List Turn} {originalNext : Turn}
    {covered : List String}
    (h : session.conduct.announced.find? (fun item => item.1 = some originalNext.id) =
      some (some originalNext.id, some (.ofList covered))) :
    (snapshotForDecision session turns originalNext).coveredCompetencies = covered := by
  have hfind := announced_find session.events originalNext.id
  have hlog : (session.events.map InterviewEvent.entry).filterMap LogEntry.announces =
      session.conduct.announced := rfl
  rw [hlog, h] at hfind
  obtain ⟨event, hevent, hpayload⟩ := Option.map_eq_some_iff.mp hfind.symm
  have hlookup : event.payload.lookup "covered_competencies" = some (.ofList covered) :=
    congrArg Prod.snd hpayload
  simp only [snapshotForDecision, hevent, Option.bind_some, hlookup, strings_ofList]

theorem laneFor_closing (decision : AgentDecision) :
    decide (laneFor decision = .closing) = decision.completesInterview := by
  unfold laneFor
  split
  next h => simp [h]
  next h => split <;> simp [h]

/-- A recorded point is reproduced exactly when a tool that it opened is there to open again. -/
theorem Recorded.reproduced {isWord : Char → Bool} {job : JobSpec} {session : InterviewSession}
    {point : DecisionPoint} {lexicon : Lexicon} {comparison : DecisionComparison}
    (h : Recorded isWord job session.conduct point)
    (hc : compareDecision lexicon session job (ruleBasedBrain isWord) point = .ok comparison) :
    comparison.Reproduced ↔ point.ToolRemains session job := by
  obtain ⟨call, shown, decision, covered, latencyMs, hnext, hturns, hcounters, hgiven, hfound,
    hpayloads⟩ := h
  have hsnapshot : (snapshotForDecision session point.turns point.originalNext).counters =
      shown.counters := by
    rw [snapshot_counters, hcounters]
  obtain ⟨again, covered', hagain, htext, hsame⟩ := RuleBasedBrain.afterAnswer_again hgiven
    (snapshotForDecision session point.turns point.originalNext) hturns.symm hsnapshot
    (snapshot_covered hfound) hpayloads
  have htool : point.ToolRemains session job ↔ (decision.reason = toolReason →
      (RuleBasedBrain.templateFor session job (RuleBasedBrain.active shown job)).isSome) := by
    unfold DecisionPoint.ToolRemains
    rw [hnext, decisionTurn_opensTool, decide_eq_true_eq]
    refine forall_congr' fun hreason => ?_
    show (∀ tag ∈ decision.competencyTags, _) ↔ _
    rw [RuleBasedBrain.afterAnswer_tool hgiven hreason]
    simp
  obtain ⟨reply, hreply, hc⟩ := bind_ok hc
  cases hagain.symm.trans hreply
  cases hc
  rw [htool]
  refine ⟨fun hreproduced => htext ?_, fun hremains => ?_⟩
  · have hsaid := hreproduced.text
    rw [hnext] at hsaid
    exact hsaid.symm
  · obtain ⟨hsaid, htags, hparent, hcompletes⟩ := hsame hremains
    refine ⟨?_, ?_, ?_, ?_⟩
    · rw [hnext]
      exact hsaid.symm
    · rw [hnext]
      exact congrArg sortedSet htags.symm
    · rw [hnext, hparent]
      rfl
    · rw [hnext, decisionTurn_inLane, laneFor_closing, hcompletes]

/-- More turns, all of them answered, keep the interview replayable if their own points are. -/
theorem Replayable.extend {isWord : Char → Bool} {job : JobSpec} {conduct conduct' : Conduct}
    (h : Replayable isWord job conduct) (hcounted : conduct'.Counted) {more : List Turn}
    (hturns : conduct'.turns = conduct.turns ++ more) (hm : Answered more)
    {announced : List (Option String × Option Json)}
    (hannounced : conduct'.announced = conduct.announced ++ announced)
    (hids : ∀ item ∈ announced, ∃ turn ∈ more, item.1 = some turn.id)
    (htools : conduct.toolPayloads <+: conduct'.toolPayloads)
    (hnew : ∀ point ∈ decisionPointsFrom conduct.turns more, point.Adaptive →
      Recorded isWord job conduct' point) : Replayable isWord job conduct' := by
  refine ⟨hcounted, ?_, fun item hi => ?_, fun point hp ha => ?_⟩
  · rw [hturns]
    exact h.answered.append hm
  · rw [hannounced] at hi
    rw [hturns]
    rcases List.mem_append.mp hi with hi | hi
    · obtain ⟨turn, ht, hid⟩ := h.announced item hi
      exact ⟨turn, List.mem_append_left _ ht, hid⟩
    · obtain ⟨turn, ht, hid⟩ := hids item hi
      exact ⟨turn, List.mem_append_right _ ht, hid⟩
  · rw [hturns, decisionPointsFrom_append [] h.answered, List.nil_append] at hp
    rcases List.mem_append.mp hp with hp | hp
    · have hprefix : conduct.announced <+: conduct'.announced := ⟨announced, hannounced.symm⟩
      exact (h.recorded point hp ha).grow hprefix htools
    · exact hnew point hp ha

theorem answered_question {question : Turn} (h : question.speaker = .interviewer) :
    Answered [question] :=
  ⟨fun hc => (by rw [h] at hc; cases hc), trivial⟩

theorem answered_exchange {candidate question : Turn} (h : question.evaluative = true) :
    Answered [candidate, question] := by
  have hs : question.speaker = .interviewer := by
    simp only [Turn.evaluative, Bool.and_eq_true, decide_eq_true_eq] at h
    exact h.1.1
  refine ⟨fun _ => ?_, answered_question hs⟩
  simp [isEvaluativeInterviewer_eq, h]

/-- An id that no turn has is announced by the new entry only. -/
theorem announced_new {conduct : Conduct} {id : String} (value : Option Json)
    (h : ∀ item ∈ conduct.announced, ∃ turn ∈ conduct.turns, item.1 = some turn.id)
    (hfresh : id ∉ conduct.turns.map Turn.id) :
    (conduct.announced ++ [(some id, value)]).find? (fun item => item.1 = some id) =
      some (some id, value) := by
  have hnone : conduct.announced.find? (fun item => item.1 = some id) = none := by
    rw [List.find?_eq_none]
    intro item hi hid
    obtain ⟨turn, ht, hturn⟩ := h item hi
    rw [hturn, decide_eq_true_eq, Option.some.injEq] at hid
    exact hfresh (List.mem_map.mpr ⟨turn, ht, hid⟩)
  rw [List.find?_append, hnone]
  simp

/-- A candidate turn and the decision on it. -/
theorem Replayable.exchange {isWord : Char → Bool} {job : JobSpec} {conduct : Conduct}
    (h : Replayable isWord job conduct) {candidate : Turn} (hc : candidate.speaker = .candidate)
    {call : Ambient} {shown : InterviewSession} {decision : AgentDecision} {covered : List String}
    {latencyMs : Nat} {opened : List (Dict Json)}
    (hshown : shown.conduct = { conduct with turns := conduct.turns ++ [candidate] })
    (hcounted : (shown.conduct.decided decision covered
      (decisionTurn call shown decision latencyMs) opened).Counted)
    (hnew : DecisionPoint.Adaptive
        ⟨shown.turns, candidate, decisionTurn call shown decision latencyMs⟩ →
      Recorded isWord job (shown.conduct.decided decision covered
          (decisionTurn call shown decision latencyMs) opened)
        ⟨shown.turns, candidate, decisionTurn call shown decision latencyMs⟩) :
    Replayable isWord job (shown.conduct.decided decision covered
      (decisionTurn call shown decision latencyMs) opened) := by
  have hturns : shown.turns = conduct.turns ++ [candidate] := congrArg Conduct.turns hshown
  have htools : shown.conduct.toolPayloads = conduct.toolPayloads := by rw [hshown]
  have hannounced : shown.conduct.announced = conduct.announced := by rw [hshown]
  have hquestion := decisionTurn_evaluative call shown decision latencyMs
  have hmore : shown.turns ++ [decisionTurn call shown decision latencyMs] =
      conduct.turns ++ [candidate, decisionTurn call shown decision latencyMs] := by
    rw [hturns, List.append_assoc]
    rfl
  refine h.extend hcounted hmore (answered_exchange hquestion)
    (congrArg (· ++ _) hannounced) (by simp) ?_ fun point hp ha => ?_
  · rw [← htools]
    exact List.prefix_append _ _
  · rw [decisionPointsFrom_exchange hc hquestion, ← hturns] at hp
    cases List.mem_singleton.mp hp
    exact hnew ha

/-- The turns that an operation adds get ids that no turn has. -/
def FreshTurns (call : Ambient) (session : InterviewSession) : Prop :=
  ∀ n < 2, call.uuid .turn (session.turns.length + n) ∉ session.turns.map Turn.id

section

variable [CanonicalDigest]

/-- The calls of a recording on `job`: the rule-based brain, and no correction. -/
def Records (isWord : Char → Bool) (job : JobSpec) (call : Call) (operation : Operation)
    (session : InterviewSession) : Prop :=
  call.job = some job ∧ call.brain = ruleBasedBrain isWord ∧
    operation.correction session = none ∧ FreshTurns call.toAmbient session

theorem Replayable.step {isWord : Char → Bool} {job job' : JobSpec} {call : Call}
    {operation : Operation} {session : InterviewSession} {conduct : Conduct}
    (hjob : call.job = some job') (ha : Records isWord job call operation session)
    (hs : Replayable isWord job session.conduct) (h : Conducts call job' session operation conduct) :
    Replayable isWord job conduct := by
  obtain ⟨hjob', hb, hcorrect, hfresh⟩ := ha
  cases hjob.symm.trans hjob'
  have hcounted := Counted.step ⟨isWord, hb⟩ hs.counted h
  cases h with
  | @started shown decision covered latencyMs opened _ hshown hd =>
    have hturns : shown.turns = session.turns := congrArg Conduct.turns hshown
    have hannounced := congrArg Conduct.announced hshown
    have htools := congrArg Conduct.toolPayloads hshown
    refine hs.extend hcounted (congrArg (· ++ _) hturns) (answered_question rfl)
      (congrArg (· ++ _) hannounced) (by simp) ?_ fun point hp => ?_
    · rw [← htools]
      exact List.prefix_append _ _
    · rw [decisionPointsFrom_question rfl] at hp
      cases hp
  | @answered text turnMetadata shown decision covered latencyMs opened hshown hd =>
    obtain ⟨_, hconduct⟩ := prepareAnswer_conduct hshown
    refine hs.exchange rfl hconduct hcounted fun hadaptive => ?_
    have hgiven : RuleBasedBrain.afterAnswer isWord shown job = .ok (decision, covered) := by
      rcases decideAfterAnswer_heard hd with hanchor | hreply
      · obtain ⟨chosen, _, rfl⟩ := nextAnchor_some hanchor
        have hlane := hadaptive.2
        rw [decisionTurn_inLane, anchorDecision_lane] at hlane
        cases hlane
      · rw [hb] at hreply
        exact hreply
    have hturns : shown.turns.length = session.turns.length + 1 := by
      rw [show shown.turns = _ from congrArg Conduct.turns hconduct, List.length_append]
      rfl
    have hannounced : shown.conduct.announced = session.conduct.announced := by rw [hconduct]
    refine ⟨call.toAmbient, shown, decision, covered, latencyMs, rfl, rfl,
      (BrainAsked.answer hshown).counted hs.counted, hgiven, ?_, List.prefix_append _ _⟩
    have hnew : (decisionTurn call.toAmbient shown decision latencyMs).id ∉
        session.conduct.turns.map Turn.id := by
      show call.uuid .turn shown.turns.length ∉ _
      rw [hturns]
      exact hfresh 1 (by omega)
    have hfound := announced_new (some (.ofList covered)) hs.announced hnew
    rw [← hannounced] at hfound
    exact hfound
  | @worked toolId request work decision covered opened hwork hd =>
    obtain ⟨_, artifact, hspeaker, hflag, hconduct⟩ := prepareTool_conduct hwork
    refine hs.exchange hspeaker hconduct hcounted fun hadaptive => ?_
    rw [hadaptive.1] at hflag
    cases hflag
  | replied _ hspeaker hflag =>
    refine hs.extend hcounted rfl (answered_question hspeaker) rfl (by simp)
      (List.prefix_refl _) fun point hp => ?_
    rw [decisionPointsFrom_question hspeaker] at hp
    cases hp
  | revised hc =>
    rw [hcorrect] at hc
    cases hc
  | opened _ payload =>
    refine hs.extend hcounted (List.append_nil _).symm trivial (List.append_nil _).symm (by simp)
      (List.prefix_append _ _) fun point hp => ?_
    cases hp
  | cancelled => exact ⟨hcounted, hs.answered, hs.announced, hs.recorded⟩
  | kept => exact hs

theorem History.replayable {isWord : Char → Bool} {job : JobSpec} {backend : Backend}
    {versions : List InterviewSession} (h : History backend (Records isWord job) versions) :
    ∀ session ∈ versions, Replayable isWord job session.conduct := by
  refine h.conduct_invariant ⟨fun _ => rfl, trivial, by simp, fun point hp => ?_⟩ ?_
  · cases hp
  · exact fun hjob ha hs hconducts => hs.step hjob ha hconducts

/-- Every recording can be compared with its own brain, and exactly the adaptive points that
opened a tool which is not there to open again are not reproduced. -/
theorem replay_reproduces_iff {isWord : Char → Bool} (lexicon : Lexicon) {job : JobSpec}
    {backend : Backend} {session : InterviewSession} {past : List InterviewSession}
    (h : History backend (Records isWord job) (session :: past)) :
    ∃ report, CounterfactualReplayer.compare lexicon session job (ruleBasedBrain isWord) = .ok report ∧
      ((List.Forall₂ (fun point comparison => point.Adaptive →
          DecisionComparison.Reproduced comparison) (decisionPoints session) report.comparisons) ↔
        ∀ point ∈ decisionPoints session, point.Adaptive → point.ToolRemains session job) := by
  have hreplayable := h.replayable session List.mem_cons_self
  have htotal : ∀ point ∈ decisionPoints session, ∃ comparison,
      compareDecision lexicon session job (ruleBasedBrain isWord) point = .ok comparison := by
    intro point hp
    obtain ⟨hmem, hspeaker⟩ := mem_decisionPointsFrom hp
    obtain ⟨reply, hreply⟩ := RuleBasedBrain.afterAnswer_total isWord
      (snapshotForDecision session point.turns point.originalNext) job hmem hspeaker
    have hgiven : (ruleBasedBrain isWord).afterAnswer
        (snapshotForDecision session point.turns point.originalNext) job = .ok reply := hreply
    unfold compareDecision
    simp only [hgiven]
    exact ⟨_, rfl⟩
  obtain ⟨comparisons, hcompared, hall⟩ := mapM_ok htotal
  have hreport : ∃ report, CounterfactualReplayer.compare lexicon session job (ruleBasedBrain isWord) = .ok report ∧
      report.comparisons = comparisons := by
    unfold CounterfactualReplayer.compare
    rw [hcompared]
    cases comparisons with
    | nil => exact ⟨_, rfl, rfl⟩
    | cons first rest => exact ⟨_, rfl, rfl⟩
  obtain ⟨report, hreport, hsame⟩ := hreport
  refine ⟨report, hreport, ?_⟩
  rw [hsame]
  refine forall₂_iff hall fun point hp comparison hc => forall_congr' fun hadaptive => ?_
  exact (hreplayable.recorded point hp hadaptive).reproduced hc

end

section Runs

attribute [local instance] checksumDigest

def asciiLexicon : Lexicon := ⟨asciiWord, id⟩

def workshopCall : Call :=
  { jobCall workshopJob (ruleBasedBrain asciiWord) with
    templates := [
      .static "note" .document "Design note" "Write it down." [],
      .static "sketch" .document "Sketch" "Draw it." []] }

/-- An answer that says enough. -/
def longAnswer : Operation := .answer ("I split the queue into shards, moved the hot keys to " ++
  "their own shard, and cut the tail latency in half within a week.") []

/-- No correction, and ids that no turn has. -/
def recordable (operation : Operation) (session : InterviewSession) : Bool :=
  (operation.correction session).isNone &&
    plainAmbient.uuid .turn session.turns.length ∉ session.turns.map Turn.id &&
    plainAmbient.uuid .turn (session.turns.length + 1) ∉ session.turns.map Turn.id

theorem recordable_records {allowed : Call → Operation → Prop} {call : Call} {operation : Operation}
    {session : InterviewSession} (ha : allowed call operation → call = workshopCall)
    (h : Checked recordable allowed call operation session) :
    Records asciiWord workshopJob call operation session := by
  obtain ⟨⟨_, hallowed⟩, hcheck⟩ := h
  rw [ha hallowed]
  simp only [recordable, Bool.and_eq_true, Option.isNone_iff_eq_none, decide_eq_true_eq] at hcheck
  obtain ⟨⟨hcorrect, hzero⟩, hone⟩ := hcheck
  refine ⟨rfl, rfl, hcorrect, fun n hn => ?_⟩
  cases n with
  | zero => exact hzero
  | succ n =>
    obtain rfl : n = 0 := by omega
    exact hone

/-- The only point is adaptive and opened a tool, and another one is left. -/
def reopens (session : InterviewSession) : Bool :=
  (decisionPoints session).map (fun point => point.originalNext.opensTool) = [true] &&
    (decisionPoints session).all fun point =>
      point.originalNext.competencyTags.all fun tag =>
        (RuleBasedBrain.templateFor session workshopJob tag).isSome

theorem replay_reproduces_reopened : ∃ session past report,
    History .memory (Records asciiWord workshopJob) (session :: past) ∧
    (decisionPoints session).map (fun point => point.originalNext.opensTool) = [true] ∧
    CounterfactualReplayer.compare asciiLexicon session workshopJob (ruleBasedBrain asciiWord) =
      .ok report ∧
    List.Forall₂ (fun point comparison => point.Adaptive →
      DecisionComparison.Reproduced comparison) (decisionPoints session) report.comparisons := by
  have hrun : (checkedRun recordable workshopJob .memory
      [(workshopCall, .start), (workshopCall, longAnswer)]).any
      (fun versions => versions.head?.any reopens) = true := by decide +kernel
  obtain ⟨session, past, hhistory, hcheck⟩ := checkedRun_last (fun call _ => call = workshopCall)
    (by simp) hrun
  have hrecords := hhistory.mono fun _ _ _ ha => recordable_records id ha
  simp only [reopens, Bool.and_eq_true, decide_eq_true_eq, List.all_eq_true] at hcheck
  obtain ⟨hopened, hremains⟩ := hcheck
  obtain ⟨report, hreport, hiff⟩ := replay_reproduces_iff asciiLexicon hrecords
  refine ⟨session, past, report, hrecords, hopened, hreport, hiff.mpr fun point hp _ _ => ?_⟩
  exact hremains point hp

/-- Both tools were opened, and the first point is not reproduced. -/
def forgets (session : InterviewSession) : Bool :=
  match decisionPoints session,
    CounterfactualReplayer.compare asciiLexicon session workshopJob (ruleBasedBrain asciiWord) with
  | point :: _, .ok report =>
    !point.turn.flagged "artifact" && !point.originalNext.inLane .anchor &&
      report.comparisons.head?.any fun comparison =>
        comparison.originalText ≠ comparison.alternateText
  | _, _ => false

/-- The snapshot holds the tools that were opened after its turn. -/
theorem replay_forgets_tools :
    ¬∀ isWord lexicon job backend session past report,
      History backend (Records isWord job) (session :: past) →
      CounterfactualReplayer.compare lexicon session job (ruleBasedBrain isWord) = .ok report →
      List.Forall₂ (fun point comparison => point.Adaptive →
        DecisionComparison.Reproduced comparison) (decisionPoints session) report.comparisons := by
  intro hclaim
  have hrun : (checkedRun recordable workshopJob .memory
      [(workshopCall, .start), (workshopCall, longAnswer), (workshopCall, longAnswer)]).any
      (fun versions => versions.head?.any forgets) = true := by decide +kernel
  obtain ⟨session, past, hhistory, hcheck⟩ := checkedRun_last (fun call _ => call = workshopCall)
    (by simp) hrun
  have hrecords := hhistory.mono fun _ _ _ ha => recordable_records id ha
  unfold forgets at hcheck
  split at hcheck
  next point points report hpoints hreport =>
    have hall := hclaim _ _ _ _ _ _ _ hrecords hreport
    rw [hpoints] at hall
    cases hcomparisons : report.comparisons with
    | nil => simp [hcomparisons] at hcheck
    | cons comparison rest =>
      rw [hcomparisons] at hall hcheck
      simp only [Bool.and_eq_true, Bool.not_eq_true', List.head?_cons, Option.any_some,
        decide_eq_true_eq] at hcheck
      obtain ⟨⟨hartifact, hlane⟩, hdiffers⟩ := hcheck
      obtain ⟨hfirst, _⟩ := List.forall₂_cons.mp hall
      exact hdiffers (hfirst ⟨hartifact, hlane⟩).text
  next => cases hcheck

end Runs

end NoraInterviewer
