import NoraInterviewer.RequestedTools
import NoraInterviewer.Coverage

/-! Nothing in `answer` raises for a running interview under the rule-based brain. -/

namespace NoraInterviewer

open ExceptRules

/-- The calls of an interview on `job` under the rule-based brain, without a judge, that answer or
control it; ids are new. -/
structure Examined (isWord : Char → Bool) (templates : List ToolTemplate) (job : JobSpec) (call : Call)
    (session : InterviewSession) : Prop where
  job : call.job = some job
  brain : call.brain = ruleBasedBrain isWord
  judge : call.judge.judgeId = "disabled"
  templates : call.templates = templates
  turnIds : FreshTurnIds call.toAmbient session
  toolIds : call.uuid .tool session.tools.length ∉ session.tools.map ToolInvocation.id

section

variable [CanonicalDigest] {call : Call} {job : JobSpec} {isWord : Char → Bool}

omit [CanonicalDigest] in
theorem find?_reverse_id {turns : List Turn} (hids : (turns.map Turn.id).Nodup) {turn : Turn}
    (hm : turn ∈ turns) : (turns.reverse.find? fun other => other.id = turn.id) = some turn := by
  have hreversed : (turns.reverse.map Turn.id).Nodup := by
    rw [List.map_reverse]
    exact List.nodup_reverse.mpr hids
  exact find?_of_nodup hreversed (List.mem_reverse.mpr hm)

omit [CanonicalDigest] in
/-- A claim about a question and an answer that are in the transcript is recorded. -/
theorem recordCandidateClaim_of (call : Ambient) {session : InterviewSession}
    (hids : (session.turns.map Turn.id).Nodup) {question answer : Turn}
    (hq : question ∈ session.turns) (ha : answer ∈ session.turns)
    (hqs : question.speaker = .interviewer) (has : answer.speaker = .candidate)
    (competencyIds : List String) :
    ∃ graph created, recordCandidateClaim call session question.id answer.id competencyIds =
      .ok ({ session with evidenceGraph := graph }, created) := by
  unfold recordCandidateClaim
  simp only [find?_reverse_id hids hq, find?_reverse_id hids ha, hqs, has]
  exact ⟨_, _, rfl⟩

theorem recordClaimEvents_of (call : Ambient) (candidate : Turn) (items : List EvidenceItem)
    {session : InterviewSession} (h : Appendable session.events) :
    ∃ events, recordClaimEvents call candidate items session =
      .ok { session with events := events } ∧ Appendable events := by
  induction items generalizing session with
  | nil => exact ⟨session.events, rfl, h⟩
  | cons item rest ih =>
    obtain ⟨events, hevents, happ⟩ :=
      h.append call .evidenceObserved (some candidate) (claimPayload item)
    have hnext : Appendable { session with events := events }.events := happ
    obtain ⟨final, hfinal, hlast⟩ := ih hnext
    refine ⟨final, ?_, hlast⟩
    unfold recordClaimEvents
    rw [hevents]
    exact hfinal

/-- Without a judge the evidence of an answer is its claims. -/
theorem recordAnswerEvidence_of (hjudge : call.judge.judgeId = "disabled")
    {session : InterviewSession} (happ : Appendable session.events)
    (hids : (session.turns.map Turn.id).Nodup) {question : Option Turn} {candidate : Turn}
    (hq : ∀ turn, question = some turn → turn ∈ session.turns ∧ turn.speaker = .interviewer)
    (hc : candidate ∈ session.turns) (hs : candidate.speaker = .candidate) :
    ∃ shown, recordAnswerEvidence call session job question candidate = .ok shown ∧
      Appendable shown.events := by
  unfold recordAnswerEvidence
  cases question with
  | none => exact ⟨session, rfl, happ⟩
  | some question =>
    simp only
    split
    next => exact ⟨session, rfl, happ⟩
    next =>
      obtain ⟨hmem, hspeaker⟩ := hq question rfl
      obtain ⟨graph, created, hclaimed⟩ := recordCandidateClaim_of call.toAmbient hids hmem hc
        hspeaker hs question.competencyTags
      have hkept : Appendable { session with evidenceGraph := graph }.events := happ
      obtain ⟨events, hevents, hlast⟩ := recordClaimEvents_of call.toAmbient candidate created hkept
      have hjudged : judgeCandidateEvidence call
          { session with evidenceGraph := graph, events := events } job question candidate =
            .ok ({ session with evidenceGraph := graph, events := events }, none) := by
        unfold judgeCandidateEvidence
        simp only [hjudge, if_true]
      rw [hclaimed]
      simp only [ok_bind, hevents, hjudged]
      exact ⟨_, rfl, hlast⟩

theorem prepareAnswer_of (job : JobSpec) (hjudge : call.judge.judgeId = "disabled") {session : InterviewSession}
    (hactive : session.active) (hpaused : session.paused = false) (hsealed : Sealed session.events)
    (hids : (session.turns.map Turn.id).Nodup) (hfresh : FreshTurnIds call.toAmbient session)
    (text : String) (turnMetadata : Dict Json) :
    ∃ shown, prepareAnswer call session job text turnMetadata = .ok shown ∧
      Appendable shown.events := by
  unfold prepareAnswer
  rw [if_neg hactive.1, if_neg hactive.2, if_neg (by simp [hpaused])]
  let candidate := answerTurn call.toAmbient session.turns text turnMetadata
  let answered := { session with
    turns := session.turns ++ [candidate]
    sharedMetadata := session.sharedMetadata ++ [(session.events.length, session.turns.length)] }
  have hopen : Appendable answered.events := hsealed.appendable
  obtain ⟨events, hevents, happ⟩ := hopen.append call.toAmbient .candidateTurn (some candidate) [
    ("parent_turn_id", .ofOption candidate.parentTurnId),
    ("metadata", .obj candidate.metadata)]
  have hrecorded : recordAnswerTurn call.toAmbient session text turnMetadata =
      .ok ({ answered with events := events }, candidate) := by
    show (appendEvent call.toAmbient answered .candidateTurn (some candidate) [
      ("parent_turn_id", .ofOption candidate.parentTurnId),
      ("metadata", .obj candidate.metadata)] >>= fun session => pure (session, candidate)) = _
    rw [hevents]
    rfl
  have hnodup : ((session.turns ++ [candidate]).map Turn.id).Nodup := hfresh.nodup_one hids rfl
  have hquestion : ∀ turn, previousQuestion session = some turn →
      turn ∈ session.turns ++ [candidate] ∧ turn.speaker = .interviewer := by
    intro turn hturn
    have hmem := List.mem_reverse.mp (List.mem_of_find?_eq_some hturn)
    have hevaluative := List.find?_some hturn
    simp only [Turn.evaluative, Bool.and_eq_true, decide_eq_true_eq] at hevaluative
    exact ⟨List.mem_append_left _ hmem, hevaluative.1.1⟩
  simp only [hrecorded, ok_bind]
  exact recordAnswerEvidence_of hjudge happ hnodup hquestion
    (List.mem_append_right _ List.mem_cons_self) rfl

theorem applyDecision_of (ambient : Ambient) {session : InterviewSession}
    (h : Appendable session.events) (decision : AgentDecision) (latencyMs : Nat) :
    ∃ result, applyDecision ambient session decision latencyMs = .ok result := by
  let turn := decisionTurn ambient session decision latencyMs
  let counted := countDecision { session with turns := session.turns ++ [turn] } decision
  have hopen : Appendable counted.events := h
  obtain ⟨events, hevents, _⟩ :=
    hopen.append ambient .interviewerTurn (some turn) (decisionPayload counted decision)
  refine ⟨({ counted with events := events }, turn), ?_⟩
  unfold applyDecision
  show (appendEvent ambient counted .interviewerTurn (some turn) (decisionPayload counted decision) >>=
    fun session => pure (session, turn)) = _
  rw [hevents]
  rfl

omit [CanonicalDigest] in
/-- The rule-based brain always goes on after a candidate turn. -/
theorem decideAfterAnswer_of (job : JobSpec) (hb : call.brain = ruleBasedBrain isWord) {shown : InterviewSession}
    {turn : Turn} (hm : turn ∈ shown.turns) (hs : turn.speaker = .candidate) :
    ∃ decision latencyMs covered, decideAfterAnswer call shown job =
      .ok ({ shown with coveredCompetencies := covered }, decision, latencyMs) := by
  have hreply : ∃ reply, RuleBasedBrain.afterAnswer isWord shown job = .ok reply := by
    unfold RuleBasedBrain.afterAnswer
    split
    next hnone =>
      rw [List.getLast?_eq_none_iff, List.filter_eq_nil_iff] at hnone
      exact absurd hs (by simpa using hnone turn hm)
    next =>
      simp only
      split
      next => exact ⟨_, rfl⟩
      next =>
        split
        next => exact ⟨_, rfl⟩
        next => exact ⟨_, rfl⟩
  obtain ⟨⟨adaptive, covered⟩, hreply⟩ := hreply
  have hgiven : liftRaised (call.brain.afterAnswer shown job) = .ok (adaptive, covered) := by
    rw [hb]
    exact congrArg liftRaised hreply
  unfold decideAfterAnswer
  rw [hgiven]
  simp only [ok_bind]
  split
  next => exact ⟨_, _, covered, rfl⟩
  next => exact ⟨_, _, covered, rfl⟩

/-- An answer to a session that goes on is accepted, the tool that it may ask for included. -/
theorem Examined.answers {templates : List ToolTemplate} {raw : JobSpec}
    {organizationId : Option String} {session : InterviewSession}
    (h : Examined isWord templates job call session)
    (hcreated : createJob templates raw organizationId = .ok job) (hactive : session.active)
    (hpaused : session.paused = false) (hsealed : Sealed session.events)
    (hids : (session.turns.map Turn.id).Nodup) (hknown : KnownTags job session.turns session.tools)
    (text : String) (turnMetadata : Dict Json) :
    ∃ session', mutate call (.answer text turnMetadata) session = .ok (some session') := by
  have hbuiltIn : BuiltIn call.brain := Or.inl ⟨isWord, h.brain⟩
  obtain ⟨shown, hshown, happ⟩ := prepareAnswer_of job h.judge hactive hpaused hsealed hids
    h.turnIds text turnMetadata
  have hturns : shown.turns =
      session.turns ++ [answerTurn call.toAmbient session.turns text turnMetadata] :=
    congrArg Conduct.turns (prepareAnswer_conduct hshown).2
  have hlast : answerTurn call.toAmbient session.turns text turnMetadata ∈ shown.turns := by
    simp [hturns]
  obtain ⟨decision, latencyMs, covered, hdecided⟩ := decideAfterAnswer_of job h.brain hlast rfl
  have hopen : Appendable { shown with coveredCompetencies := covered }.events := happ
  obtain ⟨⟨asked, turn⟩, hasked⟩ := applyDecision_of call.toAmbient hopen decision latencyMs
  have hreaches := Reaches.answered hshown hdecided hasked
  obtain ⟨hlawful, hstill, hlogged, htools, hturn⟩ := hreaches.asks hbuiltIn.lawful
  obtain ⟨finish, hmutate, hfinish⟩ := hreaches.mutate_eq h.job
  have hlength := congrArg List.length htools
  rw [List.length_map, List.length_map] at hlength
  have hgrant : decision.Grantable call.templates job := by
    intro request hr
    obtain ⟨_, _, allowed, hallowed, _⟩ := hlawful request hr
    have hsame : allowed.templateId = request.templateId := by simpa using List.find?_some hallowed
    rw [h.templates, ← hsame]
    exact ⟨createJob_registered hcreated allowed (List.mem_of_find?_eq_some hallowed),
      hreaches.known hbuiltIn.follows hknown⟩
  have hid : call.uuid .tool (countFollowup asked decision).tools.length ∉
      (countFollowup asked decision).tools.map ToolInvocation.id := by
    rw [hlength, htools]
    exact h.toolIds
  obtain ⟨result, hopened, hafter⟩ := openRequestedTool_of hlawful hstill hlogged hid hturn hgrant
  obtain ⟨session', hcommits⟩ := hfinish result hafter
  exact ⟨session', by rw [hmutate, hopened]; exact hcommits⟩

end

end NoraInterviewer
