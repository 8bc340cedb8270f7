import NoraInterviewer.Precedence
import NoraInterviewer.ToolLifecycle
import NoraInterviewer.ControlTargets
import NoraInterviewer.StartedFirst
import NoraInterviewer.QuestionBudget

namespace NoraInterviewer

open ExceptRules Precedence

/-- The latest candidate turn. -/
def latestCandidate (turns : List Turn) : Option Turn :=
  turns.reverse.find? fun turn => turn.speaker = .candidate

/-- How a turn is tied to the turns before it. -/
structure Placed (before : List Turn) (turn : Turn) : Prop where
  parent : ∀ id, turn.parentTurnId = some id → id ∈ before.map Turn.id
  answer : turn.speaker = .candidate → turn.flagged "artifact" = false →
    ∃ question, before.reverse.find? Turn.evaluative = some question ∧
      turn.parentTurnId = some question.id
  followUp : turn.speaker = .interviewer → ∀ id, turn.parentTurnId = some id →
    ∃ candidate, latestCandidate before = some candidate ∧ candidate.id = id

/-- The turns and the tools are about competencies of the job only. -/
structure KnownTags (job : JobSpec) (turns : List Turn) (tools : List ToolInvocation) : Prop where
  turns : ∀ turn ∈ turns, ∀ tag ∈ turn.competencyTags, tag ∈ job.competencyIds
  tools : ∀ tool ∈ tools, ∀ tag ∈ tool.competencyTags, tag ∈ job.competencyIds

/-- The lineage of the turns and tools of a session. -/
structure Lineage (job : JobSpec) (session : InterviewSession) : Prop where
  ids : (session.turns.map Turn.id).Nodup
  placed : EachAfter Placed session.turns
  tags : KnownTags job session.turns session.tools

/-- What of a turn its place depends on. -/
structure Place where
  id : String
  speaker : Speaker
  parentTurnId : Option String
  evaluative : Bool
  artifact : Bool

def Turn.place (turn : Turn) : Place :=
  ⟨turn.id, turn.speaker, turn.parentTurnId, turn.evaluative, turn.flagged "artifact"⟩

theorem placed_keyed : Keyed Turn.place Placed := by
  intro before before' turn turn' hsame hturn h
  have hids : before'.map Turn.id = before.map Turn.id := by
    have hplaces := congrArg (List.map Place.id) hsame
    rwa [List.map_map, List.map_map] at hplaces
  have hparent : turn'.parentTurnId = turn.parentTurnId := congrArg Place.parentTurnId hturn
  have hspeaker : turn'.speaker = turn.speaker := congrArg Place.speaker hturn
  have hartifact : turn'.flagged "artifact" = turn.flagged "artifact" :=
    congrArg Place.artifact hturn
  refine ⟨?_, ?_, ?_⟩
  · rw [hparent, hids]
    exact h.parent
  · rw [hspeaker, hartifact, hparent]
    intro hs ha
    obtain ⟨question, hq, hid⟩ := h.answer hs ha
    obtain ⟨question', hq', hplace⟩ :=
      find?_reverse_congr (fun _ _ he => congrArg Place.evaluative he) hsame hq
    refine ⟨question', hq', hid.trans ?_⟩
    exact congrArg (fun place => some place.id) hplace.symm
  · rw [hspeaker, hparent]
    intro hs id hid
    obtain ⟨candidate, hc, hid⟩ := h.followUp hs id hid
    obtain ⟨candidate', hc', hplace⟩ := find?_reverse_congr
      (fun _ _ he => congrArg (fun place => decide (place.speaker = .candidate)) he) hsame hc
    exact ⟨candidate', hc', (congrArg Place.id hplace).trans hid⟩

/-- A correction leaves every turn in its place. -/
theorem revisedTurns_place {session : InterviewSession} {index : Nat} {turn : Turn}
    (ht : session.turns[index]? = some turn) (revision : TranscriptRevision) :
    (revisedTurns session index turn revision).map Turn.place = session.turns.map Turn.place := by
  refine modify_map_at _ _ fun item hitem => ?_
  rw [ht] at hitem
  cases hitem
  have hflag : ∀ key, key ≠ "transcript_revision_count" → key ≠ "transcript_revision_id" →
      ({ turn with
        text := revision.correctedText
        metadata := correctedMetadata { session with
          transcriptRevisions := session.transcriptRevisions ++ [revision] } turn revision } :
        Turn).flagged key = turn.flagged key := by
    intro key hcount hid
    unfold Turn.flagged correctedMetadata
    rw [Dict.lookup_set_ne hcount, Dict.lookup_set_ne hid]
  unfold Turn.place Turn.evaluative
  rw [hflag "artifact" (by decide) (by decide), hflag "non_evaluative" (by decide) (by decide),
    hflag "candidate_control" (by decide) (by decide)]

/-- What a decision names of the job and of the transcript that it is given on. -/
structure Follows (job : JobSpec) (turns : List Turn) (decision : AgentDecision) : Prop where
  parent : ∀ id, decision.parentTurnId = some id →
    ∃ candidate, latestCandidate turns = some candidate ∧ candidate.id = id
  tags : ∀ tag ∈ decision.competencyTags, tag ∈ job.competencyIds

theorem Follows.placed {job : JobSpec} {session : InterviewSession} {decision : AgentDecision}
    (h : Follows job session.turns decision) (call : Ambient) (latencyMs : Nat) :
    Placed session.turns (decisionTurn call session decision latencyMs) := by
  refine ⟨fun id hid => ?_, fun hs => ?_, fun _ => h.parent⟩
  · obtain ⟨candidate, hc, rfl⟩ := h.parent id hid
    exact List.mem_map_of_mem (find?_reverse_mem hc).1
  · cases hs

theorem Follows.unparented {job : JobSpec} {turns : List Turn} {decision : AgentDecision}
    (hp : decision.parentTurnId = none)
    (ht : ∀ tag ∈ decision.competencyTags, tag ∈ job.competencyIds) :
    Follows job turns decision := by
  refine ⟨fun id hid => ?_, ht⟩
  rw [hp] at hid
  cases hid

/-- A decision that asks about one competency. -/
theorem known_of_singleton {job : JobSpec} {id : String} (h : id ∈ job.competencyIds) :
    ∀ tag ∈ [id], tag ∈ job.competencyIds := by
  intro tag htag
  rw [List.mem_singleton.mp htag]
  exact h

theorem JobSpec.first_known (job : JobSpec) : job.first.id ∈ job.competencyIds :=
  List.mem_map_of_mem (List.head_mem job.competencies_ne_nil)

/-- An anchor names its own competency and no turn. -/
theorem nextAnchor_follows {session : InterviewSession} {job : JobSpec} {decision : AgentDecision}
    (h : nextAnchor session job = some decision) (turns : List Turn) :
    Follows job turns decision := by
  obtain ⟨chosen, hchosen, rfl⟩ := nextAnchor_some h
  have hknown : chosen.id ∈ job.competencyIds :=
    List.mem_map_of_mem (List.mem_of_mem_filter hchosen)
  exact .unparented rfl (known_of_singleton hknown)

namespace RuleBasedBrain

theorem active_known {session : InterviewSession} {job : JobSpec}
    (hk : ∀ turn ∈ session.turns, ∀ tag ∈ turn.competencyTags, tag ∈ job.competencyIds) :
    active session job ∈ job.competencyIds := by
  unfold active
  split
  next tag rest hquestion =>
    obtain ⟨question, hq, htags⟩ := Option.map_eq_some_iff.mp hquestion
    have hmem : question ∈ session.turns :=
      List.mem_of_mem_dropLast (find?_reverse_mem hq).1
    refine hk question hmem tag ?_
    rw [htags]
    exact List.mem_cons_self
  next => exact job.first_known

theorem latest_eq (turns : List Turn) :
    (turns.filter fun turn => turn.speaker = .candidate).getLast? = latestCandidate turns := by
  rw [latestCandidate, ← List.head?_filter, List.filter_reverse, List.head?_reverse]

theorem advance_follows {session : InterviewSession} {job : JobSpec} {latest : Turn}
    {covered : List String} (hlatest : latestCandidate session.turns = some latest)
    (hactive : active session job ∈ job.competencyIds) :
    Follows job session.turns (advance session job latest covered) := by
  unfold advance
  split
  next =>
    exact ⟨fun id hid => ⟨latest, hlatest, Option.some.inj hid⟩, known_of_singleton hactive⟩
  next =>
    split
    next => exact .unparented rfl fun tag htag => (by cases htag)
    next next hnext =>
      have hknown : next.id ∈ job.competencyIds :=
        List.mem_map_of_mem (List.mem_of_find?_eq_some hnext)
      exact .unparented rfl (known_of_singleton hknown)

theorem afterAnswer_follows {isWord : Char → Bool} {session : InterviewSession} {job : JobSpec}
    {reply : AgentDecision × List String}
    (hk : ∀ turn ∈ session.turns, ∀ tag ∈ turn.competencyTags, tag ∈ job.competencyIds)
    (h : afterAnswer isWord session job = .ok reply) : Follows job session.turns reply.1 := by
  have hactive := active_known hk
  unfold afterAnswer at h
  rw [latest_eq] at h
  split at h
  next => cases h
  next latest hlatest =>
    simp only at h
    split at h
    next =>
      cases h
      exact .unparented rfl fun tag htag => (by cases htag)
    next =>
      split at h
      next =>
        cases h
        exact ⟨fun id hid => ⟨latest, hlatest, Option.some.inj hid⟩, known_of_singleton hactive⟩
      next =>
        cases h
        exact advance_follows hlatest hactive

theorem afterTool_follows {session : InterviewSession} {job : JobSpec}
    {invocation : ToolInvocation} {submission : ToolSubmission} {evaluation : ToolEvaluation}
    {reply : AgentDecision × List String} {before : List Turn} {turn : Turn}
    (ht : session.turns = before ++ [turn]) (hs : turn.speaker = .candidate)
    (hi : (turn.metadata.lookup "tool_submission_id").any (Json.isStr submission.id) = true)
    (hk : ∀ tag ∈ invocation.competencyTags, tag ∈ job.competencyIds)
    (h : afterTool session job invocation submission evaluation = .ok reply) :
    Follows job session.turns reply.1 := by
  cases h
  have hfound : artifactTurn session submission = some turn := by
    rw [artifactTurn, ht, List.reverse_append, List.reverse_singleton, List.singleton_append,
      List.find?_cons_of_pos]
    rw [hs, hi]
    rfl
  have hlatest : latestCandidate session.turns = some turn := by
    rw [latestCandidate, ht, List.reverse_append, List.reverse_singleton, List.singleton_append,
      List.find?_cons_of_pos]
    rw [hs]
    rfl
  refine ⟨fun id hid => ?_, fun tag htag => ?_⟩
  · simp only [hfound] at hid
    exact ⟨turn, hlatest, Option.some.inj hid⟩
  · simp only at htag
    split at htag
    next => exact known_of_singleton job.first_known tag htag
    next => exact hk tag htag

end RuleBasedBrain

namespace LlmBrain

theorem check_known {session : InterviewSession} {job : JobSpec} {output checked : BrainOutput}
    (h : check session job output = .ok checked) :
    checked = output ∧ ∀ id ∈ output.competencyIds, id ∈ job.competencyIds := by
  unfold check at h
  simp only at h
  obtain ⟨hknown, h⟩ := ite_error_ok h
  obtain ⟨_, h⟩ := ite_error_ok h
  have hids : ∀ id ∈ output.competencyIds, id ∈ job.competencyIds := fun id hid => by
    simpa using List.filter_eq_nil_iff.mp (not_not.mp hknown) id hid
  refine ⟨?_, hids⟩
  split at h
  next =>
    unfold checkTool at h
    obtain ⟨_, h⟩ := ite_error_ok h
    simp only at h
    split at h
    next => cases h
    next =>
      obtain ⟨_, h⟩ := ite_error_ok h
      obtain ⟨_, h⟩ := ite_error_ok h
      obtain ⟨_, h⟩ := ite_error_ok h
      cases h
      rfl
  next =>
    obtain ⟨_, h⟩ := ite_error_ok h
    cases h
    rfl

theorem toDecision_follows {output : BrainOutput} {session : InterviewSession} {job : JobSpec}
    {allowParent : Bool} {decision : AgentDecision}
    (hk : ∀ id ∈ output.competencyIds, id ∈ job.competencyIds)
    (h : toDecision output session job allowParent = .ok decision) :
    Follows job session.turns decision := by
  unfold toDecision at h
  split at h
  next =>
    cases h
    exact .unparented rfl fun tag htag => (by cases htag)
  next =>
    split at h
    next =>
      split at h
      next => cases h
      next latest hlatest =>
        have hfound : NoraInterviewer.latestCandidate session.turns = some latest := by
          split at hlatest
          next => exact hlatest
          next => cases hlatest
        split at h
        next =>
          split at h
          next => cases h
          next =>
            cases h
            exact ⟨fun id hid => ⟨latest, hfound, Option.some.inj hid⟩, hk⟩
        next =>
          cases h
          exact ⟨fun id hid => ⟨latest, hfound, Option.some.inj hid⟩, hk⟩
    next =>
      cases h
      exact .unparented rfl hk

/-- Whatever the model replies, a decision that passes follows the transcript. -/
theorem decided_follows {model : Model} {phase : Phase} {session : InterviewSession} {job : JobSpec}
    {output : BrainOutput} {allowParent : Bool} {decision : AgentDecision}
    (hc : complete model phase session job = .ok output)
    (h : toDecision output session job allowParent = .ok decision) :
    Follows job session.turns decision := by
  obtain ⟨raw, _, hchecked⟩ := bind_ok hc
  obtain ⟨rfl, hknown⟩ := check_known hchecked
  exact toDecision_follows hknown h

theorem openingOutput_ids (output : BrainOutput) :
    (openingOutput output).competencyIds = output.competencyIds := by
  unfold openingOutput
  split
  next => rfl
  next => rfl

end LlmBrain

/-- What a brain decides on an occasion follows the transcript it was shown. -/
structure Brain.Follows (brain : Brain) : Prop where
  opening : ∀ {session job reply}, brain.opening session job = .ok reply →
    NoraInterviewer.Follows job session.turns reply.1
  afterAnswer : ∀ {session job reply},
    (∀ turn ∈ session.turns, ∀ tag ∈ turn.competencyTags, tag ∈ job.competencyIds) →
    brain.afterAnswer session job = .ok reply → NoraInterviewer.Follows job session.turns reply.1
  afterTool : ∀ {session job invocation submission evaluation reply before turn},
    session.turns = before ++ [turn] → turn.speaker = .candidate →
    (turn.metadata.lookup "tool_submission_id").any (Json.isStr submission.id) = true →
    (∀ tag ∈ invocation.competencyTags, tag ∈ job.competencyIds) →
    brain.afterTool session job invocation submission evaluation = .ok reply →
    NoraInterviewer.Follows job session.turns reply.1

theorem ruleBasedBrain_follows (isWord : Char → Bool) : (ruleBasedBrain isWord).Follows where
  opening := by
    intro session job reply h
    cases h
    exact .unparented rfl (known_of_singleton job.first_known)
  afterAnswer := RuleBasedBrain.afterAnswer_follows
  afterTool := RuleBasedBrain.afterTool_follows

theorem llmBrain_follows (model : Model) : (llmBrain model).Follows where
  opening := by
    intro session job reply h
    obtain ⟨output, houtput, h⟩ := bind_ok h
    obtain ⟨decision, hd, h⟩ := bind_ok h
    cases h
    obtain ⟨raw, _, hchecked⟩ := bind_ok houtput
    obtain ⟨rfl, hknown⟩ := LlmBrain.check_known hchecked
    refine LlmBrain.toDecision_follows ?_ hd
    rw [LlmBrain.openingOutput_ids]
    exact hknown
  afterAnswer := by
    intro session job reply _ h
    obtain ⟨output, houtput, h⟩ := bind_ok h
    obtain ⟨decision, hd, h⟩ := bind_ok h
    cases h
    exact LlmBrain.decided_follows houtput hd
  afterTool := by
    intro session job invocation submission evaluation reply before turn _ _ _ _ h
    obtain ⟨output, houtput, h⟩ := bind_ok h
    obtain ⟨decision, hd, h⟩ := bind_ok h
    cases h
    exact LlmBrain.decided_follows houtput hd

theorem Follows.degraded {job : JobSpec} {turns : List Turn} {decision : AgentDecision}
    (h : Follows job turns decision) (e : Raised) :
    Follows job turns (FallbackBrain.degraded decision e) :=
  ⟨h.parent, h.tags⟩

theorem fallbackBrain_follows {primary fallback : Brain} (hp : primary.Follows)
    (hf : fallback.Follows) : (fallbackBrain primary fallback).Follows where
  opening h := FallbackBrain.reply_gives (fun _ hr => hp.opening hr)
    (fun _ hr e => (hf.opening hr).degraded e) h
  afterAnswer hk h := FallbackBrain.reply_gives (fun _ hr => hp.afterAnswer hk hr)
    (fun _ hr e => (hf.afterAnswer hk hr).degraded e) h
  afterTool ht hs hi hk h := FallbackBrain.reply_gives (fun _ hr => hp.afterTool ht hs hi hk hr)
    (fun _ hr e => (hf.afterTool ht hs hi hk hr).degraded e) h

theorem BuiltIn.follows {brain : Brain} (h : BuiltIn brain) : brain.Follows := by
  rcases h with ⟨isWord, rfl⟩ | hmodel
  · exact ruleBasedBrain_follows isWord
  · cases hmodel with
    | alone model => exact llmBrain_follows model
    | fallback model isWord =>
      exact fallbackBrain_follows (llmBrain_follows model) (ruleBasedBrain_follows isWord)

variable {call : Call} {job : JobSpec}

theorem openingDecision_follows
    {shown decided : InterviewSession} {decision : AgentDecision} {latencyMs : Nat}
    (hb : call.brain.Follows)
    (h : openingDecision call shown job = .ok (decided, decision, latencyMs)) :
    Follows job shown.turns decision := by
  unfold openingDecision at h
  split at h
  next hanchor =>
    cases h
    exact nextAnchor_follows hanchor _
  next =>
    obtain ⟨reply, hreply, h⟩ := bind_ok h
    cases h
    exact hb.opening (liftRaised_ok hreply)

theorem decideAfterAnswer_follows
    {shown decided : InterviewSession} {decision : AgentDecision} {latencyMs : Nat}
    (hb : call.brain.Follows)
    (hk : ∀ turn ∈ shown.turns, ∀ tag ∈ turn.competencyTags, tag ∈ job.competencyIds)
    (h : decideAfterAnswer call shown job = .ok (decided, decision, latencyMs)) :
    Follows job shown.turns decision := by
  obtain ⟨⟨adaptive, covered⟩, hreply, h⟩ := bind_ok h
  have hfollows : Follows job shown.turns adaptive :=
    hb.afterAnswer hk (liftRaised_ok hreply)
  simp only at h
  split at h
  next =>
    cases h
    exact hfollows
  next =>
    cases h
    cases hanchor : nextAnchor { shown with coveredCompetencies := covered } job with
    | none => exact hfollows
    | some anchor => exact nextAnchor_follows hanchor _

/-- The brain that is shown a submission finds the artifact turn last. -/
theorem decideAfterTool_follows {session : InterviewSession}
    {work : ToolWork} {decided : InterviewSession} {decision : AgentDecision}
    (hb : call.brain.Follows)
    (ht : work.session.turns = session.turns ++
      [artifactTurn call.toAmbient session work.invocation work.submission])
    (hk : ∀ tag ∈ work.invocation.competencyTags, tag ∈ job.competencyIds)
    (h : decideAfterTool call work job = .ok (decided, decision)) :
    Follows job work.session.turns decision := by
  obtain ⟨⟨given, covered⟩, hreply, h⟩ := bind_ok h
  cases h
  have hnamed : ((artifactTurn call.toAmbient session work.invocation
      work.submission).metadata.lookup "tool_submission_id").any
        (Json.isStr work.submission.id) = true := by
    simp [artifactTurn, List.lookup_cons, Json.isStr]
  exact hb.afterTool ht rfl hnamed hk (liftRaised_ok hreply)

/-- The reply to a control has no parent, and repeats tags at most. -/
theorem controlTurn_tags {call : Ambient} {session handled : InterviewSession}
    {request : CandidateControlRequest} {result : CandidateControlResult} {turn : Turn}
    (h : handleCandidateControl call session request = .ok (handled, result))
    (ht : result.interviewerTurn = some turn) :
    turn.parentTurnId = none ∧ ∀ tag ∈ turn.competencyTags,
      ∃ question ∈ session.turns, tag ∈ question.competencyTags := by
  have hrestated : ∀ {question : Turn} {text target : String},
      lastTurnBy session .interviewer = some question →
      (restatedTurn call session request question text target).parentTurnId = none ∧
      ∀ tag ∈ (restatedTurn call session request question text target).competencyTags,
        ∃ question ∈ session.turns, tag ∈ question.competencyTags := by
    intro question text target hlast
    exact ⟨rfl, fun tag htag => ⟨question, (find?_reverse_mem hlast).1, htag⟩⟩
  obtain ⟨kind, text⟩ := request
  cases kind with
  | «repeat» =>
    simp only [handleCandidateControl] at h
    split at h
    next => cases h
    next question hlast =>
      cases h
      cases ht
      exact hrestated hlast
  | clarify =>
    simp only [handleCandidateControl] at h
    split at h
    next => cases h
    next question hlast =>
      cases h
      cases ht
      exact hrestated hlast
  | thinkingTime =>
    cases h
    cases ht
  | resume =>
    cases h
    cases ht
  | correctLastAnswer =>
    simp only [handleCandidateControl] at h
    split at h
    next => cases h
    next =>
      cases h
      cases ht
  | candidateQuestion =>
    simp only [handleCandidateControl] at h
    split at h
    next => cases h
    next =>
      cases h
      cases ht
      exact ⟨rfl, fun tag htag => (by cases htag)⟩

/-- The tool was opened from a turn of the transcript, if from any. -/
def Sourced (turns : List Turn) (tool : ToolInvocation) : Prop :=
  ∀ turnId, tool.openedFromTurnId = some turnId → turnId ∈ turns.map Turn.id

section

variable [CanonicalDigest]

/-- Only competencies of the job get into the transcript. -/
theorem Transcribes.knownTags {session : InterviewSession} {operation : Operation}
    {turns : List Turn} {revisions : List TranscriptRevision}
    (h : Transcribes call job session operation turns revisions) (hb : call.brain.Follows)
    (hk : KnownTags job session.turns session.tools) :
    ∀ turn ∈ turns, ∀ tag ∈ turn.competencyTags, tag ∈ job.competencyIds := by
  have hsnoc : ∀ {before : List Turn} (turn : Turn),
      (∀ turn ∈ before, ∀ tag ∈ turn.competencyTags, tag ∈ job.competencyIds) →
      (∀ tag ∈ turn.competencyTags, tag ∈ job.competencyIds) →
      ∀ other ∈ before ++ [turn], ∀ tag ∈ other.competencyTags, tag ∈ job.competencyIds := by
    intro before turn hbefore hturn other hother
    rcases List.mem_append.mp hother with hold | hnew
    · exact hbefore other hold
    · rw [List.mem_singleton.mp hnew]
      exact hturn
  cases h with
  | started _ _ hd => exact hsnoc _ hk.turns (openingDecision_follows hb hd).tags
  | @answered text turnMetadata shown decision covered latencyMs hshown hd =>
    have hturns : shown.turns =
        session.turns ++ [answerTurn call.toAmbient session.turns text turnMetadata] :=
      congrArg Conduct.turns (prepareAnswer_conduct hshown).2
    have hanswered : ∀ turn ∈ shown.turns, ∀ tag ∈ turn.competencyTags,
        tag ∈ job.competencyIds := by
      rw [hturns]
      exact hsnoc _ hk.turns fun tag htag => (by cases htag)
    have hfinal := hsnoc (decisionTurn call.toAmbient shown decision latencyMs) hanswered
      (decideAfterAnswer_follows hb hanswered hd).tags
    rw [hturns, List.append_assoc] at hfinal
    exact hfinal
  | @worked toolId request work decision covered hwork hd =>
    obtain ⟨_, ⟨invocation, hfind, _, hevaluated⟩, hturns, _⟩ := prepareTool_transcript hwork
    have htags : ∀ tag ∈ work.invocation.competencyTags, tag ∈ job.competencyIds := by
      rw [hevaluated]
      exact hk.tools invocation (List.mem_of_find?_eq_some hfind)
    have hsubmitted := hsnoc (artifactTurn call.toAmbient session work.invocation work.submission)
      hk.turns htags
    have hfinal := hsnoc (decisionTurn call.toAmbient work.session decision call.latencyMs)
      hsubmitted (decideAfterTool_follows hb hturns htags hd).tags
    rw [List.append_assoc] at hfinal
    exact hfinal
  | replied hr hreply =>
    refine hsnoc _ hk.turns fun tag htag => ?_
    obtain ⟨question, hquestion, hin⟩ := (controlTurn_tags hr hreply).2 tag htag
    exact hk.turns question hquestion tag hin
  | @revised _ _ index turn _ _ _ _ =>
    intro other hother tag htag
    have hmem : other.competencyTags ∈ (revisedTurns session index turn _).map
        Turn.competencyTags := List.mem_map_of_mem hother
    rw [revisedTurns_map _ _ _ _ Turn.competencyTags fun _ _ _ => rfl] at hmem
    obtain ⟨old, hold, hsame⟩ := List.mem_map.mp hmem
    exact hk.turns old hold tag (hsame ▸ htag)
  | kept => exact hk.turns

/-- An operation leaves every turn in its place, and places the turns that it adds. -/
theorem Transcribes.placed {session : InterviewSession} {operation : Operation} {turns : List Turn}
    {revisions : List TranscriptRevision}
    (h : Transcribes call job session operation turns revisions) (hb : call.brain.Follows)
    (hq : ∀ text turnMetadata, operation = .answer text turnMetadata →
      session.active → (previousQuestion session).isSome = true)
    (hk : KnownTags job session.turns session.tools)
    (ht : ∀ tool ∈ session.tools, Sourced session.turns tool)
    (hp : EachAfter Placed session.turns) : EachAfter Placed turns := by
  cases h with
  | @started shown decision covered latencyMs hshown _ hd =>
    have hturns : shown.turns = session.turns := congrArg Conduct.turns hshown
    have hplaced := (openingDecision_follows hb hd).placed call.toAmbient latencyMs
    rw [hturns] at hplaced
    exact hp.snoc hplaced
  | @answered text turnMetadata shown decision covered latencyMs hshown hd =>
    obtain ⟨hactive, hconduct⟩ := prepareAnswer_conduct hshown
    have hturns : shown.turns =
        session.turns ++ [answerTurn call.toAmbient session.turns text turnMetadata] :=
      congrArg Conduct.turns hconduct
    obtain ⟨question, hquestion⟩ := Option.isSome_iff_exists.mp (hq _ _ rfl hactive)
    have hparent : (answerTurn call.toAmbient session.turns text turnMetadata).parentTurnId =
        some question.id := congrArg (Option.map Turn.id) hquestion
    have hanswered : EachAfter Placed shown.turns := by
      rw [hturns]
      refine hp.snoc ⟨fun id hid => ?_, fun _ _ => ⟨question, hquestion, hparent⟩,
        fun hs => (by cases hs)⟩
      rw [hparent] at hid
      cases hid
      exact List.mem_map_of_mem (find?_reverse_mem hquestion).1
    have hknown : ∀ turn ∈ shown.turns, ∀ tag ∈ turn.competencyTags, tag ∈ job.competencyIds := by
      rw [hturns]
      intro turn hturn tag htag
      rcases List.mem_append.mp hturn with hold | hnew
      · exact hk.turns turn hold tag htag
      · rw [List.mem_singleton.mp hnew] at htag
        cases htag
    have hplaced := (decideAfterAnswer_follows hb hknown hd).placed call.toAmbient latencyMs
    have hfinal := hanswered.snoc hplaced
    rw [hturns, List.append_assoc] at hfinal
    exact hfinal
  | @worked toolId request work decision covered hwork hd =>
    obtain ⟨_, ⟨invocation, hfind, _, hevaluated⟩, hturns, _⟩ := prepareTool_transcript hwork
    have hmem := List.mem_of_find?_eq_some hfind
    have htags : ∀ tag ∈ work.invocation.competencyTags, tag ∈ job.competencyIds := by
      rw [hevaluated]
      exact hk.tools invocation hmem
    have hsubmitted : EachAfter Placed work.session.turns := by
      rw [hturns]
      refine hp.snoc ⟨fun id hid => ?_, fun _ hplain => ?_, fun hs => (by cases hs)⟩
      · rw [hevaluated] at hid
        exact ht invocation hmem id hid
      · simp [Turn.flagged, artifactTurn, Json.truthy] at hplain
    have hplaced := (decideAfterTool_follows hb hturns htags hd).placed call.toAmbient
      call.latencyMs
    have hfinal := hsubmitted.snoc hplaced
    rw [hturns, List.append_assoc] at hfinal
    exact hfinal
  | replied hr hreply =>
    obtain ⟨hparent, _⟩ := controlTurn_tags hr hreply
    obtain ⟨_, hturn, _⟩ := handleCandidateControl_ok hr
    refine hp.snoc ⟨fun id hid => ?_, fun hs => ?_, fun _ id hid => ?_⟩
    · rw [hparent] at hid
      cases hid
    · rw [(hturn _ hreply).2.1] at hs
      cases hs
    · rw [hparent] at hid
      cases hid
  | revised _ _ hturn _ => exact hp.congr placed_keyed (revisedTurns_place hturn _)
  | kept => exact hp

omit [CanonicalDigest] in
/-- A property of tools that does not look at the status survives moves of it. -/
theorem all_of_origins {P : ToolInvocation → Prop}
    (hP : ∀ tool moved : ToolInvocation, moved.origin = tool.origin → P tool → P moved)
    {tools moved : List ToolInvocation} (h : ∀ tool ∈ tools, P tool)
    (ho : moved.map ToolInvocation.origin = tools.map ToolInvocation.origin) :
    ∀ tool ∈ moved, P tool := by
  intro tool htool
  have hmem : tool.origin ∈ tools.map ToolInvocation.origin := ho ▸ List.mem_map_of_mem htool
  obtain ⟨old, hold, hsame⟩ := List.mem_map.mp hmem
  exact hP old tool hsame.symm (h old hold)

omit [CanonicalDigest] in
theorem setToolStatus_origins (id : String) (status : ToolStatus) (tools : List ToolInvocation) :
    (setToolStatus id status tools).map ToolInvocation.origin =
      tools.map ToolInvocation.origin := by
  induction tools with
  | nil => rfl
  | cons tool rest ih =>
    unfold setToolStatus
    split
    next => rfl
    next => rw [List.map_cons, List.map_cons, ih]

/-- What the tools of a session satisfy, given what the operation may open. -/
theorem Handles.tools {session : InterviewSession} {operation : Operation} {turns : List Turn}
    {bench : Bench} {P : ToolInvocation → Prop}
    (h : Handles call job session operation turns bench)
    (hP : ∀ tool moved : ToolInvocation, moved.origin = tool.origin → P tool → P moved)
    (hrequested : ∀ tools tool, Requested job turns tools tool → P tool)
    (hopened : ∀ tool, operation.opensFrom = some tool.openedFromTurnId →
      Opens job session.turns tool → turns = session.turns → P tool)
    (hold : ∀ tool ∈ session.tools, P tool) : ∀ tool ∈ bench.tools, P tool := by
  cases h with
  | asked _ _ hnew =>
    intro tool htool
    rcases List.mem_append.mp htool with htool | htool
    · exact hold tool htool
    · exact hrequested _ tool (hnew tool (Option.mem_toList.mp htool))
  | @worked toolId _ work _ _ hwork hnew =>
    obtain ⟨_, _, _, _, _, _, hbench⟩ := prepareTool_bench hwork
    have htools : work.session.tools =
        setToolStatus toolId .evaluated (setToolStatus toolId .submitted session.tools) :=
      congrArg Bench.tools hbench
    have horigins : work.session.tools.map ToolInvocation.origin =
        session.tools.map ToolInvocation.origin := by
      rw [htools, setToolStatus_origins, setToolStatus_origins]
    intro tool htool
    rcases List.mem_append.mp htool with htool | htool
    · exact all_of_origins hP hold horigins tool htool
    · exact hrequested _ tool (hnew tool (Option.mem_toList.mp htool))
  | @opened _ tool _ _ hopens hfrom _ =>
    intro other hother
    rcases List.mem_append.mp hother with hother | hother
    · exact hold other hother
    · rw [List.mem_singleton.mp hother]
      exact hopened tool hfrom hopens rfl
  | cancelled =>
    refine all_of_origins hP hold ?_
    rw [List.map_map]
    refine List.map_congr_left fun tool _ => ?_
    show tool.cancel.origin = tool.origin
    unfold ToolInvocation.cancel
    split
    next => rfl
    next => rfl
  | kept => exact hold

theorem Handles.knownTags {session : InterviewSession} {operation : Operation}
    {turns : List Turn} {bench : Bench} (h : Handles call job session operation turns bench)
    (hk : ∀ tool ∈ session.tools, ∀ tag ∈ tool.competencyTags, tag ∈ job.competencyIds) :
    ∀ tool ∈ bench.tools, ∀ tag ∈ tool.competencyTags, tag ∈ job.competencyIds := by
  refine h.tools (fun tool moved ho hold => ?_) (fun _ _ hr => hr.tags)
    (fun _ _ hopens _ => hopens.tags) hk
  have hsame : moved.origin.competencyTags = tool.origin.competencyTags :=
    congrArg ToolInvocation.competencyTags ho
  have hsame : moved.competencyTags = tool.competencyTags := hsame
  rw [hsame]
  exact hold

/-- The tools stay sourced, when no client opens one from a turn without a name. -/
theorem Handles.sourced {session : InterviewSession} {operation : Operation} {turns : List Turn}
    {bench : Bench} (h : Handles call job session operation turns bench)
    (hf : operation.opensFrom ≠ some (some ""))
    (hsub : session.turns.map Turn.id ⊆ turns.map Turn.id)
    (ht : ∀ tool ∈ session.tools, Sourced session.turns tool) :
    ∀ tool ∈ bench.tools, Sourced turns tool := by
  refine h.tools (fun tool moved ho hold => ?_) (fun _ _ hr turnId hid => ?_)
    (fun tool hfrom hopens hturns turnId hid => ?_)
    fun tool htool turnId hid => hsub (ht tool htool turnId hid)
  · have hsame : moved.origin.openedFromTurnId = tool.origin.openedFromTurnId :=
      congrArg ToolInvocation.openedFromTurnId ho
    have hsame : moved.openedFromTurnId = tool.openedFromTurnId := hsame
    rw [Sourced, hsame]
    exact hold
  · obtain ⟨source, hsource, hfrom⟩ := hr.source
    rw [hfrom] at hid
    cases hid
    exact hsource
  · rw [hturns]
    refine hopens.source turnId hid fun hempty => hf ?_
    rw [hfrom, hid, hempty]

/-- In a run of the built-in brains on one job, every turn and every tool is about it. -/
theorem History.known_tags {backend : Backend} {versions : List InterviewSession}
    (h : History backend (fun call operation _ => UnderBuiltIn job call operation) versions) :
    ∀ session ∈ versions, KnownTags job session.turns session.tools := by
  induction h with
  | @created call request organizationId session h =>
    obtain ⟨hturns, _⟩ := stored_transcript backend session
    obtain ⟨hnone, _⟩ := createSession_transcript h
    have hbench : (backend.stored session).bench = ⟨[], [], []⟩ :=
      (stored_bench backend session).trans (createSession_bench h)
    have htools : (backend.stored session).tools = [] := congrArg Bench.tools hbench
    intro stored hs
    rw [List.mem_singleton.mp hs, hturns, hnone, htools]
    exact ⟨fun turn hturn => (by cases hturn), fun tool htool => (by cases htool)⟩
  | @committed call operation session session' past _ ha hm ih =>
    obtain ⟨hjob, hbrain⟩ := ha
    intro stored hs
    rcases List.mem_cons.mp hs with rfl | hs
    · have hknown := ih session List.mem_cons_self
      obtain ⟨other, hother, htranscribes⟩ := mutate_transcribes hm
      cases Option.some.inj (hjob.symm.trans hother)
      obtain ⟨again, hagain, hhandles⟩ := mutate_handles hm
      cases Option.some.inj (hjob.symm.trans hagain)
      obtain ⟨hturns, _⟩ := stored_transcript backend session'
      have htools : (backend.stored session').tools = session'.tools :=
        congrArg Bench.tools (stored_bench backend session')
      rw [hturns, htools]
      exact ⟨htranscribes.knownTags hbrain.follows hknown, hhandles.knownTags hknown.tools⟩
    · exact ih stored hs

/-- Once a session runs there is a question to answer. -/
def AskedOnceRunning (conduct : Conduct) : Prop :=
  conduct.status = .running → questionsOf conduct.turns ≠ []

omit [CanonicalDigest] in
theorem questionsOf_decided (turns : List Turn) (ambient : Ambient) (shown : InterviewSession)
    (decision : AgentDecision) (latencyMs : Nat) :
    questionsOf (turns ++ [decisionTurn ambient shown decision latencyMs]) ≠ [] := by
  intro hnone
  have hasked := decisionTurn_evaluative ambient shown decision latencyMs
  refine List.filter_eq_nil_iff.mp hnone _ ?_ hasked
  exact List.mem_append_right _ (List.mem_singleton_self _)

theorem Conducts.askedOnceRunning {session : InterviewSession} {operation : Operation}
    {conduct : Conduct} (h : Conducts call job session operation conduct)
    (ha : AskedOnceRunning session.conduct) : AskedOnceRunning conduct := by
  cases h with
  | started => exact fun _ => questionsOf_decided _ _ _ _ _
  | answered => exact fun _ => questionsOf_decided _ _ _ _ _
  | worked => exact fun _ => questionsOf_decided _ _ _ _ _
  | replied _ _ hflag =>
    intro hs
    show questionsOf (session.turns ++ _) ≠ []
    rw [questionsOf_snoc (controlled_not_evaluative hflag)]
    exact ha hs
  | revised _ ht hs =>
    intro hrunning
    show (session.turns.modify _ _).filter Turn.evaluative ≠ []
    rw [filter_modify ht (candidate_not_evaluative hs) (candidate_not_evaluative hs)]
    exact ha hrunning
  | opened => exact ha
  | cancelled => exact fun hs => (by cases hs)
  | kept => exact ha

/-- The calls of the built-in brains on the one job, with new ids for the turns. -/
structure Tied (job : JobSpec) (call : Call) (operation : Operation)
    (session : InterviewSession) : Prop where
  builtIn : UnderBuiltIn job call operation
  fresh : FreshTurnIds call.toAmbient session
  ready : operation.ready session

theorem Transcribes.ids_grow {session : InterviewSession} {operation : Operation}
    {turns : List Turn} {revisions : List TranscriptRevision}
    (h : Transcribes call job session operation turns revisions) :
    session.turns.map Turn.id ⊆ turns.map Turn.id := by
  cases h with
  | started | answered | worked | replied =>
    rw [List.map_append]
    exact List.subset_append_left _ _
  | revised =>
    rw [revisedTurns_map _ _ _ _ Turn.id fun _ _ _ => rfl]
    exact List.Subset.refl _
  | kept => exact List.Subset.refl _

/-- While no client opens a tool from the empty turn id, the lineage of every version stands. -/
theorem lineage_stands {backend : Backend} {versions : List InterviewSession}
    (h : History backend (fun call operation session => Tied job call operation session ∧
      operation.opensFrom ≠ some (some "")) versions) :
    ∀ session ∈ versions, Lineage job session := by
  have htags := (h.mono fun _ _ _ ha => ha.1.builtIn).known_tags
  have hids := h.turnIds_nodup fun _ _ _ ha => ha.1.fresh
  have hplaced : ∀ session ∈ versions, EachAfter Placed session.turns ∧
      ∀ tool ∈ session.tools, Sourced session.turns tool := by
    clear htags hids
    induction h with
    | @created call request organizationId session h =>
      obtain ⟨hturns, _⟩ := stored_transcript backend session
      obtain ⟨hnone, _⟩ := createSession_transcript h
      have hbench : (backend.stored session).bench = ⟨[], [], []⟩ :=
        (stored_bench backend session).trans (createSession_bench h)
      have htools : (backend.stored session).tools = [] := congrArg Bench.tools hbench
      intro stored hs
      rw [List.mem_singleton.mp hs, hturns, hnone, htools]
      exact ⟨EachAfter.nil, fun tool htool => (by cases htool)⟩
    | @committed call operation session session' past hpast ha hm ih =>
      obtain ⟨⟨⟨hjob, hbrain⟩, _, hready⟩, hsource⟩ := ha
      intro stored hs
      rcases List.mem_cons.mp hs with rfl | hs
      · obtain ⟨hplaced, hsourced⟩ := ih session List.mem_cons_self
        obtain ⟨other, hother, htranscribes⟩ := mutate_transcribes hm
        cases Option.some.inj (hjob.symm.trans hother)
        obtain ⟨again, hagain, hhandles⟩ := mutate_handles hm
        cases Option.some.inj (hjob.symm.trans hagain)
        have hknown := (hpast.mono fun _ _ _ ha => ha.1.builtIn).known_tags session
          List.mem_cons_self
        have hquestions : AskedOnceRunning session.conduct :=
          hpast.conduct_invariant (P := AskedOnceRunning) (fun hs => (by cases hs))
            (fun _ _ ha hstep => hstep.askedOnceRunning ha) session List.mem_cons_self
        have hpending : ∀ text turnMetadata, operation = .answer text turnMetadata →
            session.active → (previousQuestion session).isSome = true := by
          rintro text turnMetadata rfl hactive
          rw [previousQuestion_eq, Option.isSome_iff_ne_none, Ne, List.getLast?_eq_none_iff]
          exact hquestions (running_of_active hactive hready)
        obtain ⟨hturns, _⟩ := stored_transcript backend session'
        have htools : (backend.stored session').tools = session'.tools :=
          congrArg Bench.tools (stored_bench backend session')
        rw [hturns, htools]
        exact ⟨htranscribes.placed hbrain.follows hpending hknown hsourced hplaced,
          hhandles.sourced hsource htranscribes.ids_grow hsourced⟩
      · exact ih stored hs
  exact fun session hs => ⟨hids session hs, (hplaced session hs).1, htags session hs⟩

end

section Runs

attribute [local instance] checksumDigest

/-- A call of the rule-based brain on `plainJob`. -/
def ruleCall : Call := jobCall plainJob (ruleBasedBrain asciiWord)

theorem ruleCall_tied {call : Call} {operation : Operation} {session : InterviewSession}
    {allowed : Call → Operation → Prop} (hcall : allowed call operation → call = ruleCall)
    (h : Checked freshTurnIds allowed call operation session) :
    Tied plainJob call operation session := by
  have hfresh : FreshCalls call operation session :=
    freshTurnIds_fresh (fun ha => congrArg Call.toAmbient (hcall ha)) h
  obtain ⟨⟨hready, hallowed⟩, _⟩ := h
  obtain rfl := hcall hallowed
  exact ⟨⟨rfl, Or.inl ⟨asciiWord, rfl⟩⟩, hfresh, hready⟩

/-- An answer, its follow-up, the artifact of a tool opened from it, and the probe of that. -/
theorem lineage_stands_submitted : ∃ session past,
    History .memory (fun call operation session => Tied plainJob call operation session ∧
      operation.opensFrom ≠ some (some "")) (session :: past) ∧
    session.turns.map Turn.parentTurnId =
      [none, some "turn-0", some "turn-1", some "turn-2", some "turn-3"] ∧
    Lineage plainJob session := by
  have hrun : (checkedRun freshTurnIds plainJob .memory [(ruleCall, .start),
      (ruleCall, .answer "I built a queue." []),
      (ruleCall, .openTool { plainTool with openedFromTurnId := some "turn-2" }),
      (ruleCall, .submitTool "artifact" ⟨[]⟩)]).any
      (fun versions => versions.head?.any fun session => session.turns.map Turn.parentTurnId =
        [none, some "turn-0", some "turn-1", some "turn-2", some "turn-3"]) = true := by
    decide +kernel
  obtain ⟨session, past, hhistory, hcheck⟩ := checkedRun_last
    (fun call operation => call = ruleCall ∧ operation.opensFrom ≠ some (some ""))
    (by simp [Operation.opensFrom, plainTool]) hrun
  have htied := hhistory.mono fun call operation session ha =>
    (⟨ruleCall_tied And.left ha, ha.1.2.2⟩ : Tied plainJob call operation session ∧ _)
  exact ⟨session, past, htied, of_decide_eq_true hcheck,
    lineage_stands htied session List.mem_cons_self⟩

/-- The artifact of a tool that a client opened from the turn `""` has a parent that is no turn. -/
theorem lineage_from_nowhere : ∃ session past,
    History .memory (Tied plainJob) (session :: past) ∧ ¬Lineage plainJob session := by
  have hrun : (checkedRun freshTurnIds plainJob .memory [(ruleCall, .start),
      (ruleCall, .openTool { plainTool with openedFromTurnId := some "" }),
      (ruleCall, .submitTool "artifact" ⟨[]⟩)]).any
      (fun versions => versions.head?.any fun session =>
        "" ∉ session.turns.map Turn.id &&
          session.turns.any fun turn => turn.parentTurnId = some "") = true := by
    decide +kernel
  obtain ⟨session, past, hhistory, hcheck⟩ :=
    checkedRun_last (fun call _ => call = ruleCall) (by simp) hrun
  obtain ⟨hnone, hany⟩ := Bool.and_eq_true_iff.mp hcheck
  obtain ⟨turn, hturn, hparent⟩ := List.any_eq_true.mp hany
  refine ⟨session, past, hhistory.mono fun _ _ _ ha => ruleCall_tied (fun hcall => hcall) ha, ?_⟩
  intro hlineage
  obtain ⟨i, hi⟩ := List.mem_iff_getElem?.mp hturn
  have hearlier := (hlineage.placed i turn hi).parent "" (of_decide_eq_true hparent)
  rw [List.map_take] at hearlier
  exact of_decide_eq_true hnone (List.mem_of_mem_take hearlier)

end Runs

end NoraInterviewer
