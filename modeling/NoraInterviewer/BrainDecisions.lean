import NoraInterviewer.Operations
import NoraInterviewer.LlmBrain

namespace NoraInterviewer

open ExceptRules

/-- Every decision that the brain gives satisfies `P`. -/
structure Brain.Gives (brain : Brain) (P : AgentDecision → Prop) : Prop where
  opening : ∀ session job reply, brain.opening session job = .ok reply → P reply.1
  afterAnswer : ∀ session job reply, brain.afterAnswer session job = .ok reply → P reply.1
  afterTool : ∀ session job invocation submission evaluation reply,
    brain.afterTool session job invocation submission evaluation = .ok reply → P reply.1

theorem Brain.Gives.imp {brain : Brain} {P Q : AgentDecision → Prop} (h : brain.Gives P)
    (hpq : ∀ decision, P decision → Q decision) : brain.Gives Q :=
  ⟨fun s j r hr => hpq _ (h.opening s j r hr), fun s j r hr => hpq _ (h.afterAnswer s j r hr),
    fun s j i u e r hr => hpq _ (h.afterTool s j i u e r hr)⟩

namespace RuleBasedBrain

def reasons : List String := [
  "opening_first_required_competency", "answer_lacks_specific_evidence",
  "open_allowed_practical_tool", "advance_to_uncovered_competency",
  "all_required_coverage_complete", "post_tool_reasoning_probe"]

/-- What the rule-based brain may decide. -/
structure Decides (decision : AgentDecision) : Prop where
  close : decision.completesInterview = true → decision = RuleBasedBrain.close
  reason : decision.reason ∈ reasons

theorem close_decides : Decides RuleBasedBrain.close := by
  refine ⟨fun _ => rfl, ?_⟩
  have hreason : RuleBasedBrain.close.reason = "all_required_coverage_complete" := rfl
  rw [hreason]
  simp [reasons]

theorem advance_decides (session : InterviewSession) (job : JobSpec) (latest : Turn)
    (covered : List String) : Decides (advance session job latest covered) := by
  unfold advance
  split
  next => exact ⟨nofun, by simp [reasons]⟩
  next =>
    split
    next => exact close_decides
    next => exact ⟨nofun, by simp [reasons]⟩

theorem afterAnswer_decides {isWord : Char → Bool} {session : InterviewSession} {job : JobSpec}
    {reply : AgentDecision × List String} (h : afterAnswer isWord session job = .ok reply) :
    Decides reply.1 := by
  unfold afterAnswer at h
  split at h
  next => cases h
  next latest _ =>
    simp only at h
    split at h
    next =>
      cases h
      exact close_decides
    next =>
      split at h
      next =>
        cases h
        exact ⟨nofun, by simp [reasons]⟩
      next =>
        cases h
        exact advance_decides _ _ _ _

/-- At the question limit an answer is the last one. -/
theorem afterAnswer_at_limit {isWord : Char → Bool} {session : InterviewSession} {job : JobSpec}
    {reply : AgentDecision × List String} (h : afterAnswer isWord session job = .ok reply)
    (hlimit : job.maxQuestions ≤ session.askedQuestions) : reply.1 = close := by
  unfold afterAnswer at h
  split at h
  next => cases h
  next =>
    simp only [if_pos hlimit] at h
    cases h
    rfl

end RuleBasedBrain

theorem ruleBasedBrain_gives (isWord : Char → Bool) :
    (ruleBasedBrain isWord).Gives RuleBasedBrain.Decides where
  opening _ _ _ h := by
    cases h
    exact ⟨nofun, by simp [RuleBasedBrain.reasons]⟩
  afterAnswer _ _ _ h := RuleBasedBrain.afterAnswer_decides h
  afterTool _ _ _ _ _ _ h := by
    cases h
    exact ⟨nofun, by simp [RuleBasedBrain.reasons]⟩

/-- The end of an interview answers no turn. -/
def AgentDecision.EndsPlainly (decision : AgentDecision) : Prop :=
  decision.completesInterview = true → decision.parentTurnId = none

theorem LlmBrain.toDecision_endsPlainly {output : BrainOutput} {session : InterviewSession}
    {job : JobSpec} {allowParent : Bool} {decision : AgentDecision}
    (h : toDecision output session job allowParent = .ok decision) : decision.EndsPlainly := by
  unfold toDecision at h
  split at h
  next =>
    cases h
    exact fun _ => rfl
  next =>
    split at h
    next =>
      split at h
      next => cases h
      next =>
        split at h
        next =>
          split at h
          next => cases h
          next =>
            cases h
            exact nofun
        next =>
          cases h
          exact nofun
    next =>
      cases h
      exact nofun

theorem llmBrain_gives (model : Model) : (llmBrain model).Gives AgentDecision.EndsPlainly := by
  constructor
  · intro session job reply h
    obtain ⟨output, _, h⟩ := bind_ok h
    obtain ⟨decision, hd, h⟩ := bind_ok h
    cases h
    exact LlmBrain.toDecision_endsPlainly hd
  · intro session job reply h
    obtain ⟨output, _, h⟩ := bind_ok h
    obtain ⟨decision, hd, h⟩ := bind_ok h
    cases h
    exact LlmBrain.toDecision_endsPlainly hd
  · intro session job invocation submission evaluation reply h
    obtain ⟨output, _, h⟩ := bind_ok h
    obtain ⟨decision, hd, h⟩ := bind_ok h
    cases h
    exact LlmBrain.toDecision_endsPlainly hd

theorem FallbackBrain.reply_gives {P : AgentDecision → Prop} {primary fallback : BrainReply}
    (hp : ∀ result, primary = .ok result → P result.1)
    (hf : ∀ result, fallback = .ok result → ∀ e, P (degraded result.1 e))
    {result : AgentDecision × List String} (h : reply primary fallback = .ok result) :
    P result.1 := by
  unfold reply at h
  split at h
  next result' =>
    cases h
    exact hp _ rfl
  next e =>
    obtain ⟨result', hresult, rfl⟩ := map_ok h
    exact hf _ hresult e

theorem fallbackBrain_gives {P Q : AgentDecision → Prop} {primary fallback : Brain}
    (hp : primary.Gives P) (hf : fallback.Gives Q)
    (hq : ∀ decision e, Q decision → P (FallbackBrain.degraded decision e)) :
    (fallbackBrain primary fallback).Gives P where
  opening session job _ h := FallbackBrain.reply_gives (hp.opening session job)
    (fun _ hr e => hq _ e (hf.opening session job _ hr)) h
  afterAnswer session job _ h := FallbackBrain.reply_gives (hp.afterAnswer session job)
    (fun _ hr e => hq _ e (hf.afterAnswer session job _ hr)) h
  afterTool session job invocation submission evaluation _ h :=
    FallbackBrain.reply_gives (hp.afterTool session job invocation submission evaluation)
      (fun _ hr e => hq _ e (hf.afterTool session job invocation submission evaluation _ hr)) h

/-- The brains that ask a model. -/
inductive UsesModel : Brain → Prop where
  | alone (model : Model) : UsesModel (llmBrain model)
  | fallback (model : Model) (isWord : Char → Bool) :
    UsesModel (fallbackBrain (llmBrain model) (ruleBasedBrain isWord))

def BuiltIn (brain : Brain) : Prop := (∃ isWord, brain = ruleBasedBrain isWord) ∨ UsesModel brain

theorem RuleBasedBrain.Decides.endsPlainly {decision : AgentDecision} (h : Decides decision) :
    decision.EndsPlainly := by
  intro hc
  rw [h.close hc]
  rfl

theorem RuleBasedBrain.Decides.not_anchor {decision : AgentDecision} (h : Decides decision) :
    startsWith decision.reason "anchor:" = false := by
  have hall : ∀ reason ∈ reasons, startsWith reason "anchor:" = false := by decide +kernel
  exact hall _ h.reason

theorem BuiltIn.endsPlainly {brain : Brain} (h : BuiltIn brain) :
    brain.Gives AgentDecision.EndsPlainly := by
  rcases h with ⟨isWord, rfl⟩ | hmodel
  · exact (ruleBasedBrain_gives isWord).imp fun _ hd => hd.endsPlainly
  · cases hmodel with
    | alone model => exact llmBrain_gives model
    | fallback model isWord =>
      exact fallbackBrain_gives (llmBrain_gives model) (ruleBasedBrain_gives isWord)
        fun decision _ hd => hd.endsPlainly

/-- The calls of a run on `job` with the built-in brains. -/
def UnderBuiltIn (job : JobSpec) (call : Call) (_ : Operation) : Prop :=
  call.job = some job ∧ BuiltIn call.brain

theorem nextAnchor_congr {session session' : InterviewSession}
    (h : session'.stance = session.stance) (job : JobSpec) :
    nextAnchor session' job = nextAnchor session job := by
  have hasked : session'.askedQuestions = session.askedQuestions :=
    congrArg Stance.askedQuestions h
  have hanchors : session'.askedAnchorCompetencies = session.askedAnchorCompetencies :=
    congrArg Stance.askedAnchorCompetencies h
  simp only [nextAnchor, unaskedAnchors, hasked, hanchors]

variable [CanonicalDigest]

/-- The decision of the brain that the operation puts as it is. -/
def Operation.Hears (call : Call) (job : JobSpec) (session : InterviewSession)
    (decision : AgentDecision) : Operation → Prop
  | .start => ∃ shown covered, appendEvent call.toAmbient session .interviewStarted = .ok shown ∧
      call.brain.opening shown job = .ok (decision, covered) ∧ nextAnchor session job = none
  | .answer text turnMetadata => ∃ shown covered,
      prepareAnswer call session job text turnMetadata = .ok shown ∧
      call.brain.afterAnswer shown job = .ok (decision, covered) ∧
      (given decision.parentTurnId = true ∨ nextAnchor session job = none)
  | .submitTool toolId request => ToolDecision call session job toolId request decision
  | _ => False

theorem StartDecision.heard {call : Call} {session : InterviewSession} {job : JobSpec}
    {decision : AgentDecision} (h : StartDecision call session job decision) :
    nextAnchor session job = some decision ∨ Operation.start.Hears call job session decision := by
  obtain ⟨shown, result, latencyMs, hshown, hopening⟩ := h
  have hstance : shown.stance = session.stance := by
    obtain ⟨events, rfl, _⟩ := (appendEvent_meets _ _ _ _ _).of_ok hshown
    rfl
  unfold openingDecision at hopening
  rw [nextAnchor_congr hstance] at hopening
  split at hopening
  next hanchor =>
    cases hopening
    exact Or.inl hanchor
  next hnone =>
    obtain ⟨reply, hreply, h⟩ := bind_ok hopening
    cases h
    exact Or.inr ⟨shown, reply.2, hshown, (liftRaised_meets [] _).of_ok hreply, hnone⟩

/-- The brain is shown the counters as they were. -/
theorem prepareAnswer_stance {call : Call} {session shown : InterviewSession} {job : JobSpec}
    {text : String} {turnMetadata : Dict Json}
    (h : prepareAnswer call session job text turnMetadata = .ok shown) :
    shown.stance = session.stance := by
  let anything : Policy := ⟨fun _ _ => True, fun _ _ => True, fun _ => True, fun _ _ => True⟩
  exact ((prepareAnswer_meets anything call session job text turnMetadata).of_ok h).2.2

theorem AnswerDecision.heard {call : Call} {session : InterviewSession} {job : JobSpec}
    {text : String} {turnMetadata : Dict Json} {decision : AgentDecision}
    (h : AnswerDecision call session job text turnMetadata decision) :
    nextAnchor session job = some decision ∨
      (Operation.answer text turnMetadata).Hears call job session decision := by
  obtain ⟨shown, result, latencyMs, hshown, hdecide⟩ := h
  have hstance := prepareAnswer_stance hshown
  obtain ⟨⟨adaptive, covered⟩, hreply, h⟩ := bind_ok hdecide
  have hgiven := (liftRaised_meets [] _).of_ok hreply
  simp only at h
  split at h
  next hparent =>
    cases h
    exact Or.inr ⟨shown, covered, hshown, hgiven, Or.inl hparent⟩
  next =>
    have hstance' : { shown with coveredCompetencies := covered }.stance = session.stance := hstance
    rw [nextAnchor_congr hstance'] at h
    cases h
    cases hanchor : nextAnchor session job with
    | some anchor => exact Or.inl rfl
    | none => exact Or.inr ⟨shown, covered, hshown, hgiven, Or.inr hanchor⟩

/-- What an operation puts is the planner's anchor or the brain's own decision. -/
theorem Operation.Starts.heard {call : Call} {job : JobSpec} {session : InterviewSession}
    {decision : AgentDecision} {operation : Operation}
    (h : operation.Starts call job session decision) :
    nextAnchor session job = some decision ∨ operation.Hears call job session decision := by
  cases operation with
  | start => exact StartDecision.heard h
  | _ => exact absurd h id

theorem Operation.Takes.heard {call : Call} {job : JobSpec} {session : InterviewSession}
    {decision : AgentDecision} {operation : Operation}
    (h : operation.Takes call job session decision) :
    nextAnchor session job = some decision ∨ operation.Hears call job session decision := by
  cases operation with
  | answer => exact AnswerDecision.heard h
  | submitTool => exact Or.inr h
  | _ => exact absurd h id

/-- What is heard is what the brain gave. -/
theorem Operation.Hears.given {call : Call} {job : JobSpec} {session : InterviewSession}
    {decision : AgentDecision} {operation : Operation} {P : AgentDecision → Prop}
    (hb : call.brain.Gives P) (h : operation.Hears call job session decision) : P decision := by
  cases operation with
  | start =>
    obtain ⟨_, _, _, hreply, _⟩ := h
    exact hb.opening _ _ _ hreply
  | answer =>
    obtain ⟨_, _, _, hreply, _⟩ := h
    exact hb.afterAnswer _ _ _ hreply
  | submitTool =>
    obtain ⟨work, result, _, hdecide⟩ := h
    obtain ⟨reply, hreply, h⟩ := bind_ok hdecide
    cases h
    exact hb.afterTool _ _ _ _ _ _ ((liftRaised_meets [] _).of_ok hreply)
  | _ => exact absurd h id

theorem RuleBasedBrain.toolDecision_continues {isWord : Char → Bool} {call : Call}
    {session : InterviewSession} {job : JobSpec} {toolId : String} {request : ToolSubmissionRequest}
    {decision : AgentDecision} (hb : call.brain = ruleBasedBrain isWord)
    (h : ToolDecision call session job toolId request decision) :
    decision.completesInterview = false := by
  obtain ⟨work, result, _, hdecide⟩ := h
  obtain ⟨reply, hreply, h⟩ := bind_ok hdecide
  cases h
  have hgiven := (liftRaised_meets [] _).of_ok hreply
  rw [hb] at hgiven
  cases hgiven
  rfl

end NoraInterviewer
