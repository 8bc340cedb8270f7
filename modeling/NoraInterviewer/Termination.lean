import NoraInterviewer.AnswerProgress

/-! An interview under the rule-based brain accepts its answers, and comes to an end with them. -/

namespace NoraInterviewer

open ExceptRules

def Operation.isAnswer : Operation → Bool
  | .answer _ _ => true
  | _ => false

section

variable [CanonicalDigest]

/-- As `History`, with the operations that made the versions, latest first. -/
inductive Trail (backend : Backend) (admissible : Call → Operation → InterviewSession → Prop) :
    List Operation → List InterviewSession → Prop where
  | created {call : Call} {request : CreateSession} {organizationId : Option String}
    {session : InterviewSession} (h : createSession call request organizationId = .ok session) :
    Trail backend admissible [] [backend.stored session]
  | committed {call : Call} {operation : Operation} {operations : List Operation}
    {session session' : InterviewSession} {past : List InterviewSession}
    (h : Trail backend admissible operations (session :: past))
    (ha : admissible call operation session)
    (hm : mutate call operation session = .ok (some session')) :
    Trail backend admissible (operation :: operations) (backend.stored session' :: session :: past)

variable {backend : Backend} {admissible : Call → Operation → InterviewSession → Prop}
  {operations : List Operation} {versions : List InterviewSession}

theorem Trail.history (h : Trail backend admissible operations versions) :
    History backend admissible versions := by
  induction h with
  | created h => exact .created h
  | committed _ ha hm ih => exact .committed ih ha hm

end

/-- How far an interview has come after so many answers. -/
structure Conduct.Underway (job : JobSpec) (answers : Nat) (conduct : Conduct) : Prop where
  anchors : conduct.askedAnchorCompetencies.length ≤ anchorBudget job
  open_ : conduct.status ≠ .cancelled
  created : conduct.status = .created → answers = 0 ∧ conduct.askedQuestions = 0
  running : conduct.status = .running → conduct.turns ≠ [] ∧ conduct.askedQuestions = answers + 1 ∧
    conduct.askedQuestions ≤ job.maxQuestions + conduct.askedAnchorCompetencies.length
  completed : conduct.status = .completed → answers ≤ job.maxQuestions + anchorBudget job

/-- An anchor that is put is one more of the budget. -/
theorem anchor_counts {session : InterviewSession} {job : JobSpec} {decision : AgentDecision}
    (h : nextAnchor session job = some decision) :
    laneFor decision = .anchor ∧
      (markAsked session.askedAnchorCompetencies decision.competencyTags).length =
        session.askedAnchorCompetencies.length + 1 ∧
      session.askedAnchorCompetencies.length < anchorBudget job := by
  obtain ⟨chosen, hchosen, rfl⟩ := nextAnchor_some h
  have hnew := (mem_unaskedAnchors.mp hchosen).2.2
  refine ⟨anchorDecision_lane chosen, by simp [anchorDecision, markAsked, hnew], ?_⟩
  unfold nextAnchor at h
  split at h
  next => cases h
  next hless => omega

theorem laneFor_goes_on {decision : AgentDecision} (h : decision.completesInterview = false) :
    laneFor decision ≠ .closing := by
  unfold laneFor
  rw [if_neg (by simp [h])]
  split <;> simp

/-- What a decision of the planner or of the rule-based brain makes of the counters. -/
theorem Conduct.Underway.puts {job : JobSpec} {answers : Nat} {conduct conduct' : Conduct}
    {shown : InterviewSession} {decision : AgentDecision}
    (hb : conduct.askedAnchorCompetencies.length ≤ anchorBudget job)
    (hs : shown.askedAnchorCompetencies = conduct.askedAnchorCompetencies)
    (hgoes : decision.completesInterview = false)
    (hheard : nextAnchor shown job = some decision ∨
      RuleBasedBrain.Decides decision ∧ conduct.askedQuestions < job.maxQuestions)
    (hcount : conduct.askedQuestions = answers)
    (hbound : conduct.askedQuestions ≤ job.maxQuestions + conduct.askedAnchorCompetencies.length)
    (hstatus : conduct'.status = .running) (hturns : conduct'.turns ≠ [])
    (hasked : conduct'.askedQuestions =
      if laneFor decision = .closing then conduct.askedQuestions else conduct.askedQuestions + 1)
    (hanchors : conduct'.askedAnchorCompetencies =
      if laneFor decision = .anchor
      then markAsked conduct.askedAnchorCompetencies decision.competencyTags
      else conduct.askedAnchorCompetencies) : conduct'.Underway job answers := by
  rw [if_neg (laneFor_goes_on hgoes)] at hasked
  have hlength : conduct'.askedAnchorCompetencies.length ≤ anchorBudget job ∧
      conduct'.askedQuestions ≤ job.maxQuestions + conduct'.askedAnchorCompetencies.length := by
    rcases hheard with hanchor | ⟨hrule, hroom⟩
    · obtain ⟨hlane, hmore, hless⟩ := anchor_counts hanchor
      rw [hs] at hmore hless
      rw [if_pos hlane] at hanchors
      rw [hanchors, hmore, hasked]
      omega
    · rw [if_neg hrule.adaptive] at hanchors
      rw [hanchors, hasked]
      omega
  exact ⟨hlength.1, by simp [hstatus], by simp [hstatus],
    fun _ => ⟨hturns, by omega, hlength.2⟩, by simp [hstatus]⟩

section

variable [CanonicalDigest] {isWord : Char → Bool} {templates : List ToolTemplate} {job : JobSpec}

/-- The calls of an examined interview that the candidate makes. -/
def Converses (isWord : Char → Bool) (templates : List ToolTemplate) (job : JobSpec) (call : Call)
    (operation : Operation) (session : InterviewSession) : Prop :=
  Admits (fun _ operation => operation.byCandidate = true) call operation session ∧
    Examined isWord templates job call session

omit [CanonicalDigest] in
theorem asks_countP {operation : Operation} (h : operation.asks = false) :
    [operation].countP Operation.isAnswer = 0 := by
  cases operation with
  | answer => cases h
  | _ => rfl

theorem Underway.step {call : Call} {operation : Operation} {session : InterviewSession}
    {conduct : Conduct} {answers : Nat} (ha : Converses isWord templates job call operation session)
    (hs : session.conduct.Underway job answers)
    (h : Conducts call job session operation conduct) :
    conduct.Underway job (answers + [operation].countP Operation.isAnswer) := by
  obtain ⟨⟨hready, hcandidate⟩, hcall⟩ := ha
  cases h with
  | @started shown decision covered latencyMs opened hfresh hshown hd =>
    obtain ⟨_, hgoes, hheard⟩ := openingDecision_rule hcall.brain hd
    have hcreated : session.status = .created := by
      rcases hfresh with hcreated | ⟨hrunning, hnone⟩
      · exact hcreated
      · exact absurd hnone (hs.running hrunning).1
    obtain ⟨hzero, hunasked⟩ := hs.created hcreated
    have hone : 1 ≤ job.maxQuestions := job.maxQuestions_range.1
    have hanchors : shown.askedAnchorCompetencies = session.conduct.askedAnchorCompetencies :=
      congrArg Conduct.askedAnchorCompetencies hshown
    rw [hshown]
    refine .puts hs.anchors hanchors hgoes (hheard.imp_right fun hrule => ⟨hrule, by omega⟩) ?_ ?_
      rfl (by simp [Conduct.asked]) rfl rfl
    · rw [hunasked, hzero]
      rfl
    · omega
  | @answered text turnMetadata shown decision covered latencyMs opened hshown hd =>
    obtain ⟨hactive, hconduct⟩ := prepareAnswer_conduct hshown
    have hrunning := running_of_active hactive hready
    obtain ⟨hturns, hcount, hbound⟩ := hs.running hrunning
    have hasked : shown.askedQuestions = session.conduct.askedQuestions :=
      congrArg Conduct.askedQuestions hconduct
    have hanchors : shown.askedAnchorCompetencies = session.conduct.askedAnchorCompetencies :=
      congrArg Conduct.askedAnchorCompetencies hconduct
    have hstatus : shown.status = .running := (congrArg Conduct.status hconduct).trans hrunning
    have hkept : (shown.conduct.decided decision covered
        (decisionTurn call.toAmbient shown decision latencyMs) opened).turns ≠ [] := by
      simp [Conduct.decided, Conduct.asked]
    rw [← hasked] at hcount hbound
    rw [← hanchors] at hbound
    have hbudget := hs.anchors
    rw [← hanchors] at hbudget
    cases hends : decision.completesInterview with
    | false =>
      refine .puts hbudget rfl hends ?_ hcount hbound ?_ hkept rfl rfl
      · rcases decideAfterAnswer_heard hd with hanchor | hreply
        · exact .inl hanchor
        · rw [hcall.brain] at hreply
          refine .inr ⟨RuleBasedBrain.afterAnswer_decides hreply, ?_⟩
          by_contra hlimit
          have hclose := RuleBasedBrain.afterAnswer_at_limit hreply (Nat.not_lt.mp hlimit)
          simp only at hclose
          rw [hclose] at hends
          cases hends
      · have hgoes : shown.conduct.status = .running := hstatus
        simp [Conduct.decided, hends, hgoes]
    | true =>
      have hlane : laneFor decision = .closing := by simp [laneFor, hends]
      have hsame : (shown.conduct.decided decision covered
          (decisionTurn call.toAmbient shown decision latencyMs) opened).askedAnchorCompetencies =
            shown.askedAnchorCompetencies := by
        simp only [Conduct.decided, Conduct.asked, hlane]
        rfl
      have hstatus : (shown.conduct.decided decision covered
          (decisionTurn call.toAmbient shown decision latencyMs) opened).status = .completed := by
        simp [Conduct.decided, hends]
      refine ⟨by rw [hsame]; exact hbudget, by simp [hstatus], by simp [hstatus], by simp [hstatus],
        fun _ => ?_⟩
      have hone : [Operation.answer text turnMetadata].countP Operation.isAnswer = 1 := rfl
      have hless : shown.conduct.askedAnchorCompetencies.length ≤ anchorBudget job := hbudget
      have hanswers : shown.conduct.askedQuestions = answers + 1 := hcount
      have hroom : shown.conduct.askedQuestions ≤
        job.maxQuestions + shown.conduct.askedAnchorCompetencies.length := hbound
      omega
  | worked => cases hcandidate
  | replied =>
    exact ⟨hs.anchors, hs.open_, hs.created,
      fun hrunning => ⟨by simp, (hs.running hrunning).2⟩, hs.completed⟩
  | revised hc =>
    have hnone : [operation].countP Operation.isAnswer = 0 := by
      cases operation with
      | answer => cases hc
      | _ => rfl
    rw [hnone]
    refine ⟨hs.anchors, hs.open_, hs.created, fun hrunning => ?_, hs.completed⟩
    obtain ⟨hturns, hcounts⟩ := hs.running hrunning
    have hturns : session.turns ≠ [] := hturns
    exact ⟨by simpa using hturns, hcounts⟩
  | opened hq =>
    rw [asks_countP hq]
    exact ⟨hs.anchors, hs.open_, hs.created, hs.running, hs.completed⟩
  | cancelled => cases hcandidate
  | kept hq =>
    rw [asks_countP hq]
    exact hs

end

section Runs

attribute [local instance] checksumDigest

end Runs

end NoraInterviewer
