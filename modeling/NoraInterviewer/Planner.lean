import NoraInterviewer.Models

namespace NoraInterviewer

/-- Truthiness of `c.anchor_question`. -/
def Competency.anchored (c : Competency) : Bool := given c.anchorQuestion

def anchorBudget (job : JobSpec) : Nat :=
  min (job.competencies.countP Competency.anchored)
    (Rat.ceil (job.maxQuestions * job.anchorRatio)).toNat

/-- Competencies whose anchor question has not been asked, in the job's order. -/
def unaskedAnchors (session : InterviewSession) (job : JobSpec) : List Competency :=
  job.competencies.filter fun c => c.anchored && !session.askedAnchorCompetencies.contains c.id

def anchorDecision (chosen : Competency) : AgentDecision where
  text := chosen.anchorQuestion.getD ""
  competencyTags := [chosen.id]
  reason := "anchor:standardized_anchor"

def nextAnchor (session : InterviewSession) (job : JobSpec) : Option AgentDecision :=
  if anchorBudget job ≤ session.askedAnchorCompetencies.length then none
  else
    match unaskedAnchors session job with
    | [] => none
    | chosen :: _ =>
      if session.askedQuestions = 0 then some (anchorDecision chosen)
      else
        let currentShare : ℚ := session.askedAnchorCompetencies.length / session.askedQuestions
        if job.anchorRatio ≤ currentShare then none else some (anchorDecision chosen)

def laneFor (decision : AgentDecision) : QuestionLane :=
  if decision.completesInterview then .closing
  else if startsWith decision.reason "anchor:" then .anchor
  else .adaptive

theorem nextAnchor_some {session : InterviewSession} {job : JobSpec} {decision : AgentDecision}
    (h : nextAnchor session job = some decision) :
    ∃ chosen ∈ unaskedAnchors session job, decision = anchorDecision chosen := by
  unfold nextAnchor at h
  split at h
  next => cases h
  next =>
    split at h
    next => cases h
    next chosen rest hu =>
      refine ⟨chosen, by rw [hu]; exact List.mem_cons_self, ?_⟩
      split at h
      next => exact (Option.some.inj h).symm
      next =>
        simp only at h
        split at h
        next => cases h
        next => exact (Option.some.inj h).symm

/-- The minimum share of anchors, in one of three ways. -/
def ShareMet (job : JobSpec) (session : InterviewSession) : Prop :=
  anchorBudget job ≤ session.askedAnchorCompetencies.length ∨ unaskedAnchors session job = [] ∨
    session.askedQuestions ≠ 0 ∧
      job.anchorRatio ≤ (session.askedAnchorCompetencies.length : ℚ) / session.askedQuestions

/-- The planner leaves the turn to the brain exactly when the share is met. -/
theorem nextAnchor_eq_none {session : InterviewSession} {job : JobSpec} :
    nextAnchor session job = none ↔ ShareMet job session := by
  unfold nextAnchor ShareMet
  split
  next hbudget => exact iff_of_true rfl (Or.inl hbudget)
  next hbudget =>
    split
    next hnone => exact iff_of_true rfl (Or.inr (Or.inl hnone))
    next chosen rest hunasked =>
      split
      next hzero =>
        refine iff_of_false nofun ?_
        rintro (h | h | ⟨h, _⟩)
        · exact hbudget h
        · rw [hunasked] at h
          cases h
        · exact h hzero
      next hasked =>
        simp only
        split
        next hshare => exact iff_of_true rfl (Or.inr (Or.inr ⟨hasked, hshare⟩))
        next hshare =>
          refine iff_of_false nofun ?_
          rintro (h | h | ⟨_, h⟩)
          · exact hbudget h
          · rw [hunasked] at h
            cases h
          · exact hshare h

theorem anchorDecision_lane (chosen : Competency) : laneFor (anchorDecision chosen) = .anchor := by
  have hs : startsWith "anchor:standardized_anchor" "anchor:" = true := by decide
  simp [laneFor, anchorDecision, hs]

theorem mem_unaskedAnchors {session : InterviewSession} {job : JobSpec} {c : Competency} :
    c ∈ unaskedAnchors session job ↔
      c ∈ job.competencies ∧ c.anchored = true ∧ c.id ∉ session.askedAnchorCompetencies := by
  simp [unaskedAnchors]

end NoraInterviewer
