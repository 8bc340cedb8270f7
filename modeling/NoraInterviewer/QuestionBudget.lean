import NoraInterviewer.BrainDecisions
import NoraInterviewer.Execution

namespace NoraInterviewer

/-- The bound, and why the first question always fits. -/
structure WithinBudget (job : JobSpec) (session : InterviewSession) : Prop where
  asked : session.askedQuestions ≤ job.maxQuestions
  unasked : session.status = .created ∨ session.turns = [] → session.askedQuestions = 0

theorem countDecision_asked (session : InterviewSession) (decision : AgentDecision) :
    (countDecision session decision).askedQuestions ≤ session.askedQuestions + 1 := by
  simp only [countDecision]
  split
  · exact Nat.le_succ _
  · exact Nat.le_refl _

/-- A longer transcript of a session with the same status and counter. -/
theorem WithinBudget.congr {job : JobSpec} {session session' : InterviewSession}
    (h : WithinBudget job session) (hq : session'.askedQuestions = session.askedQuestions)
    (hs : session'.status = .created → session.status = .created)
    (ht : session'.turns = [] → session.turns = []) : WithinBudget job session' := by
  refine ⟨hq ▸ h.asked, fun hu => ?_⟩
  rw [hq]
  exact h.unasked (hu.imp hs ht)

section

variable [CanonicalDigest]

theorem WithinBudget.effect {policy : Policy} {job : JobSpec} {session session' : InterviewSession}
    (hd : ∀ stance decision, policy.decides stance decision → stance.status ≠ .created ∧
      (laneFor decision = .closing ∨ stance.askedQuestions < job.maxQuestions))
    (h : WithinBudget job session) (he : Effect policy session session') :
    WithinBudget job session' := by
  cases he with
  | evidence he =>
    obtain ⟨_, _, _, _, rfl, _⟩ := he
    exact h.congr rfl id id
  | @started decision turn first second events hs =>
    have hzero : session.askedQuestions = 0 := h.unasked (hs.imp id And.right)
    have hone : 1 ≤ job.maxQuestions := job.maxQuestions_range.1
    refine ⟨?_, fun hu => by simp [countDecision] at hu⟩
    have hroom : session.askedQuestions + 1 ≤ job.maxQuestions := by omega
    exact (countDecision_asked { session with turns := session.turns ++ [turn] } decision).trans hroom
  | @asked decision turn entry events _ hdecides =>
    obtain ⟨hstarted, hroom⟩ := hd _ _ hdecides
    refine ⟨?_, fun hu => ?_⟩
    · rcases hroom with hclosing | hless
      · simp only [countDecision, if_pos hclosing]
        exact h.asked
      · have hless : session.askedQuestions < job.maxQuestions := hless
        exact (countDecision_asked { session with turns := session.turns ++ [turn] } decision).trans hless
    · rcases hu with hcreated | hempty
      · exact absurd hcreated hstarted
      · simp [countDecision] at hempty
  | answered => exact h.congr rfl id fun ht => by simp at ht
  | worked => exact h.congr rfl id fun ht => by simp at ht
  | replied => exact h.congr rfl id fun ht => by simp at ht
  | @corrected index turn text metadata =>
    refine h.congr rfl id fun ht => ?_
    simpa [writeMetadata] using ht
  | completed => exact h.congr rfl (fun hs => by cases hs) id
  | cancelled => exact h.congr rfl (fun hs => by cases hs) id
  | _ => exact h.congr rfl id id

/-- The operations of a candidate. -/
def Operation.byCandidate : Operation → Bool
  | .start | .answer _ _ | .candidateControl _ => true
  | _ => false

/-- The calls of an interview on `job` under the rule-based brain. -/
def Interviews (isWord : Char → Bool) (job : JobSpec) (call : Call) (operation : Operation) : Prop :=
  call.job = some job ∧ call.brain = ruleBasedBrain isWord ∧ operation.byCandidate = true

/-- The condition on the calls of a run: no accepted answer finds the questions used up and an
anchor due. -/
def KeepsBudget (isWord : Char → Bool) (job : JobSpec) (call : Call) (operation : Operation)
    (session : InterviewSession) : Prop :=
  Admits (Interviews isWord job) call operation session ∧
    ∀ text turnMetadata, operation = .answer text turnMetadata →
      session.askedQuestions < job.maxQuestions ∨ nextAnchor session job = none

/-- At the limit the rule-based brain closes, and only the planner can put a question. -/
theorem AnswerDecision.closing {isWord : Char → Bool} {call : Call} {session : InterviewSession}
    {job : JobSpec} {text : String} {turnMetadata : Dict Json} {decision : AgentDecision}
    (hb : call.brain = ruleBasedBrain isWord)
    (h : AnswerDecision call session job text turnMetadata decision)
    (hlimit : job.maxQuestions ≤ session.askedQuestions) (hnone : nextAnchor session job = none) :
    laneFor decision = .closing := by
  rcases h.heard with hanchor | ⟨shown, covered, hshown, hreply, _⟩
  · rw [hnone] at hanchor
    cases hanchor
  · have hstance : shown.stance = session.stance := prepareAnswer_stance hshown
    have hasked : shown.askedQuestions = session.askedQuestions :=
      congrArg Stance.askedQuestions hstance
    rw [hb] at hreply
    have hclose : decision = RuleBasedBrain.close :=
      RuleBasedBrain.afterAnswer_at_limit hreply (hasked ▸ hlimit)
    rw [hclose]
    rfl

theorem KeepsBudget.decides {isWord : Char → Bool} {call : Call} {job : JobSpec}
    {operation : Operation} {session : InterviewSession}
    (h : KeepsBudget isWord job call operation session) (stance : Stance) (decision : AgentDecision)
    (hd : (operation.policy call job session).decides stance decision) :
    stance.status ≠ .created ∧
      (laneFor decision = .closing ∨ stance.askedQuestions < job.maxQuestions) := by
  obtain ⟨⟨hready, _, hb, hcandidate⟩, hroom⟩ := h
  obtain ⟨rfl, htakes⟩ := hd
  cases operation with
  | answer text turnMetadata =>
    refine ⟨hready, ?_⟩
    by_cases hless : session.askedQuestions < job.maxQuestions
    · exact Or.inr hless
    · exact Or.inl (AnswerDecision.closing hb htakes (Nat.le_of_not_lt hless)
        ((hroom text turnMetadata rfl).resolve_left hless))
  | submitTool => cases hcandidate
  | _ => exact absurd htakes id

end

section Runs

attribute [local instance] checksumDigest

def asciiWord (c : Char) : Bool := c.isAlphanum || c = '_'

def anchoredCall : Call := jobCall anchoredJob (ruleBasedBrain asciiWord)

end Runs

end NoraInterviewer
