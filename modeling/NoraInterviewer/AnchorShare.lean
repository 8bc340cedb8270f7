import NoraInterviewer.BrainDecisions
import NoraInterviewer.Execution

namespace NoraInterviewer

/-- The share is met by a session that is complete. -/
def MeetsShare (job : JobSpec) (session : InterviewSession) : Prop :=
  session.status = .completed → ShareMet job session

theorem MeetsShare.congr {job : JobSpec} {session session' : InterviewSession}
    (h : MeetsShare job session) (hs : session'.status = session.status)
    (hq : session'.askedQuestions = session.askedQuestions)
    (ha : session'.askedAnchorCompetencies = session.askedAnchorCompetencies) :
    MeetsShare job session' := by
  intro hc
  have hmet := h (hs ▸ hc)
  simpa only [ShareMet, unaskedAnchors, hq, ha] using hmet

section

variable [CanonicalDigest]

theorem MeetsShare.effect {policy : Policy} {job : JobSpec} {session session' : InterviewSession}
    (hd : ∀ decision, policy.decides session.stance decision →
      decision.completesInterview = true → nextAnchor session job = none)
    (h : MeetsShare job session) (he : Effect policy session session') : MeetsShare job session' := by
  cases he with
  | evidence he =>
    obtain ⟨_, _, _, _, rfl, _⟩ := he
    exact h.congr rfl rfl rfl
  | started => exact nofun
  | asked ha => exact fun hc => absurd hc ha.1
  | completed _ hdecides hc => exact fun _ => nextAnchor_eq_none.mp (hd _ hdecides hc)
  | cancelled => exact nofun
  | _ => exact h.congr rfl rfl rfl

/-- The condition on the calls of a run: no submitted tool is handed a completing decision of a
model while the planner has an anchor due. -/
def KeepsShare (job : JobSpec) (call : Call) (operation : Operation) (session : InterviewSession) :
    Prop :=
  Admits (UnderBuiltIn job) call operation session ∧
    ∀ toolId request decision, operation = .submitTool toolId request → UsesModel call.brain →
      ToolDecision call session job toolId request decision →
      decision.completesInterview = true → nextAnchor session job = none

omit [CanonicalDigest] in
theorem anchor_continues {session : InterviewSession} {job : JobSpec} {decision : AgentDecision}
    (h : nextAnchor session job = some decision) : decision.completesInterview = false := by
  obtain ⟨chosen, _, rfl⟩ := nextAnchor_some h
  rfl

theorem KeepsShare.decides {job : JobSpec} {call : Call} {operation : Operation}
    {session : InterviewSession} (h : KeepsShare job call operation session)
    {decision : AgentDecision} (ht : operation.Takes call job session decision)
    (hc : decision.completesInterview = true) : nextAnchor session job = none := by
  obtain ⟨⟨_, _, hb⟩, htool⟩ := h
  rcases ht.heard with hanchor | hheard
  · rw [anchor_continues hanchor] at hc
    cases hc
  · cases operation with
    | answer text turnMetadata =>
      have hplain : decision.EndsPlainly := hheard.given hb.endsPlainly
      obtain ⟨_, _, _, _, hparent | hnone⟩ := hheard
      · rw [hplain hc] at hparent
        cases hparent
      · exact hnone
    | submitTool toolId request =>
      rcases hb with ⟨isWord, hrule⟩ | hmodel
      · have hno := RuleBasedBrain.toolDecision_continues hrule hheard
        rw [hc] at hno
        cases hno
      · exact htool toolId request decision rfl hmodel hheard hc
    | _ => exact absurd ht id

/-- In every run that meets the condition a session is completed with its share of anchors. -/
theorem share_at_completion {job : JobSpec} {backend : Backend} {versions : List InterviewSession}
    (h : History backend (KeepsShare job) versions) :
    ∀ session ∈ versions, session.status = .completed → ShareMet job session := by
  refine h.invariant (P := MeetsShare job) (fun session hf hc => ?_) (fun session hs => ?_) ?_
  · rw [hf.status] at hc
    cases hc
  · cases backend with
    | memory => exact hs.congr rfl rfl rfl
    | json => exact hs.congr rfl rfl rfl
  · intro call job' operation session session' hj ha hs heffects
    have hjob : job' = job := Option.some.inj (hj.symm.trans ha.1.2.1)
    subst hjob
    refine heffects.invariant (fun {mid _} h he => h.effect (fun decision hd hc => ?_) he) hs
    obtain ⟨hstance, htakes⟩ := hd
    rw [nextAnchor_congr hstance]
    exact ha.decides htakes hc

end

section Runs

attribute [local instance] checksumDigest

/-- A model that always says the same. -/
def scripted (output : BrainOutput) : Call := jobCall anchoredJob (llmBrain fun _ _ _ => .ok output)

def followUpOutput : BrainOutput where
  action := .followUp
  text := "What did you measure?"
  competencyIds := ["systems"]
  reason := "probe verification"
  text_range := by decide
  toolTemplateId_range := no_template_range
  reason_range := by decide

def completeOutput : BrainOutput where
  action := .complete
  text := "Thank you."
  reason := "enough evidence"
  text_range := by decide
  toolTemplateId_range := no_template_range
  reason_range := by decide

theorem scripted_builtIn (output : BrainOutput) (operation : Operation) :
    UnderBuiltIn anchoredJob (scripted output) operation :=
  ⟨rfl, Or.inr (.alone _)⟩

/-- The model is asked to go on once because the second anchor is due. -/
theorem share_at_completion_second_anchor :
    ∃ versions, jobRun anchoredJob .memory [
        (scripted followUpOutput, .start),
        (scripted followUpOutput, .answer "I built a queue." []),
        (scripted completeOutput, .answer "It was fast." []),
        (scripted completeOutput, .answer "It kept an order." [])] = some versions ∧
      versions.map InterviewSession.status = [.completed, .running, .running, .running, .created] ∧
      ∀ session ∈ versions, session.status = .completed → ShareMet anchoredJob session := by
  have hrun : (jobRun anchoredJob .memory [
      (scripted followUpOutput, .start),
      (scripted followUpOutput, .answer "I built a queue." []),
      (scripted completeOutput, .answer "It was fast." []),
      (scripted completeOutput, .answer "It kept an order." [])]).any (fun versions =>
        versions.map InterviewSession.status =
          [.completed, .running, .running, .running, .created]) = true := by
    decide +kernel
  obtain ⟨versions, hv, hcheck⟩ := (Option.any_eq_true _ _).mp hrun
  have hhistory := jobRun_history (fun call operation => UnderBuiltIn anchoredJob call operation ∧
    ∀ toolId request, operation ≠ .submitTool toolId request) hv (by simp [scripted_builtIn])
  have hkeeps : History .memory (KeepsShare anchoredJob) versions := by
    refine hhistory.mono ?_
    rintro call operation session ⟨hready, hb, hno⟩
    exact ⟨⟨hready, hb⟩, fun toolId request _ he => absurd he (hno toolId request)⟩
  exact ⟨versions, hv, of_decide_eq_true hcheck, share_at_completion hkeeps⟩

/-- The model completes the interview after a tool, with one anchor in two questions. -/
theorem share_missed_after_tool :
    ¬∀ job backend versions, History backend (Admits (UnderBuiltIn job)) versions →
      ∀ session ∈ versions, session.status = .completed → ShareMet job session := by
  intro hclaim
  have hrun : (jobRun anchoredJob .memory [
      (scripted followUpOutput, .start),
      (scripted followUpOutput, .answer "I built a queue." []),
      (scripted followUpOutput, .openTool plainTool),
      (scripted completeOutput, .submitTool "artifact" {})]).any (fun versions =>
        versions.head?.any fun session => session.status = .completed &&
          (nextAnchor session anchoredJob).isSome) = true := by
    decide +kernel
  obtain ⟨session, past, hhistory, hcheck⟩ := jobRun_last (UnderBuiltIn anchoredJob)
    (by simp [scripted_builtIn]) hrun
  simp only [Bool.and_eq_true, decide_eq_true_eq] at hcheck
  obtain ⟨hcompleted, hdue⟩ := hcheck
  have hmet := hclaim _ _ _ hhistory session List.mem_cons_self hcompleted
  rw [nextAnchor_eq_none.mpr hmet] at hdue
  cases hdue

end Runs

end NoraInterviewer
