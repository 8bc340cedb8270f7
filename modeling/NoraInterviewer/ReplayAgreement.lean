import NoraInterviewer.ReplayEffects
import NoraInterviewer.Execution

namespace NoraInterviewer

open ExceptRules

section

variable [CanonicalDigest]

/-- The calls after which replay still sees what the session says: a tool submitted while the
session is paused does not complete it, and a tool given to `open_tool` has an id and is
neither evaluated nor cancelled. -/
def ReplaySafe (call : Call) (operation : Operation) (session : InterviewSession) : Prop :=
  match operation with
  | .submitTool toolId request => session.paused = true →
      ∀ job decision, call.job = some job → ToolDecision call session job toolId request decision →
        decision.completesInterview = false
  | .openTool tool => tool.id ≠ "" ∧ tool.status ≠ .evaluated ∧ tool.status ≠ .cancelled
  | _ => True

theorem AnswerDecision.unpaused {call : Call} {session : InterviewSession} {job : JobSpec}
    {text : String} {turnMetadata : Dict Json} {decision : AgentDecision}
    (h : AnswerDecision call session job text turnMetadata decision) : session.paused = false := by
  obtain ⟨shown, _, _, hshown, _⟩ := h
  unfold prepareAnswer at hshown
  obtain ⟨_, hshown⟩ := ite_error_ok hshown
  obtain ⟨_, hshown⟩ := ite_error_ok hshown
  obtain ⟨hp, _⟩ := ite_error_ok hshown
  exact Bool.eq_false_iff.mpr hp

theorem replayed_fresh {session : InterviewSession} (h : Fresh session) : Replayed session := by
  obtain ⟨payload, hlog⟩ := h.log
  refine ⟨?_, by simp [h.turns], by simp [h.tools], by simp [h.tools]⟩
  rw [hlog]
  constructor <;> simp [replayLog, replayEntry, h.status, h.paused, h.turns, h.tools,
    h.transcriptRevisions, h.appeals, h.toolSubmissions, hasStatus]

omit [CanonicalDigest] in
theorem Replayed.stored {session : InterviewSession} (h : Replayed session) (backend : Backend) :
    Replayed (backend.stored session) := by
  obtain ⟨⟨h1, h2, h3, h4, h5, h6, h7, h8, h9, h10⟩, ht, hi, hn⟩ := h
  cases backend with
  | memory => exact ⟨⟨h1, h2, h3, h4, h5, h6, h7, h8, h9, h10⟩, ht, hi, hn⟩
  | json => exact ⟨⟨h1, h2, h3, h4, h5, h6, h7, h8, h9, h10⟩, ht, hi, hn⟩

theorem ReplaySafe.decides {call : Call} {job : JobSpec} {operation : Operation}
    {session : InterviewSession} (h : ReplaySafe call operation session) (hj : call.job = some job)
    (stance : Stance) (decision : AgentDecision)
    (hd : (operation.policy call job session).decides stance decision)
    (hc : decision.completesInterview = true) : stance.paused = false := by
  obtain ⟨rfl, htakes⟩ := hd
  cases operation with
  | answer => exact htakes.unpaused
  | submitTool toolId request =>
    by_contra hp
    have hno := h (Bool.not_eq_false _ ▸ hp) job decision hj htakes
    rw [hc] at hno
    cases hno
  | _ => exact absurd htakes id

theorem ReplaySafe.opens {call : Call} {job : JobSpec} {operation : Operation}
    {session : InterviewSession} (h : ReplaySafe call operation session) (tool : ToolInvocation)
    (ho : (operation.policy call job session).opens tool) :
    tool.id ≠ "" ∧ tool.status ≠ .evaluated ∧ tool.status ≠ .cancelled := by
  rcases ho with ⟨hi, hs⟩ | rfl
  · exact ⟨hi, by simp [hs], by simp [hs]⟩
  · exact h

theorem History.replayed {backend : Backend} {versions : List InterviewSession}
    (h : History backend ReplaySafe versions) : ∀ session ∈ versions, Replayed session := by
  refine h.invariant (fun _ => replayed_fresh) (fun _ hs => hs.stored backend) ?_
  intro call job operation session session' hj ha hs heffects
  exact heffects.invariant (fun h he => h.effect (ha.decides hj) ha.opens he) hs

/-- Replay of any version that such calls lead to succeeds, and agrees with the session. -/
theorem replay_agrees {backend : Backend} {versions : List InterviewSession}
    (h : History backend ReplaySafe versions) :
    ∀ session ∈ versions, ∃ state,
      replayEvents session.id session.events = .ok state ∧ Agrees state session := by
  intro session hs
  obtain ⟨state, hr, hsame⟩ := replayEvents_of_sealed session.id (h.sealed session hs)
  obtain ⟨h1, h2, h3, h4, h5, h6, h7, h8, h9, h10⟩ := (h.replayed session hs).agrees
  refine ⟨state, hr, hsame.status.trans h1, hsame.paused.trans h2, hsame.interviewerTurnIds.trans h3,
    hsame.candidateTurnIds.trans h4, hsame.correctedTurnIds.trans h5, hsame.appealIds.trans h6,
    ?_, ?_, ?_, ?_⟩
  · intro id
    rw [hsame.openedToolIds]
    exact h7 id
  · intro id
    rw [hsame.submittedToolIds]
    exact h8 id
  · intro id
    rw [hsame.evaluatedToolIds]
    exact h9 id
  · intro id
    rw [hsame.cancelledToolIds]
    exact h10 id

end

section Runs

attribute [local instance] checksumDigest

/-- A tool is open when the candidate takes thinking time. -/
def interruptedCalls : List (Call × Operation) := [
  (plainCall askDecision, .start),
  (plainCall askDecision, .openTool plainTool),
  (plainCall askDecision, .candidateControl { kind := .thinkingTime })]

theorem replay_agrees_interrupted :
    ∃ versions, jobRun plainJob .memory interruptedCalls = some versions ∧
      ∀ session ∈ versions, ∃ state,
        replayEvents session.id session.events = .ok state ∧ Agrees state session := by
  have hrun : (jobRun plainJob .memory interruptedCalls).isSome = true := by decide +kernel
  obtain ⟨versions, hv⟩ := Option.isSome_iff_exists.mp hrun
  have hhistory := jobRun_history (fun _ operation => operation = .start ∨
    operation = .openTool plainTool ∨ operation = .candidateControl { kind := .thinkingTime }) hv
    (by simp [interruptedCalls])
  refine ⟨versions, hv, replay_agrees (hhistory.mono ?_)⟩
  rintro call operation session ⟨_, rfl | rfl | rfl⟩
  · trivial
  · exact ⟨by decide, by decide, by decide⟩
  · trivial

/-- The tool is then submitted and the brain is satisfied: the session is complete and still
paused, and replay says that it is not paused. -/
theorem replay_disagrees_on_paused_completion :
    ¬∀ versions, History .memory (Admits fun _ _ => True) versions →
      ∀ session ∈ versions, ∃ state,
        replayEvents session.id session.events = .ok state ∧ Agrees state session := by
  intro hclaim
  have hrun : (jobRun plainJob .memory (interruptedCalls ++
      [(plainCall closeDecision, .submitTool "artifact" {})])).any (fun versions =>
        versions.head?.any fun session =>
          session.paused && !(replayLog session.id session.log).paused) = true := by
    decide +kernel
  obtain ⟨session, past, hhistory, hcheck⟩ := jobRun_last (fun _ _ => True) (fun _ _ => trivial) hrun
  obtain ⟨state, hr, hagrees⟩ := hclaim _ hhistory session List.mem_cons_self
  have hsealed := hhistory.sealed session List.mem_cons_self
  obtain ⟨state', hr', hsame⟩ := replayEvents_of_sealed session.id hsealed
  have hstate : state = state' := Except.ok.inj (hr.symm.trans hr')
  have hpaused : (replayLog session.id session.log).paused = session.paused :=
    hsame.paused.symm.trans (hstate ▸ hagrees.paused)
  rw [hpaused] at hcheck
  simp at hcheck

end Runs

end NoraInterviewer
