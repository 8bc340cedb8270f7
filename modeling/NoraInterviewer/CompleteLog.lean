import NoraInterviewer.JudgeLog
import NoraInterviewer.CurrentFindings

namespace NoraInterviewer

open ExceptRules Ledgers

section Operations

variable [CanonicalDigest] {call : Call} {job : JobSpec}

theorem recordAnswerEvidence_run {session session' : InterviewSession} {question : Option Turn}
    {candidate : Turn}
    (h : recordAnswerEvidence call session job question candidate = .ok session') :
    Run session.ledger session'.ledger := by
  unfold recordAnswerEvidence at h
  split at h
  next => cases h; exact .refl
  next question =>
    split at h
    next => cases h; exact .refl
    next =>
      obtain ⟨⟨claimed, created⟩, hclaimed, h⟩ := bind_ok h
      obtain ⟨logged, hlogged, h⟩ := bind_ok h
      obtain ⟨⟨judged, run⟩, hjudged, h⟩ := bind_ok h
      cases h
      exact (recordClaims_run hclaimed hlogged).trans (judgeCandidateEvidence_run hjudged)

theorem answer_run {session session' : InterviewSession} {text : String} {turnMetadata : Dict Json}
    {step : SessionStep}
    (h : answer call session job text turnMetadata = .ok (.commit session' step)) :
    Run session.ledger session'.ledger := by
  obtain ⟨shown, hshown, h⟩ := bind_ok h
  obtain ⟨⟨decided, decision, latencyMs⟩, hdecided, h⟩ := bind_ok h
  obtain ⟨⟨asked, turn⟩, hasked, h⟩ := bind_ok h
  obtain ⟨⟨tooled, tool⟩, htooled, h⟩ := bind_ok h
  obtain ⟨completed, hcompleted, h⟩ := bind_ok h
  cases h
  rw [completeIfAsked_ledger hcompleted, openRequestedTool_ledger htooled, countFollowup_ledger,
    applyDecision_ledger hasked, decideAfterAnswer_ledger hdecided]
  unfold prepareAnswer at hshown
  obtain ⟨_, hshown⟩ := ite_error_ok hshown
  obtain ⟨_, hshown⟩ := ite_error_ok hshown
  obtain ⟨_, hshown⟩ := ite_error_ok hshown
  obtain ⟨⟨recorded, candidate⟩, hrecorded, hshown⟩ := bind_ok hshown
  obtain ⟨logged, hlogged, hrecorded⟩ := bind_ok hrecorded
  cases hrecorded
  have hturn := appendEvent_ledger rfl hlogged
  have hbefore : recorded.ledger = session.ledger := hturn
  rw [← hbefore]
  exact recordAnswerEvidence_run hshown

theorem reevaluateEvidence_run {session session' : InterviewSession} {answerTurnId : String}
    {run : EvidenceJudgeRun}
    (h : reevaluateEvidence call session job answerTurnId = .ok (.commit session' run)) :
    Run session.ledger session'.ledger := by
  unfold reevaluateEvidence at h
  obtain ⟨_, h⟩ := ite_error_ok h
  split at h
  next => cases h
  next =>
    obtain ⟨_, h⟩ := ite_error_ok h
    obtain ⟨_, h⟩ := ite_error_ok h
    simp only at h
    split at h
    next => cases h
    next =>
      obtain ⟨⟨judged, result⟩, hjudged, h⟩ := bind_ok h
      split at h
      next => cases h
      next =>
        cases h
        exact judgeCandidateEvidence_run hjudged

/-- What an operation commits, seen from the books. -/
theorem mutate_run {operation : Operation} {session session' : InterviewSession}
    (h : mutate call operation session = .ok (some session')) :
    Run session.ledger session'.ledger := by
  unfold mutate at h
  split at h
  next => cases h
  next job hjob =>
    cases operation with
    | start =>
      obtain ⟨_ | ⟨_, _⟩, hout, hw⟩ := map_ok h <;> cases hw
      rw [start_ledger hout]
    | answer text turnMetadata =>
      obtain ⟨_ | ⟨_, _⟩, hout, hw⟩ := map_ok h <;> cases hw
      exact answer_run hout
    | cancelSession request =>
      obtain ⟨_ | ⟨_, _⟩, hout, hw⟩ := map_ok h <;> cases hw
      rw [cancelSession_ledger hout]
    | reevaluateEvidence answerTurnId =>
      obtain ⟨_ | ⟨_, _⟩, hout, hw⟩ := map_ok h <;> cases hw
      exact reevaluateEvidence_run hout
    | candidateControl request =>
      obtain ⟨_ | ⟨_, _⟩, hout, hw⟩ := map_ok h <;> cases hw
      exact candidateControl_run hout
    | openCodingChallenge request =>
      obtain ⟨_ | ⟨_, _⟩, hout, hw⟩ := map_ok h <;> cases hw
      rw [openCodingChallenge_ledger hout]
    | openTool invocation =>
      obtain ⟨_ | ⟨_, _⟩, hout, hw⟩ := map_ok h <;> cases hw
      rw [openTool_ledger hout]
    | submitTool toolId request =>
      obtain ⟨_ | ⟨_, _⟩, hout, hw⟩ := map_ok h <;> cases hw
      exact submitTool_run hout
    | correctTranscript request =>
      obtain ⟨_ | ⟨_, _⟩, hout, hw⟩ := map_ok h <;> cases hw
      exact correctTranscript_run hout
    | submitAppeal request =>
      obtain ⟨_ | ⟨_, _⟩, hout, hw⟩ := map_ok h <;> cases hw
      rw [submitAppeal_ledger hout]
    | reviewAppeal appealId request =>
      obtain ⟨_ | ⟨_, _⟩, hout, hw⟩ := map_ok h <;> cases hw
      rw [reviewAppeal_ledger hout]
    | submitIntegritySignal request =>
      obtain ⟨_ | ⟨_, _⟩, hout, hw⟩ := map_ok h <;> cases hw
      rw [submitIntegritySignal_ledger hout]
    | reviewIntegritySignal signalId request =>
      obtain ⟨_ | ⟨_, _⟩, hout, hw⟩ := map_ok h <;> cases hw
      rw [reviewIntegritySignal_ledger hout]
    | observeEvidence observation =>
      obtain ⟨_ | ⟨_, _⟩, hout, hw⟩ := map_ok h <;> cases hw
      exact observeEvidence_run hout

/-- What the log of a session says about its evidence: every item was observed, exactly the
inactive ones were superseded, and only after that, and every judge run was recorded, after a note
that it failed if it did. -/
structure EvidenceLogged (session : InterviewSession) : Prop where
  observed : ((eventFacts session.events).filterMap Fact.comesIn).Perm
    ((evidenceItems session.evidenceGraph).map EvidenceItem.id)
  superseded : ((eventFacts session.events).filterMap Fact.goesOut).Perm
    (((evidenceItems session.evidenceGraph).filter fun item => !item.active).map EvidenceItem.id)
  ordered : ∀ before id after, eventFacts session.events = before ++ .withdrawn id :: after →
    .added id ∈ before
  runs : (eventFacts session.events).filter Fact.ofRun =
    session.evidenceJudgeRuns.flatMap fun run => runFacts (run.id, run.errorType.isSome)

omit [CanonicalDigest] in
theorem evidenceLogged_of_balanced {session : InterviewSession} (h : Balanced session.ledger) :
    EvidenceLogged session := by
  have hids := h.added
  have hinactive := h.withdrawn
  have hruns := h.runs
  simp only [InterviewSession.ledger, List.map_map, List.filter_map, List.flatMap_map] at hids hinactive hruns
  exact ⟨hids, hinactive, fun before id after heq => h.withdrawn_after heq, hruns⟩

/-- The evidence log is complete in every version, whatever brains, judges and tool evaluators the
calls have, and however their judge runs end. -/
theorem evidence_log_complete {backend : Backend} {versions : List InterviewSession}
    {admissible : Call → Operation → InterviewSession → Prop}
    (h : History backend admissible versions) :
    ∀ session ∈ versions, EvidenceLogged session := by
  have hbalanced : ∀ session ∈ versions, Balanced session.ledger := by
    have hstored : ∀ session : InterviewSession,
        (backend.stored session).ledger = session.ledger := by
      intro session
      cases backend with
      | memory => rfl
      | json => rfl
    induction h with
    | created h =>
      intro session hs
      rw [List.mem_singleton.mp hs, hstored, createSession_ledger h]
      exact balanced_nil
    | committed _ _ hm ih =>
      intro session hs
      rcases List.mem_cons.mp hs with rfl | hs
      · rw [hstored]
        exact (ih _ List.mem_cons_self).run (mutate_run hm)
      · exact ih session hs
  exact fun session hs => evidenceLogged_of_balanced (hbalanced session hs)

end Operations

section Runs

attribute [local instance] checksumDigest

/-- An answer is judged, judged again, and then corrected. -/
def retractedCalls : List (Call × Operation) :=
  rejudgedCalls ++ [(llmCall, .correctTranscript {
    turnId := "turn||"
    correctedText := "I built a cache." })]

theorem evidence_log_complete_corrected :
    ∃ session : InterviewSession, EvidenceLogged session ∧
      (eventFacts session.events).filterMap Fact.goesOut ≠ [] := by
  have hrun : (jobRun plainJob .json retractedCalls).any (fun versions =>
      versions.head?.any fun session =>
        decide ((eventFacts session.events).filterMap Fact.goesOut ≠ [])) = true := by
    decide +kernel
  obtain ⟨session, past, hhistory, hcheck⟩ := jobRun_last (fun _ _ => True) (by simp) hrun
  exact ⟨session, evidence_log_complete hhistory session List.mem_cons_self, of_decide_eq_true hcheck⟩

end Runs

end NoraInterviewer
