import NoraInterviewer.JudgeSteps
import Mathlib.Data.List.Dedup

namespace NoraInterviewer

open ExceptRules

/-- The run as it is opened, before the judge is asked. -/
def openRun (call : Call) (dossier : Dossier) (question answer : Turn)
    (supersedesRunId : Option String) : EvidenceJudgeRun where
  id := call.uuid .judgeRun dossier.runs.length
  judgeId := call.judge.judgeId
  questionTurnId := question.id
  answerTurnId := answer.id
  competencyIds := question.competencyTags.reverse.dedup.reverse
  createdAt := call.now .judgeRun
  transcriptRevisionCount :=
    dossier.revisions.countP fun revision => revision.turnId = answer.id
  supersedesRunId := supersedesRunId

/-- The observations that the gate lets through, with the run they belong to. -/
structure Gated (call : Call) (job : JobSpec) (question answer : Turn) (run : EvidenceJudgeRun)
    (response : JudgeResponse) (observations : List EvidenceObservation) : Prop where
  evaluated : call.judge.evaluate question answer job run.competencyIds = .ok response
  passed : ∃ raw, validateFindings answer call.judge.judgeId response.findings = .ok raw ∧
    observations = raw.map fun observation => { observation with judgeRunId := some run.id }

/-- What became of the graph and of the run when a judge run was recorded. -/
inductive JudgeOutcome (call : Call) (job : JobSpec) (dossier : Dossier) (question answer : Turn)
    (supersedeExisting : Bool) (run : EvidenceJudgeRun) :
    Dict CompetencyEvidence → EvidenceJudgeRun → Prop where
  | refused {e : Raised}
    (h : call.judge.evaluate question answer job run.competencyIds = .error e ∨
      ∃ response, call.judge.evaluate question answer job run.competencyIds = .ok response ∧
        validateFindings answer call.judge.judgeId response.findings = .error e) :
    JudgeOutcome call job dossier question answer supersedeExisting run
      dossier.graph (run.fail (.raised e))
  | unreadable {response : JudgeResponse} {observations : List EvidenceObservation} {e : Raised}
    (hg : Gated call job question answer run response observations)
    (hr : auditReadable response.audit = false) :
    JudgeOutcome call job dossier question answer supersedeExisting run
      (priorGraph supersedeExisting answer.id dossier.graph)
      (EvidenceJudgeRun.fail { run with audit := response.audit } (.raised e))
  | interrupted {response : JudgeResponse} {placed rest : List EvidenceObservation}
    {observation : EvidenceObservation} {e : Raised}
    (hg : Gated call job question answer run response (placed ++ observation :: rest))
    (hr : auditReadable response.audit = true)
    (ha : ∀ other ∈ placed, Accepts dossier.turns job other)
    (ho : ¬Accepts dossier.turns job observation) :
    JudgeOutcome call job dossier question answer supersedeExisting run
      (placeAll call.toAmbient (priorGraph supersedeExisting answer.id dossier.graph) placed).1
      (EvidenceJudgeRun.fail { run with
        audit := response.audit
        observationIds := (placeAll call.toAmbient
          (priorGraph supersedeExisting answer.id dossier.graph) placed).2 } (.raised e))
  | completed {response : JudgeResponse} {observations : List EvidenceObservation}
    (hg : Gated call job question answer run response observations)
    (hr : auditReadable response.audit = true)
    (ha : ∀ other ∈ observations, Accepts dossier.turns job other) :
    JudgeOutcome call job dossier question answer supersedeExisting run
      (placeAll call.toAmbient
        (priorGraph supersedeExisting answer.id dossier.graph) observations).1
      { run with
        audit := response.audit
        observationIds := (placeAll call.toAmbient
          (priorGraph supersedeExisting answer.id dossier.graph) observations).2 }

variable [CanonicalDigest]

omit [CanonicalDigest] in
theorem validateFindings_caught {answer : Turn} {judgeId : String} {findings : List JudgeFinding}
    {e : Raised} (h : validateFindings answer judgeId findings = .error e) :
    (PyError.raised e).caughtByJudging = true := by
  induction findings with
  | nil => cases h
  | cons finding rest ih =>
    unfold validateFindings at h
    split at h
    next => cases h; rfl
    next =>
      split at h
      next => cases h; rfl
      next =>
        split at h
        next => cases h; rfl
        next =>
          split at h
          next => cases h; rfl
          next =>
            cases hr : validateFindings answer judgeId rest with
            | ok observations =>
              rw [hr] at h
              cases h
            | error e' =>
              rw [hr] at h
              cases h
              exact ih hr

/-- `_judge_candidate_evidence` opens a run. -/
structure JudgeAsked (call : Call) (question : Turn) : Prop where
  enabled : call.judge.judgeId ≠ "disabled"
  tagged : question.competencyTags ≠ []
  ranged : call.judge.judgeId ≠ "" ∧ call.judge.judgeId.length ≤ 500

theorem judgeCandidateEvidence_asked {call : Call} {question : Turn} (h : JudgeAsked call question)
    (session : InterviewSession) (job : JobSpec) (answer : Turn) (supersedeExisting : Bool)
    (supersedesRunId : Option String) :
    judgeCandidateEvidence call session job question answer supersedeExisting supersedesRunId =
      afterRun (judgeRun call job question answer
        (openRun call session.dossier question answer supersedesRunId).competencyIds supersedeExisting
        { session, run := openRun call session.dossier question answer supersedesRunId }) := by
  have hids : ¬(question.competencyTags.reverse.dedup.reverse.isEmpty = true) := by
    intro hempty
    rw [List.isEmpty_iff, List.reverse_eq_nil_iff, List.dedup_eq_nil, List.reverse_eq_nil_iff]
      at hempty
    exact h.tagged hempty
  have hrange : ¬(call.judge.judgeId = "" ∨ 500 < call.judge.judgeId.length) := by
    intro hout
    rcases hout with hout | hout
    · exact h.ranged.1 hout
    · exact absurd h.ranged.2 (by omega)
  unfold judgeCandidateEvidence
  simp only
  rw [if_neg h.enabled, if_neg hids, if_neg hrange]
  rfl

/-- A call that records a run has asked the judge. -/
theorem judgeCandidateEvidence_some {call : Call} {session session' : InterviewSession}
    {job : JobSpec} {question answer : Turn} {supersedeExisting : Bool}
    {supersedesRunId : Option String} {run : EvidenceJudgeRun}
    (h : judgeCandidateEvidence call session job question answer supersedeExisting
      supersedesRunId = .ok (session', some run)) : JudgeAsked call question := by
  unfold judgeCandidateEvidence at h
  simp only at h
  split at h
  next => cases h
  next henabled =>
    split at h
    next => cases h
    next hids =>
      obtain ⟨hrange, _⟩ := ite_error_ok h
      refine ⟨henabled, fun htags => hids (by rw [htags]; rfl), fun hempty => hrange (.inl hempty), ?_⟩
      exact Nat.le_of_not_lt fun hlong => hrange (.inr hlong)

/-- `_judge_candidate_evidence` goes by without a run only where it does not ask. -/
theorem judgeCandidateEvidence_none {call : Call} {session session' : InterviewSession}
    {job : JobSpec} {question answer : Turn} {supersedeExisting : Bool}
    {supersedesRunId : Option String}
    (h : judgeCandidateEvidence call session job question answer supersedeExisting
      supersedesRunId = .ok (session', none)) : session' = session := by
  unfold judgeCandidateEvidence at h
  simp only at h
  split at h
  next => cases h; rfl
  next =>
    split at h
    next => cases h; rfl
    next =>
      obtain ⟨_, h⟩ := ite_error_ok h
      unfold afterRun at h
      split at h
      next => cases h
      next => cases h

/-- The rest of the `try` once the gate has let the findings through. -/
def applyFindings (call : Call) (job : JobSpec) (question answer : Turn) (supersedeExisting : Bool)
    (response : JudgeResponse) (raw : List EvidenceObservation) : Judging Unit := do
  supersedePrior call.toAmbient answer supersedeExisting
  modify fun work => { work with run := { work.run with audit := response.audit } }
  recordEnsemble call.toAmbient call.judge.judgeId question answer response.audit
  let work ← get
  observeAll call.toAmbient job answer
    (raw.map fun observation => { observation with judgeRunId := some work.run.id })
  recordRun call.toAmbient answer

theorem judgeAttempt_gated {call : Call} {job : JobSpec} {question answer : Turn}
    {competencyIds : List String} {response : JudgeResponse} {raw : List EvidenceObservation}
    (he : call.judge.evaluate question answer job competencyIds = .ok response)
    (hv : validateFindings answer call.judge.judgeId response.findings = .ok raw)
    (supersedeExisting : Bool) (work : JudgeWork) :
    judgeAttempt call job question answer competencyIds supersedeExisting work =
      applyFindings call job question answer supersedeExisting response raw work := by
  unfold judgeAttempt
  rw [he]
  change (Judging.attempt (validateFindings answer call.judge.judgeId response.findings) >>= _) work = _
  rw [hv]
  rfl

/-- A handled exception leaves a failed run behind, and the session as far as it got. -/
theorem judgeRun_of_error {call : Call} {job : JobSpec} {question answer : Turn}
    {competencyIds : List String} {supersedeExisting : Bool} {work mid : JudgeWork} {e : PyError}
    (h : judgeAttempt call job question answer competencyIds supersedeExisting work = .error e mid)
    (hc : e.caughtByJudging = true) (happ : Appendable mid.session.events) :
    ∃ events, judgeRun call job question answer competencyIds supersedeExisting work =
        .ok () ((JudgeWork.keepRun { mid with run := mid.run.fail e }).logged events) ∧
      Appendable events := by
  obtain ⟨events, hf, hevents⟩ := recordFailure_keeps call question answer competencyIds e happ
  refine ⟨events, ?_, hevents⟩
  rw [judgeRun, h]
  simp only
  rw [if_pos hc, hf]

/-- The work once the prior findings gave way and the audit was kept. -/
def JudgeWork.prepared (work : JudgeWork) (supersedeExisting : Bool) (answerTurnId : String)
    (audit : Dict Json) (events : List InterviewEvent) : JudgeWork where
  session := { work.session with
    evidenceGraph := priorGraph supersedeExisting answerTurnId work.session.evidenceGraph
    events := events }
  run := { work.run with audit := audit }

/-- What the observations of a run are applied to. -/
def gatedObservations (run : EvidenceJudgeRun) (raw : List EvidenceObservation) :
    List EvidenceObservation :=
  raw.map fun observation => { observation with judgeRunId := some run.id }

theorem applyFindings_unreadable (call : Call) (job : JobSpec) (question answer : Turn)
    (supersedeExisting : Bool) {response : JudgeResponse} (raw : List EvidenceObservation)
    {work : JudgeWork} (happ : Appendable work.session.events)
    (hr : auditReadable response.audit = false) :
    ∃ events, applyFindings call job question answer supersedeExisting response raw work =
        .error (.raised (.typeError "object is not iterable"))
          (work.prepared supersedeExisting answer.id response.audit events) ∧
      Appendable events := by
  obtain ⟨events, hprior, hevents⟩ := supersedePrior_logs call.toAmbient answer supersedeExisting happ
  refine ⟨events, ?_, hevents⟩
  rw [applyFindings, Judging.bind_of_ok hprior, Judging.modify_bind]
  exact Judging.bind_of_error (recordEnsemble_raises _ _ question answer hr _)

theorem applyFindings_readable (call : Call) (job : JobSpec) (question answer : Turn)
    (supersedeExisting : Bool) {response : JudgeResponse} (raw : List EvidenceObservation)
    {work : JudgeWork} (happ : Appendable work.session.events)
    (hr : auditReadable response.audit = true) :
    ∃ events, applyFindings call job question answer supersedeExisting response raw work =
        (observeAll call.toAmbient job answer (gatedObservations work.run raw) >>= fun _ =>
          recordRun call.toAmbient answer)
          (work.prepared supersedeExisting answer.id response.audit events) ∧
      Appendable events := by
  obtain ⟨first, hprior, hfirst⟩ := supersedePrior_logs call.toAmbient answer supersedeExisting happ
  have hprepared : Appendable
      (work.prepared supersedeExisting answer.id response.audit first).session.events := hfirst
  obtain ⟨events, hensemble, hevents⟩ :=
    recordEnsemble_logs call.toAmbient call.judge.judgeId question answer hr hprepared
  refine ⟨events, ?_, hevents⟩
  rw [applyFindings, Judging.bind_of_ok hprior, Judging.modify_bind]
  exact Judging.bind_of_ok hensemble

theorem observeAll_completes (call : Ambient) (job : JobSpec) (answer : Turn)
    {observations : List EvidenceObservation} {work : JudgeWork}
    (h : Appendable work.session.events)
    (ha : ∀ observation ∈ observations, Accepts work.session.turns job observation) :
    ∃ events, observeAll call job answer observations work =
        .ok () (work.placed call observations events) ∧ Appendable events := by
  obtain ⟨events, hall, hevents⟩ := observeAll_places call job answer [] h ha
  rw [List.append_nil] at hall
  exact ⟨events, hall, hevents⟩

theorem observeAll_stops (call : Ambient) (job : JobSpec) (answer : Turn)
    {placed : List EvidenceObservation} (rest : List EvidenceObservation)
    {observation : EvidenceObservation} {work : JudgeWork} (h : Appendable work.session.events)
    (ha : ∀ other ∈ placed, Accepts work.session.turns job other)
    (ho : ¬Accepts work.session.turns job observation) :
    ∃ message events, observeAll call job answer (placed ++ observation :: rest) work =
        .error (.raised (.valueError message)) (work.placed call placed events) ∧
      Appendable events := by
  obtain ⟨events, hall, hevents⟩ := observeAll_places call job answer (observation :: rest) h ha
  have hrefused : ¬Accepts (work.placed call placed events).session.turns job observation := ho
  obtain ⟨message, he⟩ := applyObservation_of_refuses call hrefused
  have hone : observeOne call job answer observation (work.placed call placed events) =
      .error (.raised (.valueError message)) (work.placed call placed events) := by
    rw [observeOne, he]
  refine ⟨message, events, ?_, hevents⟩
  rw [hall, observeAll, Judging.bind_of_error hone]

/-- On a log that verifies, `_judge_candidate_evidence` records a run or lets an exception of the
judge through that it does not handle. -/
theorem judgeRun_total (call : Call) {session : InterviewSession} (job : JobSpec)
    (question answer : Turn) (supersedeExisting : Bool) (run : EvidenceJudgeRun)
    (happ : Appendable session.events) (hids : run.observationIds = []) :
    (∃ e, call.judge.evaluate question answer job run.competencyIds = .error e ∧
      judgeRun call job question answer run.competencyIds supersedeExisting { session, run } =
        .error (.raised e) { session, run }) ∨
    ∃ graph run' events,
      JudgeOutcome call job session.dossier question answer supersedeExisting run graph run' ∧
      Appendable events ∧
      judgeRun call job question answer run.competencyIds supersedeExisting { session, run } =
        .ok () { session := { session with
            evidenceGraph := graph
            evidenceJudgeRuns := session.evidenceJudgeRuns ++ [run']
            events := events }, run := run' } := by
  cases he : call.judge.evaluate question answer job run.competencyIds with
  | error e =>
    have hattempt : judgeAttempt call job question answer run.competencyIds supersedeExisting
        { session, run } = .error (.raised e) { session, run } := by
      unfold judgeAttempt
      rw [he]
      rfl
    by_cases hc : (PyError.raised e).caughtByJudging = true
    · right
      obtain ⟨events, hrun, hevents⟩ := judgeRun_of_error hattempt hc happ
      exact ⟨_, _, events, .refused (.inl he), hevents, hrun⟩
    · left
      refine ⟨e, rfl, ?_⟩
      rw [judgeRun, hattempt]
      simp only
      rw [if_neg hc]
  | ok response =>
    right
    cases hv : validateFindings answer call.judge.judgeId response.findings with
    | error e =>
      have hattempt : judgeAttempt call job question answer run.competencyIds supersedeExisting
          { session, run } = .error (.raised e) { session, run } := by
        unfold judgeAttempt
        rw [he]
        change (Judging.attempt
          (validateFindings answer call.judge.judgeId response.findings) >>= _) _ = _
        rw [hv]
        rfl
      obtain ⟨events, hrun, hevents⟩ := judgeRun_of_error hattempt (validateFindings_caught hv) happ
      exact ⟨_, _, events, .refused (.inr ⟨response, he, hv⟩), hevents, hrun⟩
    | ok raw =>
      have hattempt := judgeAttempt_gated he hv supersedeExisting { session, run }
      have hwork : Appendable (JudgeWork.mk session run).session.events := happ
      cases hr : auditReadable response.audit with
      | false =>
        obtain ⟨mid, hfindings, hmid⟩ := applyFindings_unreadable call job question answer
          supersedeExisting raw hwork hr
        obtain ⟨events, hrun, hevents⟩ := judgeRun_of_error (hattempt.trans hfindings) rfl hmid
        exact ⟨_, _, events, .unreadable ⟨he, raw, hv, rfl⟩ hr, hevents, hrun⟩
      | true =>
        obtain ⟨mid, hfindings, hmid⟩ := applyFindings_readable call job question answer
          supersedeExisting raw hwork hr
        have hprepared : Appendable (JudgeWork.prepared { session, run } supersedeExisting answer.id
          response.audit mid).session.events := hmid
        rcases accepted_or_refused session.turns job (gatedObservations run raw) with
          hall | ⟨placed, observation, rest, hobs, hplaced, hrefused⟩
        · obtain ⟨after, hobserved, hafter⟩ := observeAll_completes call.toAmbient job answer
            hprepared hall
          have hplaced : Appendable ((JudgeWork.prepared { session, run } supersedeExisting answer.id
            response.audit mid).placed call.toAmbient (gatedObservations run raw) after).session.events :=
            hafter
          obtain ⟨events, hrun, hevents⟩ := recordRun_keeps call.toAmbient answer hplaced
          refine ⟨_, _, events, .completed ⟨he, raw, hv, rfl⟩ hr hall, hevents, ?_⟩
          rw [judgeRun, hattempt, hfindings, Judging.bind_of_ok hobserved, hrun]
          simp only [JudgeWork.keepRun, JudgeWork.logged, JudgeWork.placed, JudgeWork.prepared, hids,
            List.nil_append]
          rfl
        · obtain ⟨message, after, hobserved, hafter⟩ := observeAll_stops call.toAmbient job answer
            rest hprepared hplaced hrefused
          have hfailed := Judging.bind_of_error (f := fun _ => recordRun call.toAmbient answer) hobserved
          rw [← hobs] at hfailed
          obtain ⟨events, hrun, hevents⟩ :=
            judgeRun_of_error (hattempt.trans (hfindings.trans hfailed)) rfl hafter
          refine ⟨_, _, events, .interrupted (e := .valueError message) ⟨he, raw, hv, hobs.symm⟩ hr
            hplaced hrefused, hevents, ?_⟩
          rw [hrun]
          simp only [JudgeWork.keepRun, JudgeWork.logged, JudgeWork.placed, JudgeWork.prepared, hids,
            List.nil_append, InterviewSession.dossier]

theorem judgeAttempt_fails (call : Call) (job : JobSpec) (question answer : Turn)
    (competencyIds : List String) (supersedeExisting : Bool) :
    Fails (judgeAttempt call job question answer competencyIds supersedeExisting) := by
  refine (silent_attempt _).fails fun response => (silent_attempt _).fails fun observations => ?_
  refine (supersedePrior_silent _ answer supersedeExisting).fails fun _ => ?_
  refine Silent.fails (silent_modify fun _ => rfl) fun _ => ?_
  refine (recordEnsemble_silent _ _ question answer _).fails fun _ => silent_get.fails fun _ => ?_
  refine (observeAll_silent _ job answer _).fails fun _ => ?_
  refine Silent.fails (silent_modify fun _ => rfl) fun _ => silent_get.fails fun _ => ?_
  exact fails_event _ _ _ _

theorem recordFailure_fails (call : Call) (question answer : Turn) (competencyIds : List String)
    (e : PyError) : Fails (recordFailure call question answer competencyIds e) := by
  refine Silent.fails (silent_modify fun _ => rfl) fun _ => ?_
  refine Silent.fails (silent_modify fun _ => rfl) fun _ => silent_get.fails fun _ => ?_
  exact (silent_event _ _ _ _).fails fun _ => fails_event _ _ _ _

/-- No run is recorded on a log that does not verify. -/
theorem judgeCandidateEvidence_appendable {call : Call} {session session' : InterviewSession}
    {job : JobSpec} {question answer : Turn} {supersedeExisting : Bool}
    {supersedesRunId : Option String} {run : EvidenceJudgeRun}
    (h : judgeCandidateEvidence call session job question answer supersedeExisting
      supersedesRunId = .ok (session', some run)) : Appendable session.events := by
  by_contra hw
  rw [judgeCandidateEvidence_asked (judgeCandidateEvidence_some h)] at h
  let work : JudgeWork := ⟨session, openRun call session.dossier question answer supersedesRunId⟩
  obtain ⟨e, mid, hattempt, hmid⟩ := judgeAttempt_fails call job question answer
    work.run.competencyIds supersedeExisting work hw
  rw [judgeRun, hattempt] at h
  simp only at h
  split at h
  next =>
    obtain ⟨_, _, hfailure, _⟩ := recordFailure_fails call question answer
      work.run.competencyIds e mid (hmid ▸ hw)
    rw [hfailure] at h
    cases h
  next => cases h

/-- A call that returns a run has recorded it, with its outcome. -/
theorem judgeCandidateEvidence_outcome {call : Call} {session session' : InterviewSession}
    {job : JobSpec} {question answer : Turn} {supersedeExisting : Bool}
    {supersedesRunId : Option String} {run : EvidenceJudgeRun}
    (h : judgeCandidateEvidence call session job question answer supersedeExisting
      supersedesRunId = .ok (session', some run)) :
    JudgeOutcome call job session.dossier question answer supersedeExisting
        (openRun call session.dossier question answer supersedesRunId) session'.evidenceGraph run ∧
      session' = { session with
        evidenceGraph := session'.evidenceGraph
        evidenceJudgeRuns := session.evidenceJudgeRuns ++ [run]
        events := session'.events } := by
  have happ := judgeCandidateEvidence_appendable h
  rw [judgeCandidateEvidence_asked (judgeCandidateEvidence_some h)] at h
  rcases judgeRun_total call job question answer supersedeExisting
    (openRun call session.dossier question answer supersedesRunId) happ rfl with
    ⟨e, _, hrun⟩ | ⟨graph, run', events, hout, _, hrun⟩
  · rw [hrun] at h
    cases h
  · rw [hrun] at h
    cases h
    exact ⟨hout, rfl⟩

end NoraInterviewer
