import NoraInterviewer.EvidenceLog

namespace NoraInterviewer

open ExceptRules Ledgers

variable [CanonicalDigest]

/-- How a judging step ends, and with which work. -/
def Concludes {α : Type} (returns raises : JudgeWork → Prop) : EStateM.Result PyError JudgeWork α → Prop
  | .ok _ work => returns work
  | .error _ work => raises work

/-- The books go on from one work to another, and the run has not failed yet. -/
structure JudgeWork.Continues (work work' : JudgeWork) : Prop where
  unfailed : work'.run.errorType = none
  run : work'.run.id = work.run.id
  books : Run work.session.ledger work'.session.ledger

/-- The step keeps the books, unless it leaves a log that does not verify. -/
def Keeps {α : Type} (m : Judging α) : Prop :=
  ∀ work : JudgeWork, work.run.errorType = none → Concludes work.Continues
    (fun work' => Appendable work'.session.events → work.Continues work') (m work)

omit [CanonicalDigest] in
theorem JudgeWork.Continues.refl {work : JudgeWork} (h : work.run.errorType = none) :
    work.Continues work :=
  ⟨h, rfl, .refl⟩

omit [CanonicalDigest] in
theorem JudgeWork.Continues.trans {a b c : JudgeWork} (hab : a.Continues b) (hbc : b.Continues c) :
    a.Continues c :=
  ⟨hbc.unfailed, hbc.run.trans hab.run, hab.books.trans hbc.books⟩

variable {α β : Type}

theorem Keeps.bind {m : Judging α} {f : α → Judging β} (hm : Keeps m) (hf : ∀ a, Keeps (f a)) :
    Keeps (m >>= f) := by
  intro work hwork
  have h := hm work hwork
  cases hx : m work with
  | error e mid =>
    rw [hx] at h
    rw [Judging.bind_of_error hx]
    exact h
  | ok a mid =>
    rw [hx] at h
    have hmid : work.Continues mid := h
    rw [Judging.bind_of_ok hx]
    have hrest := hf a mid hmid.unfailed
    cases hy : f a mid with
    | ok b last =>
      rw [hy] at hrest
      exact hmid.trans hrest
    | error e last =>
      rw [hy] at hrest
      exact fun happ => hmid.trans (hrest happ)

theorem keeps_pure (a : α) : Keeps (pure a : Judging α) :=
  fun _ hwork => .refl hwork

theorem keeps_get : Keeps (get : Judging JudgeWork) :=
  fun _ hwork => .refl hwork

theorem keeps_modify {g : JudgeWork → JudgeWork}
    (hg : ∀ work : JudgeWork, work.run.errorType = none → work.Continues (g work)) :
    Keeps (modify g : Judging PUnit) :=
  hg

theorem keeps_attempt (x : Except Raised α) : Keeps (Judging.attempt x) := by
  intro work hwork
  cases x with
  | ok a => exact .refl hwork
  | error e => exact fun _ => .refl hwork

/-- An event is appended, or the log did not verify. -/
theorem event_ended (call : Ambient) (type : EventType) (turn : Option Turn) (payload : Dict Json)
    (work : JudgeWork) :
    Concludes (fun work' => ∃ events, work' = work.logged events ∧
        eventFacts events = eventFacts work.session.events ++
          (LogEntry.fact ⟨type, turn.map Turn.id, withTrace call.correlationId payload⟩).toList)
      (fun work' => ¬Appendable work'.session.events)
      (Judging.onSession (fun session => appendEvent call session type turn payload) work) := by
  simp only [Judging.onSession]
  cases happend : appendEvent call work.session type turn payload with
  | ok session =>
    obtain ⟨events, rfl, hfacts⟩ := appendEvent_facts happend
    exact ⟨events, rfl, hfacts⟩
  | error e =>
    intro happ
    obtain ⟨events, hok, _⟩ := happ.append call type turn payload
    rw [happend] at hok
    cases hok

theorem keeps_event (call : Ambient) {type : EventType} (ht : type.factual = false)
    (turn : Option Turn) (payload : Dict Json) :
    Keeps (Judging.onSession fun session => appendEvent call session type turn payload) := by
  intro work hwork
  have h := event_ended call type turn payload work
  cases hx : Judging.onSession (fun session => appendEvent call session type turn payload) work with
  | ok a work' =>
    rw [hx] at h
    obtain ⟨events, rfl, hfacts⟩ := h
    rw [LogEntry.fact_none ht, Option.toList_none, List.append_nil] at hfacts
    refine ⟨hwork, rfl, ?_⟩
    have hsame : (work.logged events).session.ledger = work.session.ledger := by
      simp only [JudgeWork.logged, InterviewSession.ledger]
      rw [hfacts]
    rw [hsame]
  | error e work' =>
    rw [hx] at h
    exact fun happ => absurd happ h

/-- The events of what a run supersedes, all of them or up to a log that does not verify. -/
theorem recordSuperseded_ended (call : Ambient) (answer : Turn) (runId : String)
    (items : List EvidenceItem) (work : JudgeWork) :
    Concludes (fun work' => ∃ events, work' = work.logged events ∧
        eventFacts events = eventFacts work.session.events ++
          (items.map EvidenceItem.id).map .withdrawn)
      (fun work' => ¬Appendable work'.session.events)
      (recordSuperseded call answer runId items work) := by
  induction items generalizing work with
  | nil => exact ⟨work.session.events, rfl, (List.append_nil _).symm⟩
  | cons item rest ih =>
    have h := event_ended call .evidenceSuperseded (some answer)
      (supersededPayload item answer.id runId) work
    unfold recordSuperseded
    cases hx : Judging.onSession (fun session => appendEvent call session .evidenceSuperseded
      (some answer) (supersededPayload item answer.id runId)) work with
    | error e mid =>
      rw [hx] at h
      rw [Judging.bind_of_error hx]
      exact h
    | ok a mid =>
      rw [hx] at h
      obtain ⟨first, rfl, hfirst⟩ := h
      rw [fact_superseded call.correlationId rfl] at hfirst
      rw [Judging.bind_of_ok hx]
      have hrest := ih (work.logged first)
      cases hy : recordSuperseded call answer runId rest (work.logged first) with
      | error e last =>
        rw [hy] at hrest
        exact hrest
      | ok b last =>
        rw [hy] at hrest
        obtain ⟨events, rfl, hfacts⟩ := hrest
        refine ⟨events, rfl, hfacts.trans ?_⟩
        change eventFacts first ++ _ = _
        rw [hfirst, List.append_assoc]
        rfl

theorem supersedePrior_keeps (call : Ambient) (answer : Turn) (supersedeExisting : Bool) :
    Keeps (supersedePrior call answer supersedeExisting) := by
  cases supersedeExisting with
  | false => exact keeps_pure ()
  | true =>
    intro work hwork
    have h := recordSuperseded_ended call answer work.run.id
      (supersedeSemanticEvidenceForTurn work.session answer.id).2 (work.supersede answer.id)
    change Concludes _ _ (recordSuperseded call answer work.run.id
      (supersedeSemanticEvidenceForTurn work.session answer.id).2 (work.supersede answer.id))
    cases hx : recordSuperseded call answer work.run.id
      (supersedeSemanticEvidenceForTurn work.session answer.id).2 (work.supersede answer.id) with
    | error e work' =>
      rw [hx] at h
      exact fun happ => absurd happ h
    | ok a work' =>
      rw [hx] at h
      obtain ⟨events, rfl, hfacts⟩ := h
      exact ⟨hwork, rfl, supersede_run rfl rfl hfacts⟩

theorem recordEnsemble_keeps (call : Ambient) (judgeId : String) (question answer : Turn)
    (audit : Dict Json) : Keeps (recordEnsemble call judgeId question answer audit) := by
  unfold recordEnsemble
  split
  next =>
    refine (keeps_attempt _).bind fun competencies => (keeps_attempt _).bind fun failures => ?_
    refine keeps_get.bind fun work => ?_
    split
    next => exact keeps_pure ()
    next => exact keeps_event call rfl _ _
  next => exact keeps_pure ()

theorem observeOne_keeps (call : Ambient) (job : JobSpec) (answer : Turn)
    (observation : EvidenceObservation) : Keeps (observeOne call job answer observation) := by
  intro work hwork
  unfold observeOne
  cases happly : applyObservation call work.session job observation with
  | error e => exact fun _ => .refl hwork
  | ok result =>
    obtain ⟨session, item⟩ := result
    obtain ⟨_, rfl, rfl⟩ := applyObservation_ok happly
    let placed : JudgeWork := work.placed call [observation] work.session.events
    have h := event_ended call .evidenceObserved (some answer)
      (observedPayload (observedItem call work.session.evidenceGraph observation) observation
        work.run.id) placed
    simp only
    change Concludes _ _ (Judging.onSession (fun session => appendEvent call session .evidenceObserved
      (some answer) (observedPayload (observedItem call work.session.evidenceGraph observation)
        observation work.run.id)) placed)
    cases hx : Judging.onSession (fun session => appendEvent call session .evidenceObserved
      (some answer) (observedPayload (observedItem call work.session.evidenceGraph observation)
        observation work.run.id)) placed with
    | error e work' =>
      rw [hx] at h
      exact fun happ => absurd happ h
    | ok a work' =>
      rw [hx] at h
      obtain ⟨events, rfl, hfacts⟩ := h
      rw [fact_observed call.correlationId rfl] at hfacts
      refine ⟨hwork, rfl, observe_run (evidenceItems_place call _ observation) ?_ rfl hfacts⟩
      intro item hitem
      rw [List.mem_singleton.mp hitem]
      rfl

theorem observeAll_keeps (call : Ambient) (job : JobSpec) (answer : Turn)
    (observations : List EvidenceObservation) :
    Keeps (observeAll call job answer observations) := by
  induction observations with
  | nil => exact keeps_pure ()
  | cons observation rest ih => exact (observeOne_keeps call job answer observation).bind fun _ => ih

omit [CanonicalDigest] in
theorem fact_recorded (correlationId turnId : Option String) (run : EvidenceJudgeRun)
    (observationIds : List String) (failed : Bool) :
    LogEntry.fact ⟨.evidenceJudgeRunRecorded, turnId,
      withTrace correlationId (runRecordedPayload run observationIds failed)⟩ =
        some (.closed run.id failed) := by
  have hid : LogEntry.text ⟨.evidenceJudgeRunRecorded, turnId,
      withTrace correlationId (runRecordedPayload run observationIds failed)⟩ "judge_run_id" = run.id :=
    (entry_names correlationId (by decide) rfl).text
  have hfailed : ((withTrace correlationId (runRecordedPayload run observationIds failed)).lookup
      "failed").any Json.truthy = failed := by
    rw [withTrace_lookup (by decide)]
    rfl
  simp only [LogEntry.fact, hid, hfailed]

omit [CanonicalDigest] in
/-- A run that joins the session together with its events. -/
theorem recordRun_run {session session' : InterviewSession} (run : EvidenceJudgeRun)
    (hgraph : session'.evidenceGraph = session.evidenceGraph)
    (hruns : session'.evidenceJudgeRuns = session.evidenceJudgeRuns ++ [run])
    (hfacts : eventFacts session'.events =
      eventFacts session.events ++ runFacts (run.id, run.errorType.isSome)) :
    Run session.ledger session'.ledger := by
  refine .single (Step.runs ?_ ?_ hfacts)
  · simp only [InterviewSession.ledger]
    rw [hgraph]
  · simp only [InterviewSession.ledger]
    rw [hruns, List.map_append]
    rfl

theorem recordRun_continues (call : Ambient) (answer : Turn) : Keeps (recordRun call answer) := by
  intro work hwork
  have h := event_ended call .evidenceJudgeRunRecorded (some answer)
    (runRecordedPayload work.run work.run.observationIds false) work.keepRun
  change Concludes _ _ (Judging.onSession (fun session => appendEvent call session
    .evidenceJudgeRunRecorded (some answer)
    (runRecordedPayload work.run work.run.observationIds false)) work.keepRun)
  cases hx : Judging.onSession (fun session => appendEvent call session .evidenceJudgeRunRecorded
    (some answer) (runRecordedPayload work.run work.run.observationIds false)) work.keepRun with
  | error e work' =>
    rw [hx] at h
    exact fun happ => absurd happ h
  | ok a work' =>
    rw [hx] at h
    obtain ⟨events, rfl, hfacts⟩ := h
    rw [fact_recorded] at hfacts
    refine ⟨hwork, rfl, recordRun_run work.run rfl rfl ?_⟩
    rw [hwork]
    exact hfacts

theorem judgeAttempt_keeps (call : Call) (job : JobSpec) (question answer : Turn)
    (competencyIds : List String) (supersedeExisting : Bool) :
    Keeps (judgeAttempt call job question answer competencyIds supersedeExisting) := by
  refine (keeps_attempt _).bind fun response => (keeps_attempt _).bind fun observations => ?_
  refine (supersedePrior_keeps _ answer supersedeExisting).bind fun _ => ?_
  refine Keeps.bind (keeps_modify fun work hwork => ⟨hwork, rfl, .refl⟩) fun _ => ?_
  refine (recordEnsemble_keeps _ _ question answer _).bind fun _ => keeps_get.bind fun _ => ?_
  exact (observeAll_keeps _ job answer _).bind fun _ => recordRun_continues _ answer

/-- A failed run and both of its events. -/
theorem recordFailure_run {call : Call} {question answer : Turn} {competencyIds : List String}
    {e : PyError} {work work' : JudgeWork}
    (h : recordFailure call question answer competencyIds e work = .ok () work') :
    Run work.session.ledger work'.session.ledger := by
  let failed : JudgeWork := JudgeWork.keepRun { work with run := work.run.fail e }
  let payload : Dict Json := [
    ("judge_run_id", .str work.run.id),
    ("judge_id", .str call.judge.judgeId),
    ("question_turn_id", .str question.id),
    ("answer_turn_id", .str answer.id),
    ("competency_ids", .ofList competencyIds),
    ("error_type", .ofOption (some e.className)),
    ("error", .ofOption (some (truncate 2000 e.message)))]
  have hfirst := event_ended call.toAmbient .evidenceJudgeFailed (some answer) payload failed
  change (Judging.onSession (fun session => appendEvent call.toAmbient session .evidenceJudgeFailed
    (some answer) payload) >>= fun _ => Judging.onSession fun session =>
      appendEvent call.toAmbient session .evidenceJudgeRunRecorded (some answer)
        (runRecordedPayload failed.run [] true)) failed = .ok () work' at h
  cases hx : Judging.onSession (fun session => appendEvent call.toAmbient session
    .evidenceJudgeFailed (some answer) payload) failed with
  | error e mid =>
    rw [Judging.bind_of_error hx] at h
    cases h
  | ok a mid =>
    rw [Judging.bind_of_ok hx] at h
    rw [hx] at hfirst
    obtain ⟨first, rfl, hfirst⟩ := hfirst
    have hsecond := event_ended call.toAmbient .evidenceJudgeRunRecorded (some answer)
      (runRecordedPayload failed.run [] true) (failed.logged first)
    rw [h] at hsecond
    obtain ⟨events, rfl, hfacts⟩ := hsecond
    refine recordRun_run (work.run.fail e) rfl rfl ?_
    have hbroke : LogEntry.fact ⟨.evidenceJudgeFailed, (some answer).map Turn.id,
        withTrace call.correlationId payload⟩ = some (.broke work.run.id) :=
      congrArg (fun name => some (Fact.broke name))
        (entry_names call.correlationId (by decide) rfl).text
    rw [hbroke] at hfirst
    rw [fact_recorded] at hfacts
    refine hfacts.trans ?_
    change eventFacts first ++ _ = _
    rw [hfirst, List.append_assoc]
    rfl

/-- However the judge behaves, a call of it that goes through keeps the books. -/
theorem judgeCandidateEvidence_run {call : Call} {session session' : InterviewSession} {job : JobSpec}
    {question answer : Turn} {supersedeExisting : Bool} {supersedesRunId : Option String}
    {result : Option EvidenceJudgeRun}
    (h : judgeCandidateEvidence call session job question answer supersedeExisting
      supersedesRunId = .ok (session', result)) : Run session.ledger session'.ledger := by
  cases result with
  | none => rw [judgeCandidateEvidence_none h]
  | some run =>
    rw [judgeCandidateEvidence_asked (judgeCandidateEvidence_some h)] at h
    let work : JudgeWork := ⟨session, openRun call session.dossier question answer supersedesRunId⟩
    have hattempt := judgeAttempt_keeps call job question answer work.run.competencyIds
      supersedeExisting work rfl
    change afterRun (judgeRun call job question answer work.run.competencyIds supersedeExisting work) =
      .ok (session', some run) at h
    unfold judgeRun at h
    cases hx : judgeAttempt call job question answer work.run.competencyIds supersedeExisting work with
    | ok a work' =>
      rw [hx] at h hattempt
      cases h
      exact hattempt.books
    | error e mid =>
      rw [hx] at h hattempt
      simp only at h
      split at h
      next =>
        cases hf : recordFailure call question answer work.run.competencyIds e mid with
        | error e' last =>
          rw [hf] at h
          cases h
        | ok a last =>
          have happ : Appendable mid.session.events := by
            by_contra hw
            obtain ⟨_, _, hfailure, _⟩ := recordFailure_fails call question answer
              work.run.competencyIds e mid hw
            rw [hfailure] at hf
            cases hf
          rw [hf] at h
          cases h
          exact (hattempt happ).books.trans (recordFailure_run hf)
      next => cases h

end NoraInterviewer
