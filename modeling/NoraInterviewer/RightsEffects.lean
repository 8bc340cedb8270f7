import NoraInterviewer.WorkbenchEffects

namespace NoraInterviewer

open ExceptRules

theorem writeMetadata_seq (session : InterviewSession) (index : Nat) (text : String)
    (metadata : Dict Json) :
    (writeMetadata session index text metadata).events.map InterviewEvent.seq =
      session.events.map InterviewEvent.seq := by
  apply List.ext_getElem?
  intro i
  simp only [writeMetadata, List.getElem?_map, List.getElem?_mapIdx, Option.map_map]
  congr 1
  funext event
  simp only [Function.comp]
  split <;> rfl

/-- A dict that no payload holds is written without a trace in the log. -/
theorem writeMetadata_events_of_unshared {session : InterviewSession} {index : Nat}
    (h : ∀ event, (event, index) ∉ session.sharedMetadata) (text : String) (metadata : Dict Json) :
    (writeMetadata session index text metadata).events = session.events := by
  apply List.ext_getElem?
  intro i
  simp only [writeMetadata, List.getElem?_mapIdx, if_neg (h i), Option.map_id']

theorem requestedCorrection_target {session : InterviewSession} {request : CandidateControlRequest}
    {result : CandidateControlResult} {correction : TranscriptCorrectionRequest} {answer : Turn}
    (h : requestedCorrection request result = some correction)
    (hl : lastTurnBy session .candidate = some answer)
    (ht : result.targetTurnId = some answer.id) :
    controlTarget session request = some correction.turnId := by
  unfold requestedCorrection at h
  split at h
  next hc =>
    cases h
    rw [controlTarget, if_pos ⟨hc.1, hc.2.2⟩, hl, ht]
    rfl
  next => cases h

theorem setAppeal_ids {appeals : List CandidateAppeal} {index : Nat} {appeal reviewed : CandidateAppeal}
    (h : appeals[index]? = some appeal) (hid : reviewed.id = appeal.id) :
    (appeals.set index reviewed).map CandidateAppeal.id = appeals.map CandidateAppeal.id := by
  obtain ⟨hi, he⟩ := List.getElem?_eq_some_iff.mp h
  have hi' : index < (appeals.map CandidateAppeal.id).length := by simpa using hi
  have hmap : (appeals.map CandidateAppeal.id)[index] = reviewed.id := by
    rw [List.getElem_map, he, hid]
  rw [List.map_set, ← hmap, List.set_getElem_self]

variable [CanonicalDigest]

theorem recordStale_meets (call : Ambient) (turn : Turn) (items : List EvidenceItem)
    (session : InterviewSession) :
    EvidenceOnly session (recordStale call turn items session) id := by
  induction items generalizing session with
  | nil => exact RecordsEvidence.refl session
  | cons item rest ih =>
    refine (evidenceEvent_meets call session rfl _ _).bind fun logged _ h => ?_
    exact h.then (ih logged)

/-- What `append_event` makes of a log some of whose payloads were just written to: where
none was, nothing is different; where one was, a success still means a verified chain. -/
theorem appendAfterWrite_meets (call : Ambient) (session : InterviewSession) (index : Nat)
    (text : String) (metadata : Dict Json) (type : EventType) (turn : Option Turn)
    (payload : Dict Json) :
    Meets (appendEvent call (writeMetadata session index text metadata) type turn payload)
      (fun session' => ∃ entry events,
        session' = { writeMetadata session index text metadata with events := events } ∧
        entry = ⟨type, turn.map Turn.id, withTrace call.correlationId payload⟩ ∧
        events.map InterviewEvent.entry =
          (writeMetadata session index text metadata).log ++ [entry] ∧
        (Sealed session.events → Sealed events) ∧
        ((∀ event, (event, index) ∉ session.sharedMetadata) → Grows session.events events [entry]))
      (fun e => (∀ event, (event, index) ∉ session.sharedMetadata) → Refusal session.events e) := by
  have h := appendEvent_meets call (writeMetadata session index text metadata) type turn payload
  cases hx : appendEvent call (writeMetadata session index text metadata) type turn payload with
  | error e =>
    intro hu
    rw [← writeMetadata_events_of_unshared hu text metadata]
    exact h.of_error hx
  | ok session' =>
    obtain ⟨events, rfl, hlog, hl, hc, _⟩ := appendEvent_ok hx
    refine ⟨_, events, rfl, rfl, hlog, fun hs => ⟨hl, hc ?_⟩, fun hu => ?_⟩
    · have hlen : (writeMetadata session index text metadata).events.length =
          session.events.length := by simp [writeMetadata]
      rw [Contiguous, writeMetadata_seq, hlen]
      exact hs.contiguous
    · obtain ⟨events', he, hg⟩ := h.of_ok hx
      have hevents : events = events' := congrArg InterviewSession.events he
      rw [writeMetadata_events_of_unshared hu text metadata] at hg
      rw [hevents]
      exact hg

theorem recordRevision_meets {policy : Policy} (call : Ambient) (session : InterviewSession)
    {index : Nat} {turn : Turn} {revision : TranscriptRevision}
    (ht : session.turns[index]? = some turn) (hc : turn.speaker = .candidate)
    (hp : policy.corrects session.sharedMetadata index) (hr : revision.turnId = turn.id) :
    Meets (recordRevision call session index turn revision) (Effects policy session)
      (fun e => (∀ event, (event, index) ∉ session.sharedMetadata) → Refusal session.events e) := by
  refine (appendAfterWrite_meets call
    { session with transcriptRevisions := session.transcriptRevisions ++ [revision] }
    index _ _ _ _ _).imp fun session' h => ?_
  obtain ⟨entry, events, rfl, rfl, hl, hs, hk⟩ := h
  exact Effects.nil.snoc (.corrected ht hc hp hr (turnEntry_isTurn _ _ _) hl hs hk)

theorem applyTranscriptCorrection_meets {policy : Policy} (call : Ambient)
    (session : InterviewSession) (request : TranscriptCorrectionRequest)
    (hp : policy.corrects session.sharedMetadata
      (session.turns.findIdx fun turn => turn.id = request.turnId)) :
    Meets (applyTranscriptCorrection call session request)
      (fun result => Effects policy session result.1)
      (fun e => ¬session.sharesTurn request.turnId → Refusal session.events e) := by
  unfold applyTranscriptCorrection
  simp only
  split
  next => exact fun _ _ => rfl
  next turn hturn =>
    refine Meets.ite (fun _ _ _ => rfl) fun hspeaker => ?_
    refine Meets.bind (Meets.weaken
      (recordRevision_meets call session hturn (not_not.mp hspeaker) hp rfl)
      fun e he hs => he (not_exists.mp hs)) fun revised _ h => ?_
    have hgraph : RecordsEvidence revised (supersedeSemanticEvidenceForTurn revised turn.id).1 :=
      RecordsEvidence.writes revised _ revised.evidenceJudgeRuns
    refine Meets.weaken ?_ fun e he _ => h.refusal (hgraph.refusal he)
    refine (recordStale_meets call turn _ _).bind fun stale _ hstale => ?_
    exact h.snoc (.evidence (hgraph.trans hstale))

theorem correctTranscript_commits {policy : Policy} (call : Call) (session : InterviewSession)
    (request : TranscriptCorrectionRequest)
    (hp : policy.corrects session.sharedMetadata
      (session.turns.findIdx fun turn => turn.id = request.turnId)) :
    Meets (correctTranscript call session request)
      (fun outcome => ∀ session', outcome.written = some session' → Effects policy session session')
      (fun e => ¬session.sharesTurn request.turnId → Refusal session.events e) := by
  refine (applyTranscriptCorrection_meets _ session request hp).bind fun result _ h => ?_
  exact h.commits _

theorem recordControlTurn_meets (policy : Policy) (call : Ambient) (session : InterviewSession)
    (ha : session.active) (kind : CandidateControlKind) (turn : Option Turn)
    (ht : ∀ reply, turn = some reply → reply.id ≠ "" ∧ reply.speaker = .interviewer ∧
      reply.flagged "candidate_control" = true) :
    Meets (recordControlTurn call session kind turn)
      (fun session' => Effects policy session session' ∧ (turn = none → session' = session))
      (Refusal session.events) := by
  cases turn with
  | none => exact ⟨.nil, fun _ => rfl⟩
  | some reply =>
    refine (appendEvent_meets _ _ _ _ _).imp fun session' h => ?_
    obtain ⟨events, rfl, hg⟩ := h
    obtain ⟨hi, hs, hf⟩ := ht reply rfl
    exact ⟨Effects.nil.snoc (.replied ha hi hs hf (turnEntry_isTurn _ _ _) hg), nofun⟩

theorem controlEvent_meets (policy : Policy) (call : Ambient) {session handled : InterviewSession}
    (ha : session.active) (kind : CandidateControlKind)
    (hh : handled = { session with paused :=
      if kind = .thinkingTime then true else if kind = .resume then false else session.paused })
    {payload : Dict Json} (hk : payload.lookup "kind" = some (.str kind.value)) :
    Meets (appendEvent call handled .candidateControl none payload)
      (fun logged => Effects policy session logged ∧ logged.active ∧
        logged.turns = session.turns ∧ logged.sharedMetadata = session.sharedMetadata)
      (Refusal session.events) := by
  subst hh
  refine (appendEvent_meets _ _ _ _ _).imp fun logged h => ?_
  obtain ⟨events, rfl, hg⟩ := h
  exact ⟨Effects.nil.snoc (.controlled ha (entry_names _ (by decide) hk) hg), ha, rfl, rfl⟩

theorem recordControl_meets (policy : Policy) (call : Ambient) (session : InterviewSession)
    (request : CandidateControlRequest) :
    Meets (recordControl call session request)
      (fun handled => Effects policy session handled.1 ∧
        (request.kind = .correctLastAnswer → handled.1.turns = session.turns ∧
          handled.1.sharedMetadata = session.sharedMetadata ∧
          ∃ answer, lastTurnBy session .candidate = some answer ∧
            handled.2.targetTurnId = some answer.id))
      (Refusal session.events) := by
  unfold recordControl
  refine Meets.ite (fun _ _ => rfl) fun hcompleted => Meets.ite (fun _ _ => rfl) fun hcancelled => ?_
  refine (badRequestOnValueError_meets session.events _).bind fun handled _ hok => ?_
  obtain ⟨handled, result⟩ := handled
  obtain ⟨hhandled, hreply, hcorrect⟩ := handleCandidateControl_ok hok
  refine (controlEvent_meets policy call ⟨hcompleted, hcancelled⟩ request.kind hhandled rfl).bind
    fun logged _ h => ?_
  obtain ⟨heffects, ha, hturns, hshared⟩ := h
  refine Meets.weaken ?_ fun _ he => heffects.refusal he
  refine Meets.bind (recordControlTurn_meets policy call logged ha request.kind _ fun reply hr => ?_)
    fun replied _ h => ?_
  · obtain ⟨hid, hs, hf⟩ := hreply reply hr
    exact ⟨hid ▸ call.uuid_ne _ _, hs, hf⟩
  · refine ⟨heffects.trans h.1, fun hk => ?_⟩
    obtain ⟨hnone, answer, hlast, htarget⟩ := hcorrect hk
    rw [h.2 hnone]
    exact ⟨hturns, hshared, answer, hlast, htarget⟩

theorem candidateControl_commits {policy : Policy} (call : Call) (session : InterviewSession)
    (request : CandidateControlRequest)
    (hp : ∀ turnId, controlTarget session request = some turnId →
      policy.corrects session.sharedMetadata
        (session.turns.findIdx fun turn => turn.id = turnId)) :
    Meets (candidateControl call session request)
      (fun outcome => ∀ session', outcome.written = some session' → Effects policy session session')
      (fun e => (∀ turnId, controlTarget session request = some turnId → ¬session.sharesTurn turnId) →
        Refusal session.events e) := by
  refine Meets.bind (Meets.weaken (recordControl_meets policy _ session request) fun _ he _ => he)
    fun handled _ h => ?_
  obtain ⟨handled, result⟩ := handled
  obtain ⟨heffects, hcorrect⟩ := h
  simp only
  split
  next => exact heffects.commits _
  next correction hreq =>
    have hkind : request.kind = .correctLastAnswer := by
      unfold requestedCorrection at hreq
      split at hreq
      next hc => exact hc.1
      next => cases hreq
    obtain ⟨hturns, hshared, answer, hlast, htarget⟩ := hcorrect hkind
    have hcontrol := requestedCorrection_target hreq hlast htarget
    have hshares : handled.sharesTurn correction.turnId ↔ session.sharesTurn correction.turnId := by
      simp only at hturns hshared
      rw [InterviewSession.sharesTurn, InterviewSession.sharesTurn, hturns, hshared]
    have hpolicy := hp _ hcontrol
    rw [← hturns, ← hshared] at hpolicy
    refine Meets.bind (Meets.weaken (applyTranscriptCorrection_meets _ handled correction hpolicy)
      fun e he hs => heffects.refusal (he fun hc => hs _ hcontrol (hshares.mp hc)))
      fun corrected _ h => ?_
    exact (heffects.trans h).commits _

theorem submitAppeal_commits {policy : Policy} (call : Call) (session : InterviewSession)
    (request : CandidateAppealRequest) :
    Commits policy session (submitAppeal call session request) := by
  unfold submitAppeal
  refine Meets.ite (fun _ _ => rfl) fun _ => ?_
  refine (appendEvent_meets _ _ _ _ _).bind fun session' _ h => ?_
  obtain ⟨events, rfl, hg⟩ := h
  refine Effects.commits ?_ _
  exact Effects.nil.snoc (.appealed (call.uuid_ne _ _) (entry_names _ (by decide) rfl) hg)

theorem reviewAppeal_commits {policy : Policy} (call : Call) (session : InterviewSession)
    (appealId : String) (request : AppealReviewRequest) :
    Commits policy session (reviewAppeal call session appealId request) := by
  unfold reviewAppeal
  simp only
  split
  next => exact fun _ => rfl
  next appeal happeal =>
    refine Meets.ite (fun _ _ => rfl) fun _ => ?_
    refine (appendEvent_meets _ _ _ _ _).bind fun session' _ h => ?_
    obtain ⟨events, rfl, hg⟩ := h
    refine Effects.commits ?_ _
    exact Effects.nil.snoc (.reviewed (setAppeal_ids happeal rfl) (List.mem_cons_self ..) hg)

theorem submitIntegritySignal_commits {policy : Policy} (call : Call) (session : InterviewSession)
    (request : IntegritySignalRequest) :
    Commits policy session (submitIntegritySignal call session request) := by
  refine (appendEvent_meets _ _ _ _ _).bind fun session' _ h => ?_
  obtain ⟨events, rfl, hg⟩ := h
  refine Effects.commits ?_ _
  exact Effects.nil.snoc (.reviewed rfl (by simp) hg)

theorem reviewIntegritySignal_commits {policy : Policy} (call : Call) (session : InterviewSession)
    (signalId : String) (request : IntegrityReviewRequest) :
    Commits policy session (reviewIntegritySignal call session signalId request) := by
  unfold reviewIntegritySignal
  simp only
  split
  next => exact fun _ => rfl
  next =>
    refine Meets.ite (fun _ _ => rfl) fun _ => ?_
    refine (appendEvent_meets _ _ _ _ _).bind fun session' _ h => ?_
    obtain ⟨events, rfl, hg⟩ := h
    refine Effects.commits ?_ _
    exact Effects.nil.snoc (.reviewed rfl (by simp) hg)

theorem observeEvidence_commits {policy : Policy} (call : Call) (session : InterviewSession)
    (job : JobSpec) (observation : EvidenceObservation) :
    Commits policy session (observeEvidence call session job observation) := by
  have hobserved := applyObservation_meets call.toAmbient session job observation
  unfold observeEvidence
  split
  next e _ => intro _; split <;> rfl
  next e _ ho => exact fun _ => hobserved.of_error ho
  next observed item ho =>
    obtain ⟨graph, rfl⟩ := hobserved.of_ok ho
    have hgraph := RecordsEvidence.writes session graph session.evidenceJudgeRuns
    refine Meets.weaken ?_ fun _ he => hgraph.refusal he
    refine (evidenceEvent_meets _ _ rfl _ _).bind fun logged _ h => ?_
    exact (Effects.nil.snoc (.evidence (hgraph.trans h))).commits _

theorem reevaluateEvidence_commits {policy : Policy} (call : Call) (session : InterviewSession)
    (job : JobSpec) (answerTurnId : String) :
    Commits policy session (reevaluateEvidence call session job answerTurnId) := by
  unfold reevaluateEvidence
  refine Meets.ite (fun _ _ => rfl) fun _ => ?_
  split
  next => exact fun _ => rfl
  next answer _ =>
    refine Meets.ite (fun _ _ => rfl) fun _ => Meets.ite (fun _ _ => rfl) fun _ => ?_
    simp only
    split
    next => exact fun _ => rfl
    next question _ =>
      refine (judgeCandidateEvidence_meets call session job question answer _ _).bind
        fun judged _ h => ?_
      split
      next => exact h.refusal fun _ => rfl
      next => exact (Effects.nil.snoc (.evidence h)).commits _

end NoraInterviewer
