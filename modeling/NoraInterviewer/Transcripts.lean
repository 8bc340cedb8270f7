import NoraInterviewer.ConductSteps
import NoraInterviewer.ReplayEffects

namespace NoraInterviewer

open ExceptRules

/-- The revision that a correction of `turn` records. -/
def transcriptRevision (call : Ambient) (session : InterviewSession) (turn : Turn)
    (request : TranscriptCorrectionRequest) : TranscriptRevision where
  id := call.uuid .revision session.transcriptRevisions.length
  turnId := turn.id
  originalText := turn.text
  correctedText := request.correctedText
  reason := request.reason

/-- The transcript once `revision` of `turn` was applied at `index`. -/
def revisedTurns (session : InterviewSession) (index : Nat) (turn : Turn)
    (revision : TranscriptRevision) : List Turn :=
  session.turns.modify index fun old => { old with
    text := revision.correctedText
    metadata := correctedMetadata { session with
      transcriptRevisions := session.transcriptRevisions ++ [revision] } turn revision }

variable [CanonicalDigest]

/-- What an operation that commits makes of the transcript and of its revisions. -/
inductive Transcribes (call : Call) (job : JobSpec) (session : InterviewSession) :
    Operation → List Turn → List TranscriptRevision → Prop where
  | started {shown : InterviewSession} {decision : AgentDecision} {covered : List String}
    {latencyMs : Nat} (hshown : shown.conduct = session.conduct)
    (hs : session.status = .created ∨ session.status = .running ∧ session.turns = [])
    (hd : openingDecision call shown job =
      .ok ({ shown with coveredCompetencies := covered }, decision, latencyMs)) :
    Transcribes call job session .start
      (session.turns ++ [decisionTurn call.toAmbient shown decision latencyMs])
      session.transcriptRevisions
  | answered {text : String} {turnMetadata : Dict Json} {shown : InterviewSession}
    {decision : AgentDecision} {covered : List String} {latencyMs : Nat}
    (hshown : prepareAnswer call session job text turnMetadata = .ok shown)
    (hd : decideAfterAnswer call shown job =
      .ok ({ shown with coveredCompetencies := covered }, decision, latencyMs)) :
    Transcribes call job session (.answer text turnMetadata)
      (session.turns ++ [answerTurn call.toAmbient session.turns text turnMetadata,
        decisionTurn call.toAmbient shown decision latencyMs])
      session.transcriptRevisions
  | worked {toolId : String} {request : ToolSubmissionRequest} {work : ToolWork}
    {decision : AgentDecision} {covered : List String}
    (hwork : prepareTool call session job toolId request = .ok work)
    (hd : decideAfterTool call work job =
      .ok ({ work.session with coveredCompetencies := covered }, decision)) :
    Transcribes call job session (.submitTool toolId request)
      (session.turns ++ [artifactTurn call.toAmbient session work.invocation work.submission,
        decisionTurn call.toAmbient work.session decision call.latencyMs])
      session.transcriptRevisions
  | replied {request : CandidateControlRequest} {handled : InterviewSession}
    {result : CandidateControlResult} {turn : Turn}
    (hr : handleCandidateControl call.toAmbient session request = .ok (handled, result))
    (ht : result.interviewerTurn = some turn) :
    Transcribes call job session (.candidateControl request) (session.turns ++ [turn])
      session.transcriptRevisions
  | revised {operation : Operation} {request : TranscriptCorrectionRequest} {index : Nat}
    {turn : Turn}
    (hc : operation.correction session = some (request.turnId, request.correctedText))
    (hi : index = session.turns.findIdx fun turn => turn.id = request.turnId)
    (ht : session.turns[index]? = some turn) (hs : turn.speaker = .candidate) :
    Transcribes call job session operation
      (revisedTurns session index turn (transcriptRevision call.toAmbient session turn request))
      (session.transcriptRevisions ++ [transcriptRevision call.toAmbient session turn request])
  | kept {operation : Operation} (hq : operation.asks = false) :
    Transcribes call job session operation session.turns session.transcriptRevisions

theorem appendEvent_transcript {call : Ambient} {session session' : InterviewSession}
    {type : EventType} {turn : Option Turn} {payload : Dict Json}
    (h : appendEvent call session type turn payload = .ok session') :
    session'.turns = session.turns ∧ session'.transcriptRevisions = session.transcriptRevisions := by
  obtain ⟨events, rfl, _⟩ := appendEvent_ok h
  exact ⟨rfl, rfl⟩

theorem recordStale_transcript {call : Ambient} {turn : Turn} {items : List EvidenceItem}
    {session session' : InterviewSession} (h : recordStale call turn items session = .ok session') :
    session'.turns = session.turns ∧ session'.transcriptRevisions = session.transcriptRevisions := by
  induction items generalizing session with
  | nil =>
    cases h
    exact ⟨rfl, rfl⟩
  | cons item rest ih =>
    obtain ⟨logged, hlogged, h⟩ := bind_ok h
    obtain ⟨hturns, hrevisions⟩ := appendEvent_transcript hlogged
    rw [← hturns, ← hrevisions]
    exact ih h

/-- A correction rewrites the first turn with the id, which is the candidate's. -/
theorem applyTranscriptCorrection_transcript {call : Ambient}
    {session session' : InterviewSession} {request : TranscriptCorrectionRequest}
    {revision : TranscriptRevision}
    (h : applyTranscriptCorrection call session request = .ok (session', revision)) :
    ∃ index turn, index = (session.turns.findIdx fun turn => turn.id = request.turnId) ∧
      session.turns[index]? = some turn ∧ turn.speaker = .candidate ∧
      revision = transcriptRevision call session turn request ∧
      session'.turns = revisedTurns session index turn revision ∧
      session'.transcriptRevisions = session.transcriptRevisions ++ [revision] := by
  unfold applyTranscriptCorrection at h
  simp only at h
  split at h
  next => cases h
  next turn hturn =>
    obtain ⟨hspeaker, h⟩ := ite_error_ok h
    obtain ⟨revised, hrevised, h⟩ := bind_ok h
    obtain ⟨stale, hstale, h⟩ := bind_ok h
    cases h
    obtain ⟨hturns, hrevisions⟩ := appendEvent_transcript hrevised
    obtain ⟨hstaleTurns, hstaleRevisions⟩ := recordStale_transcript hstale
    refine ⟨_, turn, rfl, hturn, not_not.mp hspeaker, rfl, ?_, ?_⟩
    · rw [hstaleTurns]
      exact hturns
    · rw [hstaleRevisions]
      exact hrevisions

/-- A control adds the turn of its result and revises nothing by itself. -/
theorem recordControl_transcript {call : Ambient} {session session' : InterviewSession}
    {request : CandidateControlRequest} {result : CandidateControlResult}
    (h : recordControl call session request = .ok (session', result)) :
    session.active ∧
      (∃ handled, handleCandidateControl call session request = .ok (handled, result)) ∧
      session'.turns = session.turns ++ result.interviewerTurn.toList ∧
      session'.transcriptRevisions = session.transcriptRevisions := by
  unfold recordControl at h
  obtain ⟨hcompleted, h⟩ := ite_error_ok h
  obtain ⟨hcancelled, h⟩ := ite_error_ok h
  obtain ⟨⟨handled, reply⟩, hhandled, h⟩ := bind_ok h
  obtain ⟨logged, hlogged, h⟩ := bind_ok h
  obtain ⟨replied, hreplied, h⟩ := bind_ok h
  cases h
  have hhandle := badRequestOnValueError_ok hhandled
  obtain ⟨rfl, _⟩ := handleCandidateControl_ok hhandle
  obtain ⟨hturns, hrevisions⟩ := appendEvent_transcript hlogged
  have hbefore : logged.turns = session.turns := hturns
  have hkept : logged.transcriptRevisions = session.transcriptRevisions := hrevisions
  refine ⟨⟨hcompleted, hcancelled⟩, ⟨_, hhandle⟩, ?_⟩
  unfold recordControlTurn at hreplied
  split at hreplied
  next hnone =>
    cases hreplied
    rw [hnone, hbefore]
    exact ⟨(List.append_nil _).symm, hkept⟩
  next turn hsome =>
    obtain ⟨hadded, hsame⟩ := appendEvent_transcript hreplied
    rw [hsome, hadded, hsame]
    exact ⟨congrArg (· ++ [turn]) hbefore, hkept⟩

theorem RecordsEvidence.transcript {session session' : InterviewSession}
    (h : RecordsEvidence session session') :
    session'.turns = session.turns ∧ session'.transcriptRevisions = session.transcriptRevisions := by
  obtain ⟨graph, runs, events, entries, rfl, _⟩ := h
  exact ⟨rfl, rfl⟩

/-- A submission adds its artifact to the transcript. -/
theorem prepareTool_transcript {call : Call} {session : InterviewSession} {job : JobSpec}
    {toolId : String} {request : ToolSubmissionRequest} {work : ToolWork}
    (h : prepareTool call session job toolId request = .ok work) :
    session.active ∧
      (∃ invocation, session.tools.find? (fun tool => tool.id = toolId) = some invocation ∧
        invocation.status = .open ∧ work.invocation = { invocation with status := .evaluated }) ∧
      work.session.turns =
        session.turns ++ [artifactTurn call.toAmbient session work.invocation work.submission] ∧
      work.session.transcriptRevisions = session.transcriptRevisions := by
  unfold prepareTool at h
  obtain ⟨hcompleted, h⟩ := ite_error_ok h
  obtain ⟨hcancelled, h⟩ := ite_error_ok h
  split at h
  next => cases h
  next invocation hfind =>
    obtain ⟨hopen, h⟩ := ite_error_ok h
    obtain ⟨⟨submitted, turn⟩, hsubmitted, h⟩ := bind_ok h
    obtain ⟨evaluation, _, h⟩ := bind_ok h
    obtain ⟨evaluated, hevaluated, h⟩ := bind_ok h
    obtain ⟨final, hfinal, h⟩ := bind_ok h
    cases h
    obtain ⟨first, hfirst, hsubmitted⟩ := bind_ok hsubmitted
    obtain ⟨second, hsecond, hsubmitted⟩ := bind_ok hsubmitted
    cases hsubmitted
    obtain ⟨hbegun, hbegunRevisions⟩ := appendEvent_transcript hfirst
    obtain ⟨hadded, haddedRevisions⟩ := appendEvent_transcript hsecond
    obtain ⟨hscored, hscoredRevisions⟩ := appendEvent_transcript hevaluated
    have hrecorded : RecordsEvidence evaluated final :=
      (recordToolEvidence_meets _ _ _ _ _ _).of_ok hfinal
    obtain ⟨hevidence, hevidenceRevisions⟩ := hrecorded.transcript
    refine ⟨⟨hcompleted, hcancelled⟩, ⟨invocation, hfind, not_not.mp hopen, rfl⟩, ?_, ?_⟩
    · have hturns : first.turns = session.turns := hbegun
      refine hevidence.trans (hscored.trans (hadded.trans ?_))
      show first.turns ++ [artifactTurn call.toAmbient first invocation _] = _
      unfold artifactTurn
      rw [hturns]
    · exact hevidenceRevisions.trans (hscoredRevisions.trans
        (haddedRevisions.trans hbegunRevisions))

omit [CanonicalDigest] in
/-- The correction of a control is that of the latest candidate turn. -/
theorem requestedCorrection_correction {session : InterviewSession}
    {request : CandidateControlRequest} {result : CandidateControlResult}
    {correction : TranscriptCorrectionRequest} {handled : InterviewSession} {call : Ambient}
    (hr : handleCandidateControl call session request = .ok (handled, result))
    (h : requestedCorrection request result = some correction) :
    result.interviewerTurn = none ∧ (Operation.candidateControl request).correction session =
      some (correction.turnId, correction.correctedText) := by
  unfold requestedCorrection at h
  split at h
  next hc =>
    cases h
    obtain ⟨hkind, _, htext⟩ := hc
    obtain ⟨_, _, hcorrect⟩ := handleCandidateControl_ok hr
    obtain ⟨hnone, answer, hlast, htarget⟩ := hcorrect hkind
    refine ⟨hnone, ?_⟩
    simp only [Operation.correction, controlTarget, hkind, htext, and_self, ↓reduceIte, hlast,
      Option.map_some, htarget, Option.getD_some]
  next => cases h

variable {call : Call} {job : JobSpec}

theorem correctTranscript_transcribes {session session' : InterviewSession}
    {request : TranscriptCorrectionRequest} {revision : TranscriptRevision}
    (h : correctTranscript call session request = .ok (.commit session' revision)) :
    Transcribes call job session (.correctTranscript request) session'.turns
      session'.transcriptRevisions := by
  obtain ⟨⟨corrected, result⟩, hcorrected, h⟩ := bind_ok h
  cases h
  obtain ⟨index, turn, hi, ht, hs, hrevision, hturns, hrevisions⟩ :=
    applyTranscriptCorrection_transcript hcorrected
  rw [hturns, hrevisions, hrevision]
  exact .revised rfl hi ht hs

theorem candidateControl_transcribes {session session' : InterviewSession}
    {request : CandidateControlRequest} {result : CandidateControlResult}
    (h : candidateControl call session request = .ok (.commit session' result)) :
    Transcribes call job session (.candidateControl request) session'.turns
      session'.transcriptRevisions := by
  obtain ⟨⟨recorded, reply⟩, hrecorded, h⟩ := bind_ok h
  obtain ⟨_, ⟨handled, hhandled⟩, hadded, hkept⟩ := recordControl_transcript hrecorded
  simp only at h
  split at h
  next =>
    cases h
    rw [hadded, hkept]
    cases hturn : result.interviewerTurn with
    | none =>
      rw [Option.toList_none, List.append_nil]
      exact .kept rfl
    | some turn => exact .replied hhandled hturn
  next correction hrequested =>
    obtain ⟨⟨corrected, revision⟩, hcorrected, h⟩ := bind_ok h
    cases h
    obtain ⟨hnone, hcorrection⟩ := requestedCorrection_correction hhandled hrequested
    obtain ⟨index, turn, hi, ht, hs, hrevision, hturns, hrevisions⟩ :=
      applyTranscriptCorrection_transcript hcorrected
    rw [hnone, Option.toList_none, List.append_nil] at hadded
    have hsame : revisedTurns recorded index turn revision =
        revisedTurns session index turn revision := by
      unfold revisedTurns correctedMetadata
      rw [hadded, hkept]
    have hrecord : transcriptRevision call.toAmbient recorded turn correction =
        transcriptRevision call.toAmbient session turn correction := by
      unfold transcriptRevision
      rw [hkept]
    rw [hturns, hrevisions, hsame, hkept, hrevision, hrecord]
    rw [hadded] at hi ht
    exact .revised hcorrection hi ht hs

/-- The operations other than controls and corrections, from what they do to the conduct. -/
theorem Conducts.transcribes {session : InterviewSession} {operation : Operation}
    {conduct : Conduct} (h : Conducts call job session operation conduct)
    (hcontrol : ∀ request, operation ≠ .candidateControl request)
    (hcorrect : operation.correction session = none) :
    Transcribes call job session operation conduct.turns session.transcriptRevisions := by
  cases h with
  | @started shown decision covered latencyMs opened hs hshown hd =>
    have hturns : shown.turns = session.turns := congrArg Conduct.turns hshown
    show Transcribes call job session .start (shown.turns ++ _) _
    rw [hturns]
    exact .started hshown hs hd
  | @answered text turnMetadata shown decision covered latencyMs opened hshown hd =>
    obtain ⟨_, hconduct⟩ := prepareAnswer_conduct hshown
    have hturns : shown.turns =
        session.turns ++ [answerTurn call.toAmbient session.turns text turnMetadata] :=
      congrArg Conduct.turns hconduct
    show Transcribes call job session _ (shown.turns ++ _) _
    rw [hturns, List.append_assoc]
    exact .answered hshown hd
  | @worked toolId request work decision covered opened hwork hd =>
    obtain ⟨_, _, hturns, _⟩ := prepareTool_transcript hwork
    show Transcribes call job session _ (work.session.turns ++ _) _
    rw [hturns, List.append_assoc]
    exact .worked hwork hd
  | @replied request => exact absurd rfl (hcontrol request)
  | revised hc =>
    rw [hcorrect] at hc
    cases hc
  | opened hq => exact .kept hq
  | cancelled => exact .kept rfl
  | kept hq => exact .kept hq

/-- Only a correction adds a revision. -/
theorem Effects.revisions {policy : Policy} {session session' : InterviewSession}
    (h : Effects policy session session') (hnone : ∀ shared index, ¬policy.corrects shared index) :
    session'.transcriptRevisions = session.transcriptRevisions := by
  induction h with
  | nil => rfl
  | snoc _ he ih =>
    rw [← ih]
    cases he with
    | evidence h => exact h.transcript.2
    | corrected _ _ hp => exact absurd hp (hnone _ _)
    | started | asked => rfl
    | covered | followups | opened | completed | answered | worked | controlled | replied
    | appealed | reviewed | cancelled => rfl

/-- What an operation commits, seen from the transcript. -/
theorem mutate_transcribes {operation : Operation} {session session' : InterviewSession}
    (h : mutate call operation session = .ok (some session')) :
    ∃ job, call.job = some job ∧
      Transcribes call job session operation session'.turns session'.transcriptRevisions := by
  have hother : (∀ request, operation ≠ .candidateControl request) →
      (∀ request, operation ≠ .correctTranscript request) → ∃ job, call.job = some job ∧
        Transcribes call job session operation session'.turns session'.transcriptRevisions := by
    intro hcontrol hcorrect
    obtain ⟨job, hjob, heffects⟩ := mutate_ok h
    obtain ⟨job', hjob', hconducts⟩ := mutate_conducts h
    cases hjob.symm.trans hjob'
    have htarget : operation.target session = none ∧ operation.correction session = none := by
      cases operation with
      | candidateControl request => exact absurd rfl (hcontrol request)
      | correctTranscript request => exact absurd rfl (hcorrect request)
      | _ => exact ⟨rfl, rfl⟩
    have hrevisions := heffects.revisions fun shared index hcorrects => by
      obtain ⟨_, turnId, hid, _⟩ := hcorrects
      rw [htarget.1] at hid
      cases hid
    rw [hrevisions]
    exact ⟨job, hjob, hconducts.transcribes hcontrol htarget.2⟩
  unfold mutate at h
  split at h
  next => cases h
  next job hjob =>
    cases operation with
    | candidateControl request =>
      obtain ⟨_ | ⟨_, _⟩, hout, hw⟩ := map_ok h <;> cases hw
      exact ⟨job, hjob, candidateControl_transcribes hout⟩
    | correctTranscript request =>
      obtain ⟨_ | ⟨_, _⟩, hout, hw⟩ := map_ok h <;> cases hw
      exact ⟨job, hjob, correctTranscript_transcribes hout⟩
    | _ => exact hother (by simp) (by simp)

omit [CanonicalDigest] in
theorem stored_transcript (backend : Backend) (session : InterviewSession) :
    (backend.stored session).turns = session.turns ∧
      (backend.stored session).transcriptRevisions = session.transcriptRevisions := by
  cases backend with
  | memory => exact ⟨rfl, rfl⟩
  | json => exact ⟨rfl, rfl⟩

theorem createSession_transcript {request : CreateSession} {organizationId : Option String}
    {session : InterviewSession} (h : createSession call request organizationId = .ok session) :
    session.turns = [] ∧ session.transcriptRevisions = [] := by
  unfold createSession at h
  obtain ⟨_, h⟩ := ite_error_ok h
  split at h
  next => cases h
  next =>
    obtain ⟨_, h⟩ := ite_error_ok h
    obtain ⟨_, h⟩ := ite_error_ok h
    exact appendEvent_transcript h

/-- What an empty transcript has and every operation keeps, every version has. -/
theorem History.transcript_invariant {backend : Backend}
    {admissible : Call → Operation → InterviewSession → Prop}
    {P : List Turn → List TranscriptRevision → Prop} {versions : List InterviewSession}
    (h : History backend admissible versions) (hfresh : P [] [])
    (hstep : ∀ {call : Call} {job : JobSpec} {operation : Operation} {session : InterviewSession}
      {turns : List Turn} {revisions : List TranscriptRevision}, call.job = some job →
      admissible call operation session → P session.turns session.transcriptRevisions →
      Transcribes call job session operation turns revisions → P turns revisions) :
    ∀ session ∈ versions, P session.turns session.transcriptRevisions := by
  induction h with
  | @created call request organizationId session h =>
    intro stored hs
    obtain ⟨hturns, hrevisions⟩ := stored_transcript backend session
    obtain ⟨hnone, hclear⟩ := createSession_transcript h
    rw [List.mem_singleton.mp hs, hturns, hrevisions, hnone, hclear]
    exact hfresh
  | @committed call operation session session' past _ ha hm ih =>
    intro stored hs
    rcases List.mem_cons.mp hs with rfl | hs
    · obtain ⟨job, hjob, htranscribes⟩ := mutate_transcribes hm
      obtain ⟨hturns, hrevisions⟩ := stored_transcript backend session'
      rw [hturns, hrevisions]
      exact hstep hjob ha (ih _ List.mem_cons_self) htranscribes
    · exact ih stored hs

/-- `uuid4` gives the turns of one call ids that no turn has, and different ones. -/
structure FreshTurnIds (call : Ambient) (session : InterviewSession) : Prop where
  first : call.uuid .turn session.turns.length ∉ session.turns.map Turn.id
  second : call.uuid .turn (session.turns.length + 1) ∉ session.turns.map Turn.id
  apart : call.uuid .turn session.turns.length ≠ call.uuid .turn (session.turns.length + 1)

omit [CanonicalDigest] in
theorem FreshTurnIds.nodup_one {call : Ambient} {session : InterviewSession} {turn : Turn}
    (h : FreshTurnIds call session) (hids : (session.turns.map Turn.id).Nodup)
    (hid : turn.id = call.uuid .turn session.turns.length) :
    ((session.turns ++ [turn]).map Turn.id).Nodup := by
  have hnew : turn.id ∉ session.turns.map Turn.id := by
    rw [hid]
    exact h.first
  rw [List.map_append, List.map_singleton]
  exact List.nodup_append'.mpr ⟨hids, List.nodup_singleton _, List.disjoint_singleton.mpr hnew⟩

omit [CanonicalDigest] in
theorem FreshTurnIds.nodup_two {call : Ambient} {session : InterviewSession} {turn next : Turn}
    (h : FreshTurnIds call session) (hids : (session.turns.map Turn.id).Nodup)
    (hid : turn.id = call.uuid .turn session.turns.length)
    (hnext : next.id = call.uuid .turn (session.turns.length + 1)) :
    ((session.turns ++ [turn, next]).map Turn.id).Nodup := by
  have hnew : next.id ∉ (session.turns ++ [turn]).map Turn.id := by
    rw [List.map_append, List.map_singleton, hnext, List.mem_append, List.mem_singleton, hid]
    rintro (hold | hsame)
    · exact h.second hold
    · exact h.apart hsame.symm
  have hone := h.nodup_one hids hid
  have happend : session.turns ++ [turn, next] = (session.turns ++ [turn]) ++ [next] := by simp
  rw [happend, List.map_append, List.map_singleton]
  exact List.nodup_append'.mpr ⟨hone, List.nodup_singleton _, List.disjoint_singleton.mpr hnew⟩

omit [CanonicalDigest] in
theorem revisedTurns_map {α : Type} (session : InterviewSession) (index : Nat) (turn : Turn)
    (revision : TranscriptRevision) (key : Turn → α)
    (hk : ∀ (turn : Turn) (text : String) (metadata : Dict Json),
      key { turn with text, metadata } = key turn) :
    (revisedTurns session index turn revision).map key = session.turns.map key :=
  modify_map _ _ _ _ key fun turn => hk turn _ _

theorem Transcribes.nodup {session : InterviewSession} {operation : Operation} {turns : List Turn}
    {revisions : List TranscriptRevision}
    (h : Transcribes call job session operation turns revisions)
    (hfresh : FreshTurnIds call.toAmbient session) (hids : (session.turns.map Turn.id).Nodup) :
    (turns.map Turn.id).Nodup := by
  cases h with
  | @started shown decision covered latencyMs hshown hs hd =>
    have hturns : shown.turns = session.turns := congrArg Conduct.turns hshown
    refine hfresh.nodup_one hids ?_
    show call.uuid .turn shown.turns.length = _
    rw [hturns]
  | @answered text turnMetadata shown decision covered latencyMs hshown hd =>
    have hturns : shown.turns =
        session.turns ++ [answerTurn call.toAmbient session.turns text turnMetadata] :=
      congrArg Conduct.turns (prepareAnswer_conduct hshown).2
    refine hfresh.nodup_two hids rfl ?_
    show call.uuid .turn shown.turns.length = _
    rw [hturns, List.length_append, List.length_singleton]
  | @worked toolId request work decision covered hwork hd =>
    obtain ⟨_, _, hturns, _⟩ := prepareTool_transcript hwork
    refine hfresh.nodup_two hids rfl ?_
    show call.uuid .turn work.session.turns.length = _
    rw [hturns, List.length_append, List.length_singleton]
  | replied hr ht =>
    obtain ⟨_, hturn, _⟩ := handleCandidateControl_ok hr
    exact hfresh.nodup_one hids (hturn _ ht).1
  | revised =>
    rw [revisedTurns_map _ _ _ _ Turn.id fun _ _ _ => rfl]
    exact hids
  | kept => exact hids

theorem History.turnIds_nodup {backend : Backend}
    {admissible : Call → Operation → InterviewSession → Prop} {versions : List InterviewSession}
    (h : History backend admissible versions)
    (hfresh : ∀ call operation session, admissible call operation session →
      FreshTurnIds call.toAmbient session) :
    ∀ session ∈ versions, (session.turns.map Turn.id).Nodup :=
  h.transcript_invariant (P := fun turns _ => (turns.map Turn.id).Nodup) List.nodup_nil
    fun _ ha hids htranscribes => htranscribes.nodup (hfresh _ _ _ ha) hids

end NoraInterviewer
