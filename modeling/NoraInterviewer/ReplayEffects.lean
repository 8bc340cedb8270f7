import NoraInterviewer.History
import NoraInterviewer.ToolStatuses

namespace NoraInterviewer

open ExceptRules

/-- The replayed log says of the session what the session says of itself. -/
structure Agrees (state : ReplayState) (session : InterviewSession) : Prop where
  status : state.status = session.status
  paused : state.paused = session.paused
  interviewerTurnIds : state.interviewerTurnIds =
    (session.turns.filter fun turn => turn.speaker = .interviewer).map Turn.id
  candidateTurnIds : state.candidateTurnIds =
    (session.turns.filter fun turn => turn.speaker = .candidate).map Turn.id
  correctedTurnIds : state.correctedTurnIds =
    session.transcriptRevisions.map TranscriptRevision.turnId
  appealIds : state.appealIds = session.appeals.map CandidateAppeal.id
  openedToolIds : ∀ id, id ∈ state.openedToolIds ↔ id ∈ session.tools.map ToolInvocation.id
  submittedToolIds : ∀ id, id ∈ state.submittedToolIds ↔
    id ∈ session.toolSubmissions.map ToolSubmission.toolId
  evaluatedToolIds : ∀ id, id ∈ state.evaluatedToolIds ↔ hasStatus session.tools id .evaluated
  cancelledToolIds : ∀ id, id ∈ state.cancelledToolIds ↔ hasStatus session.tools id .cancelled

theorem appendGiven_of_ne {value : String} (h : value ≠ "") (items : List String) :
    appendGiven items value = items ++ [value] :=
  if_neg h

section Replay

variable {entry : LogEntry} {turn : Turn} {id : String} (state : ReplayState)

theorem replay_evidence (h : entry.type.aboutEvidence = true) : replayEntry state entry = state := by
  unfold replayEntry
  cases ht : entry.type <;> simp_all [EventType.aboutEvidence]

theorem replay_interviewerTurn (h : entry.IsTurn .interviewerTurn turn) (hi : turn.id ≠ "") :
    replayEntry state entry =
      { state with interviewerTurnIds := state.interviewerTurnIds ++ [turn.id] } := by
  simp only [replayEntry, h.type, h.turnId, Option.getD_some, appendGiven_of_ne hi]

theorem replay_candidateTurn (h : entry.IsTurn .candidateTurn turn) (hi : turn.id ≠ "") :
    replayEntry state entry =
      { state with candidateTurnIds := state.candidateTurnIds ++ [turn.id] } := by
  simp only [replayEntry, h.type, h.turnId, Option.getD_some, appendGiven_of_ne hi]

theorem replay_corrected (h : entry.IsTurn .transcriptCorrected turn) (hi : turn.id ≠ "") :
    replayEntry state entry =
      { state with correctedTurnIds := state.correctedTurnIds ++ [turn.id] } := by
  simp only [replayEntry, h.type, h.turnId, Option.getD_some, appendGiven_of_ne hi]

theorem replay_toolOpened (h : entry.Names .toolOpened "tool_id" id) (hi : id ≠ "") :
    replayEntry state entry = { state with openedToolIds := state.openedToolIds ++ [id] } := by
  simp only [replayEntry, h.type, h.text, appendGiven_of_ne hi]

theorem replay_toolSubmitted (h : entry.Names .toolSubmitted "tool_id" id) (hi : id ≠ "") :
    replayEntry state entry = { state with submittedToolIds := state.submittedToolIds ++ [id] } := by
  simp only [replayEntry, h.type, h.text, appendGiven_of_ne hi]

theorem replay_toolEvaluated (h : entry.Names .toolEvaluated "tool_id" id) (hi : id ≠ "") :
    replayEntry state entry = { state with evaluatedToolIds := state.evaluatedToolIds ++ [id] } := by
  simp only [replayEntry, h.type, h.text, appendGiven_of_ne hi]

theorem replay_toolCancelled (h : entry.Names .toolCancelled "tool_id" id) (hi : id ≠ "") :
    replayEntry state entry = { state with cancelledToolIds := state.cancelledToolIds ++ [id] } := by
  simp only [replayEntry, h.type, h.text, appendGiven_of_ne hi]

theorem replay_appeal (h : entry.Names .appealSubmitted "appeal_id" id) (hi : id ≠ "") :
    replayEntry state entry = { state with appealIds := state.appealIds ++ [id] } := by
  simp only [replayEntry, h.type, h.text, appendGiven_of_ne hi]

/-- A control sets `paused` the way the live session does. -/
theorem replay_control {kind : CandidateControlKind}
    (h : entry.Names .candidateControl "kind" kind.value) :
    replayEntry state entry = { state with
      candidateControls := state.candidateControls ++ [kind.value]
      paused :=
        if kind = .thinkingTime then true else if kind = .resume then false else state.paused } := by
  have hkind : kind.value ≠ "" := by cases kind <;> decide
  simp only [replayEntry, h.type, h.text, appendGiven_of_ne hkind]
  cases kind <;> simp [CandidateControlKind.value]

theorem replay_evidences {entries : List LogEntry}
    (h : ∀ entry ∈ entries, entry.type.aboutEvidence = true) :
    entries.foldl replayEntry state = state := by
  induction entries generalizing state with
  | nil => rfl
  | cons first rest ih =>
    rw [List.foldl_cons, replay_evidence state (h first List.mem_cons_self)]
    exact ih state fun entry he => h entry (List.mem_cons_of_mem _ he)

theorem replay_toolsCancelled {tools : List ToolInvocation} {entries : List LogEntry}
    (h : List.Forall₂ (fun tool entry => LogEntry.Names entry .toolCancelled "tool_id" tool.id)
      tools entries) (hi : ∀ tool ∈ tools, tool.id ≠ "") :
    entries.foldl replayEntry state = { state with
      cancelledToolIds := state.cancelledToolIds ++ tools.map ToolInvocation.id } := by
  induction h generalizing state with
  | nil => simp
  | @cons tool entry tools entries he _ ih =>
    rw [List.foldl_cons, replay_toolCancelled state he (hi tool List.mem_cons_self),
      ih _ fun item hm => hi item (List.mem_cons_of_mem _ hm)]
    simp

/-- Replay never reads the metadata of a payload. -/
theorem replay_metadata (metadata : Json) :
    replayEntry state { entry with payload := Dict.set "metadata" metadata entry.payload } =
      replayEntry state entry := by
  have hkind : "kind" ≠ "metadata" := by decide
  have happeal : "appeal_id" ≠ "metadata" := by decide
  have htool : "tool_id" ≠ "metadata" := by decide
  simp only [replayEntry, LogEntry.text, Dict.lookup_set_ne hkind, Dict.lookup_set_ne happeal,
    Dict.lookup_set_ne htool]
  cases entry.type <;> rfl

end Replay

theorem foldl_mapIdx_of_same {α β : Type} {step : β → α → β} {f : Nat → α → α}
    (h : ∀ state i item, step state (f i item) = step state item) (items : List α) (state : β) :
    (items.mapIdx f).foldl step state = items.foldl step state := by
  induction items generalizing f state with
  | nil => rfl
  | cons item rest ih =>
    rw [List.mapIdx_cons, List.foldl_cons, List.foldl_cons, h]
    exact ih (fun state i item => h state (i + 1) item) _

/-- A write through a shared dict leaves the replay as it was. -/
theorem replayLog_writeMetadata (sessionId : String) (session : InterviewSession) (index : Nat)
    (text : String) (metadata : Dict Json) :
    replayLog sessionId (writeMetadata session index text metadata).log =
      replayLog sessionId session.log := by
  rw [replayLog, replayLog, InterviewSession.log, InterviewSession.log, List.foldl_map, List.foldl_map]
  refine foldl_mapIdx_of_same (fun state i event => ?_) session.events _
  split
  next => exact @replay_metadata event.entry state _
  next => rfl

theorem filter_snoc_interviewer (turns : List Turn) {turn : Turn} (h : turn.speaker = .interviewer) :
    ((turns ++ [turn]).filter fun turn => turn.speaker = .interviewer).map Turn.id =
        (turns.filter fun turn => turn.speaker = .interviewer).map Turn.id ++ [turn.id] ∧
      ((turns ++ [turn]).filter fun turn => turn.speaker = .candidate).map Turn.id =
        (turns.filter fun turn => turn.speaker = .candidate).map Turn.id := by
  simp [h]

theorem filter_snoc_candidate (turns : List Turn) {turn : Turn} (h : turn.speaker = .candidate) :
    ((turns ++ [turn]).filter fun turn => turn.speaker = .interviewer).map Turn.id =
        (turns.filter fun turn => turn.speaker = .interviewer).map Turn.id ∧
      ((turns ++ [turn]).filter fun turn => turn.speaker = .candidate).map Turn.id =
        (turns.filter fun turn => turn.speaker = .candidate).map Turn.id ++ [turn.id] := by
  simp [h]

theorem forall_mem_snoc {α : Type} {P : α → Prop} {items : List α} {item : α}
    (h : ∀ x ∈ items, P x) (hi : P item) : ∀ x ∈ items ++ [item], P x := by
  intro x hx
  rcases List.mem_append.mp hx with hx | hx
  · exact h x hx
  · exact List.mem_singleton.mp hx ▸ hi

/-- A correction changes what a turn says, not whose it is. -/
theorem modify_map {α : Type} (turns : List Turn) (index : Nat) (text : String)
    (metadata : Dict Json) (key : Turn → α) (hk : ∀ turn : Turn, key { turn with text, metadata } = key turn) :
    (turns.modify index fun turn => { turn with text, metadata }).map key = turns.map key := by
  apply List.ext_getElem?
  intro i
  rw [List.getElem?_map, List.getElem?_map, List.getElem?_modify]
  cases turns[i]? with
  | none => rfl
  | some turn =>
    by_cases h : index = i
    · simp [h, hk]
    · simp [h]

theorem modify_speakers (turns : List Turn) (index : Nat) (text : String) (metadata : Dict Json)
    (speaker : Speaker) :
    ((turns.modify index fun turn => { turn with text, metadata }).filter
        fun turn => turn.speaker = speaker).map Turn.id =
      (turns.filter fun turn => turn.speaker = speaker).map Turn.id := by
  have hpairs := modify_map turns index text metadata (fun turn => (turn.speaker, turn.id))
    fun _ => rfl
  have hids : ∀ items : List Turn, (items.filter fun turn => turn.speaker = speaker).map Turn.id =
      ((items.map fun turn => (turn.speaker, turn.id)).filter
        fun pair => pair.1 = speaker).map Prod.snd := by
    intro items
    rw [List.filter_map, List.map_map]
    rfl
  rw [hids, hids, hpairs]

theorem mem_snoc_congr {α : Type} {first second : List α} {x : α} (h : x ∈ first ↔ x ∈ second)
    (item : α) : x ∈ first ++ [item] ↔ x ∈ second ++ [item] := by
  rw [List.mem_append, List.mem_append, h]

/-- The invariant behind the agreement: what replay skips, an empty id, never occurs. -/
structure Replayed (session : InterviewSession) : Prop where
  agrees : Agrees (replayLog session.id session.log) session
  turnIds : ∀ turn ∈ session.turns, turn.id ≠ ""
  toolIds : ∀ tool ∈ session.tools, tool.id ≠ ""
  nodup : (session.tools.map ToolInvocation.id).Nodup

variable [CanonicalDigest]

theorem replayLog_grows {events events' : List InterviewEvent} {entries : List LogEntry}
    (h : Grows events events' entries) (sessionId : String) :
    replayLog sessionId (events'.map InterviewEvent.entry) =
      entries.foldl replayEntry (replayLog sessionId (events.map InterviewEvent.entry)) := by
  rw [h.log, replayLog_append]

theorem Replayed.evidence {session session' : InterviewSession} (h : Replayed session)
    (he : RecordsEvidence session session') : Replayed session' := by
  obtain ⟨graph, runs, events, entries, rfl, hg, hx⟩ := he
  refine ⟨?_, h.turnIds, h.toolIds, h.nodup⟩
  change Agrees (replayLog session.id (events.map InterviewEvent.entry)) _
  rw [replayLog_grows hg, replay_evidences _ hx]
  obtain ⟨h1, h2, h3, h4, h5, h6, h7, h8, h9, h10⟩ := h.agrees
  exact ⟨h1, h2, h3, h4, h5, h6, h7, h8, h9, h10⟩

/-- One effect keeps the agreement, unless it completes a paused session or opens a tool that
replay cannot see as the session does. -/
theorem Replayed.effect {policy : Policy} {session session' : InterviewSession}
    (hc : ∀ stance decision, policy.decides stance decision →
      decision.completesInterview = true → stance.paused = false)
    (ho : ∀ tool, policy.opens tool →
      tool.id ≠ "" ∧ tool.status ≠ .evaluated ∧ tool.status ≠ .cancelled)
    (h : Replayed session) (he : Effect policy session session') : Replayed session' := by
  obtain ⟨⟨h1, h2, h3, h4, h5, h6, h7, h8, h9, h10⟩, hturns, htools, hnodup⟩ := id h
  cases he with
  | evidence he => exact h.evidence he
  | covered => exact ⟨⟨h1, h2, h3, h4, h5, h6, h7, h8, h9, h10⟩, hturns, htools, hnodup⟩
  | followups => exact ⟨⟨h1, h2, h3, h4, h5, h6, h7, h8, h9, h10⟩, hturns, htools, hnodup⟩
  | @started decision turn first second events _ _ ht hf he hg =>
    refine ⟨?_, forall_mem_snoc hturns ht.id_ne, htools, hnodup⟩
    obtain ⟨hi, hk⟩ := filter_snoc_interviewer session.turns ht.speaker
    change Agrees (replayLog session.id (events.map InterviewEvent.entry)) _
    rw [replayLog_grows hg, List.foldl_cons, List.foldl_cons, List.foldl_nil,
      replay_interviewerTurn _ he ht.id_ne, replayEntry, hf]
    exact ⟨rfl, h2, (congrArg (· ++ [turn.id]) h3).trans hi.symm, h4.trans hk.symm,
      h5, h6, h7, h8, h9, h10⟩
  | @asked decision turn entry events _ _ ht he hg =>
    refine ⟨?_, forall_mem_snoc hturns ht.id_ne, htools, hnodup⟩
    obtain ⟨hi, hk⟩ := filter_snoc_interviewer session.turns ht.speaker
    change Agrees (replayLog session.id (events.map InterviewEvent.entry)) _
    rw [replayLog_grows hg, List.foldl_cons, List.foldl_nil, replay_interviewerTurn _ he ht.id_ne]
    exact ⟨h1, h2, (congrArg (· ++ [turn.id]) h3).trans hi.symm, h4.trans hk.symm,
      h5, h6, h7, h8, h9, h10⟩
  | @opened tool entry events _ hn hopen he hg =>
    obtain ⟨hid, hevaluated, hcancelled⟩ := ho tool hopen
    refine ⟨?_, hturns, forall_mem_snoc htools hid, ?_⟩
    · change Agrees (replayLog session.id (events.map InterviewEvent.entry)) _
      rw [replayLog_grows hg, List.foldl_cons, List.foldl_nil, replay_toolOpened _ he hid]
      refine ⟨h1, h2, h3, h4, h5, h6, fun id => ?_, h8, fun id => ?_, fun id => ?_⟩
      · rw [List.map_append]
        exact mem_snoc_congr (h7 id) tool.id
      · simp only [hasStatus_append, hevaluated, and_false, or_false]
        exact h9 id
      · simp only [hasStatus_append, hcancelled, and_false, or_false]
        exact h10 id
    · rw [List.map_append]
      exact hnodup.append (List.nodup_singleton _) (List.disjoint_singleton.mpr hn)
  | @completed decision entry events _ hd hcomp at_ he hg =>
    refine ⟨?_, hturns, htools, hnodup⟩
    have hp : session.paused = false := hc _ _ hd hcomp
    change Agrees (replayLog session.id (events.map InterviewEvent.entry)) _
    rw [replayLog_grows hg, List.foldl_cons, List.foldl_nil, replayEntry, he]
    exact ⟨rfl, hp.symm, h3, h4, h5, h6, h7, h8, h9, h10⟩
  | @answered turn shared entry events _ _ hid hs he hg =>
    refine ⟨?_, forall_mem_snoc hturns hid, htools, hnodup⟩
    obtain ⟨hi, hk⟩ := filter_snoc_candidate session.turns hs
    change Agrees (replayLog session.id (events.map InterviewEvent.entry)) _
    rw [replayLog_grows hg, List.foldl_cons, List.foldl_nil, replay_candidateTurn _ he hid]
    exact ⟨h1, h2, h3.trans hi.symm, (congrArg (· ++ [turn.id]) h4).trans hk.symm,
      h5, h6, h7, h8, h9, h10⟩
  | @worked tool submission evaluation turn first second third events _ hf hopen hsub hid hs e1 e2 e3 hg =>
    have hm : tool ∈ session.tools := List.mem_of_find?_eq_some hf
    have hne : tool.id ≠ "" := htools tool hm
    have hids : (setToolStatus tool.id .evaluated (setToolStatus tool.id .submitted
        session.tools)).map ToolInvocation.id = session.tools.map ToolInvocation.id :=
      (setToolStatus_ids _ _ _).trans (setToolStatus_ids _ _ _)
    have hstatus := worked_hasStatus hnodup hm hopen
    obtain ⟨hi, hk⟩ := filter_snoc_candidate session.turns hs
    refine ⟨?_, forall_mem_snoc hturns hid, ?_, hids ▸ hnodup⟩
    · change Agrees (replayLog session.id (events.map InterviewEvent.entry)) _
      rw [replayLog_grows hg, List.foldl_cons, List.foldl_cons, List.foldl_cons, List.foldl_nil,
        replay_toolSubmitted _ e1 hne, replay_candidateTurn _ e2 hid, replay_toolEvaluated _ e3 hne]
      refine ⟨h1, h2, h3.trans hi.symm, (congrArg (· ++ [turn.id]) h4).trans hk.symm, h5, h6,
        fun id => ?_, fun id => ?_, fun id => ?_, fun id => ?_⟩
      · rw [hids]
        exact h7 id
      · rw [List.map_append, List.map_singleton, hsub]
        exact mem_snoc_congr (h8 id) tool.id
      · rw [(hstatus id).1, ← h9 id, or_comm]
        exact List.mem_append.trans (or_congr_right List.mem_singleton)
      · rw [(hstatus id).2]
        exact h10 id
    · intro item hitem
      have hmem : item.id ∈ session.tools.map ToolInvocation.id := hids ▸ List.mem_map_of_mem hitem
      obtain ⟨old, ho, he⟩ := List.mem_map.mp hmem
      exact he ▸ htools old ho
  | @controlled kind entry events _ he hg =>
    refine ⟨?_, hturns, htools, hnodup⟩
    change Agrees (replayLog session.id (events.map InterviewEvent.entry)) _
    rw [replayLog_grows hg, List.foldl_cons, List.foldl_nil, replay_control _ he]
    refine ⟨h1, ?_, h3, h4, h5, h6, h7, h8, h9, h10⟩
    change (if kind = .thinkingTime then true else if kind = .resume then false else
      (replayLog session.id session.log).paused) = _
    rw [h2]
  | @replied turn entry events _ hid hs _ he hg =>
    refine ⟨?_, forall_mem_snoc hturns hid, htools, hnodup⟩
    obtain ⟨hi, hk⟩ := filter_snoc_interviewer session.turns hs
    change Agrees (replayLog session.id (events.map InterviewEvent.entry)) _
    rw [replayLog_grows hg, List.foldl_cons, List.foldl_nil, replay_interviewerTurn _ he hid]
    exact ⟨h1, h2, (congrArg (· ++ [turn.id]) h3).trans hi.symm, h4.trans hk.symm,
      h5, h6, h7, h8, h9, h10⟩
  | @corrected index turn text metadata revision entry events ht hs _ hr he hl _ _ =>
    have hid : turn.id ≠ "" := hturns turn (List.mem_of_getElem? ht)
    have hspeakers := modify_speakers session.turns index text metadata
    refine ⟨?_, ?_, htools, hnodup⟩
    · change Agrees (replayLog session.id (events.map InterviewEvent.entry)) _
      rw [hl, replayLog_append, replayLog_writeMetadata, List.foldl_cons, List.foldl_nil,
        replay_corrected _ he hid]
      refine ⟨h1, h2, h3.trans (hspeakers .interviewer).symm, h4.trans (hspeakers .candidate).symm,
        ?_, h6, h7, h8, h9, h10⟩
      rw [List.map_append, List.map_singleton, hr]
      exact congrArg (· ++ [turn.id]) h5
    · intro item hitem
      have hmem : item.id ∈ session.turns.map Turn.id :=
        modify_map session.turns index text metadata Turn.id (fun _ => rfl) ▸
          List.mem_map_of_mem hitem
      obtain ⟨old, ho, he⟩ := List.mem_map.mp hmem
      exact he ▸ hturns old ho
  | @appealed appeal entry events hid he hg =>
    refine ⟨?_, hturns, htools, hnodup⟩
    change Agrees (replayLog session.id (events.map InterviewEvent.entry)) _
    rw [replayLog_grows hg, List.foldl_cons, List.foldl_nil, replay_appeal _ he hid]
    refine ⟨h1, h2, h3, h4, h5, ?_, h7, h8, h9, h10⟩
    rw [List.map_append]
    exact congrArg (· ++ [appeal.id]) h6
  | @reviewed appeals signals entry events hi he hg =>
    refine ⟨?_, hturns, htools, hnodup⟩
    change Agrees (replayLog session.id (events.map InterviewEvent.entry)) _
    have hskip : ∀ state, replayEntry state entry = state := by
      intro state
      unfold replayEntry
      simp only [List.mem_cons, List.not_mem_nil, or_false] at he
      rcases he with he | he | he <;> rw [he]
    rw [replayLog_grows hg, List.foldl_cons, List.foldl_nil, hskip]
    exact ⟨h1, h2, h3, h4, h5, h6.trans hi.symm, h7, h8, h9, h10⟩
  | @cancelled reason entries last events _ at_ hc he hg =>
    refine ⟨?_, hturns, ?_, ?_⟩
    · change Agrees (replayLog session.id (events.map InterviewEvent.entry)) _
      rw [replayLog_grows hg, List.foldl_append, List.foldl_cons, List.foldl_nil,
        replay_toolsCancelled _ hc fun tool hm => htools tool (List.mem_of_mem_filter hm),
        replayEntry, he]
      refine ⟨rfl, rfl, h3, h4, h5, h6, fun id => ?_, h8, fun id => ?_, fun id => ?_⟩
      · rw [cancel_ids]
        exact h7 id
      · rw [cancel_hasStatus_evaluated]
        exact h9 id
      · rw [cancel_hasStatus_cancelled, ← h10 id]
        exact List.mem_append
    · intro tool hm
      obtain ⟨old, ho, rfl⟩ := List.mem_map.mp hm
      rw [cancel_id]
      exact htools old ho
    · rw [cancel_ids]
      exact hnodup

end NoraInterviewer
