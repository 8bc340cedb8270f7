import NoraInterviewer.Audit

namespace NoraInterviewer

open ExceptRules HashChain

structure ReplayState where
  sessionId : String
  status : SessionStatus := .created
  paused : Bool := false
  interviewerTurnIds : List String := []
  candidateTurnIds : List String := []
  correctedTurnIds : List String := []
  appealIds : List String := []
  candidateControls : List String := []
  openedToolIds : List String := []
  submittedToolIds : List String := []
  evaluatedToolIds : List String := []
  cancelledToolIds : List String := []
  eventCount : Nat := 0
  auditChainVerified : Option Bool := none
  auditHeadHash : Option String := none

/-- `str(event.payload.get(key, ""))`. -/
def LogEntry.text (entry : LogEntry) (key : String) : String :=
  ((entry.payload.lookup key).map Json.toStr).getD ""

/-- `if value: items.append(value)`. -/
def appendGiven (items : List String) (value : String) : List String :=
  if value = "" then items else items ++ [value]

/-- The `if event.type` chain of `replay_events`. -/
def replayEntry (state : ReplayState) (entry : LogEntry) : ReplayState :=
  match entry.type with
  | .sessionCreated => { state with status := .created }
  | .interviewStarted => { state with status := .running }
  | .interviewerTurn =>
    { state with interviewerTurnIds := appendGiven state.interviewerTurnIds (entry.turnId.getD "") }
  | .candidateTurn =>
    { state with candidateTurnIds := appendGiven state.candidateTurnIds (entry.turnId.getD "") }
  | .candidateControl =>
    let kind := entry.text "kind"
    let state := { state with candidateControls := appendGiven state.candidateControls kind }
    if kind = "thinking_time" then { state with paused := true }
    else if kind = "resume" then { state with paused := false }
    else state
  | .transcriptCorrected =>
    { state with correctedTurnIds := appendGiven state.correctedTurnIds (entry.turnId.getD "") }
  | .appealSubmitted => { state with appealIds := appendGiven state.appealIds (entry.text "appeal_id") }
  | .toolOpened => { state with openedToolIds := appendGiven state.openedToolIds (entry.text "tool_id") }
  | .toolSubmitted =>
    { state with submittedToolIds := appendGiven state.submittedToolIds (entry.text "tool_id") }
  | .toolEvaluated =>
    { state with evaluatedToolIds := appendGiven state.evaluatedToolIds (entry.text "tool_id") }
  | .toolCancelled =>
    { state with cancelledToolIds := appendGiven state.cancelledToolIds (entry.text "tool_id") }
  | .sessionCompleted => { state with status := .completed, paused := false }
  | .sessionCancelled => { state with status := .cancelled, paused := false }
  | _ => state

/-- The loop of `replay_events`. -/
def replayFrom (expectedSeq : Nat) (state : ReplayState) :
    List InterviewEvent → Except PyError ReplayState
  | [] => .ok state
  | event :: rest =>
    if event.seq ≠ expectedSeq then
      .error (.raised (.valueError
        s!"non-contiguous event sequence: expected {expectedSeq}, got {event.seq}"))
    else
      replayFrom (expectedSeq + 1)
        (replayEntry { state with eventCount := state.eventCount + 1 } event.entry) rest

/-- What the fold over the log alone computes. -/
def replayLog (sessionId : String) (log : List LogEntry) : ReplayState :=
  log.foldl replayEntry { sessionId }

/-- Two states that agree in everything the `if event.type` chain reads or writes. -/
structure SameReplay (a b : ReplayState) : Prop where
  status : a.status = b.status
  paused : a.paused = b.paused
  interviewerTurnIds : a.interviewerTurnIds = b.interviewerTurnIds
  candidateTurnIds : a.candidateTurnIds = b.candidateTurnIds
  correctedTurnIds : a.correctedTurnIds = b.correctedTurnIds
  appealIds : a.appealIds = b.appealIds
  candidateControls : a.candidateControls = b.candidateControls
  openedToolIds : a.openedToolIds = b.openedToolIds
  submittedToolIds : a.submittedToolIds = b.submittedToolIds
  evaluatedToolIds : a.evaluatedToolIds = b.evaluatedToolIds
  cancelledToolIds : a.cancelledToolIds = b.cancelledToolIds

theorem SameReplay.step {a b : ReplayState} (h : SameReplay a b) (entry : LogEntry) :
    SameReplay (replayEntry a entry) (replayEntry b entry) := by
  obtain ⟨h1, h2, h3, h4, h5, h6, h7, h8, h9, h10, h11⟩ := h
  unfold replayEntry
  cases entry.type with
  | candidateControl =>
    simp only
    split
    · constructor <;> simp [*]
    · split <;> constructor <;> simp [*]
  | _ => constructor <;> simp [*]

theorem SameReplay.foldl {a b : ReplayState} (h : SameReplay a b) (log : List LogEntry) :
    SameReplay (log.foldl replayEntry a) (log.foldl replayEntry b) := by
  induction log generalizing a b with
  | nil => exact h
  | cons entry rest ih => exact ih (h.step entry)

/-- On a contiguous log the loop never stops early, and it computes the fold. -/
theorem replayFrom_of_contiguous {events : List InterviewEvent} {first : Nat} {state fold : ReplayState}
    (hc : events.map InterviewEvent.seq = List.range' first events.length)
    (hs : SameReplay state fold) :
    ∃ result, replayFrom first state events = .ok result ∧
      SameReplay result ((events.map InterviewEvent.entry).foldl replayEntry fold) := by
  induction events generalizing first state fold with
  | nil => exact ⟨state, rfl, hs⟩
  | cons event rest ih =>
    simp only [List.map_cons, List.length_cons, List.range'_succ, List.cons.injEq] at hc
    obtain ⟨hseq, hrest⟩ := hc
    have hcount : SameReplay { state with eventCount := state.eventCount + 1 } fold := by
      obtain ⟨h1, h2, h3, h4, h5, h6, h7, h8, h9, h10, h11⟩ := hs
      exact ⟨h1, h2, h3, h4, h5, h6, h7, h8, h9, h10, h11⟩
    obtain ⟨result, hr, hres⟩ := ih hrest (hcount.step event.entry)
    refine ⟨result, ?_, hres⟩
    rw [replayFrom, if_neg (not_not.mpr hseq)]
    exact hr

theorem replayLog_append (sessionId : String) (log rest : List LogEntry) :
    replayLog sessionId (log ++ rest) = rest.foldl replayEntry (replayLog sessionId log) := by
  rw [replayLog, replayLog, List.foldl_append]

variable [CanonicalDigest]

def replayEvents (sessionId : String) (events : List InterviewEvent) : Except PyError ReplayState := do
  let headHash ← verifyEventChain events
  replayFrom 1 {
    sessionId
    auditChainVerified := if headHash.isSome then some true else none
    auditHeadHash := headHash } events

/-- The replay of a sealed log succeeds and is the fold over its entries. -/
theorem replayEvents_of_sealed {events : List InterviewEvent} (sessionId : String)
    (h : Sealed events) :
    ∃ result, replayEvents sessionId events = .ok result ∧
      SameReplay result (replayLog sessionId (events.map InterviewEvent.entry)) := by
  rw [replayEvents, verifyEventChain_of_linked h.linked]
  exact replayFrom_of_contiguous h.contiguous ⟨rfl, rfl, rfl, rfl, rfl, rfl, rfl, rfl, rfl, rfl, rfl⟩

end NoraInterviewer
