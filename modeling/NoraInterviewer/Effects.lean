import NoraInterviewer.Workbench
import NoraInterviewer.Rights
import NoraInterviewer.EvidenceFrame
import NoraInterviewer.Replay

namespace NoraInterviewer

/-- What of a session the planner, the pause check and the lifecycle checks look at. -/
structure Stance where
  status : SessionStatus
  paused : Bool
  askedQuestions : Nat
  askedAnchorCompetencies : List String

def InterviewSession.stance (session : InterviewSession) : Stance :=
  ⟨session.status, session.paused, session.askedQuestions, session.askedAnchorCompetencies⟩

def InterviewSession.active (session : InterviewSession) : Prop :=
  session.status ≠ .completed ∧ session.status ≠ .cancelled

/-- What the callers of the service choose: the decisions that start an interview, those that go
on with it and may complete it, the tools it is given, and the turns it is asked to correct. -/
structure Policy where
  starts : Stance → AgentDecision → Prop
  decides : Stance → AgentDecision → Prop
  opens : ToolInvocation → Prop
  corrects : List (Nat × Nat) → Nat → Prop

/-- `turn` puts `decision` to the candidate. -/
structure Turn.Puts (turn : Turn) (decision : AgentDecision) : Prop where
  id_ne : turn.id ≠ ""
  speaker : turn.speaker = .interviewer
  text : turn.text = decision.text
  competencyTags : turn.competencyTags = decision.competencyTags
  lane : turn.metadata.lookup "question_lane" = some (.str (laneFor decision).value)

structure LogEntry.IsTurn (entry : LogEntry) (type : EventType) (turn : Turn) : Prop where
  type : entry.type = type
  turnId : entry.turnId = some turn.id

structure LogEntry.Names (entry : LogEntry) (type : EventType) (key value : String) : Prop where
  type : entry.type = type
  text : entry.text key = value

def ToolInvocation.cancel (tool : ToolInvocation) : ToolInvocation :=
  if tool.status = .open ∨ tool.status = .submitted then { tool with status := .cancelled } else tool

def ToolInvocation.pending (tool : ToolInvocation) : Bool :=
  tool.status = .open || tool.status = .submitted

/-- Which session a value is, whose it is, and on which version it is based. -/
structure SameIdentity (session session' : InterviewSession) : Prop where
  id : session'.id = session.id
  version : session'.version = session.version
  jobId : session'.jobId = session.jobId
  organizationId : session'.organizationId = session.organizationId
  candidateRef : session'.candidateRef = session.candidateRef

theorem SameIdentity.trans {a b c : InterviewSession} (hab : SameIdentity a b)
    (hbc : SameIdentity b c) : SameIdentity a c :=
  ⟨hbc.id.trans hab.id, hbc.version.trans hab.version, hbc.jobId.trans hab.jobId,
    hbc.organizationId.trans hab.organizationId, hbc.candidateRef.trans hab.candidateRef⟩

variable [CanonicalDigest]

/-- The effects that service operations are made of. Each one writes the session and logs
what it wrote, so the two never part between effects. -/
inductive Effect (policy : Policy) (session : InterviewSession) : InterviewSession → Prop where
  | evidence {session' : InterviewSession} (h : RecordsEvidence session session') :
    Effect policy session session'
  | covered (ids : List String) : Effect policy session { session with coveredCompetencies := ids }
  | followups (counts : Dict Nat) :
    Effect policy session { session with followupsByCompetency := counts }
  | started {decision : AgentDecision} {turn : Turn} {first second : LogEntry}
    {events : List InterviewEvent}
    (hs : session.status = .created ∨ session.status = .running ∧ session.turns = [])
    (hd : policy.starts session.stance decision) (ht : turn.Puts decision)
    (hf : first.type = .interviewStarted) (he : second.IsTurn .interviewerTurn turn)
    (hg : Grows session.events events [first, second]) :
    Effect policy session
      { countDecision { session with turns := session.turns ++ [turn] } decision with
        status := .running, events := events }
  | asked {decision : AgentDecision} {turn : Turn} {entry : LogEntry} {events : List InterviewEvent}
    (ha : session.active) (hd : policy.decides session.stance decision) (ht : turn.Puts decision)
    (he : entry.IsTurn .interviewerTurn turn) (hg : Grows session.events events [entry]) :
    Effect policy session
      { countDecision { session with turns := session.turns ++ [turn] } decision with events := events }
  | opened {tool : ToolInvocation} {entry : LogEntry} {events : List InterviewEvent}
    (ha : session.active) (hn : tool.id ∉ session.tools.map ToolInvocation.id)
    (ho : policy.opens tool) (he : entry.Names .toolOpened "tool_id" tool.id)
    (hg : Grows session.events events [entry]) :
    Effect policy session { session with tools := session.tools ++ [tool], events := events }
  | completed {decision : AgentDecision} {entry : LogEntry} {events : List InterviewEvent}
    (ha : session.active) (hd : policy.decides session.stance decision)
    (hc : decision.completesInterview = true) (at_ : DateTime)
    (he : entry.type = .sessionCompleted) (hg : Grows session.events events [entry]) :
    Effect policy session { session with
      status := .completed
      completedAt := session.completedAt.or (some at_)
      events := events }
  | answered {turn : Turn} {shared : List (Nat × Nat)} {entry : LogEntry} {events : List InterviewEvent}
    (ha : session.active) (hp : session.paused = false) (hi : turn.id ≠ "")
    (hc : turn.speaker = .candidate) (he : entry.IsTurn .candidateTurn turn)
    (hg : Grows session.events events [entry]) :
    Effect policy session { session with
      turns := session.turns ++ [turn], sharedMetadata := shared, events := events }
  | worked {tool : ToolInvocation} {submission : ToolSubmission} {evaluation : ToolEvaluation}
    {turn : Turn} {first second third : LogEntry} {events : List InterviewEvent}
    (ha : session.active)
    (hf : session.tools.find? (fun item => item.id = tool.id) = some tool) (ho : tool.status = .open)
    (hs : submission.toolId = tool.id) (hi : turn.id ≠ "") (hc : turn.speaker = .candidate)
    (h1 : first.Names .toolSubmitted "tool_id" tool.id) (h2 : second.IsTurn .candidateTurn turn)
    (h3 : third.Names .toolEvaluated "tool_id" tool.id)
    (hg : Grows session.events events [first, second, third]) :
    Effect policy session { session with
      toolSubmissions := session.toolSubmissions ++ [submission]
      toolEvaluations := session.toolEvaluations ++ [evaluation]
      tools := setToolStatus tool.id .evaluated (setToolStatus tool.id .submitted session.tools)
      turns := session.turns ++ [turn]
      events := events }
  | controlled {kind : CandidateControlKind} {entry : LogEntry} {events : List InterviewEvent}
    (ha : session.active) (he : entry.Names .candidateControl "kind" kind.value)
    (hg : Grows session.events events [entry]) :
    Effect policy session { session with
      paused :=
        if kind = .thinkingTime then true else if kind = .resume then false else session.paused
      events := events }
  | replied {turn : Turn} {entry : LogEntry} {events : List InterviewEvent} (ha : session.active)
    (hi : turn.id ≠ "") (hs : turn.speaker = .interviewer)
    (hf : turn.flagged "candidate_control" = true) (he : entry.IsTurn .interviewerTurn turn)
    (hg : Grows session.events events [entry]) :
    Effect policy session { session with turns := session.turns ++ [turn], events := events }
  | corrected {index : Nat} {turn : Turn} {text : String} {metadata : Dict Json}
    {revision : TranscriptRevision} {entry : LogEntry} {events : List InterviewEvent}
    (ht : session.turns[index]? = some turn) (hc : turn.speaker = .candidate)
    (hp : policy.corrects session.sharedMetadata index) (hr : revision.turnId = turn.id)
    (he : entry.IsTurn .transcriptCorrected turn)
    (hl : events.map InterviewEvent.entry = (writeMetadata session index text metadata).log ++ [entry])
    (hs : Sealed session.events → Sealed events)
    (hk : (∀ e, (e, index) ∉ session.sharedMetadata) → Grows session.events events [entry]) :
    Effect policy session { writeMetadata session index text metadata with
      transcriptRevisions := session.transcriptRevisions ++ [revision], events := events }
  | appealed {appeal : CandidateAppeal} {entry : LogEntry} {events : List InterviewEvent}
    (hi : appeal.id ≠ "") (he : entry.Names .appealSubmitted "appeal_id" appeal.id)
    (hg : Grows session.events events [entry]) :
    Effect policy session { session with appeals := session.appeals ++ [appeal], events := events }
  | reviewed {appeals : List CandidateAppeal} {signals : List IntegritySignal} {entry : LogEntry}
    {events : List InterviewEvent}
    (hi : appeals.map CandidateAppeal.id = session.appeals.map CandidateAppeal.id)
    (he : entry.type ∈ [EventType.appealReviewed, .integritySignal, .integrityReviewed])
    (hg : Grows session.events events [entry]) :
    Effect policy session { session with
      appeals := appeals, integritySignals := signals, events := events }
  | cancelled {reason : String} {entries : List LogEntry} {last : LogEntry}
    {events : List InterviewEvent} (ha : session.active) (at_ : DateTime)
    (hc : List.Forall₂ (fun tool entry => LogEntry.Names entry .toolCancelled "tool_id" tool.id)
      (session.tools.filter ToolInvocation.pending) entries)
    (he : last.type = .sessionCancelled) (hg : Grows session.events events (entries ++ [last])) :
    Effect policy session { session with
      tools := session.tools.map ToolInvocation.cancel
      paused := false
      status := .cancelled
      cancelledAt := some at_
      cancellationReason := some reason
      events := events }

/-- A run of effects. -/
inductive Effects (policy : Policy) (session : InterviewSession) : InterviewSession → Prop where
  | nil : Effects policy session session
  | snoc {mid session' : InterviewSession} (h : Effects policy session mid)
    (he : Effect policy mid session') : Effects policy session session'

theorem Effects.trans {policy : Policy} {a b c : InterviewSession} (hab : Effects policy a b)
    (hbc : Effects policy b c) : Effects policy a c := by
  induction hbc with
  | nil => exact hab
  | snoc _ he ih => exact ih.snoc he

/-- Whatever an effect does, a sealed log comes out sealed. -/
theorem Effect.seals {policy : Policy} {session session' : InterviewSession}
    (h : Effect policy session session') (hs : Sealed session.events) : Sealed session'.events := by
  cases h with
  | evidence h =>
    obtain ⟨_, _, _, _, rfl, hg, _⟩ := h
    exact hg.seals hs
  | covered => exact hs
  | followups => exact hs
  | started _ _ _ _ _ hg => exact hg.seals hs
  | asked _ _ _ _ hg => exact hg.seals hs
  | opened _ _ _ _ hg => exact hg.seals hs
  | completed _ _ _ _ _ hg => exact hg.seals hs
  | answered _ _ _ _ _ hg => exact hg.seals hs
  | worked _ _ _ _ _ _ _ _ _ hg => exact hg.seals hs
  | controlled _ _ hg => exact hg.seals hs
  | replied _ _ _ _ _ hg => exact hg.seals hs
  | corrected _ _ _ _ _ _ hseal => exact hseal hs
  | appealed _ _ hg => exact hg.seals hs
  | reviewed _ _ hg => exact hg.seals hs
  | cancelled _ _ _ _ hg => exact hg.seals hs

theorem Effects.seals {policy : Policy} {session session' : InterviewSession}
    (h : Effects policy session session') (hs : Sealed session.events) : Sealed session'.events := by
  induction h with
  | nil => exact hs
  | snoc _ he ih => exact he.seals ih

theorem Effects.refusal {policy : Policy} {session session' : InterviewSession} {e : PyError}
    (h : Effects policy session session') (he : Refusal session'.events e) :
    Refusal session.events e :=
  fun hs => he (h.seals hs)

/-- No effect touches the identity or the version of a session. -/
theorem Effect.identity {policy : Policy} {session session' : InterviewSession}
    (h : Effect policy session session') : SameIdentity session session' := by
  cases h with
  | evidence h =>
    obtain ⟨_, _, _, _, rfl, _⟩ := h
    exact ⟨rfl, rfl, rfl, rfl, rfl⟩
  | _ => exact ⟨rfl, rfl, rfl, rfl, rfl⟩

theorem Effects.identity {policy : Policy} {session session' : InterviewSession}
    (h : Effects policy session session') : SameIdentity session session' := by
  induction h with
  | nil => exact ⟨rfl, rfl, rfl, rfl, rfl⟩
  | snoc _ he ih => exact ih.trans he.identity

theorem Effect.imp {policy policy' : Policy} {session session' : InterviewSession}
    (hs : ∀ stance decision, policy.starts stance decision → policy'.starts stance decision)
    (hd : ∀ stance decision, policy.decides stance decision → policy'.decides stance decision)
    (ho : ∀ tool, policy.opens tool → policy'.opens tool)
    (hc : ∀ shared index, policy.corrects shared index → policy'.corrects shared index)
    (h : Effect policy session session') : Effect policy' session session' := by
  cases h with
  | evidence h => exact .evidence h
  | covered ids => exact .covered ids
  | followups counts => exact .followups counts
  | started hst h ht h1 he hg => exact .started hst (hs _ _ h) ht h1 he hg
  | asked ha h ht he hg => exact .asked ha (hd _ _ h) ht he hg
  | opened ha hn h he hg => exact .opened ha hn (ho _ h) he hg
  | completed ha h hcomp at_ he hg => exact .completed ha (hd _ _ h) hcomp at_ he hg
  | answered ha hp hi hsp he hg => exact .answered ha hp hi hsp he hg
  | worked ha hw hopen hsub hi hsp h1 h2 h3 hg => exact .worked ha hw hopen hsub hi hsp h1 h2 h3 hg
  | controlled ha he hg => exact .controlled ha he hg
  | replied ha hi hsp hr he hg => exact .replied ha hi hsp hr he hg
  | corrected ht hsp h hr he hl hseal hk => exact .corrected ht hsp (hc _ _ h) hr he hl hseal hk
  | appealed hi he hg => exact .appealed hi he hg
  | reviewed hi he hg => exact .reviewed hi he hg
  | cancelled ha at_ h he hg => exact .cancelled ha at_ h he hg

theorem Effects.imp {policy policy' : Policy} {session session' : InterviewSession}
    (hs : ∀ stance decision, policy.starts stance decision → policy'.starts stance decision)
    (hd : ∀ stance decision, policy.decides stance decision → policy'.decides stance decision)
    (ho : ∀ tool, policy.opens tool → policy'.opens tool)
    (hc : ∀ shared index, policy.corrects shared index → policy'.corrects shared index)
    (h : Effects policy session session') : Effects policy' session session' := by
  induction h with
  | nil => exact .nil
  | snoc _ he ih => exact ih.snoc (he.imp hs hd ho hc)

end NoraInterviewer
