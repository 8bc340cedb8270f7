import NoraInterviewer.Lifecycle

namespace NoraInterviewer

/-- The status changes of one operation. -/
inductive SessionStatus.Next : SessionStatus → SessionStatus → Prop where
  | stay (status : SessionStatus) : Next status status
  | start : Next .created .running
  | complete : Next .running .completed
  | cancel {status : SessionStatus} (h : status ≠ .completed) : Next status .cancelled

/-- The statuses of the versions of a session that ran in order, latest first. -/
inductive InOrder : List SessionStatus → Prop where
  | created (a : Nat) : InOrder (List.replicate (a + 1) .created)
  | running (a b : Nat) :
    InOrder (List.replicate (b + 1) .running ++ List.replicate (a + 1) .created)
  | completed (a b c : Nat) :
    InOrder (List.replicate (c + 1) .completed ++
      (List.replicate (b + 1) .running ++ List.replicate (a + 1) .created))
  | cancelled (past : List SessionStatus) : InOrder (.cancelled :: past)

/-- The start of a running session is on record, and that of a completed one is on record
before its end. -/
structure StartedFirst (session : InterviewSession) : Prop where
  running : session.status = .running → .interviewStarted ∈ session.eventTypes
  completed : session.status = .completed → ∃ before after,
    session.eventTypes = before ++ .sessionCompleted :: after ∧ .interviewStarted ∈ before

theorem InOrder.step {status next : SessionStatus} {past : List SessionStatus}
    (h : InOrder (status :: past)) (hn : status.Next next) : InOrder (next :: status :: past) := by
  generalize hs : status :: past = statuses at h ⊢
  cases h with
  | created a =>
    obtain ⟨rfl, _⟩ := List.cons.inj hs
    cases hn with
    | stay => exact .created (a + 1)
    | start => exact .running a 0
    | cancel => exact .cancelled _
  | running a b =>
    obtain ⟨rfl, _⟩ := List.cons.inj hs
    cases hn with
    | stay => exact .running a (b + 1)
    | complete => exact .completed a b 0
    | cancel => exact .cancelled _
  | completed a b c =>
    obtain ⟨rfl, _⟩ := List.cons.inj hs
    cases hn with
    | stay => exact .completed a b (c + 1)
    | cancel h => exact absurd rfl h
  | cancelled past =>
    obtain ⟨rfl, _⟩ := List.cons.inj hs
    cases hn with
    | stay => exact .cancelled _
    | cancel => exact .cancelled _

theorem SessionStatus.Next.of_completed {status : SessionStatus} (h : Next .completed status) :
    status = .completed := by
  cases h with
  | stay => rfl
  | cancel h => exact absurd rfl h

theorem SessionStatus.Next.started {base status : SessionStatus} (h : base.Next status)
    (hs : status = .created ∨ status = .running) : base.Next .running := by
  cases h with
  | stay =>
    rcases hs with rfl | rfl
    · exact .start
    · exact .stay _
  | start => exact .start
  | complete => simp at hs
  | cancel => simp at hs

theorem StartedFirst.log {session session' : InterviewSession} {more : List EventType}
    (h : StartedFirst session) (ht : session'.eventTypes = session.eventTypes ++ more)
    (hs : session'.status = session.status) : StartedFirst session' := by
  refine ⟨fun hr => ?_, fun hc => ?_⟩
  · rw [ht]
    exact List.mem_append_left _ (h.running (hs ▸ hr))
  · obtain ⟨before, after, he, hm⟩ := h.completed (hs ▸ hc)
    exact ⟨before, after ++ more, by rw [ht, he]; simp, hm⟩

theorem startedFirst_of_status {session : InterviewSession} (hr : session.status ≠ .running)
    (hc : session.status ≠ .completed) : StartedFirst session :=
  ⟨fun h => absurd h hr, fun h => absurd h hc⟩

section

variable [CanonicalDigest]

omit [CanonicalDigest] in
theorem running_of_active {session : InterviewSession} (ha : session.active)
    (hne : session.status ≠ .created) : session.status = .running := by
  cases hs : session.status with
  | created => exact absurd hs hne
  | running => rfl
  | completed => exact absurd hs ha.1
  | cancelled => exact absurd hs ha.2

/-- Effects that complete a session only if it was running before them. -/
theorem Effect.status_next {policy : Policy} {base session session' : InterviewSession}
    (hdecides : ∀ stance decision, policy.decides stance decision →
      decision.completesInterview = true → stance.status = base.status ∧ base.status ≠ .created)
    (hb : base.status.Next session.status) (h : Effect policy session session') :
    base.status.Next session'.status := by
  have hsame : session'.status = session.status → base.status.Next session'.status := fun he => he ▸ hb
  cases h with
  | evidence h =>
    obtain ⟨_, _, _, _, rfl, _⟩ := h
    exact hsame rfl
  | started hs =>
    have hopen : session.status = .created ∨ session.status = .running := hs.imp_right And.left
    exact hb.started hopen
  | completed ha hd hc =>
    obtain ⟨hstatus, hne⟩ := hdecides _ _ hd hc
    have hsame : session.status = base.status := hstatus
    rw [← hsame] at hne ⊢
    rw [running_of_active ha hne]
    exact .complete
  | cancelled ha =>
    refine .cancel fun hc => ha.1 ?_
    rw [hc] at hb
    exact hb.of_completed
  | _ => exact hsame rfl

/-- The condition on the calls of a run: `answer` starts a fresh session first, and a tool
submitted to a fresh session does not complete it. -/
def RunsFirst (call : Call) (operation : Operation) (session : InterviewSession) : Prop :=
  operation.ready session ∧
    match operation with
    | .submitTool toolId request => session.status = .created →
        ∀ job decision, call.job = some job → ToolDecision call session job toolId request decision →
          decision.completesInterview = false
    | _ => True

theorem RunsFirst.decides {call : Call} {job : JobSpec} {operation : Operation}
    {session : InterviewSession} (h : RunsFirst call operation session) (hj : call.job = some job)
    (stance : Stance) (decision : AgentDecision)
    (hd : (operation.policy call job session).decides stance decision)
    (hc : decision.completesInterview = true) : stance.status = session.status ∧ session.status ≠ .created := by
  obtain ⟨rfl, htakes⟩ := hd
  refine ⟨rfl, ?_⟩
  cases operation with
  | answer => exact h.1
  | submitTool toolId request =>
    intro hcreated
    have hno := h.2 hcreated job decision hj htakes
    rw [hc] at hno
    cases hno
  | _ => exact absurd htakes id

theorem Effects.status_next {policy : Policy} {session session' : InterviewSession}
    (hdecides : ∀ stance decision, policy.decides stance decision →
      decision.completesInterview = true →
        stance.status = session.status ∧ session.status ≠ .created)
    (h : Effects policy session session') : session.status.Next session'.status :=
  h.invariant (P := fun mid => session.status.Next mid.status)
    (fun hb he => he.status_next hdecides hb) (.stay _)

theorem StartedFirst.effect {policy : Policy} {session session' : InterviewSession}
    (hdecides : ∀ stance decision, policy.decides stance decision →
      decision.completesInterview = true → stance.status ≠ .created)
    (h : StartedFirst session) (he : Effect policy session session') : StartedFirst session' := by
  cases he with
  | evidence he =>
    obtain ⟨_, _, _, entries, rfl, hg, _⟩ := he
    exact h.log hg.types rfl
  | covered => exact h.log (List.append_nil _).symm rfl
  | followups => exact h.log (List.append_nil _).symm rfl
  | asked _ _ _ _ hg => exact h.log hg.types rfl
  | opened _ _ _ _ hg => exact h.log hg.types rfl
  | answered _ _ _ _ _ hg => exact h.log hg.types rfl
  | worked _ _ _ _ _ _ _ _ _ hg => exact h.log hg.types rfl
  | controlled _ _ hg => exact h.log hg.types rfl
  | replied _ _ _ _ _ hg => exact h.log hg.types rfl
  | @corrected index turn text metadata revision entry events _ _ _ _ _ hl =>
    have htypes : (events.map InterviewEvent.entry).map LogEntry.type =
        session.eventTypes ++ [entry.type] := by
      rw [hl, List.map_append, List.map_singleton]
      exact congrArg (· ++ [entry.type]) (writeMetadata_types session index text metadata)
    exact h.log htypes rfl
  | appealed _ _ hg => exact h.log hg.types rfl
  | reviewed _ _ hg => exact h.log hg.types rfl
  | cancelled => exact startedFirst_of_status nofun nofun
  | @started decision turn first second events _ _ _ hf _ hg =>
    refine ⟨fun _ => ?_, nofun⟩
    change EventType.interviewStarted ∈ (events.map InterviewEvent.entry).map LogEntry.type
    rw [hg.types]
    simp [hf]
  | @completed decision entry events ha hd hc at_ he hg =>
    refine ⟨nofun, fun _ => ⟨session.eventTypes, [], ?_, ?_⟩⟩
    · change (events.map InterviewEvent.entry).map LogEntry.type = _
      rw [hg.types, List.map_singleton, he]
      rfl
    · exact h.running (running_of_active ha (hdecides _ _ hd hc))

theorem History.startedFirst {backend : Backend} {versions : List InterviewSession}
    (h : History backend RunsFirst versions) : ∀ session ∈ versions, StartedFirst session := by
  refine h.invariant (fun session hf => ?_) (fun session hs => ?_) ?_
  · exact startedFirst_of_status (by simp [hf.status]) (by simp [hf.status])
  · cases backend with
    | memory => exact ⟨hs.running, hs.completed⟩
    | json => exact ⟨hs.running, hs.completed⟩
  · intro call job operation session session' hj ha hs heffects
    refine heffects.invariant (fun h he => h.effect (fun stance decision hd hc => ?_) he) hs
    obtain ⟨hstatus, hne⟩ := ha.decides hj stance decision hd hc
    rw [hstatus]
    exact hne

theorem History.inOrder {backend : Backend} {versions : List InterviewSession}
    (h : History backend RunsFirst versions) : InOrder (versions.map InterviewSession.status) := by
  induction h with
  | @created _ _ _ session h =>
    have hfresh := (createSession_meets _ _ _).of_ok h
    have hs : (backend.stored session).status = .created := by
      cases backend with
      | memory => exact hfresh.status
      | json => exact hfresh.status
    rw [List.map_singleton, hs]
    exact .created 0
  | @committed call operation session session' past _ ha hm ih =>
    obtain ⟨job, hj, heffects⟩ := mutate_ok hm
    have hnext := heffects.status_next fun stance decision hd hc => ha.decides hj stance decision hd hc
    have hs : (backend.stored session').status = session'.status := by
      cases backend with
      | memory => rfl
      | json => rfl
    rw [List.map_cons, hs]
    exact ih.step hnext

/-- What a session that became COMPLETED has behind it; `versions` are its versions, latest
first. -/
structure CompletedAfterRunning (versions : List InterviewSession) : Prop where
  started : ∀ session ∈ versions, session.status = .completed →
    session.eventTypes.count .interviewStarted = 1 ∧ ∃ before after,
      session.eventTypes = before ++ .sessionCompleted :: after ∧ .interviewStarted ∈ before
  inOrder : ∀ session past, versions = session :: past → session.status = .completed →
    ∃ created running completed, 0 < created ∧ 0 < running ∧ 0 < completed ∧
      versions.map InterviewSession.status =
        List.replicate completed .completed ++
          (List.replicate running .running ++ List.replicate created .created)

/-- Runs that meet the condition complete a session only after it ran. -/
theorem completed_after_running {backend : Backend} {versions : List InterviewSession}
    (h : History backend RunsFirst versions) : CompletedAfterRunning versions := by
  refine ⟨fun session hs hc => ?_, ?_⟩
  · obtain ⟨before, after, he, hm⟩ := (h.startedFirst session hs).completed hc
    refine ⟨?_, before, after, he, hm⟩
    have hmost := (h.lifecycle session hs).started
    have hleast : 0 < session.eventTypes.count .interviewStarted :=
      List.count_pos_iff.mpr (by rw [he]; exact List.mem_append_left _ hm)
    omega
  · rintro session past rfl hc
    have horder := h.inOrder
    rw [List.map_cons, hc] at horder ⊢
    generalize hs : SessionStatus.completed :: past.map InterviewSession.status = statuses at horder ⊢
    cases horder with
    | created a => cases hs
    | running a b => cases hs
    | completed a b c => exact ⟨a + 1, b + 1, c + 1, by omega, by omega, by omega, rfl⟩
    | cancelled => cases hs

end

section Runs

attribute [local instance] checksumDigest

def finishedCalls : List (Call × Operation) := [
  (plainCall askDecision, .start),
  (plainCall closeDecision, .answer "I built a queue." [])]

theorem completed_after_running_finished :
    ∃ versions, jobRun plainJob .memory finishedCalls = some versions ∧
      versions.map InterviewSession.status = [.completed, .running, .created] ∧
      CompletedAfterRunning versions := by
  have hrun : (jobRun plainJob .memory finishedCalls).any (fun versions =>
      versions.map InterviewSession.status = [.completed, .running, .created]) = true := by
    decide +kernel
  obtain ⟨versions, hv, hcheck⟩ := (Option.any_eq_true _ _).mp hrun
  have hhistory := jobRun_history (fun _ operation => operation = .start ∨
    operation = .answer "I built a queue." []) hv (by simp [finishedCalls])
  refine ⟨versions, hv, of_decide_eq_true hcheck, completed_after_running (hhistory.mono ?_)⟩
  rintro call operation session ⟨hready, rfl | rfl⟩
  · exact ⟨hready, trivial⟩
  · exact ⟨hready, trivial⟩

/-- A tool is opened on a fresh session and submitted, and the brain is satisfied. -/
theorem completes_without_start :
    ¬∀ versions, History .memory (Admits fun _ _ => True) versions →
      CompletedAfterRunning versions := by
  intro hclaim
  have hrun : (jobRun plainJob .memory [
      (plainCall askDecision, .openTool plainTool),
      (plainCall closeDecision, .submitTool "artifact" {})]).any (fun versions =>
        versions.head?.any fun session => session.status = .completed &&
          session.eventTypes.count .interviewStarted = 0) = true := by
    decide +kernel
  obtain ⟨session, past, hhistory, hcheck⟩ := jobRun_last (fun _ _ => True) (fun _ _ => trivial) hrun
  simp only [Bool.and_eq_true, decide_eq_true_eq] at hcheck
  obtain ⟨hcompleted, hnone⟩ := hcheck
  obtain ⟨hone, _⟩ := (hclaim _ hhistory).started session List.mem_cons_self hcompleted
  omega

end Runs

end NoraInterviewer
