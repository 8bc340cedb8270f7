import NoraInterviewer.AbortedRuns
import NoraInterviewer.Lifecycle

namespace NoraInterviewer

open ExceptRules OptimisticRuns

def Raises (result : Except PyError Unit) : Prop := ∃ e, result = .error e

section

variable [CanonicalDigest]

/-- The operation is an answer, and `started` is what its `start` makes of the CREATED session. -/
def Operation.StartsFirst (startCall : Call) (operation : Operation)
    (base started : InterviewSession) : Prop :=
  (∃ text turnMetadata, operation = .answer text turnMetadata) ∧ base.status = .created ∧
    mutate startCall .start base = .ok (some started)

/-- `start` leaves a session alone once its status is not CREATED. -/
theorem created_of_start {call : Call} {session started : InterviewSession}
    (hlife : Lifecycle session) (h : mutate call .start session = .ok (some started)) :
    session.status = .created := by
  unfold mutate at h
  split at h
  next => cases h
  next job _ =>
    have hkept : ∀ step, start call session job = .ok (.keep step) → False := by
      intro step hstart
      unfold perform at h
      rw [hstart] at h
      cases h
    cases hs : session.status with
    | created => rfl
    | running =>
      have hturns := hlife.running hs
      exact (hkept _ (by simp [start, hs, hturns]; rfl)).elim
    | completed => exact (hkept _ (by simp [start, hs]; rfl)).elim
    | cancelled => exact (hkept _ (by simp [start, hs]; rfl)).elim

theorem attempt_fails_first {seen : InterviewSession → Prop}
    {first : InterviewSession → InterviewSession → Prop} (call : Call) (operation : Operation)
    (session : InterviewSession) (last : Option InterviewSession) :
    FailsFirst Raises seen first last (attempt call operation session) := by
  unfold attempt
  split
  next => exact trivial
  next => exact trivial
  next =>
    refine ⟨Or.inl ?_, trivial⟩
    rintro ⟨_, h⟩
    cases h

/-- What `start` puts for an answer is the one put that a failure can come after. -/
theorem start_fails_first {startCall : Call} {operation : Operation} {base : InterviewSession}
    {next : Except PyError Unit → ServiceProg}
    (hanswer : ∃ text turnMetadata, operation = .answer text turnMetadata) (hlife : Lifecycle base)
    (hraised : ∀ e, next (.error e) = .done (.error e))
    (hnext : ∀ (first : InterviewSession → InterviewSession → Prop) last,
      FailsFirst Raises Lifecycle first last (next (.ok ()))) :
    FailsFirst Raises Lifecycle (operation.StartsFirst startCall) (some base)
      ((attempt startCall .start base).bind next) := by
  unfold attempt
  cases hm : mutate startCall .start base with
  | error e =>
    simp only [Prog.bind, hraised]
    exact trivial
  | ok written =>
    cases written with
    | none => exact hnext _ _
    | some started =>
      refine ⟨Or.inr ⟨⟨base, rfl, hanswer, created_of_start hlife hm, hm⟩, hnext _ _⟩, ?_⟩
      simp only [Prog.bind, hraised, Bool.false_eq_true, if_false]
      exact trivial

/-- Only an answer to a CREATED session can fail after a put of its own. -/
theorem program_fails_first (startCall call : Call) (operation : Operation) :
    FailsFirst Raises Lifecycle (operation.StartsFirst startCall) none
      (operation.program startCall call) := by
  intro session _
  cases operation with
  | answer text turnMetadata =>
    simp only
    split
    next =>
      intro base hlife
      refine start_fails_first ⟨text, turnMetadata, rfl⟩ hlife (fun _ => rfl) fun _ _ => ?_
      exact fun _ _ => attempt_fails_first call _ _ _
    next => exact attempt_fails_first call _ _ _
  | _ => exact attempt_fails_first call _ _ _

/-- However the operations interleave, one that raises has stored nothing, unless it is an
answer that had started a CREATED session; then it has stored what `start` made of it. If no
other operation stores anything, that is the difference between the session before and after. -/
theorem raised_stores_nothing {ι : Type} [DecidableEq ι] {backend : Backend}
    {first : InterviewSession} {past : List InterviewSession}
    (h : History backend (fun _ _ _ => True) (first :: past)) (startCall call : ι → Call)
    (operation : ι → Operation) {events : List (Event ι InterviewSession)}
    {final : State ι InterviewSession (Except PyError Unit)}
    (hr : Run backend.versioned
      { cell := first, past, clients := fun i => (operation i).program (startCall i) (call i) }
      events final) {i : ι} {e : PyError} (hraised : final.clients i = .done (.error e)) :
    (ownCommits i events = [] ∨ ∃ base started, (operation i).StartsFirst (startCall i) base started ∧
      ownCommits i events = [(base, backend.stored started)]) ∧
    ((∀ j, j ≠ i → ownCommits j events = []) → final.cell = first ∨
      ∃ started, (operation i).StartsFirst (startCall i) first started ∧
        final.cell = backend.stored started) := by
  have hsound := sound_initial h.chained
    fun i => program_grounded (startCall i) (call i) (operation i)
  have hseen := hr.observed (P := Lifecycle) backend.version_of_transaction
    (fun base value hbase ⟨call, operation, hm⟩ => by
      obtain ⟨job, _, heffects⟩ := mutate_ok hm
      exact (heffects.invariant (fun hs he => hs.effect he) hbase).stored backend)
    hsound (h.lifecycle first List.mem_cons_self)
  have hown := hr.failed backend.version_of_transaction
    (fun base started hfirst => ⟨_, _, hfirst.2.2⟩) hsound
    (program_fails_first (startCall i) (call i) (operation i)) (hseen.2 i) hraised ⟨e, rfl⟩
  refine ⟨hown, fun hothers => ?_⟩
  obtain ⟨hkept, hone⟩ := hr.own_cell hothers
  rcases hown with hnone | ⟨base, started, hfirst, hcommit⟩
  · exact Or.inl (hkept hnone)
  · obtain ⟨hbase, hcell⟩ := hone _ _ hcommit
    rw [hbase] at hfirst
    exact Or.inr ⟨started, hfirst, hcell⟩

end

section Runs

attribute [local instance] checksumDigest

def ServiceProg.raised : ServiceProg → Bool
  | .done (.error _) => true
  | _ => false

theorem ServiceProg.raised_iff {prog : ServiceProg} (h : ServiceProg.raised prog = true) :
    ∃ e, prog = .done (.error e) := by
  unfold ServiceProg.raised at h
  split at h
  next e => exact ⟨e, rfl⟩
  next => cases h

/-- One client starts the session by its answer; the other one cancels it before the answer
is looked at. -/
theorem raised_stores_nothing_race :
    ∃ (first : InterviewSession) (past : List InterviewSession)
      (events : List (Event Bool InterviewSession))
      (final : State Bool InterviewSession (Except PyError Unit)),
      Run Backend.memory.versioned { cell := first, past, clients := raceClient } events final ∧
      final.cell.status = .cancelled ∧ ∃ base started,
        (raceOperation false).StartsFirst (plainCall askDecision) base started ∧
        ownCommits false events = [(base, Backend.memory.stored started)] := by
  have hrun : (plainSchedule .memory [] raceClient
      [false, false, false, true, true, false]).any fun result =>
        result.2.2.cell.status = .cancelled && (ownCommits false result.2.1).length = 1 &&
        ServiceProg.raised (result.2.2.clients false) = true := by
    decide +kernel
  obtain ⟨first, past, events, final, hhistory, hr, hcheck⟩ := plainSchedule_run hrun
  simp only [Bool.and_eq_true, decide_eq_true_eq] at hcheck
  obtain ⟨⟨hcancelled, hone⟩, hraised⟩ := hcheck
  obtain ⟨e, hraised⟩ := ServiceProg.raised_iff hraised
  obtain ⟨hown, _⟩ := raised_stores_nothing (hhistory.mono fun _ _ _ _ => trivial)
    (fun _ => plainCall askDecision) (fun _ => plainCall askDecision) raceOperation hr hraised
  rcases hown with hnone | hfirst
  · rw [hnone] at hone
    cases hone
  · exact ⟨first, past, events, final, hr, hcancelled, hfirst⟩

/-- It asks the first question, and then its provider is gone. -/
def failingBrain : Brain where
  opening session _ := .ok (askDecision, session.coveredCompetencies)
  afterAnswer _ _ := .error (.other "ConnectionError" "provider unreachable")
  afterTool _ _ _ _ _ := .error (.other "ConnectionError" "provider unreachable")

def failingAnswer : ServiceProg :=
  (Operation.answer "I built a queue." []).program (jobCall plainJob failingBrain)
    (jobCall plainJob failingBrain)

/-- The only answer to a CREATED session fails in the brain, and the session is RUNNING. -/
theorem failed_answer_starts_session :
    ∃ (first : InterviewSession) (past : List InterviewSession)
      (events : List (Event Unit InterviewSession))
      (final : State Unit InterviewSession (Except PyError Unit)) (e : PyError),
      History .memory (Admits fun _ _ => True) (first :: past) ∧
      Run Backend.memory.versioned { cell := first, past, clients := fun _ => failingAnswer }
        events final ∧
      final.clients () = .done (.error e) ∧ first.status = .created ∧ first.turns = [] ∧
      final.cell.status = .running ∧ final.cell.turns ≠ [] := by
  have hrun : (plainSchedule .memory [] (fun _ : Unit => failingAnswer) [(), (), (), ()]).any
      fun result => ServiceProg.raised (result.2.2.clients ()) && result.1.status = .created &&
        result.1.turns = [] && result.2.2.cell.status = .running && result.2.2.cell.turns ≠ [] := by
    decide +kernel
  obtain ⟨first, past, events, final, hhistory, hr, hcheck⟩ := plainSchedule_run hrun
  simp only [Bool.and_eq_true, decide_eq_true_eq] at hcheck
  obtain ⟨⟨⟨⟨hraised, hcreated⟩, hempty⟩, hrunning⟩, hturns⟩ := hcheck
  obtain ⟨e, hraised⟩ := ServiceProg.raised_iff hraised
  exact ⟨first, past, events, final, e, hhistory, hr, hraised, hcreated, hempty, hrunning, hturns⟩

end Runs

end NoraInterviewer
