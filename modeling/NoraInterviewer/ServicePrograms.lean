import NoraInterviewer.Execution

namespace NoraInterviewer

open ExceptRules OptimisticRuns

/-- The versions that a backend keeps of one session. -/
def Backend.versioned (backend : Backend) : Versioned InterviewSession where
  version := InterviewSession.version
  stored := backend.stored
  version_stored _ := rfl

/-- What `_persist_session` raises for a `StoreConflictError`. -/
def changedConcurrently : PyError := .http 409
  "Interview state changed concurrently. Reload the session and retry the operation." []

/-- One client of the store: what a service call does between and after its store accesses. -/
abbrev ServiceProg := Prog InterviewSession (Except PyError Unit)

variable [CanonicalDigest]

/-- The operation on the session it loaded, up to `_persist_session`. -/
def attempt (call : Call) (operation : Operation) (session : InterviewSession) : ServiceProg :=
  match mutate call operation session with
  | .error e => .done (.error e)
  | .ok none => .done (.ok ())
  | .ok (some session') => .put session' fun committed =>
    .done (if committed then .ok () else .error changedConcurrently)

/-- An operation as a client of the store. `answer` on a CREATED session runs the whole of
`start` first, as a call of its own, and loads the session again. -/
def Operation.program (startCall call : Call) (operation : Operation) : ServiceProg :=
  .load fun session =>
    match operation with
    | .answer text turnMetadata =>
      if session.status = .created then
        (Prog.load (attempt startCall .start)).bind fun started =>
          match started with
          | .error e => .done (.error e)
          | .ok () => .load (attempt call (.answer text turnMetadata))
      else attempt call operation session
    | _ => attempt call operation session

/-- What a commit of the service does to the version it replaces. -/
def Transaction (session session' : InterviewSession) : Prop :=
  ∃ call operation, mutate call operation session = .ok (some session')

theorem Transaction.identity {session session' : InterviewSession}
    (h : Transaction session session') : SameIdentity session session' := by
  obtain ⟨call, operation, hm⟩ := h
  obtain ⟨job, _, heffects⟩ := mutate_ok hm
  exact heffects.identity

def Conflicted (result : Except PyError Unit) : Prop := result = .error changedConcurrently

theorem attempt_grounded (call : Call) (operation : Operation) (session : InterviewSession) :
    Grounded Transaction Conflicted (some session) (attempt call operation session) := by
  unfold attempt
  split
  next => exact trivial
  next => exact trivial
  next session' hm => exact ⟨⟨call, operation, hm⟩, trivial, _, rfl, rfl⟩

theorem program_grounded (startCall call : Call) (operation : Operation) :
    Grounded Transaction Conflicted none (operation.program startCall call) := by
  intro session
  cases operation with
  | answer text turnMetadata =>
    simp only
    split
    next =>
      refine Grounded.bind (Grounded.load (attempt_grounded startCall .start) _)
        (fun last result => ?_) ?_
      · cases result with
        | error e => exact .done last _
        | ok => exact .load (attempt_grounded call _) last
      · rintro _ rfl
        exact ⟨_, rfl, rfl⟩
    next => exact attempt_grounded call _ session
  | _ => exact attempt_grounded call _ session

/-- Where the clients of a plain run start, what they do when they take their steps in the given
order, and where that ends. -/
def plainSchedule {ι : Type} [DecidableEq ι] (backend : Backend) (calls : List (Call × Operation))
    (clients : ι → ServiceProg) (order : List ι) :
    Option (InterviewSession × List (Event ι InterviewSession) ×
      State ι InterviewSession (Except PyError Unit)) :=
  match jobRun plainJob backend calls with
  | some (first :: past) =>
    (State.schedule backend.versioned [] { cell := first, past, clients } order).map (first, ·)
  | _ => none

theorem plainSchedule_run {ι : Type} [DecidableEq ι] {backend : Backend}
    {calls : List (Call × Operation)} {clients : ι → ServiceProg} {order : List ι}
    {check : InterviewSession × List (Event ι InterviewSession) ×
      State ι InterviewSession (Except PyError Unit) → Bool}
    (h : (plainSchedule backend calls clients order).any check = true) :
    ∃ first past events final, History backend (Admits fun _ _ => True) (first :: past) ∧
      Run backend.versioned { cell := first, past, clients } events final ∧
      check (first, events, final) = true := by
  obtain ⟨result, hs, hcheck⟩ := (Option.any_eq_true _ _).mp h
  unfold plainSchedule at hs
  split at hs
  next first past hv =>
    obtain ⟨⟨events, final⟩, hrun, rfl⟩ := Option.map_eq_some_iff.mp hs
    exact ⟨first, past, events, final, jobRun_history _ hv fun _ _ => trivial,
      Run.nil.schedule hrun, hcheck⟩
  next => cases hs

end NoraInterviewer
