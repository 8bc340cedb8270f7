import NoraInterviewer.History
import NoraInterviewer.Tables
import NoraInterviewer.SectionedPuts

namespace NoraInterviewer

open Tables SectionedPuts

inductive ActivationStatus where
  | draftOnly | approved
  deriving DecidableEq, Repr

structure RubricDraftCompetency where
  id : String
  description : String
  weight : ℚ := 1
  anchorQuestion : String
  rationale : String
  observableEvidence : List String

/-- A rubric draft; the last three fields are `validate_draft` and the field bounds. -/
structure RubricDraft where
  id : String
  organizationId : Option String := none
  createdAt : DateTime
  title : String
  jobDescription : String
  locale : String
  competencies : List RubricDraftCompetency
  maxQuestions : Nat
  anchorRatio : ℚ
  drafterId : String
  warnings : List String := []
  activationStatus : ActivationStatus := .draftOnly
  approvedJobId : Option String := none
  approvedBy : Option String := none
  approvedAt : Option DateTime := none
  ranges : 3 ≤ competencies.length ∧ competencies.length ≤ 12 ∧ 3 ≤ maxQuestions ∧
    maxQuestions ≤ 30 ∧ 1 / 5 ≤ anchorRatio ∧ anchorRatio ≤ 4 / 5
  competency_ids_nodup : (competencies.map RubricDraftCompetency.id).Nodup
  approval : if activationStatus = .draftOnly
    then approvedJobId = none ∧ approvedBy = none ∧ approvedAt = none
    else approvedJobId.isSome ∧ approvedBy.isSome ∧ approvedAt.isSome

/-- A draft as it is put: nobody has approved it. -/
theorem unapproved_draft : if ActivationStatus.draftOnly = .draftOnly
    then (none : Option String) = none ∧ (none : Option String) = none ∧ (none : Option DateTime) = none
    else (none : Option String).isSome ∧ (none : Option String).isSome ∧
      (none : Option DateTime).isSome := by
  decide

/-- What the stores raise: `KeyError` for a draft that is not there, `StoreConflictError` for
everything else. -/
inductive StoreError where
  | newSessionVersion (id : String)
  | staleSession (id : String) (current : Option Nat) (got : Nat)
  | sessionCreatedConcurrently (id : String)
  | draftExists (id : String)
  | draftNotFound (id : String)
  | draftApproved (id : String)
  | draftApprovedConcurrently (id : String)
  | jobExists (id : String)
  deriving DecidableEq

def StoreError.className : StoreError → String
  | draftNotFound _ => "KeyError"
  | _ => "StoreConflictError"

def StoreError.message : StoreError → String
  | newSessionVersion id => "new session " ++ id ++ " must start at version 0"
  | staleSession id current got => "stale session " ++ id ++ ": expected version " ++
      current.elim "None" toString ++ ", got " ++ toString got
  | sessionCreatedConcurrently id => "session " ++ id ++ " was created concurrently"
  | draftExists id => "rubric draft " ++ id ++ " already exists"
  | draftNotFound id => "rubric draft " ++ id ++ " not found"
  | draftApproved id => "rubric draft " ++ id ++ " is already approved"
  | draftApprovedConcurrently id => "rubric draft " ++ id ++ " was approved concurrently"
  | jobExists id => "job " ++ id ++ " already exists"

/-- `session.version = version`. -/
def InterviewSession.withVersion (session : InterviewSession) (version : Nat) : InterviewSession :=
  { session with version }

/-- `InMemoryStore`; what it holds and hands out are deep copies. -/
structure InMemoryStore where
  jobs : Dict JobSpec := []
  rubricDrafts : Dict RubricDraft := []
  sessions : Dict InterviewSession := []

namespace InMemoryStore

def putJob (store : InMemoryStore) (job : JobSpec) : InMemoryStore :=
  { store with jobs := Dict.set job.id job store.jobs }

def getJob (store : InMemoryStore) (jobId : String) : Option JobSpec := store.jobs.lookup jobId

def putRubricDraft (store : InMemoryStore) (draft : RubricDraft) : Except StoreError InMemoryStore :=
  if (store.rubricDrafts.lookup draft.id).isSome then .error (.draftExists draft.id)
  else .ok { store with rubricDrafts := Dict.set draft.id draft store.rubricDrafts }

def getRubricDraft (store : InMemoryStore) (draftId : String) : Option RubricDraft :=
  store.rubricDrafts.lookup draftId

def approveRubricDraft (store : InMemoryStore) (draftId : String) (approvedDraft : RubricDraft)
    (job : JobSpec) : Except StoreError InMemoryStore :=
  match store.rubricDrafts.lookup draftId with
  | none => .error (.draftNotFound draftId)
  | some current =>
    if current.activationStatus ≠ .draftOnly then .error (.draftApproved draftId)
    else if (store.jobs.lookup job.id).isSome then .error (.jobExists job.id)
    else .ok { store with
      jobs := Dict.set job.id job store.jobs
      rubricDrafts := Dict.set draftId approvedDraft store.rubricDrafts }

/-- The section of `put_session` under the lock: the store and the writer's copy after it. -/
def putSession (store : InMemoryStore) (session : InterviewSession) :
    Except StoreError (InMemoryStore × InterviewSession) :=
  let expected := session.version
  match store.sessions.lookup session.id with
  | none =>
    if expected ≠ 0 then .error (.newSessionVersion session.id)
    else .ok (
      { store with sessions := Dict.set session.id (session.withVersion 1) store.sessions },
      session.withVersion 1)
  | some existing =>
    if existing.version ≠ expected then
      .error (.staleSession session.id (some existing.version) expected)
    else .ok (
      { store with
        sessions := Dict.set session.id (session.withVersion (expected + 1)) store.sessions },
      session.withVersion (expected + 1))

def getSession (store : InMemoryStore) (sessionId : String) : Option InterviewSession :=
  store.sessions.lookup sessionId

def listSessions (store : InMemoryStore) : List InterviewSession := store.sessions.map Prod.snd

/-- `self.sessions.pop(session_id, None) is not None`. -/
def deleteSession (store : InMemoryStore) (sessionId : String) : InMemoryStore × Bool :=
  ({ store with sessions := store.sessions.filter fun entry => entry.1 ≠ sessionId },
    (store.sessions.lookup sessionId).isSome)

/-- `put_session`: nothing happens but under the lock. -/
def put : Put InMemoryStore InterviewSession StoreError :=
  .store putSession fun _ => .returns

end InMemoryStore

/-- The JSON of a model and back, which keeps `kept` of it. -/
structure Codec (α : Type) (kept : α → α) where
  Payload : Type
  dump : α → Payload
  parse : Payload → α
  parse_dump : ∀ value, parse (dump value) = kept value

/-- `model_dump_json` and `model_validate_json` of the three models. -/
structure Codecs where
  job : Codec JobSpec id
  draft : Codec RubricDraft id
  session : Codec InterviewSession Backend.json.copy

structure JobRow (Payload : Type) where
  id : String
  payload : Payload
  updatedAt : DateTime

structure DraftRow (Payload : Type) where
  id : String
  approvedJobId : Option String
  payload : Payload
  updatedAt : DateTime

structure SessionRow (Payload : Type) where
  id : String
  jobId : String
  candidateRef : String
  version : Nat
  payload : Payload
  updatedAt : DateTime

/-- The tables of `SqliteStore`, and with the prefix `nora_` those of `PostgresStore`. -/
structure Database (codecs : Codecs) where
  jobs : Table String (JobRow codecs.job.Payload) JobRow.id := .empty
  rubricDrafts : Table String (DraftRow codecs.draft.Payload) DraftRow.id := .empty
  sessions : Table String (SessionRow codecs.session.Payload) SessionRow.id := .empty

/-- `ORDER BY updated_at ASC, id ASC`. -/
def SessionRow.before {Payload : Type} (row other : SessionRow Payload) : Bool :=
  row.updatedAt < other.updatedAt || row.updatedAt = other.updatedAt && row.id ≤ other.id

variable {codecs : Codecs}

namespace Database

variable (now : DateTime) (db : Database codecs)

/-- The statement of `put_job` is the same in both stores, and so are those of the other
functions up to `deleteSession`. -/
def putJob (job : JobSpec) : Database codecs :=
  { db with
    jobs := db.jobs.upsert ⟨job.id, codecs.job.dump job, now⟩
      (fun row => { row with payload := codecs.job.dump job, updatedAt := now }) fun _ => rfl }

def getJob (jobId : String) : Option JobSpec :=
  (db.jobs.select jobId).map fun row => codecs.job.parse row.payload

def putRubricDraft (draft : RubricDraft) : Except StoreError (Database codecs) :=
  match db.rubricDrafts.insert ⟨draft.id, none, codecs.draft.dump draft, now⟩ with
  | none => .error (.draftExists draft.id)
  | some rubricDrafts => .ok { db with rubricDrafts }

def getRubricDraft (draftId : String) : Option RubricDraft :=
  (db.rubricDrafts.select draftId).map fun row => codecs.draft.parse row.payload

/-- One transaction: an exception rolls it back. -/
def approveRubricDraft (draftId : String) (approvedDraft : RubricDraft) (job : JobSpec) :
    Except StoreError (Database codecs) :=
  match db.rubricDrafts.select draftId with
  | none => .error (.draftNotFound draftId)
  | some row =>
    if row.approvedJobId ≠ none then .error (.draftApproved draftId)
    else
      match db.jobs.insert ⟨job.id, codecs.job.dump job, now⟩ with
      | none => .error (.jobExists job.id)
      | some jobs =>
        let pending := fun row : DraftRow codecs.draft.Payload => decide (row.approvedJobId = none)
        if db.rubricDrafts.count draftId pending ≠ 1 then .error (.draftApprovedConcurrently draftId)
        else .ok { db with
          jobs
          rubricDrafts := db.rubricDrafts.update draftId pending
            (fun row => { row with
              approvedJobId := some job.id
              payload := codecs.draft.dump approvedDraft
              updatedAt := now }) fun _ => rfl }

def getSession (sessionId : String) : Option InterviewSession :=
  (db.sessions.select sessionId).map fun row => codecs.session.parse row.payload

def listSessions : List InterviewSession :=
  (db.sessions.rows.mergeSort SessionRow.before).map fun row => codecs.session.parse row.payload

def deleteSession (sessionId : String) : Database codecs × Bool :=
  ({ db with sessions := db.sessions.delete sessionId },
    db.sessions.count sessionId (fun _ => true) > 0)

/-- The row that `put_session` writes; the version of its payload is the next one already. -/
def nextRow (session : InterviewSession) : SessionRow codecs.session.Payload where
  id := session.id
  jobId := session.jobId
  candidateRef := session.candidateRef
  version := session.version + 1
  payload := codecs.session.dump (session.withVersion (session.version + 1))
  updatedAt := now

/-- `UPDATE … WHERE id = ? AND version = ?`; `none` if it touches no row. -/
def updateSession (row : SessionRow codecs.session.Payload) (expectedVersion : Nat) :
    Option (Database codecs) :=
  let current := fun old : SessionRow codecs.session.Payload => decide (old.version = expectedVersion)
  if db.sessions.count row.id current ≠ 1 then none
  else some { db with
    sessions := db.sessions.update row.id current (fun old => { row with id := old.id }) fun _ => rfl }

end Database

namespace SqliteStore

/-- `_put_session_sync`: one transaction on what `put_session` computed before it. -/
def putSessionSync (db : Database codecs) (row : SessionRow codecs.session.Payload)
    (expectedVersion : Nat) : Except StoreError (Database codecs) :=
  match db.sessions.select row.id with
  | none =>
    if expectedVersion ≠ 0 then .error (.newSessionVersion row.id)
    else
      match db.sessions.insert row with
      | none => .error (.sessionCreatedConcurrently row.id)
      | some sessions => .ok { db with sessions }
  | some existing =>
    match db.updateSession row expectedVersion with
    | none => .error (.staleSession row.id (some existing.version) expectedVersion)
    | some db => .ok db

/-- `put_session`: the snapshot, the transaction in a thread, and the writer's new version. -/
def put (now : DateTime) : Put (Database codecs) InterviewSession StoreError :=
  .quiet id fun session =>
    let expectedVersion := session.version
    let row := Database.nextRow now session
    .store (fun db session => (putSessionSync db row expectedVersion).map (·, session)) fun _ =>
      .quiet (fun session => session.withVersion (expectedVersion + 1)) fun _ => .returns

end SqliteStore

namespace PostgresStore

/-- The transaction of `put_session`: an insert of a new session, or a conditional update. -/
def putSessionTransaction (db : Database codecs) (row : SessionRow codecs.session.Payload)
    (expectedVersion : Nat) : Except StoreError (Database codecs) :=
  if expectedVersion = 0 then
    match db.sessions.insert row with
    | none => .error (.sessionCreatedConcurrently row.id)
    | some sessions => .ok { db with sessions }
  else
    match db.updateSession row expectedVersion with
    | none =>
      .error (.staleSession row.id ((db.sessions.select row.id).map SessionRow.version) expectedVersion)
    | some db => .ok db

/-- `put_session`: the pool is opened before the snapshot, and a connection is awaited after it. -/
def put (now : DateTime) : Put (Database codecs) InterviewSession StoreError :=
  .quiet id fun _ => .quiet id fun session =>
    let expectedVersion := session.version
    let row := Database.nextRow now session
    .store (fun db session => (putSessionTransaction db row expectedVersion).map (·, session)) fun _ =>
      .quiet (fun session => session.withVersion (expectedVersion + 1)) fun _ => .returns

end PostgresStore

end NoraInterviewer
