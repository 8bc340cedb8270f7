import NoraInterviewer.LostUpdates
import NoraInterviewer.Simulation

namespace NoraInterviewer

open Tables SectionedPuts Simulation

/-- The calls of a store. -/
inductive StoreCall where
  | putJob (job : JobSpec)
  | getJob (jobId : String)
  | putRubricDraft (draft : RubricDraft)
  | getRubricDraft (draftId : String)
  | approveRubricDraft (draftId : String) (approvedDraft : RubricDraft) (job : JobSpec)
  | putSession (session : InterviewSession)
  | getSession (sessionId : String)
  | listSessions
  | deleteSession (sessionId : String)

/-- What a call comes to; after `put_session` the version of the writer's copy, too. -/
inductive Reply where
  | done
  | job (found : Option JobSpec)
  | draft (found : Option RubricDraft)
  | session (found : Option InterviewSession)
  | sessions (listed : List InterviewSession)
  | deleted (found : Bool)
  | put (version : Nat) (raised : Option StoreError)
  | raised (error : StoreError)

/-- Why a call fails, whichever way a store puts it. -/
inductive Failure where
  | conflict | notFound | draftExists | alreadyApproved | jobExists
  deriving DecidableEq, Repr

def StoreError.failure : StoreError → Failure
  | newSessionVersion _ | staleSession _ _ _ | sessionCreatedConcurrently _ => .conflict
  | draftExists _ => .draftExists
  | draftNotFound _ => .notFound
  | draftApproved _ | draftApprovedConcurrently _ => .alreadyApproved
  | jobExists _ => .jobExists

/-- A session without the places where it is one object: what JSON keeps of it. -/
abbrev InterviewSession.plain (session : InterviewSession) : InterviewSession :=
  Backend.json.copy session

/-- Replies that a caller cannot tell apart, up to the order of a listing. -/
inductive Reply.Agree : Reply → Reply → Prop where
  | done : Agree .done .done
  | job (found : Option JobSpec) : Agree (.job found) (.job found)
  | draft (found : Option RubricDraft) : Agree (.draft found) (.draft found)
  | session {found found' : Option InterviewSession}
    (h : found.map InterviewSession.plain = found'.map InterviewSession.plain) :
    Agree (.session found) (.session found')
  | sessions {listed listed' : List InterviewSession}
    (h : (listed.map InterviewSession.plain).Perm (listed'.map InterviewSession.plain)) :
    Agree (.sessions listed) (.sessions listed')
  | deleted (found : Bool) : Agree (.deleted found) (.deleted found)
  | put (version : Nat) {raised raised' : Option StoreError}
    (h : raised.map StoreError.failure = raised'.map StoreError.failure) :
    Agree (.put version raised) (.put version raised')
  | raised {error error' : StoreError} (h : error.failure = error'.failure) :
    Agree (.raised error) (.raised error')

/-- A call that returns nothing. -/
def settle {S : Type} (state : S) : Except StoreError S → S × Reply
  | .ok state' => (state', .done)
  | .error e => (state, .raised e)

/-- `put_session` without interruption. -/
def putAlone {S : Type} (put : Put S InterviewSession StoreError) (state : S)
    (session : InterviewSession) : S × Reply :=
  let (state', session', raised) := put.alone state session
  (state', .put session'.version raised)

/-- One call, at a time of the database's clock. -/
abbrev TimedCall := DateTime × StoreCall

def InMemoryStore.step (store : InMemoryStore) : StoreCall → InMemoryStore × Reply
  | .putJob job => (store.putJob job, .done)
  | .getJob jobId => (store, .job (store.getJob jobId))
  | .putRubricDraft draft => settle store (store.putRubricDraft draft)
  | .getRubricDraft draftId => (store, .draft (store.getRubricDraft draftId))
  | .approveRubricDraft draftId approvedDraft job =>
    settle store (store.approveRubricDraft draftId approvedDraft job)
  | .putSession session => putAlone InMemoryStore.put store session
  | .getSession sessionId => (store, .session (store.getSession sessionId))
  | .listSessions => (store, .sessions store.listSessions)
  | .deleteSession sessionId =>
    let (store', found) := store.deleteSession sessionId
    (store', .deleted found)

/-- The two SQL stores differ in what `put_session` runs. -/
def Database.step {codecs : Codecs}
    (put : DateTime → Put (Database codecs) InterviewSession StoreError) (db : Database codecs)
    (now : DateTime) : StoreCall → Database codecs × Reply
  | .putJob job => (db.putJob now job, .done)
  | .getJob jobId => (db, .job (db.getJob jobId))
  | .putRubricDraft draft => settle db (db.putRubricDraft now draft)
  | .getRubricDraft draftId => (db, .draft (db.getRubricDraft draftId))
  | .approveRubricDraft draftId approvedDraft job =>
    settle db (db.approveRubricDraft now draftId approvedDraft job)
  | .putSession session => putAlone (put now) db session
  | .getSession sessionId => (db, .session (db.getSession sessionId))
  | .listSessions => (db, .sessions db.listSessions)
  | .deleteSession sessionId =>
    let (db', found) := db.deleteSession sessionId
    (db', .deleted found)

def memoryMachine : Machine StoreCall Reply where
  State := InMemoryStore
  step := InMemoryStore.step

def sqliteMachine (codecs : Codecs) : Machine TimedCall Reply where
  State := Database codecs
  step db call := db.step SqliteStore.put call.1 call.2

def postgresMachine (codecs : Codecs) : Machine TimedCall Reply where
  State := Database codecs
  step db call := db.step PostgresStore.put call.1 call.2

/-- What a store is for: finite maps by id, the one of the sessions guarded by their version. -/
structure Contents where
  jobs : String → Option JobSpec
  rubricDrafts : String → Option RubricDraft
  sessions : String → Option InterviewSession

/-- A reply of the abstract store; a listing is the whole map. -/
inductive Answer where
  | done
  | job (found : Option JobSpec)
  | draft (found : Option RubricDraft)
  | session (found : Option InterviewSession)
  | listing (sessions : String → Option InterviewSession)
  | deleted (found : Bool)
  | put (version : Nat) (failure : Option Failure)
  | raised (failure : Failure)

namespace Contents

def setJob (contents : Contents) (job : JobSpec) : Contents :=
  { contents with jobs := Function.update contents.jobs job.id (some job) }

def setDraft (contents : Contents) (draftId : String) (draft : RubricDraft) : Contents :=
  { contents with rubricDrafts := Function.update contents.rubricDrafts draftId (some draft) }

def setSession (contents : Contents) (sessionId : String) (session : Option InterviewSession) :
    Contents :=
  { contents with sessions := Function.update contents.sessions sessionId session }

theorem setJob_jobs (contents : Contents) (job : JobSpec) (id : String) :
    (contents.setJob job).jobs id = if id = job.id then some job else contents.jobs id :=
  Function.update_apply _ _ _ _

theorem setDraft_rubricDrafts (contents : Contents) (draftId : String) (draft : RubricDraft)
    (id : String) : (contents.setDraft draftId draft).rubricDrafts id =
      if id = draftId then some draft else contents.rubricDrafts id :=
  Function.update_apply _ _ _ _

theorem setSession_sessions (contents : Contents) (sessionId : String)
    (session : Option InterviewSession) (id : String) :
    (contents.setSession sessionId session).sessions id =
      if id = sessionId then session else contents.sessions id :=
  Function.update_apply _ _ _ _

def putRubricDraft (contents : Contents) (draft : RubricDraft) : Except Failure Contents :=
  if (contents.rubricDrafts draft.id).isSome then .error .draftExists
  else .ok (contents.setDraft draft.id draft)

def approveRubricDraft (contents : Contents) (draftId : String) (approvedDraft : RubricDraft)
    (job : JobSpec) : Except Failure Contents :=
  match contents.rubricDrafts draftId with
  | none => .error .notFound
  | some current =>
    if current.activationStatus ≠ .draftOnly then .error .alreadyApproved
    else if (contents.jobs job.id).isSome then .error .jobExists
    else .ok ((contents.setJob job).setDraft draftId approvedDraft)

/-- A session is put over the version that it is based on, and over none if that is 0. -/
def accepts (contents : Contents) (session : InterviewSession) : Prop :=
  (contents.sessions session.id).elim 0 InterviewSession.version = session.version

instance (contents : Contents) (session : InterviewSession) : Decidable (contents.accepts session) :=
  inferInstanceAs (Decidable (_ = _))

def putSession (contents : Contents) (session : InterviewSession) : Contents × Answer :=
  if contents.accepts session then
    (contents.setSession session.id (some (session.withVersion (session.version + 1)).plain),
      .put (session.version + 1) none)
  else (contents, .put session.version (some .conflict))

def settle (contents : Contents) : Except Failure Contents → Contents × Answer
  | .ok contents' => (contents', .done)
  | .error failure => (contents, .raised failure)

def step (contents : Contents) : StoreCall → Contents × Answer
  | .putJob job => (contents.setJob job, .done)
  | .getJob jobId => (contents, .job (contents.jobs jobId))
  | .putRubricDraft draft => contents.settle (contents.putRubricDraft draft)
  | .getRubricDraft draftId => (contents, .draft (contents.rubricDrafts draftId))
  | .approveRubricDraft draftId approvedDraft job =>
    contents.settle (contents.approveRubricDraft draftId approvedDraft job)
  | .putSession session => contents.putSession session
  | .getSession sessionId => (contents, .session (contents.sessions sessionId))
  | .listSessions => (contents, .listing contents.sessions)
  | .deleteSession sessionId =>
    (contents.setSession sessionId none, .deleted (contents.sessions sessionId).isSome)

end Contents

/-- The abstract store. -/
def contentsMachine : Machine StoreCall Answer where
  State := Contents
  step := Contents.step

/-- A store's reply gives the abstract store's answer. -/
inductive Reply.Gives : Reply → Answer → Prop where
  | done : Gives .done .done
  | job {found found' : Option JobSpec} (h : found = found') : Gives (.job found) (.job found')
  | draft {found found' : Option RubricDraft} (h : found = found') :
    Gives (.draft found) (.draft found')
  | session {found found' : Option InterviewSession} (h : found.map InterviewSession.plain = found') :
    Gives (.session found) (.session found')
  | listing {listed : List InterviewSession} {sessions : String → Option InterviewSession}
    (hnodup : (listed.map InterviewSession.plain).Nodup)
    (hm : ∀ session, session ∈ listed.map InterviewSession.plain ↔ ∃ id, sessions id = some session) :
    Gives (.sessions listed) (.listing sessions)
  | deleted {found found' : Bool} (h : found = found') : Gives (.deleted found) (.deleted found')
  | put (version : Nat) {raised : Option StoreError} {failure : Option Failure}
    (h : raised.map StoreError.failure = failure) : Gives (.put version raised) (.put version failure)
  | raised {error : StoreError} {failure : Failure} (h : error.failure = failure) :
    Gives (.raised error) (.raised failure)

theorem Reply.Gives.agree {reply reply' : Reply} {answer : Answer} (h : reply.Gives answer)
    (h' : reply'.Gives answer) : reply.Agree reply' := by
  cases h with
  | done => cases h' with | done => exact .done
  | job h => cases h' with | job h' => exact h'.symm ▸ h ▸ .job _
  | draft h => cases h' with | draft h' => exact h'.symm ▸ h ▸ .draft _
  | session h => cases h' with | session h' => exact .session (h.trans h'.symm)
  | listing hnodup hm =>
    cases h' with
    | listing hnodup' hm' =>
      refine .sessions ((List.perm_ext_iff_of_nodup hnodup hnodup').mpr fun session => ?_)
      rw [hm, hm']
  | deleted h => cases h' with | deleted h' => exact h'.symm ▸ h ▸ .deleted _
  | put version h => cases h' with | put _ h' => exact .put _ (h.trans h'.symm)
  | raised h => cases h' with | raised h' => exact .raised (h.trans h'.symm)

end NoraInterviewer
