import NoraInterviewer.ArtifactService
import NoraInterviewer.AssignmentRuns

/-! `RetentionManager.run`, over the sessions of a store and the objects of their artifacts. -/

namespace NoraInterviewer

open ObjectRuns

structure RetentionRequest where
  maxAgeDays : Nat := 90
  completedOnly : Bool := true
  dryRun : Bool := true
  candidateRef : Option String := none
  bounds : 1 ≤ maxAgeDays ∧ maxAgeDays ≤ 3650 ∧
    ∀ ref, candidateRef = some ref → 1 ≤ ref.length ∧ ref.length ≤ 512

structure RetentionMatch where
  sessionId : String
  candidateRef : String
  ageBasis : String
  ageTimestamp : DateTime
  deriving DecidableEq

structure RetentionReport where
  cutoff : Int
  dryRun : Bool
  completedOnly : Bool
  scannedSessions : Nat
  matched : List RetentionMatch
  deletedSessionIds : List String
  skippedActiveSessionIds : List String
  deriving DecidableEq

/-- The sessions of the store, the objects of the object store, and what the calls to come do. -/
structure RetentionWorld where
  sessions : List StoredSession
  objects : String → Option (List UInt8)
  fates : List (Fate StoreFailure) := []

structure RetentionManager where
  artifactService : Option ArtifactService
  backend : Backend

/-- `timedelta(days=days)`, in microseconds. -/
def daysOf (days : Nat) : Int := days * 86400000000

def RetentionRequest.cutoff (request : RetentionRequest) (now : DateTime) : Int :=
  (now : Int) - daysOf request.maxAgeDays

def RetentionRequest.passesCandidate (request : RetentionRequest) (session : StoredSession) : Bool :=
  request.candidateRef.isNone || some session.candidateRef = request.candidateRef

def retentionMatch (session : StoredSession) : RetentionMatch where
  sessionId := session.id
  candidateRef := session.candidateRef
  ageBasis := if session.completedAt.isSome then "completed_at" else "created_at"
  ageTimestamp := session.completedAt.getD session.createdAt

def RetentionWorld.find (world : RetentionWorld) (id : String) : Option StoredSession :=
  world.sessions.find? fun session => session.id = id

/-- The record of the session with the id, as it is after a put. -/
def RetentionWorld.replace (world : RetentionWorld) (id : String) (stored : StoredSession) :
    RetentionWorld :=
  { world with sessions := world.sessions.map fun session => if session.id = id then stored else session }

/-- An artifact operation on one session, while nobody else writes. -/
def RetentionWorld.run {α : Type} (backend : Backend) (id : String) (prog : ArtifactProg α)
    (world : RetentionWorld) : Except PyError α × RetentionWorld :=
  match world.find id with
  | none => (.error (.http 404 "Session not found" []), world)
  | some session =>
    let (result, left) := prog.alone backend.sessions .conflict objectNotFound
      { cell := session, objects := world.objects, fates := world.fates }
    (result, { world.replace id left.cell with objects := left.objects, fates := left.fates })

/-- `store.delete_session`. -/
def RetentionWorld.deleteSession (world : RetentionWorld) (id : String) :
    Except PyError Bool × RetentionWorld :=
  let rest := { world with
    sessions := world.sessions.filter fun session => session.id ≠ id
    fates := world.fates.tail }
  match world.fates.headD .works with
  | .works => (.ok (world.find id).isSome, rest)
  | .raises e true => (.error e.raised, rest)
  | .raises e false => (.error e.raised, { world with fates := world.fates.tail })

/-- The three lists of the report, as the loop fills them. -/
structure RetentionLists where
  matched : List RetentionMatch := []
  deleted : List String := []
  skippedActive : List String := []

variable [CanonicalDigest]

namespace RetentionManager

/-- `purge_session`, if there is an artifact service, and `delete_session`. -/
def remove (manager : RetentionManager) (call : ArtifactCall) (id : String) (world : RetentionWorld) :
    Except PyError Bool × RetentionWorld :=
  match manager.artifactService with
  | none => world.deleteSession id
  | some service =>
    match world.run manager.backend id (service.purgeSession call "retention" "session_retention") with
    | (.error e, world) => (.error e, world)
    | (.ok _, world) => world.deleteSession id

/-- The loop over the listed sessions. -/
def scan (manager : RetentionManager) (call : ArtifactCall) (request : RetentionRequest)
    (cutoff : Int) : List StoredSession → RetentionLists → RetentionWorld →
    Except PyError RetentionLists × RetentionWorld
  | [], lists, world => (.ok lists, world)
  | session :: rest, lists, world =>
    if !request.passesCandidate session then scan manager call request cutoff rest lists world
    else if request.completedOnly && session.completedAt.isNone then
      scan manager call request cutoff rest
        { lists with skippedActive := lists.skippedActive ++ [session.id] } world
    else if cutoff < ((retentionMatch session).ageTimestamp : Int) then
      scan manager call request cutoff rest lists world
    else
      let lists := { lists with matched := lists.matched ++ [retentionMatch session] }
      if request.dryRun then scan manager call request cutoff rest lists world
      else
        match manager.remove call session.id world with
        | (.error e, world) => (.error e, world)
        | (.ok removed, world) => scan manager call request cutoff rest
            (if removed then { lists with deleted := lists.deleted ++ [session.id] } else lists) world

/-- `run`: the report, or the exception, and what is left of the two stores. -/
def run (manager : RetentionManager) (call : ArtifactCall) (request : RetentionRequest)
    (now : DateTime) (world : RetentionWorld) : Except PyError RetentionReport × RetentionWorld :=
  let cutoff := request.cutoff now
  let (result, left) := manager.scan call request cutoff world.sessions {} world
  (result.map fun lists => {
    cutoff
    dryRun := request.dryRun
    completedOnly := request.completedOnly
    scannedSessions := world.sessions.length
    matched := lists.matched
    deletedSessionIds := lists.deleted
    skippedActiveSessionIds := lists.skippedActive }, left)

end RetentionManager

end NoraInterviewer
