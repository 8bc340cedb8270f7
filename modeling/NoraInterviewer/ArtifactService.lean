import NoraInterviewer.SessionRecords
import NoraInterviewer.EvidenceBundles
import NoraInterviewer.Audit
import NoraInterviewer.Execution
import NoraInterviewer.ObjectRuns

/-! `ArtifactService`: the artifacts of a session, as programs over the session store and the
object store. -/

namespace NoraInterviewer

open ObjectRuns

/-- What a call to one of the two stores raises. -/
inductive StoreFailure where
  | conflict
  | objectStore (className message : String)
  | other (exception : Raised)
  deriving DecidableEq

/-- `ArtifactNotFoundError`, which the object stores raise for a key that has no object. -/
def objectNotFound : StoreFailure := .objectStore "ArtifactNotFoundError" "Artifact object was not found"

/-- A program over the record of one session and the object store. -/
abbrev ArtifactProg (α : Type) :=
  Prog StoredSession String (List UInt8) StoreFailure (Except PyError α)

/-- The configuration, as the constructor admits it. -/
structure ArtifactService where
  providerId : String
  signingSecret : Option (List UInt8)
  maxArtifactBytes : Nat := 50 * 1024 * 1024
  accessTtlSeconds : Nat := 300
  admitted : 1 ≤ maxArtifactBytes ∧ 30 ≤ accessTtlSeconds ∧ accessTtlSeconds ≤ 3600 ∧
    (providerId ≠ "disabled" → ∃ secret, signingSecret = some secret ∧ 32 ≤ secret.length)

structure ArtifactAccessGrant where
  artifactId : String
  token : String
  expiresAt : DateTime
  deriving DecidableEq

/-- What the interpreter gives one call: `self.now()`, the default of `created_at`, and `uuid4`. -/
structure ArtifactCall extends Ambient where
  serviceNow : DateTime
  createdNow : DateTime
  artifactId : String

def StoreFailure.raised : StoreFailure → PyError
  | .conflict => .raised (.other "StoreConflictError" "stale session")
  | .objectStore className message => .raised (.other className message)
  | .other exception => .raised exception

/-- `except ArtifactStorageError`. -/
def StoreFailure.orStorage (failure : StoreFailure) (detail : String) : PyError :=
  match failure with
  | .objectStore _ _ => .http 503 detail []
  | _ => failure.raised

/-- What `_persist` raises. -/
def StoreFailure.orConflict (failure : StoreFailure) : PyError :=
  match failure with
  | .conflict => .http 409 "Artifact state changed concurrently. Reload and retry." []
  | _ => failure.raised

/-- `_persist`, and what comes after it. -/
def persistArtifacts {α : Type} (session : StoredSession) (next : ArtifactProg α) :
    ArtifactProg α :=
  .put session fun saved =>
    match saved with
    | .error failure => .done (.error failure.orConflict)
    | .ok () => next

/-- `get_session`, and what comes after it. -/
def loadArtifacts {α : Type} (next : StoredSession → ArtifactProg α) : ArtifactProg α :=
  .load fun loaded =>
    match loaded with
    | .error failure => .done (.error failure.raised)
    | .ok session => next session

/-- The artifacts whose `deleted_at` is unset. -/
def StoredSession.live (session : StoredSession) : List ArtifactRecord :=
  session.artifacts.filter fun item => item.deletedAt.isNone

/-- `_artifact`. -/
def findArtifact (session : StoredSession) (artifactId : String) : Except PyError ArtifactRecord :=
  match session.artifacts.find? fun item => item.id = artifactId with
  | none => .error (.http 404 "Artifact not found" [])
  | some artifact => .ok artifact

namespace ArtifactService

def requireEnabled (service : ArtifactService) : Except PyError Unit :=
  if service.providerId = "disabled" then .error (.http 503 "Artifact storage is disabled" [])
  else .ok ()

/-- The checks of `create` before it loads the session: the kind and the media type, stripped. -/
def checkUpload (service : ArtifactService) (data : List UInt8) (kind mediaType : String) :
    Except PyError (String × String) := do
  service.requireEnabled
  let kind := strip kind
  let mediaType := strip mediaType
  if kind = "" ∨ 120 < kind.length then .error (.http 422 "Artifact kind is invalid" [])
  else if mediaType = "" ∨ 200 < mediaType.length then
    .error (.http 422 "Artifact media type is invalid" [])
  else if service.maxArtifactBytes < data.length then
    .error (.http 413 "Artifact exceeds configured size limit" [])
  else .ok (kind, mediaType)

end ArtifactService

/-- `f"{scope}/{session.id}/{artifact_id}"`. -/
def storageKey (session : StoredSession) (artifactId : String) : String :=
  (match session.organizationId with
    | none => "unscoped"
    | some id => if id = "" then "unscoped" else id) ++ "/" ++ session.id ++ "/" ++ artifactId

section

variable [Sha256]

/-- `ArtifactRecord(…)`. -/
def newArtifact (call : ArtifactCall) (session : StoredSession) (data : List UInt8)
    (kind mediaType createdBy : String) : Except PyError ArtifactRecord :=
  if 1024 < (storageKey session call.artifactId).length then
    .error (.raised (.validationError "ArtifactRecord: storage_key: string_too_long"))
  else if createdBy.length < 1 then
    .error (.raised (.validationError "ArtifactRecord: created_by: string_too_short"))
  else if 256 < createdBy.length then
    .error (.raised (.validationError "ArtifactRecord: created_by: string_too_long"))
  else .ok {
    id := call.artifactId
    storageKey := storageKey session call.artifactId
    kind, mediaType
    sizeBytes := data.length
    sha256 := Sha256.hexdigest data
    createdAt := call.createdNow
    createdBy }

end

section

variable [CanonicalDigest]

def logArtifact (call : ArtifactCall) (session : StoredSession) (type : EventType)
    (payload : Dict Json) : Except PyError StoredSession :=
  (appendEvent call.toAmbient session.toInterviewSession type none payload).map fun logged =>
    { session with toInterviewSession := logged }

/-- What is written to the first artifact with the id. -/
def writeArtifact (artifact : ArtifactRecord) : List ArtifactRecord → List ArtifactRecord
  | [] => []
  | item :: rest =>
    if item.id = artifact.id then artifact :: rest else item :: writeArtifact artifact rest

def ArtifactRecord.markDeleted (artifact : ArtifactRecord) (at_ : DateTime) (deletedBy : String)
    (reason : Option String) : ArtifactRecord :=
  { artifact with deletedAt := some at_, deletedBy := some deletedBy, deletionReason := reason }

def logDeleted (call : ArtifactCall) (session : StoredSession) (artifactId deletedBy : String)
    (reason : Option String) : Except PyError StoredSession :=
  logArtifact call session .artifactDeleted [
    ("artifact_id", .str artifactId),
    ("deleted_by", .str deletedBy),
    ("reason", .ofOption reason)]

namespace ArtifactService

section

variable [Sha256]

/-- `list`. -/
def list : ArtifactProg (List ArtifactRecord) := loadArtifacts fun session => .done (.ok session.live)

def create (service : ArtifactService) (call : ArtifactCall) (data : List UInt8)
    (kind mediaType createdBy : String) : ArtifactProg ArtifactRecord :=
  match service.checkUpload data kind mediaType with
  | .error e => .done (.error e)
  | .ok (kind, mediaType) => loadArtifacts fun session =>
    match newArtifact call session data kind mediaType createdBy with
    | .error e => .done (.error e)
    | .ok record => .write record.storageKey data fun written =>
      match written with
      | .error failure => .done (.error (failure.orStorage "Artifact storage write failed"))
      | .ok () =>
        match logArtifact call { session with artifacts := session.artifacts ++ [record] }
            .artifactCreated [
              ("artifact_id", .str record.id),
              ("kind", .str record.kind),
              ("media_type", .str record.mediaType),
              ("size_bytes", .nat record.sizeBytes),
              ("sha256", .str record.sha256),
              ("created_by", .str createdBy)] with
        | .error e => .done (.error e)
        | .ok session => .put session fun saved =>
          match saved with
          | .ok () => .done (.ok record)
          | .error failure => .erase record.storageKey fun erased =>
            -- the bare `raise` of the `finally` raises what the deletion raised, if it did
            match erased with
            | .ok () => .done (.error failure.orConflict)
            | .error other => .done (.error other.raised)

/-- `issue_access`, where `sign` is `_sign`. -/
def issueAccess (service : ArtifactService) (call : ArtifactCall)
    (sign : Dict Json → Except PyError String) (artifactId : String) :
    ArtifactProg ArtifactAccessGrant :=
  match service.requireEnabled with
  | .error e => .done (.error e)
  | .ok () => loadArtifacts fun session =>
    match findArtifact session artifactId with
    | .error e => .done (.error e)
    | .ok artifact =>
      if artifact.deletedAt ≠ none then .done (.error (.http 404 "Artifact not found" []))
      else
        let expiresAt := call.serviceNow + service.accessTtlSeconds * 1000000
        .done ((sign [
          ("v", .nat 1),
          ("session_id", .str session.id),
          ("artifact_id", .str artifact.id),
          ("exp", .nat (expiresAt / 1000000))]).map fun token =>
            { artifactId := artifact.id, token, expiresAt })

/-- `read_token`, once the token is verified (or not). -/
def readToken (service : ArtifactService) (call : ArtifactCall)
    (verified : Except PyError String) : ArtifactProg (ArtifactRecord × List UInt8) :=
  match service.requireEnabled with
  | .error e => .done (.error e)
  | .ok () =>
    match verified with
    | .error e => .done (.error e)
    | .ok artifactId => loadArtifacts fun session =>
      match findArtifact session artifactId with
      | .error e => .done (.error e)
      | .ok artifact =>
        if artifact.deletedAt ≠ none then .done (.error (.http 404 "Artifact not found" []))
        else .fetch artifact.storageKey fun fetched =>
          match fetched with
          | .error failure => .done (.error (failure.orStorage "Artifact storage read failed"))
          | .ok data =>
            if Sha256.hexdigest data ≠ artifact.sha256 then
              .done (.error (.http 500 "Artifact integrity verification failed" []))
            else
              match logArtifact call session .artifactAccessed [
                  ("artifact_id", .str artifact.id),
                  ("access_method", .str "signed_token")] with
              | .error e => .done (.error e)
              | .ok session => persistArtifacts session (.done (.ok (artifact, data)))

end

def delete (service : ArtifactService) (call : ArtifactCall) (artifactId deletedBy : String)
    (reason : Option String) : ArtifactProg ArtifactRecord :=
  match service.requireEnabled with
  | .error e => .done (.error e)
  | .ok () => loadArtifacts fun session =>
    match findArtifact session artifactId with
    | .error e => .done (.error e)
    | .ok artifact =>
      if artifact.deletedAt ≠ none then .done (.ok artifact)
      else .erase artifact.storageKey fun erased =>
        match erased with
        | .error failure => .done (.error (failure.orStorage "Artifact storage deletion failed"))
        | .ok () =>
          let deleted := artifact.markDeleted call.serviceNow deletedBy reason
          match logDeleted call { session with artifacts := writeArtifact deleted session.artifacts }
              artifact.id deletedBy reason with
          | .error e => .done (.error e)
          | .ok session => persistArtifacts session (.done (.ok deleted))

/-- The first loop of `purge_session`. -/
def eraseAll {α : Type} : List ArtifactRecord → ArtifactProg α → ArtifactProg α
  | [], next => next
  | artifact :: rest, next => .erase artifact.storageKey fun erased =>
    match erased with
    | .error failure =>
      .done (.error (failure.orStorage "Artifact storage retention deletion failed"))
    | .ok () => eraseAll rest next

/-- What the second loop of `purge_session` writes to the records. -/
def markAll (call : ArtifactCall) (deletedBy reason : String) (session : StoredSession) :
    StoredSession :=
  { session with artifacts := session.artifacts.map fun item =>
      if item.deletedAt.isNone then item.markDeleted call.serviceNow deletedBy (some reason)
      else item }

/-- The events of the second loop of `purge_session`. -/
def logAllDeleted (call : ArtifactCall) (deletedBy reason : String) :
    List ArtifactRecord → StoredSession → Except PyError StoredSession
  | [], session => .ok session
  | artifact :: rest, session => do
    let session ← logDeleted call session artifact.id deletedBy (some reason)
    logAllDeleted call deletedBy reason rest session

def purgeSession (service : ArtifactService) (call : ArtifactCall) (deletedBy reason : String) :
    ArtifactProg Nat :=
  loadArtifacts fun session =>
    let active := session.live
    if active = [] then .done (.ok 0)
    else match service.requireEnabled with
      | .error e => .done (.error e)
      | .ok () => eraseAll active (
        match logAllDeleted call deletedBy reason active (markAll call deletedBy reason session) with
        | .error e => .done (.error e)
        | .ok session => persistArtifacts session (.done (.ok active.length)))

end ArtifactService

end

def localArtifacts : ArtifactService where
  providerId := "encrypted-local"
  signingSecret := some (List.replicate 32 0)
  admitted := ⟨by decide, by decide, by decide, fun _ => ⟨_, rfl, by decide⟩⟩

def plainArtifactCall : ArtifactCall where
  toAmbient := plainAmbient
  serviceNow := 0
  createdNow := 0
  artifactId := "00000000-0000-4000-8000-000000000001"

end NoraInterviewer
