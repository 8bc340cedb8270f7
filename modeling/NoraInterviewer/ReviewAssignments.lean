import NoraInterviewer.ReviewQueues
import NoraInterviewer.Audit
import NoraInterviewer.GuardedRuns

/-! The review assignments of `ReviewService`, as clients of the store. -/

namespace NoraInterviewer

open OptimisticRuns

/-- What the interpreter gives one request: the clock reading of the timestamp it writes, and a
`uuid4` that no assignment at hand has. -/
structure ReviewCall extends Ambient where
  jobFound : Bool := true
  timestamp : DateTime
  mint : List String → String
  mint_fresh : ∀ ids, mint ids ∉ ids

structure ReviewAssignmentCreateRequest where
  reviewerId : String
  note : Option String := none
  reviewerId_length : 1 ≤ reviewerId.length ∧ reviewerId.length ≤ 256
  note_length : ∀ text, note = some text → text.length ≤ 5000

structure ReviewAssignmentActionRequest where
  note : Option String := none
  note_length : ∀ text, note = some text → text.length ≤ 5000

/-- What `_persist` raises for a `StoreConflictError`. -/
def reviewChangedConcurrently : PyError :=
  .http 409 "Review state changed concurrently. Reload and retry the operation." []

/-- `ReviewAssignment(…)`; the request has validated the reviewer and the note. -/
def newAssignment (call : ReviewCall) (request : ReviewAssignmentCreateRequest) (assignedBy : String)
    (session : StoredSession) : Except PyError ReviewAssignment :=
  if assignedBy.length < 1 then
    .error (.raised (.validationError "ReviewAssignment: assigned_by: string_too_short"))
  else if 256 < assignedBy.length then
    .error (.raised (.validationError "ReviewAssignment: assigned_by: string_too_long"))
  else .ok {
    id := call.mint (session.reviewAssignments.map ReviewAssignment.id)
    reviewerId := request.reviewerId
    assignedBy
    createdAt := call.timestamp
    assignmentNote := request.note }

/-- `_assignment`. -/
def findAssignment (session : StoredSession) (assignmentId : String) :
    Except PyError ReviewAssignment :=
  match session.reviewAssignments.find? fun item => item.id = assignmentId with
  | none => .error (.http 404 "Review assignment not found" [])
  | some assignment => .ok assignment

/-- What is written to the object that `_assignment` found. -/
def writeAssignment (assignment : ReviewAssignment) : List ReviewAssignment → List ReviewAssignment
  | [] => []
  | item :: rest =>
    if item.id = assignment.id then assignment :: rest else item :: writeAssignment assignment rest

def StoredSession.write (session : StoredSession) (assignment : ReviewAssignment) : StoredSession :=
  { session with reviewAssignments := writeAssignment assignment session.reviewAssignments }

variable [CanonicalDigest]

def logReview (call : ReviewCall) (session : StoredSession) (type : EventType) (payload : Dict Json) :
    Except PyError StoredSession :=
  (appendEvent call.toAmbient session.toInterviewSession type none payload).map fun logged =>
    { session with toInterviewSession := logged }

def assign (call : ReviewCall) (request : ReviewAssignmentCreateRequest) (assignedBy : String)
    (session : StoredSession) : Except PyError (ReviewAssignment × StoredSession) :=
  match activeAssignment session.reviewAssignments with
  | some active =>
    .error (.http 409 "Session already has an active review assignment {active.id}" [active.id])
  | none => do
    let assignment ← newAssignment call request assignedBy session
    let logged ← logReview call
      { session with reviewAssignments := session.reviewAssignments ++ [assignment] }
      .reviewAssigned [
        ("assignment_id", .str assignment.id),
        ("reviewer_id", .str assignment.reviewerId),
        ("assigned_by", .str assignment.assignedBy)]
    pure (assignment, logged)

def startAssignment (call : ReviewCall) (assignmentId reviewerId : String)
    (session : StoredSession) : Except PyError (ReviewAssignment × StoredSession) := do
  let assignment ← findAssignment session assignmentId
  if assignment.reviewerId ≠ reviewerId then
    .error (.http 403 "Review assignment belongs to another reviewer" [])
  else if assignment.status ≠ .open then
    .error (.http 409 "Only open review assignments can be started" [])
  else
    let started := { assignment with status := .inReview, startedAt := some call.timestamp }
    let logged ← logReview call (session.write started) .reviewStarted [
      ("assignment_id", .str assignment.id),
      ("reviewer_id", .str reviewerId)]
    pure (started, logged)

def completeAssignment (call : ReviewCall) (assignmentId : String)
    (request : ReviewAssignmentActionRequest) (reviewerId : String) (session : StoredSession) :
    Except PyError (ReviewAssignment × StoredSession) := do
  let assignment ← findAssignment session assignmentId
  if assignment.reviewerId ≠ reviewerId then
    .error (.http 403 "Review assignment belongs to another reviewer" [])
  else if assignment.status ≠ .inReview then
    .error (.http 409 "Only in-review assignments can be completed" [])
  else
    let completed := { assignment with
      status := .completed
      completedAt := some call.timestamp
      completionNote := request.note }
    let logged ← logReview call (session.write completed) .reviewCompleted [
      ("assignment_id", .str assignment.id),
      ("reviewer_id", .str reviewerId),
      ("note", .ofOption request.note)]
    pure (completed, logged)

def cancelAssignment (call : ReviewCall) (assignmentId : String)
    (request : ReviewAssignmentActionRequest) (cancelledBy : String) (session : StoredSession) :
    Except PyError (ReviewAssignment × StoredSession) := do
  let assignment ← findAssignment session assignmentId
  if !assignment.status.active then
    .error (.http 409 "Only active review assignments can be cancelled" [])
  else
    let cancelled := { assignment with
      status := .cancelled
      cancelledAt := some call.timestamp
      cancellationReason := request.note }
    let logged ← logReview call (session.write cancelled) .reviewAssignmentCancelled [
      ("assignment_id", .str assignment.id),
      ("reviewer_id", .str assignment.reviewerId),
      ("cancelled_by", .str cancelledBy),
      ("reason", .ofOption request.note)]
    pure (cancelled, logged)

/-- The four requests; the assignment is the one of the path. -/
inductive ReviewRequest where
  | assign (request : ReviewAssignmentCreateRequest)
  | start (assignmentId : String)
  | complete (assignmentId : String) (request : ReviewAssignmentActionRequest)
  | cancel (assignmentId : String) (request : ReviewAssignmentActionRequest)

/-- What the service makes of the session that it loaded, for the principal of the request. -/
def ReviewRequest.perform (call : ReviewCall) (principalId : String) (session : StoredSession) :
    ReviewRequest → Except PyError (ReviewAssignment × StoredSession)
  | .assign request => NoraInterviewer.assign call request principalId session
  | .start assignmentId => startAssignment call assignmentId principalId session
  | .complete assignmentId request =>
    completeAssignment call assignmentId request principalId session
  | .cancel assignmentId request => cancelAssignment call assignmentId request principalId session

/-- A client of the store that writes whole sessions; the review requests answer with the
assignment they wrote. -/
abbrev SessionProg := Prog StoredSession (Except PyError (Option ReviewAssignment))

/-- One review request of a principal. What the route checks on a session that it loads first (the
permission of the principal, `If-Match`) may refuse it. -/
structure ReviewClient where
  principalId : String
  request : ReviewRequest
  call : ReviewCall
  guard : StoredSession → Option (Except PyError (Option ReviewAssignment))

/-- The service method: `_get`, the operation, `_persist`. -/
def ReviewClient.service (client : ReviewClient) : SessionProg :=
  .load fun session =>
    if !client.call.jobFound then .done (.error (.http 500 "Session references a missing job" []))
    else match client.request.perform client.call client.principalId session with
      | .error e => .done (.error e)
      | .ok (assignment, written) => .put written fun committed =>
        .done (if committed then .ok (some assignment) else .error reviewChangedConcurrently)

def ReviewClient.route (client : ReviewClient) : SessionProg :=
  Prog.guarded client.guard client.service

end NoraInterviewer
