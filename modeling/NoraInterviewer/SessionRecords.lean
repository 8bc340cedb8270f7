import NoraInterviewer.Models

namespace NoraInterviewer

inductive ReviewAssignmentStatus where
  | open | inReview | completed | cancelled
  deriving DecidableEq, Repr

def ReviewAssignmentStatus.active : ReviewAssignmentStatus → Bool
  | .open | .inReview => true
  | .completed | .cancelled => false

structure ReviewAssignment where
  id : String
  reviewerId : String
  assignedBy : String
  status : ReviewAssignmentStatus := .open
  createdAt : DateTime
  startedAt : Option DateTime := none
  completedAt : Option DateTime := none
  cancelledAt : Option DateTime := none
  assignmentNote : Option String := none
  completionNote : Option String := none
  cancellationReason : Option String := none
  deriving DecidableEq

structure ArtifactRecord where
  id : String
  storageKey : String
  kind : String
  mediaType : String
  sizeBytes : Nat
  sha256 : String
  createdAt : DateTime
  createdBy : String
  deletedAt : Option DateTime := none
  deletedBy : Option String := none
  deletionReason : Option String := none
  deriving DecidableEq

/-- An `InterviewSession` with the two lists that the interview itself never touches. -/
structure StoredSession extends InterviewSession where
  reviewAssignments : List ReviewAssignment := []
  artifacts : List ArtifactRecord := []

end NoraInterviewer
