import NoraInterviewer.HttpRoutes

namespace NoraInterviewer

open ExceptRules OptimisticRuns

/-- The request is sent with an `If-Match` that names `version` of `session`. -/
def MutationRequest.Names (request : MutationRequest) (session : InterviewSession) (version : Nat) :
    Prop :=
  ∃ tag, request.ifMatch = some tag ∧ strip tag = etag session.id version

section

variable [CanonicalDigest]

end

section Runs

attribute [local instance] checksumDigest

end Runs

end NoraInterviewer
