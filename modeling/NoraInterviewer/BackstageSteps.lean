import NoraInterviewer.AnswerProgress
import NoraInterviewer.Backstage

namespace NoraInterviewer

open LockstepRuns

/-- The operations that neither ask the judge anew nor rewrite what a candidate said. -/
def Operation.Plain : Operation → Prop
  | .reevaluateEvidence _ | .correctTranscript _ => False
  | .candidateControl request => request.kind ≠ .correctLastAnswer
  | _ => True

variable [CanonicalDigest] {session session' : InterviewSession} {call : Call}
  {judge judge' : EvidenceJudge}

section Answers

end Answers

section Decisions

end Decisions

section Operations

end Operations

end NoraInterviewer
