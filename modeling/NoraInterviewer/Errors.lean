namespace NoraInterviewer

/-- What a brain, a judge or a tool evaluator may raise; the classes before `other` are the
ones the service tells apart. -/
inductive Raised where
  | valueError (message : String)
  | typeError (message : String)
  | validationError (message : String)
  | evidenceJudgeError (message : String)
  | other (className message : String)
  deriving DecidableEq

def Raised.className : Raised → String
  | valueError _ => "ValueError"
  | typeError _ => "TypeError"
  | validationError _ => "ValidationError"
  | evidenceJudgeError _ => "EvidenceJudgeError"
  | other name _ => name

def Raised.message : Raised → String
  | valueError m | typeError m | validationError m | evidenceJudgeError m | other _ m => m

/-- `except ValueError`; pydantic's `ValidationError` is one. -/
def Raised.isValueError : Raised → Bool
  | valueError _ | validationError _ => true
  | _ => false

/-- What leaves a service call. `http` keeps the values that the f-string of its detail
interpolates beside the text. -/
inductive PyError where
  | http (status : Nat) (detail : String) (values : List String)
  | auditChain (message : String)
  | raised (exception : Raised)
  deriving DecidableEq

def PyError.className : PyError → String
  | http _ _ _ => "HTTPException"
  | auditChain _ => "AuditChainError"
  | raised e => e.className

def PyError.message : PyError → String
  | http _ detail _ => detail
  | auditChain m => m
  | raised e => e.message

def PyError.isAuditChain : PyError → Bool
  | auditChain _ => true
  | _ => false

end NoraInterviewer
