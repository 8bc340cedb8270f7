import NoraInterviewer.EditSummaries
import NoraInterviewer.StoreEquivalence
import NoraInterviewer.ClientRuns
import NoraInterviewer.HttpRoutes

/-! Rubric drafts, from the drafter to their approval, as clients of a store. -/

namespace NoraInterviewer

open ClientRuns

structure RubricDraftRequest where
  title : String
  jobDescription : String
  locale : String := "en"
  competencyCount : Nat := 6
  maxQuestions : Nat := 10
  anchorRatio : ℚ := 2 / 5
  recruiterNotes : Option String := none
  competencyCount_range : 3 ≤ competencyCount ∧ competencyCount ≤ 12
  maxQuestions_range : 3 ≤ maxQuestions ∧ maxQuestions ≤ 30
  anchorRatio_range : 1 / 5 ≤ anchorRatio ∧ anchorRatio ≤ 4 / 5

def rubricDraftError (message : String) : Raised := .other "RubricDraftError" message

def Raised.isRubricDraftError (e : Raised) : Bool := e.className = "RubricDraftError"

/-- `json.loads`, and `RubricDraftCompetency.model_validate`. -/
structure DraftReader where
  loads : String → Except Raised Json
  competency : Json → Except Raised RubricDraftCompetency

/-- What `{.*}` finds, from the first opening brace to the last closing one. -/
def jsonObjectText (text : String) : Option String :=
  match text.toList.dropWhile (· ≠ '\x7b') with
  | [] => none
  | opening :: rest =>
    match rest.reverse.dropWhile (· ≠ '\x7d') with
    | [] => none
    | closing :: inner => some (String.ofList (opening :: (closing :: inner).reverse))

/-- `_parse_json_object`. -/
def parseJsonObject (reader : DraftReader) (raw : String) : Except Raised (Dict Json) :=
  match jsonObjectText (strip raw) with
  | none => .error (rubricDraftError "rubric drafter response did not contain a JSON object")
  | some text =>
    match reader.loads text with
    | .error e =>
      if e.className = "JSONDecodeError" then
        .error (rubricDraftError "rubric drafter returned invalid JSON")
      else .error e
    | .ok (.obj payload) => .ok payload
    | .ok _ => .error (rubricDraftError "rubric drafter response must be a JSON object")

/-- `warnings`, which is to be a list of strings. -/
def draftWarnings (payload : Dict Json) : Except Raised (List String) :=
  match payload.lookup "warnings" with
  | none => .ok []
  | some (.arr items) => items.mapM fun item =>
    match item with
    | .str warning => .ok warning
    | _ => .error (.valueError "warnings must be a list of strings")
  | some _ => .error (.valueError "warnings must be a list of strings")

/-- The constructor of `RubricDraft` for a draft that nobody has approved. -/
def RubricDraft.create (request : RubricDraftRequest) (drafterId id : String) (createdAt : DateTime)
    (competencies : List RubricDraftCompetency) (warnings : List String) :
    Except Raised RubricDraft :=
  if hlength : 3 ≤ competencies.length ∧ competencies.length ≤ 12 then
    if drafterId = "" ∨ 500 < drafterId.length then
      .error (.validationError "RubricDraft: drafter_id")
    else if hids : (competencies.map RubricDraftCompetency.id).Nodup then .ok {
      id, createdAt
      title := request.title
      jobDescription := request.jobDescription
      locale := request.locale
      competencies
      maxQuestions := request.maxQuestions
      anchorRatio := request.anchorRatio
      drafterId, warnings
      ranges := ⟨hlength.1, hlength.2, request.maxQuestions_range.1, request.maxQuestions_range.2,
        request.anchorRatio_range.1, request.anchorRatio_range.2⟩
      competency_ids_nodup := hids
      approval := unapproved_draft }
    else .error (.validationError "draft competency ids must be unique")
  else .error (.validationError "RubricDraft: competencies")

/-- `except (TypeError, ValueError)` of the drafter. -/
def draftInvalid (e : Raised) : Raised :=
  if e.isValueError ∨ e.className = "TypeError" then
    rubricDraftError ("rubric drafter output failed validation: " ++ e.message)
  else e

/-- `LLMRubricDrafter.draft`, given the completion of its prompt. -/
def llmDraft (reader : DraftReader) (drafterId : String) (request : RubricDraftRequest)
    (completion : Except Raised String) (id : String) (createdAt : DateTime) :
    Except Raised RubricDraft := do
  let raw ← completion
  let payload ← parseJsonObject reader raw
  match payload.lookup "competencies" with
  | some (.arr items) =>
    if items.length ≠ request.competencyCount then
      .error (rubricDraftError "rubric drafter returned the wrong competency count")
    else
      let drafted := do
        let competencies ← items.mapM reader.competency
        let warnings ← draftWarnings payload
        RubricDraft.create request drafterId id createdAt competencies warnings
      drafted.mapError draftInvalid
  | _ => .error (rubricDraftError "rubric drafter response is missing competencies")

/-- What `build_rubric_drafter` builds. -/
inductive RubricDrafter where
  | disabled
  | llm (reader : DraftReader) (drafterId : String)

def RubricDrafter.draft (drafter : RubricDrafter) (request : RubricDraftRequest)
    (completion : Except Raised String) (id : String) (createdAt : DateTime) :
    Except Raised RubricDraft :=
  match drafter with
  | disabled => .error (rubricDraftError
      "Rubric drafting is disabled. Configure NORA_RUBRIC_DRAFTER_MODE.")
  | llm reader drafterId => llmDraft reader drafterId request completion id createdAt

/-- A draft, an approval or a job: what the routes return. -/
inductive RubricOutcome where
  | draft (draft : RubricDraft)
  | approval (draft : RubricDraft) (job : JobSpec)
  | job (job : JobSpec)

/-- A request of the rubric and job routes, as a client of a store. -/
abbrev RubricProg := Prog StoreCall Reply (Except PyError RubricOutcome)

def rubricDraftNotFound : PyError := .http 404 "Rubric draft not found" []

/-- `put_rubric_draft` has replied. -/
def draftPut (draft : RubricDraft) : Reply → RubricProg
  | .raised _ => .done (.error (.http 409 "Rubric draft id collision" []))
  | _ => .done (.ok (.draft draft))

/-- `RubricWorkflowService.draft`, and what its route makes of a `RubricDraftError`. -/
def draftRubric (organizationId : Option String) (drafted : Except Raised RubricDraft) : RubricProg :=
  match drafted with
  | .error e =>
    if e.isRubricDraftError then .done (.error (.http 422 e.message []))
    else .done (.error (.raised e))
  | .ok draft =>
    let draft := if organizationId.isSome then { draft with organizationId } else draft
    .call (.putRubricDraft draft) (draftPut draft)

/-- `get_rubric_draft` has replied. -/
def draftFound (organizationId : Option String) (next : RubricDraft → RubricProg) :
    Reply → RubricProg
  | .draft (some draft) =>
    if organizationId.isSome ∧ draft.organizationId ≠ organizationId then
      .done (.error rubricDraftNotFound)
    else next draft
  | _ => .done (.error rubricDraftNotFound)

/-- `RubricWorkflowService.get`, and what comes after it. -/
def withDraft (draftId : String) (organizationId : Option String) (next : RubricDraft → RubricProg) :
    RubricProg :=
  .call (.getRubricDraft draftId) (draftFound organizationId next)

/-- What `RubricWorkflowService.approve` makes of what the store raises. -/
def approvalError (e : StoreError) : PyError :=
  if e.className = "KeyError" then rubricDraftNotFound else .http 409 e.message []

/-- `approve_rubric_draft` has replied. -/
def draftApproved (draft : RubricDraft) (job : JobSpec) : Reply → RubricProg
  | .raised e => .done (.error (approvalError e))
  | _ => .done (.ok (.approval draft job))

/-- `RubricWorkflowService.approve` once it has the draft. -/
def approveDraft (draftId : String) (request : RubricApprovalRequest) (minted approvedBy : String)
    (organizationId : Option String) (approvedAt : DateTime) (draft : RubricDraft) : RubricProg :=
  match approveWithProvenance draft request minted approvedBy organizationId approvedAt with
  | .error e => .done (.error e)
  | .ok (approvedDraft, job, _) =>
    .call (.approveRubricDraft draftId approvedDraft job) (draftApproved approvedDraft job)

/-- `create_job`. -/
def createJobProg (templates : List ToolTemplate) (job : JobSpec) (organizationId : Option String) :
    RubricProg :=
  match createJob templates job organizationId with
  | .error e => .done (.error e)
  | .ok job => .call (.putJob job) fun _ => .done (.ok (.job job))

inductive RubricPermission where
  | createJob | draftRubric | readRubricDraft | approveRubric
  deriving DecidableEq, Repr

def RubricPermission.value : RubricPermission → String
  | createJob => "create_job"
  | draftRubric => "draft_rubric"
  | readRubricDraft => "read_rubric_draft"
  | approveRubric => "approve_rubric"

/-- `_ROLE_PERMISSIONS` for these four, which a role has together. -/
def ActorRole.keepsRubrics : ActorRole → RubricPermission → Bool
  | recruiter, _ | service, _ => true
  | candidate, _ | reviewer, _ => false

/-- `require_global_permission`; no candidate gets past the role. -/
def requireRubricPermission (principal : Principal) (permission : RubricPermission) :
    Except PyError Unit :=
  if !principal.role.keepsRubrics permission then
    .error (.http 403 "Role {principal.role.value!r} does not have permission {permission.value!r}"
      [principal.role.value, permission.value])
  else .ok ()

/-- What a request asks for; `id` and `minted` are what `uuid4` gives it, `createdAt` and
`approvedAt` its clock. -/
inductive RubricAction where
  | draft (request : RubricDraftRequest) (completion : Except Raised String) (id : String)
    (createdAt : DateTime)
  | get (draftId : String)
  | approve (draftId : String) (request : RubricApprovalRequest) (minted : String)
    (approvedAt : DateTime)
  | createJob (job : JobSpec)

structure RubricRequest where
  principal : Principal
  action : RubricAction

def RubricAction.permission : RubricAction → RubricPermission
  | draft _ _ _ _ => .draftRubric
  | get _ => .readRubricDraft
  | approve _ _ _ _ => .approveRubric
  | createJob _ => .createJob

/-- What the route does for a principal that may ask for it. -/
def RubricRequest.service (drafter : RubricDrafter) (templates : List ToolTemplate)
    (request : RubricRequest) : RubricProg :=
  let organizationId := request.principal.organizationId
  match request.action with
  | .draft draftRequest completion id createdAt =>
    draftRubric organizationId (drafter.draft draftRequest completion id createdAt)
  | .get draftId => withDraft draftId organizationId fun draft => .done (.ok (.draft draft))
  | .approve draftId approval minted approvedAt =>
    withDraft draftId organizationId
      (approveDraft draftId approval minted request.principal.id organizationId approvedAt)
  | .createJob job => createJobProg templates job organizationId

def RubricRequest.route (drafter : RubricDrafter) (templates : List ToolTemplate)
    (request : RubricRequest) : RubricProg :=
  match requireRubricPermission request.principal request.action.permission with
  | .error e => .done (.error e)
  | .ok () => request.service drafter templates

/-- The store of the deployment. -/
inductive RubricStore where
  | memory
  | sqlite (codecs : Codecs)
  | postgres (codecs : Codecs)

open Simulation

def RubricStore.machine : RubricStore → Machine TimedCall Reply
  | memory => ⟨InMemoryStore, fun store call => store.step call.2⟩
  | sqlite codecs => sqliteMachine codecs
  | postgres codecs => postgresMachine codecs

def RubricStore.refinement : (kind : RubricStore) →
    Refinement kind.machine contentsMachine Prod.snd StoreCall.Issued Reply.Gives
  | memory => {
      rel := memoryRefinement.rel
      step := fun store contents call hissued h =>
        memoryRefinement.step store contents call.2 hissued h }
  | sqlite codecs => databaseRefinement codecs SqliteStore.put fun _ _ h => h.sqlitePut
  | postgres codecs => databaseRefinement codecs PostgresStore.put fun _ _ h => h.postgresPut

/-- A store that nothing has been put into. -/
def RubricStore.fresh : (kind : RubricStore) → kind.machine.State
  | memory => ({} : InMemoryStore)
  | sqlite codecs => ({} : Database codecs)
  | postgres codecs => ({} : Database codecs)

/-- What the store replies to a reader, whenever it asks. -/
def RubricStore.Shows (kind : RubricStore) (store : kind.machine.State) (call : StoreCall)
    (reply : Reply) : Prop :=
  ∀ now, (kind.machine.step store (now, call)).2 = reply

end NoraInterviewer
